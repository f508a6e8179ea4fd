import Mathlib
import WordFinder.Proofs.Lists
import WordFinder.Proofs.Text.Upper
import WordFinder.Rack.Counted

/-!
# Counts of slots

A table of counts stands for a list of capital letters if it has the count of each letter of the
alphabet. The rack of a search string and the counted rack of the same string then have the same
slots, saturated counts included.
-/
set_option autoImplicit false

namespace WordFinder

/-! ## Indices -/

theorem exists_letterIndex? {c : Char} (capital : c.isUpper = true) :
    ∃ i, letterIndex? c = some i ∧ alphabet[i.val]? = some c := by
  have every : (alphabet.all fun c =>
      (letterIndex? c).any fun i => alphabet[i.val]? == some c) = true := by decide
  have here := List.all_eq_true.mp every c (Text.mem_alphabet_iff.mpr capital)
  cases found : letterIndex? c with
  | none => rw [found] at here; contradiction
  | some i => exact ⟨i, rfl, by simpa [found] using here⟩

theorem nodup_alphabet : alphabet.Nodup := by decide

/-! ## Tables -/

theorem get_withCount (table : Vector UInt8 26) (i j : Fin 26) (n : UInt8) :
    (withCount table i n).get j = if i = j then n else table.get j := by
  change (table.set i n)[j.val] = if i = j then n else table[j.val]
  simp only [Vector.getElem_set, Fin.ext_iff]

structure Counts (table : Vector UInt8 26) (letters : List Char) : Prop where
  capitals : AreCapitals letters
  counts : table.toList.map UInt8.toNat = alphabet.map fun c => letters.count c

namespace Counts

variable {table : Vector UInt8 26} {letters others : List Char} {c : Char} {i : Fin 26}

theorem toNat_get (same : Counts table letters) (index : alphabet[i.val]? = some c) :
    (table.get i).toNat = letters.count c := by
  have here := congrArg (·[i.val]?) same.counts
  change table[i.val].toNat = letters.count c
  simpa [index] using here

theorem withCount (same : Counts table letters) (index : alphabet[i.val]? = some c) {n : UInt8}
    (capitals : AreCapitals others) (here : n.toNat = others.count c)
    (elsewhere : ∀ d ≠ c, others.count d = letters.count d) :
    Counts (withCount table i n) others where
  capitals := capitals
  counts := by
    rw [WordFinder.withCount, Vector.toList_set, List.map_set, same.counts]
    refine List.ext_getElem? fun j => ?_
    rw [List.getElem?_set, List.getElem?_map, List.getElem?_map]
    by_cases equal : i.val = j
    · subst equal
      have inside := (List.getElem?_eq_some_iff.mp index).1
      rw [if_pos rfl, if_pos (by simpa using inside), index, here, Option.map_some]
    · rw [if_neg equal]
      refine Option.map_congr fun d found => (elsewhere d ?_).symm
      rintro rfl
      exact equal (position_unique nodup_alphabet index found)

theorem countSum_eq (same : Counts table letters) : countSum table = letters.length := by
  have among : ∀ c ∈ (letters : Multiset Char), c ∈ alphabet.toFinset := fun c member =>
    List.mem_toFinset.mpr (Text.mem_alphabet_iff.mpr (same.capitals c member))
  rw [countSum, totalOf_eq_sum, same.counts, ← List.sum_toFinset _ nodup_alphabet]
  simpa using Multiset.sum_count_eq_card among

end Counts

/-! ## Arithmetic -/

theorem toNat_increased (n : UInt8) : (increased n).toNat = min (n.toNat + 1) Rack.maxCopies := by
  have bound := n.toNat_lt
  rw [increased]
  split
  · next full => rw [full]; rfl
  · next room =>
    have small : n.toNat ≠ 255 := fun full => room (UInt8.toNat_inj.mp full)
    rw [UInt8.toNat_add, Rack.maxCopies, UInt8.toNat_one]
    omega

theorem exists_decreased? {n : UInt8} (left : n ≠ 0) :
    ∃ less, decreased? n = some less ∧ less.toNat + 1 = n.toNat ∧ less ≤ n := by
  have positive : 0 < n.toNat := Nat.pos_of_ne_zero fun zero => left (UInt8.toNat_inj.mp zero)
  have one : (1 : UInt8) ≤ n := UInt8.le_iff_toNat_le.mpr positive
  have less : (n - 1).toNat + 1 = n.toNat := by
    rw [UInt8.toNat_sub_of_le _ _ one, UInt8.toNat_one]
    omega
  refine ⟨n - 1, if_neg left, less, UInt8.le_iff_toNat_le.mpr ?_⟩
  omega

/-! ## Racks -/

namespace CountedRack

/-- A counted rack has the slots of a rack. -/
structure StandsFor (counted : CountedRack) (rack : Rack) : Prop where
  letters : Counts counted.letters rack.letters
  blanks : counted.blanks.toNat = rack.blanks
  classes : counted.classes = rack.classes
  star : counted.star = rack.star

variable {counted : CountedRack} {rack : Rack}

theorem standsFor_empty : empty.StandsFor Rack.empty where
  letters := ⟨fun c member => absurd member List.not_mem_nil, by decide⟩
  blanks := rfl
  classes := rfl
  star := rfl

theorem StandsFor.add? (same : counted.StandsFor rack) (token : Token)
    (capital : ∀ c, token = .letter c → c.isUpper = true) :
    ∃ later, counted.add? token = some later ∧ later.StandsFor (rack.add token) := by
  cases token with
  | letter c =>
    obtain ⟨i, found, index⟩ := exists_letterIndex? (capital c rfl)
    have here := same.letters.toNat_get index
    have counts : Counts (withCount counted.letters i (increased (counted.letters.get i)))
        (rack.add (.letter c)).letters := by
      have full := toNat_increased (counted.letters.get i)
      rw [Rack.add]
      split
      · refine same.letters.withCount index ?_ ?_ fun d other => ?_
        · exact areCapitals_cons.mpr ⟨capital c rfl, same.letters.capitals⟩
        · rw [List.count_cons_self]
          omega
        · exact List.count_cons_of_ne (Ne.symm other)
      · next saturated =>
        have bound := (counted.letters.get i).toNat_lt
        refine same.letters.withCount index same.letters.capitals ?_ fun _ _ => rfl
        rw [Rack.maxCopies] at full saturated
        omega
    refine ⟨_, by rw [CountedRack.add?, found]; rfl, counts, ?_, ?_, ?_⟩
    · rw [Rack.add]
      split <;> exact same.blanks
    · rw [Rack.add]
      split <;> exact same.classes
    · rw [Rack.add]
      split <;> exact same.star
  | any =>
    refine ⟨_, rfl, same.letters, ?_, same.classes, same.star⟩
    rw [toNat_increased, same.blanks]
    rfl
  | oneOf k => exact ⟨_, rfl, same.letters, same.blanks, by rw [same.classes]; rfl, same.star⟩
  | star => exact ⟨_, rfl, same.letters, same.blanks, same.classes, rfl⟩

theorem StandsFor.slotCount (same : counted.StandsFor rack) :
    counted.slotCount = rack.slotCount := by
  rw [CountedRack.slotCount, Rack.slotCount, same.letters.countSum_eq, same.blanks, same.classes]

theorem exists_ofTokens? {tokens : List Token}
    (capitals : ∀ c, .letter c ∈ tokens → c.isUpper = true) :
    ∃ counted, ofTokens? tokens = some counted ∧ counted.StandsFor (Rack.ofTokens tokens) := by
  induction tokens using List.reverseRecOn with
  | nil => exact ⟨empty, rfl, standsFor_empty⟩
  | append_singleton tokens token ih =>
    obtain ⟨counted, built, same⟩ := ih fun c member => capitals c (List.mem_append_left _ member)
    obtain ⟨later, added, stands⟩ := same.add? token fun c equal =>
      capitals c (by simp [equal])
    refine ⟨later, ?_, ?_⟩
    · rw [ofTokens?, List.foldlM_append, ← ofTokens?, built]
      simpa using added
    · rw [Rack.ofTokens, List.foldl_append]
      exact stands

end CountedRack

theorem Token.isUpper_of_ofString? {text : String} {tokens : List Token}
    (read : ofString? text = some tokens) {c : Char} (member : .letter c ∈ tokens) :
    c.isUpper = true := by
  obtain ⟨piece, _, first⟩ := exists_of_forall₂_of_mem (forall₂_of_mapM read).flip member
  cases piece with
  | plain d =>
    rw [ofPiece?] at first
    split_ifs at first with any star letter
    · cases first
    · cases first
    · cases first
      rwa [Char.isUpper_toUpper_eq_isAlpha]
  | letterClass members =>
    obtain ⟨_, _, same⟩ := Option.map_eq_some_iff.mp first
    contradiction
  | unclosed members => contradiction

theorem CountedRack.exists_ofString? {text : String} {tokens : List Token}
    (read : Token.ofString? text = some tokens) :
    ∃ counted, ofTokens? tokens = some counted ∧ counted.StandsFor (Rack.ofTokens tokens) :=
  exists_ofTokens? fun _ member => Token.isUpper_of_ofString? read member

end WordFinder
