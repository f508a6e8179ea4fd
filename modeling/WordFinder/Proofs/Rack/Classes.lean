import Mathlib
import WordFinder.Proofs.Lists
import WordFinder.Walk.RackLoop

/-!
# Classes and their bits

The bits of a word say which classes of a list are used. Setting the bit of a class that is not used
takes the first class like it out of those that are left.
-/
set_option autoImplicit false

namespace WordFinder

variable {used : BitVec 32} {i j : Nat}

/-! ## Bits -/

theorem bit?_eq (inside : i < 32) : bit? i = some (1#32 <<< i) :=
  if_pos inside

theorem and_bit_eq_zero_iff (inside : i < 32) :
    used &&& 1#32 <<< i = 0 ↔ used.getLsbD i = false := by
  have nonzero : BitVec.twoPow 32 i ≠ 0 := fun zero => by
    have bit := congrArg (·.getLsbD i) zero
    simp [inside] at bit
  rw [← BitVec.twoPow_eq, BitVec.and_twoPow]
  cases used.getLsbD i with
  | false => simp
  | true => simpa using nonzero

theorem getLsbD_or_bit (inside : i < 32) :
    (used ||| 1#32 <<< i).getLsbD j = (used.getLsbD j || decide (i = j)) := by
  rw [← BitVec.twoPow_eq, BitVec.getLsbD_or, BitVec.getLsbD_twoPow]
  simp [inside]

/-! ## Classes left -/

def unusedOf (used : BitVec 32) (pairs : List (LetterClass × Nat)) : List LetterClass :=
  (pairs.filter fun pair => !used.getLsbD pair.2).map Prod.fst

theorem unusedOf_zero (classes : List LetterClass) :
    unusedOf 0 classes.zipIdx = classes := by
  simp [unusedOf]

theorem length_unusedOf_add {classes : List LetterClass} (few : classes.length ≤ 32)
    (inside : ∀ i, used.getLsbD i = true → i < classes.length) :
    (unusedOf used classes.zipIdx).length + bitCount used = classes.length := by
  have indices : classes.zipIdx.map Prod.snd = List.range classes.length := by
    rw [List.zipIdx_map_snd, List.range_eq_range']
  have unused : (unusedOf used classes.zipIdx).length =
      (List.range classes.length).countP fun i => !used.getLsbD i := by
    rw [unusedOf, List.length_map, ← List.countP_eq_length_filter, ← indices, List.countP_map]
    rfl
  have set : bitCount used = (List.range classes.length).countP used.getLsbD := by
    obtain ⟨more, whole⟩ := Nat.exists_eq_add_of_le few
    have range : List.range 32 =
        List.range classes.length ++ (List.range more).map (classes.length + ·) := by
      rw [whole, List.range_add]
    rw [bitCount, range, List.countP_append, List.countP_map, Nat.add_eq_left,
      List.countP_eq_zero]
    intro i _ bit
    exact absurd (inside _ bit) (Nat.not_lt.mpr (Nat.le_add_right ..))
  have both := List.length_eq_countP_add_countP used.getLsbD (l := List.range classes.length)
  rw [List.length_range] at both
  rw [unused, set]
  simp only [Bool.not_eq_true, Bool.decide_eq_false] at both
  omega

theorem unusedOf_or_bit {before after : List (LetterClass × Nat)} {k : LetterClass}
    (inside : i < 32) (unused : used.getLsbD i = false)
    (first : ∀ pair ∈ before, used.getLsbD pair.2 = false → pair.1 ≠ k)
    (apart : ∀ pair ∈ before ++ after, pair.2 ≠ i) :
    unusedOf (used ||| 1#32 <<< i) (before ++ (k, i) :: after) =
      (unusedOf used (before ++ (k, i) :: after)).erase k := by
  have others (pairs : List (LetterClass × Nat)) (away : ∀ pair ∈ pairs, pair.2 ≠ i) :
      unusedOf (used ||| 1#32 <<< i) pairs = unusedOf used pairs := by
    rw [unusedOf, unusedOf]
    refine congrArg _ (List.filter_congr fun pair member => ?_)
    rw [getLsbD_or_bit inside, decide_eq_false (Ne.symm (away pair member)), Bool.or_false]
  have notBefore : k ∉ unusedOf used before := by
    rw [unusedOf, List.mem_map]
    rintro ⟨pair, member, same⟩
    rw [List.mem_filter, Bool.not_eq_true'] at member
    exact first pair member.1 member.2 same
  have split (bits : BitVec 32) : unusedOf bits (before ++ (k, i) :: after) =
      unusedOf bits before ++ ((if bits.getLsbD i then [] else [k]) ++ unusedOf bits after) := by
    cases bit : bits.getLsbD i <;> simp [unusedOf, bit]
  rw [split, split, getLsbD_or_bit inside, unused, others before, others after,
    List.erase_append_right _ notBefore]
  · simp
  · exact fun pair member => apart pair (List.mem_append_right _ member)
  · exact fun pair member => apart pair (List.mem_append_left _ member)

/-! ## Classes that can supply a letter -/

/-- The class of a pair is one that can supply a letter, and the first such one that is like it. -/
structure IsOption (used : BitVec 32) (c : Char) (seen : List LetterClass)
    (pairs : List (LetterClass × Nat)) (option : Consumption) (k : LetterClass) : Prop where
  new : k ∉ seen
  accepts : k.accepts c = true
  place : ∃ before i after, option = .classSlot i ∧ pairs = before ++ (k, i) :: after ∧
    used.getLsbD i = false ∧ ∀ pair ∈ before, used.getLsbD pair.2 = false → pair.1 ≠ k

variable {c : Char} {seen : List LetterClass} {pairs : List (LetterClass × Nat)}

theorem IsOption.cons {option : Consumption} {k : LetterClass} {pair : LetterClass × Nat}
    (isOption : IsOption used c seen pairs option k)
    (other : used.getLsbD pair.2 = false → pair.1 ≠ k) :
    IsOption used c seen (pair :: pairs) option k where
  new := isOption.new
  accepts := isOption.accepts
  place := by
    obtain ⟨before, i, after, same, whole, unused, first⟩ := isOption.place
    exact ⟨pair :: before, i, after, same, by rw [whole, List.cons_append], unused,
      List.forall_mem_cons.mpr ⟨other, first⟩⟩

/-- The classes not seen yet that can supply a letter, each once. -/
def newAccepting (used : BitVec 32) (c : Char) (seen : List LetterClass)
    (pairs : List (LetterClass × Nat)) : List LetterClass :=
  ((unusedOf used pairs).filter fun k => k.accepts c && !seen.contains k).eraseDups

theorem newAccepting_cons_of_taken {k : LetterClass} (unused : used.getLsbD i = false)
    (accepts : k.accepts c = true) (new : k ∉ seen) :
    newAccepting used c seen ((k, i) :: pairs) = k :: newAccepting used c (seen ++ [k]) pairs := by
  have first : unusedOf used ((k, i) :: pairs) = k :: unusedOf used pairs := by
    simp [unusedOf, unused]
  rw [newAccepting, first, List.filter_cons_of_pos (by simp [accepts, new]), List.eraseDups_cons,
    List.filter_filter, newAccepting]
  congr 2
  refine List.filter_congr fun other _ => ?_
  by_cases same : other = k <;> simp [same]

theorem newAccepting_cons_of_passed {k : LetterClass}
    (passed : used.getLsbD i = false → k.accepts c = true → k ∈ seen) :
    newAccepting used c seen ((k, i) :: pairs) = newAccepting used c seen pairs := by
  cases unused : used.getLsbD i with
  | true =>
    have same : unusedOf used ((k, i) :: pairs) = unusedOf used pairs := by simp [unusedOf, unused]
    rw [newAccepting, same, newAccepting]
  | false =>
    have first : unusedOf used ((k, i) :: pairs) = k :: unusedOf used pairs := by
      simp [unusedOf, unused]
    rw [newAccepting, first, List.filter_cons_of_neg (by simpa using passed unused), newAccepting]

/-- The options are the different classes left that accept the letter. The induction is on the
classes; those that are passed over are never options, and those that are options are seen. -/
theorem exists_classOptions? (used : BitVec 32) (c : Char) (seen : List LetterClass)
    (inside : ∀ pair ∈ pairs, pair.2 < 32) :
    ∃ options, classOptions? used c seen pairs = some options ∧
      List.Forall₂ (IsOption used c seen pairs) options (newAccepting used c seen pairs) := by
  induction pairs generalizing seen with
  | nil => exact ⟨[], rfl, List.Forall₂.nil⟩
  | cons pair pairs ih =>
    obtain ⟨k, i⟩ := pair
    obtain ⟨here, others⟩ := List.forall_mem_cons.mp inside
    rw [classOptions?, bit?_eq here, Option.bind_eq_bind, Option.bind_some]
    have taken : (used &&& 1#32 <<< i = 0 && k.accepts c && !seen.contains k) = true ↔
        used.getLsbD i = false ∧ k.accepts c = true ∧ k ∉ seen := by
      rw [Bool.and_eq_true, Bool.and_eq_true, decide_eq_true_eq, and_bit_eq_zero_iff here]
      simp [and_assoc]
    split
    · next test =>
      obtain ⟨unused, accepts, new⟩ := taken.mp test
      obtain ⟨options, rest, alike⟩ := ih (seen ++ [k]) others
      refine ⟨.classSlot i :: options, by rw [rest]; rfl, ?_⟩
      rw [newAccepting_cons_of_taken unused accepts new]
      refine List.Forall₂.cons ⟨new, accepts, [], i, pairs, rfl, rfl, unused, by simp⟩ ?_
      refine alike.imp fun option l isOption => ?_
      have notSeen := isOption.new
      rw [List.mem_append, List.mem_singleton, not_or] at notSeen
      exact IsOption.cons ⟨notSeen.1, isOption.accepts, isOption.place⟩ fun _ =>
        Ne.symm notSeen.2
    · next test =>
      have passed : used.getLsbD i = false → k.accepts c = true → k ∈ seen := fun unused accepts =>
        by_contra fun new => test (taken.mpr ⟨unused, accepts, new⟩)
      obtain ⟨options, rest, alike⟩ := ih seen others
      refine ⟨options, rest, ?_⟩
      rw [newAccepting_cons_of_passed passed]
      refine alike.imp fun option l isOption => isOption.cons fun unused => ?_
      rintro rfl
      exact isOption.new (passed unused isOption.accepts)

end WordFinder
