import Mathlib
import WordFinder.Proofs.Search.Requirements

/-!
# Slots beyond the signed range

The slots of a search string are counted with a signed number of 32 bits. From 2^31 slots on the count
is negative, and a subanagram of that many blanks, which every word meets, is taken for a
contradiction. That is why a search is optimized and answered as it is written only if the slots of its
subanagrams can be counted.
-/
set_option autoImplicit false

namespace WordFinder

theorem SearchString.units_replicate_any (n : Nat) :
    units (List.replicate n '?') = List.replicate n (.plain '?') := by
  have pieces : piecesFrom none (List.replicate n '?') = List.replicate n (.plain '?') := by
    induction n with
    | zero => rfl
    | succ n ih =>
      rw [List.replicate_succ, List.replicate_succ, piecesFrom, if_neg (by decide),
        if_neg (by decide), ih]
  rw [units, pieces]
  apply collapseStars_eq_self
  refine List.Pairwise.isChain (List.pairwise_of_forall_mem_list fun first member second _ => ?_)
  intro holds
  obtain ⟨star, _⟩ := holds
  rw [List.eq_of_mem_replicate member] at star
  exact absurd star (by decide)

theorem SearchString.classCount_replicate_any (n : Nat) :
    classCount (.ofList (List.replicate n '?')) = 0 := by
  rw [classCount, String.toList_ofList, units_replicate_any, List.countP_replicate]
  rfl

theorem Token.ofString?_replicate_any (n : Nat) :
    Token.ofString? (.ofList (List.replicate n '?')) = some (List.replicate n .any) := by
  rw [Token.ofString?, String.toList_ofList, SearchString.units_replicate_any]
  induction n with
  | zero => rfl
  | succ n ih =>
    rw [List.replicate_succ, List.mapM_cons, ih]
    rfl

namespace Rack

theorem foldl_add_any (n : Nat) (rack : Rack) (kept : rack.blanks ≤ maxCopies) :
    (List.replicate n Token.any).foldl add rack =
      { rack with blanks := min (rack.blanks + n) maxCopies } := by
  induction n generalizing rack with
  | zero =>
    rw [List.replicate_zero, List.foldl_nil, Nat.add_zero, Nat.min_eq_left kept]
  | succ n ih =>
    rw [List.replicate_succ, List.foldl_cons, ih]
    · simp only [add, mk.injEq, true_and, and_true]
      omega
    · simp only [add]
      omega

theorem takeLetters_nil (word : List Char) : takeLetters [] word = (word, []) := by
  induction word with
  | nil => rfl
  | cons c word ih => rw [takeLetters_cons_of_notMem (by simp), ih]

theorem canSupply_blanks {word : List Char} {star : Bool} {classes : List LetterClass}
    {blanks : Nat} (enough : word.length ≤ blanks) :
    canSupply star true word classes blanks = true := by
  induction word generalizing blanks with
  | nil => rfl
  | cons c word ih =>
    rw [List.length_cons] at enough
    rw [canSupply_cons_iff]
    right; left
    exact ⟨by omega, ih (by omega)⟩

end Rack

variable {n : Nat} {x : Lexicon} {word : String}

def Condition.ofBlanks (n : Nat) : Condition :=
  .ofText .subanagramMatch (.ofList (List.replicate n '?'))

theorem Condition.listsLetters_ofBlanks (n : Nat) : (ofBlanks n).ListsLetters :=
  nofun

theorem Lexicon.meets_ofBlanks (storable : IsStorable word.toList) (enough : maxWordLength ≤ n) :
    x.meets word (.ofBlanks n) = true := by
  have few : Rack.ofTokens (List.replicate n .any) = ⟨[], min n Rack.maxCopies, [], false⟩ := by
    rw [Rack.ofTokens, Rack.foldl_add_any n _ (Nat.zero_le _)]
    simp [Rack.empty]
  have letters : word.toList ≠ [] := List.ne_nil_of_length_pos storable.nonempty
  have capitals : word.toList.all Char.isUpper = true := List.all_eq_true.mpr storable.capitals
  have supplied : Rack.canSupply false true word.toList [] (min n Rack.maxCopies) = true := by
    apply Rack.canSupply_blanks
    have short := storable.short
    have most : maxWordLength ≤ Rack.maxCopies := by decide
    omega
  simp only [meets, Condition.ofBlanks, Condition.ofText, Condition.rackVerdict, Rack.ofString?,
    Token.ofString?_replicate_any, Option.map_some, Option.any_some, Condition.verdict, few,
    Rack.spells, Text.map_toUpper_of_capitals storable.capitals, Rack.takeLetters_nil, supplied,
    capitals, decide_true, Bool.true_or, Bool.and_true, Bool.bne_false, Bool.not_eq_true',
    List.isEmpty_eq_false_iff]
  exact letters

theorem Lexicon.meetsAll_ofBlanks (storable : IsStorable word.toList) (enough : maxWordLength ≤ n) :
    x.meetsAll word [.ofBlanks n] = true := by
  rw [meetsAll, List.all_cons, meets_ofBlanks storable enough, List.all_nil, Bool.and_true]

theorem Lexicon.meetsSpec_ofBlanks (storable : IsStorable word.toList) (enough : maxWordLength ≤ n) :
    x.meetsSpec word (.allOf [.ofBlanks n]) = true :=
  meetsAll_ofBlanks storable enough

theorem SearchSpec.optimize_ofBlanks (low : 2 ^ 31 ≤ n) (high : n < 2 ^ 32) :
    (allOf [.ofBlanks n]).optimize.2 = .contradictory := by
  have read := Token.ofString?_replicate_any n
  have slots : Token.slots (List.replicate n .any) = n := by
    rw [Token.slots, List.countP_replicate, if_pos (by decide)]
  have negative : (Int32.ofNat n).toInt < 0 := by
    rw [Int32.toInt_ofNat', show Int32.size = 2 ^ 32 from rfl]
    rw [Int.bmod_def]
    omega
  have none : Requirements.add {} (Condition.ofBlanks n).canonical = none := by
    rw [Condition.canonical_of_kind (Or.inl rfl)]
    simp only [Requirements.add, Condition.ofBlanks, Condition.ofText, Requirements.boundByMatch,
      SearchString.contains_star_canonical read, SearchString.slotCount_canonical read, slots]
    rw [if_neg (by simp), Requirements.boundLength, if_neg]
    simp only [Windows.lengthsPossible, Bool.and_eq_true, decide_eq_true_eq, gt_iff_lt,
      Int32.lt_iff_toInt_lt, Window.tighten, toInt_min, Windows.toInt_zero]
    omega
  have unmergeable : mergeAll [.ofBlanks n] = Option.none := by
    rw [mergeAll, List.map_singleton, Requirements.addAll_cons, none]
    rfl
  rw [optimize, allOf, unmergeable]
  rfl

end WordFinder
