import Mathlib
import WordFinder.Proofs.Letter
import WordFinder.Proofs.Rack.Assignment
import WordFinder.Proofs.SearchString.Letters
import WordFinder.Proofs.SearchString.Passes

/-!
# Racks of plain texts

A plain text has no letter behind an opening bracket, like a text whose characters were put in order.
No class in it has a member, so that it cannot be read as a rack if it has a bracket. Without one it is
a supply of letters and blanks: white space, `?`, `.` and `*` have their meaning wherever they stand.
-/
set_option autoImplicit false

namespace WordFinder

theorem LetterClass.ofMembers?_of_noLetters {members : List Char}
    (noLetters : ∀ c ∈ members, c.isAlpha = false) : ofMembers? members = none := by
  cases shape : listed members with
  | nil =>
    rw [ofMembers?_eq, shape]
    rfl
  | cons d others =>
    have member : d ∈ listed members := shape ▸ List.mem_cons_self
    apply ofMembers?_eq_none member
    obtain ⟨c, inside, rfl⟩ := List.mem_map.mp member
    rw [Char.isUpper_toUpper_eq_isAlpha]
    split at inside
    · exact noLetters c (List.mem_of_mem_tail inside)
    · exact noLetters c inside

namespace SearchString

/-! ## What a text asks for -/

/-- The characters that mean something in a search string, outside of classes, without being
letters. -/
def isSign (c : Char) : Bool :=
  Text.isBlank c || c == '?' || c == '.' || c == '*'

theorem isSign_iff {c : Char} :
    isSign c = true ↔ Text.isBlank c = true ∨ (c = '?' ∨ c = '.') ∨ c = '*' := by
  simp only [isSign, Bool.or_eq_true, beq_iff_eq, or_assoc]

theorem not_isSign_of_isAlpha {c : Char} (letter : c.isAlpha = true) : isSign c = false := by
  rw [Bool.eq_false_iff]
  intro sign
  obtain blank | (rfl | rfl) | rfl := isSign_iff.mp sign
  · rw [not_isAlpha_of_isBlank blank] at letter
    contradiction
  all_goals exact absurd letter (by decide)

/-- The letters of any kind that a text asks for, outside of classes. -/
def anyCount (s : List Char) : Nat :=
  s.countP fun c => c == '?' || c == '.'

def slotsIn (s : List Char) : Multiset Token :=
  Rack.Supplied.letterSlots (lettersOf s) + Multiset.replicate (anyCount s) .any

theorem slotsIn_cons (c : Char) (s : List Char) : slotsIn (c :: s) = slotsIn [c] + slotsIn s := by
  have letters : lettersOf (c :: s) = lettersOf [c] ++ lettersOf s := by
    rw [← lettersOf_append, List.singleton_append]
  have anys : anyCount (c :: s) = anyCount [c] + anyCount s := by
    rw [anyCount, anyCount, anyCount, ← List.countP_append, List.singleton_append]
  rw [slotsIn, slotsIn, slotsIn, letters, anys, Multiset.replicate_add, Rack.Supplied.letterSlots,
    Rack.Supplied.letterSlots, Rack.Supplied.letterSlots, ← Multiset.coe_add, Multiset.map_add,
    add_add_add_comm]

/-- What a text asks of a word that may have its letters in any order. The text has no characters but
letters and signs, its letters are among those of the word, and its slots are as many as the letters
of the word, or fewer if it has a star. -/
structure Asks (s word : List Char) : Prop where
  readable : ∀ c ∈ s, c.isAlpha = true ∨ isSign c = true
  within : (lettersOf s).Subperm word
  counted : (lettersOf s).length + anyCount s = word.length ∨
    '*' ∈ s ∧ (lettersOf s).length + anyCount s ≤ word.length

theorem asks_iff {s word : List Char} :
    Asks s word ↔ (∀ c ∈ s, c.isAlpha = true ∨ isSign c = true) ∧ (lettersOf s).Subperm word ∧
      ((lettersOf s).length + anyCount s = word.length ∨
        '*' ∈ s ∧ (lettersOf s).length + anyCount s ≤ word.length) :=
  ⟨fun ⟨readable, within, counted⟩ => ⟨readable, within, counted⟩,
    fun ⟨readable, within, counted⟩ => ⟨readable, within, counted⟩⟩

instance (s word : List Char) : Decidable (Asks s word) :=
  decidable_of_iff
    ((s.all fun c => c.isAlpha || isSign c) = true ∧ (lettersOf s).Subperm word ∧
      ((lettersOf s).length + anyCount s = word.length ∨
        '*' ∈ s ∧ (lettersOf s).length + anyCount s ≤ word.length))
    (by simp only [asks_iff, List.all_eq_true, Bool.or_eq_true])

theorem isSign_toUpper (c : Char) : isSign c.toUpper = isSign c := by
  rw [Bool.eq_iff_iff, isSign_iff, isSign_iff, Text.isBlank_toUpper,
    Text.toUpper_eq_iff (by decide), Text.toUpper_eq_iff (by decide),
    Text.toUpper_eq_iff (by decide)]

theorem asks_congr {s t word : List Char} (same : t.Perm (s.map Char.toUpper)) :
    Asks t word ↔ Asks s word := by
  have readable : (∀ c ∈ t, c.isAlpha = true ∨ isSign c = true) ↔
      ∀ c ∈ s, c.isAlpha = true ∨ isSign c = true := by
    simp only [same.mem_iff, List.forall_mem_map, Char.isAlpha_toUpper_eq_isAlpha, isSign_toUpper]
  have letters : (lettersOf t).Perm (lettersOf s) := by
    rw [← lettersOf_map_toUpper s]
    exact (same.filter _).map _
  have anys : anyCount t = anyCount s := by
    rw [anyCount, same.countP_eq, List.countP_map, anyCount]
    refine List.countP_congr fun c _ => ?_
    simp only [Function.comp_apply, Bool.or_eq_true, beq_iff_eq]
    rw [Text.toUpper_eq_iff (by decide), Text.toUpper_eq_iff (by decide)]
  have star : '*' ∈ t ↔ '*' ∈ s := by
    have notLetter : Char.isAlpha '*' = false := by decide
    rw [same.mem_iff, List.mem_map]
    simp only [Text.toUpper_eq_iff notLetter, exists_eq_right]
  rw [asks_iff, asks_iff, readable, letters.subperm_right, letters.length_eq, anys, star]

theorem lettersOf_of_letters {s : List Char} (letters : ∀ c ∈ s, c.isAlpha = true) :
    lettersOf s = s.map Char.toUpper := by
  rw [lettersOf, List.filter_eq_self.mpr letters]

theorem anyCount_of_letters {s : List Char} (letters : ∀ c ∈ s, c.isAlpha = true) :
    anyCount s = 0 := by
  rw [anyCount, List.countP_eq_zero]
  intro c member any
  have sign : isSign c = true := isSign_iff.mpr (Or.inr (Or.inl (by simpa using any)))
  rw [not_isSign_of_isAlpha (letters c member)] at sign
  contradiction

theorem perm_iff_asks {s word : List Char} (capitals : AreCapitals word) :
    word.Perm (s.map Char.toUpper) ↔ (∀ c ∈ s, isSign c = false) ∧ Asks s word := by
  constructor
  · intro perm
    have letters : ∀ c ∈ s, c.isAlpha = true := by
      intro c member
      rw [← Char.isUpper_toUpper_eq_isAlpha]
      exact capitals _ (perm.mem_iff.mpr (List.mem_map_of_mem member))
    refine ⟨fun c member => not_isSign_of_isAlpha (letters c member),
      fun c member => Or.inl (letters c member), ?_, Or.inl ?_⟩
    · rw [lettersOf_of_letters letters]
      exact perm.symm.subperm
    · rw [anyCount_of_letters letters, lettersOf_of_letters letters, perm.length_eq, Nat.add_zero]
  · rintro ⟨noSigns, readable, within, counted⟩
    have letters : ∀ c ∈ s, c.isAlpha = true := fun c member =>
      (readable c member).resolve_right (Bool.eq_false_iff.mp (noSigns c member))
    have noStar : '*' ∉ s := fun member => absurd (letters _ member) (by decide)
    rw [lettersOf_of_letters letters] at within
    rw [lettersOf_of_letters letters, anyCount_of_letters letters, Nat.add_zero,
      or_iff_left fun starred => noStar starred.1] at counted
    exact (within.perm_of_length_le (Nat.le_of_eq counted.symm)).symm

/-! ## What cannot be read -/

def IsPlain (s : List Char) : Prop :=
  s.Pairwise fun c d => c = '[' → d.isAlpha = false

theorem isPlain_sortedLetters {s : List Char} (folded : ∀ c ∈ s, c.toUpper = c) :
    IsPlain (sortedLetters s) := by
  refine (pairwise_sortedLetters s).imp_of_mem ?_
  rintro _ d _ later ordered rfl
  rw [Bool.eq_false_iff]
  intro letter
  have capital : d.isUpper = true := by
    rw [← folded d ((perm_sortedLetters s).mem_iff.mp later), Char.isUpper_toUpper_eq_isAlpha,
      letter]
  have low := (Text.toNat_of_isUpper capital).2
  have high : 91 ≤ d.toNat := UInt32.le_iff_toNat_le.mp ordered
  omega

theorem readFrom_class_eq_none {members s : List Char} (tokens : List Token)
    (noMembers : ∀ c ∈ members, c.isAlpha = false) (noLetters : ∀ c ∈ s, c.isAlpha = false) :
    Token.readFrom tokens (some members) s = none := by
  induction s generalizing members with
  | nil => rfl
  | cons c s ih =>
    obtain ⟨notLetter, noLetters⟩ := List.forall_mem_cons.mp noLetters
    rw [Token.readFrom]
    split_ifs with closes blank
    · rw [LetterClass.ofMembers?_of_noLetters fun d member =>
        noMembers d (List.mem_reverse.mp member), Option.bind_none]
    · exact ih noMembers noLetters
    · exact ih (List.forall_mem_cons.mpr ⟨notLetter, noMembers⟩) noLetters

/-- A character that is neither a letter nor a sign is refused, a bracket because its class has no
letter. -/
theorem readFrom_eq_none {s : List Char} {c : Char} (tokens : List Token) (plain : IsPlain s)
    (member : c ∈ s) (notLetter : c.isAlpha = false) (notSign : isSign c = false) :
    Token.readFrom tokens none s = none := by
  induction s generalizing tokens with
  | nil => exact absurd member List.not_mem_nil
  | cons d s ih =>
    obtain ⟨behind, plain⟩ := List.pairwise_cons.mp plain
    -- A first character that can be read is not the one refused, so that one stands behind it.
    have refused (others : List Token) (here : d.isAlpha = true ∨ isSign d = true) :
        Token.readFrom others none s = none := by
      refine ih others plain ((List.mem_cons.mp member).resolve_left ?_)
      rintro rfl
      rw [notLetter, notSign] at here
      exact here.elim Bool.false_ne_true Bool.false_ne_true
    rw [Token.readFrom]
    split_ifs with any star run opens letter blank
    · exact refused _ (Or.inr (isSign_iff.mpr (Or.inr (Or.inl any))))
    · exact refused _ (Or.inr (isSign_iff.mpr (Or.inr (Or.inr star))))
    · exact refused _ (Or.inr (isSign_iff.mpr (Or.inr (Or.inr star))))
    · exact readFrom_class_eq_none tokens (by simp) fun e later => behind e later opens
    · exact refused _ (Or.inl letter)
    · exact refused _ (Or.inr (isSign_iff.mpr (Or.inl blank)))
    · rfl

/-! ## What is read -/

theorem slotsIn_singleton (c : Char) :
    slotsIn [c] =
      if c = '?' ∨ c = '.' then {.any} else if c.isAlpha then {.letter c.toUpper} else 0 := by
  by_cases any : c = '?' ∨ c = '.'
  · rw [if_pos any]
    rcases any with rfl | rfl <;> rfl
  · have noAny : anyCount [c] = 0 := by simpa [anyCount] using any
    rw [if_neg any, slotsIn, noAny, Multiset.replicate_zero, add_zero, lettersOf,
      List.filter_singleton]
    cases c.isAlpha <;> rfl

theorem exists_readFrom_cons {c : Char} (readable : c.isAlpha = true ∨ isSign c = true)
    (tokens : List Token) (s : List Char) :
    ∃ later, Token.readFrom tokens none (c :: s) = Token.readFrom later none s ∧
      Token.slotsOf later = slotsIn [c] + Token.slotsOf tokens ∧
        (.star ∈ later ↔ c = '*' ∨ .star ∈ tokens) := by
  rw [Token.readFrom, slotsIn_singleton]
  by_cases any : c = '?' ∨ c = '.'
  · rw [if_pos any, if_pos any]
    refine ⟨_, rfl, ?_, ?_⟩
    · rw [Token.slotsOf_cons, Token.slotsOf_slot (by decide)]
    · rcases any with rfl | rfl <;> simp
  rw [if_neg any, if_neg any]
  by_cases star : c = '*'
  · have notLetter : ¬c.isAlpha = true := by
      rw [star]
      decide
    rw [if_pos star, if_neg notLetter, zero_add]
    split_ifs with run
    · -- the star belongs to the run of the one read last
      exact ⟨tokens, rfl, rfl, iff_of_true (List.mem_of_mem_head? run) (Or.inl star)⟩
    · refine ⟨_, rfl, ?_, by simp [star]⟩
      rw [Token.slotsOf_cons, Token.slotsOf_star, zero_add]
  rw [if_neg star]
  by_cases letter : c.isAlpha = true
  · have notOpening : c ≠ '[' := by
      rintro rfl
      exact absurd letter (by decide)
    rw [if_neg notOpening, if_pos letter, if_pos letter]
    refine ⟨_, rfl, ?_, by simp [star]⟩
    rw [Token.slotsOf_cons, Token.slotsOf_slot (by simp)]
  · -- of the signs only white space is left, which adds nothing
    have blank : Text.isBlank c = true := by
      have sign := isSign_iff.mp (readable.resolve_left letter)
      exact sign.resolve_right fun others => others.elim any star
    have notOpening : c ≠ '[' := by
      rintro rfl
      exact absurd blank (by decide)
    rw [if_neg notOpening, if_neg letter, if_neg letter, if_pos blank]
    exact ⟨tokens, rfl, (zero_add _).symm, by simp [star]⟩

theorem exists_readFrom {s : List Char} (readable : ∀ c ∈ s, c.isAlpha = true ∨ isSign c = true)
    (tokens : List Token) :
    ∃ read, Token.readFrom tokens none s = some read ∧
      Token.slotsOf read = slotsIn s + Token.slotsOf tokens ∧
        (.star ∈ read ↔ '*' ∈ s ∨ .star ∈ tokens) := by
  induction s generalizing tokens with
  | nil =>
    have same : (tokens.reverse : Multiset Token) = tokens :=
      Multiset.coe_eq_coe.mpr (List.reverse_perm tokens)
    refine ⟨tokens.reverse, rfl, ?_, by simp⟩
    rw [Token.slotsOf, same]
    exact (zero_add _).symm
  | cons c s ih =>
    obtain ⟨here, readable⟩ := List.forall_mem_cons.mp readable
    obtain ⟨later, step, slots, star⟩ := exists_readFrom_cons here tokens s
    obtain ⟨read, run, allSlots, anyStar⟩ := ih readable later
    refine ⟨read, step.trans run, ?_, ?_⟩
    · rw [allSlots, slots, slotsIn_cons c s, ← add_assoc, add_comm (slotsIn s)]
    · rw [anyStar, star, List.mem_cons, eq_comm (a := '*'), ← or_assoc, or_comm (a := c = '*')]

end SearchString

namespace Rack

/-! ## Letters and blanks -/

theorem takeLetters_snd (slots word : List Char) : (takeLetters slots word).2 = slots.diff word := by
  induction word generalizing slots with
  | nil => rfl
  | cons c word ih =>
    by_cases member : slots.contains c = true
    · rw [takeLetters_cons_of_mem member, ih, List.diff_cons]
    · rw [takeLetters_cons_of_notMem member, ih, List.diff_cons,
        List.erase_of_not_mem (by simpa using member)]

theorem takeLetters_snd_eq_nil_iff {slots word : List Char} :
    (takeLetters slots word).2 = [] ↔ slots.Subperm word := by
  rw [takeLetters_snd, ← Multiset.coe_eq_zero, ← Multiset.coe_sub, tsub_eq_zero_iff_le,
    Multiset.coe_le]

theorem canSupply_blanks_iff {star : Bool} {word : List Char} {blanks : Nat} :
    canSupply star false word [] blanks = true ↔
      blanks = word.length ∨ star = true ∧ blanks ≤ word.length := by
  induction word generalizing blanks with
  | nil => simp [canSupply_nil_iff]
  | cons c word ih =>
    rw [canSupply_cons_iff, ih, ih, List.length_cons]
    simp only [List.not_mem_nil, false_and, exists_false, false_or]
    cases star <;> simp <;> omega

namespace Supplied

theorem letterSlots_add_blanks_iff {star : Bool} {word letters : List Char} {blanks : Nat}
    (capitals : AreCapitals word) :
    Supplied star false word (letterSlots letters + Multiset.replicate blanks .any) ↔
      letters.Subperm word ∧ (letters.length + blanks = word.length ∨
        star = true ∧ letters.length + blanks ≤ word.length) := by
  have others : Multiset.replicate blanks Token.any = otherSlots [] blanks := (zero_add _).symm
  have isLetter : ∀ c ∈ (takeLetters letters word).1, c.isAlpha = true := fun c member =>
    Text.isAlpha_of_isUpper (capitals c ((takeLetters_sublist _ _).subset member))
  rw [letterSlots_add_iff capitals, takeLetters_snd_eq_nil_iff, others, ← canSupply_iff isLetter,
    canSupply_blanks_iff, or_iff_right Bool.false_ne_true]
  refine and_congr_right fun within => ?_
  -- The letters that the letter slots leave are as many as the word is longer than they are.
  have balance := length_takeLetters letters word
  rw [takeLetters_snd_eq_nil_iff.mpr within, List.length_nil] at balance
  refine or_congr (by omega) (and_congr_right fun _ => by omega)

end Supplied

/-! ## Plain texts as racks -/

open SearchString

variable {text : String}

theorem ofString?_eq_none_of_plain (plain : IsPlain text.toList)
    (unreadable : ¬∀ c ∈ text.toList, c.isAlpha = true ∨ isSign c = true) :
    ofString? text = none := by
  obtain ⟨c, unreadable⟩ := not_forall.mp unreadable
  obtain ⟨member, neither⟩ := Classical.not_imp.mp unreadable
  obtain ⟨notLetter, notSign⟩ := not_or.mp neither
  rw [ofString?, ofString?_eq_readFrom, readFrom_eq_none [] plain member
    (Bool.eq_false_iff.mpr notLetter) (Bool.eq_false_iff.mpr notSign), Option.map_none]

theorem classes_ofTokens_eq_nil {tokens : List Token} {s : List Char}
    (slots : Token.slotsOf tokens = slotsIn s) : (ofTokens tokens).classes = [] := by
  rw [← List.length_eq_zero_iff, ofTokens, length_classes_foldl, show empty.classes = [] from rfl,
    List.length_nil, Nat.zero_add, List.countP_eq_zero]
  intro token member isClass
  obtain ⟨k, rfl⟩ : ∃ k, token = .oneOf k := by
    cases token with
    | oneOf k => exact ⟨k, rfl⟩
    | _ => exact absurd isClass Bool.false_ne_true
  have slot : .oneOf k ∈ slotsIn s := by
    rw [← slots, Token.slotsOf, Multiset.mem_filter]
    exact ⟨member, by simp⟩
  simp [slotsIn, Supplied.letterSlots, Multiset.mem_replicate] at slot

theorem exists_ofString?_of_readable
    (readable : ∀ c ∈ text.toList, c.isAlpha = true ∨ isSign c = true) :
    ∃ rack, ofString? text = some rack ∧ rack.classes = [] ∧
      ∀ {word : String}, AreCapitals word.toList → word ≠ "" → word.length < maxCopies →
        (rack.spells word false = true ↔ Asks text.toList word.toList) := by
  obtain ⟨tokens, read, slots, star⟩ := exists_readFrom readable []
  rw [Token.slotsOf_nil, add_zero] at slots
  rw [or_iff_left List.not_mem_nil] at star
  refine ⟨ofTokens tokens, ?_, classes_ofTokens_eq_nil slots, ?_⟩
  · rw [ofString?, ofString?_eq_readFrom, read, Option.map_some]
  · intro word capitals nonempty short
    rw [← String.length_toList] at short
    rw [spells_iff_supplied (fun c member => Text.isAlpha_of_isUpper (capitals c member)) nonempty,
      supplied_ofTokens short, star_ofTokens, slots, slotsIn,
      Supplied.letterSlots_add_blanks_iff capitals, List.contains_iff_mem, star, asks_iff,
      and_iff_right readable]

end Rack

end WordFinder
