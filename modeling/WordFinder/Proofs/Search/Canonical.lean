import Mathlib
import WordFinder.Proofs.SearchString.Canonical
import WordFinder.Proofs.SearchString.Letters
import WordFinder.Proofs.Search.Window

/-!
# Conditions in canonical spelling

A word meets a condition exactly if it meets the condition in canonical spelling. The slots of that
spelling bound the length of every word that meets a pattern or a rack without a star.
-/
set_option autoImplicit false

namespace WordFinder

/-! ## Slots and lengths -/

theorem Pattern.length_of_splits {tokens : List Token} {word : List Char}
    (noStar : tokens.contains .star = false) (splits : Splits tokens word) :
    word.length = Token.slots tokens := by
  induction splits with
  | nil => rfl
  | star run others ih => simp at noStar
  | letter single accepted others ih =>
    rw [List.contains_cons, Bool.or_eq_false_iff] at noStar
    rw [List.length_cons, ih noStar.2, Rack.slots_cons, Nat.add_comm]
    congr 1
    simp [Token.slots, single]

theorem Rack.length_of_spells {tokens : List Token} {word : String}
    (noStar : tokens.contains .star = false) (storable : IsStorable word.toList)
    (spelled : (Rack.ofTokens tokens).spells word false = true) :
    word.length = Token.slots tokens := by
  have most := length_le_slotCount (by rw [star_ofTokens, noStar]) storable.capitals spelled
  have least := slotCount_le_length storable.capitals spelled
  have kept := le_slotCount_ofTokens tokens
  have added := slotCount_ofTokens_le tokens
  -- a rack that drops slots still has more of them than the word has letters
  have short : word.length < maxCopies := Nat.lt_of_le_of_lt storable.short (by decide)
  omega

theorem Rack.length_le_of_spells {tokens : List Token} {word : String} {subanagram : Bool}
    (noStar : tokens.contains .star = false) (storable : IsStorable word.toList)
    (spelled : (Rack.ofTokens tokens).spells word subanagram = true) :
    word.length ≤ Token.slots tokens := by
  have most := length_le_slotCount (by rw [star_ofTokens, noStar]) storable.capitals spelled
  have added := slotCount_ofTokens_le tokens
  omega

namespace Condition

variable {c : Condition} {word : String}

/-- The letters that a condition requires are written outside classes. -/
def ListsLetters (c : Condition) : Prop :=
  c.kind = .includesLetters → c.negated = false → '[' ∉ c.string.toList

/-- The slots of a subanagram can be counted with a signed number of 32 bits. -/
def HasCountableSlots (c : Condition) : Prop :=
  c.kind = .subanagramMatch → c.negated = false →
    SearchString.slotCount (SearchString.canonical c.string) < 2 ^ 31

/-- So they can unless the string itself is longer than such a number can tell. -/
theorem hasCountableSlots_of_length_lt {tokens : List Token}
    (read : Token.ofString? c.string = some tokens) (short : c.string.length < 2 ^ 31) :
    c.HasCountableSlots := by
  intro _ _
  rw [SearchString.slotCount_canonical read]
  exact Nat.lt_of_le_of_lt (SearchString.slots_le_length read) short

theorem kind_canonical (c : Condition) : c.canonical.kind = c.kind := by
  unfold canonical
  split <;> rfl

theorem negated_canonical (c : Condition) : c.canonical.negated = c.negated := by
  unfold canonical
  split <;> rfl

theorem canonical_of_kind (spelled : c.kind.isMatch = true ∨ c.kind = .includesLetters) :
    c.canonical = { c with string := SearchString.canonical c.string } := by
  unfold canonical
  rw [if_pos]
  rwa [Bool.or_eq_true, decide_eq_true_eq]

theorem canonical_of_other (notMatch : c.kind.isMatch = false)
    (notLetters : c.kind ≠ .includesLetters) : c.canonical = c := by
  unfold canonical
  rw [if_neg]
  rw [Bool.or_eq_true, decide_eq_true_eq, notMatch]
  simpa using notLetters

theorem canonical_canonical (c : Condition) : c.canonical.canonical = c.canonical := by
  by_cases spelled : c.kind.isMatch = true ∨ c.kind = .includesLetters
  · have again : c.canonical.kind.isMatch = true ∨ c.canonical.kind = .includesLetters := by
      rwa [kind_canonical]
    rw [canonical_of_kind again, canonical_of_kind spelled]
    simp only [SearchString.canonical_canonical]
  · rw [not_or, Bool.not_eq_true] at spelled
    rw [canonical_of_other spelled.1 spelled.2, canonical_of_other spelled.1 spelled.2]

theorem includesLetters_canonical (word : String) (isLetters : c.kind = .includesLetters)
    (listsLetters : c.ListsLetters) : c.canonical.includesLetters word = c.includesLetters word := by
  rw [canonical_of_kind (Or.inr isLetters)]
  simp only [includesLetters]
  cases negated : c.negated with
  | true =>
    rw [if_pos rfl, if_pos rfl, Bool.eq_iff_iff, List.all_eq_true, List.all_eq_true]
    exact forall_congr' fun l => imp_congr_left (SearchString.mem_lettersOf_canonical c.string l)
  | false =>
    have same : wantedLetters { c with string := SearchString.canonical c.string } =
        c.wantedLetters :=
      SearchString.lettersOf_canonical (listsLetters isLetters negated)
    rw [if_neg Bool.false_ne_true, if_neg Bool.false_ne_true, ← negated, same]

theorem meets_canonical {x : Lexicon} (listsLetters : c.ListsLetters) :
    x.meets word c.canonical = x.meets word c := by
  cases kind : c.kind
  case includesLetters =>
    have same := includesLetters_canonical word kind listsLetters
    simpa only [Lexicon.meets, kind_canonical, kind] using same
  case patternMatch =>
    have isMatch : c.kind.isMatch = true := by rw [kind]; rfl
    rw [canonical_of_kind (Or.inl isMatch)]
    simp only [Lexicon.meets, kind, SearchString.pattern_canonical]
    rfl
  case anagramMatch | subanagramMatch =>
    have isMatch : c.kind.isMatch = true := by rw [kind]; rfl
    rw [canonical_of_kind (Or.inl isMatch)]
    simp only [Lexicon.meets, kind, SearchString.rack_canonical, rackVerdict, verdict]
  all_goals rw [canonical_of_other (by rw [kind]; rfl) (by rw [kind]; decide)]

/-! ## Lengths that conditions imply -/

theorem tokens_of_meets {x : Lexicon} (isMatch : c.kind.isMatch = true)
    (meets : x.meets word c = true) : ∃ tokens, Token.ofString? c.string = some tokens := by
  cases read : Token.ofString? c.string with
  | some tokens => exact ⟨tokens, rfl⟩
  | none =>
    cases kind : c.kind <;>
      simp [Lexicon.meets, kind, patternVerdict, rackVerdict, Pattern.ofString?, Rack.ofString?,
        read, ConditionKind.isMatch] at meets isMatch

theorem has_slots_of_meets {x : Lexicon} (isMatch : c.kind.isMatch = true)
    (positive : c.negated = false)
    (noStar : (SearchString.canonical c.string).toList.contains '*' = false)
    (countable : c.HasCountableSlots) (storable : IsStorable word.toList)
    (meets : x.meets word c = true) :
    Window.Has ⟨if c.kind = .subanagramMatch then 0
        else .ofNat (SearchString.slotCount (SearchString.canonical c.string)),
      .ofNat (SearchString.slotCount (SearchString.canonical c.string))⟩ word.length := by
  obtain ⟨tokens, read⟩ := tokens_of_meets isMatch meets
  rw [SearchString.contains_star_canonical read] at noStar
  rw [SearchString.slotCount_canonical read]
  have short : word.length ≤ 15 := storable.short
  have exact (same : word.length = Token.slots tokens) :
      Window.Has ⟨.ofNat (Token.slots tokens), .ofNat (Token.slots tokens)⟩ word.length := by
    rw [← same, Window.Has, Int32.toInt_ofNat_of_lt (by omega)]
    omega
  cases kind : c.kind
  case patternMatch =>
    rw [if_neg (by decide)]
    simp only [Lexicon.meets, kind, patternVerdict, Pattern.ofString?, read, Option.map_some,
      Option.any_some, verdict, positive, Bool.bne_false] at meets
    exact exact (Pattern.length_of_splits noStar ((Pattern.isMatch_iff _ word).mp meets))
  case anagramMatch =>
    rw [if_neg (by decide)]
    simp only [Lexicon.meets, kind, rackVerdict, Rack.ofString?, read, Option.map_some,
      Option.any_some, verdict, positive, Bool.bne_false, reduceCtorEq, decide_false] at meets
    exact exact (Rack.length_of_spells noStar storable meets)
  case subanagramMatch =>
    simp only [Lexicon.meets, kind, rackVerdict, Rack.ofString?, read, Option.map_some,
      Option.any_some, verdict, positive, Bool.bne_false] at meets
    have most := Rack.length_le_of_spells noStar storable meets
    have few := countable kind positive
    rw [SearchString.slotCount_canonical read] at few
    rw [if_pos rfl, Window.Has, Int32.toInt_ofNat_of_lt (by omega), Windows.toInt_zero]
    omega
  all_goals rw [kind] at isMatch; contradiction

theorem length_of_isMember {x : Lexicon} {group : WordGroup} {length : Nat}
    (sized : group.length? = some length) (capitals : AreCapitals word.toList)
    (isMember : x.isMember word group = true) : word.length = length := by
  simp only [Lexicon.isMember, Text.upper_of_capitals capitals] at isMember
  split at isMember
  · contradiction
  · cases group <;>
      simp only [WordGroup.length?, Option.some.injEq, reduceCtorEq] at sized <;>
      subst sized <;>
      simp only [Lexicon.isTypeOneSeven, Lexicon.isTypeTwoSeven, Lexicon.isTypeThreeSeven,
        Lexicon.isTypeOneEight, Lexicon.isTypeTwoEight, Lexicon.isTypeThreeEight, Bool.and_eq_true,
        beq_iff_eq] at isMember <;>
      omega

end Condition

end WordFinder
