import Mathlib
import WordFinder.Proofs.Walk.PatternSpelling

/-!
# Alignments of a pattern with a word

An alignment splits a word into consecutive parts, one for each token in order: a run of letters for
a star and one accepted letter for any other token. The letters that literal tokens take are spelled
in upper case and those that fill a wildcard in lower case. A pattern can have several alignments
with a word; its markings of the word are what these spell. An alignment may be read from either
end.
-/
set_option autoImplicit false

namespace WordFinder

def Token.spell : Token → List Char → List Char
  | .letter _, letters => letters.map Char.toUpper
  | .any, letters | .oneOf _, letters | .star, letters => letters.map Char.toLower

theorem Token.length_spell (token : Token) (letters : List Char) :
    (token.spell letters).length = letters.length := by
  cases token <;> exact List.length_map _

theorem Token.spell_reverse (token : Token) (letters : List Char) :
    token.spell letters.reverse = (token.spell letters).reverse := by
  cases token <;> exact List.map_reverse

structure AlignedPart where
  token : Token
  letters : List Char
  accepted : ∀ c ∈ letters, token.accepts c = true
  single : token ≠ .star → letters.length = 1

namespace AlignedPart

def spelled (part : AlignedPart) : List Char :=
  part.token.spell part.letters

def IsLiteral (part : AlignedPart) : Prop :=
  (∃ c, part.token = .letter c) ∨ part.letters = []

def reversed (part : AlignedPart) : AlignedPart where
  token := part.token
  letters := part.letters.reverse
  accepted c member := part.accepted c (List.mem_reverse.mp member)
  single other := by rw [List.length_reverse, part.single other]

theorem spelled_eq_letters_iff {part : AlignedPart} (capitals : AreCapitals part.letters) :
    part.spelled = part.letters ↔ part.IsLiteral := by
  rw [spelled, IsLiteral]
  cases token : part.token with
  | letter c => simp [Token.spell, Text.map_toUpper_of_capitals capitals]
  | any | oneOf | star =>
    simp only [Token.spell, reduceCtorEq, exists_false, false_or]
    constructor
    · intro same
      cases letters : part.letters with
      | nil => rfl
      | cons c rest =>
        rw [letters] at same capitals
        have lower : c.toLower.isUpper = false := Char.isUpper_toLower_eq_false c
        rw [(List.cons.inj same).1, capitals c (List.mem_cons_self ..)] at lower
        contradiction
    · intro empty
      rw [empty, List.map_nil]

end AlignedPart

namespace Pattern

structure Aligns (tokens : List Token) (word : List Char) (parts : List AlignedPart) : Prop where
  tokens_eq : parts.map AlignedPart.token = tokens
  letters_eq : parts.flatMap AlignedPart.letters = word

variable {token : Token} {tokens : List Token} {c : Char} {word marked : List Char}
  {parts : List AlignedPart}

def Spells (tokens : List Token) (word marked : List Char) : Prop :=
  ∃ parts, Aligns tokens word parts ∧ parts.flatMap AlignedPart.spelled = marked

/-! ## Markings spell alignments -/

theorem spells_nil_iff : Spells [] word marked ↔ word = [] ∧ marked = [] := by
  constructor
  · intro holds
    obtain ⟨parts, aligns, rfl⟩ := holds
    have none : parts = [] := List.map_eq_nil_iff.mp aligns.tokens_eq
    rw [← aligns.letters_eq, none]
    exact ⟨rfl, rfl⟩
  · intro holds
    obtain ⟨rfl, rfl⟩ := holds
    exact ⟨[], ⟨rfl, rfl⟩, rfl⟩

theorem spells_cons_iff :
    Spells (token :: tokens) word marked ↔ ∃ letters rest later, word = letters ++ rest ∧
      (∀ c ∈ letters, token.accepts c = true) ∧ (token ≠ .star → letters.length = 1) ∧
        Spells tokens rest later ∧ marked = token.spell letters ++ later := by
  constructor
  · intro holds
    obtain ⟨parts, ⟨tokensEq, rfl⟩, rfl⟩ := holds
    obtain ⟨part, others, rfl, rfl, rfl⟩ := List.map_eq_cons_iff.mp tokensEq
    exact ⟨part.letters, _, _, List.flatMap_cons, part.accepted, part.single,
      ⟨others, ⟨rfl, rfl⟩, rfl⟩, List.flatMap_cons⟩
  · intro holds
    obtain ⟨letters, _, _, rfl, accepted, single, ⟨others, ⟨rfl, rfl⟩, rfl⟩, rfl⟩ := holds
    exact ⟨⟨token, letters, accepted, single⟩ :: others, ⟨List.map_cons, List.flatMap_cons⟩,
      List.flatMap_cons⟩

/-- With no letters left, only stars can follow. -/
theorem spells_empty_iff : Spells tokens [] marked ↔ onlyStars tokens = true ∧ marked = [] := by
  induction tokens generalizing marked with
  | nil => simp [spells_nil_iff, onlyStars]
  | cons token tokens ih =>
    rw [spells_cons_iff, onlyStars, List.all_cons, Bool.and_eq_true, beq_iff_eq, ← onlyStars]
    constructor
    · intro holds
      obtain ⟨letters, rest, later, empty, _, single, others, rfl⟩ := holds
      obtain ⟨rfl, rfl⟩ := List.append_eq_nil_iff.mp empty.symm
      obtain ⟨stars, rfl⟩ := ih.mp others
      have star : token = .star := by
        by_contra other
        exact Nat.zero_ne_one (single other)
      refine ⟨⟨star, stars⟩, ?_⟩
      rw [star]
      rfl
    · intro holds
      obtain ⟨⟨rfl, stars⟩, rfl⟩ := holds
      exact ⟨[], [], [], rfl, by simp, by simp, ih.mpr ⟨stars, rfl⟩, rfl⟩

theorem spell_singleton (accepted : token.accepts c = true) :
    token.spell [c] = [PatternState.mark token c] := by
  cases token with
  | letter l =>
    rw [Token.accepts, beq_iff_eq] at accepted
    rw [Token.spell, List.map_singleton, ← accepted]
    rfl
  | any | oneOf | star => rfl

theorem spells_single_cons_iff (single : token ≠ .star) :
    Spells (token :: tokens) (c :: word) marked ↔ token.accepts c = true ∧
      ∃ later, Spells tokens word later ∧ PatternState.mark token c :: later = marked := by
  rw [spells_cons_iff]
  constructor
  · intro holds
    obtain ⟨letters, rest, later, same, accepted, one, others, rfl⟩ := holds
    obtain ⟨d, rfl⟩ := List.length_eq_one_iff.mp (one single)
    obtain ⟨rfl, rfl⟩ := List.cons.inj same
    have takes := accepted c (List.mem_singleton_self c)
    rw [spell_singleton takes]
    exact ⟨takes, later, others, rfl⟩
  · intro holds
    obtain ⟨takes, later, others, rfl⟩ := holds
    refine ⟨[c], word, later, rfl, by simpa using takes, fun _ => rfl, others, ?_⟩
    rw [spell_singleton takes]
    rfl

theorem spells_star_cons_iff :
    Spells (.star :: tokens) (c :: word) marked ↔
      (Token.star.accepts c = true ∧ ∃ later, Spells (.star :: tokens) word later ∧
          PatternState.mark .star c :: later = marked) ∨
        Spells tokens (c :: word) marked := by
  rw [spells_cons_iff]
  constructor
  · intro holds
    obtain ⟨letters, rest, later, same, accepted, _, others, rfl⟩ := holds
    cases letters with
    | nil =>
      rw [List.nil_append] at same
      rw [same]
      exact Or.inr others
    | cons d letters =>
      obtain ⟨rfl, rfl⟩ := List.cons.inj same
      obtain ⟨first, remaining⟩ := List.forall_mem_cons.mp accepted
      have begun : Spells (.star :: tokens) (letters ++ rest) (Token.star.spell letters ++ later) :=
        spells_cons_iff.mpr ⟨letters, rest, later, rfl, remaining, by simp, others, rfl⟩
      exact Or.inl ⟨first, _, begun, rfl⟩
  · intro either
    rcases either with ⟨first, later, begun, rfl⟩ | others
    · obtain ⟨letters, rest, after, rfl, remaining, _, others, rfl⟩ := spells_cons_iff.mp begun
      have accepted : ∀ d ∈ c :: letters, Token.star.accepts d = true :=
        List.forall_mem_cons.mpr ⟨first, remaining⟩
      exact ⟨c :: letters, rest, after, rfl, accepted, by simp, others, rfl⟩
    · exact ⟨[], c :: word, marked, rfl, by simp, by simp, others, rfl⟩

theorem spells_cons_cons_iff :
    Spells (token :: tokens) (c :: word) marked ↔
      (token.accepts c = true ∧ ∃ later,
          Spells (PatternState.tokensAfter (token :: tokens)) word later ∧
            PatternState.mark token c :: later = marked) ∨
        (token = .star ∧ Spells tokens (c :: word) marked) := by
  by_cases star : token = .star
  · rw [star, spells_star_cons_iff]
    simp [PatternState.tokensAfter]
  · rw [spells_single_cons_iff star, PatternState.tokensAfter_of_single star]
    simp [star]

/-- The markings of a word are what its alignments spell. The inner induction goes on along the
tokens while stars that come first are skipped. -/
theorem mem_markings_iff : marked ∈ markings word tokens ↔ Spells tokens word marked := by
  induction word generalizing tokens marked with
  | nil =>
    rw [markings, spells_empty_iff]
    cases onlyStars tokens <;> simp
  | cons c word ih =>
    rw [markings]
    induction tokens generalizing marked with
    | nil => simp [markingsFrom, spells_nil_iff]
    | cons token tokens skip =>
      rw [markingsFrom, List.mem_append, spells_cons_cons_iff, List.mem_ite_nil_right,
        List.mem_ite_nil_right, List.mem_map]
      simp only [ih, skip]

/-! ## Reading from the other end -/

theorem Spells.reverse (spells : Spells tokens word marked) :
    Spells tokens.reverse word.reverse marked.reverse := by
  obtain ⟨parts, aligns, rfl⟩ := spells
  refine ⟨(parts.map AlignedPart.reversed).reverse, ⟨?_, ?_⟩, ?_⟩
  · rw [List.map_reverse, List.map_map, ← aligns.tokens_eq]
    rfl
  · rw [← aligns.letters_eq, List.reverse_flatMap, ← List.map_reverse, List.flatMap_map]
    rfl
  · rw [List.reverse_flatMap, ← List.map_reverse, List.flatMap_map]
    simp only [AlignedPart.spelled, AlignedPart.reversed, Token.spell_reverse, Function.comp_def]

theorem spells_reverse_iff :
    Spells tokens.reverse word.reverse marked.reverse ↔ Spells tokens word marked := by
  constructor
  · intro spells
    simpa using spells.reverse
  · exact Spells.reverse

/-! ## Spellings without marks -/

theorem Aligns.capitals (aligns : Aligns tokens word parts) (capitals : AreCapitals word) :
    ∀ part ∈ parts, AreCapitals part.letters := by
  intro part member c letter
  rw [← aligns.letters_eq] at capitals
  exact capitals c (List.mem_flatMap.mpr ⟨part, member, letter⟩)

/-- An alignment spells a word without marks exactly if no wildcard takes a letter. -/
theorem flatMap_spelled_eq_iff (capitals : ∀ part ∈ parts, AreCapitals part.letters) :
    parts.flatMap AlignedPart.spelled = parts.flatMap AlignedPart.letters ↔
      ∀ part ∈ parts, part.IsLiteral := by
  induction parts with
  | nil => simp
  | cons part parts ih =>
    obtain ⟨first, others⟩ := List.forall_mem_cons.mp capitals
    rw [List.flatMap_cons, List.flatMap_cons, List.forall_mem_cons, ← ih others,
      ← AlignedPart.spelled_eq_letters_iff first]
    constructor
    · exact fun same => List.append_inj same (part.token.length_spell part.letters)
    · intro both
      rw [both.1, both.2]

theorem spells_self_iff (capitals : AreCapitals word) :
    Spells tokens word word ↔
      ∃ parts, Aligns tokens word parts ∧ ∀ part ∈ parts, part.IsLiteral := by
  refine exists_congr fun parts => and_congr_right fun aligns => ?_
  rw [← flatMap_spelled_eq_iff (aligns.capitals capitals), aligns.letters_eq]

end Pattern

end WordFinder
