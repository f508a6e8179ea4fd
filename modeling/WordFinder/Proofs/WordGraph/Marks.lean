import Mathlib
import WordFinder.Proofs.Pattern.Alignment
import WordFinder.Proofs.WordGraph.Inserted

/-!
# Marks of words that patterns find

How a pattern spells a word that it finds in a graph: as one of its alignments with the word does,
and without marks if there is such an alignment. The pattern and the word decide which alignment
that is, even where the graph is walked backwards.
-/
set_option autoImplicit false

namespace WordFinder

open Text (upper)

namespace Pattern

variable {tokens : List Token} {word marked : List Char}

theorem spells_of_keptMarking? (kept : keptMarking? word tokens = some marked) :
    Spells tokens word marked := by
  rw [← mem_markings_iff]
  rw [keptMarking?] at kept
  split at kept
  · next exact =>
    rwa [← Option.some.inj kept]
  · exact List.mem_of_head? kept

theorem eq_iff_of_keptMarking? (kept : keptMarking? word tokens = some marked) :
    marked = word ↔ Spells tokens word word := by
  constructor
  · rintro rfl
    exact spells_of_keptMarking? kept
  · intro spells
    rw [keptMarking?, if_pos (mem_markings_iff.mpr spells)] at kept
    exact (Option.some.inj kept).symm

def keptSpelling? (p : Pattern) (word : String) : Option String :=
  if p.isSuffixAnchored then
    (keptMarking? word.toList.reverse p.tokens.reverse).map fun marked => .ofList marked.reverse
  else (keptMarking? word.toList p.tokens).map String.ofList

theorem spells_of_keptSpelling? {p : Pattern} {word marked : String}
    (kept : p.keptSpelling? word = some marked) :
    Spells p.tokens word.toList marked.toList ∧
      (marked = word ↔ Spells p.tokens word.toList word.toList) := by
  rw [keptSpelling?] at kept
  split at kept
  · obtain ⟨backwards, first, rfl⟩ := Option.map_eq_some_iff.mp kept
    rw [String.toList_ofList]
    constructor
    · rw [← spells_reverse_iff, List.reverse_reverse]
      exact spells_of_keptMarking? first
    · rw [← spells_reverse_iff, ← eq_iff_of_keptMarking? first, ← String.toList_inj,
        String.toList_ofList, List.reverse_eq_iff]
  · obtain ⟨forwards, first, rfl⟩ := Option.map_eq_some_iff.mp kept
    rw [← eq_iff_of_keptMarking? first, ← String.toList_inj, String.toList_ofList]
    exact ⟨spells_of_keptMarking? first, Iff.rfl⟩

end Pattern

namespace WordGraph

variable {g : WordGraph} {word marked : String}

theorem spelling?_readBackwards (s : MatchSet) (word : String) :
    (MatchSet.ofSpellings (s.markedSpellings.map Pattern.readBackwards)).spelling? word =
      (s.spelling? (Pattern.readBackwards word)).map Pattern.readBackwards := by
  have spelled : (MatchSet.ofSpellings (s.markedSpellings.map Pattern.readBackwards)).SpelledBy
      fun word =>
        ((s.spelling? (Pattern.readBackwards word)).map Pattern.readBackwards).getD "" := by
    apply (MatchSet.SpelledBy.empty _).foldl_insert
    intro backwards listed
    obtain ⟨marked, member, rfl⟩ := List.mem_map.mp listed
    rw [upper_readBackwards, readBackwards_readBackwards,
      MatchSet.mem_markedSpellings_iff.mp member]
    rfl
  have members :
      (MatchSet.ofSpellings (s.markedSpellings.map Pattern.readBackwards)).contains word =
        s.contains (Pattern.readBackwards word) := Bool.eq_iff_iff.mpr (contains_readBackwards s)
  rw [MatchSet.contains_eq_isSome, MatchSet.contains_eq_isSome] at members
  cases known : s.spelling? (Pattern.readBackwards word) with
  | none =>
    rwa [known, Option.isSome_none, Option.isSome_eq_false_iff,
      Option.isNone_iff_eq_none] at members
  | some marked =>
    rw [known] at members
    obtain ⟨backwards, found⟩ := Option.isSome_iff_exists.mp members
    have rule := spelled word backwards found
    simp only [known, Option.map_some, Option.getD_some] at rule
    rw [found, rule, Option.map_some]

theorem IsMirrored.spelling?_patternMatches (mirrored : g.IsMirrored) {p : Pattern}
    {limits : WalkLimits} (found : (g.patternMatches p limits).contains word = true) :
    (g.patternMatches p limits).spelling? word = p.keptSpelling? word := by
  rw [patternMatches, Pattern.matchesInBoth] at found ⊢
  rw [Pattern.keptSpelling?]
  split at found
  · next anchored =>
    rw [contains_readBackwards] at found
    rw [if_pos anchored, if_pos anchored, spelling?_readBackwards,
      p.reversed.spelling?_matchesIn mirrored.capitalBackward mirrored.backwardProper found,
      Option.map_map, Pattern.readBackwards, String.toList_ofList, Pattern.reversed]
    congr 1
    funext backwards
    rw [Function.comp_apply, Pattern.readBackwards, String.toList_ofList]
  · next forwards =>
    rw [if_neg forwards, if_neg forwards,
      p.spelling?_matchesIn mirrored.capital mirrored.forwardProper found]

theorem IsMirrored.keptSpelling?_of_entry (mirrored : g.IsMirrored) {p : Pattern}
    {limits : WalkLimits} (found : (word, marked) ∈ (g.patternMatches p limits).entries) :
    p.keptSpelling? word = some marked := by
  rw [MatchSet.mem_entries_iff] at found
  have member : (g.patternMatches p limits).contains word = true := by
    rw [MatchSet.contains_eq_isSome, found]
    rfl
  rw [← mirrored.spelling?_patternMatches member, found]

/-- The spelling kept of a word that a pattern finds is that of one of their alignments. It is all
upper case exactly if in some alignment no wildcard takes a letter, and neither the other words, nor
their order, nor the limits matter to it. -/
theorem marks_of_patternMatches {words : List String}
    (capitals : ∀ word ∈ words, AreCapitals word.toList) {p : Pattern} {limits : WalkLimits}
    (found : (word, marked) ∈ ((ofWords words).patternMatches p limits).entries) :
    upper marked = word ∧
      (∃ parts, Pattern.Aligns p.tokens word.toList parts ∧
        parts.flatMap AlignedPart.spelled = marked.toList) ∧
      (AreCapitals marked.toList ↔
        ∃ parts, Pattern.Aligns p.tokens word.toList parts ∧ ∀ part ∈ parts, part.IsLiteral) ∧
      ∀ (others : List String) (otherLimits : WalkLimits) (other : String),
        (∀ word ∈ others, AreCapitals word.toList) →
          (word, other) ∈ ((ofWords others).patternMatches p otherLimits).entries →
            other = marked := by
  have kept := (isMirrored_ofWords capitals).keptSpelling?_of_entry found
  have folded : upper marked = word :=
    MatchSet.upper_of_spelling? (MatchSet.mem_entries_iff.mp found)
  have capital : AreCapitals word.toList := by
    have contained := MatchSet.mem_words_iff.mp (List.mem_map.mpr ⟨_, found, rfl⟩)
    have listed := ((isMirrored_ofWords capitals).contains_patternMatches p limits).mp contained
    exact capitals word (mem_vocabulary_ofWords.mp listed.1).1
  obtain ⟨spells, exact⟩ := Pattern.spells_of_keptSpelling? kept
  refine ⟨folded, spells, ?_, fun others otherLimits other otherCapitals otherFound => ?_⟩
  · rw [← Pattern.spells_self_iff capital, ← exact]
    constructor
    · intro all
      rw [← folded, Text.upper_of_capitals all]
    · rintro rfl
      exact capital
  · have same := (isMirrored_ofWords otherCapitals).keptSpelling?_of_entry otherFound
    rw [kept] at same
    exact (Option.some.inj same).symm

/-- A pattern that is walked backwards keeps the first `A` of `BANANA`, whatever else is stored. -/
theorem marks_of_patternMatches_banana :
    let words := ["BANANA", "BANDANA", "NAAN"]
    let p : Pattern := ⟨[.star, .letter 'A', .star, .any]⟩
    (∀ word ∈ words, AreCapitals word.toList) ∧
      ("BANANA", "bAnana") ∈ ((ofWords words).patternMatches p {}).entries ∧
      ∀ other,
        ("BANANA", other) ∈ ((ofWords ["BANANA"]).patternMatches p { minLength := 6 }).entries →
          other = "bAnana" := by
  intro words p
  have capitals : ∀ word ∈ words, AreCapitals word.toList := by simp [words, AreCapitals]
  have matched : p.isMatch "BANANA" = true := by decide +kernel
  have mirrored := isMirrored_ofWords capitals
  have member : ((ofWords words).patternMatches p {}).contains "BANANA" = true :=
    (mirrored.contains_patternMatches p {}).mpr ⟨mem_vocabulary_ofWords.mpr ⟨by decide, by decide⟩,
      matched, WalkLimits.admits_iff.mpr ⟨by decide, by decide, by simp⟩⟩
  have found : ("BANANA", "bAnana") ∈ ((ofWords words).patternMatches p {}).entries := by
    rw [MatchSet.mem_entries_iff, mirrored.spelling?_patternMatches member]
    decide +kernel
  obtain ⟨_, _, _, same⟩ := marks_of_patternMatches capitals found
  exact ⟨capitals, found, fun other => same ["BANANA"] _ other (by simp [AreCapitals])⟩

end WordGraph

end WordFinder
