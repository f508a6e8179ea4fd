import Mathlib
import WordFinder.Proofs.Lexicon.Vocabulary
import WordFinder.Proofs.Rack.PlainText

/-!
# Anagrams of a word

The anagrams of a word are found with its alphagram as a rack, and so are those of any other text. For
a text of letters they are the words of the vocabulary that rearrange it. The signs of search strings
keep their meaning in any text, so a text with signs can have anagrams although no word rearranges it.
-/
set_option autoImplicit false

namespace WordFinder

namespace Lexicon

variable {x : Lexicon} {word : String}

def rearrangements (x : Lexicon) (word : String) : List String :=
  x.vocabulary.filter fun other => other.toList.isPerm word.toList

/-- The words of a vocabulary that a text asks for, in whatever order it has its characters. -/
def askedWords (x : Lexicon) (text : String) : List String :=
  x.vocabulary.filter fun word => SearchString.Asks text.toList word.toList

theorem mem_rearrangements {other : String} :
    other ∈ x.rearrangements word ↔ other ∈ x.vocabulary ∧ other.toList.Perm word.toList := by
  rw [rearrangements, List.mem_filter, List.isPerm_iff]

theorem mem_askedWords {text : String} :
    word ∈ x.askedWords text ↔
      word ∈ x.vocabulary ∧ SearchString.Asks text.toList word.toList := by
  rw [askedWords, List.mem_filter, decide_eq_true_eq]

theorem Reached.nodup_askedWords (reached : x.Reached) (text : String) :
    (x.askedWords text).Nodup :=
  reached.nodup_vocabulary.filter _

theorem Reached.exists_rack_of_readable (reached : x.Reached) {text : String}
    (readable : ∀ c ∈ text.toList, c.isAlpha = true ∨ SearchString.isSign c = true) :
    ∃ rack, Rack.ofString? text = some rack ∧ rack.classes = [] ∧
      ∀ word ∈ x.vocabulary,
        (rack.spells word false = true ↔ SearchString.Asks text.toList word.toList) := by
  obtain ⟨rack, read, noClasses, spells⟩ := Rack.exists_ofString?_of_readable readable
  refine ⟨rack, read, noClasses, fun word member => ?_⟩
  have storable := reached.storable member
  apply spells storable.capitals
  · rintro rfl
    exact absurd storable.nonempty (by decide)
  · rw [← String.length_toList]
    exact Nat.lt_of_le_of_lt storable.short (by decide)

theorem Reached.contains_rackMatches_of_readable (reached : x.Reached) {text : String}
    (readable : ∀ c ∈ text.toList, c.isAlpha = true ∨ SearchString.isSign c = true) :
    ∃ rack, Rack.ofString? text = some rack ∧
      ∀ word, (x.graph.rackMatches rack false {}).contains word = true ↔
        word ∈ x.askedWords text := by
  obtain ⟨rack, read, noClasses, spells⟩ := reached.exists_rack_of_readable readable
  refine ⟨rack, read, fun word => ?_⟩
  rw [reached.isSound.isMirrored.contains_rackMatches, noClasses, mem_askedWords]
  constructor
  · rintro ⟨-, known, spelled, -⟩
    exact ⟨known, (spells word known).mp spelled⟩
  · rintro ⟨known, asks⟩
    exact ⟨Nat.zero_le _, known, (spells word known).mpr asks,
      reached.isSound.admits_default known⟩

theorem Reached.anagramCount_eq_length_askedWords (reached : x.Reached) (text : String) :
    x.anagramCount text = (x.askedWords text).length := by
  have same : (alphagram (Text.upper text)).toList.Perm (text.toList.map Char.toUpper) := by
    rw [toList_alphagram, Text.toList_upper]
    exact perm_sortedLetters _
  have asked : x.askedWords (alphagram (Text.upper text)) = x.askedWords text := by
    simp only [askedWords, SearchString.asks_congr same]
  rw [← asked, anagramCount]
  by_cases readable : ∀ c ∈ (alphagram (Text.upper text)).toList,
      c.isAlpha = true ∨ SearchString.isSign c = true
  · obtain ⟨rack, read, found⟩ := reached.contains_rackMatches_of_readable readable
    simp only [read]
    rw [← MatchSet.length_words]
    apply List.Perm.length_eq
    apply (List.perm_ext_iff_of_nodup (MatchSet.nodup_words _)
      (reached.nodup_askedWords _)).mpr
    intro word
    rw [MatchSet.mem_words_iff, found]
  · -- The text has no rack, and it asks for no word because of the character that is refused.
    have plain : SearchString.IsPlain (alphagram (Text.upper text)).toList := by
      rw [toList_alphagram, Text.toList_upper]
      refine SearchString.isPlain_sortedLetters fun c member => ?_
      obtain ⟨d, _, rfl⟩ := List.mem_map.mp member
      exact Char.toUpper_toUpper_eq_toUpper d
    have none : x.askedWords (alphagram (Text.upper text)) = [] :=
      List.filter_eq_nil_iff.mpr fun word _ asks =>
        readable (of_decide_eq_true asks).readable
    simp only [Rack.ofString?_eq_none_of_plain plain readable, none, List.length_nil]

/-! ## Rearrangements -/

theorem Reached.rearrangements_of_noSigns (reached : x.Reached) {text : String}
    (noSigns : ∀ c ∈ text.toList, SearchString.isSign c = false) :
    x.rearrangements (Text.upper text) = x.askedWords text := by
  apply List.filter_congr
  intro word known
  rw [Bool.eq_iff_iff, List.isPerm_iff, decide_eq_true_eq, Text.toList_upper,
    SearchString.perm_iff_asks (reached.storable known).capitals, and_iff_right noSigns]

theorem Reached.rearrangements_of_signs (reached : x.Reached) {text : String}
    (signs : ¬∀ c ∈ text.toList, SearchString.isSign c = false) :
    x.rearrangements (Text.upper text) = [] := by
  rw [List.eq_nil_iff_forall_not_mem]
  intro word member
  obtain ⟨known, perm⟩ := mem_rearrangements.mp member
  rw [Text.toList_upper, SearchString.perm_iff_asks (reached.storable known).capitals] at perm
  exact signs perm.1

/-- The anagrams of a text are as many as the words that rearrange it in upper case, unless it has
signs and asks for words with them. -/
theorem Reached.anagramCount_eq_rearrangements_iff (reached : x.Reached) (text : String) :
    x.anagramCount text = (x.askedWords text).length ∧
      (x.anagramCount text = (x.rearrangements (Text.upper text)).length ↔
        (∀ c ∈ text.toList, SearchString.isSign c = false) ∨ x.askedWords text = []) := by
  have count := reached.anagramCount_eq_length_askedWords text
  refine ⟨count, ?_⟩
  rw [count]
  by_cases noSigns : ∀ c ∈ text.toList, SearchString.isSign c = false
  · rw [reached.rearrangements_of_noSigns noSigns]
    exact iff_of_true rfl (Or.inl noSigns)
  · rw [reached.rearrangements_of_signs noSigns, or_iff_right noSigns, List.length_nil,
      List.length_eq_zero_iff]

/-- A text with a blank has anagrams, a text with a bracket has none. -/
theorem anagramCount_eq_rearrangements_blank :
    actAndCat.Reached ∧
      actAndCat.anagramCount "c?t" ≠ (actAndCat.rearrangements (Text.upper "c?t")).length ∧
        actAndCat.anagramCount "c[t" = (actAndCat.rearrangements (Text.upper "c[t")).length := by
  have asked : actAndCat.askedWords "c?t" ≠ [] := by
    rw [askedWords, vocabulary_actAndCat]
    decide +kernel
  have none : actAndCat.askedWords "c[t" = [] := by
    rw [askedWords, vocabulary_actAndCat]
    decide +kernel
  obtain ⟨_, differs⟩ := reached_actAndCat.anagramCount_eq_rearrangements_iff "c?t"
  obtain ⟨_, agrees⟩ := reached_actAndCat.anagramCount_eq_rearrangements_iff "c[t"
  refine ⟨reached_actAndCat, fun same => ?_, agrees.mpr (Or.inr none)⟩
  have noSigns := (differs.mp same).resolve_right asked
  exact absurd (noSigns '?' (by decide)) (by decide)

theorem not_anagramCount_eq_rearrangements :
    ¬∀ (x : Lexicon) (text : String), x.Reached →
      x.anagramCount text = (x.rearrangements (Text.upper text)).length := by
  intro always
  have same := always actAndCat "c?t" reached_actAndCat
  rw [reached_actAndCat.anagramCount_eq_length_askedWords, askedWords, rearrangements,
    vocabulary_actAndCat] at same
  revert same
  decide +kernel

/-! ## Anagrams of words -/

theorem Reached.askedWords_of_mem (reached : x.Reached) (member : word ∈ x.vocabulary) :
    x.askedWords word = x.rearrangements word := by
  have noSigns : ∀ c ∈ word.toList, SearchString.isSign c = false := by
    intro c letter
    have capital := (reached.storable member).capitals c letter
    exact SearchString.not_isSign_of_isAlpha (Text.isAlpha_of_isUpper capital)
  rw [← reached.rearrangements_of_noSigns noSigns, reached.upper_of_mem member]

theorem Reached.anagramCount_eq (reached : x.Reached) (member : word ∈ x.vocabulary) :
    x.anagramCount word = (x.rearrangements word).length := by
  rw [reached.anagramCount_eq_length_askedWords, reached.askedWords_of_mem member]

theorem anagramCount_alphagram (x : Lexicon) (word : String) :
    x.anagramCount (alphagram word) = x.anagramCount word := by
  rw [anagramCount, anagramCount, alphagram_upper_alphagram]

theorem Reached.anagramCount_pos (reached : x.Reached) (member : word ∈ x.vocabulary) :
    0 < x.anagramCount word := by
  rw [reached.anagramCount_eq member]
  apply List.length_pos_of_mem (a := word)
  rw [rearrangements, List.mem_filter, List.isPerm_iff]
  exact ⟨member, List.Perm.refl _⟩

/-- No multiset of letters has more words of the vocabulary than a search can ask for. -/
def HasFewAnagrams (x : Lexicon) : Prop :=
  ∀ word ∈ x.vocabulary, (x.rearrangements word).length ≤ 65535

theorem hasFewAnagrams_of_length_le (small : x.vocabulary.length ≤ 65535) : x.HasFewAnagrams :=
  fun _ _ => Nat.le_trans (List.length_filter_le _ _) small

theorem hasFewAnagrams_actAndCat : actAndCat.HasFewAnagrams := by
  apply hasFewAnagrams_of_length_le
  rw [vocabulary_actAndCat]
  decide

end Lexicon

end WordFinder
