import Mathlib
import WordFinder.MatchSet
import WordFinder.Proofs.Text.Upper

/-!
# Members of match sets

Which words each operation leaves in a match set, whatever their marked spellings. The words are
listed once each in ascending order, so two sets with the same members list the same words.
-/
set_option autoImplicit false

namespace WordFinder.MatchSet

open Text (upper)

theorem words_eq_keys (s : MatchSet) : s.words = s.spellings.keys :=
  Std.TreeMap.map_fst_toList_eq_keys

theorem mem_words_iff {s : MatchSet} {word : String} :
    word ∈ s.words ↔ s.contains word = true := by
  rw [words_eq_keys, Std.TreeMap.mem_keys, Std.TreeMap.mem_iff_contains, contains]

theorem pairwise_words (s : MatchSet) : s.words.Pairwise fun a b => compare a b = .lt := by
  rw [words_eq_keys]
  exact s.spellings.ordered_keys

theorem nodup_words (s : MatchSet) : s.words.Nodup := by
  rw [words_eq_keys]
  exact s.spellings.nodup_keys

/-- The words are listed in order, so the members decide the list. -/
theorem words_eq_of_contains {s t : MatchSet}
    (same : ∀ word, s.contains word = true ↔ t.contains word = true) : s.words = t.words := by
  have perm : s.words.Perm t.words := by
    rw [List.perm_ext_iff_of_nodup s.nodup_words t.nodup_words]
    intro word
    rw [mem_words_iff, mem_words_iff, same]
  refine perm.eq_of_pairwise ?_ s.pairwise_words t.pairwise_words
  intro a b _ _ less more
  rw [Std.OrientedCmp.gt_of_lt less] at more
  exact absurd more (by decide)

theorem length_words (s : MatchSet) : s.words.length = s.size := by
  rw [words, List.length_map, entries, Std.TreeMap.length_toList, size]

theorem contains_empty (word : String) : empty.contains word = false := by
  simp [contains, empty]

theorem contains_put (s : MatchSet) (marked word : String) :
    (s.put marked).contains word = true ↔ s.contains word = true ∨ word = upper marked := by
  rw [contains, put, Std.TreeMap.contains_insert, contains, Bool.or_eq_true, beq_iff_eq,
    Std.LawfulEqCmp.compare_eq_iff_eq, or_comm, eq_comm (a := word)]

theorem contains_insert (s : MatchSet) (marked word : String) :
    (s.insert marked).contains word = true ↔ s.contains word = true ∨ word = upper marked := by
  rw [insert]
  split
  · next known =>
    constructor
    · exact Or.inl
    · intro either
      rcases either with member | rfl
      · exact member
      · rw [Bool.and_eq_true] at known
        exact known.1
  · exact contains_put s marked word

theorem contains_foldl_insert (spellings : List String) (s : MatchSet) (word : String) :
    (spellings.foldl insert s).contains word = true ↔
      s.contains word = true ∨ ∃ marked ∈ spellings, word = upper marked := by
  induction spellings generalizing s with
  | nil => simp
  | cons marked spellings ih =>
    rw [List.foldl_cons, ih, contains_insert, or_assoc]
    simp

theorem contains_foldl_insertIf {ι : Type} (choices : List ι) (complete : ι → Bool)
    (spelling : ι → String) (s : MatchSet) (word : String) :
    (choices.foldl (fun found i => if complete i then found.insert (spelling i) else found)
        s).contains word = true ↔
      s.contains word = true ∨ ∃ i ∈ choices, complete i = true ∧ word = upper (spelling i) := by
  induction choices generalizing s with
  | nil => simp
  | cons i choices ih =>
    rw [List.foldl_cons, ih]
    by_cases found : complete i = true
    · rw [if_pos found, contains_insert, or_assoc]
      simp [found]
    · rw [if_neg found]
      simp [found]

theorem contains_ofSpellings {spellings : List String} {word : String} :
    (ofSpellings spellings).contains word = true ↔ ∃ marked ∈ spellings, word = upper marked := by
  rw [ofSpellings, contains_foldl_insert, contains_empty]
  simp

theorem contains_filter {s : MatchSet} {keep : String → Bool} {word : String} :
    (s.filter keep).contains word = true ↔ s.contains word = true ∧ keep word = true := by
  rw [← mem_words_iff, ← mem_words_iff, words_eq_keys, words_eq_keys, filter,
    Std.TreeMap.keys_filter_key, List.mem_filter]

theorem words_filter (s : MatchSet) (keep : String → Bool) :
    (s.filter keep).words = s.words.filter keep := by
  rw [words_eq_keys, words_eq_keys, filter, Std.TreeMap.keys_filter_key]

theorem exists_marked_iff {s : MatchSet} {word : String} :
    (∃ marked ∈ s.markedSpellings, word = upper marked) ↔ s.contains word = true := by
  rw [← mem_words_iff]
  constructor
  · intro holds
    obtain ⟨marked, member, rfl⟩ := holds
    obtain ⟨⟨key, spelling⟩, entry, rfl⟩ := List.mem_map.mp member
    have found := Std.TreeMap.mem_toList_iff_getElem?_eq_some.mp entry
    rw [s.keyed key spelling found]
    exact List.mem_map.mpr ⟨(key, spelling), entry, rfl⟩
  · intro member
    obtain ⟨⟨key, spelling⟩, entry, rfl⟩ := List.mem_map.mp member
    have found := Std.TreeMap.mem_toList_iff_getElem?_eq_some.mp entry
    exact ⟨spelling, List.mem_map.mpr ⟨(key, spelling), entry, rfl⟩,
      (s.keyed key spelling found).symm⟩

theorem contains_union {s t : MatchSet} {word : String} :
    (s.union t).contains word = true ↔ s.contains word = true ∨ t.contains word = true := by
  rw [union, contains_foldl_insert, exists_marked_iff]

theorem contains_inter {s t : MatchSet} {word : String} :
    (s.inter t).contains word = true ↔ s.contains word = true ∧ t.contains word = true := by
  rw [inter, contains_foldl_insert, contains_filter]
  constructor
  · intro either
    rcases either with both | ⟨marked, member, rfl⟩
    · exact both
    · rw [List.mem_filter] at member
      exact ⟨member.2, exists_marked_iff.mp ⟨marked, member.1, rfl⟩⟩
  · exact Or.inl

end WordFinder.MatchSet
