import Mathlib
import WordFinder.Glossary
import WordFinder.Proofs.Lists
import WordFinder.Proofs.Text.Parts

/-!
# What a glossary keeps of a definition

The entries of a definition are filed under their parts of speech and read off in the order of these.
That is a stable sort: no entry is lost or added, and entries of one part of speech stay in the order
in which they are written.
-/
set_option autoImplicit false

namespace WordFinder.Glossary

/-! ## Entries filed under their parts of speech -/

variable (entries : List String) (pos : String)

theorem getD_filed : (filed entries).getD pos [] = entries.filter (partOfSpeech · == pos) := by
  rw [filed]
  induction entries using List.reverseRecOn with
  | nil => rw [List.foldl_nil, Std.TreeMap.getD_emptyc, List.filter_nil]
  | append_singleton entries entry ih =>
    rw [List.foldl_append, List.foldl_cons, List.foldl_nil, Std.TreeMap.getD_insert,
      List.filter_append, ← ih]
    by_cases same : partOfSpeech entry = pos
    · rw [if_pos (Std.compare_eq_iff_eq.mpr same), same, List.filter_cons_of_pos (by simpa using same),
        List.filter_nil]
    · rw [if_neg (mt Std.compare_eq_iff_eq.mp same), List.filter_cons_of_neg (by simpa using same),
        List.filter_nil, List.append_nil]

theorem sortedEntries_eq_flatMap :
    sortedEntries entries =
      (filed entries).keys.flatMap fun pos => entries.filter (partOfSpeech · == pos) := by
  rw [sortedEntries, ← Std.TreeMap.map_fst_toList_eq_keys, List.flatMap_map]
  apply List.flatMap_congr
  rintro ⟨pos, filedHere⟩ listed
  rw [Std.TreeMap.mem_toList_iff_getElem?_eq_some] at listed
  rw [← getD_filed, Std.TreeMap.getD_eq_getD_getElem?, listed, Option.getD_some]

theorem filter_sortedEntries :
    (sortedEntries entries).filter (partOfSpeech · == pos) =
      entries.filter (partOfSpeech · == pos) := by
  have others (other : String) (apart : other ≠ pos) :
      (entries.filter (partOfSpeech · == other)).filter (partOfSpeech · == pos) = [] := by
    rw [List.filter_filter, List.filter_eq_nil_iff]
    intro entry _ both
    rw [Bool.and_eq_true, beq_iff_eq, beq_iff_eq] at both
    exact apart (both.2.symm.trans both.1)
  rw [sortedEntries_eq_flatMap, List.filter_flatMap]
  by_cases listed : pos ∈ (filed entries).keys
  · rw [flatMap_of_unique Std.TreeMap.nodup_keys listed fun other _ => others other,
      List.filter_filter]
    simp only [Bool.and_self]
  · have absent : entries.filter (partOfSpeech · == pos) = [] := by
      rw [← getD_filed]
      exact Std.TreeMap.getD_eq_fallback (mt Std.TreeMap.mem_keys.mpr listed)
    rw [absent, List.flatMap_eq_nil_iff]
    intro other among
    apply others
    rintro rfl
    exact listed among

theorem pairwise_sortedEntries :
    (sortedEntries entries).Pairwise (partOfSpeech · ≤ partOfSpeech ·) := by
  have part {pos entry : String} (member : entry ∈ entries.filter (partOfSpeech · == pos)) :
      partOfSpeech entry = pos :=
    eq_of_beq (List.mem_filter.mp member).2
  rw [sortedEntries_eq_flatMap, List.pairwise_flatMap]
  constructor
  · intro pos _
    apply List.pairwise_of_forall_mem_list
    intro entry member other otherMember
    exact ((part member).trans (part otherMember).symm).le
  · refine Std.TreeMap.ordered_keys.imp fun before entry member other otherMember => ?_
    rw [part member, part otherMember]
    exact (compare_lt_iff_lt.mp before).le

theorem sortedEntries_eq_mergeSort :
    sortedEntries entries = entries.mergeSort fun a b => partOfSpeech a ≤ partOfSpeech b := by
  -- a sorted list is known by what it has of each part of speech
  apply eq_of_filter_key_eq (pairwise_sortedEntries entries) (pairwise_key_mergeSort _ entries)
  intro pos
  rw [filter_sortedEntries, filter_key_mergeSort]

variable {entries pos}

theorem mem_sortedEntries {entry : String} : entry ∈ sortedEntries entries ↔ entry ∈ entries := by
  rw [sortedEntries_eq_mergeSort, List.mem_mergeSort]

/-! ## Definitions stored and replaced -/

variable {g : Glossary} {word definition : String}

def writtenEntries (definition : String) : List String :=
  Text.splitOn " / " (Text.trim definition)

theorem insert_of_empty (nothing : ¬(word ≠ "" ∧ Text.trim definition ≠ "")) :
    g.insert word definition = g := by
  have empty : (word.isEmpty || (Text.trim definition).isEmpty) = true := by
    rw [Bool.or_eq_true, String.isEmpty_iff, String.isEmpty_iff]
    exact not_and_or.mp nothing |>.imp not_not.mp not_not.mp
  exact if_pos empty

theorem entriesOf_insert (something : word ≠ "" ∧ Text.trim definition ≠ "") :
    (g.insert word definition).entriesOf =
      g.entriesOf.insert word (sortedEntries (writtenEntries definition)) := by
  have full : ¬(word.isEmpty || (Text.trim definition).isEmpty) = true := by
    rw [Bool.or_eq_true, String.isEmpty_iff, String.isEmpty_iff, not_or]
    exact something
  rw [insert]
  simp only [if_neg full]
  rfl

theorem entries_insert (something : word ≠ "" ∧ Text.trim definition ≠ "") (other : String) :
    (g.insert word definition).entries other =
      if other = word then sortedEntries (writtenEntries definition) else g.entries other := by
  rw [entries, entriesOf_insert something, Std.TreeMap.getElem?_insert]
  by_cases same : word = other
  · rw [if_pos (Std.compare_eq_iff_eq.mpr same), if_pos same.symm, Option.getD_some]
  · rw [if_neg (mt Std.compare_eq_iff_eq.mp same), if_neg (Ne.symm same), entries]

/-- A definition that is not empty replaces the one that its word had: the entries of the word are
the written ones, sorted by their parts of speech, and those of other words stay. -/
theorem insert_keeps_entries (g : Glossary) (word definition : String) :
    (word ≠ "" ∧ Text.trim definition ≠ "" →
      " / ".intercalate (writtenEntries definition) = Text.trim definition ∧
      (g.insert word definition).entries word =
        ((writtenEntries definition).mergeSort fun a b => partOfSpeech a ≤ partOfSpeech b) ∧
      (∀ pos, (g.insert word definition).entriesFor word pos =
        (writtenEntries definition).filter (partOfSpeech · == pos)) ∧
      (∀ pos, (g.insert word definition).hasPartOfSpeech word pos = true ↔
        ∃ entry ∈ writtenEntries definition, partOfSpeech entry = pos) ∧
      ∀ other, other ≠ word → (g.insert word definition).entries other = g.entries other) ∧
    (¬(word ≠ "" ∧ Text.trim definition ≠ "") → g.insert word definition = g) := by
  refine ⟨fun something => ?_, insert_of_empty⟩
  have kept := entries_insert (g := g) something word
  rw [if_pos rfl] at kept
  refine ⟨Text.intercalate_splitOn (by decide) _, ?_, fun pos => ?_, fun pos => ?_, ?_⟩
  · rw [kept, sortedEntries_eq_mergeSort]
  · rw [entriesFor, kept, filter_sortedEntries]
  · simp only [hasPartOfSpeech, kept, List.any_eq_true, mem_sortedEntries, beq_iff_eq]
  · intro other apart
    rw [entries_insert something, if_neg apart]

/-- A definition with two verbs around a noun and an entry of no part of speech, beside that of
another word. -/
theorem insert_keeps_entries_cat :
    let g := Glossary.empty.insert "DOG" "a pet [n]"
    let cat := g.insert "CAT" " to vomit [v -S] / a feline [n] / to whip [v] [n] / see kitty "
    cat.entries "CAT" = ["see kitty", "a feline [n]", "to vomit [v -S]", "to whip [v] [n]"] ∧
      cat.hasPartOfSpeech "CAT" "v" = true ∧ cat.hasPartOfSpeech "CAT" "adj" = false ∧
      cat.entries "DOG" = ["a pet [n]"] ∧ cat.insert "CAT" " \n" = cat := by
  intro g cat
  have something : "CAT" ≠ "" ∧
      Text.trim " to vomit [v -S] / a feline [n] / to whip [v] [n] / see kitty " ≠ "" := by
    decide +kernel
  obtain ⟨_, sorted, _, parts, others⟩ := (insert_keeps_entries g "CAT" _).1 something
  rw [← sortedEntries_eq_mergeSort] at sorted
  refine ⟨sorted.trans (by decide +kernel), (parts "v").mpr (by decide +kernel), ?_,
    (others "DOG" (by decide)).trans (by decide +kernel),
    (insert_keeps_entries cat "CAT" " \n").2 (by decide +kernel)⟩
  rw [← Bool.not_eq_true, parts]
  decide +kernel

end WordFinder.Glossary
