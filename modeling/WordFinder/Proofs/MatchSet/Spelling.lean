import Mathlib
import WordFinder.Proofs.MatchSet

/-!
# Marked spellings of match sets

A match set is seen here as a function from words to marked spellings. Two sets that spell every word
alike list the same words with the same marks, and each operation on sets respects this. Where each
word is spelled by a rule, the words alone decide; a set is exact if it marks no letter.
-/
set_option autoImplicit false

namespace WordFinder

open Text (upper)

namespace MatchSet

def spelling? (s : MatchSet) (word : String) : Option String :=
  s.spellings[word]?

/-- What is kept for a word when one more spelling of it is found. -/
def keepSpelling (word : String) (known? : Option String) (marked : String) : Option String :=
  if known?.isSome && marked != word then known? else some marked

theorem upper_of_spelling? {s : MatchSet} {word marked : String}
    (found : s.spelling? word = some marked) : upper marked = word :=
  s.keyed word marked found

theorem contains_eq_isSome (s : MatchSet) (word : String) :
    s.contains word = (s.spelling? word).isSome :=
  Std.TreeMap.contains_eq_isSome_getElem?

theorem mem_entries_iff {s : MatchSet} {word marked : String} :
    (word, marked) ∈ s.entries ↔ s.spelling? word = some marked :=
  Std.TreeMap.mem_toList_iff_getElem?_eq_some

theorem spelling?_eq_none_iff {s : MatchSet} {word : String} :
    s.spelling? word = none ↔ ¬s.contains word = true := by
  rw [contains_eq_isSome, Option.not_isSome_iff_eq_none]

theorem spelling?_empty (word : String) : empty.spelling? word = none := by
  rw [spelling?_eq_none_iff, contains_empty]
  exact Bool.false_ne_true

theorem spelling?_put (s : MatchSet) (marked word : String) :
    (s.put marked).spelling? word =
      if upper marked = word then some marked else s.spelling? word := by
  rw [spelling?, put, Std.TreeMap.getElem?_insert]
  simp only [Std.LawfulEqCmp.compare_eq_iff_eq]
  rfl

theorem spelling?_insert (s : MatchSet) (marked word : String) :
    (s.insert marked).spelling? word =
      if upper marked = word then keepSpelling word (s.spelling? word) marked
      else s.spelling? word := by
  rw [insert, contains_eq_isSome]
  by_cases same : upper marked = word
  · rw [same, if_pos rfl, keepSpelling]
    split
    · rfl
    · rw [spelling?_put, if_pos same]
  · rw [if_neg same]
    split
    · rfl
    · rw [spelling?_put, if_neg same]

theorem spelling?_foldl_insert (spellings : List String) (s : MatchSet) (word : String) :
    (spellings.foldl insert s).spelling? word =
      (spellings.filter (upper · = word)).foldl (keepSpelling word) (s.spelling? word) := by
  induction spellings generalizing s with
  | nil => rfl
  | cons marked spellings ih =>
    rw [List.foldl_cons, ih, spelling?_insert, List.filter_cons]
    by_cases same : upper marked = word
    · simp [same]
    · simp [same]

theorem spelling?_foldl_insertIf {ι : Type} (choices : List ι) (complete : ι → Bool)
    (spelling : ι → String) (s : MatchSet) (word : String) :
    (choices.foldl (fun found i => if complete i then found.insert (spelling i) else found)
        s).spelling? word =
      (((choices.filter complete).map spelling).filter (upper · = word)).foldl (keepSpelling word)
        (s.spelling? word) := by
  rw [← List.foldl_filter, ← spelling?_foldl_insert, List.foldl_map]

/-- An exact spelling is kept wherever it comes; otherwise the first spelling is. -/
theorem foldl_keepSpelling (word : String) (known? : Option String) (spellings : List String) :
    spellings.foldl (keepSpelling word) known? =
      if word ∈ spellings then some word else known?.or spellings.head? := by
  induction spellings generalizing known? with
  | nil => simp
  | cons marked spellings ih =>
    rw [List.foldl_cons, ih, keepSpelling]
    by_cases same : marked = word
    · simp [same]
    · cases known? <;> simp [same, Ne.symm same]

theorem spelling?_filter (s : MatchSet) (keep : String → Bool) (word : String) :
    (s.filter keep).spelling? word = if keep word then s.spelling? word else none := by
  have members : (s.filter keep).contains word = true ↔ s.contains word = true ∧ keep word = true :=
    contains_filter
  split
  · next kept =>
    rw [kept, eq_self, and_true] at members
    cases found : (s.filter keep).spelling? word with
    | none =>
      rw [spelling?_eq_none_iff, members, ← spelling?_eq_none_iff] at found
      exact found.symm
    | some marked =>
      rw [spelling?, filter, Std.TreeMap.getElem?_filter] at found
      exact (Option.pfilter_eq_some_iff.mp found).1.symm
  · next refused =>
    rw [spelling?_eq_none_iff, members]
    exact fun both => refused both.2

/-! ## Lists of words and spellings -/

theorem map_upper_markedSpellings (s : MatchSet) : s.markedSpellings.map upper = s.words := by
  rw [markedSpellings, words, List.map_map]
  refine List.map_congr_left fun entry member => ?_
  exact s.keyed entry.1 entry.2 (Std.TreeMap.mem_toList_iff_getElem?_eq_some.mp member)

theorem length_markedSpellings (s : MatchSet) : s.markedSpellings.length = s.words.length := by
  rw [← map_upper_markedSpellings, List.length_map]

theorem markedSpellings_eq_filterMap (s : MatchSet) :
    s.markedSpellings = s.words.filterMap s.spelling? := by
  rw [markedSpellings, words, List.filterMap_map, ← List.filterMap_eq_map]
  refine List.filterMap_congr fun entry member => ?_
  exact (Std.TreeMap.mem_toList_iff_getElem?_eq_some.mp member).symm

theorem mem_markedSpellings_iff {s : MatchSet} {marked : String} :
    marked ∈ s.markedSpellings ↔ s.spelling? (upper marked) = some marked := by
  rw [markedSpellings_eq_filterMap, List.mem_filterMap]
  constructor
  · intro holds
    obtain ⟨word, _, found⟩ := holds
    rwa [upper_of_spelling? found]
  · intro found
    refine ⟨upper marked, ?_, found⟩
    rw [mem_words_iff, contains_eq_isSome, found]
    rfl

/-! ## Sets that spell alike -/

def Alike (s t : MatchSet) : Prop :=
  ∀ word, s.spelling? word = t.spelling? word

namespace Alike

variable {s t u v : MatchSet}

theorem refl (s : MatchSet) : s.Alike s := fun _ => rfl

theorem contains_eq (alike : s.Alike t) (word : String) : s.contains word = t.contains word := by
  rw [contains_eq_isSome, contains_eq_isSome, alike word]

theorem words_eq (alike : s.Alike t) : s.words = t.words :=
  words_eq_of_contains fun word => by rw [alike.contains_eq word]

theorem markedSpellings_eq (alike : s.Alike t) : s.markedSpellings = t.markedSpellings := by
  rw [markedSpellings_eq_filterMap, markedSpellings_eq_filterMap, alike.words_eq]
  exact List.filterMap_congr fun word _ => alike word

theorem size_eq (alike : s.Alike t) : s.size = t.size := by
  rw [← length_words, ← length_words, alike.words_eq]

theorem foldl_insert (alike : s.Alike t) (spellings : List String) :
    (spellings.foldl insert s).Alike (spellings.foldl insert t) := fun word => by
  rw [spelling?_foldl_insert, spelling?_foldl_insert, alike word]

theorem filter (alike : s.Alike t) {keep also : String → Bool}
    (same : ∀ word, s.contains word = true → keep word = also word) :
    (s.filter keep).Alike (t.filter also) := fun word => by
  rw [spelling?_filter, spelling?_filter, ← alike word]
  by_cases member : s.contains word = true
  · rw [same word member]
  · rw [spelling?_eq_none_iff.mpr member, ite_self, ite_self]

theorem union (alike : s.Alike t) (others : u.Alike v) : (s.union u).Alike (t.union v) := by
  rw [MatchSet.union, MatchSet.union, others.markedSpellings_eq]
  exact alike.foldl_insert _

theorem inter (alike : s.Alike t) (others : u.Alike v) : (s.inter u).Alike (t.inter v) := by
  have both : (fun marked => s.contains (upper marked)) = fun marked => t.contains (upper marked) :=
    funext fun marked => alike.contains_eq (upper marked)
  rw [MatchSet.inter, MatchSet.inter, others.markedSpellings_eq, both]
  exact (alike.filter fun word _ => others.contains_eq word).foldl_insert _

end Alike

/-! ## Parts of sets -/

theorem spelling?_foldl_filter {ι : Type} (steps : List ι) (keep : ι → String → Bool)
    (s : MatchSet) (word : String) :
    (steps.foldl (fun kept step => kept.filter (keep step)) s).spelling? word =
      if steps.all fun step => keep step word then s.spelling? word else none := by
  induction steps generalizing s with
  | nil => rfl
  | cons step steps ih =>
    rw [List.foldl_cons, ih, spelling?_filter, List.all_cons]
    cases keep step word <;> simp

/-! ## Sets that spell by a rule -/

def SpelledBy (s : MatchSet) (spell : String → String) : Prop :=
  ∀ word marked, s.spelling? word = some marked → marked = spell word

namespace SpelledBy

variable {s t : MatchSet} {spell : String → String}

theorem alike_iff (first : s.SpelledBy spell) (second : t.SpelledBy spell) :
    s.Alike t ↔ ∀ word, s.contains word = t.contains word := by
  constructor
  · exact fun alike => alike.contains_eq
  · intro same word
    have members := same word
    rw [contains_eq_isSome, contains_eq_isSome] at members
    cases found : s.spelling? word with
    | none =>
      rw [found, Option.isSome_none, eq_comm, Option.isSome_eq_false_iff, Option.isNone_iff_eq_none]
        at members
      exact members.symm
    | some marked =>
      rw [found, Option.isSome_some, eq_comm] at members
      obtain ⟨other, foundOther⟩ := Option.isSome_iff_exists.mp members
      rw [foundOther, first word marked found, second word other foundOther]

theorem of_alike (spelled : s.SpelledBy spell) (alike : s.Alike t) : t.SpelledBy spell := by
  intro word marked found
  rw [← alike word] at found
  exact spelled word marked found

theorem empty (spell : String → String) : MatchSet.empty.SpelledBy spell := by
  intro word marked found
  rw [spelling?_empty] at found
  contradiction

theorem filter (spelled : s.SpelledBy spell) (keep : String → Bool) :
    (s.filter keep).SpelledBy spell := by
  intro word marked found
  rw [spelling?_filter] at found
  split at found
  · exact spelled word marked found
  · contradiction

theorem insert (spelled : s.SpelledBy spell) {marked : String}
    (follows : marked = spell (upper marked)) : (s.insert marked).SpelledBy spell := by
  intro word other found
  rw [spelling?_insert, keepSpelling] at found
  split at found
  · next same =>
    split at found
    · exact spelled word other found
    · rw [← Option.some.inj found, ← same]
      exact follows
  · exact spelled word other found

theorem foldl_insert (spelled : s.SpelledBy spell) {spellings : List String}
    (follow : ∀ marked ∈ spellings, marked = spell (upper marked)) :
    (spellings.foldl MatchSet.insert s).SpelledBy spell := by
  induction spellings generalizing s with
  | nil => exact spelled
  | cons first spellings ih =>
    obtain ⟨firstFollows, restFollow⟩ := List.forall_mem_cons.mp follow
    exact ih (spelled.insert firstFollows) restFollow

end SpelledBy

def IsExact (s : MatchSet) : Prop :=
  s.SpelledBy fun word => word

namespace IsExact

variable {s t : MatchSet}

theorem upper_of_mem (exact : s.IsExact) {marked : String} (member : marked ∈ s.markedSpellings) :
    marked = upper marked :=
  exact _ _ (mem_markedSpellings_iff.mp member)

theorem markedSpellings_eq (exact : s.IsExact) : s.markedSpellings = s.words := by
  rw [← map_upper_markedSpellings,
    List.map_congr_left (g := fun marked => marked) fun marked member =>
      (exact.upper_of_mem member).symm,
    List.map_id']

theorem ofSpellings {spellings : List String}
    (plain : ∀ marked ∈ spellings, marked = upper marked) :
    (MatchSet.ofSpellings spellings).IsExact :=
  (SpelledBy.empty _).foldl_insert plain

theorem union (exact : s.IsExact) (others : t.IsExact) : (s.union t).IsExact :=
  SpelledBy.foldl_insert exact fun _ => others.upper_of_mem

end IsExact

theorem isExact_ofSpellings_words (s : MatchSet) : (ofSpellings s.words).IsExact := by
  refine .ofSpellings fun word member => ?_
  rw [← map_upper_markedSpellings, List.mem_map] at member
  obtain ⟨marked, _, rfl⟩ := member
  exact (Text.upper_upper marked).symm

end MatchSet

end WordFinder
