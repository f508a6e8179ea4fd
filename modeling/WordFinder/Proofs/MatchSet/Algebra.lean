import Mathlib
import WordFinder.Proofs.MatchSet.Spelling

/-!
# Intersections and unions of match sets

How a word is spelled in an intersection or a union, told by how the two sets spell it. An exact
spelling wins, whichever set has it; without one the spelling of the first set is kept, and that of
the second only where the first lacks the word. Neither depends on the order in which the entries of
the second set are gone through.
-/
set_option autoImplicit false

namespace WordFinder.MatchSet

open Text (upper)

def joinedSpelling (word : String) (first? second? : Option String) : Option String :=
  if first? = some word ∨ second? = some word then some word else first?.or second?

theorem joinedSpelling_none (word : String) (first? : Option String) :
    joinedSpelling word first? none = first? := by
  rw [joinedSpelling, Option.or_none]
  split
  · next exact => exact (exact.resolve_right (by simp)).symm
  · rfl

/-- The joined spelling is exact exactly if one of the two is; otherwise the first set decides. -/
theorem eq_of_joinedSpelling {word marked : String} {first? second? : Option String}
    (joined : joinedSpelling word first? second? = some marked) :
    (marked = word ↔ first? = some word ∨ second? = some word) ∧
      (marked ≠ word → first?.or second? = some marked) := by
  rw [joinedSpelling] at joined
  split at joined
  · next exact =>
    cases joined
    exact ⟨⟨fun _ => exact, fun _ => rfl⟩, fun other => absurd rfl other⟩
  · next inexact =>
    refine ⟨⟨fun same => ?_, fun exact => absurd exact inexact⟩, fun _ => joined⟩
    rw [same, Option.or_eq_some_iff] at joined
    exact joined.imp id And.right

theorem foldl_keepSpelling_of_mem {word : String} {spellings : List String}
    {second? : Option String} (single : ∀ marked, marked ∈ spellings ↔ second? = some marked)
    (first? : Option String) :
    spellings.foldl (keepSpelling word) first? = joinedSpelling word first? second? := by
  have first : spellings.head? = second? := by
    cases spellings with
    | nil =>
      cases second? with
      | none => rfl
      | some marked => exact absurd ((single marked).mpr rfl) List.not_mem_nil
    | cons marked rest => exact ((single marked).mp (List.mem_cons_self ..)).symm
  rw [foldl_keepSpelling, first, joinedSpelling]
  simp only [single]
  by_cases known : first? = some word
  · simp [known]
  · simp [known]

variable {a b : MatchSet}

/-- The spellings of a set that fold to a word, in whatever order all of them are listed. -/
theorem mem_filter_of_perm {spellings : List String} (listed : spellings.Perm b.markedSpellings)
    (word marked : String) :
    marked ∈ spellings.filter (upper · = word) ↔ b.spelling? word = some marked := by
  rw [List.mem_filter, listed.mem_iff, mem_markedSpellings_iff, decide_eq_true_eq]
  constructor
  · rintro ⟨found, rfl⟩
    exact found
  · intro found
    have same := upper_of_spelling? found
    exact ⟨same ▸ found, same⟩

theorem spelling?_foldl_insert_perm {spellings : List String}
    (listed : spellings.Perm b.markedSpellings) (word : String) :
    (spellings.foldl insert a).spelling? word =
      joinedSpelling word (a.spelling? word) (b.spelling? word) := by
  rw [spelling?_foldl_insert, foldl_keepSpelling_of_mem (mem_filter_of_perm listed word)]

theorem spelling?_union (a b : MatchSet) (word : String) :
    (a.union b).spelling? word = joinedSpelling word (a.spelling? word) (b.spelling? word) :=
  spelling?_foldl_insert_perm (List.Perm.refl _) word

theorem spelling?_inter (a b : MatchSet) (word : String) :
    (a.inter b).spelling? word =
      if a.contains word && b.contains word then
        joinedSpelling word (a.spelling? word) (b.spelling? word)
      else none := by
  have others : ∀ marked, marked ∈ (b.markedSpellings.filter fun marked =>
      a.contains (upper marked)).filter (upper · = word) ↔
        (if a.contains word then b.spelling? word else none) = some marked := by
    intro marked
    rw [List.filter_comm, List.mem_filter, mem_filter_of_perm (List.Perm.refl _)]
    constructor
    · rintro ⟨found, known⟩
      rw [upper_of_spelling? found] at known
      rw [if_pos known, found]
    · intro kept
      split at kept
      · next known =>
        refine ⟨kept, ?_⟩
        rwa [upper_of_spelling? kept]
      · contradiction
  rw [inter, spelling?_foldl_insert, foldl_keepSpelling_of_mem others, spelling?_filter]
  by_cases known : a.contains word = true
  · by_cases shared : b.contains word = true
    · simp [known, shared]
    · rw [spelling?_eq_none_iff.mpr shared]
      simp [shared, joinedSpelling_none]
  · rw [if_neg known, joinedSpelling_none, spelling?_eq_none_iff.mpr known]
    simp [known]

/-- The set with an exact spelling taken over from an entry, if it has the word. -/
def takeExact (s : MatchSet) (entry : String × String) : MatchSet :=
  if entry.2 = entry.1 ∧ s.contains entry.1 = true then s.put entry.2 else s

theorem spelling?_takeExact {entry : String × String} (keyed : upper entry.2 = entry.1)
    (word : String) :
    (a.takeExact entry).spelling? word =
      if entry = (word, word) ∧ a.contains word = true then some word else a.spelling? word := by
  obtain ⟨key, marked⟩ := entry
  simp only [takeExact, Prod.mk.injEq] at keyed ⊢
  by_cases here : key = word
  · subst here
    by_cases exact : marked = key
    · by_cases known : a.contains key = true
      · simp [exact, known, spelling?_put, exact ▸ keyed]
      · simp [known]
    · simp [exact]
  · have other : ¬((key = word ∧ marked = word) ∧ a.contains word = true) := fun all =>
      here all.1.1
    rw [if_neg other]
    split
    · rw [spelling?_put, keyed, if_neg here]
    · rfl

theorem contains_takeExact {entry : String × String} (keyed : upper entry.2 = entry.1)
    (word : String) : (a.takeExact entry).contains word = a.contains word := by
  rw [contains_eq_isSome, spelling?_takeExact keyed]
  split
  · next exact => rw [exact.2]; rfl
  · rw [contains_eq_isSome]

theorem spelling?_foldl_takeExact {entries : List (String × String)}
    (keyed : ∀ entry ∈ entries, upper entry.2 = entry.1) (word : String) :
    (entries.foldl takeExact a).spelling? word =
      if (word, word) ∈ entries ∧ a.contains word = true then some word
      else a.spelling? word := by
  induction entries generalizing a with
  | nil => simp
  | cons entry entries ih =>
    obtain ⟨key, rest⟩ := List.forall_mem_cons.mp keyed
    rw [List.foldl_cons, ih rest, contains_takeExact key, spelling?_takeExact key]
    simp only [List.mem_cons, eq_comm (a := entry)]
    by_cases known : a.contains word = true
    · by_cases here : (word, word) = entry <;> simp [known, here]
    · simp [known]

/-- Taking over the exact spellings of the second set, in whatever order, once the words that it
lacks are dropped, gives the intersection. -/
theorem foldl_takeExact_alike {order : List (String × String)} (listed : order.Perm b.entries) :
    (order.foldl takeExact (a.filter b.contains)).Alike (a.inter b) := by
  have keyed : ∀ entry ∈ order, upper entry.2 = entry.1 := fun entry member =>
    upper_of_spelling? (mem_entries_iff.mp (listed.mem_iff.mp member))
  intro word
  rw [spelling?_foldl_takeExact keyed, spelling?_inter, spelling?_filter]
  simp only [listed.mem_iff, mem_entries_iff]
  have kept : (a.filter b.contains).contains word = (a.contains word && b.contains word) := by
    rw [Bool.eq_iff_iff, contains_filter, Bool.and_eq_true]
  rw [kept]
  by_cases shared : b.contains word = true
  · by_cases known : a.contains word = true
    · obtain ⟨marked, spelled⟩ := Option.isSome_iff_exists.mp (contains_eq_isSome a word ▸ known)
      by_cases exact : b.spelling? word = some word
      · simp [known, shared, exact, joinedSpelling]
      · by_cases same : marked = word <;> simp [known, shared, exact, joinedSpelling, spelled, same]
    · simp [shared, known, spelling?_eq_none_iff.mpr known]
  · simp [shared]

/-- Keys fold from spellings; the words of an intersection are those of both sets and the words of a
union those of either; both spell a word exactly if one of the sets does and otherwise as the first
set that has it; what a test keeps is spelled as before. In whatever order the entries of the second
set come up, the result is the same. -/
theorem spelled_together (a b : MatchSet) (keep : String → Bool) (order : List (String × String))
    (listed : order.Perm b.entries) :
    (∀ s : MatchSet, ∀ entry ∈ s.entries, entry.1 = upper entry.2) ∧
      (∀ word, (a.inter b).contains word = (a.contains word && b.contains word)) ∧
      (∀ word, (a.union b).contains word = (a.contains word || b.contains word)) ∧
      (∀ joined ∈ [a.inter b, a.union b], ∀ word marked, (word, marked) ∈ joined.entries →
        (marked = word ↔ (word, word) ∈ a.entries ∨ (word, word) ∈ b.entries) ∧
          (marked ≠ word → (word, marked) ∈ a.entries ∨
            a.contains word = false ∧ (word, marked) ∈ b.entries)) ∧
      (∀ word marked, (word, marked) ∈ (a.filter keep).entries ↔
        keep word = true ∧ (word, marked) ∈ a.entries) ∧
      (order.foldl takeExact (a.filter b.contains)).Alike (a.inter b) ∧
        ((order.map Prod.snd).foldl insert a).Alike (a.union b) := by
  have spellings : (order.map Prod.snd).Perm b.markedSpellings := listed.map Prod.snd
  refine ⟨fun s entry member => ?keys, fun word => ?inter, fun word => ?union,
    fun joined either word marked found => ?spelled, fun word marked => ?kept,
    foldl_takeExact_alike listed, fun word => ?order⟩
  case keys => exact (upper_of_spelling? (mem_entries_iff.mp member)).symm
  case inter => rw [Bool.eq_iff_iff, contains_inter, Bool.and_eq_true]
  case union => rw [Bool.eq_iff_iff, contains_union, Bool.or_eq_true]
  case kept =>
    rw [mem_entries_iff, mem_entries_iff, spelling?_filter]
    by_cases passes : keep word = true <;> simp [passes]
  case order => rw [spelling?_foldl_insert_perm spellings, spelling?_union]
  case spelled =>
    have together : joinedSpelling word (a.spelling? word) (b.spelling? word) = some marked := by
      rw [mem_entries_iff] at found
      rcases List.mem_pair.mp either with rfl | rfl
      · rw [spelling?_inter] at found
        split at found
        · exact found
        · contradiction
      · rwa [spelling?_union] at found
    obtain ⟨exact, inexact⟩ := eq_of_joinedSpelling together
    simp only [mem_entries_iff]
    refine ⟨exact, fun other => ?_⟩
    rcases Option.or_eq_some_iff.mp (inexact other) with first | ⟨none, second⟩
    · exact Or.inl first
    · exact Or.inr ⟨by rw [contains_eq_isSome, none]; rfl, second⟩

/-- `CAT` replaces `CaT` from the other set, while `dOg` stays before `Dog`. -/
theorem spelled_together_dog :
    let a := MatchSet.ofSpellings ["CaT", "dOg", "EMU"]
    let b := MatchSet.ofSpellings ["Dog", "CAT", "ant"]
    let order := [("DOG", "Dog"), ("CAT", "CAT"), ("ANT", "ant")]
    order.Perm b.entries ∧ ("CAT", "CAT") ∈ (a.inter b).entries ∧
      ("DOG", "dOg") ∈ (a.inter b).entries ∧
        (("CAT", "CAT") ∈ a.entries ∨ ("CAT", "CAT") ∈ b.entries) ∧
          (("DOG", "dOg") ∈ a.entries ∨ a.contains "DOG" = false ∧ ("DOG", "dOg") ∈ b.entries) ∧
            (order.foldl takeExact (a.filter b.contains)).Alike (a.inter b) := by
  intro a b order
  have entries : (a.inter b).entries = [("CAT", "CAT"), ("DOG", "dOg")] := by decide +kernel
  have listed : order.Perm b.entries := by
    rw [show b.entries = [("ANT", "ant"), ("CAT", "CAT"), ("DOG", "Dog")] by decide +kernel]
    decide
  have cat : ("CAT", "CAT") ∈ (a.inter b).entries := entries ▸ by decide
  have dog : ("DOG", "dOg") ∈ (a.inter b).entries := entries ▸ by decide
  obtain ⟨_, _, _, spelled, _, exact, _⟩ := spelled_together a b (fun _ => true) order listed
  have both := spelled (a.inter b) (List.mem_cons_self ..)
  exact ⟨listed, cat, dog, (both _ _ cat).1.mp rfl, (both _ _ dog).2 (by decide), exact⟩

end WordFinder.MatchSet
