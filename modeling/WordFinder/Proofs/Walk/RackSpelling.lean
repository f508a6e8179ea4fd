import Mathlib
import WordFinder.Proofs.MatchSet.Spelling
import WordFinder.Proofs.Rack.Slots
import WordFinder.Proofs.Walk.Rack

/-!
# How rack walks spell words

A letter takes a letter slot if there is one and is marked otherwise, whatever else supplies it. So
the letter slots alone decide how a word is spelled, and every way to supply the word is spelled the
same: of each letter, as many occurrences are left unmarked, from the first on, as there are slots
for it.
-/
set_option autoImplicit false

namespace WordFinder

open Text (upper)

/-- The spelling of a word whose letters take what there is of some letter slots, first come, first
served; the letters that find none are marked. -/
def Rack.marked : List Char → List Char → List Char
  | _, [] => []
  | slots, c :: word =>
    if slots.contains c then c :: marked (slots.erase c) word else c.toLower :: marked slots word

/-- A word with the first `copies c` occurrences of each letter `c` as they are and all later ones
in lower case. -/
def markBeyond (copies : Char → Nat) (word : List Char) : List Char :=
  word.mapIdx fun i c => if (word.take i).count c < copies c then c else c.toLower

theorem markBeyond_cons (copies : Char → Nat) (c : Char) (word : List Char) :
    markBeyond copies (c :: word) = (if 0 < copies c then c else c.toLower) ::
      markBeyond (fun d => copies d - if c == d then 1 else 0) word := by
  have later (i : Nat) (d : Char) : ((c :: word).take (i + 1)).count d < copies d ↔
      (word.take i).count d < copies d - if c == d then 1 else 0 := by
    rw [List.take_succ_cons, List.count_cons]
    omega
  rw [markBeyond, List.mapIdx_cons, markBeyond]
  simp only [later]
  rfl

theorem Rack.marked_eq_markBeyond (slots word : List Char) :
    marked slots word = markBeyond (fun c => slots.count c) word := by
  induction word generalizing slots with
  | nil => rfl
  | cons c word ih =>
    rw [marked, markBeyond_cons]
    by_cases slot : c ∈ slots
    · rw [if_pos (List.contains_iff_mem.mpr slot), if_pos (List.count_pos_iff.mpr slot), ih]
      simp only [List.count_erase]
    · have none : slots.count c = 0 := List.count_eq_zero.mpr slot
      have same (d : Char) : (slots.count d - if c == d then 1 else 0) = slots.count d := by
        by_cases equal : c = d
        · rw [← equal, none, Nat.zero_sub]
        · simp [equal]
      rw [if_neg (mt List.contains_iff_mem.mp slot), if_neg (by omega), ih]
      simp only [same]

namespace RackState

variable {star subanagram : Bool} {limits : WalkLimits} {s later : RackState} {slots : List Char}

/-- The letters chosen so far are spelled as the slots say, and the slots left spell the rest. -/
def Marks (slots : List Char) (s : RackState) : Prop :=
  ∀ rest, Rack.marked slots (s.spelled.reverse.map Char.toUpper ++ rest) =
    s.spelled.reverse ++ Rack.marked s.letters rest

theorem marks_ofRack (rack : Rack) (t : Trie) : (ofRack rack t).Marks rack.letters := by
  intro rest
  rfl

theorem notMem_letters_of_supply {c : Char} {supply : Supply} (tried : supply ∈ s.supplies star c)
    (other : supply ≠ .letterSlot) : s.letters.contains c = false := by
  rw [supplies] at tried
  by_contra slot
  rw [Bool.not_eq_false] at slot
  rw [if_pos slot, List.mem_singleton] at tried
  exact other tried

theorem contains_letters_of_letterSlot {c : Char} (tried : .letterSlot ∈ s.supplies star c) :
    s.letters.contains c = true := by
  by_contra noSlot
  rw [supplies, if_neg noSlot] at tried
  split at tried
  · simp at tried
  · simp [mem_wildSupplies_iff] at tried

theorem Marks.take {n : TrieNode} {supply : Supply} (marks : s.Marks slots)
    (capital : n.letter.isUpper = true) (tried : supply ∈ s.supplies star n.letter) :
    (s.take n supply).Marks slots := by
  intro rest
  rw [(spelled_take capital supply).1, List.append_assoc, List.singleton_append, marks,
    Rack.marked]
  cases supply with
  | letterSlot =>
    rw [if_pos (contains_letters_of_letterSlot tried)]
    simp [RackState.take]
  | classSlot k | blank | star =>
    -- these are tried only if there is no letter slot
    rw [notMem_letters_of_supply tried (by simp), if_neg Bool.false_ne_true]
    simp [RackState.take]

theorem Marks.choice {n : TrieNode} (marks : s.Marks slots)
    (chosen : (n, later) ∈ s.choices star limits) : later.Marks slots := by
  obtain ⟨_, capital, _, _, supply, tried, rfl⟩ := mem_choices_iff.mp chosen
  exact marks.take capital tried

theorem Marks.spelled_eq (marks : s.Marks slots) :
    s.spelled.reverse = Rack.marked slots (s.spelled.reverse.map Char.toUpper) := by
  have whole := marks []
  rw [List.append_nil, Rack.marked, List.append_nil] at whole
  exact whole.symm

theorem spelledBy_visit {found : MatchSet} (marks : s.Marks slots)
    (spelled : found.SpelledBy fun word => .ofList (Rack.marked slots word.toList)) :
    (visit star subanagram limits found s).SpelledBy fun word =>
      .ofList (Rack.marked slots word.toList) := by
  rw [visit, ← List.foldl_filter, ← List.foldl_map (f := fun choice : TrieNode × RackState =>
    String.ofList choice.2.spelled.reverse)]
  apply spelled.foldl_insert
  intro marked member
  obtain ⟨⟨n, later⟩, listed, rfl⟩ := List.mem_map.mp member
  have chosen := (List.mem_filter.mp listed).1
  rw [Text.toList_upper, String.toList_ofList, ← (marks.choice chosen).spelled_eq]

end RackState

namespace Rack

theorem spelledBy_wordsIn (rack : Rack) (subanagram : Bool) (limits : WalkLimits) (t : Trie) :
    (rack.wordsIn subanagram limits t).SpelledBy fun word =>
      .ofList (marked rack.letters word.toList) := by
  rw [wordsIn]
  split
  · exact .empty _
  · apply Walk.keeps_run (walk rack.star subanagram limits)
      (fun found => found.SpelledBy fun word => .ofList (marked rack.letters word.toList))
      (RackState.Marks rack.letters)
    · exact fun found s marks spelled => RackState.spelledBy_visit marks spelled
    · intro s marks later next
      obtain ⟨_, n, chosen⟩ := RackState.mem_next_iff.mp next
      exact marks.choice chosen
    · exact List.forall_mem_singleton.mpr (RackState.marks_ofRack rack t)
    · exact .empty _

/-- Every word that a rack finds is spelled with as many unmarked occurrences of each letter, from
the first on, as the rack has slots for that letter. All ways of the walk write this spelling. -/
theorem marks_of_wordsIn (tokens : List Token) (subanagram : Bool) (limits : WalkLimits)
    (t : Trie) :
    let rack := ofTokens tokens
    let copies := fun c => rack.letters.count c
    (∀ c, copies c = min (tokens.count (.letter c)) maxCopies) ∧
      (∀ word marked, (word, marked) ∈ (rack.wordsIn subanagram limits t).entries →
        marked.toList = markBeyond copies word.toList) ∧
      ∀ s, (walk rack.star subanagram limits).Reaches [.ofRack rack t] s →
        ∀ n later, (n, later) ∈ s.choices rack.star limits →
          later.spelled.reverse = markBeyond copies (later.spelled.reverse.map Char.toUpper) := by
  intro rack copies
  refine ⟨count_letters_ofTokens tokens, fun word marked found => ?_,
    fun s reached n later chosen => ?_⟩
  · rw [MatchSet.mem_entries_iff] at found
    rw [rack.spelledBy_wordsIn subanagram limits t word marked found, String.toList_ofList,
      marked_eq_markBeyond]
  · have marks := reached.valid (List.forall_mem_singleton.mpr (RackState.marks_ofRack rack t))
      fun _ marks _ follows => by
        obtain ⟨_, _, chosen⟩ := RackState.mem_next_iff.mp follows
        exact marks.choice chosen
    rw [← marked_eq_markBeyond]
    exact (marks.choice chosen).spelled_eq

/-- The last `T` of `TATTLE` takes the class or the blank and is marked either way. -/
theorem marks_of_wordsIn_tattle :
    let tokens : List Token :=
      [.any, .letter 'T', .letter 'A', .letter 'T', .oneOf ⟨['L', 'T']⟩, .star]
    ("TATTLE", "TATtle") ∈
      ((ofTokens tokens).wordsIn false {} (.ofWord "TATTLE".toList)).entries := by
  intro tokens
  have member : "TATTLE".toList ∈ (Trie.ofWord "TATTLE".toList).words :=
    Trie.mem_words_ofWord.mpr ⟨rfl, by decide⟩
  have capital : (Trie.ofWord "TATTLE".toList).IsCapital := by
    intro word listed
    rw [(Trie.mem_words_ofWord.mp listed).1]
    simp [AreCapitals]
  have spelled : (ofTokens tokens).spells "TATTLE" false = true := by decide +kernel
  have found := ((ofTokens tokens).contains_wordsIn false {} capital "TATTLE").mpr
    ⟨by decide, member, spelled, by decide, by decide, by simp [WalkLimits.allows]⟩
  rw [MatchSet.contains_eq_isSome, Option.isSome_iff_exists] at found
  obtain ⟨marked, kept⟩ := found
  have entry := MatchSet.mem_entries_iff.mpr kept
  have marks :=
    (marks_of_wordsIn tokens false {} (.ofWord "TATTLE".toList)).2.1 "TATTLE" marked entry
  have written : marked = "TATtle" := by
    rw [← String.toList_inj, marks]
    decide +kernel
  rwa [written] at entry

theorem wordsIn_alike (rack : Rack) (subanagram : Bool) (limits : WalkLimits) {t u : Trie}
    (capital : t.IsCapital) (same : ∀ word, word ∈ t.words ↔ word ∈ u.words) :
    (rack.wordsIn subanagram limits t).Alike (rack.wordsIn subanagram limits u) := by
  have capitalSecond : u.IsCapital := fun word member => capital word ((same word).mpr member)
  rw [(rack.spelledBy_wordsIn subanagram limits t).alike_iff
    (rack.spelledBy_wordsIn subanagram limits u)]
  intro word
  rw [Bool.eq_iff_iff, rack.contains_wordsIn subanagram limits capital,
    rack.contains_wordsIn subanagram limits capitalSecond, same]

end Rack

end WordFinder
