import Mathlib
import WordFinder.Proofs.Lists

/-!
# Beginnings of words

A trie has a node for every non-empty beginning of its words. Here these are listed in the order in
which they first come up, so that inserting one more word adds some beginnings at the end. The
beginnings that are one letter longer than a given one then come in the order in which the letters
were first put behind it.
-/
set_option autoImplicit false

namespace WordFinder

namespace Trie

/-- The non-empty beginnings of words, each once, in the order in which they first come up. -/
def beginnings (words : List (List Char)) : List (List Char) :=
  (words.flatMap fun word => word.inits.tail).eraseDups

theorem mem_tail_inits {word start : List Char} :
    start ∈ word.inits.tail ↔ start ≠ [] ∧ start <+: word := by
  cases word with
  | nil =>
    simp
  | cons c word =>
    rw [List.inits_cons, List.tail_cons, List.mem_map]
    simp only [List.mem_inits]
    cases start with
    | nil => simp
    | cons d start => simp [List.cons_prefix_cons, eq_comm, and_comm]

theorem mem_beginnings_iff {words : List (List Char)} {start : List Char} :
    start ∈ beginnings words ↔ start ≠ [] ∧ ∃ word ∈ words, start <+: word := by
  simp only [beginnings, List.mem_eraseDups, List.mem_flatMap, mem_tail_inits]
  grind

theorem nodup_beginnings (words : List (List Char)) : (beginnings words).Nodup :=
  nodup_eraseDups _

def grown (starts : List (List Char)) (done : List Char) : List Char → List (List Char)
  | [] => starts
  | c :: word =>
    grown (if starts.contains (done ++ [c]) then starts else starts ++ [done ++ [c]]) (done ++ [c])
      word

theorem grown_eraseDups (list : List (List Char)) (done word : List Char) :
    grown list.eraseDups done word =
      (list ++ word.inits.tail.map (done ++ ·)).eraseDups := by
  induction word generalizing list done with
  | nil => simp [grown]
  | cons c word ih =>
    have first : (if list.eraseDups.contains (done ++ [c]) then list.eraseDups
        else list.eraseDups ++ [done ++ [c]]) = (list ++ [done ++ [c]]).eraseDups := by
      simp only [List.contains_iff_mem, List.mem_eraseDups, eraseDups_concat]
    have longer : (c :: word).inits.tail = [c] :: word.inits.tail.map (c :: ·) := by
      cases word <;> simp
    rw [grown, first, ih, longer, List.map_cons, List.map_map, List.append_assoc,
      List.singleton_append]
    simp [Function.comp_def]

theorem beginnings_concat (words : List (List Char)) (word : List Char) :
    beginnings (words ++ [word]) = grown (beginnings words) [] word := by
  rw [beginnings, beginnings, grown_eraseDups, List.flatMap_append, List.flatMap_singleton]
  simp

theorem length_le_length_grown (starts : List (List Char)) (done word : List Char) :
    starts.length ≤ (grown starts done word).length := by
  induction word generalizing starts done with
  | nil => exact Nat.le_refl _
  | cons c word ih =>
    rw [grown]
    refine Nat.le_trans ?_ (ih _ _)
    split <;> simp

theorem grown_of_subset {starts : List (List Char)} {done word : List Char}
    (known : ∀ start, start ≠ [] → start <+: word → done ++ start ∈ starts) :
    grown starts done word = starts := by
  induction word generalizing done with
  | nil => rfl
  | cons c word ih =>
    have first : done ++ [c] ∈ starts := known [c] (by simp) (by simp)
    rw [grown, if_pos (List.contains_iff_mem.mpr first)]
    refine ih fun start nonempty begins => ?_
    rw [List.append_assoc, List.singleton_append]
    exact known (c :: start) (by simp) (List.cons_prefix_cons.mpr ⟨rfl, begins⟩)

/-- Beginnings that come up one letter at a time: each follows the one that is a letter shorter. -/
structure IsGrowth (starts : List (List Char)) : Prop where
  nodup : starts.Nodup
  nonempty : [] ∉ starts
  earlier : ∀ (k : Nat) (start : List Char), starts[k]? = some start → start.dropLast ≠ [] →
    ∃ j < k, starts[j]? = some start.dropLast

theorem isGrowth_nil : IsGrowth [] := by
  refine ⟨List.nodup_nil, List.not_mem_nil, fun k start found => ?_⟩
  simp at found

theorem IsGrowth.mem_of_prefix {starts : List (List Char)} (growth : IsGrowth starts)
    {start word : List Char} (nonempty : start ≠ []) (begins : start <+: word)
    (member : word ∈ starts) : start ∈ starts := by
  obtain ⟨rest, rfl⟩ := begins
  induction rest using List.reverseRecOn with
  | nil => rwa [List.append_nil] at member
  | append_singleton rest c ih =>
    obtain ⟨k, found⟩ := List.mem_iff_getElem?.mp member
    have shorter : (start ++ (rest ++ [c])).dropLast = start ++ rest := by
      rw [← List.append_assoc, List.dropLast_concat]
    obtain ⟨j, _, earlier⟩ := growth.earlier k _ found (by simp [shorter, nonempty])
    exact ih (shorter ▸ List.mem_of_getElem? earlier)

theorem IsGrowth.concat {starts : List (List Char)} (growth : IsGrowth starts) {start : List Char}
    {c : Char} (above : start ≠ [] → start ∈ starts) (new : start ++ [c] ∉ starts) :
    IsGrowth (starts ++ [start ++ [c]]) := by
  refine ⟨?_, ?_, fun k other found longer => ?_⟩
  · refine List.nodup_append.mpr ⟨growth.nodup, List.nodup_singleton _, ?_⟩
    intro old member other single same
    exact new (List.mem_singleton.mp single ▸ same ▸ member)
  · simp [growth.nonempty]
  · rw [List.getElem?_append] at found
    split at found
    · next inside =>
      obtain ⟨j, less, known⟩ := growth.earlier k other found longer
      exact ⟨j, less, by rwa [List.getElem?_append_left (by omega)]⟩
    · next outside =>
      obtain rfl : start ++ [c] = other := by
        rw [List.getElem?_singleton] at found
        exact Option.some.inj (Option.ite_none_right_eq_some.mp found).2
      rw [List.dropLast_concat] at longer ⊢
      obtain ⟨j, inside, known⟩ := List.mem_iff_getElem.mp (above longer)
      refine ⟨j, by omega, ?_⟩
      rw [List.getElem?_append_left inside, List.getElem?_eq_getElem inside, known]

theorem IsGrowth.grown {starts : List (List Char)} (growth : IsGrowth starts) {done : List Char}
    (above : done ≠ [] → done ∈ starts) (word : List Char) :
    IsGrowth (grown starts done word) ∧
      (done ++ word ≠ [] → done ++ word ∈ Trie.grown starts done word) := by
  induction word generalizing starts done with
  | nil => simpa [Trie.grown] using ⟨growth, above⟩
  | cons c word ih =>
    rw [Trie.grown, show done ++ c :: word = (done ++ [c]) ++ word by simp]
    split
    · next known => exact ih growth fun _ => List.contains_iff_mem.mp known
    · next new =>
      exact ih (growth.concat above fun member => new (List.contains_iff_mem.mpr member))
        fun _ => by simp

theorem isGrowth_beginnings (words : List (List Char)) : IsGrowth (beginnings words) := by
  induction words using List.reverseRecOn with
  | nil => exact isGrowth_nil
  | append_singleton words word ih =>
    rw [beginnings_concat]
    exact (ih.grown (fun nonempty => absurd rfl nonempty) word).1

def letterAfter? (start word : List Char) : Option Char :=
  if start <+: word then word[start.length]? else none

/-- The letters that follow a beginning of some of the words, in the order in which they first
come up. -/
def lettersAfter (words : List (List Char)) (start : List Char) : List Char :=
  (words.filterMap (letterAfter? start)).eraseDups

theorem filter_tail_inits (start word : List Char) :
    word.inits.tail.filter (·.dropLast = start) =
      (letterAfter? start word).toList.map fun c => start ++ [c] := by
  induction word generalizing start with
  | nil => cases start <;> simp [letterAfter?]
  | cons c word ih =>
    have longer : (c :: word).inits.tail = [c] :: word.inits.tail.map (c :: ·) := by
      cases word <;> simp
    have dropLast : ∀ other ∈ word.inits.tail, (c :: other).dropLast = c :: other.dropLast :=
      fun other member => List.dropLast_cons_of_ne_nil (mem_tail_inits.mp member).1
    rw [longer, List.filter_cons, List.filter_map]
    cases start with
    | nil =>
      have none : word.inits.tail.filter ((fun other => decide (other.dropLast = [])) ∘ (c :: ·)) =
          [] := by
        rw [List.filter_eq_nil_iff]
        intro other member
        simp [dropLast other member]
      simp [none, letterAfter?]
    | cons d start =>
      have below : word.inits.tail.filter
          ((fun other => decide (other.dropLast = d :: start)) ∘ (c :: ·)) =
            if c = d then word.inits.tail.filter (·.dropLast = start) else [] := by
        by_cases same : c = d
        · rw [if_pos same]
          refine List.filter_congr fun other member => ?_
          simp only [Function.comp_apply, dropLast other member]
          simp [same]
        · rw [if_neg same, List.filter_eq_nil_iff]
          intro other member
          simp [dropLast other member, same]
      rw [below]
      by_cases same : c = d
      · subst same
        simp [ih, letterAfter?, List.cons_prefix_cons, Function.comp_def]
      · simp [same, letterAfter?, List.cons_prefix_cons, Ne.symm same]

theorem filter_beginnings (words : List (List Char)) (start : List Char) :
    (beginnings words).filter (·.dropLast = start) =
      (lettersAfter words start).map fun c => start ++ [c] := by
  have injective : Function.Injective fun c : Char => start ++ [c] := fun c d same => by
    simpa using same
  rw [beginnings, filter_eraseDups, List.filter_flatMap, lettersAfter, ← eraseDups_map injective]
  congr 1
  induction words with
  | nil => rfl
  | cons word words ih =>
    rw [List.flatMap_cons, ih, filter_tail_inits, List.filterMap_cons]
    cases letterAfter? start word <;> rfl

end Trie

end WordFinder
