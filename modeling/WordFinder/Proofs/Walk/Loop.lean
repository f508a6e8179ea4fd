import Mathlib
import WordFinder.Proofs.Trie.ArenaTrie
import WordFinder.Trie.View
import WordFinder.Walk
import WordFinder.Walk.Loop

/-!
# Loops that follow walks

A loop follows a walk if each of its turns does what the walk does at a state that the place of the
loop stands for. Then no turn runs into a fault, and since walks end, the loop empties its stack and
has found what the walk finds.
-/
set_option autoImplicit false

namespace WordFinder

/-! ## What views show -/

variable {κ : Type}

structure TrieView.Shows (view : TrieView κ) (holds : κ → Trie → Prop) : Prop where
  siblings : ∀ chain t, holds chain t → ∃ nodes, view.siblings? chain = some nodes ∧
    List.Forall₂ (fun n m => n.letter = m.letter ∧ n.isEnd = m.isEnd ∧ holds n.child m.child)
      nodes t.siblings
  isEmpty : ∀ chain t, holds chain t → view.isEmpty chain = t.isEmpty

theorem Trie.shows_view : Trie.view.Shows Eq where
  siblings := by
    rintro t _ rfl
    refine ⟨_, rfl, List.forall₂_map_left_iff.mpr ?_⟩
    exact List.forall₂_same.mpr fun n _ => ⟨rfl, rfl, rfl⟩
  isEmpty := by
    rintro t _ rfl
    rfl

theorem Arena.shows_view (a : Arena) : a.view.Shows a.Holds where
  siblings link t holds := by
    obtain ⟨chain, listed, alike⟩ := holds.siblings?
    refine ⟨_, congrArg (Option.map _) listed, List.forall₂_map_left_iff.mpr ?_⟩
    exact alike.imp fun _ _ same => same.2
  isEmpty link t holds := by
    cases t with
    | nil =>
      obtain rfl : link = none := holds
      rfl
    | node =>
      obtain ⟨i, _, rfl, _⟩ := holds
      rfl

/-! ## Turns of loops and of walks -/

namespace Pending

variable {σ τ : Type} {turn? : σ → Option (Turn σ)} {p : Pending σ}

/-- Each turn of the loop does what the walk does at a state that the place stands for. -/
def Follows (turn? : σ → Option (Turn σ)) (w : Walk τ MatchSet) (standsFor : σ → τ → Prop) : Prop :=
  ∀ s t, standsFor s t → ∃ turn, turn? s = some turn ∧
    (∀ found, turn.found.foldl MatchSet.insert found = w.visit found t) ∧
      List.Forall₂ standsFor turn.pushed (w.next t)

variable {w : Walk τ MatchSet} {standsFor : σ → τ → Prop}

theorem Follows.step? (follows : Follows turn? w standsFor) {t : τ} {states : List τ}
    (alike : List.Forall₂ standsFor p.stack (t :: states)) :
    ∃ later, p.step? turn? = some later ∧ later.found = w.visit p.found t ∧
      List.Forall₂ standsFor later.stack (w.push t states) := by
  obtain ⟨stack, found⟩ := p
  cases alike with
  | cons top rest =>
    obtain ⟨turn, taken, finds, pushes⟩ := follows _ t top
    refine ⟨_, by simp [Pending.step?, taken]; rfl, finds found, ?_⟩
    exact List.rel_append (List.rel_reverse pushes) rest

theorem Follows.after? (follows : Follows turn? w standsFor) {states : List τ}
    (alike : List.Forall₂ standsFor p.stack states) (n : Nat) :
    ∃ later states, p.after? turn? n = some later ∧
      List.Forall₂ standsFor later.stack states := by
  induction n generalizing p states with
  | zero => exact ⟨p, states, rfl, alike⟩
  | succ n ih =>
    cases states with
    | nil =>
      have still : p.step? turn? = some p := by
        rw [Pending.step?, List.forall₂_nil_right_iff.mp alike]
      rw [Pending.after?, still]
      exact ih alike
    | cons t states =>
      obtain ⟨next, stepped, _, others⟩ := follows.step? alike
      rw [Pending.after?, stepped]
      exact ih others

/-- The loop ends with what the walk finds. The induction is on the run of the walk. -/
theorem Follows.ends (follows : Follows turn? w standsFor) {states : List τ}
    (alike : List.Forall₂ standsFor p.stack states) :
    ∃ n, p.after? turn? n = some ⟨[], w.run p.found states⟩ := by
  generalize start : p.found = found
  induction found, states using Walk.run.induct (w := w) generalizing p with
  | case1 found =>
    obtain ⟨stack, _⟩ := p
    obtain rfl : stack = [] := List.forall₂_nil_right_iff.mp alike
    exact ⟨0, by rw [Pending.after?, Walk.run, ← start]⟩
  | case2 found t states ih =>
    obtain ⟨next, stepped, finds, others⟩ := follows.step? alike
    obtain ⟨n, ended⟩ := ih others (start ▸ finds)
    exact ⟨n + 1, by rw [Pending.after?, stepped, Walk.run, ← ended]; rfl⟩

theorem forall_after? {holds : σ → Prop}
    (keeps : ∀ s turn, holds s → turn? s = some turn → ∀ later ∈ turn.pushed, holds later)
    (start : ∀ s ∈ p.stack, holds s) {n : Nat} {later : Pending σ}
    (reached : p.after? turn? n = some later) : ∀ s ∈ later.stack, holds s := by
  induction n generalizing p with
  | zero =>
    rw [Pending.after?, Option.some.injEq] at reached
    exact reached ▸ start
  | succ n ih =>
    rw [Pending.after?] at reached
    obtain ⟨next, stepped, rest⟩ := Option.bind_eq_some_iff.mp reached
    refine ih (p := next) ?_ rest
    obtain ⟨stack, found⟩ := p
    cases stack with
    | nil =>
      rw [Pending.step?, Option.some.injEq] at stepped
      exact stepped ▸ start
    | cons s stack =>
      obtain ⟨top, others⟩ := List.forall_mem_cons.mp start
      obtain ⟨turn, taken, result⟩ := Option.bind_eq_some_iff.mp stepped
      rw [← Option.some.inj result]
      intro other member
      rcases List.mem_append.mp member with pushed | under
      · exact keeps s turn top taken other (List.mem_reverse.mp pushed)
      · exact others other under

end Pending

theorem MatchSet.foldl_insert_picked {α β : Type} {keep : α → Bool} {spelling : α → String}
    {pick : β → Bool} {text : β → String} {list : List α} {others : List β}
    (alike : List.Forall₂ (fun x y => keep x = pick y ∧ spelling x = text y) list others)
    (found : MatchSet) :
    ((list.filter keep).map spelling).foldl MatchSet.insert found =
      others.foldl (fun found y => if pick y then found.insert (text y) else found) found := by
  induction alike generalizing found with
  | nil => rfl
  | @cons x y _ _ same _ ih =>
    rw [List.foldl_cons, ← ih, List.filter_cons, same.1]
    cases pick y with
    | false => rfl
    | true => rw [if_pos rfl, if_pos rfl, List.map_cons, List.foldl_cons, same.2]

end WordFinder
