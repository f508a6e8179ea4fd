import Mathlib
import WordFinder.Total

/-!
# Lists sorted by a key, read element by element, or without repetition

Elements of a list that have the same key keep their order when the list is sorted by the key, and
nothing else is needed to know the sorted list. A list is read if all its elements are; otherwise
the first that cannot be read decides the error. A list loses its repetitions from the front, so an
element more at its end is kept only if it is new.
-/
set_option autoImplicit false

namespace WordFinder

theorem totalOf_eq_sum {α : Type} (f : α → Nat) (xs : List α) : totalOf f xs = (xs.map f).sum := by
  induction xs with
  | nil => rfl
  | cons x xs ih => rw [totalOf, ih, List.map_cons, List.sum_cons]

theorem flatMap_of_unique {α β : Type} {f : α → List β} {list : List α} {a : α}
    (once : list.Nodup) (member : a ∈ list) (others : ∀ b ∈ list, b ≠ a → f b = []) :
    list.flatMap f = f a := by
  obtain ⟨before, after, rfl⟩ := List.append_of_mem member
  rw [List.nodup_append, List.nodup_cons] at once
  obtain ⟨_, ⟨notAfter, _⟩, apart⟩ := once
  have nothingBefore : before.flatMap f = [] := by
    rw [List.flatMap_eq_nil_iff]
    intro b listed
    exact others b (List.mem_append_left _ listed) (apart b listed a (List.mem_cons_self ..))
  have nothingAfter : after.flatMap f = [] := by
    rw [List.flatMap_eq_nil_iff]
    intro b listed
    apply others b (List.mem_append_right _ (List.mem_cons_of_mem _ listed))
    rintro rfl
    exact notAfter listed
  rw [List.flatMap_append, List.flatMap_cons, nothingBefore, nothingAfter, List.nil_append,
    List.append_nil]

/-! ## Lists sorted by a key -/

section ByKey

variable {α κ : Type} [LinearOrder κ] {key : α → κ} {list other : List α}

theorem mem_iff_of_filter_key_eq (same : ∀ k, list.filter (key · == k) = other.filter (key · == k))
    (a : α) : a ∈ list ↔ a ∈ other := by
  have here := congrArg (a ∈ ·) (same (key a))
  simpa [List.mem_filter] using here

theorem eq_of_filter_key_eq (sorted : list.Pairwise (key · ≤ key ·))
    (otherSorted : other.Pairwise (key · ≤ key ·))
    (same : ∀ k, list.filter (key · == k) = other.filter (key · == k)) : list = other := by
  have mem_iff := mem_iff_of_filter_key_eq same
  induction list generalizing other with
  | nil =>
    symm
    rw [List.eq_nil_iff_forall_not_mem]
    intro a listed
    exact List.not_mem_nil ((mem_iff a).mpr listed)
  | cons a list ih =>
    cases other with
    | nil => exact absurd ((mem_iff a).mp (List.mem_cons_self ..)) List.not_mem_nil
    | cons b other =>
      rw [List.pairwise_cons] at sorted otherSorted
      -- both heads are least, so they have one key, and both lists of that key start with them
      have keys : key a = key b := by
        apply le_antisymm
        · rcases List.mem_cons.mp ((mem_iff b).mpr (List.mem_cons_self ..)) with rfl | later
          · exact le_rfl
          · exact sorted.1 b later
        · rcases List.mem_cons.mp ((mem_iff a).mp (List.mem_cons_self ..)) with rfl | later
          · exact le_rfl
          · exact otherSorted.1 a later
      have heads := same (key a)
      rw [List.filter_cons_of_pos (by simp), List.filter_cons_of_pos (by simp [keys])] at heads
      obtain ⟨rfl, _⟩ := List.cons.inj heads
      have tails (k : κ) : list.filter (key · == k) = other.filter (key · == k) := by
        have whole := same k
        rw [List.filter_cons, List.filter_cons] at whole
        split at whole
        · exact (List.cons.inj whole).2
        · exact whole
      rw [ih sorted.2 otherSorted.2 tails (mem_iff_of_filter_key_eq tails)]

section MergeSort

variable (key)

theorem keys_trans (a b c : α) (first : decide (key a ≤ key b) = true)
    (second : decide (key b ≤ key c) = true) : decide (key a ≤ key c) = true :=
  decide_eq_true ((of_decide_eq_true first).trans (of_decide_eq_true second))

theorem keys_total (a b : α) : (decide (key a ≤ key b) || decide (key b ≤ key a)) = true := by
  simpa using le_total (key a) (key b)

theorem pairwise_key_mergeSort (list : List α) :
    (list.mergeSort fun a b => key a ≤ key b).Pairwise (key · ≤ key ·) :=
  (List.pairwise_mergeSort (keys_trans key) (keys_total key) list).imp of_decide_eq_true

theorem filter_key_mergeSort (list : List α) (k : κ) :
    (list.mergeSort fun a b => key a ≤ key b).filter (key · == k) = list.filter (key · == k) := by
  have level : (list.filter (key · == k)).Pairwise fun a b => decide (key a ≤ key b) = true := by
    apply List.pairwise_of_forall_mem_list
    intro a first b second
    have here := eq_of_beq (List.mem_filter.mp first).2
    have there := eq_of_beq (List.mem_filter.mp second).2
    exact decide_eq_true (here.trans there.symm).le
  have kept := (List.sublist_mergeSort (keys_trans key) (keys_total key) level
    List.filter_sublist).filter (key · == k)
  rw [List.filter_filter] at kept
  simp only [Bool.and_self] at kept
  exact (kept.eq_of_length ((List.mergeSort_perm list _).filter _).length_eq.symm).symm

end MergeSort

end ByKey

/-! ## Lists read element by element -/

section MapM

variable {α β ε : Type} {f : α → Except ε β} {xs : List α}

theorem mapM_eq_ok_iff {ys : List β} : xs.mapM f = .ok ys ↔ xs.map f = ys.map .ok := by
  induction xs generalizing ys with
  | nil => cases ys <;> simp [pure, Except.pure]
  | cons x xs ih =>
    rw [List.mapM_cons]
    cases first : f x with
    | error e => cases ys <;> simp [bind, Except.bind, first]
    | ok y =>
      cases rest : xs.mapM f with
      | error e => cases ys <;> simp [bind, Except.bind, first, rest, ← ih]
      | ok zs => cases ys <;> simp [bind, Except.bind, pure, Except.pure, first, rest, ← ih]

theorem mapM_eq_error_iff {e : ε} :
    xs.mapM f = .error e ↔ ∃ before x after, xs = before ++ x :: after ∧
      (∀ earlier ∈ before, ∃ y, f earlier = .ok y) ∧ f x = .error e := by
  induction xs with
  | nil => simp [pure, Except.pure]
  | cons x xs ih =>
    rw [List.mapM_cons]
    constructor
    · intro fails
      cases first : f x with
      | error e' =>
        rw [first] at fails
        cases fails
        exact ⟨[], x, xs, rfl, nofun, first⟩
      | ok y =>
        have rest : xs.mapM f = .error e := by
          cases read : xs.mapM f with
          | error e' => rw [first, read] at fails; exact fails
          | ok ys => rw [first, read] at fails; cases fails
        obtain ⟨before, z, after, rfl, good, bad⟩ := ih.mp rest
        exact ⟨x :: before, z, after, rfl, List.forall_mem_cons.mpr ⟨⟨y, first⟩, good⟩, bad⟩
    · rintro ⟨before, z, after, whole, good, bad⟩
      cases before with
      | nil =>
        obtain ⟨rfl, rfl⟩ := List.cons.inj whole
        rw [bad]
        rfl
      | cons first before =>
        rw [List.cons_append, List.cons.injEq] at whole
        obtain ⟨rfl, rfl⟩ := whole
        obtain ⟨⟨y, read⟩, good⟩ := List.forall_mem_cons.mp good
        rw [read, ih.mpr ⟨before, z, after, rfl, good, bad⟩]
        rfl

theorem mapM_cons_eq_some {α β : Type} {f : α → Option β} {x : α} {xs : List α} {ys : List β}
    (read : (x :: xs).mapM f = some ys) :
    ∃ y rest, f x = some y ∧ xs.mapM f = some rest ∧ ys = y :: rest := by
  rw [List.mapM_cons, Option.bind_eq_bind, Option.bind_eq_some_iff] at read
  obtain ⟨y, first, read⟩ := read
  rw [Option.bind_eq_bind, Option.bind_eq_some_iff] at read
  obtain ⟨rest, others, read⟩ := read
  exact ⟨y, rest, first, others, (Option.some.inj read).symm⟩

theorem forall₂_of_mapM {α β : Type} {f : α → Option β} {xs : List α} {ys : List β}
    (read : xs.mapM f = some ys) : List.Forall₂ (fun x y => f x = some y) xs ys := by
  induction xs generalizing ys with
  | nil =>
    cases read
    exact .nil
  | cons x xs ih =>
    obtain ⟨y, rest, first, others, rfl⟩ := mapM_cons_eq_some read
    exact .cons first (ih others)

theorem mapM_reverse {α β : Type} {f : α → Option β} (xs : List α) :
    xs.reverse.mapM f = (xs.mapM f).map List.reverse := by
  induction xs with
  | nil => rfl
  | cons x xs ih =>
    rw [List.reverse_cons, List.mapM_append, ih, List.mapM_cons, List.mapM_cons]
    cases f x <;> cases xs.mapM f <;> simp

theorem exists_of_forall₂_of_mem {α β : Type} {r : α → β → Prop} {xs : List α} {ys : List β}
    (alike : List.Forall₂ r xs ys) {x : α} (member : x ∈ xs) : ∃ y ∈ ys, r x y := by
  induction alike with
  | nil => exact absurd member List.not_mem_nil
  | cons first _ ih =>
    rcases List.mem_cons.mp member with rfl | later
    · exact ⟨_, List.mem_cons_self .., first⟩
    · obtain ⟨y, listed, same⟩ := ih later
      exact ⟨y, List.mem_cons_of_mem _ listed, same⟩

theorem exists_mapM_of_forall₂ {α β γ δ : Type} {f : α → Option β} {g : γ → δ} {r : α → γ → Prop}
    {r' : β → δ → Prop} {xs : List α} {zs : List γ} (alike : List.Forall₂ r xs zs)
    (read : ∀ x z, x ∈ xs → r x z → ∃ y, f x = some y ∧ r' y (g z)) :
    ∃ ys, xs.mapM f = some ys ∧ List.Forall₂ r' ys (zs.map g) := by
  induction alike with
  | nil => exact ⟨[], rfl, List.Forall₂.nil⟩
  | cons first _ ih =>
    obtain ⟨y, here, same⟩ := read _ _ (List.mem_cons_self ..) first
    obtain ⟨ys, others, rest⟩ := ih fun x z member => read x z (List.mem_cons_of_mem _ member)
    refine ⟨y :: ys, ?_, List.Forall₂.cons same rest⟩
    rw [List.mapM_cons, here, others]
    rfl

end MapM

/-! ## Lists without repetition -/

theorem position_unique {α : Type} {list : List α} (nodup : list.Nodup) {j k : Nat} {a : α}
    (first : list[j]? = some a) (second : list[k]? = some a) : j = k :=
  (List.getElem?_inj (List.getElem?_eq_some_iff.mp first).1 nodup).mp (first.trans second.symm)

section EraseDups

variable {α β : Type} [BEq α] [LawfulBEq α] [BEq β] [LawfulBEq β]

theorem nodup_eraseDups (list : List α) : list.eraseDups.Nodup := by
  match list with
  | [] => exact List.nodup_nil
  | a :: list =>
    rw [List.eraseDups_cons, List.nodup_cons, List.mem_eraseDups, List.mem_filter]
    exact ⟨by simp, nodup_eraseDups _⟩
termination_by list.length
decreasing_by exact Nat.lt_succ_of_le (List.length_filter_le ..)

theorem eraseDups_concat (list : List α) (a : α) :
    (list ++ [a]).eraseDups = if a ∈ list then list.eraseDups else list.eraseDups ++ [a] := by
  rw [List.eraseDups_append, List.removeAll, List.filter_singleton]
  by_cases known : a ∈ list <;> simp [known, List.eraseDups_cons]

theorem filter_eraseDups (keep : α → Bool) (list : List α) :
    list.eraseDups.filter keep = (list.filter keep).eraseDups := by
  induction list using List.reverseRecOn with
  | nil => rfl
  | append_singleton list a ih =>
    rw [eraseDups_concat, List.filter_append, List.filter_singleton]
    by_cases kept : keep a = true
    · by_cases known : a ∈ list <;> simp [kept, known, eraseDups_concat, ih]
    · by_cases known : a ∈ list <;> simp [kept, known, ih]

theorem eraseDups_map {f : α → β} (injective : Function.Injective f) (list : List α) :
    (list.map f).eraseDups = list.eraseDups.map f := by
  induction list using List.reverseRecOn with
  | nil => rfl
  | append_singleton list a ih =>
    rw [List.map_append, List.map_singleton, eraseDups_concat, eraseDups_concat, ih]
    by_cases known : a ∈ list
    · rw [if_pos known, if_pos (List.mem_map_of_mem known)]
    · rw [if_neg known, if_neg fun other => known ((List.mem_map_of_injective injective).mp other),
        List.map_append, List.map_singleton]

end EraseDups

end WordFinder
