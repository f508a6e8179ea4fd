import Mathlib
import WordFinder.Proofs.Walk.RackLoop

/-!
# The counts of a rack walk

However long the loop of a rack walk runs, the places on its stack keep to the slots of the rack: no
count is larger than that of the rack, only classes of the rack are used, and each letter that the
star did not supply has taken one slot. So no count ever falls below zero, and no turn runs into a
fault.
-/
set_option autoImplicit false

namespace WordFinder

variable {κ : Type} {view : TrieView κ} {holds : κ → Trie → Prop} {rack : CountedRack}
  {limits : WalkLimits} {root : κ} {history : List Consumption} {s : RackPlace κ}

namespace CountedRack

/-- The places that the loop puts on its stack, each with what supplied its letters, first letter
first. -/
inductive Arises (rack : CountedRack) (view : TrieView κ) (limits : WalkLimits) (root : κ) :
    List Consumption → RackPlace κ → Prop where
  | start : Arises rack view limits root [] (rack.start root)
  | next {history : List Consumption} {s : RackPlace κ} {choices : List (Choice κ)}
    {choice : Choice κ} (earlier : Arises rack view limits root history s)
    (chosen : rack.choices? view limits s = some choices) (member : choice ∈ choices)
    (pushed : rack.isPushed view limits choice = true) :
    Arises rack view limits root (history ++ [choice.supply]) choice.later

structure Accounts (rack : CountedRack) (history : List Consumption) (s : RackPlace κ) : Prop where
  letters : ∀ i, s.letters.get i ≤ rack.letters.get i
  blanks : s.blanks ≤ rack.blanks
  used : ∀ i, s.used.getLsbD i = true → i < rack.classes.length
  length : s.length = s.word.length
  /-- Each letter has one supply, -/
  supplies : history.length = s.length
  /-- and those that are not the star have taken the slots that are no longer left. -/
  slots : ∃ left, rack.slotsLeft? s = some left ∧
    history.countP (· ≠ .free) + left = rack.slotCount

/-- Each place that arises stands for a state of the walk that has as many slots left as the letters
before did not take. The induction is on how the place arises. -/
theorem Arises.standsFor {plain : Rack} (same : rack.StandsFor plain)
    (few : rack.classes.length ≤ 32) (shows : view.Shows holds) {t : Trie} (top : holds root t)
    (arises : rack.Arises view limits root history s) :
    ∃ state : RackState, s.StandsFor holds rack state ∧ history.length = s.length ∧
      history.countP (· ≠ .free) + state.slotsLeft = rack.slotCount := by
  induction arises with
  | start =>
    refine ⟨_, start_standsFor same top, rfl, ?_⟩
    rw [List.countP_nil, Nat.zero_add, same.slotCount]
    rfl
  | @next history s choices choice _ chosen member _ ih =>
    obtain ⟨state, stands, length, slots⟩ := ih
    obtain ⟨_, chosenSame, alike⟩ := stands.choices? few shows limits
    obtain rfl := Option.some.inj (chosen.symm.trans chosenSame)
    obtain ⟨other, _, later⟩ := exists_of_forall₂_of_mem alike member
    have longer := later.longer
    have left := later.left
    have spent := later.spent
    have before := stands.length
    refine ⟨other.2, later.later, ?_, ?_⟩
    · rw [List.length_append, List.length_singleton]
      omega
    · have single : [choice.supply].countP (· ≠ .free) =
          if choice.supply = .free then 0 else 1 := by
        by_cases free : choice.supply = .free <;> simp [free]
      rw [List.countP_append, single]
      omega

theorem Arises.accounts {plain : Rack} (same : rack.StandsFor plain)
    (few : rack.classes.length ≤ 32) (shows : view.Shows holds) {t : Trie} (top : holds root t)
    (arises : rack.Arises view limits root history s) : rack.Accounts history s := by
  obtain ⟨state, stands, supplies, slots⟩ := arises.standsFor same few shows top
  refine ⟨stands.lettersLe, stands.blanksLe, stands.used, ?_, supplies, _, stands.slotsLeft? few,
    slots⟩
  rw [stands.length, ← String.length_toList, stands.word, List.length_reverse]

theorem Arises.pushed {subanagram : Bool} {turn : Turn (RackPlace κ)}
    (arises : rack.Arises view limits root history s)
    (taken : rack.turn? view subanagram limits s = some turn) {later : RackPlace κ}
    (member : later ∈ turn.pushed) : ∃ history, rack.Arises view limits root history later := by
  obtain ⟨choices, chosen, result⟩ := Option.bind_eq_some_iff.mp taken
  rw [← Option.some.inj result, List.mem_map] at member
  obtain ⟨choice, picked, rfl⟩ := member
  obtain ⟨listed, pushed⟩ := List.mem_filter.mp picked
  exact ⟨_, arises.next chosen listed pushed⟩

/-- However many turns the loop has made, all places on its stack keep to the slots of the rack, and
the turns at them run into no fault. -/
def IsCounted (rack : CountedRack) (view : TrieView κ) (root : κ) : Prop :=
  ∀ (subanagram : Bool) (limits : WalkLimits) (n : Nat),
    ∃ p, (rack.loopFrom root).after? (rack.turn? view subanagram limits) n = some p ∧
      ∀ s ∈ p.stack, (∃ history, rack.Arises view limits root history s) ∧
        (∀ history, rack.Arises view limits root history s → rack.Accounts history s) ∧
          (rack.turn? view subanagram limits s).isSome = true

theorem StandsFor.isCounted {plain : Rack} (same : rack.StandsFor plain)
    (shows : view.Shows holds) {t : Trie} (top : holds root t) : rack.IsCounted view root := by
  intro subanagram limits n
  by_cases idle : (rack.slotCount == 0 && !rack.star ||
      decide (Rack.maxClasses < rack.classes.length)) = true
  · have start : rack.loopFrom root = ⟨[], .empty⟩ := by rw [loopFrom, if_pos idle]
    refine ⟨⟨[], .empty⟩, ?_, by simp⟩
    rw [start]
    induction n with
    | zero => rfl
    | succ n ih => exact ih
  · have few : rack.classes.length ≤ 32 := by
      rw [Bool.or_eq_true, not_or, decide_eq_true_eq, Nat.not_lt] at idle
      exact idle.2
    have start : rack.loopFrom root = ⟨[rack.start root], .empty⟩ := by rw [loopFrom, if_neg idle]
    have follows := turn?_follows few shows subanagram limits
    have begins : List.Forall₂ (RackPlace.StandsFor holds rack) (rack.loopFrom root).stack
        [.ofRack plain t] := by
      rw [start]
      exact List.Forall₂.cons (start_standsFor same top) List.Forall₂.nil
    obtain ⟨p, states, reached, alike⟩ := follows.after? begins n
    have arise : ∀ s ∈ p.stack, ∃ history, rack.Arises view limits root history s := by
      refine Pending.forall_after? (fun s turn arises taken later member => ?_) ?_ reached
      · exact arises.elim fun _ arises => arises.pushed taken member
      · rw [start]
        exact List.forall_mem_singleton.mpr ⟨[], .start⟩
    refine ⟨p, reached, fun s member => ⟨arise s member, fun history arises =>
      arises.accounts same few shows top, ?_⟩⟩
    obtain ⟨state, _, stands⟩ := exists_of_forall₂_of_mem alike member
    obtain ⟨turn, taken, _⟩ := follows s state stands
    rw [taken, Option.isSome_some]

end CountedRack

/-- The racks of all search strings are counted right, over the trie of any words and over the arena
of any words whose nodes can be numbered. -/
theorem isCounted_ofWords (words : List String) :
    ∀ (text : String) (tokens : List Token), Token.ofString? text = some tokens →
      ∃ rack, CountedRack.ofTokens? tokens = some rack ∧ rack.StandsFor (Rack.ofTokens tokens) ∧
        rack.IsCounted Trie.view (Trie.ofWords words) ∧
          ((Trie.ofWords words).nodeCount < 2 ^ 32 → ∃ a, Arena.ofWords? words = some a ∧
            rack.IsCounted a.view a.root) := by
  intro text tokens read
  obtain ⟨rack, built, same⟩ := CountedRack.exists_ofString? read
  refine ⟨rack, built, same, same.isCounted Trie.shows_view rfl, fun few => ?_⟩
  obtain ⟨a, arena, holds⟩ := Arena.exists_holds_ofWords few
  exact ⟨a, arena, same.isCounted a.shows_view holds⟩

/-- A rack with slots of all kinds and a star, over an arena of three words. -/
theorem isCounted_ofWords_mixed :
    let words := ["CATS", "ACT", "CAT"]
    let k : LetterClass := ⟨['A', 'C']⟩
    let tokens : List Token := [.letter 'A', .any, .oneOf k, .oneOf k, .star]
    Token.ofString? "a?[AC][ca]*" = some tokens ∧ (Trie.ofWords words).nodeCount < 2 ^ 32 ∧
      ∃ rack a, CountedRack.ofTokens? tokens = some rack ∧ Arena.ofWords? words = some a ∧
        rack.slotCount = 4 ∧ rack.IsCounted a.view a.root := by
  intro words k tokens
  have read : Token.ofString? "a?[AC][ca]*" = some tokens := by decide
  have few : (Trie.ofWords words).nodeCount < 2 ^ 32 := by decide
  obtain ⟨rack, built, same, _, arena⟩ := isCounted_ofWords words _ tokens read
  obtain ⟨a, stored, counted⟩ := arena few
  exact ⟨read, few, rack, a, built, stored, same.slotCount, counted⟩

end WordFinder
