import Mathlib
import WordFinder.Proofs.Rack.Classes
import WordFinder.Proofs.Rack.Counted
import WordFinder.Proofs.Walk.Loop
import WordFinder.Walk.RackLoop

/-!
# The loop of a rack walk ends

The loop counts slots where the walk keeps them. Its counts are those of the slots that the walk has
left, so no count is decreased that is zero, and no bit is set that there is not. So the loop
follows the walk over the trie that its view shows, turn by turn, and ends with what the walk finds.
-/
set_option autoImplicit false

namespace WordFinder

variable {κ : Type} {view : TrieView κ} {holds : κ → Trie → Prop} {rack : CountedRack}
  {limits : WalkLimits} {s : RackPlace κ} {t : RackState}

/-- A place of the loop stands for a state of the walk, and keeps to the slots of the rack. -/
structure RackPlace.StandsFor (holds : κ → Trie → Prop) (rack : CountedRack) (s : RackPlace κ)
    (t : RackState) : Prop where
  chain : holds s.chain t.chain
  word : s.word.toList = t.spelled.reverse
  length : s.length = t.spelled.length
  letters : Counts s.letters t.letters
  blanks : s.blanks.toNat = t.blanks
  classes : t.classes = unusedOf s.used rack.classes.zipIdx
  lettersLe : ∀ i, s.letters.get i ≤ rack.letters.get i
  blanksLe : s.blanks ≤ rack.blanks
  used : ∀ i, s.used.getLsbD i = true → i < rack.classes.length

inductive Consumption.Serves (rack : CountedRack) (s : RackPlace κ) (c : Char) :
    Consumption → Supply → Prop where
  | letterSlot {i : Fin 26} (index : alphabet[i.val]? = some c) (left : s.letters.get i ≠ 0) :
    Serves rack s c (.letterSlot i) .letterSlot
  | classSlot {option : Consumption} {k : LetterClass}
    (isOption : IsOption s.used c [] rack.classes.zipIdx option k) :
    Serves rack s c option (.classSlot k)
  | blank (left : s.blanks ≠ 0) : Serves rack s c .blank .blank
  | free : Serves rack s c .free .star

namespace RackPlace.StandsFor

theorem indices_lt (few : rack.classes.length ≤ 32) :
    ∀ pair ∈ rack.classes.zipIdx, pair.2 < 32 := by
  intro pair member
  have inside := List.snd_lt_of_mem_zipIdx member
  omega

theorem wildSupplies (same : s.StandsFor holds rack t) (few : rack.classes.length ≤ 32) (c : Char) :
    ∃ classes, classOptions? s.used c [] rack.classes.zipIdx = some classes ∧
      List.Forall₂ (Consumption.Serves rack s c)
        (classes ++ if s.blanks > 0 then [.blank] else []) (t.wildSupplies c) := by
  obtain ⟨classes, found, alike⟩ := exists_classOptions? s.used c [] (indices_lt few)
  have accepting : (t.classes.filter (·.accepts c)).eraseDups =
      newAccepting s.used c [] rack.classes.zipIdx := by
    rw [newAccepting, same.classes]
    simp
  have zero : s.blanks > 0 ↔ t.blanks ≠ 0 := by
    rw [← same.blanks, gt_iff_lt, UInt8.lt_iff_toNat_lt, UInt8.toNat_zero, Nat.pos_iff_ne_zero]
  refine ⟨classes, found, ?_⟩
  rw [RackState.wildSupplies, accepting]
  refine List.rel_append (List.forall₂_map_right_iff.mpr (alike.imp fun _ _ => .classSlot)) ?_
  by_cases some : t.blanks = 0
  · rw [if_neg (by simp [zero, some]), if_pos some]
    exact List.Forall₂.nil
  · rw [if_pos (zero.mpr some), if_neg some]
    exact List.Forall₂.cons (.blank (UInt8.pos_iff_ne_zero.mp (zero.mpr some))) List.Forall₂.nil

theorem consumptions? (same : s.StandsFor holds rack t) (few : rack.classes.length ≤ 32) {c : Char}
    (capital : c.isUpper = true) :
    ∃ options, rack.consumptions? s c = some options ∧
      List.Forall₂ (Consumption.Serves rack s c) options (t.supplies rack.star c) := by
  obtain ⟨i, found, index⟩ := exists_letterIndex? capital
  have count := same.letters.toNat_get index
  have slot : s.letters.get i > 0 ↔ t.letters.contains c = true := by
    rw [gt_iff_lt, UInt8.lt_iff_toNat_lt, count, UInt8.toNat_zero, List.count_pos_iff,
      List.contains_iff_mem]
  rw [CountedRack.consumptions?, found, Option.bind_eq_bind, Option.bind_some, RackState.supplies]
  by_cases left : s.letters.get i > 0
  · rw [if_pos left, if_pos (slot.mp left)]
    exact ⟨_, rfl, List.Forall₂.cons (.letterSlot index (UInt8.pos_iff_ne_zero.mp left))
      List.Forall₂.nil⟩
  · obtain ⟨classes, listed, alike⟩ := same.wildSupplies few c
    rw [if_neg left, if_neg fun holds => left (slot.mpr holds), listed]
    refine ⟨_, rfl, ?_⟩
    have none : (classes ++ if s.blanks > 0 then [Consumption.blank] else []).isEmpty =
        (t.wildSupplies c).isEmpty := by
      rw [Bool.eq_iff_iff, List.isEmpty_iff_length_eq_zero, alike.length_eq,
        List.isEmpty_iff_length_eq_zero]
    rw [none]
    split
    · exact List.Forall₂.cons .free List.Forall₂.nil
    · exact alike

theorem slotsLeft? (same : s.StandsFor holds rack t) (few : rack.classes.length ≤ 32) :
    rack.slotsLeft? s = some t.slotsLeft := by
  have classes := length_unusedOf_add few same.used
  rw [← same.classes] at classes
  rw [CountedRack.slotsLeft?, if_pos (by omega), RackState.slotsLeft, same.letters.countSum_eq,
    same.blanks]
  congr 1
  omega

end RackPlace.StandsFor

/-- One slot less is left, unless the star supplies the letter. -/
theorem Consumption.Serves.slotsLeft_take {consumption : Consumption} {supply : Supply}
    {n : TrieNode} (serves : consumption.Serves rack s n.letter supply)
    (same : s.StandsFor holds rack t) :
    (t.take n supply).slotsLeft + (if consumption = .free then 0 else 1) = t.slotsLeft := by
  cases serves with
  | @letterSlot i index left =>
    have count := same.letters.toNat_get index
    have positive : 0 < (s.letters.get i).toNat := Nat.pos_of_ne_zero fun zero =>
      left (UInt8.toNat_inj.mp zero)
    have member : n.letter ∈ t.letters := List.count_pos_iff.mp (count ▸ positive)
    have shorter := List.length_erase_add_one member
    simp only [RackState.take, RackState.slotsLeft]
    rw [if_neg (by simp)]
    omega
  | @classSlot _ k isOption =>
    obtain ⟨before, i, after, rfl, whole, unused, _⟩ := isOption.place
    have member : k ∈ t.classes := by
      rw [same.classes, unusedOf, whole]
      simp [unused]
    have shorter := List.length_erase_add_one member
    simp only [RackState.take, RackState.slotsLeft]
    rw [if_neg (by simp)]
    omega
  | blank left =>
    have positive : s.blanks.toNat ≠ 0 := fun zero => left (UInt8.toNat_inj.mp zero)
    have count := same.blanks
    simp only [RackState.take, RackState.slotsLeft]
    rw [if_neg (by simp)]
    omega
  | free => simp [RackState.take, RackState.slotsLeft]

namespace RackPlace.StandsFor

/-- What supplies a letter is there, so counting it off leads to the place that stands for the next
state of the walk. -/
theorem consume? (same : s.StandsFor holds rack t) (few : rack.classes.length ≤ 32)
    {n : ChainNode κ} {m : TrieNode} (letter : n.letter = m.letter) (below : holds n.child m.child)
    {consumption : Consumption} {supply : Supply}
    (serves : consumption.Serves rack s n.letter supply) :
    ∃ later, CountedRack.consume? s n consumption = some later ∧
      later.StandsFor holds rack (t.take m supply) := by
  obtain ⟨l, isEnd, child⟩ := n
  obtain ⟨_, isEndBelow, trieBelow⟩ := m
  obtain rfl := letter
  have length : s.length + 1 = t.spelled.length + 1 := by rw [same.length]
  have word (c : Char) : (s.word.push c).toList = (c :: t.spelled).reverse := by
    rw [String.toList_push, same.word, List.reverse_cons]
  cases serves with
  | @letterSlot i index left =>
    obtain ⟨less, counted, one, smaller⟩ := exists_decreased? left
    refine ⟨_, by rw [CountedRack.consume?, counted]; rfl, ?_⟩
    refine ⟨below, word l, length, ?_, same.blanks, same.classes, fun j => ?_, same.blanksLe,
      same.used⟩
    · have count : (s.letters.get i).toNat = t.letters.count l := same.letters.toNat_get index
      have fewer : (t.letters.erase l).count l = t.letters.count l - 1 := List.count_erase_self
      refine same.letters.withCount index ?_ ?_ fun d other => ?_
      · exact fun c member => same.letters.capitals c (List.mem_of_mem_erase member)
      · change less.toNat = (t.letters.erase l).count l
        omega
      · exact List.count_erase_of_ne other
    · have bound := same.lettersLe j
      rw [get_withCount]
      split
      · next here => exact UInt8.le_trans smaller (here ▸ bound)
      · exact bound
  | @classSlot _ k isOption =>
    obtain ⟨before, i, after, rfl, whole, unused, first⟩ := isOption.place
    have member : (k, i) ∈ rack.classes.zipIdx := by simp [whole]
    have inside : i < 32 := indices_lt few _ member
    have apart : ∀ pair ∈ before ++ after, pair.2 ≠ i := by
      have once : (rack.classes.zipIdx.map Prod.snd).Nodup := by
        rw [List.zipIdx_map_snd]
        exact List.nodup_range'
      rw [whole, List.map_append, List.map_cons, List.nodup_middle, ← List.map_append,
        List.nodup_cons] at once
      rintro pair listed rfl
      have number : pair.2 ∈ (before ++ after).map Prod.snd := List.mem_map_of_mem listed
      exact once.1 number
    refine ⟨_, by rw [CountedRack.consume?, bit?_eq inside]; rfl, ?_⟩
    refine ⟨below, word _, length, same.letters, same.blanks, ?_, same.lettersLe, same.blanksLe,
      fun j set => ?_⟩
    · rw [whole, unusedOf_or_bit inside unused first apart, ← whole, ← same.classes]
      rfl
    · rw [getLsbD_or_bit inside, Bool.or_eq_true, decide_eq_true_eq] at set
      rcases set with old | rfl
      · exact same.used j old
      · simpa using List.snd_lt_of_mem_zipIdx member
  | blank left =>
    obtain ⟨less, counted, one, smaller⟩ := exists_decreased? left
    refine ⟨_, by rw [CountedRack.consume?, counted]; rfl, ?_⟩
    refine ⟨below, word _, length, same.letters, ?_, same.classes, same.lettersLe,
      UInt8.le_trans smaller same.blanksLe, same.used⟩
    have count := same.blanks
    simp only [RackState.take]
    omega
  | free =>
    exact ⟨_, rfl, below, word _, length, same.letters, same.blanks, same.classes,
      same.lettersLe, same.blanksLe, same.used⟩

end RackPlace.StandsFor

structure CountedRack.Choice.StandsFor (holds : κ → Trie → Prop) (rack : CountedRack)
    (t : RackState) (choice : CountedRack.Choice κ) (other : TrieNode × RackState) : Prop where
  isEnd : choice.node.isEnd = other.1.isEnd
  later : choice.later.StandsFor holds rack other.2
  longer : choice.later.length = t.spelled.length + 1
  left : choice.left = other.2.slotsLeft
  spent : choice.left + (if choice.supply = .free then 0 else 1) = t.slotsLeft

namespace RackPlace.StandsFor

theorem choicesFor? (same : s.StandsFor holds rack t) (few : rack.classes.length ≤ 32)
    {n : ChainNode κ} {m : TrieNode} (capital : n.letter.isUpper = true)
    (letter : n.letter = m.letter) (isEnd : n.isEnd = m.isEnd) (below : holds n.child m.child) :
    ∃ choices, rack.choicesFor? s n = some choices ∧
      List.Forall₂ (CountedRack.Choice.StandsFor holds rack t) choices
        ((t.supplies rack.star m.letter).map fun supply => (m, t.take m supply)) := by
  obtain ⟨options, listed, serve⟩ := same.consumptions? few capital
  rw [CountedRack.choicesFor?, listed, Option.bind_eq_bind, Option.bind_some, ← letter]
  refine exists_mapM_of_forall₂ serve fun consumption supply _ serves => ?_
  obtain ⟨later, consumed, stands⟩ := same.consume? few letter below serves
  have left := stands.slotsLeft? few
  refine ⟨⟨n, consumption, later, (t.take m supply).slotsLeft⟩, ?_, isEnd, stands, ?_, rfl, ?_⟩
  · simp only [consumed, left, Option.bind_eq_bind, Option.bind_some, Option.pure_def]
  · rw [stands.length]
    cases supply <;> rfl
  · exact (letter ▸ serves).slotsLeft_take same

theorem choices? (same : s.StandsFor holds rack t) (few : rack.classes.length ≤ 32)
    (shows : view.Shows holds) (limits : WalkLimits) :
    ∃ choices, rack.choices? view limits s = some choices ∧
      List.Forall₂ (CountedRack.Choice.StandsFor holds rack t) choices
        (t.choices rack.star limits) := by
  obtain ⟨chain, listed, alike⟩ := shows.siblings _ _ same.chain
  have short : s.length + 1 ≤ limits.maxLength ↔ limits.continues t.spelled.length = true := by
    rw [WalkLimits.continues, decide_eq_true_eq, same.length, Nat.succ_le_iff]
  have allowed := List.rel_filter
    (p := fun n => n.letter.isUpper && limits.allows n.letter && s.length + 1 ≤ limits.maxLength)
    (q := fun m => m.letter.isUpper && limits.allows m.letter && limits.continues t.spelled.length)
    (fun n m equal => by simp only [equal.1, Bool.and_eq_true, decide_eq_true_eq, short]) alike
  obtain ⟨choices, chosen, stand⟩ := exists_mapM_of_forall₂ (f := rack.choicesFor? s)
    (g := fun m => (t.supplies rack.star m.letter).map fun supply => (m, t.take m supply)) allowed
    fun n m member equal => by
      have capital := (List.mem_filter.mp member).2
      simp only [Bool.and_eq_true] at capital
      exact same.choicesFor? few capital.1.1 equal.1 equal.2.1 equal.2.2
  refine ⟨choices.flatten, ?_, ?_⟩
  · simp only [CountedRack.choices?, listed, chosen, Option.bind_eq_bind, Option.bind_some,
      Option.pure_def]
  · rw [RackState.choices, List.flatMap_def]
    exact List.rel_flatten stand

end RackPlace.StandsFor

namespace CountedRack

theorem Choice.StandsFor.isComplete {choice : Choice κ} {other : TrieNode × RackState}
    (same : choice.StandsFor holds rack t other) (subanagram : Bool) (limits : WalkLimits) :
    (choice.node.isEnd && (subanagram || choice.left == 0) &&
      limits.minLength ≤ choice.later.length) =
        other.2.isComplete subanagram limits other.1 := by
  rw [RackState.isComplete, same.isEnd, same.left, same.later.length]

theorem Choice.StandsFor.isPushed {choice : Choice κ} {other : TrieNode × RackState}
    (same : choice.StandsFor holds rack t other) (shows : view.Shows holds) (limits : WalkLimits) :
    rack.isPushed view limits choice = other.2.isOpen rack.star limits := by
  rw [CountedRack.isPushed, RackState.isOpen, shows.isEmpty _ _ same.later.chain,
    same.later.length, same.left, WalkLimits.continues]

theorem turn?_follows (few : rack.classes.length ≤ 32) (shows : view.Shows holds)
    (subanagram : Bool) (limits : WalkLimits) :
    Pending.Follows (rack.turn? view subanagram limits) (Rack.walk rack.star subanagram limits)
      (RackPlace.StandsFor holds rack) := by
  intro s t same
  obtain ⟨choices, chosen, stand⟩ := same.choices? few shows limits
  rw [turn?, chosen]
  refine ⟨_, rfl, fun found => ?_, ?_⟩
  · refine MatchSet.foldl_insert_picked (stand.imp fun choice other stands => ?_) found
    refine ⟨stands.isComplete subanagram limits, ?_⟩
    rw [← stands.later.word, String.ofList_toList]
  · simp only [Rack.walk]
    rw [RackState.next, List.filter_map]
    refine List.forall₂_map_left_iff.mpr (List.forall₂_map_right_iff.mpr ?_)
    refine (List.rel_filter (fun choice other stands => ?_) stand).imp fun _ _ same => same.later
    exact Bool.eq_iff_iff.mp (stands.isPushed shows limits)

theorem start_standsFor {plain : Rack} (same : rack.StandsFor plain) {root : κ} {t : Trie}
    (top : holds root t) : (rack.start root).StandsFor holds rack (.ofRack plain t) where
  chain := top
  word := rfl
  length := rfl
  letters := same.letters
  blanks := same.blanks
  classes := by
    rw [RackState.ofRack, ← same.classes]
    exact (unusedOf_zero rack.classes).symm
  lettersLe _ := UInt8.le_refl _
  blanksLe := UInt8.le_refl _
  used i set := by simp [start] at set

theorem loop_ends {plain : Rack} (same : rack.StandsFor plain) (shows : view.Shows holds)
    (subanagram : Bool) (limits : WalkLimits) {root : κ} {t : Trie} (top : holds root t) :
    ∃ n, (rack.loopFrom root).after? (rack.turn? view subanagram limits) n =
      some ⟨[], plain.wordsIn subanagram limits t⟩ := by
  rw [loopFrom, Rack.wordsIn, same.slotCount, same.star, same.classes]
  by_cases idle : (plain.slotCount == 0 && !plain.star ||
      decide (Rack.maxClasses < plain.classes.length)) = true
  · rw [if_pos idle, if_pos idle]
    exact ⟨0, rfl⟩
  · rw [if_neg idle, if_neg idle, ← same.star]
    have few : rack.classes.length ≤ 32 := by
      rw [Bool.or_eq_true, not_or, decide_eq_true_eq, Nat.not_lt] at idle
      exact same.classes ▸ idle.2
    exact (turn?_follows few shows subanagram limits).ends
      (List.Forall₂.cons (start_standsFor same top) List.Forall₂.nil)

end CountedRack

end WordFinder
