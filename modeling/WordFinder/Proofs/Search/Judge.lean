import Mathlib
import WordFinder.Search
import WordFinder.Proofs.Lexicon.Anagrams
import WordFinder.Proofs.MatchSet.Spelling

/-!
# What a judge remembers changes no verdict

Every value in the memory of a judge is the value that the judge would work out anew. A judgement
keeps the memory so, and its verdict is the one given without memory.
-/
set_option autoImplicit false

namespace WordFinder

def Remembers {κ β : Type} [BEq κ] [Hashable κ] (f : κ → β) (known : Std.HashMap κ β) : Prop :=
  ∀ key value, known[key]? = some value → value = f key

theorem remembers_empty {κ β : Type} [BEq κ] [Hashable κ] (f : κ → β) : Remembers f ∅ := by
  intro key value found
  rw [Std.HashMap.getElem?_empty] at found
  contradiction

theorem Remembers.remembered {κ β : Type} [BEq κ] [LawfulBEq κ] [Hashable κ] [LawfulHashable κ]
    {f : κ → β} {known : Std.HashMap κ β} (remembers : Remembers f known) (key : κ)
    {workOut : Unit → β} (right : ∀ u, workOut u = f key) :
    (remembered known key workOut).1 = f key ∧ Remembers f (remembered known key workOut).2 := by
  unfold WordFinder.remembered
  cases found : known[key]? with
  | some value => exact ⟨remembers key value found, remembers⟩
  | none =>
    refine ⟨right (), fun other value foundOther => ?_⟩
    rw [Std.HashMap.getElem?_insert] at foundOther
    split at foundOther
    · next same =>
      rw [← eq_of_beq same, ← right ()]
      exact (Option.some.inj foundOther).symm
    · exact remembers other value foundOther

namespace Memory

structure IsSound (x : Lexicon) (memory : Memory) : Prop where
  patterns : Remembers Pattern.ofString? memory.patterns
  racks : Remembers Rack.ofString? memory.racks
  anagramCounts : Remembers x.anagramCount memory.anagramCounts
  orders : Remembers (fun key => x.orderOfLength key.1 key.2) memory.orders

inductive Reached (x : Lexicon) : Memory → Prop
  | fresh : Reached x {}
  | judged {memory : Memory} (before : Reached x memory) (word : String) (c : Condition) :
      Reached x ((x.judge word c).run memory).2

theorem isSound_fresh (x : Lexicon) : IsSound x {} :=
  ⟨remembers_empty _, remembers_empty _, remembers_empty _, remembers_empty _⟩

end Memory

namespace Lexicon

variable {x : Lexicon} {β γ : Type}

/-- A computation gives a value whatever is remembered, and leaves only right things behind. -/
def Gives (x : Lexicon) (judgement : StateM Memory β) (value : β) : Prop :=
  ∀ memory, memory.IsSound x →
    (judgement.run memory).1 = value ∧ (judgement.run memory).2.IsSound x

theorem gives_pure (value : β) : x.Gives (pure value) value := fun _ sound => ⟨rfl, sound⟩

theorem Gives.bind {judgement : StateM Memory β} {value : β}
    {continuation : β → StateM Memory γ} {result : γ} (first : x.Gives judgement value)
    (second : x.Gives (continuation value) result) :
    x.Gives (judgement >>= continuation) result := by
  intro memory sound
  obtain ⟨same, soundAfter⟩ := first memory sound
  rw [StateT.run_bind]
  change ((continuation (judgement.run memory).1).run (judgement.run memory).2).1 = result ∧
    ((continuation (judgement.run memory).1).run (judgement.run memory).2).2.IsSound x
  rw [same]
  exact second _ soundAfter

theorem gives_judge (x : Lexicon) (word : String) (c : Condition) :
    x.Gives (x.judge word c) (x.meets word c) := by
  intro memory sound
  obtain ⟨patterns, racks, anagramCounts, orders⟩ := sound
  change (x.judge word c memory).1 = _ ∧ (x.judge word c memory).2.IsSound x
  unfold judge
  split
  · next kind =>
    obtain ⟨same, remembers⟩ := patterns.remembered c.string fun _ => rfl
    refine ⟨?_, remembers, racks, anagramCounts, orders⟩
    simp only [meets, kind]
    exact congrArg (c.patternVerdict · word) same
  · next kind =>
    obtain ⟨same, remembers⟩ := racks.remembered c.string fun _ => rfl
    refine ⟨?_, patterns, remembers, anagramCounts, orders⟩
    simp only [meets, kind]
    exact congrArg (c.rackVerdict · word) same
  · next kind =>
    obtain ⟨same, remembers⟩ := racks.remembered c.string fun _ => rfl
    refine ⟨?_, patterns, remembers, anagramCounts, orders⟩
    simp only [meets, kind]
    exact congrArg (c.rackVerdict · word) same
  · next kind =>
    -- What is remembered under the alphagram was worked out for a word that has it.
    have right := x.anagramCount_alphagram word
    obtain ⟨same, remembers⟩ := anagramCounts.remembered (alphagram word) fun _ => right.symm
    rw [right] at same
    refine ⟨?_, patterns, racks, remembers, orders⟩
    simp only [meets, kind]
    exact congrArg c.admits same
  · next kind =>
    obtain ⟨same, remembers⟩ := orders.remembered (word.length, c.blanks) fun _ => rfl
    refine ⟨?_, patterns, racks, anagramCounts, remembers⟩
    simp only [meets, kind]
    exact congrArg (c.orderVerdict · word) same
  · exact ⟨rfl, patterns, racks, anagramCounts, orders⟩

theorem gives_judgeAll (x : Lexicon) (word : String) (conditions : List Condition) :
    x.Gives (x.judgeAll word conditions) (x.meetsAll word conditions) := by
  unfold judgeAll meetsAll
  induction conditions with
  | nil => exact gives_pure true
  | cons c conditions ih =>
    rw [List.allM, List.all_cons]
    refine (x.gives_judge word c).bind ?_
    cases x.meets word c with
    | true => exact ih
    | false => exact gives_pure false

theorem gives_judgeAny (x : Lexicon) (word : String) (conditions : List Condition) :
    x.Gives (x.judgeAny word conditions) (x.meetsAny word conditions) := by
  unfold judgeAny meetsAny
  induction conditions with
  | nil => exact gives_pure false
  | cons c conditions ih =>
    rw [List.anyM, List.any_cons]
    refine (x.gives_judge word c).bind ?_
    cases x.meets word c with
    | true => exact gives_pure true
    | false => exact ih

theorem gives_judgeSpec (x : Lexicon) (word : String) (spec : SearchSpec) :
    x.Gives (x.judgeSpec word spec) (x.meetsSpec word spec) := by
  unfold judgeSpec meetsSpec
  cases spec.conditions.isEmpty with
  | true => exact gives_pure false
  | false =>
    cases spec.conjunction with
    | true => exact x.gives_judgeAll word spec.conditions
    | false => exact x.gives_judgeAny word spec.conditions

theorem gives_filterAuxM {test : String → StateM Memory Bool} {keep : String → Bool}
    (gives : ∀ word, x.Gives (test word) (keep word)) (words kept : List String) :
    x.Gives (words.filterAuxM test kept) ((words.filter keep).reverse ++ kept) := by
  induction words generalizing kept with
  | nil => exact gives_pure kept
  | cons word words ih =>
    rw [List.filterAuxM]
    refine (gives word).bind ?_
    cases found : keep word with
    | true =>
      rw [List.filter_cons_of_pos found, List.reverse_cons, List.append_assoc]
      exact ih (word :: kept)
    | false =>
      rw [List.filter_cons_of_neg (Bool.eq_false_iff.mp found)]
      exact ih kept

theorem gives_filterM {test : String → StateM Memory Bool} {keep : String → Bool}
    (gives : ∀ word, x.Gives (test word) (keep word)) (words : List String) :
    x.Gives (words.filterM test) (words.filter keep) := by
  refine (gives_filterAuxM gives words []).bind ?_
  rw [List.append_nil, List.reverse_reverse]
  exact gives_pure _

theorem gives_mapM {α : Type} {ask : α → StateM Memory β} {value : α → β}
    (gives : ∀ a, x.Gives (ask a) (value a)) (list : List α) :
    x.Gives (list.mapM ask) (list.map value) := by
  induction list with
  | nil => exact gives_pure []
  | cons a list ih =>
    rw [List.mapM_cons, List.map_cons]
    exact (gives a).bind (ih.bind (gives_pure _))

/-! ## Many questions to one judge -/

/-- What a judge can be asked about a word. -/
inductive Question where
  | one (word : String) (c : Condition)
  | all (word : String) (conditions : List Condition)
  | any (word : String) (conditions : List Condition)
  | spec (word : String) (spec : SearchSpec)

def answer (x : Lexicon) : Question → StateM Memory Bool
  | .one word c => x.judge word c
  | .all word conditions => x.judgeAll word conditions
  | .any word conditions => x.judgeAny word conditions
  | .spec word spec => x.judgeSpec word spec

def verdict (x : Lexicon) : Question → Bool
  | .one word c => x.meets word c
  | .all word conditions => x.meetsAll word conditions
  | .any word conditions => x.meetsAny word conditions
  | .spec word spec => x.meetsSpec word spec

theorem gives_answer (x : Lexicon) (question : Question) :
    x.Gives (x.answer question) (x.verdict question) := by
  cases question with
  | one word c => exact x.gives_judge word c
  | all word conditions => exact x.gives_judgeAll word conditions
  | any word conditions => exact x.gives_judgeAny word conditions
  | spec word spec => exact x.gives_judgeSpec word spec

/-- A judge that is asked many questions answers each as a new judge would, and as one that never
remembers anything. -/
theorem answers_eq_fresh (x : Lexicon) (questions : List Question) :
    ((questions.mapM x.answer).run {}).1 =
        questions.map (fun question => ((x.answer question).run {}).1) ∧
      ((questions.mapM x.answer).run {}).1 = questions.map x.verdict := by
  have noMemory : ((questions.mapM x.answer).run {}).1 = questions.map x.verdict :=
    (gives_mapM x.gives_answer questions {} (Memory.isSound_fresh x)).1
  have anew (question : Question) : ((x.answer question).run {}).1 = x.verdict question :=
    (x.gives_answer question {} (Memory.isSound_fresh x)).1
  refine ⟨?_, noMemory⟩
  rw [noMemory]
  exact List.map_congr_left fun question _ => (anew question).symm

end Lexicon

theorem Memory.Reached.isSound {x : Lexicon} {memory : Memory} (reached : memory.Reached x) :
    memory.IsSound x := by
  induction reached with
  | fresh => exact Memory.isSound_fresh x
  | judged before word c ih => exact (x.gives_judge word c _ ih).2

theorem MatchSet.contains_filterJudged {x : Lexicon} {s : MatchSet}
    {test : String → StateM Memory Bool} {keep : String → Bool}
    (gives : ∀ word, x.Gives (test word) (keep word)) {word : String} :
    (s.filterJudged test).contains word = true ↔ s.contains word = true ∧ keep word = true := by
  have kept := (Lexicon.gives_filterM gives s.words {} (Memory.isSound_fresh x)).1
  simp only [filterJudged]
  rw [contains_filter, kept, Std.HashSet.contains_ofList, List.contains_iff_mem, List.mem_filter,
    mem_words_iff]
  constructor
  · intro holds
    obtain ⟨_, both⟩ := holds
    exact both
  · intro both
    exact ⟨both.1, both⟩

theorem MatchSet.filterJudged_alike {x : Lexicon} (s : MatchSet) {test : String → StateM Memory Bool}
    {keep : String → Bool} (gives : ∀ word, x.Gives (test word) (keep word)) :
    (s.filterJudged test).Alike (s.filter keep) := by
  intro word
  have members : (s.filterJudged test).contains word = true ↔ _ := contains_filterJudged gives
  simp only [filterJudged] at members ⊢
  rw [contains_filter] at members
  rw [spelling?_filter, spelling?_filter]
  by_cases member : s.contains word = true
  · rw [and_congr_right_iff] at members
    rw [Bool.eq_iff_iff.mpr (members member)]
  · rw [spelling?_eq_none_iff.mpr member, ite_self, ite_self]

end WordFinder
