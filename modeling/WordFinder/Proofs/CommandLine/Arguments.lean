import Mathlib
import WordFinder.CommandLine.Arguments

/-!
# One more option

An option without a value that stands before all others of a command changes nothing in how the rest
of the command line is read, if it is not given there again. This is what asking for marks right after
the name of a search does.
-/
set_option autoImplicit false

namespace WordFinder

namespace Given

def withFirst (s : Switch) (given : Given) : Given :=
  { given with options := (s, "") :: given.options }

variable {s t : Switch} {given : Given}

theorem has_withFirst : (given.withFirst s).has t = (s == t || given.has t) := by
  rw [has, withFirst, List.any_cons, has]

theorem values_withFirst (other : s ≠ t) : (given.withFirst s).values t = given.values t := by
  rw [values, withFirst, List.filter_cons_of_neg, values]
  simpa using other

end Given

namespace Grammar

/-- A step of reading goes on as before after one more option, unless that option is given again. -/
def Ignores {α : Type} (s : Switch) (step : Given → Except Refusal (Given × α)) : Prop :=
  ∀ ⦃given larger : Given⦄ ⦃a : α⦄, step given = .ok (larger, a) → larger.has s = false →
    given.has s = false ∧ step (given.withFirst s) = .ok (larger.withFirst s, a)

section

variable {α β : Type} {s : Switch}

theorem ignores_error (e : Refusal) : Ignores s fun _ : Given => (.error e : Except Refusal (Given × α)) := by
  intro given larger a stepped
  contradiction

theorem ignores_pure (a : α) : Ignores s fun given => .ok (given, a) := by
  intro given larger b stepped fresh
  obtain ⟨rfl, rfl⟩ := Prod.mk.inj (Except.ok.inj stepped)
  exact ⟨fresh, rfl⟩

theorem Ignores.bind {step : Given → Except Refusal (Given × α)}
    {rest : α → Given → Except Refusal (Given × β)} (first : Ignores s step)
    (others : ∀ a, Ignores s (rest a)) :
    Ignores s fun given => step given >>= fun (larger, a) => rest a larger := by
  intro given larger b stepped fresh
  simp only at stepped ⊢
  cases begun : step given with
  | error e =>
    rw [begun] at stepped
    contradiction
  | ok pair =>
    obtain ⟨middle, a⟩ := pair
    rw [begun] at stepped
    obtain ⟨freshMiddle, again⟩ := others a stepped fresh
    obtain ⟨freshGiven, before⟩ := first begun freshMiddle
    refine ⟨freshGiven, ?_⟩
    rw [before]
    exact again

theorem ignores_addOption (t : Switch) (value : String) (a : α) :
    Ignores s fun given => do return (← addOption given t value, a) := by
  intro given larger b stepped fresh
  simp only [addOption] at stepped ⊢
  split at stepped
  · contradiction
  · split at stepped
    · contradiction
    · split at stepped
      · contradiction
      · next notHelp notVersion allowed =>
        obtain ⟨rfl, rfl⟩ := Prod.mk.inj (Except.ok.inj stepped)
        have parts : given.has s = false ∧ (s == t) = false := by
          rw [Given.has, List.any_append, Bool.or_eq_false_iff] at fresh
          rw [Bool.beq_comm]
          simpa [Given.has] using fresh
        refine ⟨parts.1, ?_⟩
        rw [if_neg notHelp, if_neg notVersion, Given.has_withFirst, parts.2, Bool.false_or,
          if_neg allowed]
        rfl

theorem ignores_addWord (g : Grammar) (word : String) (a : α) :
    Ignores s fun given => do return (← g.addWord given word, a) := by
  intro given larger b stepped fresh
  simp only [addWord] at stepped ⊢
  split at stepped
  · next room =>
    obtain ⟨rfl, rfl⟩ := Prod.mk.inj (Except.ok.inj stepped)
    exact ⟨fresh, congrArg (· >>= _) (if_pos room)⟩
  · contradiction

theorem ignores_addWords (g : Grammar) (words : List String) (a : α) :
    Ignores s fun given => do return (← words.foldlM g.addWord given, a) := by
  induction words with
  | nil => exact ignores_pure a
  | cons word words ih =>
    have both := (ignores_addWord g word ()).bind fun _ : Unit => ih
    simpa only [List.foldlM_cons, bind_assoc, pure_bind] using both

theorem ignores_readLong (g : Grammar) (text : String) :
    Ignores s fun given => g.readLong given text := by
  simp only [readLong]
  split
  · exact ignores_error _
  · split
    · exact ignores_addOption _ _ none
    · exact ignores_error _
  · split
    · exact ignores_pure _
    · exact ignores_addOption _ "" none

theorem ignores_readShort (g : Grammar) (cs : List Char) :
    Ignores s fun given => g.readShort given cs := by
  induction cs with
  | nil => exact ignores_pure none
  | cons c cs ih =>
    simp only [readShort]
    cases g.switches.find? (·.short? == some c) with
    | none => exact ignores_error _
    | some t =>
      simp only
      split
      · have both := (ignores_addOption t "" ()).bind fun _ : Unit => ih
        simpa only [bind_assoc, pure_bind] using both
      · split
        · exact ignores_pure _
        · exact ignores_addOption t _ none
        · exact ignores_addOption t _ none

theorem ignores_read (g : Grammar) (awaiting? : Option Switch) (args : List String) :
    Ignores s fun given => g.read given awaiting? args := by
  induction args generalizing awaiting? with
  | nil =>
    cases awaiting? with
    | none => exact ignores_pure _
    | some t => exact ignores_error _
  | cons arg args ih =>
    unfold read
    cases awaiting? with
    | none =>
      simp only
      split
      · exact ignores_pure _
      · split
        · exact ignores_addWords g args _
        · contradiction
        · exact (ignores_readLong g _).bind ih
        · exact (ignores_readShort g _).bind ih
        · contradiction
        · have both := (ignores_addWord (s := s) g arg ()).bind fun _ : Unit => ih none
          simpa only [bind_assoc, pure_bind] using both
    | some t =>
      simp only
      split
      · exact ignores_pure _
      · split
        · contradiction
        · exact ignores_error _
        · contradiction
        · contradiction
        · next other waiting _ =>
          obtain rfl := Option.some.inj waiting
          have both := (ignores_addOption (s := s) t arg ()).bind fun _ : Unit => ih none
          simpa only [bind_assoc, pure_bind] using both
        · contradiction

end

end Grammar

namespace Invocation

open Grammar

variable {given : Given}

theorem has_marked_first {t : Switch} (other : Switch.marked ≠ t) :
    (given.withFirst .marked).has t = given.has t := by
  rw [Given.has_withFirst, beq_false_of_ne other, Bool.false_or]

theorem marked_of_searchRequest {r : SearchRequest} (asked : searchRequest given = .ok r) :
    r.marked = given.has .marked := by
  rw [searchRequest] at asked
  split at asked
  · contradiction
  · rw [← Except.ok.inj asked]

theorem searchRequest_withFirst {r : SearchRequest} (asked : searchRequest given = .ok r) :
    searchRequest (given.withFirst .marked) = .ok { r with marked := true } := by
  have distinct : ∀ t ∈ Switch.searchOptions, Switch.marked ≠ t := by decide
  have others : Switch.searchOptions.any (given.withFirst .marked).has =
      Switch.searchOptions.any given.has := by
    rw [Bool.eq_iff_iff, List.any_eq_true, List.any_eq_true]
    refine exists_congr fun t => and_congr_right fun member => ?_
    rw [has_marked_first (distinct t member)]
  rw [searchRequest] at asked ⊢
  rw [others, has_marked_first (by decide : Switch.marked ≠ .spec)]
  split at asked
  · contradiction
  · next allowed =>
    obtain rfl := Except.ok.inj asked
    rw [if_neg allowed, has_marked_first (by decide : Switch.marked ≠ .any), Given.has_withFirst,
      beq_self_eq_true, Bool.true_or]
    simp (disch := decide) only [Given.value?, Given.values_withFirst]

def ofSearch (top sub : Given) (r : SearchRequest) : Invocation where
  command := .search r
  wordlist? := (sharedValues top sub .wordlist).head?
  stems := sharedValues top sub .stems
  lexicon := (sharedValues top sub .lexicon).headD Lexicon.defaultName
  distribution := (sharedValues top sub .distribution).headD TileBag.standardDistribution
  verbose := !(sharedValues top sub .verbose).isEmpty

theorem ofArguments_search {args rest : List String} {top : Given}
    (command : topGrammar.read {} none args = .ok (top, .command "search" rest)) :
    ofArguments args = (commandGrammar "search").read {} none rest >>= fun (sub, _) =>
      (searchRequest sub).map (ofSearch top sub) := by
  have requested (sub : Given) :
      (readCommand "search" sub >>= fun c => .ok {
        command := c
        wordlist? := (sharedValues top sub .wordlist).head?
        stems := sharedValues top sub .stems
        lexicon := (sharedValues top sub .lexicon).headD Lexicon.defaultName
        distribution := (sharedValues top sub .distribution).headD TileBag.standardDistribution
        verbose := !(sharedValues top sub .verbose).isEmpty }) =
      (searchRequest sub).map (ofSearch top sub) := by
    have named : readCommand "search" sub = (searchRequest sub).map .search := rfl
    rw [named]
    cases searchRequest sub <;> rfl
  rw [ofArguments, command]
  exact congrArg ((commandGrammar "search").read {} none rest >>= ·)
    (funext fun pair : Given × Ending => requested pair.1)

theorem ofSearch_withFirst (top : Given) (r : SearchRequest) :
    ofSearch top (given.withFirst .marked) r = ofSearch top given r := by
  simp (disch := decide) only [ofSearch, sharedValues, has_marked_first, Given.values_withFirst]

/-- Marks asked for right after the name of a search change nothing else in what is asked for. -/
theorem ofArguments_marked {args markedArgs rest : List String} {top : Given} {flag : String}
    {i : Invocation} {r : SearchRequest} (isFlag : flag = "--marked" ∨ flag = "-m")
    (command : topGrammar.read {} none args = .ok (top, .command "search" rest))
    (markedCommand : topGrammar.read {} none markedArgs = .ok (top, .command "search" (flag :: rest)))
    (asked : ofArguments args = .ok { i with command := .search { r with marked := false } }) :
    ofArguments markedArgs = .ok { i with command := .search { r with marked := true } } := by
  have flagged : (commandGrammar "search").read {} none (flag :: rest) =
      (commandGrammar "search").read (Given.withFirst .marked {}) none rest := by
    obtain rfl | rfl := isFlag <;> rfl
  rw [ofArguments_search command] at asked
  rw [ofArguments_search markedCommand, flagged]
  cases read : (commandGrammar "search").read {} none rest with
  | error e =>
    rw [read] at asked
    contradiction
  | ok pair =>
    obtain ⟨sub, ending⟩ := pair
    rw [read] at asked
    cases request : searchRequest sub with
    | error e =>
      have failed := congrArg (Except.map (ofSearch top sub)) request
      exact absurd (failed.symm.trans asked) nofun
    | ok other =>
      have same := congrArg (Except.map (ofSearch top sub)) request
      have all : ofSearch top sub other = { i with command := .search { r with marked := false } } :=
        Except.ok.inj (same.symm.trans asked)
      obtain rfl := Command.search.inj (congrArg Invocation.command all)
      have fresh : sub.has .marked = false := (marked_of_searchRequest request).symm
      have again := (ignores_read _ _ _ read fresh).2
      have requested := searchRequest_withFirst request
      simp only at again
      rw [again]
      calc (searchRequest (sub.withFirst .marked)).map (ofSearch top (sub.withFirst .marked))
        _ = .ok (ofSearch top sub { r with marked := true }) := by
          rw [requested, Except.map, ofSearch_withFirst]
        _ = .ok { i with command := .search { r with marked := true } } :=
          congrArg (fun j : Invocation =>
            Except.ok { j with command := .search { r with marked := true } }) all

end Invocation

end WordFinder
