import Mathlib
import WordFinder.CommandLine.Error
import WordFinder.Proofs.Lexicon.Vocabulary

/-!
# Histories of imports

A history is a list of imports, some of which may fail. Whatever the history, the vocabulary holds
exactly the words that were accepted, each once, in both tries, and only such words are defined. The
invariant is kept by the offer of one word and by stems, so by every import, so by every history.
-/
set_option autoImplicit false

namespace WordFinder.Lexicon

/-- One import. A file may not be readable or hold no text. -/
inductive Import where
  | ofWord (word : String) (definition? : Option String)
  | ofText (text : String) (withDefinitions : Bool)
  | ofTextFile (content : Except FileError ByteArray) (withDefinitions : Bool)
  | ofStems (text : String)
  | ofStemsFile (content : Except FileError ByteArray)

/-- The lexicon after an import. An import that fails changes nothing. -/
def Import.apply (x : Lexicon) : Import → Lexicon
  | ofWord word definition? => (x.addWord? word definition?).getD x
  | ofText text withDefinitions => (x.addText text withDefinitions).1
  | ofTextFile content withDefinitions =>
    match content.bind textOfBytes with
    | .ok text => (x.addText text withDefinitions).1
    | .error _ => x
  | ofStems text => (x.addStems text).1
  | ofStemsFile content =>
    match content.bind textOfBytes with
    | .ok text => (x.addStems text).1
    | .error _ => x

def after (x : Lexicon) (imports : List Import) : Lexicon :=
  imports.foldl Import.apply x

def acceptedEntries (entries : List WordListEntry) : List String :=
  entries.filterMap fun entry => acceptable? entry.word

def Import.accepted : Import → List String
  | ofWord word _ => (acceptable? word).toList
  | ofText text _ => acceptedEntries (WordListEntry.ofText text)
  | ofTextFile content _ =>
    match content.bind textOfBytes with
    | .ok text => acceptedEntries (WordListEntry.ofText text)
    | .error _ => []
  | ofStems _ | ofStemsFile _ => []

def acceptedWords (imports : List Import) : List String :=
  imports.flatMap Import.accepted

variable {x : Lexicon} {words : List String}

/-! ## Induction on a history -/

theorem foldl_counting {α β γ : Type} {step : α × Nat → β → α × Nat} {offer : α → β → α}
    {accept? : β → Option γ}
    (steps : ∀ a count b, step (a, count) b = (offer a b, count + (accept? b).toList.length))
    (list : List β) (a : α) (count : Nat) :
    list.foldl step (a, count) = (list.foldl offer a, count + (list.filterMap accept?).length) := by
  induction list generalizing a count with
  | nil => rfl
  | cons b list ih =>
    rw [List.foldl_cons, steps, ih, List.foldl_cons, List.filterMap_cons]
    cases accept? b with
    | none => rfl
    | some c =>
      rw [Option.toList_some, List.length_singleton, List.length_cons, Nat.add_assoc,
        Nat.add_comm 1]

theorem addEntries_eq (x : Lexicon) (entries : List WordListEntry) (withDefinitions : Bool) :
    x.addEntries entries withDefinitions =
      (entries.foldl
        (fun x entry => (x.addWord? entry.word
          (if withDefinitions then some entry.definition else none)).getD x) x,
        (acceptedEntries entries).length) := by
  rw [Lexicon.addEntries, acceptedEntries, ← Nat.zero_add (List.length _)]
  apply foldl_counting
  intro x count entry
  simp only [addWord?]
  cases acceptable? entry.word with
  | none => rfl
  | some stored => rfl

theorem count_addText (x : Lexicon) (text : String) (withDefinitions : Bool) :
    (x.addText text withDefinitions).2 = (Import.ofText text withDefinitions).accepted.length := by
  rw [addText, addEntries_eq, Import.accepted]

section Induction

variable {R : Lexicon → List String → Prop}
  (offer : ∀ (x : Lexicon) (words : List String), R x words →
    ∀ (word : String) (definition? : Option String),
      R ((x.addWord? word definition?).getD x) (words ++ (acceptable? word).toList))
  (stems : ∀ (x : Lexicon) (words : List String), R x words →
    ∀ text, R (x.addStems text).1 words)

include offer in
theorem addText_induction (start : R x words) (text : String) (withDefinitions : Bool) :
    R (x.addText text withDefinitions).1
      (words ++ acceptedEntries (WordListEntry.ofText text)) := by
  rw [addText, addEntries_eq]
  induction WordListEntry.ofText text generalizing x words with
  | nil => rwa [acceptedEntries, List.filterMap_nil, List.append_nil]
  | cons entry entries ih =>
    have step := ih (offer x words start entry.word
      (if withDefinitions then some entry.definition else none))
    rw [List.append_assoc] at step
    rw [List.foldl_cons, acceptedEntries, List.filterMap_cons]
    cases accepted : acceptable? entry.word with
    | none => rwa [accepted] at step
    | some stored => rwa [accepted] at step

include offer stems

theorem apply_induction (start : R x words) (i : Import) :
    R (i.apply x) (words ++ i.accepted) := by
  cases i with
  | ofWord word definition? => exact offer x words start word definition?
  | ofText text withDefinitions => exact addText_induction offer start text withDefinitions
  | ofTextFile content withDefinitions =>
    rw [Import.apply, Import.accepted]
    cases content.bind textOfBytes with
    | ok text => exact addText_induction offer start text withDefinitions
    | error cause => rwa [List.append_nil]
  | ofStems text =>
    rw [Import.accepted, List.append_nil]
    exact stems x words start text
  | ofStemsFile content =>
    rw [Import.apply, Import.accepted, List.append_nil]
    cases content.bind textOfBytes with
    | ok text => exact stems x words start text
    | error cause => exact start

/-- What the offer of a word and a list of stems keep is kept by a history. The words accepted are
listed from the first import on. -/
theorem after_induction (words : List String) (start : R x words) (imports : List Import) :
    R (x.after imports) (words ++ acceptedWords imports) := by
  induction imports generalizing x words with
  | nil => rwa [acceptedWords, List.flatMap_nil, List.append_nil]
  | cons i imports ih =>
    have step := ih _ (apply_induction offer stems start i)
    rwa [List.append_assoc] at step

end Induction

/-! ## Histories and what they reach -/

theorem Reached.after (reached : x.Reached) (imports : List Import) :
    (x.after imports).Reached := by
  refine after_induction (R := fun x _ => x.Reached) ?_ ?_ [] reached imports
  · intro x words reached word definition?
    cases added : x.addWord? word definition? with
    | none => exact reached
    | some larger => exact .word reached added
  · intro x words reached text
    exact .stems reached text

theorem after_concat (x : Lexicon) (imports : List Import) (i : Import) :
    x.after (imports ++ [i]) = i.apply (x.after imports) := by
  rw [Lexicon.after, List.foldl_append]
  rfl

theorem Reached.exists_history (reached : x.Reached) :
    ∃ (name distribution : String) (fresh : Lexicon) (imports : List Import),
      create name distribution = .ok fresh ∧ x = fresh.after imports := by
  induction reached with
  | @created name distribution fresh made => exact ⟨name, distribution, fresh, [], made, rfl⟩
  | @word x larger word definition? before added ih =>
    obtain ⟨name, distribution, fresh, imports, made, rfl⟩ := ih
    refine ⟨name, distribution, fresh, imports ++ [.ofWord word definition?], made, ?_⟩
    rw [after_concat, Import.apply, added, Option.getD_some]
  | @text x before text withDefinitions ih =>
    obtain ⟨name, distribution, fresh, imports, made, rfl⟩ := ih
    refine ⟨name, distribution, fresh, imports ++ [.ofText text withDefinitions], made, ?_⟩
    rw [after_concat, Import.apply]
  | @stems x before text ih =>
    obtain ⟨name, distribution, fresh, imports, made, rfl⟩ := ih
    refine ⟨name, distribution, fresh, imports ++ [.ofStems text], made, ?_⟩
    rw [after_concat, Import.apply]

/-! ## What was accepted is what is held -/

/-- The lexicon holds the accepted words and no others. -/
structure HasAccepted (x : Lexicon) (words : List String) : Prop where
  sound : x.graph.IsSound
  mem_vocabulary_iff : ∀ word, word ∈ x.vocabulary ↔ word ∈ words
  defined : ∀ word, x.glossary.contains word = true → word ∈ words

theorem hasAccepted_create {name distribution : String}
    (made : create name distribution = .ok x) : x.HasAccepted [] := by
  obtain ⟨bag, rfl⟩ := exists_bag_of_create made
  refine ⟨WordGraph.isSound_empty, fun word => Iff.rfl, fun word defined => ?_⟩
  simp [Glossary.contains, Glossary.empty] at defined

theorem contains_insert_glossary {g : Glossary} {stored definition word : String}
    (defined : (g.insert stored definition).contains word = true) :
    word = stored ∨ g.contains word = true := by
  simp only [Glossary.insert] at defined
  split at defined
  · exact Or.inr defined
  · rw [Glossary.contains, Std.TreeMap.contains_insert, Bool.or_eq_true, beq_iff_eq,
      Std.LawfulEqCmp.compare_eq_iff_eq] at defined
    rcases defined with same | old
    · exact Or.inl same.symm
    · exact Or.inr old

theorem HasAccepted.offer (has : x.HasAccepted words) (word : String)
    (definition? : Option String) :
    ((x.addWord? word definition?).getD x).HasAccepted (words ++ (acceptable? word).toList) := by
  rw [addWord?]
  cases accepted : acceptable? word with
  | none => simpa using has
  | some stored =>
    have storable := storable_of_acceptable? accepted
    simp only [Option.map_some, Option.getD_some, Option.toList_some]
    refine ⟨has.sound.insert storable, fun other => ?_, fun other defined => ?_⟩
    · rw [vocabulary, WordGraph.mem_vocabulary_insert (List.ne_nil_of_length_pos storable.nonempty),
        List.mem_append, List.mem_singleton, ← has.mem_vocabulary_iff, or_comm]
      rfl
    · rw [List.mem_append, List.mem_singleton]
      cases definition? with
      | none => exact Or.inl (has.defined other defined)
      | some definition =>
        rcases contains_insert_glossary defined with same | old
        · exact Or.inr same
        · exact Or.inl (has.defined other old)

theorem HasAccepted.addStems (has : x.HasAccepted words) (text : String) :
    (x.addStems text).1.HasAccepted words :=
  ⟨has.sound, has.mem_vocabulary_iff, has.defined⟩

theorem HasAccepted.after (has : x.HasAccepted words) (imports : List Import) :
    (x.after imports).HasAccepted (words ++ acceptedWords imports) :=
  after_induction (fun _ _ has => has.offer) (fun _ _ has => has.addStems) words has imports

theorem same_after (x : Lexicon) (imports : List Import) :
    (x.after imports).name = x.name ∧ (x.after imports).bag = x.bag := by
  have offered (y : Lexicon) (word : String) (definition? : Option String) :
      ((y.addWord? word definition?).getD y).name = y.name ∧
        ((y.addWord? word definition?).getD y).bag = y.bag := by
    rw [addWord?]
    cases acceptable? word with
    | none => exact ⟨rfl, rfl⟩
    | some stored => exact ⟨rfl, rfl⟩
  refine after_induction (R := fun y _ => y.name = x.name ∧ y.bag = x.bag) ?_ ?_ [] ⟨rfl, rfl⟩
    imports
  · intro y words same word definition?
    obtain ⟨name, bag⟩ := offered y word definition?
    rw [name, bag]
    exact same
  · intro y words same text
    exact same

/-! ## The vocabulary of a history -/

namespace HasAccepted

theorem storable (has : x.HasAccepted words) {word : String} (member : word ∈ words) :
    IsStorable word.toList :=
  has.sound.storable_of_mem ((has.mem_vocabulary_iff word).mpr member)

theorem contains_iff (has : x.HasAccepted words) (s : String) :
    x.contains s = true ↔ Text.upper s ∈ words := by
  rw [contains, has.sound.contains_iff]
  exact has.mem_vocabulary_iff _

theorem containsReversed_iff (has : x.HasAccepted words) (s : String) :
    x.graph.containsReversed s = true ↔ Pattern.readBackwards s ∈ words := by
  rw [WordGraph.containsReversed, has.sound.backwardProper.contains_iff, has.sound.mirrored,
    ← has.mem_vocabulary_iff, vocabulary, WordGraph.mem_vocabulary_iff, Pattern.readBackwards,
    String.toList_ofList]

theorem wordCount_eq (has : x.HasAccepted words) : x.wordCount = words.toFinset.card := by
  have distinct : x.vocabulary.Nodup := has.sound.nodup_vocabulary
  rw [← length_vocabulary, ← List.toFinset_card_of_nodup distinct]
  congr 1
  ext word
  rw [List.mem_toFinset, List.mem_toFinset, has.mem_vocabulary_iff]

end HasAccepted

/-- Whatever was imported, with or without success: a lexicon has the words that were accepted and no
others, each of one to fifteen capital letters and counted once; its second trie has their reversals;
and only these words are defined. -/
theorem holds_accepted {name distribution : String}
    (made : create name distribution = .ok x) (imports : List Import) :
    (∀ s, (x.after imports).contains s = true ↔ Text.upper s ∈ acceptedWords imports) ∧
      (∀ word ∈ acceptedWords imports, IsStorable word.toList) ∧
      (x.after imports).wordCount = (acceptedWords imports).toFinset.card ∧
      (∀ s, (x.after imports).graph.containsReversed s = true ↔
        Pattern.readBackwards s ∈ acceptedWords imports) ∧
      ∀ word, (x.after imports).glossary.contains word = true →
        word ∈ (x.after imports).vocabulary := by
  have has : (x.after imports).HasAccepted (acceptedWords imports) :=
    (hasAccepted_create made).after imports
  refine ⟨has.contains_iff, fun word => has.storable, has.wordCount_eq, has.containsReversed_iff,
    fun word defined => ?_⟩
  exact (has.mem_vocabulary_iff word).mpr (has.defined word defined)

/-- A history in which a file is missing, a word is too short and another is repeated. -/
theorem holds_accepted_mixed :
    let imports : List Import := [.ofWord "Cat" (some "a pet"), .ofWord "" none,
      .ofTextFile (.error .notFound) true, .ofText "act a deed\ncat\nx-y" true, .ofStems "ab"]
    let x : Lexicon := after { name := defaultName, bag := ⟨[]⟩ } imports
    acceptedWords imports = ["CAT", "ACT", "CAT"] ∧ x.wordCount = 2 ∧ x.contains "Act" = true := by
  intro imports x
  have accepted : acceptedWords imports = ["CAT", "ACT", "CAT"] := by decide +kernel
  have made : create defaultName "" = .ok { name := defaultName, bag := ⟨[]⟩ } := rfl
  obtain ⟨contains_iff, _, counted, _, _⟩ := holds_accepted made imports
  refine ⟨accepted, ?_, ?_⟩
  · rw [accepted] at counted
    exact counted
  · exact (contains_iff "Act").mpr (by rw [accepted]; decide)

/-! ## What imports log -/

theorem imported_add_warnings (x : Lexicon) (text : String) (withDefinitions : Bool) :
    let (larger, imported) := x.addText text withDefinitions
    imported + (larger.textLog text imported).countP (·.level == .warn) =
      (WordListEntry.ofText text).length := by
  simp only [addText, addEntries_eq, textLog, LogRecord.ofEngine, List.countP_append, List.countP_map,
    Function.comp_def, beq_self_eq_true, List.countP_true, acceptedEntries,
    List.length_filterMap_eq_countP, ← List.countP_eq_length_filter]
  rw [(WordListEntry.ofText text).length_eq_countP_add_countP
    fun entry => (acceptable? entry.word).isSome]
  simp only [Bool.not_eq_true, Option.isSome_eq_false_iff, Bool.decide_eq_true]
  rfl

theorem added_add_warnings (x : Lexicon) (text : String) :
    let (_, added) := x.addStems text
    added + (stemLog text added).countP (·.level == .warn) = (WordListEntry.ofText text).length := by
  have entries : (WordListEntry.ofText text).length =
      ((WordListEntry.ofText text).map (·.word)).length := (List.length_map _).symm
  simp only [addStems, stemLog, uniformStems, entries]
  cases (WordListEntry.ofText text).map (·.word) with
  | nil => rfl
  | cons first rest =>
    have split := rest.length_eq_countP_add_countP (stemLength · == stemLength first)
    simp only [LogRecord.ofEngine, List.countP_append, List.countP_map, Function.comp_def,
      beq_self_eq_true, List.countP_true, List.length_cons, ← List.countP_eq_length_filter] at split ⊢
    simp only [bne, Bool.not_eq_true, Bool.decide_eq_false] at split ⊢
    rw [split, List.countP_cons_of_neg (by simp), List.countP_nil]
    omega

end WordFinder.Lexicon
