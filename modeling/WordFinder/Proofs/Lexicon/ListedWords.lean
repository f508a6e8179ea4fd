import Mathlib
import WordFinder.Proofs.Lexicon.Imports
import WordFinder.Proofs.Text.FullUpper

/-!
# Looking up the words of a list

A word list is imported in full upper case, while words are looked up with the letters `a` to `z`
folded only. A word that was imported is found as it is written in the list unless it is written with
one of the ten characters that only the full fold turns into letters.
-/
set_option autoImplicit false

namespace WordFinder.Lexicon

variable {x : Lexicon} {token stored : String}

def storedOfLine? (line : String) : Option String :=
  (WordListEntry.ofLine? line).bind fun entry => acceptable? entry.word

theorem acceptedEntries_ofText (text : String) :
    acceptedEntries (WordListEntry.ofText text) = (Text.lines text).filterMap storedOfLine? := by
  rw [acceptedEntries, WordListEntry.ofText, List.filterMap_filterMap]
  rfl

theorem count_addText_eq_countP (x : Lexicon) (text : String) (withDefinitions : Bool) :
    (x.addText text withDefinitions).2 =
      (Text.lines text).countP fun line => (storedOfLine? line).isSome := by
  rw [count_addText, Import.accepted, acceptedEntries_ofText, List.length_filterMap_eq_countP]

theorem exists_token_of_storedOfLine? {line : String} (added : storedOfLine? line = some stored) :
    ∃ token rest, Text.words line = token :: rest ∧
      acceptable? (Text.fullUpper token) = some stored := by
  obtain ⟨entry, read, accepted⟩ := Option.bind_eq_some_iff.mp added
  rw [WordListEntry.ofLine?] at read
  split at read
  · exact absurd read (Option.some_ne_none entry).symm
  · next token rest words =>
    split at read
    · exact absurd read (Option.some_ne_none entry).symm
    · rw [← Option.some.inj read] at accepted
      exact ⟨token, rest, words, accepted⟩

theorem eq_upper_of_acceptable? {word : String} (accepted : acceptable? word = some stored) :
    stored = Text.upper word := by
  simp only [acceptable?] at accepted
  split at accepted
  · exact (Option.some.inj accepted).symm
  · exact absurd accepted (Option.some_ne_none stored).symm

theorem isAlpha_or_mem_of_acceptable? (accepted : acceptable? (Text.fullUpper token) = some stored)
    {c : Char} (written : c ∈ token.toList) : c.isAlpha = true ∨ c ∈ Text.disguisedLetters := by
  refine Text.isAlpha_or_mem_of_fullUpperChar fun d spelled => ?_
  rw [← Char.isUpper_toUpper_eq_isAlpha]
  apply (storable_of_acceptable? accepted).capitals
  rw [eq_upper_of_acceptable? accepted, Text.toList_upper, Text.fullUpper, String.toList_ofList]
  exact List.mem_map_of_mem (List.mem_flatMap_of_mem written spelled)

theorem Reached.exists_hasAccepted (reached : x.Reached) : ∃ words, x.HasAccepted words := by
  obtain ⟨_, _, fresh, imports, made, rfl⟩ := reached.exists_history
  exact ⟨_, (hasAccepted_create made).after imports⟩

theorem Reached.mem_vocabulary_addText (reached : x.Reached) {text line : String}
    (withDefinitions : Bool) (listed : line ∈ Text.lines text)
    (added : storedOfLine? line = some stored) :
    stored ∈ (x.addText text withDefinitions).1.vocabulary := by
  obtain ⟨words, has⟩ := reached.exists_hasAccepted
  have whole := addText_induction (fun _ _ has => has.offer) has text withDefinitions
  apply (whole.mem_vocabulary_iff stored).mpr
  rw [List.mem_append, acceptedEntries_ofText, List.mem_filterMap]
  exact Or.inr ⟨line, listed, added⟩

theorem Reached.contains_iff_of_acceptable? (reached : x.Reached) (known : stored ∈ x.vocabulary)
    (accepted : acceptable? (Text.fullUpper token) = some stored) :
    x.contains token = true ↔ ∀ c ∈ token.toList, c.isAlpha = true := by
  rw [reached.contains_iff]
  constructor
  · intro found c written
    rw [← Char.isUpper_toUpper_eq_isAlpha]
    apply (reached.storable found).capitals
    rw [Text.toList_upper]
    exact List.mem_map_of_mem written
  · intro letters
    rwa [← Text.upper_upper, ← Text.fullUpper_of_letters letters,
      ← eq_upper_of_acceptable? accepted]

/-- Of a word list, as many words are reported as there are lines that add one. Such a line has a first
token, which is found in full upper case. As it is written it is found exactly if all its characters
are letters; those that are not are among the ten that stand for some. -/
theorem Reached.contains_listed_iff (reached : x.Reached) (text : String)
    (withDefinitions : Bool) :
    (x.addText text withDefinitions).2 =
        ((Text.lines text).countP fun line => (storedOfLine? line).isSome) ∧
      ∀ line ∈ Text.lines text, (storedOfLine? line).isSome = true →
        ∃ token rest, Text.words line = token :: rest ∧
          (x.addText text withDefinitions).1.contains (Text.fullUpper token) = true ∧
          ((x.addText text withDefinitions).1.contains token = true ↔
            ∀ c ∈ token.toList, c.isAlpha = true) ∧
          ∀ c ∈ token.toList, c.isAlpha = true ∨ c ∈ Text.disguisedLetters := by
  refine ⟨count_addText_eq_countP x text withDefinitions, fun line listed adds => ?_⟩
  obtain ⟨stored, added⟩ := Option.isSome_iff_exists.mp adds
  obtain ⟨token, rest, words, accepted⟩ := exists_token_of_storedOfLine? added
  have after := reached.text text withDefinitions
  have known := reached.mem_vocabulary_addText withDefinitions listed added
  refine ⟨token, rest, words, ?_, after.contains_iff_of_acceptable? known accepted,
    fun c => isAlpha_or_mem_of_acceptable? accepted⟩
  rwa [after.contains_iff, ← eq_upper_of_acceptable? accepted]

/-- A list with a definition, a comment, a word with a character that stands for two letters and a
token that is no word. -/
theorem contains_listed_mixed :
    let fresh : Lexicon := { name := defaultName, bag := ⟨[]⟩ }
    let imported := fresh.addText "Dog a pet\n# end\nstraße\nx-y" true
    fresh.Reached ∧ imported.2 = 2 ∧ imported.1.contains "Dog" = true ∧
      imported.1.contains "STRASSE" = true ∧ imported.1.contains "straße" = false := by
  intro fresh imported
  have reached : fresh.Reached := .created (show create defaultName "" = .ok _ from rfl)
  obtain ⟨count, found⟩ := reached.contains_listed_iff "Dog a pet\n# end\nstraße\nx-y" true
  obtain ⟨token, rest, words, _, plain, _⟩ :=
    found "Dog a pet" (by decide +kernel) (by decide +kernel)
  rw [show Text.words "Dog a pet" = ["Dog", "a", "pet"] by decide +kernel] at words
  obtain ⟨rfl, rfl⟩ := List.cons.inj words
  obtain ⟨token, rest, words, upper, disguised, _⟩ :=
    found "straße" (by decide +kernel) (by decide +kernel)
  rw [show Text.words "straße" = ["straße"] by decide +kernel] at words
  obtain ⟨rfl, rfl⟩ := List.cons.inj words
  refine ⟨reached, count.trans (by decide +kernel), plain.mpr (by simp), upper, ?_⟩
  rw [← Bool.not_eq_true, disguised]
  intro letters
  exact absurd (letters 'ß' (by simp)) (by decide)

/-- A word that is reported as imported need not be found as the list writes it. -/
theorem not_contains_listed :
    let imported := addText { name := defaultName, bag := ⟨[]⟩ } "straße" false
    imported.2 = 1 ∧ Text.words "straße" = ["straße"] ∧ imported.1.contains "straße" = false := by
  decide +kernel

end WordFinder.Lexicon
