import Mathlib
import WordFinder.CommandLine
import WordFinder.Proofs.SavedSearch.Loaded

/-!
# Searches saved from the command line

The search that options ask for is saved as a document in a file, and loading the file gives that
search again. A reader is stricter than the options in one thing and newer in another: it refuses an
empty text where the kind of a condition needs one, and it puts a lexicon in the place of a retired
group.
-/
set_option autoImplicit false

namespace WordFinder

open SavedSearch

theorem textOfBytes_toUTF8 (text : String) : textOfBytes text.toUTF8 = .ok text := by
  have decoded : String.fromUTF8? text.toUTF8 = some text := by
    rw [String.fromUTF8?, String.toUTF8_eq_toByteArray, dif_pos text.isValidUTF8]
    rfl
  rw [textOfBytes, decoded]

namespace SearchOptions

def texts (o : SearchOptions) : List (Option String) :=
  [o.pattern, o.anagram, o.subanagram, o.included, o.excluded, o.frontHook, o.backHook, o.group]

def neededTexts (o : SearchOptions) : List (Option String) :=
  [o.included, o.excluded, o.frontHook, o.backHook, o.group]

variable {o : SearchOptions} {spec : SearchSpec}

structure IsAsked (o : SearchOptions) (c : Condition) : Prop where
  payloadOnly : c.payloadOnly = c
  given : some c.string ∈ o.texts
  needed : c.kind.isMatch = true ∨ some c.string ∈ o.neededTexts
  group : c.kind = .belongsToGroup → o.group = some c.string

theorem isAsked_of_mem {c : Condition} (member : c ∈ o.textConditions) : o.IsAsked c := by
  simp only [textConditions, List.mem_append, Option.mem_toList, Option.map_eq_some_iff] at member
  obtain ((((((⟨text, given, rfl⟩ | ⟨text, given, rfl⟩) | ⟨text, given, rfl⟩) | ⟨text, given, rfl⟩) |
    ⟨text, given, rfl⟩) | ⟨text, given, rfl⟩) | ⟨text, given, rfl⟩) | ⟨text, given, rfl⟩ := member
  -- A pattern and letters to spell may be empty.
  · exact ⟨rfl, by simp [texts, given, Condition.ofText], .inl rfl, nofun⟩
  · exact ⟨rfl, by simp [texts, given, Condition.ofText], .inl rfl, nofun⟩
  · exact ⟨rfl, by simp [texts, given, Condition.ofText], .inl rfl, nofun⟩
  · exact ⟨rfl, by simp [texts, given, Condition.ofText],
      .inr (by simp [neededTexts, given, Condition.ofText]), nofun⟩
  · exact ⟨rfl, by simp [texts, given, Condition.ofText, Condition.negate],
      .inr (by simp [neededTexts, given, Condition.ofText, Condition.negate]), nofun⟩
  · exact ⟨rfl, by simp [texts, given, Condition.ofText],
      .inr (by simp [neededTexts, given, Condition.ofText]), nofun⟩
  · exact ⟨rfl, by simp [texts, given, Condition.ofText],
      .inr (by simp [neededTexts, given, Condition.ofText]), nofun⟩
  · exact ⟨rfl, by simp [texts, given, Condition.ofText],
      .inr (by simp [neededTexts, given, Condition.ofText]), fun _ => given⟩

theorem mem_of_lengthCondition {lengths : List Condition} {c : Condition}
    (read : o.lengthCondition = .ok lengths) (member : c ∈ lengths) :
    ∃ min max, c = .ofRange .length min max := by
  rw [lengthCondition] at read
  split at read
  · obtain ⟨⟨min, max⟩, _, read⟩ := bind_eq_ok read
    rw [← Except.ok.inj read] at member
    exact ⟨min, max, List.mem_singleton.mp member⟩
  · rw [← Except.ok.inj read] at member
    exact absurd member List.not_mem_nil

theorem eq_of_spec (accepted : o.spec = .ok spec) :
    ∃ lengths, o.lengthCondition = .ok lengths ∧ o.textConditions ++ lengths ≠ [] ∧
      spec = { conditions := o.textConditions ++ lengths, conjunction := !o.any } := by
  obtain ⟨lengths, read, accepted⟩ := bind_eq_ok accepted
  by_cases empty : (o.textConditions ++ lengths).isEmpty = true
  · rw [if_pos empty] at accepted
    contradiction
  · rw [if_neg empty] at accepted
    exact ⟨lengths, read, by simpa using empty, (Except.ok.inj accepted).symm⟩

theorem conditions_of_spec (accepted : o.spec = .ok spec) :
    spec.conditions ≠ [] ∧ spec.version = currentVersion ∧
      ∀ c ∈ spec.conditions, o.IsAsked c ∨ ∃ min max, c = .ofRange .length min max := by
  obtain ⟨lengths, read, nonempty, rfl⟩ := eq_of_spec accepted
  refine ⟨nonempty, rfl, fun c member => ?_⟩
  obtain asked | bounds := List.mem_append.mp member
  · exact .inl (isAsked_of_mem asked)
  · exact .inr (mem_of_lengthCondition read bounds)

theorem exists_lacksText (accepted : o.spec = .ok spec) (empty : some "" ∈ o.neededTexts) :
    ∃ c ∈ spec.conditions, c.lacksText = true := by
  obtain ⟨lengths, _, _, rfl⟩ := eq_of_spec accepted
  have among : ∃ c ∈ o.textConditions, c.lacksText = true := by
    simp only [neededTexts, List.mem_cons, List.not_mem_nil, or_false] at empty
    obtain given | given | given | given | given := empty
    · exact ⟨.ofText .includesLetters "", by simp [textConditions, ← given], rfl⟩
    · exact ⟨(Condition.ofText .includesLetters "").negate, by simp [textConditions, ← given], rfl⟩
    · exact ⟨.ofText .takesPrefix "", by simp [textConditions, ← given], rfl⟩
    · exact ⟨.ofText .takesSuffix "", by simp [textConditions, ← given], rfl⟩
    · exact ⟨.ofText .belongsToGroup "", by simp [textConditions, ← given], rfl⟩
  obtain ⟨c, member, lacks⟩ := among
  exact ⟨c, List.mem_append_left _ member, lacks⟩

namespace IsAsked

variable {c : Condition}

theorem lacksText (asked : o.IsAsked c) (present : some "" ∉ o.neededTexts) :
    c.lacksText = false := by
  rw [Condition.lacksText, Bool.and_eq_false_iff, Bool.and_eq_false_iff]
  obtain isMatch | needed := asked.needed
  · exact .inl (.inr (by rw [isMatch]; rfl))
  · refine .inr (Bool.eq_false_iff.mpr fun empty => present ?_)
    rwa [String.isEmpty_iff.mp empty] at needed

theorem isWritable (asked : o.IsAsked c)
    (legal : ∀ text, some text ∈ o.texts → text.toList.all Xml.isChar = true) :
    c.isWritable = true := by
  rw [Condition.isWritable_iff (by rw [asked.payloadOnly]), legal c.string asked.given]

end IsAsked

theorem isWritable_of_spec (accepted : o.spec = .ok spec)
    (legal : ∀ text, some text ∈ o.texts → text.toList.all Xml.isChar = true) :
    spec.conditions.all Condition.isWritable = true := by
  refine List.all_eq_true.mpr fun c member => ?_
  obtain asked | ⟨min, max, rfl⟩ := (conditions_of_spec accepted).2.2 c member
  · exact asked.isWritable legal
  · exact Condition.isWritable_iff rfl

/-- What is loaded of a search that options ask for is that search with its retired group
replaced. -/
theorem ofFile_saved (accepted : o.spec = .ok spec)
    (legal : ∀ text, some text ∈ o.texts → text.toList.all Xml.isChar = true)
    (present : some "" ∉ o.neededTexts) (file : String) :
    SearchSpec.ofFile file (textOfBytes spec.xml.toUTF8) =
      .ok { spec with conditions := spec.conditions.map Condition.current } := by
  obtain ⟨nonempty, version, each⟩ := conditions_of_spec accepted
  have writable := isWritable_of_spec accepted legal
  have text : ∀ c ∈ spec.conditions, c.lacksText = false := by
    intro c member
    obtain asked | ⟨min, max, rfl⟩ := each c member
    · exact asked.lacksText present
    · rfl
  have kept : (spec.conditions.map fun c => c.payloadOnly.current) =
      spec.conditions.map Condition.current := by
    refine List.map_congr_left fun c member => congrArg _ ?_
    obtain asked | ⟨min, max, rfl⟩ := each c member
    · exact asked.payloadOnly
    · rfl
  rw [textOfBytes_toUTF8]
  simp only [SearchSpec.ofFile, Except.mapError, bind, Except.bind,
    SearchSpec.ofXml_xml_of_text nonempty writable text, kept, ← version]

theorem map_current_of_spec (accepted : o.spec = .ok spec)
    (known : ∀ group, o.group = some group → retiredGroups.lookup group = none) :
    spec.conditions.map Condition.current = spec.conditions := by
  refine (List.map_congr_left fun c member => Condition.current_eq_self ?_).trans (List.map_id' _)
  obtain asked | ⟨min, max, rfl⟩ := (conditions_of_spec accepted).2.2 c member
  · rw [Condition.namesRetiredGroup, Bool.and_eq_false_iff, decide_eq_false_iff_not]
    by_cases group : c.kind = .belongsToGroup
    · exact .inr (by rw [known c.string (asked.group group)]; rfl)
    · exact .inl group
  · rfl

/-- A search that options ask for is saved, and what is loaded from the file is that search with its
retired group replaced: the same search, if its group is not retired. -/
theorem load_saved (accepted : o.spec = .ok spec)
    (legal : ∀ text, some text ∈ o.texts → text.toList.all Xml.isChar = true)
    (present : some "" ∉ o.neededTexts) (w : World) (file : String)
    (writable : w.writable file = .ok ()) (next : Script) :
    ∃ text,
      ((CommandLine.saveSearch spec (some file) next).run w).saved =
          (file, text) :: (next.run w).saved ∧
        SearchSpec.ofFile file (textOfBytes text.toUTF8) =
          .ok { spec with conditions := spec.conditions.map Condition.current } ∧
        ((∀ group, o.group = some group → retiredGroups.lookup group = none) →
          SearchSpec.ofFile file (textOfBytes text.toUTF8) = .ok spec) := by
  have loaded := ofFile_saved accepted legal present file
  refine ⟨spec.xml, ?_, loaded, fun known => ?_⟩
  · simp only [CommandLine.saveSearch, Script.run, Script.runFrom, writable]
  · rw [loaded, map_current_of_spec accepted known]

/-- An empty text that a saved search needs is accepted and saved, and then no reader takes the file. -/
theorem ofFile_saved_of_empty (accepted : o.spec = .ok spec)
    (legal : ∀ text, some text ∈ o.texts → text.toList.all Xml.isChar = true)
    (empty : some "" ∈ o.neededTexts) (file : String) :
    ∃ type, SearchSpec.ofFile file (textOfBytes spec.xml.toUTF8) =
      .error (.searchMalformed file (.emptyString type)) := by
  obtain ⟨c, member, lacks⟩ := exists_lacksText accepted empty
  obtain ⟨d, first⟩ : ∃ d, spec.conditions.find? Condition.lacksText = some d := by
    rw [← Option.isSome_iff_exists, List.find?_isSome]
    exact ⟨c, member, lacks⟩
  have refused : SearchSpec.ofXml spec.xml = .error (.emptyString d.kind.name) := by
    rw [SearchSpec.ofXml_xml_eq_readSearch (conditions_of_spec accepted).1,
      if_pos (isWritable_of_spec accepted legal), SearchSpec.readSearch_element_eq,
      SearchSpec.mapM_readCondition, first]
    rfl
  refine ⟨d.kind.name, ?_⟩
  rw [textOfBytes_toUTF8]
  simp only [SearchSpec.ofFile, Except.mapError, bind, Except.bind, refused]

def emptyDisk : World where
  content _ := .error .notFound
  writable _ := .ok ()
  stopwatch := "0.0"
  logFilter? := none
  clock _ := "12:00"
  logLine := LogRecord.line

/-- Any letters, none of them one that a document has to escape, in a group that is not retired. -/
def escapedOptions : SearchOptions where
  pattern := some ""
  excluded := some "<\"&\n'>"
  group := some "Hook Words"
  length := some "2-7"
  any := true

def escapedSearch : SearchSpec where
  conditions := [
    .ofText .patternMatch "",
    (Condition.ofText .includesLetters "<\"&\n'>").negate,
    .ofText .belongsToGroup "Hook Words",
    .ofRange .length 2 7]
  conjunction := false

theorem load_saved_escaped :
    ∃ text,
      ((CommandLine.saveSearch escapedSearch (some "search.xml") (.exit 0)).run emptyDisk).saved =
          [("search.xml", text)] ∧
        SearchSpec.ofFile "search.xml" (textOfBytes text.toUTF8) = .ok escapedSearch := by
  have accepted : escapedOptions.spec = .ok escapedSearch := by decide +kernel
  have legal : ∀ text, some text ∈ escapedOptions.texts → text.toList.all Xml.isChar = true := by
    intro text given
    have named : text = "" ∨ text = "<\"&\n'>" ∨ text = "Hook Words" := by
      simpa [escapedOptions, texts] using given
    obtain rfl | rfl | rfl := named <;> decide
  obtain ⟨text, saved, _, same⟩ :=
    load_saved accepted legal (by decide) emptyDisk "search.xml" rfl (.exit 0)
  refine ⟨text, saved, same fun group named => ?_⟩
  obtain rfl : "Hook Words" = group := Option.some.inj named
  decide

/-- A retired group is accepted and saved, and it is loaded as the lexicon before it. -/
theorem not_load_saved_retired :
    ¬∀ (o : SearchOptions) (spec : SearchSpec) (file : String), o.spec = .ok spec →
      (∀ text, some text ∈ o.texts → text.toList.all Xml.isChar = true) →
        SearchSpec.ofFile file (textOfBytes spec.xml.toUTF8) = .ok spec := by
  intro keeps
  have accepted : spec { group := some "New in OWL2" } =
      .ok { conditions := [.ofText .belongsToGroup "New in OWL2"] } := rfl
  have legal : ∀ text, some text ∈ texts { group := some "New in OWL2" } →
      text.toList.all Xml.isChar = true := by
    intro text given
    have named : text = "New in OWL2" := by simpa [texts] using given
    rw [named]
    decide
  have kept := keeps _ _ "search.xml" accepted legal
  rw [ofFile_saved accepted legal (by decide) "search.xml"] at kept
  exact absurd kept (by decide)

end SearchOptions

end WordFinder
