import Mathlib
import WordFinder.Proofs.SavedSearch.RoundTrip

/-!
# Loaded searches

What every condition of a search is like that a document gave, under whatever names and version, and
what is left of it when the search is saved and loaded once more. A condition that was upgraded
forgets that it was, and a retired name for a negated condition lets a text be empty that the current
name does not.
-/
set_option autoImplicit false

namespace WordFinder

open SavedSearch

namespace Condition

structure IsLoaded (c : Condition) : Prop where
  /-- Only the mark of an upgrade is not a value that the kind reads. -/
  payloadOnly : c.payloadOnly = { c with legacy := false }
  current : c.namesRetiredGroup = false
  /-- Only a retired name for a negated condition lets its text be missing. -/
  text : c.lacksText = true → c.negated = true

end Condition

namespace SavedSearch

theorem bind_eq_ok {ε α β : Type} {x : Except ε α} {f : α → Except ε β} {b : β}
    (read : (x >>= f) = .ok b) : ∃ a, x = .ok a ∧ f a = .ok b := by
  cases x with
  | error e => exact absurd read (by simp [bind, Except.bind])
  | ok a => exact ⟨a, rfl, read⟩

theorem ne_belongsToGroup {kind : ConditionKind} (payload : kind.payload ≠ .text) :
    kind ≠ .belongsToGroup := by
  rintro rfl
  exact payload rfl

theorem isLoaded_of_text {kind : ConditionKind} {string : String} {negated : Bool}
    (payload : kind.payload = .text)
    (current : kind = .belongsToGroup → retiredGroups.lookup string = none)
    (text : (!kind.isMatch && string.isEmpty) = true → negated = true) :
    Condition.IsLoaded { kind, string, negated } := by
  refine ⟨?_, ?_, ?_⟩
  · simp [Condition.payloadOnly, payload]
  · simpa [Condition.namesRetiredGroup] using current
  · simpa [Condition.lacksText, payload] using text

theorem isLoaded_of_values {c : Condition} (payload : c.kind.payload ≠ .text)
    (payloadOnly : c.payloadOnly = { c with legacy := false }) : c.IsLoaded := by
  refine ⟨payloadOnly, ?_, ?_⟩
  · simp [Condition.namesRetiredGroup, ne_belongsToGroup payload]
  · simp [Condition.lacksText, payload]

theorem checked_eq_ok {missing : Bool} {e : SavedSearchError} {a b : Condition}
    (read : (if missing then .error e else .ok a) = Except.ok b) : missing = false ∧ a = b := by
  cases missing with
  | true => exact absurd read (by simp)
  | false => exact ⟨rfl, Except.ok.inj read⟩

theorem isLoaded_readText {e : Xml.Element} {kind : ConditionKind} {type : String} {c : Condition}
    (payload : kind.payload = .text) (read : readText e kind type = .ok c) : c.IsLoaded := by
  obtain ⟨string, _, read⟩ := bind_eq_ok read
  obtain ⟨present, result⟩ := checked_eq_ok read
  by_cases group : kind = .belongsToGroup
  · rw [if_pos group] at present result
    rw [replaceRetiredGroup] at present result
    split at result
    · next lexicon retired =>
      rw [retired, group] at present
      rw [← result]
      refine isLoaded_of_text rfl (fun same => absurd same (by decide)) ?_
      intro missing
      exact absurd (missing.symm.trans present) (by decide)
    · next unretired =>
      rw [unretired] at present
      rw [← result]
      refine isLoaded_of_text payload (fun _ => unretired) ?_
      intro missing
      exact absurd (missing.symm.trans present) (by decide)
  · rw [if_neg group] at present result
    rw [← result]
    refine isLoaded_of_text payload (fun same => absurd same group) ?_
    intro missing
    exact absurd (missing.symm.trans present) (by decide)

theorem isLoaded_ofRange {kind : ConditionKind} (payload : kind.payload = .range)
    (min max : Int32) : (Condition.ofRange kind min max).IsLoaded := by
  refine isLoaded_of_values (by simp [Condition.ofRange, payload]) ?_
  simp [Condition.payloadOnly, Condition.ofRange, payload]

theorem isLoaded_readRange {e : Xml.Element} {before c : Condition} {type : String}
    (payload : before.kind.payload ≠ .text)
    (payloadOnly : ∀ min max, Condition.payloadOnly { before with min, max } =
      { before with min, max, legacy := false })
    (read : readRange e before type = .ok c) : c.IsLoaded := by
  obtain ⟨min, _, read⟩ := bind_eq_ok read
  obtain ⟨max, _, read⟩ := bind_eq_ok read
  rw [← Except.ok.inj read]
  exact isLoaded_of_values payload (payloadOnly min max)

theorem isLoaded_readPercentage {e : Xml.Element} {kind : ConditionKind} {type : String}
    {c : Condition} (payload : kind.payload = .percentage)
    (read : readPercentage e kind type = .ok c) : c.IsLoaded := by
  obtain ⟨string, _, read⟩ := bind_eq_ok read
  dsimp only at read
  split at read
  · rw [← Except.ok.inj read]
    refine isLoaded_of_values (by simp [payload]) ?_
    simp [Condition.payloadOnly, payload]
  · refine isLoaded_readRange (by simp [payload]) ?_ read
    intro min max
    simp [Condition.payloadOnly, payload]

theorem isLoaded_readKind {e : Xml.Element} {kind : ConditionKind} {type : String} {c : Condition}
    (read : readKind e kind type = .ok c) : c.IsLoaded := by
  rw [readKind] at read
  cases payload : kind.payload with
  | text =>
    rw [payload] at read
    exact isLoaded_readText payload read
  | range =>
    rw [payload] at read
    refine isLoaded_readRange (by simp [payload]) ?_ read
    intro min max
    simp [Condition.payloadOnly, payload]
  | probability =>
    rw [payload] at read
    obtain ⟨before, readBefore, read⟩ := bind_eq_ok read
    obtain ⟨blanks, _, read⟩ := bind_eq_ok read
    obtain ⟨min, _, readBefore⟩ := bind_eq_ok readBefore
    obtain ⟨max, _, readBefore⟩ := bind_eq_ok readBefore
    rw [← Except.ok.inj read, ← Except.ok.inj readBefore]
    refine isLoaded_of_values (by simp [payload]) ?_
    simp [Condition.payloadOnly, payload]
  | order =>
    rw [payload] at read
    obtain ⟨blanks, _, read⟩ := bind_eq_ok read
    refine isLoaded_readRange (by simp [payload]) ?_ read
    intro min max
    simp [Condition.payloadOnly, payload]
  | percentage =>
    rw [payload] at read
    exact isLoaded_readPercentage payload read

/-- Whether a retired name stands for a condition that the current format can write. -/
def RetiredName.isWritten : RetiredName → Bool
  | .alias _ => true
  | .negated kind => kind.payload = .text && kind != .belongsToGroup
  | .numbered kind _ => kind.payload = .range

theorem isWritten_of_lookup {type : String} {retired : RetiredName}
    (found : retiredNames.lookup type = some retired) : retired.isWritten = true := by
  have every : ∀ entry ∈ retiredNames, entry.2.isWritten = true := by decide
  obtain ⟨before, after, split, _⟩ := List.lookup_eq_some_iff.mp found
  exact every (type, retired) (by simp [split])

theorem isLoaded_readRetired {e : Xml.Element} {type : String} {retired : RetiredName}
    {c : Condition} (written : retired.isWritten = true)
    (read : readRetired e type retired = .ok c) : c.IsLoaded := by
  cases retired with
  | «alias» kind => exact isLoaded_readKind read
  | negated kind =>
    obtain ⟨string, _, read⟩ := bind_eq_ok read
    simp only [RetiredName.isWritten, Bool.and_eq_true, decide_eq_true_eq, bne_iff_ne] at written
    rw [← Except.ok.inj read]
    exact isLoaded_of_text written.1 (fun same => absurd same written.2) fun _ => rfl
  | numbered kind shape =>
    obtain ⟨n, _, read⟩ := bind_eq_ok read
    rw [← Except.ok.inj read]
    exact isLoaded_ofRange (by simpa [RetiredName.isWritten] using written) _ _

theorem isLoaded_readCondition {e : Xml.Element} {c : Condition}
    (read : readCondition e = .ok c) : c.IsLoaded := by
  obtain ⟨_, _, read⟩ := bind_eq_ok read
  obtain ⟨type, _, read⟩ := bind_eq_ok read
  split at read
  · exact isLoaded_readKind read
  · next retired _ found => exact isLoaded_readRetired (isWritten_of_lookup found) read
  · exact absurd read (by simp [throw, throwThe, MonadExceptOf.throw])

theorem isLoaded_of_mapM {elements : List Xml.Element} {conditions : List Condition}
    (read : elements.mapM readCondition = .ok conditions) : ∀ c ∈ conditions, c.IsLoaded := by
  induction elements generalizing conditions with
  | nil =>
    rw [← Except.ok.inj read]
    simp
  | cons e elements ih =>
    rw [List.mapM_cons] at read
    obtain ⟨first, readFirst, read⟩ := bind_eq_ok read
    obtain ⟨others, readOthers, read⟩ := bind_eq_ok read
    rw [← Except.ok.inj read]
    intro c member
    rcases List.mem_cons.mp member with rfl | member
    · exact isLoaded_readCondition readFirst
    · exact ih readOthers c member

end SavedSearch

/-! ## Upgrades -/

namespace Upgrade

theorem isLoaded_apply {u : Upgrade} (known : u ∈ all) {c : Condition} (loaded : c.IsLoaded) :
    (u.apply c).IsLoaded := by
  rw [all, List.mem_singleton] at known
  subst known
  by_cases order : c.kind = probabilityOrderLimit.kind
  · have payload : c.kind.payload = .order := by
      rw [order]
      rfl
    have string : "" = c.string := by
      simpa [Condition.payloadOnly, payload] using congrArg Condition.string loaded.payloadOnly
    have negated : false = c.negated := by
      simpa [Condition.payloadOnly, payload] using congrArg Condition.negated loaded.payloadOnly
    rw [apply, if_pos order]
    refine SavedSearch.isLoaded_of_values (by simp [probabilityOrderLimit, ConditionKind.payload]) ?_
    simp [Condition.payloadOnly, probabilityOrderLimit, ConditionKind.payload, ← string, ← negated]
  · rw [apply, if_neg order]
    exact loaded

theorem isLoaded_applyAll {conditions : List Condition} (loaded : ∀ c ∈ conditions, c.IsLoaded)
    (version : Nat) : ∀ c ∈ applyAll version conditions, c.IsLoaded := by
  refine List.foldlRecOn (motive := fun cs : List Condition => ∀ c ∈ cs, c.IsLoaded) _ _ loaded ?_
  intro conditions loaded u member c changed
  obtain ⟨d, dMember, rfl⟩ := List.mem_map.mp changed
  exact isLoaded_apply (List.mem_of_mem_filter member) (loaded d dMember)

theorem length_applyAll (version : Nat) (conditions : List Condition) :
    (applyAll version conditions).length = conditions.length := by
  refine List.foldlRecOn (motive := fun cs : List Condition => cs.length = conditions.length) _ _ rfl ?_
  intro changed same u _
  rw [List.length_map, same]

end Upgrade

namespace SearchSpec

theorem isLoaded_upgraded {spec : SearchSpec} (loaded : ∀ c ∈ spec.conditions, c.IsLoaded) :
    ∀ c ∈ spec.upgraded.conditions, c.IsLoaded := by
  refine List.foldlRecOn (motive := fun cs : List Condition => ∀ c ∈ cs, c.IsLoaded) _ _ loaded ?_
  intro conditions loaded version _
  exact Upgrade.isLoaded_applyAll loaded version

theorem length_upgraded (spec : SearchSpec) :
    spec.upgraded.conditions.length = spec.conditions.length := by
  refine List.foldlRecOn (motive := fun cs : List Condition => cs.length = spec.conditions.length) _ _ rfl ?_
  intro conditions same version _
  rw [Upgrade.length_applyAll, same]

theorem isLoaded_ofXml {text : String} {spec : SearchSpec}
    (loaded : SearchSpec.ofXml text = .ok spec) :
    spec.conditions ≠ [] ∧ ∀ c ∈ spec.conditions, c.IsLoaded := by
  obtain ⟨e, _, read⟩ := bind_eq_ok loaded
  obtain ⟨_, _, read⟩ := bind_eq_ok read
  obtain ⟨version, _, read⟩ := bind_eq_ok read
  obtain ⟨list, _, read⟩ := bind_eq_ok read
  obtain ⟨_, _, read⟩ := bind_eq_ok read
  obtain ⟨join, _, read⟩ := bind_eq_ok read
  obtain ⟨conjunction, _, read⟩ := bind_eq_ok read
  obtain ⟨conditions, readConditions, read⟩ := bind_eq_ok read
  by_cases empty : conditions.isEmpty = true
  · rw [if_pos empty] at read
    exact absurd read (by simp [throw, throwThe, MonadExceptOf.throw, bind, Except.bind])
  · rw [if_neg empty] at read
    rw [← Except.ok.inj read]
    refine ⟨?_, isLoaded_upgraded (isLoaded_of_mapM readConditions)⟩
    rw [← List.length_pos_iff, length_upgraded, List.length_pos_iff]
    simpa using empty

/-- Saving and loading a loaded search takes nothing from it but the marks of upgrades, unless the
saved search is no document or lacks a text. -/
theorem ofXml_xml_of_loaded {text : String} {spec : SearchSpec}
    (loaded : SearchSpec.ofXml text = .ok spec) :
    SearchSpec.ofXml spec.xml =
      if spec.conditions.all Condition.isWritable then spec.readBack else .error .notXml :=
  ofXml_xml_eq (isLoaded_ofXml loaded).1 fun c member => ((isLoaded_ofXml loaded).2 c member).current

end SearchSpec

structure Condition.IsKept (c : Condition) : Prop where
  legacy : c.legacy = false
  text : c.lacksText = false
  legal : c.string.toList.all Xml.isChar = true

instance (c : Condition) : Decidable c.IsKept :=
  decidable_of_iff
    (c.legacy = false ∧ c.lacksText = false ∧ c.string.toList.all Xml.isChar = true)
    ⟨fun ⟨legacy, text, legal⟩ => ⟨legacy, text, legal⟩,
      fun kept => ⟨kept.legacy, kept.text, kept.legal⟩⟩

namespace Condition.IsLoaded

theorem isWritable_eq {c : Condition} (loaded : c.IsLoaded) :
    c.isWritable = c.string.toList.all Xml.isChar :=
  isWritable_iff (by rw [loaded.payloadOnly])

theorem payloadOnly_eq_iff {c : Condition} (loaded : c.IsLoaded) :
    c.payloadOnly = c ↔ c.legacy = false := by
  rw [loaded.payloadOnly]
  constructor
  · intro same
    rw [← same]
  · intro unmarked
    rw [← unmarked]

end Condition.IsLoaded

/-- A loaded search is the same after saving and loading exactly if each condition is kept. -/
theorem SearchSpec.isKept_iff {text : String} {spec : SearchSpec}
    (loaded : SearchSpec.ofXml text = .ok spec) :
    (∃ again, SearchSpec.ofXml spec.xml = .ok again ∧ again.conditions = spec.conditions ∧
        again.conjunction = spec.conjunction) ↔
      ∀ c ∈ spec.conditions, c.IsKept := by
  have conditions := (isLoaded_ofXml loaded).2
  rw [ofXml_xml_of_loaded loaded]
  constructor
  · rintro ⟨again, read, same, _⟩ c member
    by_cases writable : spec.conditions.all Condition.isWritable = true
    · rw [if_pos writable] at read
      obtain ⟨text, kept, _⟩ := eq_of_readBack read
      rw [same] at kept
      have unchanged : c.payloadOnly = c :=
        List.map_inj_left.mp (kept.symm.trans (List.map_id _).symm) c member
      refine ⟨(conditions c member).payloadOnly_eq_iff.mp unchanged, text c member, ?_⟩
      rw [← (conditions c member).isWritable_eq]
      exact List.all_eq_true.mp writable c member
    · rw [if_neg writable] at read
      exact absurd read (by simp)
  · intro kept
    have writable : spec.conditions.all Condition.isWritable = true := by
      rw [List.all_eq_true]
      intro c member
      rw [(conditions c member).isWritable_eq, (kept c member).legal]
    have unchanged : spec.conditions.map Condition.payloadOnly = spec.conditions := by
      refine (List.map_congr_left ?_).trans (List.map_id _)
      intro c member
      exact (conditions c member).payloadOnly_eq_iff.mpr (kept c member).legacy
    rw [if_pos writable, readBack_of_text fun c member => (kept c member).text]
    exact ⟨_, rfl, unchanged, rfl⟩

/-- A retired name lets the text of a negated condition be empty, and the saved search is refused. -/
theorem SearchSpec.not_isKept_empty_text :
    ∃ text spec, SearchSpec.ofXml text = .ok spec ∧
      ¬∃ again, SearchSpec.ofXml spec.xml = .ok again ∧ again.conditions = spec.conditions ∧
        again.conjunction = spec.conjunction := by
  have loaded : SearchSpec.ofXml ("<zyzzyva-search version=\"1\"><conditions><and>" ++
      "<condition type=\"Does Not Take Prefix\" string=\"\"/>" ++
      "</and></conditions></zyzzyva-search>") =
        .ok { conditions := [{ kind := .takesPrefix, negated := true }] } := by
    decide +kernel
  refine ⟨_, _, loaded, ?_⟩
  rw [SearchSpec.isKept_iff loaded]
  decide

/-- A rank of version 0 is upgraded when it is loaded, and the mark of the upgrade is not saved. -/
theorem SearchSpec.upgrade_not_kept :
    ¬∀ text spec, SearchSpec.ofXml text = .ok spec →
      ∃ again, SearchSpec.ofXml spec.xml = .ok again ∧ again.conditions = spec.conditions ∧
        again.conjunction = spec.conjunction := by
  intro keeps
  have loaded : SearchSpec.ofXml ("<zyzzyva-search version=\"0\"><conditions><and>" ++
      "<condition type=\"Probability Order\" min=\"1\" max=\"2\"/>" ++
      "</and></conditions></zyzzyva-search>") =
        .ok { conditions :=
          [{ kind := .probabilityOrderLimit, min := 1, max := 2, blanks := 2, legacy := true }] } := by
    decide +kernel
  obtain ⟨again, read, same, _⟩ := keeps _ _ loaded
  rw [ofXml_xml_of_loaded loaded, if_pos (by decide)] at read
  rw [(eq_of_readBack read).2.1] at same
  exact absurd same (by decide)

end WordFinder
