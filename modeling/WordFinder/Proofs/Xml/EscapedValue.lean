import Mathlib
import WordFinder.Proofs.Xml.WrittenTag
import WordFinder.Xml.Element
import WordFinder.Xml.Value

/-!
# Escaped values

The value of an escaped text is the text that was escaped, whatever its characters. The escaped text
itself holds no mark of the language but ampersands, and it may stand in a tag exactly if a document
may hold each character of the text.
-/
set_option autoImplicit false

namespace WordFinder.Xml

theorem escapeChar_of_lookup_none {c : Char} (unmarked : references.lookup c = none) :
    escapeChar c = [c] := by
  rw [escapeChar, unmarked]

theorem ne_of_lookup_none {c d : Char} (unmarked : references.lookup c = none)
    (marked : (references.lookup d).isSome = true) : c ≠ d := by
  intro same
  rw [same] at unmarked
  rw [unmarked] at marked
  exact absurd marked (by decide)

theorem escapeChar_cases {p : Char → Prop} (amp : p '&') (lt : p '<') (gt : p '>') (quot : p '"')
    (apos : p '\'') (feed : p '\n') (ret : p '\r') (tab : p '\t')
    (other : ∀ c, references.lookup c = none → p c) (c : Char) : p c := by
  cases found : references.lookup c with
  | none => exact other c found
  | some reference =>
    have known : c ∈ references.map Prod.fst := by
      obtain ⟨before, after, split, _⟩ := List.lookup_eq_some_iff.mp found
      rw [split]
      simp
    simp only [references, List.map_cons, List.map_nil, List.mem_cons, List.not_mem_nil,
      or_false] at known
    rcases known with rfl | rfl | rfl | rfl | rfl | rfl | rfl | rfl
    · exact amp
    · exact lt
    · exact gt
    · exact quot
    · exact apos
    · exact feed
    · exact ret
    · exact tab

theorem valueFrom_escapeChar (entities : Entities)
    (readEntity : Nat → List Char → Option (List Char × Nat)) (left : Nat) (rest : List Char)
    (c : Char) :
    valueFrom entities false readEntity 0 left (escapeChar c ++ rest) =
      (valueFrom entities false readEntity 0 left rest).map fun (value, left) =>
        (c :: value, left) := by
  induction c using escapeChar_cases with
  | other c unmarked =>
    have noAmp := ne_of_lookup_none unmarked (d := '&') (by decide)
    have noReturn := ne_of_lookup_none unmarked (d := '\r') (by decide)
    have noFeed := ne_of_lookup_none unmarked (d := '\n') (by decide)
    have noTab := ne_of_lookup_none unmarked (d := '\t') (by decide)
    have kept : foldSpace c = c := by
      simp [foldSpace, noReturn, noFeed, noTab]
    rw [escapeChar_of_lookup_none unmarked, List.singleton_append, valueFrom, if_neg noAmp,
      if_neg (by simp [noReturn]), kept]
  | _ => rfl

theorem valueFrom_escape (entities : Entities)
    (readEntity : Nat → List Char → Option (List Char × Nat)) (left : Nat) (cs : List Char) :
    valueFrom entities false readEntity 0 left (cs.flatMap escapeChar) = some (cs, left) := by
  induction cs with
  | nil => rfl
  | cons c cs ih =>
    rw [List.flatMap_cons, valueFrom_escapeChar, ih]
    rfl

/-- References of the document itself do not count, so what is left to spend stays. -/
theorem valueAt_escape (entities : Entities) (left : Nat) (s : String) :
    valueAt entities maxEntityDepth left (escape s).toList = some (s.toList, left) := by
  rw [escape, String.toList_ofList]
  exact valueFrom_escape entities _ left s.toList

theorem escapeChar_shape (c : Char) :
    (∃ replacement ∈ references, escapeChar c = replacement.2.toList) ∨
      (∀ replacement ∈ references, replacement.1 ≠ c) ∧ escapeChar c = [c] := by
  cases found : references.lookup c with
  | none =>
    refine Or.inr ⟨fun replacement member => ?_, escapeChar_of_lookup_none found⟩
    exact (bne_iff_ne.mp (List.lookup_eq_none_iff.mp found replacement member)).symm
  | some reference =>
    obtain ⟨before, after, split, _⟩ := List.lookup_eq_some_iff.mp found
    refine Or.inl ⟨(c, reference), by rw [split]; simp, ?_⟩
    rw [escapeChar, found]

/-- Of the characters that have references, escaped text holds the ampersand alone. -/
theorem notMem_escape {replacement : Char × String} (member : replacement ∈ references)
    (notAmp : replacement.1 ≠ '&') (s : String) : replacement.1 ∉ (escape s).toList := by
  have apart : ∀ replacement ∈ references, ∀ other ∈ references, replacement.1 ≠ '&' →
      replacement.1 ∉ other.2.toList := by decide
  rw [escape, String.toList_ofList, List.mem_flatMap]
  rintro ⟨c, _, written⟩
  rcases escapeChar_shape c with ⟨other, listed, shape⟩ | ⟨unmarked, shape⟩
  · rw [shape] at written
    exact apart replacement member other listed notAmp written
  · rw [shape, List.mem_singleton] at written
    exact unmarked replacement member written

theorem noQuote_escape (s : String) : '"' ∉ (escape s).toList := by
  have member : ('"', "&quot;") ∈ references := by decide
  exact notMem_escape member (by decide) s

theorem all_isValueChar_escapeChar (c : Char) : (escapeChar c).all isValueChar = isChar c := by
  induction c using escapeChar_cases with
  | other c unmarked =>
    have noLess := ne_of_lookup_none unmarked (d := '<') (by decide)
    rw [escapeChar_of_lookup_none unmarked]
    simp [isValueChar, noLess]
  | _ => decide

theorem all_isValueChar_escape (s : String) :
    (escape s).toList.all isValueChar = s.toList.all isChar := by
  rw [escape, String.toList_ofList, List.all_flatMap]
  congr 1
  funext c
  exact all_isValueChar_escapeChar c

/-! ## The attributes of a tag -/

def escapedAttribute (a : String × String) : WrittenAttribute :=
  ⟨⟨"", a.1⟩, (escape a.2).toList⟩

theorem chars_escapedAttribute (a : String × String) :
    (escapedAttribute a).chars = (attributeText a).toList := by
  obtain ⟨name, value⟩ := a
  simp [escapedAttribute, WrittenAttribute.chars, attributeText]

theorem isPlain_escapedAttribute {a : String × String} (plain : IsPlainName a.1) :
    (escapedAttribute a).IsPlain :=
  ⟨rfl, plain, noQuote_escape a.2⟩

theorem isLegal_escapedAttribute (a : String × String) :
    (escapedAttribute a).isLegal = a.2.toList.all isChar := by
  rw [WrittenAttribute.isLegal, escapedAttribute, all_isValueChar_escape]

end WordFinder.Xml
