import Mathlib
import WordFinder.Proofs.Xml.EscapedValue
import WordFinder.Xml.Escape

/-!
# Escaping and its inverse

Escaped text is plain except for its references: no mark of the language is left, and every
ampersand begins a reference. So one pass that replaces each reference by its character gives back
the text. The escaped text is also what comes out if the eight characters are replaced one after the
other, each in the whole of the text so far, because no reference holds a character that is replaced
after it was written.
-/
set_option autoImplicit false

namespace WordFinder.Xml

/-! ## One character after the other -/

def replaced (mark : Char) (reference s : String) : String :=
  .ofList (s.toList.flatMap fun c => if c = mark then reference.toList else [c])

/-- A text with the characters replaced one after the other, each in what the earlier replacements
left. -/
def escapedInTurn (s : String) : String :=
  references.foldl (fun text replacement => replaced replacement.1 replacement.2 text) s

def writtenWith (replacements : List (Char × String)) (c : Char) : List Char :=
  match replacements.lookup c with
  | some reference => reference.toList
  | none => [c]

theorem writtenWith_of_notMem {replacements : List (Char × String)} {c : Char}
    (unmarked : ∀ later ∈ replacements, later.1 ≠ c) : writtenWith replacements c = [c] := by
  have missing : replacements.lookup c = none := by
    rw [List.lookup_eq_none_iff]
    intro later member
    exact bne_iff_ne.mpr (unmarked later member).symm
  rw [writtenWith, missing]

theorem writtenWith_cons (mark : Char) (reference : String)
    (replacements : List (Char × String)) (c : Char) :
    writtenWith ((mark, reference) :: replacements) c =
      if c = mark then reference.toList else writtenWith replacements c := by
  rw [writtenWith, List.lookup_cons]
  by_cases same : c = mark
  · rw [if_pos same, beq_iff_eq.mpr same]
  · rw [if_neg same, beq_eq_false_iff_ne.mpr same]
    rfl

/-- Replacing in turn is replacing at once, if what is written never holds a character that is
replaced later. -/
theorem foldl_replaced {replacements : List (Char × String)}
    (apart : replacements.Pairwise fun earlier later => later.1 ∉ earlier.2.toList) (s : String) :
    replacements.foldl (fun text replacement => replaced replacement.1 replacement.2 text) s =
      .ofList (s.toList.flatMap (writtenWith replacements)) := by
  induction replacements generalizing s with
  | nil =>
    have same : s.toList.flatMap (writtenWith []) = s.toList := List.flatMap_singleton' _
    rw [List.foldl_nil, same, String.ofList_toList]
  | cons replacement replacements ih =>
    obtain ⟨mark, reference⟩ := replacement
    obtain ⟨later, others⟩ := List.pairwise_cons.mp apart
    have kept : reference.toList.flatMap (writtenWith replacements) = reference.toList := by
      refine (List.flatMap_congr fun c member => ?_).trans (List.flatMap_singleton' _)
      refine writtenWith_of_notMem fun other listed same => ?_
      exact later other listed (same ▸ member)
    rw [List.foldl_cons, ih others, ← String.toList_inj, String.toList_ofList,
      String.toList_ofList, replaced, String.toList_ofList, List.flatMap_assoc]
    congr 1
    funext c
    rw [writtenWith_cons]
    split_ifs
    · exact kept
    · exact List.flatMap_singleton ..

theorem escape_eq_escapedInTurn (s : String) : escape s = escapedInTurn s := by
  rw [escapedInTurn, foldl_replaced (by decide)]
  rfl

/-! ## References back to characters -/

/-- The reference that a text begins with, and its character. -/
def referenceAt? (cs : List Char) : Option (Char × String) :=
  references.find? fun (_, reference) => reference.toList.isPrefixOf cs

/-- A text with each reference replaced by its character in one pass, of which the first `skip`
characters belong to a reference already replaced. -/
def unescapedFrom : Nat → List Char → List Char
  | _, [] => []
  | skip + 1, _ :: cs => unescapedFrom skip cs
  | 0, c :: cs =>
    match referenceAt? (c :: cs) with
    | some (mark, reference) => mark :: unescapedFrom (reference.length - 1) cs
    | none => c :: unescapedFrom 0 cs

def unescape (s : String) : String :=
  .ofList (unescapedFrom 0 s.toList)

/-- A reference begins with its only ampersand. -/
theorem exists_body_of_mem {replacement : Char × String} (member : replacement ∈ references) :
    ∃ body, replacement.2.toList = '&' :: body ∧ '&' ∉ body := by
  have every : ∀ replacement ∈ references,
      replacement.2.toList.head? = some '&' ∧ '&' ∉ replacement.2.toList.tail := by decide
  obtain ⟨first, others⟩ := every replacement member
  obtain ⟨body, shape⟩ := List.head?_eq_some_iff.mp first
  rw [shape] at others
  exact ⟨body, shape, others⟩

theorem referenceAt?_of_ne {c : Char} (notAmp : c ≠ '&') (cs : List Char) :
    referenceAt? (c :: cs) = none := by
  rw [referenceAt?, List.find?_eq_none]
  intro replacement member begins
  obtain ⟨body, shape, _⟩ := exists_body_of_mem member
  rw [List.isPrefixOf_iff_prefix, shape, List.cons_prefix_cons] at begins
  exact notAmp begins.1.symm

theorem unescapedFrom_escapeChar (c : Char) (rest : List Char) :
    unescapedFrom 0 (escapeChar c ++ rest) = c :: unescapedFrom 0 rest := by
  induction c using escapeChar_cases with
  | other c unmarked =>
    rw [escapeChar_of_lookup_none unmarked, List.singleton_append, unescapedFrom,
      referenceAt?_of_ne (ne_of_lookup_none unmarked (by decide))]
  | _ => rfl

theorem unescape_escape (s : String) : unescape (escape s) = s := by
  rw [unescape, escape, String.toList_ofList, ← String.toList_inj, String.toList_ofList]
  induction s.toList with
  | nil => rfl
  | cons c cs ih => rw [List.flatMap_cons, unescapedFrom_escapeChar, ih]

/-! ## What is left of the marks -/

theorem eq_nil_of_escapeChar {c : Char} {before after : List Char}
    (amp : escapeChar c = before ++ '&' :: after) :
    before = [] ∧ ∃ replacement ∈ references, replacement.2.toList = '&' :: after := by
  have holds : '&' ∈ escapeChar c := by simp [amp]
  rcases escapeChar_shape c with ⟨replacement, member, shape⟩ | ⟨unmarked, shape⟩
  · obtain ⟨body, first, others⟩ := exists_body_of_mem member
    rw [shape, first] at amp
    cases before with
    | nil => exact ⟨rfl, replacement, member, first.trans amp⟩
    | cons d before =>
      have later : body = before ++ '&' :: after := (List.cons.inj amp).2
      simp [later] at others
  · rw [shape, List.mem_singleton] at holds
    exact absurd holds (unmarked ('&', "&amp;") (by decide))

theorem reference_of_amp {cs before after : List Char}
    (amp : cs.flatMap escapeChar = before ++ '&' :: after) :
    ∃ replacement ∈ references, replacement.2.toList <+: '&' :: after := by
  induction cs generalizing before with
  | nil => simp at amp
  | cons c cs ih =>
    rw [List.flatMap_cons, List.append_eq_append_iff] at amp
    rcases amp with ⟨inside, _, rest⟩ | ⟨inside, shape, rest⟩
    · exact ih rest
    · -- the ampersand is written for this character unless it is the first of what follows
      cases inside with
      | nil =>
        have whole : cs.flatMap escapeChar = [] ++ '&' :: after := rest.symm
        exact ih whole
      | cons d inside =>
        obtain ⟨rfl, rfl⟩ := List.cons.inj rest
        obtain ⟨_, replacement, member, whole⟩ := eq_nil_of_escapeChar shape
        exact ⟨replacement, member, cs.flatMap escapeChar, by rw [whole]; rfl⟩

/-- Escaping can be undone: of the marks only the ampersands of references are left, and replacing
the references in one pass gives back the text, as reading the value of an attribute does. The eight
characters may as well be replaced one after the other. -/
theorem escape_invertible (s : String) :
    (∀ mark ∈ ['<', '>', '"', '\'', '\t', '\n', '\r'], mark ∉ (escape s).toList) ∧
      (∀ before after, (escape s).toList = before ++ '&' :: after →
        ∃ replacement ∈ references, replacement.2.toList <+: '&' :: after) ∧
      unescape (escape s) = s ∧ escape s = escapedInTurn s ∧
      ∀ entities left,
        valueAt entities maxEntityDepth left (escape s).toList = some (s.toList, left) := by
  refine ⟨fun mark listed => ?_, fun before after amp => ?_, unescape_escape s,
    escape_eq_escapedInTurn s, fun entities left => valueAt_escape entities left s⟩
  · have marked : (∃ reference, (mark, reference) ∈ references) ∧ mark ≠ '&' := by
      revert mark
      simp [references]
    obtain ⟨⟨reference, member⟩, notAmp⟩ := marked
    exact notMem_escape member notAmp s
  · rw [escape, String.toList_ofList] at amp
    exact reference_of_amp amp

/-- A text that looks escaped already is escaped again. -/
theorem escape_invertible_again :
    escape "&lt;\"\t" = "&amp;lt;&quot;&#9;" ∧ unescape "&amp;lt;&quot;&#9;" = "&lt;\"\t" ∧
      '"' ∉ "&amp;lt;&quot;&#9;".toList := by
  have written : escape "&lt;\"\t" = "&amp;lt;&quot;&#9;" := by decide
  obtain ⟨noMark, _, inverse, _⟩ := escape_invertible "&lt;\"\t"
  rw [written] at noMark inverse
  exact ⟨written, inverse, noMark '"' (by simp)⟩

end WordFinder.Xml
