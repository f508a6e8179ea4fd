import Mathlib
import WordFinder.Xml.Markup

/-!
# Written tags

Tags as a writer spells them: one space before each attribute and values between double quotes.
Reading such a tag gives back the tag that was written, unless a value holds a character that a
document may not hold; then the text is refused.
-/
set_option autoImplicit false

namespace WordFinder.Xml

/-! ## Names -/

def IsPlainName (name : String) : Prop :=
  startsName name.toList = true ∧ name.toList.all isNamePart = true

instance (name : String) : Decidable (IsPlainName name) :=
  inferInstanceAs (Decidable (startsName name.toList = true ∧ name.toList.all isNamePart = true))

def EndsName (c : Char) : Prop :=
  isNamePart c = false ∧ c ≠ ':'

theorem isPlainName_head {name : String} (plain : IsPlainName name) :
    ∃ c cs, name.toList = c :: cs ∧ isNameStart c = true := by
  obtain ⟨starts, _⟩ := plain
  cases chars : name.toList with
  | nil =>
    rw [chars] at starts
    exact absurd starts (by decide)
  | cons c cs =>
    rw [chars] at starts
    exact ⟨c, cs, rfl, starts⟩

theorem isNameStart_ne {c d : Char} (starts : isNameStart c = true) (other : isNameStart d = false) :
    c ≠ d := by
  intro same
  rw [same, other] at starts
  exact absurd starts (by decide)

theorem isSpace_of_isNameStart {c : Char} (starts : isNameStart c = true) : isSpace c = false := by
  have noBlank := isNameStart_ne starts (show isNameStart ' ' = false by decide)
  have noTab := isNameStart_ne starts (show isNameStart '\t' = false by decide)
  have noFeed := isNameStart_ne starts (show isNameStart '\n' = false by decide)
  have noReturn := isNameStart_ne starts (show isNameStart '\r' = false by decide)
  simp [isSpace, noBlank, noTab, noFeed, noReturn]

theorem takeWhile_isNamePart {name : String} (plain : IsPlainName name) {c : Char}
    (ends : EndsName c) (rest : List Char) :
    (name.toList ++ c :: rest).takeWhile isNamePart = name.toList := by
  rw [List.takeWhile_append_of_pos (List.all_eq_true.mp plain.2),
    List.takeWhile_cons_of_neg (by simp [ends.1]), List.append_nil]

theorem dropWhile_isNamePart {name : String} (plain : IsPlainName name) {c : Char}
    (ends : EndsName c) (rest : List Char) :
    (name.toList ++ c :: rest).dropWhile isNamePart = c :: rest := by
  rw [List.dropWhile_append_of_pos (List.all_eq_true.mp plain.2),
    List.dropWhile_cons_of_neg (by simp [ends.1])]

theorem qname?_plain {name : String} (plain : IsPlainName name) {c : Char} (ends : EndsName c)
    (rest : List Char) :
    qname? (name.toList ++ c :: rest) = some (⟨"", name⟩, c :: rest) := by
  rw [qname?, takeWhile_isNamePart plain ends, dropWhile_isNamePart plain ends]
  split
  · next colon =>
    cases colon
    exact absurd rfl ends.2
  · rw [if_pos plain.1, String.ofList_toList]

/-! ## Attributes -/

/-- The characters that a value between quotes may hold. -/
def isValueChar (c : Char) : Bool :=
  isChar c && c != '<'

def WrittenAttribute.chars (a : WrittenAttribute) : List Char :=
  ' ' :: (a.name.local.toList ++ '=' :: '"' :: (a.text ++ ['"']))

structure WrittenAttribute.IsPlain (a : WrittenAttribute) : Prop where
  noPrefix : a.name.pfx = ""
  name : IsPlainName a.name.local
  noQuote : '"' ∉ a.text

def WrittenAttribute.isLegal (a : WrittenAttribute) : Bool :=
  a.text.all isValueChar

theorem quoted_text (allowed : Char → Bool) {text : List Char} (noQuote : '"' ∉ text)
    (rest : List Char) :
    quoted allowed ('"' :: (text ++ '"' :: rest)) =
      if text.all allowed then some (text, rest) else none := by
  have inside : ∀ c ∈ text, (c != '"') = true := by
    intro c member
    rw [bne_iff_ne]
    intro same
    exact noQuote (same ▸ member)
  have taken : (text ++ '"' :: rest).takeWhile (· != '"') = text := by
    rw [List.takeWhile_append_of_pos inside, List.takeWhile_cons_of_neg (by decide), List.append_nil]
  have dropped : (text ++ '"' :: rest).dropWhile (· != '"') = '"' :: rest := by
    rw [List.dropWhile_append_of_pos inside, List.dropWhile_cons_of_neg (by decide)]
  simp only [quoted, beq_self_eq_true, Bool.true_or, if_true, taken, dropped]

theorem skipSpaces_name {name : String} (plain : IsPlainName name) (rest : List Char) :
    skipSpaces (' ' :: (name.toList ++ rest)) = name.toList ++ rest := by
  obtain ⟨c, cs, chars, starts⟩ := isPlainName_head plain
  rw [skipSpaces, List.dropWhile_cons_of_pos (by decide), chars, List.cons_append,
    List.dropWhile_cons_of_neg (by simp [isSpace_of_isNameStart starts])]

theorem tagRest_attribute {a : WrittenAttribute} (plain : a.IsPlain) (fuel : Nat)
    (rest : List Char) :
    tagRest (fuel + 1) (a.chars ++ rest) =
      if a.isLegal then
        (tagRest fuel rest).map fun (attributes, ending, rest) => (a :: attributes, ending, rest)
      else none := by
  obtain ⟨⟨pfx, name⟩, text⟩ := a
  obtain ⟨noPrefix, plainName, noQuote⟩ := plain
  dsimp only at noPrefix plainName noQuote
  subst noPrefix
  have spaces := skipSpaces_name plainName ('=' :: '"' :: (text ++ '"' :: rest))
  have value : quoted (fun c => isChar c && c != '<') ('"' :: (text ++ '"' :: rest)) =
      if text.all isValueChar then some (text, rest) else none := quoted_text _ noQuote rest
  have named := qname?_plain plainName (c := '=') ⟨by decide, by decide⟩
    ('"' :: (text ++ '"' :: rest))
  obtain ⟨c, cs, chars, starts⟩ := isPlainName_head plainName
  have noSlash := isNameStart_ne starts (show isNameStart '/' = false by decide)
  have noClose := isNameStart_ne starts (show isNameStart '>' = false by decide)
  have whole : (WrittenAttribute.mk ⟨"", name⟩ text).chars ++ rest =
      ' ' :: (name.toList ++ '=' :: '"' :: (text ++ '"' :: rest)) := by
    simp [WrittenAttribute.chars]
  have equals : expectEquals ('=' :: '"' :: (text ++ '"' :: rest)) =
      some ('"' :: (text ++ '"' :: rest)) := rfl
  have spaced : expectSpaces (' ' :: (name.toList ++ '=' :: '"' :: (text ++ '"' :: rest))) =
      some (name.toList ++ '=' :: '"' :: (text ++ '"' :: rest)) := by
    rw [expectSpaces, if_pos (by decide)]
    exact congrArg some spaces
  rw [whole, tagRest.eq_3 _ _ (by simp)]
  rw [spaces]
  split
  · next slash =>
    rw [chars, List.cons_append, List.cons.injEq] at slash
    exact absurd slash.1 noSlash
  · next close =>
    rw [chars, List.cons_append, List.cons.injEq] at close
    exact absurd close.1 noClose
  · simp only [spaced, named, equals, value, WrittenAttribute.isLegal, Option.bind_eq_bind,
      Option.bind_some]
    by_cases legal : text.all isValueChar = true
    · simp only [legal, if_true, Option.bind_some]
      cases tagRest fuel rest <;> rfl
    · simp only [legal, if_false, Option.bind_none, Bool.false_eq_true]

/-! ## Tags -/

def TagEnding.chars : TagEnding → List Char
  | .content => ['>']
  | .empty => ['/', '>']
  | .cutOff => []

/-- A start tag whose names and quotes are read as they are written and that ends in its text. -/
structure StartTag.IsPlain (tag : StartTag) : Prop where
  noPrefix : tag.name.pfx = ""
  name : IsPlainName tag.name.local
  attributes : ∀ a ∈ tag.attributes, a.IsPlain
  complete : tag.ending ≠ .cutOff

/-- Whether all values of a tag hold only characters that may stand in a value. -/
def StartTag.isLegal (tag : StartTag) : Bool :=
  tag.attributes.all WrittenAttribute.isLegal

def StartTag.chars (tag : StartTag) : List Char :=
  '<' :: (tag.name.local.toList ++ (tag.attributes.flatMap WrittenAttribute.chars
    ++ tag.ending.chars))

theorem tagRest_ending {ending : TagEnding} (complete : ending ≠ .cutOff) (fuel : Nat)
    (rest : List Char) :
    tagRest (fuel + 1) (ending.chars ++ rest) = some ([], ending, rest) := by
  cases ending with
  | content => rfl
  | empty => rfl
  | cutOff => exact absurd rfl complete

theorem tagRest_attributes {attributes : List WrittenAttribute} {ending : TagEnding}
    (plain : ∀ a ∈ attributes, a.IsPlain) (complete : ending ≠ .cutOff) {fuel : Nat}
    (enough : attributes.length < fuel) (rest : List Char) :
    tagRest fuel (attributes.flatMap WrittenAttribute.chars ++ (ending.chars ++ rest)) =
      if attributes.all WrittenAttribute.isLegal then some (attributes, ending, rest)
      else none := by
  induction attributes generalizing fuel with
  | nil =>
    obtain ⟨fuel, rfl⟩ := Nat.exists_eq_add_one_of_ne_zero (Nat.ne_of_gt enough)
    exact tagRest_ending complete fuel rest
  | cons a attributes ih =>
    rw [List.length_cons] at enough
    obtain ⟨fuel, rfl⟩ := Nat.exists_eq_add_one_of_ne_zero (Nat.ne_zero_of_lt enough)
    have others := ih (fun b member => plain b (List.mem_cons_of_mem _ member))
      (Nat.lt_of_succ_lt_succ enough)
    rw [List.flatMap_cons, List.append_assoc, tagRest_attribute (plain a (List.mem_cons_self ..)),
      others, List.all_cons]
    cases a.isLegal <;> cases attributes.all WrittenAttribute.isLegal <;> rfl

theorem length_le_attributeChars (attributes : List WrittenAttribute) :
    attributes.length ≤ (attributes.flatMap WrittenAttribute.chars).length := by
  induction attributes with
  | nil => exact Nat.le_refl _
  | cons a attributes ih =>
    simp only [List.flatMap_cons, List.length_append, List.length_cons, WrittenAttribute.chars]
    omega

theorem endsName_after (attributes : List WrittenAttribute) {ending : TagEnding}
    (complete : ending ≠ .cutOff) (rest : List Char) :
    ∃ c cs, attributes.flatMap WrittenAttribute.chars ++ (ending.chars ++ rest) = c :: cs ∧
      EndsName c := by
  cases attributes with
  | cons a attributes => exact ⟨' ', _, rfl, by decide, by decide⟩
  | nil =>
    cases ending with
    | content => exact ⟨'>', _, rfl, by decide, by decide⟩
    | empty => exact ⟨'/', _, rfl, by decide, by decide⟩
    | cutOff => exact absurd rfl complete

/-- A start tag is read as it was written, or refused for a character of one of its values. -/
theorem startTag?_chars {tag : StartTag} (plain : tag.IsPlain) (rest : List Char) :
    startTag? (tag.chars ++ rest) = if tag.isLegal then some (tag, rest) else none := by
  obtain ⟨⟨pfx, name⟩, attributes, ending⟩ := tag
  obtain ⟨noPrefix, plainName, plainAttributes, complete⟩ := plain
  dsimp only at noPrefix plainName plainAttributes complete
  subst noPrefix
  obtain ⟨c, cs, after, ends⟩ := endsName_after attributes complete rest
  have named := qname?_plain plainName ends cs
  have enough : attributes.length < (c :: cs).length + 1 := by
    rw [← after, List.length_append]
    have := length_le_attributeChars attributes
    omega
  have read := tagRest_attributes plainAttributes complete enough rest
  have whole : (StartTag.mk ⟨"", name⟩ attributes ending).chars ++ rest =
      '<' :: (name.toList ++ c :: cs) := by
    simp only [StartTag.chars, List.cons_append, List.append_assoc, ← after]
  have opened : expect "<" ('<' :: (name.toList ++ c :: cs)) = some (name.toList ++ c :: cs) := rfl
  rw [after] at read
  simp only [startTag?, whole, opened, named, read, StartTag.isLegal, Option.bind_eq_bind,
    Option.bind_some]
  by_cases legal : attributes.all WrittenAttribute.isLegal = true
  · simp only [legal, if_true, Option.bind_some, Option.pure_def]
  · simp only [legal, if_false, Option.bind_none, Bool.false_eq_true]

def endTagChars (name : QName) : List Char :=
  '<' :: '/' :: (name.local.toList ++ ['>'])

theorem endTag?_chars {name : QName} (noPrefix : name.pfx = "") (plain : IsPlainName name.local)
    (rest : List Char) : endTag? (endTagChars name ++ rest) = some (name, rest) := by
  obtain ⟨pfx, name⟩ := name
  dsimp only at noPrefix plain
  subst noPrefix
  have named := qname?_plain plain (c := '>') ⟨by decide, by decide⟩ rest
  have whole : endTagChars ⟨"", name⟩ ++ rest = '<' :: '/' :: (name.toList ++ '>' :: rest) := by
    simp [endTagChars]
  have opened : expect "</" ('<' :: '/' :: (name.toList ++ '>' :: rest)) =
      some (name.toList ++ '>' :: rest) := rfl
  have closed : expect ">" (skipSpaces ('>' :: rest)) = some rest := rfl
  simp only [endTag?, whole, opened, named, closed, Option.bind_eq_bind, Option.bind_some]
  rfl

end WordFinder.Xml
