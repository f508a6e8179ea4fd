import Mathlib
import WordFinder.Proofs.Xml.WrittenTag

/-!
# Written content

Markup as a writer spells it, with nothing but white space between tags. The markup up to the tag
that brings the tags into balance is read as it was written, or the text is refused because a value
holds a character that a document may not hold.
-/
set_option autoImplicit false

namespace WordFinder.Xml

def Markup.chars : Markup → List Char
  | .startTag tag => tag.chars
  | .endTag name => endTagChars name
  | .text cs => cs

def Markup.isLegal : Markup → Bool
  | .startTag tag => tag.isLegal
  | .endTag _ => true
  | .text _ => true

def Markup.isTag : Markup → Bool
  | .startTag _ => true
  | .endTag _ => true
  | .text _ => false

def Markup.IsPlain : Markup → Prop
  | .startTag tag => tag.IsPlain
  | .endTag name => name.pfx = "" ∧ IsPlainName name.local
  | .text cs => cs ≠ [] ∧ ∀ c ∈ cs, isSpace c = true

def IsPlainContent : List Markup → Prop
  | [] => True
  | piece :: pieces =>
    piece.IsPlain ∧ (piece.isTag = false → pieces.head?.any Markup.isTag = true) ∧
      IsPlainContent pieces

/-- Whether the last of some open elements is closed at the end of the markup, and not before. -/
def ClosesAtEnd : Nat → List Markup → Prop
  | depth, [] => depth = 0
  | depth, piece :: pieces => depth ≠ 0 ∧ ClosesAtEnd (piece.depthAfter depth) pieces

theorem isSpace_ne {c d : Char} (space : isSpace c = true) (other : isSpace d = false) : c ≠ d := by
  intro same
  rw [same, other] at space
  exact absurd space (by decide)

theorem isChar_of_isSpace {c : Char} (space : isSpace c = true) : isChar c = true := by
  simp only [isSpace, Bool.or_eq_true, beq_iff_eq] at space
  rcases space with ((rfl | rfl) | rfl) | rfl <;> decide

theorem upTo_sectionEnd_of_spaces {cs : List Char} (spaces : ∀ c ∈ cs, isSpace c = true) :
    upTo "]]>" cs = none := by
  induction cs with
  | nil => rfl
  | cons c cs ih =>
    have other := isSpace_ne (spaces c (List.mem_cons_self ..)) (show isSpace ']' = false by decide)
    have unmarked : "]]>".toList.isPrefixOf (c :: cs) = false := by
      rw [show "]]>".toList = [']', ']', '>'] from rfl, List.isPrefixOf_cons_cons]
      simp [Ne.symm other]
    rw [upTo, unmarked, ih fun d member => spaces d (List.mem_cons_of_mem _ member)]
    rfl

theorem nextMarkup?_startTag {tag : StartTag} (plain : tag.IsPlain) (rest : List Char) :
    nextMarkup? (tag.chars ++ rest) =
      if tag.isLegal then some (some (.startTag tag), rest) else none := by
  have read := startTag?_chars plain rest
  obtain ⟨c, cs, chars, starts⟩ := isPlainName_head plain.name
  have noSlash := isNameStart_ne starts (show isNameStart '/' = false by decide)
  have noBang := isNameStart_ne starts (show isNameStart '!' = false by decide)
  have noQuestion := isNameStart_ne starts (show isNameStart '?' = false by decide)
  obtain ⟨more, whole⟩ : ∃ more, tag.chars ++ rest = '<' :: c :: more := by
    rw [StartTag.chars, chars]
    exact ⟨_, rfl⟩
  rw [whole] at read ⊢
  rw [nextMarkup?.eq_4 _ (fun _ same => noSlash (List.cons.inj same).1)
    (fun _ same => noBang (List.cons.inj same).1)
    (fun _ same => noQuestion (List.cons.inj same).1), read]
  split <;> rfl

theorem nextMarkup?_endTag {name : QName} (noPrefix : name.pfx = "")
    (plain : IsPlainName name.local) (rest : List Char) :
    nextMarkup? (endTagChars name ++ rest) = some (some (.endTag name), rest) := by
  have read := endTag?_chars noPrefix plain rest
  obtain ⟨more, whole⟩ : ∃ more, endTagChars name ++ rest = '<' :: '/' :: more := ⟨_, rfl⟩
  rw [whole] at read ⊢
  rw [nextMarkup?, read]
  rfl

theorem nextMarkup?_spaces {cs : List Char} (nonempty : cs ≠ [])
    (spaces : ∀ c ∈ cs, isSpace c = true) (rest : List Char) :
    nextMarkup? (cs ++ '<' :: rest) = some (some (.text cs), '<' :: rest) := by
  have inside : ∀ c ∈ cs, (c != '<') = true := fun c member =>
    bne_iff_ne.mpr (isSpace_ne (spaces c member) (by decide))
  have taken : (cs ++ '<' :: rest).takeWhile (· != '<') = cs := by
    rw [List.takeWhile_append_of_pos inside, List.takeWhile_cons_of_neg (by decide), List.append_nil]
  have dropped : (cs ++ '<' :: rest).dropWhile (· != '<') = '<' :: rest := by
    rw [List.dropWhile_append_of_pos inside, List.dropWhile_cons_of_neg (by decide)]
  have legal : cs.all isChar = true :=
    List.all_eq_true.mpr fun c member => isChar_of_isSpace (spaces c member)
  obtain ⟨c, more, rfl⟩ := List.exists_cons_of_ne_nil nonempty
  have noTag : ∀ more', c :: (more ++ '<' :: rest) ≠ '<' :: more' := fun _ same =>
    isSpace_ne (spaces c (List.mem_cons_self ..)) (by decide) (List.cons.inj same).1
  rw [nextMarkup?.eq_5]
  · rw [taken, dropped, legal, upTo_sectionEnd_of_spaces spaces]
    rfl
  · exact fun _ => noTag _
  · exact fun _ => noTag _
  · exact fun _ => noTag _
  · exact fun _ => noTag _

/-- What follows a text is a tag, so it begins with the mark of one. -/
theorem chars_of_isTag {pieces : List Markup} (tagged : pieces.head?.any Markup.isTag = true)
    (rest : List Char) :
    ∃ more, pieces.flatMap Markup.chars ++ rest = '<' :: more := by
  cases pieces with
  | nil => exact absurd tagged (by decide)
  | cons piece pieces =>
    cases piece with
    | startTag tag => exact ⟨_, rfl⟩
    | endTag name => exact ⟨_, rfl⟩
    | text cs => exact absurd tagged (by simp [Markup.isTag])

theorem nextMarkup?_chars {piece : Markup} {pieces : List Markup}
    (plain : IsPlainContent (piece :: pieces)) (rest : List Char) :
    nextMarkup? ((piece :: pieces).flatMap Markup.chars ++ rest) =
      if piece.isLegal then some (some piece, pieces.flatMap Markup.chars ++ rest) else none := by
  obtain ⟨plainPiece, follows, _⟩ := plain
  rw [List.flatMap_cons, List.append_assoc]
  cases piece with
  | startTag tag => exact nextMarkup?_startTag plainPiece _
  | endTag name => exact nextMarkup?_endTag plainPiece.1 plainPiece.2 _
  | text cs =>
    obtain ⟨more, after⟩ := chars_of_isTag (follows rfl) rest
    rw [after]
    exact nextMarkup?_spaces plainPiece.1 plainPiece.2 more

theorem chars_ne_nil {piece : Markup} (plain : piece.IsPlain) : piece.chars ≠ [] := by
  cases piece with
  | startTag tag => exact List.cons_ne_nil _ _
  | endTag name => exact List.cons_ne_nil _ _
  | text cs => exact plain.1

theorem length_le_chars {pieces : List Markup} (plain : IsPlainContent pieces) :
    pieces.length ≤ (pieces.flatMap Markup.chars).length := by
  induction pieces with
  | nil => exact Nat.le_refl _
  | cons piece pieces ih =>
    have nonempty := List.length_pos_of_ne_nil (chars_ne_nil plain.1)
    have others := ih plain.2.2
    rw [List.flatMap_cons, List.length_append, List.length_cons]
    omega

/-- The induction is on the pieces; the depth never falls to zero before the last of them, so each
piece is read by one step of the reader. -/
theorem markupFrom_chars {pieces : List Markup} (plain : IsPlainContent pieces) {depth : Nat}
    (closes : ClosesAtEnd depth pieces) {fuel : Nat} (enough : pieces.length < fuel)
    (rest : List Char) :
    markupFrom fuel (some depth) (pieces.flatMap Markup.chars ++ rest) =
      if pieces.all Markup.isLegal then some (pieces, rest) else none := by
  induction pieces generalizing depth fuel with
  | nil =>
    obtain ⟨fuel, rfl⟩ := Nat.exists_eq_add_one_of_ne_zero (Nat.ne_of_gt enough)
    rw [show depth = 0 from closes, markupFrom]
    simp
  | cons piece pieces ih =>
    rw [List.length_cons] at enough
    obtain ⟨fuel, rfl⟩ := Nat.exists_eq_add_one_of_ne_zero (Nat.ne_zero_of_lt enough)
    have next := nextMarkup?_chars plain rest
    have others := ih plain.2.2 closes.2 (Nat.lt_of_succ_lt_succ enough)
    have nonempty : ((piece :: pieces).flatMap Markup.chars ++ rest).isEmpty = false := by
      rw [List.isEmpty_eq_false_iff, List.flatMap_cons, List.append_assoc]
      exact List.append_ne_nil_of_left_ne_nil (chars_ne_nil plain.1) _
    have inside : (some depth == some 0) = false := by
      simpa using closes.1
    rw [markupFrom, nonempty, inside, next]
    simp only [Bool.or_false, Bool.false_eq_true, if_false, List.all_cons]
    by_cases legal : piece.isLegal = true
    · simp only [legal, if_true, Bool.true_and, Option.bind_eq_bind, Option.bind_some,
        Option.map_some, others]
      by_cases allLegal : pieces.all Markup.isLegal = true
      · simp only [allLegal, if_true, Option.bind_some, Option.pure_def]
      · simp only [allLegal, if_false, Option.bind_none, Bool.false_eq_true]
    · simp only [legal, if_false, Option.bind_eq_bind, Option.bind_none, Bool.false_eq_true,
        Bool.false_and]

end WordFinder.Xml
