import Mathlib
import WordFinder.SearchString
import WordFinder.Proofs.Text.Upper

/-!
# The units of a canonical spelling

The canonical spelling of a search string has the units of the string, each in its tidy form. Units
never hold white space, a bracket only ever opens or closes a class, and no two stars meet: such
pieces are read back from what they are written as.
-/
set_option autoImplicit false

namespace WordFinder

namespace Text

theorem toUpper_eq_iff {c mark : Char} (notLetter : mark.isAlpha = false) :
    c.toUpper = mark ↔ c = mark := by
  cases letter : c.isAlpha with
  | false =>
    have notLower : ¬c.isLower = true := by
      intro lower
      rw [Char.isAlpha, lower, Bool.or_true] at letter
      contradiction
    rw [Char.toUpper_eq_of_not_isLower notLower]
  | true =>
    constructor
    · intro same
      rw [← same, Char.isAlpha_toUpper_eq_isAlpha, letter] at notLetter
      contradiction
    · intro same
      rw [same, notLetter] at letter
      contradiction

theorem isBlank_of_isUpper {c : Char} (capital : c.isUpper = true) : isBlank c = false := by
  obtain ⟨low, high⟩ := toNat_of_isUpper capital
  simp only [isBlank, Bool.or_eq_false_iff, Bool.and_eq_false_iff, decide_eq_false_iff_not,
    beq_eq_false_iff_ne]
  omega

theorem isBlank_toUpper (c : Char) : isBlank c.toUpper = isBlank c := by
  by_cases lower : c.isLower = true
  · have capital : c.toUpper.isUpper = true := by
      rw [Char.isUpper_toUpper_eq_isAlpha, Char.isAlpha, lower, Bool.or_true]
    rw [isBlank_of_isUpper capital]
    simp only [Char.isLower, ge_iff_le, decide_eq_true_eq, UInt32.le_iff_toNat_le,
      Bool.and_eq_true] at lower
    have low : 97 ≤ c.toNat := lower.1
    have high : c.toNat ≤ 122 := lower.2
    symm
    simp only [isBlank, Bool.or_eq_false_iff, Bool.and_eq_false_iff, decide_eq_false_iff_not,
      beq_eq_false_iff_ne]
    omega
  · rw [Char.toUpper_eq_of_not_isLower lower]

end Text

namespace SearchString

open Text (isBlank)

def Piece.written : Piece → List Char
  | .plain c => [c]
  | .letterClass members => '[' :: members ++ [']']
  | .unclosed members => '[' :: members

def Piece.tidied : Piece → Piece
  | .plain c => .plain (if c = '.' then '?' else c.toUpper)
  | .letterClass members => .letterClass (canonicalMembers members)
  | .unclosed members => .unclosed (members.map Char.toUpper)

theorem Piece.canonical_eq (piece : Piece) : piece.canonical = piece.tidied.written := by
  cases piece with
  | plain c =>
    by_cases dot : c = '.'
    · subst dot
      rfl
    · rw [Piece.tidied, if_neg dot, Piece.written, Piece.canonical]
      intro same
      exact dot same
  | letterClass members => rfl
  | unclosed members => rfl

def AreMembers (members : List Char) : Prop :=
  ∀ c ∈ members, isBlank c = false ∧ c ≠ ']'

/-- Pieces that a search string can have: no white space, a bracket only as part of a class, and a
class that is not closed only at the end. -/
def ArePieces : List Piece → Prop
  | [] => True
  | .plain c :: pieces => (isBlank c = false ∧ c ≠ '[') ∧ ArePieces pieces
  | .letterClass members :: pieces => AreMembers members ∧ ArePieces pieces
  | .unclosed members :: pieces => AreMembers members ∧ pieces = []

def HasNoStarRun (pieces : List Piece) : Prop :=
  pieces.IsChain fun first second => ¬(first = .plain '*' ∧ second = .plain '*')

/-! ## Pieces that were read -/

theorem arePieces_piecesFrom (members? : Option (List Char)) (s : List Char)
    (areMembers : ∀ members, members? = some members → AreMembers members) :
    ArePieces (piecesFrom members? s) := by
  induction s generalizing members? with
  | nil =>
    cases members? with
    | none => trivial
    | some members =>
      refine ⟨fun c member => ?_, rfl⟩
      exact areMembers members rfl c (List.mem_reverse.mp member)
  | cons c s ih =>
    cases members? with
    | none =>
      simp only [piecesFrom]
      split_ifs with blank opens
      · exact ih none (by simp)
      · refine ih (some []) fun members same => ?_
        cases same
        exact fun c member => absurd member List.not_mem_nil
      · exact ⟨⟨Bool.eq_false_iff.mpr blank, opens⟩, ih none (by simp)⟩
    | some members =>
      have known := areMembers members rfl
      simp only [piecesFrom]
      split_ifs with blank closes
      · exact ih (some members) areMembers
      · exact ⟨fun c member => known c (List.mem_reverse.mp member), ih none (by simp)⟩
      · refine ih (some (c :: members)) fun members' same => ?_
        cases same
        intro d member
        rcases List.mem_cons.mp member with rfl | member
        · exact ⟨Bool.eq_false_iff.mpr blank, closes⟩
        · exact known d member

theorem head?_collapseStars (pieces : List Piece) :
    (collapseStars pieces).head? = pieces.head? := by
  fun_induction collapseStars pieces with
  | case1 pieces ih => rw [ih, List.head?_cons, List.head?_cons]
  | case2 piece pieces _ ih => rfl
  | case3 => rfl

theorem arePieces_collapseStars {pieces : List Piece} (arePieces : ArePieces pieces) :
    ArePieces (collapseStars pieces) := by
  fun_induction collapseStars pieces with
  | case1 pieces ih => exact ih arePieces.2
  | case2 piece pieces _ ih =>
    cases piece with
    | plain c => exact ⟨arePieces.1, ih arePieces.2⟩
    | letterClass members => exact ⟨arePieces.1, ih arePieces.2⟩
    | unclosed members =>
      obtain ⟨areMembers, last⟩ := arePieces
      subst last
      exact ⟨areMembers, rfl⟩
  | case3 => trivial

theorem hasNoStarRun_collapseStars (pieces : List Piece) :
    HasNoStarRun (collapseStars pieces) := by
  fun_induction collapseStars pieces with
  | case1 pieces ih => exact ih
  | case2 piece pieces noRun ih =>
    rw [HasNoStarRun, List.isChain_cons]
    refine ⟨?_, ih⟩
    rintro second first ⟨rfl, rfl⟩
    rw [head?_collapseStars] at first
    obtain ⟨rest, rfl⟩ : ∃ rest, pieces = .plain '*' :: rest := by
      cases pieces with
      | nil => simp at first
      | cons head rest => simp_all
    exact noRun rest rfl rfl
  | case3 => exact List.isChain_nil

theorem arePieces_units (s : List Char) : ArePieces (units s) :=
  arePieces_collapseStars (arePieces_piecesFrom none s (by simp))

/-! ## Pieces that are written -/

theorem piecesFrom_members {members : List Char} (areMembers : AreMembers members)
    (before s : List Char) :
    piecesFrom (some before) (members ++ s) = piecesFrom (some (members.reverse ++ before)) s := by
  induction members generalizing before with
  | nil => rfl
  | cons c members ih =>
    obtain ⟨notBlank, notClosing⟩ := areMembers c List.mem_cons_self
    have rest := ih (fun d member => areMembers d (List.mem_cons_of_mem c member)) (c :: before)
    rw [List.cons_append, piecesFrom, notBlank, if_neg Bool.false_ne_true, if_neg notClosing, rest,
      List.reverse_cons, List.append_assoc, List.singleton_append]

theorem piecesFrom_written {pieces : List Piece} (arePieces : ArePieces pieces) :
    piecesFrom none (pieces.flatMap Piece.written) = pieces := by
  have openBracket : isBlank '[' = false := by decide
  have closeBracket : isBlank ']' = false := by decide
  induction pieces with
  | nil => rfl
  | cons piece pieces ih =>
    rw [List.flatMap_cons]
    cases piece with
    | plain c =>
      obtain ⟨⟨notBlank, notOpening⟩, rest⟩ := arePieces
      rw [Piece.written, List.singleton_append, piecesFrom, notBlank, if_neg Bool.false_ne_true,
        if_neg notOpening, ih rest]
    | letterClass members =>
      obtain ⟨areMembers, rest⟩ := arePieces
      simp only [Piece.written, List.cons_append, List.append_assoc, List.nil_append, piecesFrom,
        openBracket, Bool.false_eq_true, if_false, if_true]
      rw [piecesFrom_members areMembers, piecesFrom, closeBracket, if_neg Bool.false_ne_true,
        if_pos rfl, ih rest, List.append_nil, List.reverse_reverse]
    | unclosed members =>
      obtain ⟨areMembers, rfl⟩ := arePieces
      simp only [Piece.written, List.flatMap_nil, List.cons_append, piecesFrom, openBracket,
        Bool.false_eq_true, if_false, if_true]
      rw [piecesFrom_members areMembers, piecesFrom, List.append_nil, List.reverse_reverse]

theorem collapseStars_eq_self {pieces : List Piece} (noRun : HasNoStarRun pieces) :
    collapseStars pieces = pieces := by
  fun_induction collapseStars pieces with
  | case1 pieces ih =>
    rw [HasNoStarRun, List.isChain_cons_cons] at noRun
    exact absurd ⟨rfl, rfl⟩ noRun.1
  | case2 piece pieces _ ih => rw [ih (List.IsChain.tail noRun)]
  | case3 => rfl

/-! ## Tidy pieces -/

theorem mem_canonicalMembers {members : List Char} {c : Char} :
    c ∈ canonicalMembers members ↔ c ∈ members.map Char.toUpper := by
  unfold canonicalMembers
  split <;> simp_all [sortedLetters, List.mem_eraseDups]

theorem toUpper_of_mem_canonicalMembers {members : List Char} {c : Char}
    (member : c ∈ canonicalMembers members) : c.toUpper = c := by
  obtain ⟨d, _, rfl⟩ := List.mem_map.mp (mem_canonicalMembers.mp member)
  exact Char.toUpper_toUpper_eq_toUpper d

theorem areMembers_map_toUpper {members : List Char} (areMembers : AreMembers members) :
    AreMembers (members.map Char.toUpper) := by
  intro c member
  obtain ⟨d, listed, rfl⟩ := List.mem_map.mp member
  obtain ⟨notBlank, notClosing⟩ := areMembers d listed
  rw [Text.isBlank_toUpper, ne_eq, Text.toUpper_eq_iff (by decide)]
  exact ⟨notBlank, notClosing⟩

theorem areMembers_canonicalMembers {members : List Char} (areMembers : AreMembers members) :
    AreMembers (canonicalMembers members) := fun c member =>
  areMembers_map_toUpper areMembers c (mem_canonicalMembers.mp member)

theorem arePieces_map_tidied {pieces : List Piece} (arePieces : ArePieces pieces) :
    ArePieces (pieces.map Piece.tidied) := by
  induction pieces with
  | nil => trivial
  | cons piece pieces ih =>
    cases piece with
    | plain c =>
      obtain ⟨⟨notBlank, notOpening⟩, rest⟩ := arePieces
      refine ⟨?_, ih rest⟩
      by_cases dot : c = '.'
      · rw [if_pos dot]
        decide
      · rw [if_neg dot, Text.isBlank_toUpper, ne_eq, Text.toUpper_eq_iff (by decide)]
        exact ⟨notBlank, notOpening⟩
    | letterClass members => exact ⟨areMembers_canonicalMembers arePieces.1, ih arePieces.2⟩
    | unclosed members =>
      obtain ⟨areMembers, rfl⟩ := arePieces
      exact ⟨areMembers_map_toUpper areMembers, rfl⟩

theorem tidied_eq_star_iff (piece : Piece) : piece.tidied = .plain '*' ↔ piece = .plain '*' := by
  cases piece with
  | plain c =>
    rw [Piece.tidied, Piece.plain.injEq, Piece.plain.injEq]
    by_cases dot : c = '.'
    · subst dot
      decide
    · rw [if_neg dot, Text.toUpper_eq_iff (by decide)]
  | letterClass members => simp [Piece.tidied]
  | unclosed members => simp [Piece.tidied]

theorem hasNoStarRun_map_tidied {pieces : List Piece} (noRun : HasNoStarRun pieces) :
    HasNoStarRun (pieces.map Piece.tidied) := by
  rw [HasNoStarRun, List.isChain_map]
  simp only [tidied_eq_star_iff]
  exact noRun

theorem toList_canonical (s : String) :
    (canonical s).toList = ((units s.toList).map Piece.tidied).flatMap Piece.written := by
  rw [canonical, String.toList_ofList, List.flatMap_map]
  congr 1
  funext piece
  exact piece.canonical_eq

theorem units_canonical (s : String) :
    units (canonical s).toList = (units s.toList).map Piece.tidied := by
  have noRun : HasNoStarRun ((units s.toList).map Piece.tidied) :=
    hasNoStarRun_map_tidied (hasNoStarRun_collapseStars _)
  rw [toList_canonical, units, piecesFrom_written (arePieces_map_tidied (arePieces_units s.toList)),
    collapseStars_eq_self noRun]

end SearchString

end WordFinder
