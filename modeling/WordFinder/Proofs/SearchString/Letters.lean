import Mathlib
import WordFinder.Proofs.SearchString.Units

/-!
# The letters of a canonical spelling

The canonical spelling of a search string has the letters of the string, in upper case. Outside
classes they stand in the same order and as often.
-/
set_option autoImplicit false

namespace WordFinder.SearchString

def lettersOf (s : List Char) : List Char :=
  (s.filter Char.isAlpha).map Char.toUpper

theorem lettersOf_append (first second : List Char) :
    lettersOf (first ++ second) = lettersOf first ++ lettersOf second := by
  rw [lettersOf, List.filter_append, List.map_append, lettersOf, lettersOf]

theorem mem_lettersOf {s : List Char} {c : Char} :
    c ∈ lettersOf s ↔ c.isUpper = true ∧ c ∈ s.map Char.toUpper := by
  rw [lettersOf, List.mem_map, List.mem_map]
  constructor
  · intro holds
    obtain ⟨d, member, rfl⟩ := holds
    obtain ⟨member, letter⟩ := List.mem_filter.mp member
    exact ⟨by rwa [Char.isUpper_toUpper_eq_isAlpha], d, member, rfl⟩
  · intro holds
    obtain ⟨capital, d, member, rfl⟩ := holds
    rw [Char.isUpper_toUpper_eq_isAlpha] at capital
    exact ⟨d, List.mem_filter.mpr ⟨member, capital⟩, rfl⟩

theorem lettersOf_flatMap_written (pieces : List Piece) :
    lettersOf (pieces.flatMap Piece.written) =
      pieces.flatMap fun piece => lettersOf piece.written := by
  rw [lettersOf, List.filter_flatMap, List.map_flatMap]
  rfl

theorem lettersOf_collapseStars (pieces : List Piece) :
    lettersOf ((collapseStars pieces).flatMap Piece.written) =
      lettersOf (pieces.flatMap Piece.written) := by
  fun_induction collapseStars pieces with
  | case1 pieces ih =>
    rw [ih, List.flatMap_cons, List.flatMap_cons, List.flatMap_cons, lettersOf_append,
      lettersOf_append, lettersOf_append]
    rfl
  | case2 piece pieces _ ih =>
    rw [List.flatMap_cons, List.flatMap_cons, lettersOf_append, lettersOf_append, ih]
  | case3 => rfl

theorem lettersOf_piecesFrom (members? : Option (List Char)) (s : List Char) :
    lettersOf ((piecesFrom members? s).flatMap Piece.written) =
      lettersOf (members?.getD []).reverse ++ lettersOf s := by
  have blankLetters {c : Char} (blank : Text.isBlank c = true) : lettersOf [c] = [] := by
    rw [List.eq_nil_iff_forall_not_mem]
    intro d member
    obtain ⟨capital, member⟩ := mem_lettersOf.mp member
    rw [List.map_singleton, List.mem_singleton] at member
    rw [member] at capital
    rw [← Text.isBlank_toUpper, Text.isBlank_of_isUpper capital] at blank
    contradiction
  have cons (c : Char) (s : List Char) : lettersOf (c :: s) = lettersOf [c] ++ lettersOf s := by
    rw [← lettersOf_append, List.singleton_append]
  have opening : lettersOf ['['] = [] := rfl
  have closing : lettersOf [']'] = [] := rfl
  fun_induction piecesFrom members? s with
  | case1 => rfl
  | case2 members =>
    simp only [List.flatMap_cons, List.flatMap_nil, Piece.written, Option.getD_some,
      List.append_nil]
    rw [cons, opening, List.nil_append]
    exact (List.append_nil _).symm
  | case3 c s blank ih => rw [ih, cons c s, blankLetters blank]
                          rfl
  | case4 s _ ih => rw [ih, cons '[' s, opening]
                    rfl
  | case5 c s _ _ ih =>
    rw [List.flatMap_cons, lettersOf_append, ih, cons c s]
    rfl
  | case6 members c s blank ih => rw [ih, cons c s, blankLetters blank, List.nil_append]
  | case7 members s _ ih =>
    rw [List.flatMap_cons, lettersOf_append, ih, cons ']' s, closing]
    simp only [Piece.written, List.cons_append, Option.getD_none, Option.getD_some]
    rw [cons '[', opening, lettersOf_append, closing]
    simp [lettersOf]
  | case8 members c s _ _ ih =>
    rw [ih, cons c s]
    simp only [Option.getD_some, List.reverse_cons]
    rw [lettersOf_append, List.append_assoc]

theorem lettersOf_units (s : List Char) :
    lettersOf ((units s).flatMap Piece.written) = lettersOf s := by
  rw [units, lettersOf_collapseStars, lettersOf_piecesFrom]
  rfl

theorem mem_lettersOf_tidied (piece : Piece) (c : Char) :
    c ∈ lettersOf piece.tidied.written ↔ c ∈ lettersOf piece.written := by
  rw [mem_lettersOf, mem_lettersOf]
  refine and_congr_right fun capital => ?_
  cases piece with
  | plain d =>
    rw [Piece.tidied, Piece.written, Piece.written]
    by_cases dot : d = '.'
    · subst dot
      simp only [if_true, List.map_singleton, List.mem_singleton]
      constructor <;> (rintro rfl; revert capital; decide)
    · rw [if_neg dot, List.map_singleton, List.map_singleton, Char.toUpper_toUpper_eq_toUpper]
  | letterClass members =>
    simp only [Piece.tidied, Piece.written, List.map_append, List.map_cons, List.mem_append,
      List.mem_cons, List.mem_map, mem_canonicalMembers]
    simp
  | unclosed members =>
    simp only [Piece.tidied, Piece.written, List.map_cons, List.map_map, List.mem_cons,
      List.mem_map, Function.comp_apply, Char.toUpper_toUpper_eq_toUpper]

theorem lettersOf_eq (s : String) :
    lettersOf s.toList = (units s.toList).flatMap fun piece => lettersOf piece.written := by
  rw [← lettersOf_units, lettersOf_flatMap_written]

theorem lettersOf_canonical_eq (s : String) :
    lettersOf (canonical s).toList =
      (units s.toList).flatMap fun piece => lettersOf piece.tidied.written := by
  rw [toList_canonical, lettersOf_flatMap_written, List.flatMap_map]

theorem mem_lettersOf_canonical (s : String) (c : Char) :
    c ∈ lettersOf (canonical s).toList ↔ c ∈ lettersOf s.toList := by
  rw [lettersOf_canonical_eq, lettersOf_eq, List.mem_flatMap, List.mem_flatMap]
  simp only [mem_lettersOf_tidied]

theorem lettersOf_map_toUpper (s : List Char) : lettersOf (s.map Char.toUpper) = lettersOf s := by
  simp [lettersOf, List.filter_map, Function.comp_def, Char.isAlpha_toUpper_eq_isAlpha,
    Char.toUpper_toUpper_eq_toUpper]

theorem lettersOf_tidied_plain (c : Char) :
    lettersOf (Piece.plain c).tidied.written = lettersOf (Piece.plain c).written := by
  rw [Piece.tidied]
  by_cases dot : c = '.'
  · subst dot
    rfl
  · rw [if_neg dot]
    exact lettersOf_map_toUpper [c]

/-- Without a class, the canonical spelling has the letters of the string as often and in the same
order. -/
theorem lettersOf_canonical {s : String} (noClass : '[' ∉ s.toList) :
    lettersOf (canonical s).toList = lettersOf s.toList := by
  have plain : ∀ piece ∈ units s.toList, ∃ c, piece = .plain c := by
    have plainPieces (s : List Char) (noClass : '[' ∉ s) :
        ∀ piece ∈ piecesFrom none s, ∃ c, piece = .plain c := by
      induction s with
      | nil => simp [piecesFrom]
      | cons c s ih =>
        obtain ⟨notOpening, noClass⟩ := List.ne_and_not_mem_of_not_mem_cons noClass
        intro piece member
        rw [piecesFrom] at member
        split_ifs at member with blank opens
        · exact ih noClass piece member
        · exact absurd opens.symm notOpening
        · rcases List.mem_cons.mp member with rfl | member
          · exact ⟨c, rfl⟩
          · exact ih noClass piece member
    have kept (pieces : List Piece) : ∀ piece ∈ collapseStars pieces, piece ∈ pieces := by
      fun_induction collapseStars pieces <;> simp_all
    exact fun piece member => plainPieces s.toList noClass piece (kept _ piece member)
  rw [lettersOf_canonical_eq, lettersOf_eq]
  apply List.flatMap_congr
  intro piece member
  obtain ⟨c, rfl⟩ := plain piece member
  exact lettersOf_tidied_plain c

theorem filter_isUpper_eq_lettersOf {s : List Char} (fixed : ∀ c ∈ s, c.toUpper = c) :
    s.filter Char.isUpper = lettersOf s := by
  induction s with
  | nil => rfl
  | cons c rest ih =>
    have same : c.isUpper = c.isAlpha := by
      rw [← Char.isUpper_toUpper_eq_isAlpha, fixed c List.mem_cons_self]
    have others := ih fun d member => fixed d (List.mem_cons_of_mem c member)
    rw [← List.singleton_append, lettersOf_append, List.filter_append, others]
    congr 1
    rw [lettersOf, List.filter_singleton, List.filter_singleton, same]
    cases c.isAlpha with
    | false => rfl
    | true => rw [cond_true, List.map_singleton, fixed c List.mem_cons_self]

theorem filter_isUpper_canonical (s : String) :
    (canonical s).toList.filter Char.isUpper = lettersOf (canonical s).toList := by
  have capitals : ∀ c ∈ (canonical s).toList, c.toUpper = c := by
    intro c member
    rw [toList_canonical, List.mem_flatMap] at member
    obtain ⟨tidied, member, inside⟩ := member
    obtain ⟨piece, _, rfl⟩ := List.mem_map.mp member
    have mapped {members : List Char} (member : c ∈ members.map Char.toUpper) : c.toUpper = c := by
      obtain ⟨d, _, rfl⟩ := List.mem_map.mp member
      exact Char.toUpper_toUpper_eq_toUpper d
    cases piece with
    | plain d =>
      simp only [Piece.tidied, Piece.written, List.mem_singleton] at inside
      subst inside
      split_ifs
      · decide
      · exact Char.toUpper_toUpper_eq_toUpper d
    | letterClass members =>
      simp only [Piece.tidied, Piece.written, List.mem_append, List.mem_cons,
        mem_canonicalMembers] at inside
      rcases inside with (rfl | inside) | rfl | inside
      · decide
      · exact mapped inside
      · decide
      · exact absurd inside List.not_mem_nil
    | unclosed members =>
      rcases List.mem_cons.mp inside with rfl | inside
      · decide
      · exact mapped inside
  exact filter_isUpper_eq_lettersOf capitals

end WordFinder.SearchString
