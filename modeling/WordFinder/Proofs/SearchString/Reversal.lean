import Mathlib
import WordFinder.Proofs.Lists
import WordFinder.Proofs.SearchString.Blocks
import WordFinder.Proofs.SearchString.Passes

/-!
# Search strings read from right to left

Each block of a search string gives one piece or none, whatever comes after it, and runs of stars may
be collapsed from either side. So the reversal of a search string denotes the tokens of the string in
the opposite order. The text of a pattern has a block for each token.
-/
set_option autoImplicit false

namespace WordFinder

theorem LetterClass.bracket_notMem_of_ofMembers? {members : List Char} {k : LetterClass}
    (read : ofMembers? members = some k) : ']' ∉ k.letters := by
  rw [ofMembers?_eq] at read
  split_ifs at read
  cases read
  intro member
  exact absurd (List.mem_filter.mp member).1 (by decide)

namespace SearchString

open Text (isBlank)

variable {s members : List Char} {parts : List (List Char)}

/-! ## Pieces -/

theorem piecesFrom_some (unclosed : ']' ∉ members) (before s : List Char) :
    piecesFrom (some before) (members ++ ']' :: s) =
      .letterClass (before.reverse ++ members.filter (!isBlank ·)) :: piecesFrom none s := by
  induction members generalizing before with
  | nil =>
    rw [List.nil_append, piecesFrom, if_neg (by decide), if_pos rfl, List.filter_nil,
      List.append_nil]
  | cons c members ih =>
    obtain ⟨notClosing, others⟩ := List.ne_and_not_mem_of_not_mem_cons unclosed
    rw [List.cons_append, piecesFrom]
    by_cases blank : isBlank c = true
    · rw [if_pos blank, ih others, List.filter_cons_of_neg (by simp [blank])]
    · rw [if_neg blank, if_neg (Ne.symm notClosing), ih others,
        List.filter_cons_of_pos (by simp [blank])]
      simp

theorem piecesFrom_letterClass (unclosed : ']' ∉ members) (s : List Char) :
    piecesFrom none ('[' :: members ++ ']' :: s) =
      .letterClass (members.filter (!isBlank ·)) :: piecesFrom none s := by
  rw [List.cons_append, piecesFrom, if_neg (by decide), if_pos rfl, piecesFrom_some unclosed]
  rfl

theorem exists_piecesFrom_unclosed (unclosed : ']' ∉ s) (before : List Char) :
    ∃ members, piecesFrom (some before) s = [.unclosed members] := by
  induction s generalizing before with
  | nil => exact ⟨before.reverse, rfl⟩
  | cons c s ih =>
    obtain ⟨notClosing, others⟩ := List.ne_and_not_mem_of_not_mem_cons unclosed
    rw [piecesFrom, if_neg (Ne.symm notClosing)]
    split_ifs
    · exact ih others before
    · exact ih others (c :: before)

theorem piecesFrom_append {block : List Char} (isBlock : IsBlock block) (s : List Char) :
    piecesFrom none (block ++ s) = piecesFrom none block ++ piecesFrom none s := by
  cases isBlock with
  | @plain c notOpening =>
    rw [List.singleton_append, piecesFrom, piecesFrom, if_neg notOpening]
    split_ifs <;> rfl
  | letterClass unclosed =>
    rw [List.append_assoc, List.singleton_append, piecesFrom_letterClass unclosed,
      piecesFrom_letterClass unclosed]
    rfl

theorem reverse_piecesFrom {block : List Char} (isBlock : IsBlock block) :
    (piecesFrom none block).reverse = piecesFrom none block := by
  -- one piece or, for white space, none
  cases isBlock with
  | @plain c notOpening =>
    rw [piecesFrom, if_neg notOpening]
    split_ifs <;> rfl
  | letterClass unclosed =>
    rw [piecesFrom_letterClass unclosed]
    rfl

theorem piecesFrom_flatten (areBlocks : ∀ part ∈ parts, IsBlock part) :
    piecesFrom none parts.flatten = parts.flatMap (piecesFrom none) := by
  induction parts with
  | nil => rfl
  | cons part parts ih =>
    obtain ⟨isBlock, areOthers⟩ := List.forall_mem_cons.mp areBlocks
    rw [List.flatten_cons, piecesFrom_append isBlock, ih areOthers, List.flatMap_cons]

theorem piecesFrom_reverse_flatten (areBlocks : ∀ part ∈ parts, IsBlock part) :
    piecesFrom none parts.reverse.flatten = (piecesFrom none parts.flatten).reverse := by
  rw [piecesFrom_flatten (areBlocks_reverse areBlocks), piecesFrom_flatten areBlocks,
    List.reverse_flatMap]
  apply List.flatMap_congr
  intro part member
  exact (reverse_piecesFrom (areBlocks_reverse areBlocks part member)).symm

/-! ## Star runs -/

theorem collapseStars_cons_eq (piece : Piece) (pieces : List Piece) :
    collapseStars (piece :: pieces) =
      if piece = .plain '*' ∧ pieces.head? = some (.plain '*') then collapseStars pieces
      else piece :: collapseStars pieces := by
  split_ifs with run
  · obtain ⟨rfl, first⟩ := run
    obtain ⟨others, rfl⟩ := List.head?_eq_some_iff.mp first
    rw [collapseStars]
  · rw [collapseStars.eq_2]
    rintro others rfl rfl
    exact run ⟨rfl, rfl⟩

theorem collapseStars_concat (pieces : List Piece) (piece : Piece) :
    collapseStars (pieces ++ [piece]) =
      if piece = .plain '*' ∧ pieces.getLast? = some (.plain '*') then collapseStars pieces
      else collapseStars pieces ++ [piece] := by
  have alone (piece : Piece) : collapseStars [piece] = [piece] := by
    rw [collapseStars_cons_eq, if_neg (by simp)]
    rfl
  induction pieces with
  | nil => rw [List.nil_append, alone, if_neg (by simp)]; rfl
  | cons first pieces ih =>
    cases pieces with
    | nil =>
      rw [List.singleton_append, collapseStars_cons_eq, alone, alone]
      by_cases run : first = .plain '*' ∧ piece = .plain '*'
      · rw [if_pos (by simp [run]), if_pos (by simp [run]), run.1, run.2]
      · rw [if_neg (by simpa using run), if_neg (by simpa [and_comm] using run)]
        rfl
    | cons second pieces =>
      rw [List.cons_append, collapseStars_cons_eq, ih, collapseStars_cons_eq first,
        List.getLast?_cons_cons, List.cons_append, List.head?_cons, List.head?_cons]
      split_ifs <;> rfl

theorem collapseStars_reverse (pieces : List Piece) :
    collapseStars pieces.reverse = (collapseStars pieces).reverse := by
  induction pieces with
  | nil => rfl
  | cons piece pieces ih =>
    rw [List.reverse_cons, collapseStars_concat, ih, collapseStars_cons_eq, List.getLast?_reverse]
    split_ifs
    · rfl
    · rw [List.reverse_cons]

theorem mem_collapseStars {piece : Piece} {pieces : List Piece} :
    piece ∈ collapseStars pieces ↔ piece ∈ pieces := by
  fun_induction collapseStars pieces with
  | case1 pieces ih => rw [ih]; simp
  | case2 first pieces _ ih => rw [List.mem_cons, List.mem_cons, ih]
  | case3 => rfl

/-! ## Tokens -/

/-- Where every class is closed, the reversal denotes the tokens in the opposite order. -/
theorem ofString?_reversed {s : String} (closed : HasClosedClasses s.toList) :
    Token.ofString? (reversed s) = (Token.ofString? s).map List.reverse := by
  have pieces := piecesFrom_reverse_flatten closed
  rw [flatten_blocks] at pieces
  rw [Token.ofString?, Token.ofString?, units, reversed_eq_flatten, String.toList_ofList, pieces,
    collapseStars_reverse, mapM_reverse, units]

theorem hasClosedClasses_of_pieces
    (closed : ∀ members, .unclosed members ∉ piecesFrom none s) : HasClosedClasses s := by
  induction s using blocks_induction with
  | nil => simp [HasClosedClasses, blocks]
  | plain c s notOpening ih =>
    rw [HasClosedClasses, blocks_plain notOpening, List.forall_mem_cons]
    refine ⟨.plain notOpening, ih fun members member => closed members ?_⟩
    rw [← List.singleton_append, piecesFrom_append (.plain notOpening)]
    exact List.mem_append_right _ member
  | unclosed s unclosed ih =>
    obtain ⟨members, same⟩ := exists_piecesFrom_unclosed unclosed []
    refine absurd ?_ (closed members)
    rw [piecesFrom, if_neg (by decide), if_pos rfl, same]
    exact List.mem_singleton_self _
  | letterClass members s unclosed ih =>
    rw [HasClosedClasses, blocks_letterClass unclosed, List.forall_mem_cons]
    refine ⟨.letterClass unclosed, ih fun others member => closed others ?_⟩
    rw [piecesFrom_letterClass unclosed]
    exact List.mem_cons_of_mem _ member

theorem hasClosedClasses_of_read {s : String} {tokens : List Token}
    (read : Token.ofString? s = some tokens) : HasClosedClasses s.toList := by
  refine hasClosedClasses_of_pieces fun members member => ?_
  obtain ⟨token, _, same⟩ :=
    exists_of_forall₂_of_mem (forall₂_of_mapM read) (mem_collapseStars.mpr member)
  contradiction

/-! ## Patterns as text -/

theorem isBlock_text {piece : Piece} {token : Token} (read : Token.ofPiece? piece = some token) :
    IsBlock token.text.toList := by
  cases piece with
  | plain c =>
    rw [ofPiece?_plain] at read
    split_ifs at read with any star letter
    · cases read
      exact .plain (by decide)
    · cases read
      exact .plain (by decide)
    · cases read
      rw [Token.text, String.toList_singleton]
      refine .plain fun same => ?_
      rw [Text.toUpper_eq_iff (by decide)] at same
      rw [same] at letter
      exact absurd letter (by decide)
  | letterClass members =>
    obtain ⟨k, readClass, rfl⟩ := Option.map_eq_some_iff.mp read
    have written : (Token.oneOf k).text.toList = '[' :: k.letters ++ [']'] := by
      simp [Token.text]
    rw [written]
    exact .letterClass (LetterClass.bracket_notMem_of_ofMembers? readClass)
  | unclosed members => contradiction

theorem toList_text (p : Pattern) :
    p.text.toList = (p.tokens.map fun token => token.text.toList).flatten := by
  rw [Pattern.text, String.toList_join, List.flatMap_map]
  rfl

theorem reversed_text {p : Pattern} (areBlocks : ∀ token ∈ p.tokens, IsBlock token.text.toList) :
    reversed p.text = p.reversed.text := by
  have areWritten : ∀ part ∈ p.tokens.map fun token => token.text.toList, IsBlock part := by
    intro part member
    obtain ⟨token, listed, rfl⟩ := List.mem_map.mp member
    exact areBlocks token listed
  rw [← String.toList_inj, toList_reversed_flatten (toList_text p) areWritten, toList_text,
    Pattern.reversed, List.map_reverse]

/-- A search string that reads as a pattern reads backwards as the pattern backwards, and turned
twice it is the string it was. The text of the pattern is turned like the string. Reversal is told
by the blocks that are found by searching ahead, and reading by the pass that goes from character to
character. -/
theorem reversed_keeps_reading {s : String} {p : Pattern} (read : Pattern.ofString? s = some p) :
    Pattern.ofString? (reversed s) = some p.reversed ∧ reversed (reversed s) = s ∧
      reversed p.text = p.reversed.text ∧
      (∀ t : String, reversed t = .ofList (blocks t.toList).reverse.flatten) ∧
      ∀ t : String, Token.ofString? t = Token.readFrom [] none t.toList := by
  obtain ⟨tokens, readTokens, rfl⟩ := Option.map_eq_some_iff.mp read
  have closed := hasClosedClasses_of_read readTokens
  have backwards : Token.ofString? (reversed s) = some tokens.reverse := by
    rw [ofString?_reversed closed, readTokens, Option.map_some]
  have areBlocks : ∀ token ∈ tokens, IsBlock token.text.toList := by
    intro token member
    obtain ⟨piece, _, readPiece⟩ :=
      exists_of_forall₂_of_mem (forall₂_of_mapM readTokens).flip member
    exact isBlock_text readPiece
  refine ⟨?_, reversed_reversed closed, reversed_text areBlocks, reversed_eq_flatten,
    ofString?_eq_readFrom⟩
  rw [Pattern.ofString?, backwards]
  rfl

/-- White space within a class and between two stars, and runs of stars at both ends. -/
theorem reversed_keeps_reading_spaced :
    Pattern.ofString? "* *[b a]. c**" =
        some ⟨[.star, .oneOf ⟨['A', 'B']⟩, .any, .letter 'C', .star]⟩ ∧
      Pattern.ofString? (reversed "* *[b a]. c**") =
        some ⟨[.star, .letter 'C', .any, .oneOf ⟨['A', 'B']⟩, .star]⟩ ∧
      reversed "* *[b a]. c**" = "**c .[b a]* *" ∧
      reversed (reversed "* *[b a]. c**") = "* *[b a]. c**" ∧
      reversed "*[AB]?C*" = "*C?[AB]*" := by
  have read : Pattern.ofString? "* *[b a]. c**" =
      some ⟨[.star, .oneOf ⟨['A', 'B']⟩, .any, .letter 'C', .star]⟩ := by decide
  obtain ⟨backwards, twice, text, _⟩ := reversed_keeps_reading read
  exact ⟨read, backwards, by decide, twice, text⟩

end SearchString

end WordFinder
