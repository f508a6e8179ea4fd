import Mathlib
import WordFinder.Proofs.SearchString.Canonical

/-!
# Search strings in one pass

A search string can be spelled canonically and can be read in one pass each, without its pieces: one
pass looks at the last character that it wrote, the other at the last token that it read. Both find
what the units of the string give, so a search string means what its canonical spelling means.
-/
set_option autoImplicit false

namespace WordFinder

open Text (isBlank)

/-! ## The two passes -/

/-- The canonical spelling of what is left of a search string, after what was written so far, last
character first. While a class is open, its members are held back in upper case, last one first. -/
def SearchString.spelledFrom : List Char → Option (List Char) → List Char → List Char
  | written, none, [] => written.reverse
  | written, some members, [] => written.reverse ++ '[' :: members.reverse
  | written, none, c :: cs =>
    if isBlank c then spelledFrom written none cs
    else if c = '[' then spelledFrom written (some []) cs
    else if c = '*' ∧ written.head? = some '*' then spelledFrom written none cs
    else if c = '.' then spelledFrom ('?' :: written) none cs
    else spelledFrom (c.toUpper :: written) none cs
  | written, some members, c :: cs =>
    if isBlank c then spelledFrom written (some members) cs
    else if c = ']' then
      spelledFrom ((Piece.letterClass members.reverse).canonical.reverse ++ written) none cs
    else spelledFrom written (some (c.toUpper :: members)) cs

/-- The tokens of what is left of a search string, after those that were read so far, last one
first. While a class is open, its members are held back as they are written, last one first. -/
def Token.readFrom : List Token → Option (List Char) → List Char → Option (List Token)
  | tokens, none, [] => some tokens.reverse
  | _, some _, [] => none
  | tokens, none, c :: cs =>
    if c = '?' ∨ c = '.' then readFrom (.any :: tokens) none cs
    else if c = '*' then
      if tokens.head? = some .star then readFrom tokens none cs
      else readFrom (.star :: tokens) none cs
    else if c = '[' then readFrom tokens (some []) cs
    else if c.isAlpha then readFrom (.letter c.toUpper :: tokens) none cs
    else if isBlank c then readFrom tokens none cs
    else none
  | tokens, some members, c :: cs =>
    if c = ']' then
      (LetterClass.ofMembers? members.reverse).bind fun k => readFrom (.oneOf k :: tokens) none cs
    else if isBlank c then readFrom tokens (some members) cs
    else readFrom tokens (some (c :: members)) cs

namespace SearchString

/-! ## Stars after a star -/

/-- Some pieces with each run of stars as one star, where the stars at the start belong to a star
before them if there is one. -/
def unitsAfter (star : Bool) (pieces : List Piece) : List Piece :=
  collapseStars (if star then pieces.dropWhile (· == .plain '*') else pieces)

theorem unitsAfter_star_cons (pieces : List Piece) :
    unitsAfter true (.plain '*' :: pieces) = unitsAfter true pieces := rfl

theorem collapseStars_cons (piece : Piece) (pieces : List Piece) :
    collapseStars (piece :: pieces) = piece :: unitsAfter (piece == .plain '*') pieces := by
  by_cases star : piece = .plain '*'
  · subst star
    rw [beq_self_eq_true]
    induction pieces with
    | nil => rfl
    | cons next pieces ih =>
      by_cases run : next = .plain '*'
      · subst run
        rw [collapseStars, ih, unitsAfter_star_cons]
      · rw [unitsAfter, if_pos rfl, List.dropWhile_cons_of_neg (by simpa using run),
          collapseStars.eq_2]
        rintro rest - shape
        exact run (List.cons.inj shape).1
  · rw [beq_eq_false_iff_ne.mpr star, unitsAfter, if_neg Bool.false_ne_true, collapseStars.eq_2]
    rintro rest first
    exact absurd first star

theorem unitsAfter_cons {star : Bool} {piece : Piece}
    (kept : ¬(star = true ∧ piece = .plain '*')) (pieces : List Piece) :
    unitsAfter star (piece :: pieces) = piece :: unitsAfter (piece == .plain '*') pieces := by
  rw [← collapseStars_cons, unitsAfter]
  cases star with
  | false => rfl
  | true =>
    rw [if_pos rfl, List.dropWhile_cons_of_neg (by simpa using kept)]

/-! ## The pass that spells -/

theorem canonical_letterClass_map_toUpper (members : List Char) :
    (Piece.letterClass (members.map Char.toUpper)).canonical =
      (Piece.letterClass members).canonical := by
  have twice : (members.map Char.toUpper).map Char.toUpper = members.map Char.toUpper := by
    rw [List.map_map]
    exact congrArg (members.map ·) (funext Char.toUpper_toUpper_eq_toUpper)
  rw [Piece.canonical, Piece.canonical, canonicalMembers, canonicalMembers, twice]

theorem flatMap_unitsAfter_cons {written : List Char} {piece : Piece}
    (kept : ¬((written.head? == some '*') = true ∧ piece = .plain '*'))
    (last : ((piece.canonical.reverse ++ written).head? == some '*') = (piece == .plain '*'))
    (pieces : List Piece) :
    written.reverse ++
        (unitsAfter (written.head? == some '*') (piece :: pieces)).flatMap Piece.canonical =
      (piece.canonical.reverse ++ written).reverse ++
        (unitsAfter ((piece.canonical.reverse ++ written).head? == some '*') pieces).flatMap
          Piece.canonical := by
  rw [unitsAfter_cons kept, List.flatMap_cons, last, List.reverse_append, List.reverse_reverse,
    List.append_assoc]

theorem spelledFrom_visible {c : Char} {written s : List Char} (visible : ¬isBlank c = true)
    (notOpening : c ≠ '[') (kept : ¬(c = '*' ∧ written.head? = some '*')) :
    spelledFrom written none (c :: s) =
      spelledFrom ((Piece.plain c).canonical.reverse ++ written) none s := by
  rw [spelledFrom, if_neg visible, if_neg notOpening, if_neg kept]
  by_cases dot : c = '.'
  · rw [if_pos dot, dot]
    rfl
  · rw [if_neg dot, Piece.canonical_eq, Piece.tidied, if_neg dot]
    rfl

theorem head?_canonical_plain (c : Char) (written : List Char) :
    (((Piece.plain c).canonical.reverse ++ written).head? == some '*') =
      (Piece.plain c == .plain '*') := by
  by_cases dot : c = '.'
  · subst dot
    rfl
  · rw [Piece.canonical_eq, Piece.tidied, if_neg dot, Bool.eq_iff_iff, beq_iff_eq, beq_iff_eq,
      Piece.plain.injEq, ← Text.toUpper_eq_iff (by decide)]
    exact Option.some_inj

theorem spelledFrom_eq (written : List Char) (class? : Option (List Char)) (s : List Char) :
    spelledFrom written (class?.map (·.map Char.toUpper)) s =
      written.reverse ++
        (unitsAfter (written.head? == some '*') (piecesFrom class? s)).flatMap Piece.canonical := by
  induction s generalizing written class? with
  | nil =>
    cases class? with
    | none => simp [spelledFrom, piecesFrom, unitsAfter, collapseStars]
    | some members =>
      rw [piecesFrom, unitsAfter_cons (by simp)]
      simp [spelledFrom, unitsAfter, collapseStars, Piece.canonical]
  | cons c s ih =>
    cases class? with
    | none =>
      rw [Option.map_none, piecesFrom]
      by_cases blank : isBlank c = true
      · rw [spelledFrom, if_pos blank, if_pos blank]
        exact ih written none
      rw [if_neg blank]
      by_cases opens : c = '['
      · rw [spelledFrom, if_neg blank, if_pos opens, if_pos opens]
        exact ih written (some [])
      rw [if_neg opens]
      by_cases run : c = '*' ∧ written.head? = some '*'
      · -- the star belongs to the one that was written last
        have same := ih written none
        rw [run.2, beq_self_eq_true] at same ⊢
        rw [spelledFrom, if_neg blank, if_neg opens, if_pos run, run.1, unitsAfter_star_cons]
        exact same
      · rw [spelledFrom_visible blank opens run, flatMap_unitsAfter_cons
          (by simpa [and_comm] using run) (head?_canonical_plain c written)]
        exact ih _ none
    | some members =>
      rw [Option.map_some, spelledFrom, piecesFrom]
      by_cases blank : isBlank c = true
      · rw [if_pos blank, if_pos blank]
        exact ih written (some members)
      rw [if_neg blank, if_neg blank]
      by_cases closes : c = ']'
      · have last : (((Piece.letterClass members.reverse).canonical.reverse ++ written).head? ==
            some '*') = (Piece.letterClass members.reverse == .plain '*') := by
          simp [Piece.canonical]
        rw [if_pos closes, if_pos closes, ← List.map_reverse, canonical_letterClass_map_toUpper,
          flatMap_unitsAfter_cons (by simp) last]
        exact ih _ none
      · rw [if_neg closes, if_neg closes]
        exact ih written (some (c :: members))

/-! ## The pass that reads -/

theorem not_isAlpha_of_isBlank {c : Char} (blank : isBlank c = true) : c.isAlpha = false := by
  rw [← Char.isUpper_toUpper_eq_isAlpha, Bool.eq_false_iff]
  intro capital
  rw [← Text.isBlank_toUpper, Text.isBlank_of_isUpper capital] at blank
  contradiction

theorem ofPiece?_plain (c : Char) :
    Token.ofPiece? (.plain c) =
      if c = '?' ∨ c = '.' then some .any
      else if c = '*' then some .star
      else if c.isAlpha then some (.letter c.toUpper)
      else none := by
  simp only [Token.ofPiece?, Bool.or_eq_true, decide_eq_true_eq]

theorem eq_star_iff_of_ofPiece? {piece : Piece} {token : Token}
    (read : Token.ofPiece? piece = some token) : token = .star ↔ piece = .plain '*' := by
  cases piece with
  | plain c =>
    rw [ofPiece?_plain] at read
    rw [Piece.plain.injEq]
    split_ifs at read with any star letter
    · cases read
      simp only [reduceCtorEq, false_iff]
      rintro rfl
      revert any
      decide
    · cases read
      exact iff_of_true rfl star
    · cases read
      exact iff_of_false (by simp) star
  | letterClass members =>
    obtain ⟨k, _, rfl⟩ := Option.map_eq_some_iff.mp read
    simp
  | unclosed members => contradiction

theorem mapM_unitsAfter_cons {piece : Piece} {tokens : List Token}
    (kept : ¬((tokens.head? == some .star) = true ∧ piece = .plain '*')) (pieces : List Piece) :
    ((unitsAfter (tokens.head? == some .star) (piece :: pieces)).mapM Token.ofPiece?).map
        (tokens.reverse ++ ·) =
      (Token.ofPiece? piece).bind fun token =>
        ((unitsAfter ((token :: tokens).head? == some .star) pieces).mapM Token.ofPiece?).map
          ((token :: tokens).reverse ++ ·) := by
  rw [unitsAfter_cons kept, List.mapM_cons]
  cases read : Token.ofPiece? piece with
  | none => rfl
  | some token =>
    have star : ((token :: tokens).head? == some .star) = (piece == .plain '*') := by
      rw [Bool.eq_iff_iff, beq_iff_eq, beq_iff_eq, List.head?_cons, Option.some.injEq,
        eq_star_iff_of_ofPiece? read]
    rw [Option.bind_some, star]
    cases (unitsAfter (piece == .plain '*') pieces).mapM Token.ofPiece? with
    | none => rfl
    | some rest => simp

theorem readFrom_blank {c : Char} (tokens : List Token) (s : List Char)
    (blank : isBlank c = true) :
    Token.readFrom tokens none (c :: s) = Token.readFrom tokens none s := by
  have notMark (mark : Char) (visible : isBlank mark = false) : c ≠ mark := by
    rintro rfl
    rw [visible] at blank
    contradiction
  rw [Token.readFrom, if_neg (not_or.mpr ⟨notMark '?' (by decide), notMark '.' (by decide)⟩),
    if_neg (notMark '*' (by decide)), if_neg (notMark '[' (by decide)),
    if_neg (by rw [not_isAlpha_of_isBlank blank]; decide), if_pos blank]

theorem readFrom_visible {c : Char} {tokens : List Token} {s : List Char}
    (visible : ¬isBlank c = true) (notOpening : c ≠ '[')
    (kept : ¬(c = '*' ∧ tokens.head? = some .star)) :
    Token.readFrom tokens none (c :: s) =
      (Token.ofPiece? (.plain c)).bind fun token => Token.readFrom (token :: tokens) none s := by
  rw [Token.readFrom, ofPiece?_plain, if_neg notOpening, if_neg visible]
  by_cases any : c = '?' ∨ c = '.'
  · rw [if_pos any, if_pos any, Option.bind_some]
  rw [if_neg any, if_neg any]
  by_cases star : c = '*'
  · rw [if_pos star, if_pos star, if_neg fun run => kept ⟨star, run⟩, Option.bind_some]
  rw [if_neg star, if_neg star]
  by_cases letter : c.isAlpha = true
  · rw [if_pos letter, if_pos letter, Option.bind_some]
  · rw [if_neg letter, if_neg letter, Option.bind_none]

theorem readFrom_eq (tokens : List Token) (class? : Option (List Char)) (s : List Char) :
    Token.readFrom tokens class? s =
      ((unitsAfter (tokens.head? == some .star) (piecesFrom class? s)).mapM Token.ofPiece?).map
        (tokens.reverse ++ ·) := by
  induction s generalizing tokens class? with
  | nil =>
    cases class? with
    | none => simp [Token.readFrom, piecesFrom, unitsAfter, collapseStars]
    | some members =>
      rw [piecesFrom, mapM_unitsAfter_cons (by simp)]
      rfl
  | cons c s ih =>
    cases class? with
    | none =>
      rw [piecesFrom]
      by_cases blank : isBlank c = true
      · rw [readFrom_blank tokens s blank, if_pos blank]
        exact ih tokens none
      rw [if_neg blank]
      by_cases opens : c = '['
      · subst opens
        rw [if_pos rfl]
        exact ih tokens (some [])
      rw [if_neg opens]
      by_cases run : c = '*' ∧ tokens.head? = some .star
      · -- the star belongs to the one that was read last
        have same := ih tokens none
        rw [run.2, beq_self_eq_true] at same ⊢
        rw [run.1, unitsAfter_star_cons, ← same, Token.readFrom, if_pos run.2]
        rfl
      · rw [readFrom_visible blank opens run,
          mapM_unitsAfter_cons (by simpa [and_comm] using run)]
        exact Option.bind_congr fun token _ => ih (token :: tokens) none
    | some members =>
      rw [Token.readFrom, piecesFrom]
      by_cases closes : c = ']'
      · subst closes
        rw [if_pos rfl, if_neg (by decide), if_pos rfl, mapM_unitsAfter_cons (by simp),
          Token.ofPiece?, Option.bind_map]
        exact Option.bind_congr fun k _ => ih (.oneOf k :: tokens) none
      rw [if_neg closes, if_neg closes]
      by_cases blank : isBlank c = true
      · rw [if_pos blank, if_pos blank]
        exact ih tokens (some members)
      · rw [if_neg blank, if_neg blank]
        exact ih tokens (some (c :: members))

/-! ## What the passes find -/

theorem canonical_eq_spelledFrom (s : String) :
    canonical s = .ofList (spelledFrom [] none s.toList) := by
  have whole := spelledFrom_eq [] none s.toList
  rw [Option.map_none, List.reverse_nil, List.nil_append] at whole
  rw [whole]
  rfl

theorem ofString?_eq_readFrom (s : String) :
    Token.ofString? s = Token.readFrom [] none s.toList := by
  rw [readFrom_eq, List.reverse_nil]
  simp only [List.nil_append, Option.map_id']
  rfl

/-- A search string reads like its canonical spelling, as a pattern and as a rack, and that spelling
is its own. If the string can be read, the canonical spelling asks for as many letters as there are
tokens other than stars. All this is about what two separate passes find: the one that spells and
the one that reads. -/
theorem canonical_keeps_reading (s : String) :
    canonical (canonical s) = canonical s ∧
      Pattern.ofString? (canonical s) = Pattern.ofString? s ∧
      Rack.ofString? (canonical s) = Rack.ofString? s ∧
      (∀ p, Pattern.ofString? s = some p →
        slotCount (canonical s) = p.tokens.countP (· != .star)) ∧
      canonical s = .ofList (spelledFrom [] none s.toList) ∧
      Token.ofString? s = Token.readFrom [] none s.toList := by
  refine ⟨canonical_canonical s, pattern_canonical s, rack_canonical s, fun p read => ?_,
    canonical_eq_spelledFrom s, ofString?_eq_readFrom s⟩
  obtain ⟨tokens, readTokens, rfl⟩ := Option.map_eq_some_iff.mp read
  exact slotCount_canonical readTokens

/-- White space and stars on both sides of it, a class with a letter twice, and a dot. -/
theorem canonical_keeps_reading_tidied :
    Pattern.ofString? "[zza] .q* *" = some ⟨[.oneOf ⟨['A', 'Z']⟩, .any, .letter 'Q', .star]⟩ ∧
      slotCount (canonical "[zza] .q* *") = 3 := by
  have read : Pattern.ofString? "[zza] .q* *" =
      some ⟨[.oneOf ⟨['A', 'Z']⟩, .any, .letter 'Q', .star]⟩ := by decide
  exact ⟨read, (canonical_keeps_reading "[zza] .q* *").2.2.2.1 _ read⟩

end SearchString

end WordFinder
