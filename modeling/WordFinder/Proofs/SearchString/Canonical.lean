import Mathlib
import WordFinder.Pattern
import WordFinder.Proofs.Letter
import WordFinder.Proofs.Lists
import WordFinder.Proofs.Rack.Slots
import WordFinder.Proofs.SearchString.Units

/-!
# The tokens of a canonical spelling

A search string and its canonical spelling denote the same tokens, and the slots and the stars of
the canonical spelling are those of the tokens. A canonical spelling is its own canonical spelling.
-/
set_option autoImplicit false

namespace WordFinder

/-! ## Letter classes -/

namespace LetterClass

/-- The characters that a class lists, without the mark of negation. -/
def listed (members : List Char) : List Char :=
  (if members.head? == some '^' then members.tail else members).map Char.toUpper

theorem ofMembers?_eq (members : List Char) :
    ofMembers? members =
      if !(listed members).isEmpty && (listed members).all Char.isUpper then
        some ⟨alphabet.filter fun c =>
          (listed members).contains c != (members.head? == some '^')⟩
      else none := rfl

theorem ofMembers?_congr {members others : List Char}
    (sameSense : (members.head? == some '^') = (others.head? == some '^'))
    (same : ∀ c, c ∈ listed members ↔ c ∈ listed others) :
    ofMembers? members = ofMembers? others := by
  have sameEmpty : (listed members).isEmpty = (listed others).isEmpty := by
    rw [Bool.eq_iff_iff, List.isEmpty_iff, List.isEmpty_iff, List.eq_nil_iff_forall_not_mem,
      List.eq_nil_iff_forall_not_mem]
    simp only [same]
  have sameAll : (listed members).all Char.isUpper = (listed others).all Char.isUpper := by
    rw [Bool.eq_iff_iff, List.all_eq_true, List.all_eq_true]
    simp only [same]
  have sameContains (c : Char) : (listed members).contains c = (listed others).contains c := by
    rw [Bool.eq_iff_iff, List.contains_iff_mem, List.contains_iff_mem, same]
  rw [ofMembers?_eq, ofMembers?_eq, sameEmpty, sameAll, sameSense]
  simp only [sameContains]

theorem ofMembers?_eq_none {members : List Char} {c : Char} (member : c ∈ listed members)
    (notLetter : c.isUpper = false) : ofMembers? members = none := by
  rw [ofMembers?_eq, if_neg]
  rw [Bool.and_eq_true, List.all_eq_true]
  intro holds
  obtain ⟨_, letters⟩ := holds
  rw [letters c member] at notLetter
  contradiction

theorem head?_eraseDups (letters : List Char) : letters.eraseDups.head? = letters.head? := by
  cases letters with
  | nil => rfl
  | cons c letters => rw [List.eraseDups_cons, List.head?_cons, List.head?_cons]

theorem le_of_head?_sortedLetters {letters : List Char} {first c : Char}
    (least : (sortedLetters letters).head? = some first) (member : c ∈ letters) : first ≤ c := by
  have sorted := pairwise_sortedLetters letters
  have sortedMember : c ∈ sortedLetters letters := List.mem_mergeSort.mpr member
  cases shape : sortedLetters letters with
  | nil =>
    rw [shape] at least
    contradiction
  | cons head rest =>
    rw [shape, List.head?_cons, Option.some.injEq] at least
    subst least
    rw [shape] at sorted sortedMember
    rcases List.mem_cons.mp sortedMember with rfl | later
    · exact le_refl c
    · exact List.rel_of_pairwise_cons sorted later

theorem ofMembers?_map_toUpper (members : List Char) :
    ofMembers? (members.map Char.toUpper) = ofMembers? members := by
  have sameSense : ((members.map Char.toUpper).head? == some '^') = (members.head? == some '^') := by
    cases members with
    | nil => rfl
    | cons c members =>
      rw [Bool.eq_iff_iff, List.map_cons, List.head?_cons, List.head?_cons, beq_iff_eq, beq_iff_eq,
        Option.some.injEq, Option.some.injEq, Text.toUpper_eq_iff (by decide)]
  refine ofMembers?_congr sameSense fun c => ?_
  have twice : Char.toUpper ∘ Char.toUpper = Char.toUpper :=
    funext Char.toUpper_toUpper_eq_toUpper
  rw [listed, listed, sameSense]
  by_cases negated : (members.head? == some '^') = true
  · rw [if_pos negated, if_pos negated, ← List.map_tail, List.map_map, twice]
  · rw [if_neg negated, if_neg negated, List.map_map, twice]

theorem mem_eraseDups_sortedLetters {letters : List Char} {c : Char} :
    c ∈ (sortedLetters letters).eraseDups ↔ c ∈ letters := by
  rw [List.mem_eraseDups, sortedLetters, List.mem_mergeSort]

theorem map_toUpper_eraseDups_sortedLetters {letters : List Char}
    (fixed : letters.map Char.toUpper = letters) :
    (sortedLetters letters).eraseDups.map Char.toUpper = (sortedLetters letters).eraseDups := by
  have pointwise := (List.map_eq_map_iff (g := id)).mp (fixed.trans letters.map_id.symm)
  have fixedMember : ∀ c ∈ (sortedLetters letters).eraseDups, c.toUpper = id c := by
    intro c member
    exact pointwise c (mem_eraseDups_sortedLetters.mp member)
  rw [List.map_congr_left fixedMember, List.map_id]

theorem mem_tail_of_head?_ne {letters : List Char} {first c : Char}
    (head : letters.head? = some first) (member : c ∈ letters) (other : c ≠ first) :
    c ∈ letters.tail := by
  cases letters with
  | nil => exact absurd member List.not_mem_nil
  | cons d letters =>
    rw [List.head?_cons, Option.some.injEq] at head
    subst head
    exact (List.mem_cons.mp member).resolve_left other

/-- Capitals come before a circumflex, so sorting puts it first only where there are none. -/
theorem not_isUpper_of_head?_sortedLetters {letters : List Char} {c : Char}
    (marked : (sortedLetters letters).head? = some '^') (member : c ∈ letters) :
    c.isUpper = false := by
  rw [Bool.eq_false_iff]
  intro capital
  have later := le_of_head?_sortedLetters marked member
  have high := (Text.toNat_of_isUpper capital).2
  rw [Char.le_def, UInt32.le_iff_toNat_le] at later
  have low : 94 ≤ c.toNat := later
  omega

/-- A circumflex that sorting puts first makes both spellings unreadable. -/
theorem ofMembers?_of_head?_sortedLetters {letters : List Char}
    (fixed : letters.map Char.toUpper = letters) (positive : letters.head? ≠ some '^')
    (marked : (sortedLetters letters).head? = some '^') :
    ofMembers? (sortedLetters letters).eraseDups = none ∧ ofMembers? letters = none := by
  have first : (sortedLetters letters).eraseDups.head? = some '^' := by
    rw [head?_eraseDups, marked]
  have markMember : '^' ∈ letters := mem_eraseDups_sortedLetters.mp (List.mem_of_mem_head? first)
  cases letters with
  | nil => exact absurd markMember List.not_mem_nil
  | cons c rest =>
    have member : c ∈ c :: rest := List.mem_cons_self
    have notMark : c ≠ '^' := by
      intro same
      rw [same] at positive
      exact positive rfl
    constructor
    · apply ofMembers?_eq_none (c := c)
      · rw [listed, first, if_pos (by decide), List.map_tail,
          map_toUpper_eraseDups_sortedLetters fixed]
        exact mem_tail_of_head?_ne first (mem_eraseDups_sortedLetters.mpr member) notMark
      · exact not_isUpper_of_head?_sortedLetters marked member
    · apply ofMembers?_eq_none (c := '^')
      · rw [listed, if_neg (by rwa [beq_iff_eq]), fixed]
        exact markMember
      · decide

theorem ofMembers?_eraseDups_sortedLetters {letters : List Char}
    (fixed : letters.map Char.toUpper = letters) (positive : letters.head? ≠ some '^') :
    ofMembers? (sortedLetters letters).eraseDups = ofMembers? letters := by
  by_cases marked : (sortedLetters letters).head? = some '^'
  · obtain ⟨sorted, plain⟩ := ofMembers?_of_head?_sortedLetters fixed positive marked
    rw [sorted, plain]
  · have sense : ¬((sortedLetters letters).eraseDups.head? == some '^') = true := by
      rwa [head?_eraseDups, beq_iff_eq]
    have plainSense : ¬(letters.head? == some '^') = true := by rwa [beq_iff_eq]
    refine ofMembers?_congr ?_ fun c => ?_
    · rw [Bool.eq_iff_iff, iff_false_left sense]
      exact plainSense
    · rw [listed, listed, if_neg sense, if_neg plainSense, fixed,
        map_toUpper_eraseDups_sortedLetters fixed, mem_eraseDups_sortedLetters]

theorem ofMembers?_canonicalMembers (members : List Char) :
    ofMembers? (SearchString.canonicalMembers members) = ofMembers? members := by
  have twice : (members.map Char.toUpper).map Char.toUpper = members.map Char.toUpper := by
    rw [List.map_map]
    exact congrArg (members.map ·) (funext Char.toUpper_toUpper_eq_toUpper)
  rw [← ofMembers?_map_toUpper members, SearchString.canonicalMembers]
  split
  · next letters shape =>
    refine shape ▸ ofMembers?_congr rfl fun c => ?_
    simp [listed, sortedLetters, List.mem_eraseDups]
  · next letters notMarked =>
    refine ofMembers?_eraseDups_sortedLetters twice fun first => ?_
    cases shape : members.map Char.toUpper with
    | nil =>
      rw [shape] at first
      contradiction
    | cons c rest =>
      rw [shape, List.head?_cons, Option.some.injEq] at first
      exact notMarked rest (first ▸ shape)

theorem star_notMem_of_ofMembers? {members : List Char} {k : LetterClass}
    (read : ofMembers? members = some k) : '*' ∉ members := by
  intro member
  have unreadable : ofMembers? members = none := by
    refine ofMembers?_eq_none (c := '*') ?_ (by decide)
    rw [listed, List.mem_map]
    refine ⟨'*', ?_, by decide⟩
    split_ifs with negated
    · cases members with
      | nil => exact member
      | cons c rest =>
        rw [List.head?_cons, beq_iff_eq, Option.some.injEq] at negated
        refine (List.mem_cons.mp member).resolve_left ?_
        rw [negated]
        decide
    · exact member
  rw [unreadable] at read
  contradiction

end LetterClass

namespace SearchString

/-! ## Tokens -/

theorem ofPiece?_tidied (piece : Piece) : Token.ofPiece? piece.tidied = Token.ofPiece? piece := by
  cases piece with
  | plain c =>
    rw [Piece.tidied]
    by_cases dot : c = '.'
    · subst dot
      rfl
    · have fixed (mark : Char) (notLetter : mark.isAlpha = false) :
          decide (c.toUpper = mark) = decide (c = mark) := by
        rw [decide_eq_decide, Text.toUpper_eq_iff notLetter]
      have star : (c.toUpper = '*') = (c = '*') := propext (Text.toUpper_eq_iff (by decide))
      simp only [if_neg dot, Token.ofPiece?, fixed '?' (by decide), fixed '.' (by decide), star,
        Char.isAlpha_toUpper_eq_isAlpha, Char.toUpper_toUpper_eq_toUpper]
  | letterClass members =>
    rw [Piece.tidied, Token.ofPiece?, Token.ofPiece?, LetterClass.ofMembers?_canonicalMembers]
  | unclosed members => rfl

theorem ofString?_canonical (s : String) :
    Token.ofString? (canonical s) = Token.ofString? s := by
  rw [Token.ofString?, Token.ofString?, units_canonical]
  induction units s.toList with
  | nil => rfl
  | cons piece pieces ih =>
    rw [List.map_cons, List.mapM_cons, List.mapM_cons, ofPiece?_tidied, ih]

theorem pattern_canonical (s : String) :
    Pattern.ofString? (canonical s) = Pattern.ofString? s := by
  rw [Pattern.ofString?, Pattern.ofString?, ofString?_canonical]

theorem rack_canonical (s : String) : Rack.ofString? (canonical s) = Rack.ofString? s := by
  rw [Rack.ofString?, Rack.ofString?, ofString?_canonical]

theorem slotsFrom_members {members : List Char} (areMembers : AreMembers members)
    (s : List Char) : slotsFrom true (members ++ s) = slotsFrom true s := by
  induction members with
  | nil => rfl
  | cons c members ih =>
    have rest := ih fun d member => areMembers d (List.mem_cons_of_mem c member)
    rw [List.cons_append, slotsFrom, if_neg (areMembers c List.mem_cons_self).2, Bool.or_true,
      if_pos rfl, rest]
    exact ite_self _

/-- A written string asks for one letter for each token but the stars. -/
theorem slotsFrom_written {pieces : List Piece} {tokens : List Token}
    (arePieces : ArePieces pieces) (read : pieces.mapM Token.ofPiece? = some tokens) :
    slotsFrom false (pieces.flatMap Piece.written) = Token.slots tokens := by
  induction pieces generalizing tokens with
  | nil =>
    rw [List.mapM_nil] at read
    rw [← Option.some.inj read]
    rfl
  | cons piece pieces ih =>
    obtain ⟨token, rest, first, others, rfl⟩ := mapM_cons_eq_some read
    rw [Rack.slots_cons, List.flatMap_cons]
    cases piece with
    | plain c =>
      obtain ⟨⟨_, notOpening⟩, areRest⟩ := arePieces
      have remaining := ih areRest others
      rw [Piece.written, List.singleton_append, slotsFrom, if_neg notOpening]
      by_cases star : c = '*'
      · subst star
        cases first
        simpa [Token.slots] using remaining
      · have isSlot : Token.slots [token] = 1 := by
          rw [Token.ofPiece?, if_neg star] at first
          split_ifs at first <;> (cases first; rfl)
        rw [isSlot, ← remaining]
        simp only [star, decide_false, Bool.or_false, Bool.false_eq_true, if_false]
        split_ifs <;> exact Nat.add_comm _ 1
    | letterClass members =>
      obtain ⟨areMembers, areRest⟩ := arePieces
      have isSlot : Token.slots [token] = 1 := by
        obtain ⟨k, _, rfl⟩ := Option.map_eq_some_iff.mp first
        rfl
      simp only [Piece.written, List.cons_append, List.append_assoc, List.nil_append]
      rw [slotsFrom, if_pos rfl, slotsFrom_members areMembers, slotsFrom, if_neg (by decide),
        if_pos rfl, ih areRest others, isSlot, Nat.add_comm]
    | unclosed members => cases first

theorem star_mem_written_iff {pieces : List Piece} {tokens : List Token}
    (read : pieces.mapM Token.ofPiece? = some tokens) :
    '*' ∈ pieces.flatMap Piece.written ↔ Token.star ∈ tokens := by
  induction pieces generalizing tokens with
  | nil =>
    rw [List.mapM_nil] at read
    rw [← Option.some.inj read]
    simp
  | cons piece pieces ih =>
    obtain ⟨token, rest, first, others, rfl⟩ := mapM_cons_eq_some read
    have here : '*' ∈ piece.written ↔ Token.star = token := by
      cases piece with
      | plain c =>
        rw [Piece.written, List.mem_singleton]
        by_cases star : c = '*'
        · subst star
          cases first
          simp
        · rw [Token.ofPiece?, if_neg star] at first
          split_ifs at first <;> (cases first; simpa using Ne.symm star)
      | letterClass members =>
        obtain ⟨k, readClass, rfl⟩ := Option.map_eq_some_iff.mp first
        have := LetterClass.star_notMem_of_ofMembers? readClass
        simpa [Piece.written] using this
      | unclosed members => cases first
    rw [List.flatMap_cons, List.mem_append, List.mem_cons, here, ih others]

theorem mapM_tidied {s : String} {tokens : List Token} (read : Token.ofString? s = some tokens) :
    ((units s.toList).map Piece.tidied).mapM Token.ofPiece? = some tokens := by
  rw [← ofString?_canonical, Token.ofString?, units_canonical] at read
  exact read

theorem slotCount_canonical {s : String} {tokens : List Token}
    (read : Token.ofString? s = some tokens) : slotCount (canonical s) = Token.slots tokens := by
  rw [slotCount, toList_canonical,
    slotsFrom_written (arePieces_map_tidied (arePieces_units s.toList)) (mapM_tidied read)]

theorem contains_star_canonical {s : String} {tokens : List Token}
    (read : Token.ofString? s = some tokens) :
    (canonical s).toList.contains '*' = tokens.contains .star := by
  rw [Bool.eq_iff_iff, List.contains_iff_mem, List.contains_iff_mem, toList_canonical,
    star_mem_written_iff (mapM_tidied read)]

/-! ## Classes -/

def Piece.isClass : Piece → Bool
  | .letterClass _ => true
  | _ => false

def classCount (s : String) : Nat :=
  (units s.toList).countP Piece.isClass

theorem classCount_canonical (s : String) : classCount (canonical s) = classCount s := by
  have same : Piece.isClass ∘ Piece.tidied = Piece.isClass := by
    funext piece
    cases piece <;> rfl
  rw [classCount, units_canonical, List.countP_map, same, classCount]

theorem length_classes_of_ofString? {s : String} {tokens : List Token}
    (read : Token.ofString? s = some tokens) :
    (Rack.ofTokens tokens).classes.length = classCount s := by
  rw [Rack.ofTokens, Rack.length_classes_foldl, classCount]
  rw [Token.ofString?] at read
  generalize units s.toList = pieces at read
  induction pieces generalizing tokens with
  | nil =>
    cases read
    rfl
  | cons piece pieces ih =>
    obtain ⟨token, rest, first, others, rfl⟩ := mapM_cons_eq_some read
    have here : token.isClass = piece.isClass := by
      cases piece with
      | plain c =>
        rw [Token.ofPiece?] at first
        split_ifs at first <;> (cases first; rfl)
      | letterClass members =>
        obtain ⟨k, _, rfl⟩ := Option.map_eq_some_iff.mp first
        rfl
      | unclosed members => cases first
    have remaining := ih others
    simp only [List.countP_cons, here]
    omega

/-! ## Length -/

theorem length_piecesFrom_le (members? : Option (List Char)) (s : List Char) :
    (piecesFrom members? s).length ≤ s.length + members?.isSome.toNat := by
  fun_induction piecesFrom members? s <;> simp_all <;> omega

theorem length_collapseStars_le (pieces : List Piece) :
    (collapseStars pieces).length ≤ pieces.length := by
  fun_induction collapseStars pieces with
  | case1 pieces ih => exact Nat.le_succ_of_le ih
  | case2 piece pieces _ ih => exact Nat.succ_le_succ ih
  | case3 => exact Nat.le_refl _

theorem slots_le_length {s : String} {tokens : List Token}
    (read : Token.ofString? s = some tokens) : Token.slots tokens ≤ s.length := by
  have counted : Token.slots tokens ≤ tokens.length := List.countP_le_length
  have units := length_collapseStars_le (piecesFrom none s.toList)
  have pieces := length_piecesFrom_le none s.toList
  have sameLength := (forall₂_of_mapM read).length_eq
  rw [SearchString.units] at sameLength
  rw [String.length_toList, Option.isSome_none, Bool.toNat_false] at pieces
  omega

/-! ## Canonical spellings are canonical -/

theorem pairwise_lt_eraseDups {letters : List Char} (sorted : letters.Pairwise (· ≤ ·)) :
    letters.eraseDups.Pairwise (· < ·) := by
  induction hn : letters.length using Nat.strong_induction_on generalizing letters with
  | _ n ih =>
    cases letters with
    | nil => exact .nil
    | cons c letters =>
      rw [List.eraseDups_cons, List.pairwise_cons]
      rw [List.pairwise_cons] at sorted
      obtain ⟨least, others⟩ := sorted
      constructor
      · intro d member
        rw [List.mem_eraseDups, List.mem_filter, Bool.not_eq_true', beq_eq_false_iff_ne] at member
        exact lt_of_le_of_ne (least d member.1) (Ne.symm member.2)
      · refine ih _ ?_ (others.filter _) rfl
        rw [← hn, List.length_cons]
        exact Nat.lt_succ_of_le (List.length_filter_le _ _)

theorem eraseDups_sortedLetters_of_pairwise {letters : List Char}
    (ascending : letters.Pairwise (· < ·)) : (sortedLetters letters).eraseDups = letters :=
  (pairwise_lt_eraseDups (pairwise_sortedLetters letters)).eq_of_mem_iff ascending fun _ =>
    LetterClass.mem_eraseDups_sortedLetters

theorem canonicalMembers_shape (members : List Char) :
    (∃ letters, canonicalMembers members = '^' :: letters ∧ letters.Pairwise (· < ·)) ∨
      (canonicalMembers members).head? ≠ some '^' ∧
        (canonicalMembers members).Pairwise (· < ·) := by
  have ascending (letters : List Char) : (sortedLetters letters).eraseDups.Pairwise (· < ·) :=
    pairwise_lt_eraseDups (pairwise_sortedLetters letters)
  rw [canonicalMembers]
  split
  · next letters _ => exact Or.inl ⟨_, rfl, ascending letters⟩
  · -- sorting can bring a circumflex to the front
    cases shape : (sortedLetters (members.map Char.toUpper)).eraseDups with
    | nil => exact Or.inr ⟨by simp, .nil⟩
    | cons first rest =>
      have sorted := ascending (members.map Char.toUpper)
      rw [shape] at sorted
      by_cases marked : first = '^'
      · exact Or.inl ⟨rest, by rw [marked], (List.pairwise_cons.mp sorted).2⟩
      · exact Or.inr ⟨by simpa using marked, sorted⟩

theorem canonicalMembers_canonicalMembers (members : List Char) :
    canonicalMembers (canonicalMembers members) = canonicalMembers members := by
  have fixed : (canonicalMembers members).map Char.toUpper = canonicalMembers members := by
    refine (List.map_congr_left fun c member => ?_).trans (List.map_id _)
    exact toUpper_of_mem_canonicalMembers member
  rw [canonicalMembers, fixed]
  rcases canonicalMembers_shape members with ⟨letters, marked, ascending⟩ | ⟨unmarked, ascending⟩
  · rw [marked]
    exact congrArg ('^' :: ·) (eraseDups_sortedLetters_of_pairwise ascending)
  · split
    · next letters marked =>
      rw [marked] at unmarked
      exact absurd rfl unmarked
    · exact eraseDups_sortedLetters_of_pairwise ascending

theorem Piece.tidied_tidied (piece : Piece) : piece.tidied.tidied = piece.tidied := by
  cases piece with
  | plain c =>
    by_cases dot : c = '.'
    · subst dot
      rfl
    · have notDot : c.toUpper ≠ '.' := by rwa [ne_eq, Text.toUpper_eq_iff (by decide)]
      rw [Piece.tidied, if_neg dot, Piece.tidied, if_neg notDot, Char.toUpper_toUpper_eq_toUpper]
  | letterClass members =>
    rw [Piece.tidied, Piece.tidied, canonicalMembers_canonicalMembers]
  | unclosed members =>
    rw [Piece.tidied, Piece.tidied, List.map_map]
    exact congrArg (Piece.unclosed <| members.map ·) (funext Char.toUpper_toUpper_eq_toUpper)

theorem canonical_canonical (s : String) : canonical (canonical s) = canonical s := by
  rw [← String.toList_inj, toList_canonical, units_canonical, toList_canonical, List.map_map]
  congr 2
  exact funext Piece.tidied_tidied

end SearchString

end WordFinder
