import Mathlib
import WordFinder.Proofs.Search.Exact

/-!
# Letters that a condition lists twice

A word must have each letter as often as an Includes Letters condition lists it. The canonical
spelling of the condition lists the letters of a class only once. So it can ask for less than what
was written, and it does so exactly if a class repeats a letter.
-/
set_option autoImplicit false

namespace WordFinder

/-! ## Parts of lists -/

section FlatMap

variable {α β : Type} {f g : α → List β} {xs : List α}

theorem subperm_flatMap (within : ∀ x ∈ xs, (f x).Subperm (g x)) :
    (xs.flatMap f).Subperm (xs.flatMap g) := by
  induction xs with
  | nil => exact List.Subperm.refl []
  | cons x xs ih =>
    rw [List.flatMap_cons, List.flatMap_cons]
    exact (within x List.mem_cons_self).append
      (ih fun y member => within y (List.mem_cons_of_mem x member))

/-- Parts that are no larger than others make up the same only if none is smaller. -/
theorem perm_of_perm_flatMap (within : ∀ x ∈ xs, (f x).Subperm (g x))
    (whole : (xs.flatMap f).Perm (xs.flatMap g)) : ∀ x ∈ xs, (f x).Perm (g x) := by
  induction xs with
  | nil => simp
  | cons x xs ih =>
    have first := within x List.mem_cons_self
    have others : ∀ y ∈ xs, (f y).Subperm (g y) := fun y member =>
      within y (List.mem_cons_of_mem x member)
    rw [List.flatMap_cons, List.flatMap_cons] at whole
    have same : (g x).length ≤ (f x).length := by
      have total := whole.length_eq
      have fewer := (subperm_flatMap others).length_le
      rw [List.length_append, List.length_append] at total
      omega
    have permFirst := first.perm_of_length_le same
    have permOthers : (xs.flatMap f).Perm (xs.flatMap g) :=
      (List.perm_append_left_iff (g x)).mp ((permFirst.symm.append_right _).trans whole)
    intro y member
    rcases List.mem_cons.mp member with rfl | member
    · exact permFirst
    · exact ih others permOthers y member

end FlatMap

/-! ## The letters of a class -/

namespace SearchString

/-- Whether a class of the string lists a letter twice, in either case. -/
def RepeatsInClass (s : String) : Prop :=
  ∃ members, Piece.letterClass members ∈ units s.toList ∧ ¬(lettersOf members).Nodup

theorem lettersOf_letterClass (members : List Char) :
    lettersOf (Piece.letterClass members).written = lettersOf members := by
  rw [Piece.written, List.cons_append, ← List.singleton_append, lettersOf_append, lettersOf_append,
    show lettersOf [']'] = [] from rfl, List.append_nil]
  rfl

theorem nodup_lettersOf_canonicalMembers (members : List Char) :
    (lettersOf (canonicalMembers members)).Nodup := by
  rw [← filter_isUpper_eq_lettersOf fun c member => toUpper_of_mem_canonicalMembers member]
  rcases canonicalMembers_shape members with ⟨letters, marked, ascending⟩ | ⟨_, ascending⟩
  · rw [marked, List.filter_cons_of_neg (by decide)]
    exact (ascending.imp ne_of_lt).filter _
  · exact (ascending.imp ne_of_lt).filter _

theorem lettersOf_tidied {piece : Piece} (notClass : piece.isClass = false) :
    lettersOf piece.tidied.written = lettersOf piece.written := by
  cases piece with
  | plain c => exact lettersOf_tidied_plain c
  | letterClass members => contradiction
  | unclosed members => exact lettersOf_map_toUpper ('[' :: members)

theorem subperm_tidied (piece : Piece) :
    (lettersOf piece.tidied.written).Subperm (lettersOf piece.written) := by
  cases isClass : piece.isClass with
  | false =>
    rw [lettersOf_tidied isClass]
  | true =>
    cases piece with
    | plain c => contradiction
    | unclosed members => contradiction
    | letterClass members =>
      have once := nodup_lettersOf_canonicalMembers members
      rw [← lettersOf_letterClass] at once
      exact List.subperm_of_subset once fun c member => (mem_lettersOf_tidied _ c).mp member

/-- A class in canonical spelling has the letters of the class as often only if it repeats none. -/
theorem perm_tidied_iff (piece : Piece) :
    (lettersOf piece.tidied.written).Perm (lettersOf piece.written) ↔
      ∀ members, piece = .letterClass members → (lettersOf members).Nodup := by
  cases piece with
  | plain c =>
    rw [lettersOf_tidied rfl]
    simp
  | unclosed members =>
    rw [lettersOf_tidied rfl]
    simp
  | letterClass members =>
    have once : (lettersOf (Piece.letterClass members).tidied.written).Nodup := by
      rw [Piece.tidied, lettersOf_letterClass]
      exact nodup_lettersOf_canonicalMembers members
    constructor
    · rintro same _ ⟨⟩
      rw [← lettersOf_letterClass]
      exact same.nodup_iff.mp once
    · intro distinct
      have written := distinct members rfl
      rw [← lettersOf_letterClass] at written
      exact (List.perm_ext_iff_of_nodup once written).mpr (mem_lettersOf_tidied _)

/-! ## The letters of a string -/

theorem subperm_lettersOf_canonical (s : String) :
    (lettersOf (canonical s).toList).Subperm (lettersOf s.toList) := by
  rw [lettersOf_canonical_eq, lettersOf_eq]
  exact subperm_flatMap fun piece _ => subperm_tidied piece

/-- The canonical spelling has the letters of the string as often, unless a class repeats one. -/
theorem perm_lettersOf_canonical_iff (s : String) :
    (lettersOf (canonical s).toList).Perm (lettersOf s.toList) ↔ ¬RepeatsInClass s := by
  rw [lettersOf_canonical_eq, lettersOf_eq]
  constructor
  · rintro same ⟨members, member, repeats⟩
    have samePieces := perm_of_perm_flatMap (fun piece _ => subperm_tidied piece) same
    exact repeats ((perm_tidied_iff _).mp (samePieces _ member) members rfl)
  · intro distinct
    refine List.Perm.flatMap_left _ fun piece member => (perm_tidied_iff piece).mpr ?_
    rintro members rfl
    by_contra repeats
    exact distinct ⟨members, member, repeats⟩

end SearchString

/-! ## Verdicts -/

namespace Condition

variable {x : Lexicon} {c : Condition}

theorem meets_letters_iff (isLetters : c.kind = .includesLetters) (positive : c.negated = false)
    (word : String) :
    x.meets word c = true ↔ (SearchString.lettersOf c.string.toList).Subperm word.toList := by
  simp only [Lexicon.meets, isLetters, includesLetters, positive, Bool.false_eq_true, if_false,
    List.all_eq_true, decide_eq_true_eq, List.subperm_ext_iff]
  rfl

theorem meets_canonical_letters_iff (isLetters : c.kind = .includesLetters)
    (positive : c.negated = false) (word : String) :
    x.meets word c.canonical = true ↔
      (SearchString.lettersOf (SearchString.canonical c.string).toList).Subperm word.toList := by
  rw [canonical_of_kind (Or.inr isLetters)]
  exact meets_letters_iff (c := { c with string := SearchString.canonical c.string }) isLetters
    positive word

/-- A word that has the letters of a condition has those of its canonical spelling. All words over
the alphabet are judged alike by both exactly if the condition is negated or no class of it repeats
a letter. -/
theorem letters_agree_iff (x : Lexicon) {c : Condition} (isLetters : c.kind = .includesLetters) :
    (∀ word, x.meets word c = true → x.meets word c.canonical = true) ∧
      ((∀ word, AreCapitals word.toList → x.meets word c.canonical = x.meets word c) ↔
        c.negated = true ∨ ¬SearchString.RepeatsInClass c.string) := by
  cases sign : c.negated with
  | true =>
    have same (word : String) : x.meets word c.canonical = x.meets word c := by
      refine meets_canonical fun _ positive => ?_
      rw [sign] at positive
      contradiction
    exact ⟨fun word meets => (same word).trans meets,
      iff_of_true (fun word _ => same word) (Or.inl rfl)⟩
  | false =>
    have fewer := SearchString.subperm_lettersOf_canonical c.string
    refine ⟨fun word meets => ?_, fun agree => Or.inr ?_, fun distinct word _ => ?_⟩
    · rw [meets_letters_iff isLetters sign] at meets
      exact (meets_canonical_letters_iff isLetters sign word).mpr (fewer.trans meets)
    · -- the word made of the letters of the canonical spelling tells the two apart
      let word := String.ofList (SearchString.lettersOf (SearchString.canonical c.string).toList)
      have letters : word.toList =
          SearchString.lettersOf (SearchString.canonical c.string).toList := String.toList_ofList
      have capitals : AreCapitals word.toList := by
        intro l member
        rw [letters] at member
        exact (SearchString.mem_lettersOf.mp member).1
      have meets : x.meets word c.canonical = true := by
        rw [meets_canonical_letters_iff isLetters sign, letters]
      rw [agree word capitals, meets_letters_iff isLetters sign, letters] at meets
      exact (SearchString.perm_lettersOf_canonical_iff _).mp (fewer.antisymm meets)
    · have same := (SearchString.perm_lettersOf_canonical_iff _).mpr
        (distinct.resolve_left Bool.false_ne_true)
      rw [Bool.eq_iff_iff, meets_canonical_letters_iff isLetters sign,
        meets_letters_iff isLetters sign, same.subperm_right]

/-- A class that lists three letters once. -/
theorem letters_agree_of_class :
    let c := Condition.ofText .includesLetters "t[^abc]a"
    c.kind = .includesLetters ∧
      (Lexicon.actAndCat.meets "CAT" c = true → Lexicon.actAndCat.meets "CAT" c.canonical = true) ∧
      Lexicon.actAndCat.meets "CAT" c.canonical = Lexicon.actAndCat.meets "CAT" c := by
  have units : SearchString.units "t[^abc]a".toList =
      [.plain 't', .letterClass ['^', 'a', 'b', 'c'], .plain 'a'] := by decide
  have distinct : ¬SearchString.RepeatsInClass "t[^abc]a" := by
    rintro ⟨members, member, repeats⟩
    rw [units] at member
    obtain rfl : members = ['^', 'a', 'b', 'c'] := by simpa using member
    exact repeats (by decide)
  obtain ⟨fewer, agree⟩ :=
    letters_agree_iff Lexicon.actAndCat (c := .ofText .includesLetters "t[^abc]a") rfl
  exact ⟨rfl, fewer "CAT", agree.mpr (Or.inr distinct) "CAT" (by simp [AreCapitals])⟩

/-- A class that lists a letter twice asks for two of them, and its canonical spelling for one. So a
search finds a word that does not meet its only condition. -/
theorem not_letters_agree_repeated :
    let c := Condition.ofText .includesLetters "[AA]"
    c.canonical = .ofText .includesLetters "[A]" ∧ AreCapitals "CAT".toList ∧
      Lexicon.actAndCat.meets "CAT" c = false ∧ Lexicon.actAndCat.meets "CAT" c.canonical = true ∧
      "CAT" ∈ Lexicon.actAndCat.search (.allOf [c]) := by
  have canonical : (Condition.ofText .includesLetters "[AA]").canonical =
      .ofText .includesLetters "[A]" := by cbv
  have optimized : (SearchSpec.allOf [.ofText .includesLetters "[AA]"]).optimize =
      (.allOf [.ofText .includesLetters "[A]"], .normal) := by cbv
  have meets : Lexicon.actAndCat.meets "CAT" (.ofText .includesLetters "[A]") = true := by decide
  have fewClasses : ∀ c ∈ (SearchSpec.allOf [.ofText .includesLetters "[AA]"]).conditions,
      c.HasFewClasses := by
    intro c member subanagram
    rw [List.mem_singleton.mp member] at subanagram
    contradiction
  have found : "CAT" ∈ Lexicon.actAndCat.search (.allOf [.ofText .includesLetters "[AA]"]) := by
    rw [Lexicon.reached_actAndCat.mem_search_of_no_limits fewClasses (by rw [optimized])
      (by rw [optimized]; rfl) rfl, optimized, Lexicon.vocabulary_actAndCat]
    refine ⟨by decide, ?_⟩
    rw [Lexicon.meetsAll, SearchSpec.allOf, List.all_cons, meets]
    rfl
  refine ⟨canonical, by simp [AreCapitals], by decide, ?_, found⟩
  rw [canonical]
  exact meets

end Condition

end WordFinder
