import Mathlib
import WordFinder.Text.Blank

/-!
# Parts of a text

A text that is cut at a separator is the parts with the separator between them. The words of a text
are what stands between its blanks, of which those at its end do not matter.
-/
set_option autoImplicit false

namespace WordFinder.Text

/-! ## Between separators -/

theorem splitFrom_ne_nil (separator : List Char) (skip : Nat) (current cs : List Char) :
    splitFrom separator skip current cs ≠ [] := by
  fun_induction splitFrom separator skip current cs with
  | case1 => exact List.cons_ne_nil _ _
  | case2 _ _ _ _ ih => exact ih
  | case3 => exact List.cons_ne_nil _ _
  | case4 _ _ _ _ ih => exact ih

/-- The part being read comes first, and the characters to skip belong to a separator already read. -/
theorem intercalate_splitFrom {separator : List Char} (nonempty : separator ≠ []) (skip : Nat)
    (current cs : List Char) :
    separator.intercalate (splitFrom separator skip current cs) =
      current.reverse ++ cs.drop skip := by
  fun_induction splitFrom separator skip current cs with
  | case1 skip current => rw [List.intercalate_singleton, List.drop_nil, List.append_nil]
  | case2 skip current c cs ih => rw [ih, List.drop_succ_cons]
  | case3 current c cs starts ih =>
    obtain ⟨rest, whole⟩ := List.isPrefixOf_iff_prefix.mp starts
    rw [List.intercalate_cons_of_ne_nil (splitFrom_ne_nil _ _ _ _), ih, List.drop_zero,
      List.reverse_nil, List.nil_append, List.append_assoc, List.append_cancel_left_eq]
    cases separator with
    | nil => exact absurd rfl nonempty
    | cons d separator =>
      rw [List.cons_append, List.cons.injEq] at whole
      rw [← whole.2, List.length_cons, Nat.add_sub_cancel, List.drop_left, List.cons_append, whole.1]
  | case4 current c cs _ ih =>
    rw [ih, List.drop_zero, List.drop_zero, List.reverse_cons, List.append_assoc,
      List.singleton_append]

theorem intercalate_splitOn {separator : String} (nonempty : separator ≠ "") (s : String) :
    separator.intercalate (splitOn separator s) = s := by
  have mark : separator.toList ≠ [] := mt String.toList_eq_nil_iff.mp nonempty
  rw [← String.toList_inj, String.toList_intercalate, splitOn, List.map_map]
  simp only [Function.comp_def, String.toList_ofList, List.map_id']
  exact intercalate_splitFrom mark 0 [] s.toList

/-! ## Before and after a mark -/

variable {mark : Char} {s : String}

theorem splitAtFirst_eq_none_iff : splitAtFirst mark s = none ↔ mark ∉ s.toList := by
  have ends : s.toList.dropWhile (· != mark) = [] ↔ mark ∉ s.toList := by
    rw [List.dropWhile_eq_nil_iff]
    constructor
    · intro others member
      simpa using others mark member
    · intro absent c member
      rw [bne_iff_ne]
      rintro rfl
      exact absent member
  rw [← ends, splitAtFirst]
  cases s.toList.dropWhile (· != mark) <;> simp

theorem splitAtFirst_eq_some_iff {before after : String} :
    splitAtFirst mark s = some (before, after) ↔
      s.toList = before.toList ++ mark :: after.toList ∧ mark ∉ before.toList := by
  constructor
  · intro found
    simp only [splitAtFirst] at found
    split at found
    · exact absurd found (Option.some_ne_none _).symm
    · next c rest starts =>
      have here : c = mark := by
        have head := List.head?_dropWhile_not (· != mark) s.toList
        rw [starts] at head
        simpa using head
      cases found
      rw [here] at starts
      rw [String.toList_ofList, String.toList_ofList, ← starts, List.takeWhile_append_dropWhile]
      refine ⟨rfl, fun member => ?_⟩
      simpa using List.mem_takeWhile_imp member
  · rintro ⟨whole, absent⟩
    have others : ∀ c ∈ before.toList, (c != mark) = true := by
      intro c member
      rw [bne_iff_ne]
      rintro rfl
      exact absent member
    rw [splitAtFirst, whole, List.takeWhile_append_of_pos others, List.dropWhile_append_of_pos others,
      List.takeWhile_cons_of_neg (by simp), List.dropWhile_cons_of_neg (by simp), List.append_nil,
      String.ofList_toList]
    simp only [String.ofList_toList]

/-! ## Between blanks -/

variable {word cs blanks : List Char}

theorem wordsFrom_visible (visible : ∀ c ∈ word, isBlank c = false) (current cs : List Char) :
    wordsFrom current (word ++ cs) = wordsFrom (word.reverse ++ current) cs := by
  induction word generalizing current with
  | nil => rfl
  | cons c word ih =>
    rw [List.forall_mem_cons] at visible
    rw [List.cons_append, wordsFrom, if_neg (Bool.eq_false_iff.mp visible.1), ih visible.2,
      List.reverse_cons, List.append_assoc, List.singleton_append]

theorem wordsFrom_blanks (areBlank : ∀ c ∈ blanks, isBlank c = true) :
    wordsFrom [] (blanks ++ cs) = wordsFrom [] cs := by
  induction blanks with
  | nil => rfl
  | cons c blanks ih =>
    rw [List.forall_mem_cons] at areBlank
    rw [List.cons_append, wordsFrom, if_pos areBlank.1, if_pos List.isEmpty_nil, ih areBlank.2]

theorem wordsFrom_last (nonempty : word ≠ []) (visible : ∀ c ∈ word, isBlank c = false) :
    wordsFrom [] word = [word] := by
  have read := wordsFrom_visible visible [] []
  rw [List.append_nil, List.append_nil] at read
  rw [read, wordsFrom, if_neg (by simpa using nonempty), List.reverse_reverse]

theorem wordsFrom_word (nonempty : word ≠ []) (visible : ∀ c ∈ word, isBlank c = false)
    (some : blanks ≠ []) (areBlank : ∀ c ∈ blanks, isBlank c = true) :
    wordsFrom [] (word ++ blanks ++ cs) = word :: wordsFrom [] cs := by
  obtain ⟨c, blanks, rfl⟩ := List.exists_cons_of_ne_nil some
  rw [List.forall_mem_cons] at areBlank
  rw [List.append_assoc, wordsFrom_visible visible, List.append_nil, List.cons_append, wordsFrom,
    if_pos areBlank.1, if_neg (by simpa using nonempty), List.reverse_reverse,
    wordsFrom_blanks areBlank.2]

theorem dropTrailingBlanks_append (areBlank : ∀ c ∈ blanks, isBlank c = true) :
    dropTrailingBlanks (cs ++ blanks) = dropTrailingBlanks cs := by
  have backwards : ∀ c ∈ blanks.reverse, isBlank c = true := fun c member =>
    areBlank c (List.mem_reverse.mp member)
  rw [dropTrailingBlanks, dropBlanks, List.reverse_append, List.dropWhile_append_of_pos backwards]
  rfl

theorem dropTrailingBlanks_of_visible_last (visible : ∀ c ∈ cs.getLast?, isBlank c = false) :
    dropTrailingBlanks cs = cs := by
  have first : dropBlanks cs.reverse = cs.reverse := by
    rw [← List.head?_reverse] at visible
    cases backwards : cs.reverse with
    | nil => rfl
    | cons c rest =>
      rw [backwards] at visible
      exact List.dropWhile_cons_of_neg (by simpa using visible c rfl)
  rw [dropTrailingBlanks, first, List.reverse_reverse]

end WordFinder.Text
