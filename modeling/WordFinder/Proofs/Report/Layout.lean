import Mathlib
import WordFinder.Proofs.Text.Parts
import WordFinder.Report.Format

/-!
# Words in columns

A list of words is laid out in rows that have the same number of words each, except the last. The
words of a row start at fixed positions, so they stand below each other, and reading the rows gives
the words back.
-/
set_option autoImplicit false

namespace WordFinder

open Text (isBlank)

/-! ## Parts of a list -/

section Chunks

variable {α : Type} {size fuel : Nat} {xs : List α}

theorem chunks_succ (nonempty : xs ≠ []) :
    chunks size (fuel + 1) xs = xs.take size :: chunks size fuel (xs.drop size) := by
  obtain ⟨x, xs, rfl⟩ := List.exists_cons_of_ne_nil nonempty
  rfl

theorem length_drop_le (positive : 0 < size) (enough : xs.length ≤ fuel + 1) :
    (xs.drop size).length ≤ fuel := by
  rw [List.length_drop]
  omega

theorem flatten_chunks (positive : 0 < size) (enough : xs.length ≤ fuel) :
    (chunks size fuel xs).flatten = xs := by
  induction fuel generalizing xs with
  | zero =>
    rw [List.length_eq_zero_iff.mp (Nat.le_zero.mp enough)]
    rfl
  | succ fuel ih =>
    by_cases nonempty : xs = []
    · rw [nonempty]
      rfl
    · rw [chunks_succ nonempty, List.flatten_cons, ih (length_drop_le positive enough),
        List.take_append_drop]

theorem getElem?_chunks (positive : 0 < size) (enough : xs.length ≤ fuel) (i : Nat) :
    (chunks size fuel xs)[i]? =
      if i * size < xs.length then some ((xs.drop (i * size)).take size) else none := by
  induction fuel generalizing xs i with
  | zero =>
    rw [List.length_eq_zero_iff.mp (Nat.le_zero.mp enough)]
    rfl
  | succ fuel ih =>
    by_cases nonempty : xs = []
    · rw [nonempty]
      rfl
    · rw [chunks_succ nonempty]
      cases i with
      | zero =>
        rw [List.getElem?_cons_zero, Nat.zero_mul, if_pos (List.length_pos_iff.mpr nonempty),
          List.drop_zero]
      | succ i =>
        have within : i * size < xs.length - size ↔ (i + 1) * size < xs.length := by
          rw [Nat.add_mul, Nat.one_mul, Nat.lt_sub_iff_add_lt]
        rw [List.getElem?_cons_succ, ih (length_drop_le positive enough), List.length_drop,
          List.drop_drop, Nat.add_mul, Nat.one_mul, Nat.add_comm size]
        simp only [within, Nat.add_mul, Nat.one_mul]

theorem length_chunks (positive : 0 < size) (enough : xs.length ≤ fuel) :
    (chunks size fuel xs).length = xs.length ⌈/⌉ size := by
  apply eq_of_forall_ge_iff
  intro rows
  rw [← List.getElem?_eq_none_iff, getElem?_chunks positive enough, ceilDiv_le_iff_le_mul positive,
    Nat.mul_comm size]
  split
  · next within => exact ⟨nofun, fun all => absurd within (Nat.not_lt.mpr all)⟩
  · next beyond => exact ⟨fun _ => Nat.not_lt.mp beyond, fun _ => rfl⟩

end Chunks

/-! ## One row -/

def laidOut (width : Nat) : List String → List Char
  | [] => []
  | [word] => word.toList
  | word :: next :: row =>
    word.toList ++ List.replicate (width - word.length + 2) ' ' ++ laidOut width (next :: row)

def IsUnbroken (word : String) : Prop :=
  word ≠ "" ∧ ∀ c ∈ word.toList, isBlank c = false

def StandsAt (position : Nat) (word text : List Char) : Prop :=
  ∃ before after, text = before ++ word ++ after ∧ before.length = position ∧
    (∀ c ∈ before.getLast?, isBlank c = true) ∧ ∀ c ∈ after.head?, isBlank c = true

variable {width : Nat} {row : List String}

theorem isBlank_of_mem_replicate {n : Nat} : ∀ c ∈ List.replicate n ' ', isBlank c = true := by
  intro c member
  rw [List.eq_of_mem_replicate member]
  rfl

theorem toList_padEnd (width : Nat) (word : String) :
    (padEnd width word).toList = word.toList ++ List.replicate (width - word.length) ' ' := by
  rw [padEnd, String.toList_append, String.toList_ofList]

theorem exists_padded_eq (width : Nat) (row : List String) :
    ∃ n, ("  ".intercalate (row.map (padEnd width))).toList =
      laidOut width row ++ List.replicate n ' ' := by
  induction row using laidOut.induct with
  | case1 => exact ⟨0, rfl⟩
  | case2 word =>
    refine ⟨width - word.length, ?_⟩
    rw [List.map_singleton, String.intercalate_singleton, toList_padEnd, laidOut]
  | case3 word next row ih =>
    -- the spaces at the end are those after the last word of the rest
    obtain ⟨n, padded⟩ := ih
    refine ⟨n, ?_⟩
    have gap : ("  " : String).toList = List.replicate 2 ' ' := rfl
    rw [List.map_cons] at padded
    rw [List.map_cons, List.map_cons, String.intercalate_cons_cons, String.toList_append,
      String.toList_append, padded, toList_padEnd, gap, laidOut, List.append_assoc word.toList,
      List.replicate_append_replicate, List.append_assoc, List.append_assoc, List.append_assoc]

theorem laidOut_ne_nil (unbroken : ∀ word ∈ row, IsUnbroken word) (nonempty : row ≠ []) :
    laidOut width row ≠ [] := by
  obtain ⟨word, row, rfl⟩ := List.exists_cons_of_ne_nil nonempty
  have first : word.toList ≠ [] :=
    mt String.toList_eq_nil_iff.mp (unbroken word (List.mem_cons_self ..)).1
  cases row with
  | nil => exact first
  | cons next row =>
    rw [laidOut, List.append_assoc]
    exact List.append_ne_nil_of_left_ne_nil first _

theorem getLast?_laidOut (unbroken : ∀ word ∈ row, IsUnbroken word) :
    ∀ c ∈ (laidOut width row).getLast?, isBlank c = false := by
  induction row using laidOut.induct with
  | case1 => exact nofun
  | case2 word =>
    intro c last
    exact (unbroken word (List.mem_cons_self ..)).2 c (List.mem_of_getLast? last)
  | case3 word next row ih =>
    rw [List.forall_mem_cons] at unbroken
    have more : laidOut width (next :: row) ≠ [] := laidOut_ne_nil unbroken.2 (List.cons_ne_nil _ _)
    rw [laidOut, List.getLast?_append_of_ne_nil _ more]
    exact ih unbroken.2

theorem toList_trimEnd_row (unbroken : ∀ word ∈ row, IsUnbroken word) :
    (Text.trimEnd ("  ".intercalate (row.map (padEnd width)))).toList = laidOut width row := by
  obtain ⟨n, padded⟩ := exists_padded_eq width row
  rw [Text.trimEnd, String.toList_ofList, padded,
    Text.dropTrailingBlanks_append isBlank_of_mem_replicate,
    Text.dropTrailingBlanks_of_visible_last (getLast?_laidOut unbroken)]

theorem wordsFrom_laidOut (unbroken : ∀ word ∈ row, IsUnbroken word) :
    Text.wordsFrom [] (laidOut width row) = row.map String.toList := by
  have nonempty {word : String} (here : IsUnbroken word) : word.toList ≠ [] :=
    mt String.toList_eq_nil_iff.mp here.1
  induction row using laidOut.induct with
  | case1 => rfl
  | case2 word =>
    have here := unbroken word (List.mem_cons_self ..)
    exact Text.wordsFrom_last (nonempty here) here.2
  | case3 word next row ih =>
    rw [List.forall_mem_cons] at unbroken
    rw [laidOut, Text.wordsFrom_word (nonempty unbroken.1) unbroken.1.2 (by simp)
      isBlank_of_mem_replicate, ih unbroken.2]
    rfl

/-- Each word and the spaces after it are as wide as the widest word and a gap of two. -/
theorem standsAt_laidOut (narrow : ∀ word ∈ row, word.length ≤ width) {k : Nat} {word : String}
    (here : row[k]? = some word) :
    StandsAt (k * (width + 2)) word.toList (laidOut width row) := by
  induction row using laidOut.induct generalizing k with
  | case1 => cases here
  | case2 first =>
    cases k with
    | zero =>
      cases here
      exact ⟨[], [], (List.append_nil _).symm, (Nat.zero_mul _).symm, nofun, nofun⟩
    | succ k => cases here
  | case3 first next row ih =>
    rw [List.forall_mem_cons] at narrow
    cases k with
    | zero =>
      obtain rfl : first = word := Option.some.inj here
      refine ⟨[], List.replicate (width - first.length + 2) ' ' ++ laidOut width (next :: row),
        List.append_assoc .., (Nat.zero_mul _).symm, nofun, ?_⟩
      intro c start
      cases start
      rfl
    | succ k =>
      obtain ⟨before, after, parts, length, left, right⟩ := ih narrow.2 here
      -- `first` and the spaces after it are `width + 2` characters, before what the rest begins with
      refine ⟨first.toList ++ List.replicate (width - first.length + 2) ' ' ++ before, after,
        ?_, ?_, ?_, right⟩
      · rw [laidOut, parts]
        simp only [List.append_assoc]
      · have fits : first.length ≤ width := narrow.1
        rw [List.length_append, List.length_append, List.length_replicate, String.length_toList,
          length, Nat.add_mul, Nat.one_mul]
        omega
      · intro c last
        cases before with
        | nil =>
          rw [List.append_nil, List.getLast?_append_of_ne_nil _ (by simp)] at last
          exact isBlank_of_mem_replicate c (List.mem_of_getLast? last)
        | cons d before =>
          rw [List.getLast?_append_of_ne_nil _ (List.cons_ne_nil _ _)] at last
          exact left c last

/-! ## The rows -/

def longest (words : List String) : Nat :=
  (words.map String.length).max?.getD 0

def rowOfWords (words : List String) (perRow i : Nat) : List String :=
  (words.drop (i * max perRow 1)).take (max perRow 1)

variable {words : List String} {perRow : Nat}

theorem perRow_pos (perRow : Nat) : 0 < max perRow 1 :=
  lt_max_of_lt_right Nat.one_pos

theorem length_le_longest {word : String} (member : word ∈ words) : word.length ≤ longest words :=
  List.le_max?_getD_of_mem (List.mem_map_of_mem member)

theorem columns_eq (words : List String) (perRow : Nat) :
    columns words perRow = (chunks (max perRow 1) words.length words).map fun row =>
      Text.trimEnd ("  ".intercalate (row.map (padEnd (longest words)))) := by
  rw [columns, List.foldl_max, Nat.zero_max, longest]

theorem length_columns (words : List String) (perRow : Nat) :
    (columns words perRow).length = words.length ⌈/⌉ max perRow 1 := by
  rw [columns_eq, List.length_map, length_chunks (perRow_pos perRow) le_rfl]

theorem unbroken_of_mem_rowOfWords (unbroken : ∀ word ∈ words, IsUnbroken word) (perRow i : Nat) :
    ∀ word ∈ rowOfWords words perRow i, IsUnbroken word :=
  fun word member => unbroken word (List.mem_of_mem_drop (List.mem_of_mem_take member))

theorem toList_of_getElem?_columns (unbroken : ∀ word ∈ words, IsUnbroken word) {i : Nat}
    {line : String} (here : (columns words perRow)[i]? = some line) :
    line.toList = laidOut (longest words) (rowOfWords words perRow i) := by
  rw [columns_eq, List.getElem?_map,
    getElem?_chunks (perRow_pos perRow) le_rfl] at here
  split at here
  · cases here
    exact toList_trimEnd_row (unbroken_of_mem_rowOfWords unbroken perRow i)
  · cases here

theorem words_of_toList (unbroken : ∀ word ∈ row, IsUnbroken word) {line : String}
    (laid : line.toList = laidOut width row) : Text.words line = row := by
  rw [Text.words, laid, wordsFrom_laidOut unbroken, List.map_map]
  exact (List.map_congr_left fun word _ => String.ofList_toList).trans (List.map_id _)

theorem flatMap_words_columns (unbroken : ∀ word ∈ words, IsUnbroken word) :
    (columns words perRow).flatMap Text.words = words := by
  have parts := flatten_chunks (perRow_pos perRow) (le_refl words.length)
  have read : ∀ row ∈ chunks (max perRow 1) words.length words,
      Text.words (Text.trimEnd ("  ".intercalate (row.map (padEnd (longest words))))) = row := by
    intro row member
    have unbrokenRow : ∀ word ∈ row, IsUnbroken word := by
      intro word inRow
      apply unbroken
      rw [← parts]
      exact List.mem_flatten_of_mem member inRow
    exact words_of_toList unbrokenRow (toList_trimEnd_row unbrokenRow)
  rw [columns_eq, List.flatMap_map, List.flatMap_def, List.map_congr_left read, List.map_id', parts]

/-- Words in columns are read back in order, and those of one column start at one position. -/
theorem columns_keep_words (words : List String) (perRow : Nat)
    (unbroken : ∀ word ∈ words, IsUnbroken word) :
    (columns words perRow).length = words.length ⌈/⌉ max perRow 1 ∧
      (columns words perRow).flatMap Text.words = words ∧
      ∀ i line, (columns words perRow)[i]? = some line →
        Text.words line = rowOfWords words perRow i ∧
          (∀ k word, (Text.words line)[k]? = some word →
            StandsAt (k * (longest words + 2)) word.toList line.toList) ∧
          ∀ c ∈ line.toList.getLast?, isBlank c = false := by
  refine ⟨length_columns words perRow, flatMap_words_columns unbroken, ?_⟩
  intro i line here
  have unbrokenRow := unbroken_of_mem_rowOfWords unbroken perRow i
  have laid := toList_of_getElem?_columns unbroken here
  have read := words_of_toList unbrokenRow laid
  refine ⟨read, ?_, ?_⟩
  · intro k word kth
    rw [read] at kth
    rw [laid]
    apply standsAt_laidOut _ kth
    intro other member
    exact length_le_longest (List.mem_of_mem_drop (List.mem_of_mem_take member))
  · rw [laid]
    exact getLast?_laidOut unbrokenRow

theorem columns_keep_words_gap :
    (∀ word ∈ ["DOGS", "AX", "EMU"], IsUnbroken word) ∧
      columns ["DOGS", "AX", "EMU"] 2 = ["DOGS  AX", "EMU"] ∧
      (columns ["DOGS", "AX", "EMU"] 2).flatMap Text.words = ["DOGS", "AX", "EMU"] ∧
      StandsAt 6 "AX".toList "DOGS  AX".toList := by
  have unbroken : ∀ word ∈ ["DOGS", "AX", "EMU"], IsUnbroken word := by simp [IsUnbroken, isBlank]
  have rows : columns ["DOGS", "AX", "EMU"] 2 = ["DOGS  AX", "EMU"] := by decide
  obtain ⟨-, words, each⟩ := columns_keep_words ["DOGS", "AX", "EMU"] 2 unbroken
  have first : (columns ["DOGS", "AX", "EMU"] 2)[0]? = some "DOGS  AX" := by rw [rows]; rfl
  exact ⟨unbroken, rows, words, (each 0 "DOGS  AX" first).2.1 1 "AX" (by decide)⟩

end WordFinder
