import Mathlib
import WordFinder.Proofs.MatchSet.Spelling
import WordFinder.Proofs.SearchString.Units
import WordFinder.Report.Display

/-!
# Rows of marked words

Folding a text to upper case changes neither its length nor its white space, so words are laid out in
the same rows whether they are folded before or after. A report on marked words shows the letters of
a row in upper case. Without colours it is therefore the report on the folded words.
-/
set_option autoImplicit false

namespace WordFinder

open Text (upper)

namespace Text

theorem upper_append (s t : String) : upper (s ++ t) = upper s ++ upper t := by
  rw [← String.toList_inj, toList_upper, String.toList_append, String.toList_append, toList_upper,
    toList_upper, List.map_append]

theorem length_upper (s : String) : (upper s).length = s.length := by
  rw [← String.length_toList, toList_upper, List.length_map, String.length_toList]

theorem upper_intercalate (separator : String) (parts : List String) :
    upper (separator.intercalate parts) = (upper separator).intercalate (parts.map upper) := by
  induction parts with
  | nil => rfl
  | cons part parts ih =>
    cases parts with
    | nil => rw [List.map_singleton, String.intercalate_singleton, String.intercalate_singleton]
    | cons next parts =>
      rw [List.map_cons] at ih
      rw [List.map_cons, List.map_cons, String.intercalate_cons_cons, String.intercalate_cons_cons,
        upper_append, upper_append, ih]

theorem dropBlanks_map_toUpper (cs : List Char) :
    dropBlanks (cs.map Char.toUpper) = (dropBlanks cs).map Char.toUpper := by
  have same : isBlank ∘ Char.toUpper = isBlank := funext isBlank_toUpper
  rw [dropBlanks, dropBlanks, List.dropWhile_map, same]

theorem upper_trimEnd (s : String) : upper (trimEnd s) = trimEnd (upper s) := by
  rw [← String.toList_inj, toList_upper, trimEnd, trimEnd, String.toList_ofList,
    String.toList_ofList, toList_upper, dropTrailingBlanks, dropTrailingBlanks, List.map_reverse,
    ← dropBlanks_map_toUpper, List.map_reverse]

end Text

theorem upper_padEnd (width : Nat) (s : String) : upper (padEnd width s) = padEnd width (upper s) := by
  have blanks (n : Nat) : upper (.ofList (List.replicate n ' ')) = .ofList (List.replicate n ' ') := by
    rw [upper, String.toList_ofList, List.map_replicate]
    rfl
  rw [padEnd, padEnd, Text.upper_append, blanks, Text.length_upper]

theorem chunks_map {α β : Type} (f : α → β) (size fuel : Nat) (xs : List α) :
    chunks size fuel (xs.map f) = (chunks size fuel xs).map (List.map f) := by
  induction fuel generalizing xs with
  | zero => cases xs <;> rfl
  | succ fuel ih =>
    cases xs with
    | nil => rfl
    | cons x xs =>
      rw [List.map_cons, chunks, chunks, ← List.map_cons, ← List.map_take, ← List.map_drop, ih,
        List.map_cons]
      · exact List.cons_ne_nil _ _
      · exact List.cons_ne_nil _ _

theorem columns_map_upper (words : List String) (perRow : Nat) :
    columns (words.map upper) perRow = (columns words perRow).map upper := by
  have widths : (words.map upper).map String.length = words.map String.length := by
    rw [List.map_map]
    exact List.map_congr_left fun word _ => Text.length_upper word
  have rows (width : Nat) (row : List String) :
      Text.trimEnd ("  ".intercalate ((row.map upper).map (padEnd width))) =
        upper (Text.trimEnd ("  ".intercalate (row.map (padEnd width)))) := by
    rw [Text.upper_trimEnd, Text.upper_intercalate, List.map_map, List.map_map]
    congr 2
    exact List.map_congr_left fun word _ => (upper_padEnd width word).symm
  rw [columns, columns, widths, List.length_map, chunks_map, List.map_map, List.map_map]
  exact List.map_congr_left fun row _ => rows _ row

namespace Report

def markedLetters (colours : Bool) (row : List Char) : List Char :=
  row.flatMap fun c => (markedLetter colours c).toList

theorem toList_join_markedLetter (colours : Bool) (row : List Char) :
    (String.join (row.map (markedLetter colours))).toList = markedLetters colours row := by
  rw [String.toList_join, List.flatMap_map, markedLetters]

theorem splitFrom_space (current : List Char) (c : Char) (cs : List Char) :
    Text.splitFrom [' '] 0 current (c :: cs) =
      if c = ' ' then current.reverse :: Text.splitFrom [' '] 0 [] cs
      else Text.splitFrom [' '] 0 (c :: current) cs := by
  have starts : [' '].isPrefixOf (c :: cs) = true ↔ c = ' ' := by
    simp only [List.isPrefixOf, Bool.and_true, beq_iff_eq]
    exact eq_comm
  rw [Text.splitFrom]
  simp only [starts]
  rfl

theorem splitFrom_space_ne_nil (current cs : List Char) :
    Text.splitFrom [' '] 0 current cs ≠ [] := by
  induction cs generalizing current with
  | nil => exact List.cons_ne_nil _ _
  | cons c cs ih =>
    rw [splitFrom_space]
    split
    · exact List.cons_ne_nil _ _
    · exact ih _

theorem intercalate_splitFrom_space (colours : Bool) (current cs : List Char) :
    [' '].intercalate ((Text.splitFrom [' '] 0 current cs).map (markedLetters colours)) =
      markedLetters colours (current.reverse ++ cs) := by
  induction cs generalizing current with
  | nil => rw [Text.splitFrom, List.map_singleton, List.intercalate_singleton, List.append_nil]
  | cons c cs ih =>
    rw [splitFrom_space]
    split
    · next space =>
      have others : (Text.splitFrom [' '] 0 [] cs).map (markedLetters colours) ≠ [] :=
        mt List.map_eq_nil_iff.mp (splitFrom_space_ne_nil [] cs)
      have unmarked : (markedLetter colours ' ').toList = [' '] := String.toList_singleton ' '
      rw [List.map_cons, List.intercalate_cons_of_ne_nil others, ih, space]
      simp only [markedLetters, List.flatMap_append, List.flatMap_cons, List.reverse_nil,
        List.nil_append, List.append_assoc, unmarked]
    · rw [ih, List.reverse_cons, List.append_assoc, List.singleton_append]

theorem foundRow_eq_pieces (colours : Bool) (row : String) :
    foundRow colours true row =
      "   " ++ " ".intercalate ((Text.splitOn " " row).map fun piece =>
        String.join (piece.toList.map (markedLetter colours))) ++ "\n" := by
  have pieces : " ".intercalate ((Text.splitOn " " row).map fun piece =>
      String.join (piece.toList.map (markedLetter colours))) =
        String.join (row.toList.map (markedLetter colours)) := by
    rw [← String.toList_inj, String.toList_intercalate, toList_join_markedLetter, Text.splitOn,
      List.map_map, List.map_map]
    simp only [Function.comp_def, toList_join_markedLetter, String.toList_ofList]
    exact intercalate_splitFrom_space colours [] row.toList
  rw [foundRow, if_pos rfl, pieces]

theorem foundRow_marked (row : String) :
    foundRow false true row = foundRow false false (upper row) := by
  have letter (c : Char) : markedLetter false c = .singleton c.toUpper := by
    rw [markedLetter]
    split
    · rfl
    · next notLower => rw [Char.toUpper_eq_of_not_isLower notLower]
  have letters : String.join (row.toList.map (markedLetter false)) = upper row := by
    rw [← String.toList_inj, Text.toList_upper, toList_join_markedLetter, markedLetters,
      List.map_eq_flatMap]
    simp only [letter, String.toList_singleton]
  rw [foundRow, foundRow, if_pos rfl, letters]
  rfl

theorem found_marked (spec : String) (words : List String) (elapsed : String) :
    found false true spec words elapsed = found false false spec (words.map upper) elapsed := by
  have rows : (columns words wordsPerRow).map (foundRow false true) =
      (columns (words.map upper) wordsPerRow).map (foundRow false false) := by
    rw [columns_map_upper, List.map_map]
    exact List.map_congr_left fun row _ => foundRow_marked row
  rw [found, found, rows, List.length_map, List.isEmpty_map]

end Report

end WordFinder
