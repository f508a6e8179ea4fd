import Mathlib
import WordFinder.SavedSearch.Writer
import WordFinder.Text.Blank
import WordFinder.Text.Numeral

/-!
# Numerals read back

Every signed number of 32 bits is read back from its decimal numeral, and white space that a numeral
does not have cannot be trimmed from it.
-/
set_option autoImplicit false

namespace WordFinder

namespace Text

theorem toNat_of_isDigit {c : Char} (digit : c.isDigit = true) : 48 ≤ c.toNat ∧ c.toNat ≤ 57 := by
  simp only [Char.isDigit, Bool.and_eq_true, decide_eq_true_eq, ge_iff_le,
    UInt32.le_iff_toNat_le] at digit
  exact digit

theorem isBlank_of_isDigit {c : Char} (digit : c.isDigit = true) : isBlank c = false := by
  obtain ⟨low, high⟩ := toNat_of_isDigit digit
  simp [isBlank]
  omega

theorem dropBlanks_of_none {cs : List Char} (none : ∀ c ∈ cs, isBlank c = false) :
    dropBlanks cs = cs := by
  cases cs with
  | nil => rfl
  | cons c cs =>
    rw [dropBlanks, List.dropWhile_cons_of_neg (by simp [none c (List.mem_cons_self ..)])]

theorem trim_of_no_blanks {s : String} (none : ∀ c ∈ s.toList, isBlank c = false) : trim s = s := by
  have backwards : ∀ c ∈ s.toList.reverse, isBlank c = false := by
    intro c member
    exact none c (List.mem_reverse.mp member)
  rw [trim, dropTrailingBlanks, dropBlanks_of_none none, dropBlanks_of_none backwards,
    List.reverse_reverse, String.ofList_toList]

theorem le_ofDigitChars (cs : List Char) (n : Nat) : n ≤ Nat.ofDigitChars 10 cs n := by
  induction cs generalizing n with
  | nil => simp
  | cons c cs ih =>
    rw [Nat.ofDigitChars_cons]
    have := ih (10 * n + (c.toNat - '0'.toNat))
    omega

/-- Digits are added one by one, and what was read so far is never larger than the whole, so the
bounds on the whole are bounds on every step. -/
theorem readDigits_of_digits {unit : Int} (sign : unit = 1 ∨ unit = -1) {cs : List Char}
    (digits : ∀ c ∈ cs, c.isDigit = true) (n : Nat)
    (upper : unit * Nat.ofDigitChars 10 cs n < 0x80000000)
    (lower : -0x80000000 ≤ unit * Nat.ofDigitChars 10 cs n) :
    readDigits unit (unit * n) cs = .ok (unit * Nat.ofDigitChars 10 cs n) := by
  induction cs generalizing n with
  | nil => rfl
  | cons c cs ih =>
    have digit := digits c (List.mem_cons_self ..)
    have more := le_ofDigitChars cs (10 * n + (c.toNat - '0'.toNat))
    have next : 10 * (unit * n) + unit * digitOf c =
        unit * (10 * n + (c.toNat - '0'.toNat) : Nat) := by
      rw [digitOf]
      push_cast
      ring
    rw [Nat.ofDigitChars_cons] at upper lower ⊢
    have rest := ih (fun d member => digits d (List.mem_cons_of_mem _ member)) _ upper lower
    have below : unit * (10 * n + (c.toNat - '0'.toNat) : Nat) < 0x80000000 := by
      rcases sign with rfl | rfl <;> omega
    have above : -0x80000000 ≤ unit * (10 * n + (c.toNat - '0'.toNat) : Nat) := by
      rcases sign with rfl | rfl <;> omega
    rw [readDigits, next, digit]
    simp only [Bool.not_true, Bool.false_eq_true, if_false]
    rw [if_neg (not_le.mpr below), if_neg (not_lt.mpr above)]
    exact rest

theorem readUnsigned_toDigits {unit : Int} (sign : unit = 1 ∨ unit = -1) (n : Nat)
    (upper : unit * n < 0x80000000) (lower : -0x80000000 ≤ unit * n) :
    readUnsigned unit (Nat.toDigits 10 n) = .ok (unit * n) := by
  have digits : ∀ c ∈ Nat.toDigits 10 n, c.isDigit = true := fun c member =>
    Nat.isDigit_of_mem_toDigits (by decide) (by decide) member
  have read := readDigits_of_digits sign digits 0 (by simpa using upper) (by simpa using lower)
  rw [Nat.ofDigitChars_ten_toDigits, Nat.cast_zero, mul_zero] at read
  rw [readUnsigned, if_neg (by simp [Nat.toDigits_ne_nil]), read]

theorem readSigned_of_digit {c : Char} (digit : c.isDigit = true) (cs : List Char) :
    readSigned (c :: cs) = readUnsigned 1 (c :: cs) := by
  rw [readSigned.eq_4]
  · simp
  · rintro rest same
    rw [(List.cons.inj same).1] at digit
    exact absurd digit (by decide)
  · rintro rest same
    rw [(List.cons.inj same).1] at digit
    exact absurd digit (by decide)

end Text

namespace SavedSearch

theorem toList_numberText (n : Int32) :
    (numberText n).toList =
      if 0 ≤ n.toInt then Nat.toDigits 10 n.toInt.toNat
      else '-' :: Nat.toDigits 10 (-n.toInt).toNat := by
  rw [numberText, Int.toString_eq_repr, Int.repr_eq_if]
  split
  · exact Nat.toList_repr
  · rw [String.toList_append, Nat.toList_repr]
    rfl

theorem numeral_of_mem_numberText {n : Int32} {c : Char} (member : c ∈ (numberText n).toList) :
    c = '-' ∨ c.isDigit = true := by
  rw [toList_numberText] at member
  split at member
  · exact Or.inr (Nat.isDigit_of_mem_toDigits (by decide) (by decide) member)
  · rcases List.mem_cons.mp member with same | member
    · exact Or.inl same
    · exact Or.inr (Nat.isDigit_of_mem_toDigits (by decide) (by decide) member)

theorem readSigned_numberText (n : Int32) :
    Text.readSigned (numberText n).toList = .ok n.toInt := by
  have below := n.toInt_lt
  have above := n.le_toInt
  rw [toList_numberText]
  split
  · next nonneg =>
    have read := Text.readUnsigned_toDigits (Or.inl rfl) n.toInt.toNat (by omega) (by omega)
    obtain ⟨c, cs, chars⟩ := List.exists_cons_of_ne_nil
      (Nat.toDigits_ne_nil (n := n.toInt.toNat) (b := 10))
    have digit : c.isDigit = true :=
      Nat.isDigit_of_mem_toDigits (by decide) (by decide) (chars ▸ List.mem_cons_self ..)
    rw [chars] at read ⊢
    rw [Text.readSigned_of_digit digit, read, one_mul, Int.toNat_of_nonneg nonneg]
  · next neg =>
    have read := Text.readUnsigned_toDigits (Or.inr rfl) (-n.toInt).toNat (by omega) (by omega)
    rw [Text.readSigned, read]
    congr 1
    omega

theorem isBlank_of_mem_numberText {n : Int32} {c : Char} (member : c ∈ (numberText n).toList) :
    Text.isBlank c = false := by
  rcases numeral_of_mem_numberText member with rfl | digit
  · decide
  · exact Text.isBlank_of_isDigit digit

theorem int32?_numberText (n : Int32) : Text.int32? (Text.trim (numberText n)) = some n := by
  rw [Text.trim_of_no_blanks fun c => isBlank_of_mem_numberText, Text.int32?, Text.readInt32,
    readSigned_numberText]
  simp [Except.map, Except.toOption]

end SavedSearch

end WordFinder
