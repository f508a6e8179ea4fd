import Mathlib
import WordFinder.Proofs.Rack.Supply
import WordFinder.Proofs.Text.Upper

/-!
# Letters supplied in any order

What a rack means whatever the order in which slots are tried: each letter takes a slot that accepts
it, or the star, and no slot is taken twice. A letter may as well take its own letter slot: the letter
that would have taken that slot takes the other one instead.
-/
set_option autoImplicit false

namespace WordFinder

theorem Token.accepts_toUpper (token : Token) (c : Char) :
    token.accepts c.toUpper = token.accepts c := by
  cases token <;> simp [accepts, LetterClass.accepts, Char.toUpper_toUpper_eq_toUpper,
    Char.isAlpha_toUpper_eq_isAlpha]

namespace Rack

/-- Slots that can be given to the letters of a word, each to one letter that it accepts; letters
without a slot are left to the star. Unless slots may be left over, all of them are given. -/
inductive Supplied (star mayLeave : Bool) : List Char → Multiset Token → Prop where
  | done {slots : Multiset Token} (left : mayLeave = true ∨ slots = 0) :
      Supplied star mayLeave [] slots
  | take {slot : Token} {c : Char} {word : List Char} {slots : Multiset Token}
      (accepted : slot.accepts c = true) (others : Supplied star mayLeave word slots) :
      Supplied star mayLeave (c :: word) (slot ::ₘ slots)
  | leave {c : Char} {word : List Char} {slots : Multiset Token} (starred : star = true)
      (others : Supplied star mayLeave word slots) : Supplied star mayLeave (c :: word) slots

namespace Supplied

variable {star mayLeave : Bool} {c : Char} {word : List Char} {slots : Multiset Token}
  {slot instead : Token}

theorem nil_iff : Supplied star mayLeave [] slots ↔ mayLeave = true ∨ slots = 0 := by
  constructor
  · intro supplied
    cases supplied with
    | done left => exact left
  · exact done

theorem cons_iff :
    Supplied star mayLeave (c :: word) slots ↔
      (∃ slot rest, slots = slot ::ₘ rest ∧ slot.accepts c = true ∧
          Supplied star mayLeave word rest) ∨
        (star = true ∧ Supplied star mayLeave word slots) := by
  constructor
  · intro supplied
    cases supplied with
    | take accepted others => exact Or.inl ⟨_, _, rfl, accepted, others⟩
    | leave starred others => exact Or.inr ⟨starred, others⟩
  · rintro (⟨slot, rest, rfl, accepted, others⟩ | ⟨starred, others⟩)
    · exact take accepted others
    · exact leave starred others

theorem map_toUpper_iff :
    Supplied star mayLeave (word.map Char.toUpper) slots ↔ Supplied star mayLeave word slots := by
  induction word generalizing slots with
  | nil => rfl
  | cons c word ih => simp only [List.map_cons, cons_iff, Token.accepts_toUpper, ih]

/-! ## One slot in the place of another -/

theorem replace (wider : ∀ d, slot.accepts d = true → instead.accepts d = true)
    (supplied : Supplied star mayLeave word (slot ::ₘ slots)) :
    Supplied star mayLeave word (instead ::ₘ slots) := by
  induction word generalizing slots with
  | nil => exact done ((nil_iff.mp supplied).imp_right fun none => absurd none (by simp))
  | cons c word ih =>
    obtain ⟨taken, rest, same, accepted, later⟩ | ⟨starred, later⟩ := cons_iff.mp supplied
    · obtain ⟨rfl, rfl⟩ | ⟨_, rest, rfl, rfl⟩ := Multiset.cons_eq_cons.mp same
      · exact take (wider c accepted) later
      · rw [Multiset.cons_swap]
        exact take accepted (ih later)
    · exact leave starred (ih later)

theorem of_cons (supplied : Supplied true mayLeave word (slot ::ₘ slots)) :
    Supplied true mayLeave word slots := by
  induction word generalizing slots with
  | nil => exact done ((nil_iff.mp supplied).imp_right fun none => absurd none (by simp))
  | cons c word ih =>
    obtain ⟨taken, rest, same, accepted, later⟩ | ⟨starred, later⟩ := cons_iff.mp supplied
    · obtain ⟨rfl, rfl⟩ | ⟨_, rest, rfl, rfl⟩ := Multiset.cons_eq_cons.mp same
      · exact leave rfl later
      · exact take accepted (ih later)
    · exact leave rfl (ih later)

theorem cons_iff_of_letter (capital : c.isUpper = true) :
    Supplied star mayLeave (c :: word) (.letter c ::ₘ slots) ↔
      Supplied star mayLeave word slots := by
  constructor
  · intro supplied
    obtain ⟨taken, rest, same, accepted, later⟩ | ⟨starred, later⟩ := cons_iff.mp supplied
    · obtain ⟨_, rfl⟩ | ⟨_, rest, rfl, rfl⟩ := Multiset.cons_eq_cons.mp same
      · exact later
      · -- The slot that the letter took serves the letter that took its letter slot.
        refine later.replace fun d accepts => ?_
        have sameLetter : c = d.toUpper := by simpa [Token.accepts] using accepts
        rw [← Token.accepts_toUpper, ← sameLetter, accepted]
    · subst starred
      exact later.of_cons
  · exact take (by simp [Token.accepts, Text.toUpper_of_isUpper capital])

/-! ## Letter slots first -/

def letterSlots (letters : List Char) : Multiset Token :=
  Multiset.map .letter letters

theorem letterSlots_of_mem {letters : List Char} (member : c ∈ letters) :
    letterSlots letters = .letter c ::ₘ letterSlots (letters.erase c) := by
  rw [letterSlots, letterSlots, ← Multiset.map_cons, Multiset.cons_coe,
    Multiset.coe_eq_coe.mpr (List.perm_cons_erase member)]

theorem cons_iff_of_notMem {letters : List Char} (capital : c.isUpper = true)
    (missing : c ∉ letters) :
    Supplied star mayLeave (c :: word) (letterSlots letters + slots) ↔
      (∃ slot rest, slots = slot ::ₘ rest ∧ slot.accepts c = true ∧
          Supplied star mayLeave word (letterSlots letters + rest)) ∨
        (star = true ∧ Supplied star mayLeave word (letterSlots letters + slots)) := by
  rw [cons_iff]
  refine or_congr_left ⟨?_, ?_⟩
  · rintro ⟨slot, rest, same, accepted, later⟩
    have member : slot ∈ letterSlots letters + slots := same ▸ Multiset.mem_cons_self slot rest
    rcases Multiset.mem_add.mp member with letter | other
    · obtain ⟨d, found, rfl⟩ := Multiset.mem_map.mp letter
      have isC : d = c := by simpa [Token.accepts, Text.toUpper_of_isUpper capital] using accepted
      exact absurd (isC ▸ found) missing
    · obtain ⟨remaining, rfl⟩ := Multiset.exists_cons_of_mem other
      rw [Multiset.add_cons, Multiset.cons_inj_right] at same
      exact ⟨slot, remaining, rfl, accepted, same ▸ later⟩
  · rintro ⟨slot, rest, rfl, accepted, later⟩
    exact ⟨slot, letterSlots letters + rest, Multiset.add_cons _ _ _, accepted, later⟩

theorem letterSlots_add_iff {letters : List Char} (capitals : AreCapitals word) :
    Supplied star mayLeave word (letterSlots letters + slots) ↔
      (mayLeave = true ∨ (takeLetters letters word).2 = []) ∧
        Supplied star mayLeave (takeLetters letters word).1 slots := by
  induction word generalizing letters slots with
  | nil => simp [takeLetters, nil_iff, letterSlots, or_and_left]
  | cons c word ih =>
    obtain ⟨capital, capitals⟩ := areCapitals_cons.mp capitals
    by_cases member : letters.contains c = true
    · rw [takeLetters_cons_of_mem member, ← ih capitals,
        letterSlots_of_mem (List.contains_iff_mem.mp member), Multiset.cons_add,
        cons_iff_of_letter capital]
    · rw [takeLetters_cons_of_notMem member,
        cons_iff_of_notMem capital (by simpa using member), cons_iff]
      simp only [ih capitals]
      constructor
      · rintro (⟨slot, rest, rfl, accepted, left, later⟩ | ⟨starred, left, later⟩)
        · exact ⟨left, Or.inl ⟨slot, rest, rfl, accepted, later⟩⟩
        · exact ⟨left, Or.inr ⟨starred, later⟩⟩
      · rintro ⟨left, ⟨slot, rest, rfl, accepted, later⟩ | ⟨starred, later⟩⟩
        · exact Or.inl ⟨slot, rest, rfl, accepted, left, later⟩
        · exact Or.inr ⟨starred, left, later⟩

/-! ## Classes, blanks and the star -/

def otherSlots (classes : List LetterClass) (blanks : Nat) : Multiset Token :=
  Multiset.map .oneOf classes + Multiset.replicate blanks .any

variable {classes : List LetterClass} {blanks : Nat}

theorem otherSlots_of_mem {k : LetterClass} (member : k ∈ classes) :
    otherSlots classes blanks = .oneOf k ::ₘ otherSlots (classes.erase k) blanks := by
  rw [otherSlots, otherSlots, ← Multiset.cons_add, ← Multiset.map_cons, Multiset.cons_coe,
    Multiset.coe_eq_coe.mpr (List.perm_cons_erase member)]

theorem otherSlots_of_blank (some : blanks ≠ 0) :
    otherSlots classes blanks = .any ::ₘ otherSlots classes (blanks - 1) := by
  rw [otherSlots, otherSlots, ← Multiset.add_cons, ← Multiset.replicate_succ,
    Nat.sub_add_cancel (Nat.pos_of_ne_zero some)]

theorem mem_otherSlots_iff :
    slot ∈ otherSlots classes blanks ↔
      (∃ k ∈ classes, slot = .oneOf k) ∨ (blanks ≠ 0 ∧ slot = .any) := by
  simp [otherSlots, Multiset.mem_replicate, eq_comm]

theorem canSupply_iff (letters : ∀ c ∈ word, c.isAlpha = true) :
    canSupply star mayLeave word classes blanks = true ↔
      Supplied star mayLeave word (otherSlots classes blanks) := by
  induction word generalizing classes blanks with
  | nil => simp [canSupply_nil_iff, nil_iff, otherSlots, ← Multiset.card_eq_zero]
  | cons c word ih =>
    obtain ⟨letter, letters⟩ := List.forall_mem_cons.mp letters
    rw [canSupply_cons_iff, cons_iff, ← or_assoc]
    simp only [ih letters]
    refine or_congr_left ⟨?_, ?_⟩
    · rintro (⟨k, member, accepts, later⟩ | ⟨some, later⟩)
      · exact ⟨.oneOf k, _, otherSlots_of_mem member, accepts, later⟩
      · exact ⟨.any, _, otherSlots_of_blank some, letter, later⟩
    · rintro ⟨slot, rest, same, accepted, later⟩
      have member : slot ∈ otherSlots classes blanks := same ▸ Multiset.mem_cons_self slot rest
      obtain ⟨k, found, rfl⟩ | ⟨some, rfl⟩ := mem_otherSlots_iff.mp member
      · rw [otherSlots_of_mem found, Multiset.cons_inj_right] at same
        exact Or.inl ⟨k, found, accepted, same ▸ later⟩
      · rw [otherSlots_of_blank some, Multiset.cons_inj_right] at same
        exact Or.inr ⟨some, same ▸ later⟩

end Supplied

def slots (rack : Rack) : Multiset Token :=
  Supplied.letterSlots rack.letters + Supplied.otherSlots rack.classes rack.blanks

/-- With letter slots first, then classes, blanks and the star, a rack spells every word whose letters
its slots can supply in any way. -/
theorem spells_iff_supplied {rack : Rack} {word : String} {subanagram : Bool}
    (letters : ∀ c ∈ word.toList, c.isAlpha = true) (nonempty : word ≠ "") :
    rack.spells word subanagram = true ↔
      Supplied rack.star subanagram word.toList rack.slots := by
  have capitals : AreCapitals (word.toList.map Char.toUpper) := by
    intro c member
    obtain ⟨d, found, rfl⟩ := List.mem_map.mp member
    rw [Char.isUpper_toUpper_eq_isAlpha, letters d found]
  have allUpper : (word.toList.map Char.toUpper).all Char.isUpper = true :=
    List.all_eq_true.mpr capitals
  have someLetters : (word.toList.map Char.toUpper).isEmpty = false := by
    simpa [List.isEmpty_eq_false_iff] using nonempty
  rw [← Supplied.map_toUpper_iff, slots, Supplied.letterSlots_add_iff capitals,
    ← Supplied.canSupply_iff fun c member =>
      Text.isAlpha_of_isUpper (capitals c ((takeLetters_sublist _ _).subset member))]
  simp [spells, someLetters, allUpper]

end Rack

end WordFinder
