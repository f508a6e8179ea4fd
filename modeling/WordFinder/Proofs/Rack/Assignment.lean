import Mathlib
import WordFinder.Proofs.Rack.Slots
import WordFinder.Proofs.Rack.Supplied

/-!
# Slots assigned to letters

A rack spells a word if the slots written in its string can be assigned to the letters of the word.
A rack that drops slots still has more equal ones than the word has letters, so that one more of them
would change nothing.
-/
set_option autoImplicit false

namespace WordFinder

def Token.slotsOf (tokens : List Token) : Multiset Token :=
  (tokens : Multiset Token).filter (· ≠ .star)

theorem Token.slotsOf_nil : Token.slotsOf [] = 0 := rfl

theorem Token.slotsOf_star : Token.slotsOf [.star] = 0 := rfl

theorem Token.slotsOf_slot {token : Token} (slot : token ≠ .star) :
    Token.slotsOf [token] = {token} := by
  simp [slotsOf, slot]

theorem Token.slotsOf_cons (token : Token) (tokens : List Token) :
    Token.slotsOf (token :: tokens) = Token.slotsOf [token] + Token.slotsOf tokens := by
  rw [slotsOf, slotsOf, slotsOf, ← Multiset.filter_add, Multiset.coe_add, List.singleton_append]

namespace Rack

/-! ## Slots that are dropped -/

namespace Supplied

variable {star mayLeave : Bool} {word : List Char} {slots : Multiset Token} {slot : Token}

theorem card_le (supplied : Supplied star false word slots) : slots.card ≤ word.length := by
  induction supplied with
  | done left => simp [left.resolve_left (by decide)]
  | take accepted others ih => simpa using ih
  | leave starred others ih =>
    rw [List.length_cons]
    omega

theorem cons_slot (supplied : Supplied star true word slots) :
    Supplied star true word (slot ::ₘ slots) := by
  induction supplied with
  | done left => exact done (Or.inl rfl)
  | take accepted others ih =>
    rw [Multiset.cons_swap]
    exact take accepted ih
  | leave starred others ih => exact leave starred ih

theorem of_cons_of_count (many : word.length < slots.count slot)
    (supplied : Supplied star true word (slot ::ₘ slots)) : Supplied star true word slots := by
  induction word generalizing slots with
  | nil => exact done (Or.inl rfl)
  | cons c word ih =>
    rw [List.length_cons] at many
    obtain ⟨taken, rest, same, accepted, later⟩ | ⟨starred, later⟩ := cons_iff.mp supplied
    · obtain ⟨rfl, rfl⟩ | ⟨different, rest, rfl, rfl⟩ := Multiset.cons_eq_cons.mp same
      · -- Another equal slot stands in for the one taken.
        obtain ⟨rest, rfl⟩ :=
          Multiset.exists_cons_of_mem (Multiset.count_pos.mp (Nat.zero_lt_of_lt many))
        rw [Multiset.count_cons_self] at many
        exact take accepted (ih (by omega) later)
      · rw [Multiset.count_cons_of_ne different] at many
        exact take accepted (ih (by omega) later)
    · exact leave starred (ih (by omega) later)

theorem cons_iff_of_count (many : word.length < slots.count slot) :
    Supplied star mayLeave word (slot ::ₘ slots) ↔ Supplied star mayLeave word slots := by
  cases mayLeave with
  | true => exact ⟨of_cons_of_count many, cons_slot⟩
  | false =>
    -- All slots are taken, so neither side can hold.
    have tooMany := many.trans_le (Multiset.count_le_card slot slots)
    constructor
    · intro supplied
      have := supplied.card_le
      rw [Multiset.card_cons] at this
      omega
    · intro supplied
      have := supplied.card_le
      omega

end Supplied

theorem count_slots_letter (rack : Rack) (c : Char) :
    rack.letters.count c ≤ rack.slots.count (.letter c) := by
  rw [slots, Multiset.count_add, Supplied.letterSlots, ← Multiset.coe_count,
    ← Multiset.count_map_eq_count' Token.letter (rack.letters : Multiset Char)
      fun _ _ => Token.letter.inj]
  exact Nat.le_add_right _ _

theorem count_slots_any (rack : Rack) : rack.blanks ≤ rack.slots.count .any := by
  rw [slots, Supplied.otherSlots, ← add_assoc, Multiset.count_add, Multiset.count_replicate_self]
  exact Nat.le_add_left _ _

/-- A token adds its slot to a rack, unless the rack has as many of that slot as it keeps. -/
theorem slots_add {rack : Rack} (few : rack.blanks ≤ maxCopies) (token : Token) :
    (token = .star ∧ (rack.add token).slots = rack.slots) ∨
      (token ≠ .star ∧ (rack.add token).slots = token ::ₘ rack.slots) ∨
        (token ≠ .star ∧ (rack.add token).slots = rack.slots ∧
          maxCopies ≤ rack.slots.count token) := by
  cases token with
  | letter c =>
    rw [add]
    split
    · refine Or.inr (Or.inl ⟨by simp, ?_⟩)
      simp [slots, Supplied.letterSlots, ← Multiset.cons_coe]
    · next full =>
      exact Or.inr (Or.inr ⟨by simp, rfl, (Nat.not_lt.mp full).trans (rack.count_slots_letter c)⟩)
  | any =>
    by_cases room : rack.blanks < maxCopies
    · refine Or.inr (Or.inl ⟨by simp, ?_⟩)
      simp [add, slots, Supplied.otherSlots, Nat.min_eq_left room, Multiset.replicate_succ]
    · have full := Nat.not_lt.mp room
      refine Or.inr (Or.inr ⟨by simp, ?_, full.trans rack.count_slots_any⟩)
      rw [add, Nat.min_eq_right (full.trans (Nat.le_succ _)), ← Nat.le_antisymm few full]
  | oneOf k =>
    refine Or.inr (Or.inl ⟨by simp, ?_⟩)
    have last : (↑(rack.classes ++ [k]) : Multiset LetterClass) = k ::ₘ ↑rack.classes :=
      Multiset.coe_eq_coe.mpr (List.perm_append_singleton k rack.classes)
    rw [add, slots, slots, Supplied.otherSlots, Supplied.otherSlots, last, Multiset.map_cons,
      Multiset.cons_add, Multiset.add_cons]
  | star => exact Or.inl ⟨rfl, rfl⟩

theorem blanks_add_le {rack : Rack} (few : rack.blanks ≤ maxCopies) (token : Token) :
    (rack.add token).blanks ≤ maxCopies := by
  cases token with
  | letter c =>
    rw [add]
    split <;> exact few
  | any => exact Nat.min_le_right _ _
  | oneOf k => exact few
  | star => exact few

variable {star mayLeave : Bool} {word : List Char}

theorem supplied_add {rack : Rack} (few : rack.blanks ≤ maxCopies)
    (short : word.length < maxCopies) (token : Token) (others : Multiset Token) :
    Supplied star mayLeave word ((rack.add token).slots + others) ↔
      Supplied star mayLeave word (rack.slots + (Token.slotsOf [token] + others)) := by
  obtain ⟨rfl, same⟩ | ⟨single, more⟩ | ⟨single, same, full⟩ := slots_add few token
  · rw [same, Token.slotsOf_star, zero_add]
  · rw [more, Token.slotsOf_slot single, Multiset.cons_add, Multiset.singleton_add,
      Multiset.add_cons]
  · rw [same, Token.slotsOf_slot single, Multiset.singleton_add, Multiset.add_cons]
    refine (Supplied.cons_iff_of_count ?_).symm
    rw [Multiset.count_add]
    omega

/-- The slots that a rack drops change no verdict on a word with fewer letters than the rack keeps
equal slots. -/
theorem supplied_foldl {rack : Rack} (few : rack.blanks ≤ maxCopies)
    (short : word.length < maxCopies) (tokens : List Token) :
    Supplied star mayLeave word (tokens.foldl add rack).slots ↔
      Supplied star mayLeave word (rack.slots + Token.slotsOf tokens) := by
  induction tokens generalizing rack with
  | nil => rw [List.foldl_nil, Token.slotsOf_nil, add_zero]
  | cons token tokens ih =>
    rw [List.foldl_cons, ih (blanks_add_le few token), supplied_add few short,
      ← Token.slotsOf_cons]

theorem supplied_ofTokens (short : word.length < maxCopies) (tokens : List Token) :
    Supplied star mayLeave word (ofTokens tokens).slots ↔
      Supplied star mayLeave word (Token.slotsOf tokens) := by
  rw [ofTokens, supplied_foldl (Nat.zero_le _) short, show empty.slots = 0 from rfl, zero_add]

end Rack

/-! ## Assignments -/

def Token.CanServe (tokens : List Token) (c : Char) : Option (Fin tokens.length) → Prop
  | some i => tokens[i] ≠ .star ∧ tokens[i].accepts c = true
  | none => .star ∈ tokens

/-- The slot given to each letter of a word, as a place among some tokens, or none. No slot is given
twice. -/
structure Assignment (tokens : List Token) (word : List Char) where
  given : List (Option (Fin tokens.length))
  served : List.Forall₂ (Token.CanServe tokens) word given
  own : given.reduceOption.Nodup

namespace Assignment

variable {tokens : List Token} {word : List Char}

def UsesAll (a : Assignment tokens word) : Prop :=
  ∀ i : Fin tokens.length, tokens[i] ≠ .star → some i ∈ a.given

theorem slot_of_given (a : Assignment tokens word) {i : Fin tokens.length}
    (given : some i ∈ a.given) : tokens[i] ≠ .star := by
  obtain ⟨n, bound, here⟩ := List.getElem_of_mem given
  have serves := a.served.get (a.served.length_eq ▸ bound) bound
  rw [List.get_eq_getElem, List.get_eq_getElem, here] at serves
  exact serves.1

end Assignment

namespace Rack.Supplied

variable {tokens : List Token} {mayLeave : Bool} {word : List Char}
  {free : Finset (Fin tokens.length)}

def slotsAt (tokens : List Token) (places : Finset (Fin tokens.length)) : Multiset Token :=
  places.val.map (tokens[·])

theorem slotsAt_of_mem {i : Fin tokens.length} (member : i ∈ free) :
    slotsAt tokens free = tokens[i] ::ₘ slotsAt tokens (free.erase i) := by
  rw [slotsAt, slotsAt, ← Multiset.map_cons (tokens[·]), Finset.erase_val,
    Multiset.cons_erase member]

theorem exists_given (slots : ∀ i ∈ free, tokens[i] ≠ .star)
    (supplied : Supplied (tokens.contains .star) mayLeave word (slotsAt tokens free)) :
    ∃ given, List.Forall₂ (Token.CanServe tokens) word given ∧ given.reduceOption.Nodup ∧
      (∀ i, some i ∈ given → i ∈ free) ∧ (mayLeave = true ∨ ∀ i ∈ free, some i ∈ given) := by
  induction word generalizing free with
  | nil =>
    refine ⟨[], .nil, .nil, by simp, (nil_iff.mp supplied).imp_right fun none i member => ?_⟩
    rw [slotsAt_of_mem member] at none
    exact absurd none (Multiset.cons_ne_zero)
  | cons c word ih =>
    obtain ⟨slot, rest, same, accepted, later⟩ | ⟨starred, later⟩ := cons_iff.mp supplied
    · obtain ⟨i, member, rfl⟩ := Multiset.mem_map.mp (same ▸ Multiset.mem_cons_self slot rest)
      rw [slotsAt_of_mem member, Multiset.cons_inj_right] at same
      obtain ⟨given, served, own, inside, used⟩ :=
        ih (fun j other => slots j (Finset.mem_of_mem_erase other)) (same ▸ later)
      refine ⟨some i :: given, .cons ⟨slots i member, accepted⟩ served, ?_, ?_, ?_⟩
      · rw [List.reduceOption_cons_of_some, List.nodup_cons, List.reduceOption_mem_iff]
        exact ⟨fun again => Finset.notMem_erase i free (inside i again), own⟩
      · rintro j (_ | ⟨_, other⟩)
        · exact member
        · exact Finset.mem_of_mem_erase (inside j other)
      · refine used.imp_right fun all j found => ?_
        by_cases here : j = i
        · exact here ▸ List.mem_cons_self
        · exact List.mem_cons_of_mem _ (all j (Finset.mem_erase.mpr ⟨here, found⟩))
    · obtain ⟨given, served, own, inside, used⟩ := ih slots later
      refine ⟨none :: given, .cons (List.contains_iff_mem.mp starred) served, own, ?_, ?_⟩
      · simpa using inside
      · simpa using used

theorem of_given {given : List (Option (Fin tokens.length))}
    (served : List.Forall₂ (Token.CanServe tokens) word given) (own : given.reduceOption.Nodup)
    (inside : ∀ i, some i ∈ given → i ∈ free)
    (used : mayLeave = true ∨ ∀ i ∈ free, some i ∈ given) :
    Supplied (tokens.contains .star) mayLeave word (slotsAt tokens free) := by
  induction served generalizing free with
  | nil =>
    refine done (used.imp_right fun all => ?_)
    have none : free = ∅ :=
      Finset.eq_empty_of_forall_notMem fun i member => List.not_mem_nil (all i member)
    rw [none]
    rfl
  | @cons c place word given serves served ih =>
    cases place with
    | some i =>
      rw [List.reduceOption_cons_of_some, List.nodup_cons, List.reduceOption_mem_iff] at own
      rw [slotsAt_of_mem (inside i List.mem_cons_self)]
      refine take serves.2 (ih own.2 ?_ ?_)
      · intro j other
        exact Finset.mem_erase.mpr
          ⟨fun same => own.1 (same ▸ other), inside j (List.mem_cons_of_mem _ other)⟩
      · refine used.imp_right fun all j found => ?_
        obtain ⟨different, found⟩ := Finset.mem_erase.mp found
        simpa [different] using all j found
    | none =>
      refine leave (List.contains_iff_mem.mpr serves) (ih own ?_ ?_)
      · exact fun i other => inside i (List.mem_cons_of_mem _ other)
      · simpa using used

theorem slotsOf_eq_slotsAt (tokens : List Token) :
    Token.slotsOf tokens = slotsAt tokens (Finset.univ.filter (tokens[·] ≠ .star)) := by
  have whole : (tokens : Multiset Token) =
      Finset.univ.val.map fun i : Fin tokens.length => tokens[i] := by
    rw [Fin.univ_val_map]
    exact congrArg _ (List.ofFn_get tokens).symm
  rw [slotsAt, Finset.filter_val, Token.slotsOf]
  conv_lhs => rw [whole, Multiset.filter_map]
  rfl

theorem slotsOf_iff (tokens : List Token) (word : List Char) :
    Supplied (tokens.contains .star) mayLeave word (Token.slotsOf tokens) ↔
      ∃ a : Assignment tokens word, mayLeave = true ∨ a.UsesAll := by
  rw [slotsOf_eq_slotsAt]
  constructor
  · intro supplied
    obtain ⟨given, served, own, _, used⟩ := exists_given (by simp) supplied
    exact ⟨⟨given, served, own⟩, used.imp_right fun all i slot => all i (by simpa using slot)⟩
  · rintro ⟨a, used⟩
    refine of_given a.served a.own (fun i member => ?_) (used.imp_right fun all i slot => ?_)
    · simpa using a.slot_of_given member
    · exact all i (by simpa using slot)

end Rack.Supplied

namespace Rack

/-- A rack spells a word exactly if the slots written in its string, however many they are, can be
assigned to the letters of the word; for an anagram, all of them. -/
theorem spells_iff_exists_assignment {s word : String} {rack : Rack}
    (parsed : ofString? s = some rack) (letters : ∀ c ∈ word.toList, c.isAlpha = true)
    (nonempty : word ≠ "") (short : word.length < maxCopies) (subanagram : Bool) :
    ∃ tokens, Token.ofString? s = some tokens ∧
      (rack.spells word subanagram = true ↔
        ∃ a : Assignment tokens word.toList, subanagram = true ∨ a.UsesAll) := by
  obtain ⟨tokens, read, rfl⟩ := Option.map_eq_some_iff.mp parsed
  rw [← String.length_toList] at short
  refine ⟨tokens, read, ?_⟩
  rw [spells_iff_supplied letters nonempty, supplied_ofTokens short, star_ofTokens,
    Supplied.slotsOf_iff]

/-- The blank takes what the classes leave. -/
theorem spells_baZ : ∃ tokens, Token.ofString? "[ab][bc]?" = some tokens ∧
    ∃ a : Assignment tokens "baZ".toList, a.UsesAll := by
  have parsed : ofString? "[ab][bc]?" = some ⟨[], 1, [⟨['A', 'B']⟩, ⟨['B', 'C']⟩], false⟩ := by
    decide +kernel
  have letters : ∀ c ∈ "baZ".toList, c.isAlpha = true := List.all_eq_true.mp (by decide +kernel)
  have short : "baZ".length < maxCopies := by decide +kernel
  obtain ⟨tokens, read, same⟩ := spells_iff_exists_assignment parsed letters (by decide) short false
  obtain ⟨a, used⟩ := same.mp (by decide +kernel)
  exact ⟨tokens, read, a, used.resolve_left (by decide)⟩

end Rack

end WordFinder
