import Mathlib
import WordFinder.Proofs.Rack.Supply
import WordFinder.Proofs.Text.Upper

/-!
# Slots and lengths

How the slots of a rack bound the length of the words spelled from it. Slots beyond the most that a
rack keeps are dropped, but then it has more slots than any word of a lexicon has letters.
-/
set_option autoImplicit false

namespace WordFinder

def Token.slots (tokens : List Token) : Nat :=
  tokens.countP (· != .star)

def Token.isClass : Token → Bool
  | .oneOf _ => true
  | _ => false

namespace Rack

variable {rack : Rack} {word : String} {subanagram : Bool}

theorem supplied_of_spells (capitals : AreCapitals word.toList)
    (spelled : rack.spells word subanagram = true) :
    (subanagram = true ∨ (takeLetters rack.letters word.toList).2 = []) ∧
      canSupply rack.star subanagram (takeLetters rack.letters word.toList).1 rack.classes
        rack.blanks = true := by
  simp only [spells, Text.map_toUpper_of_capitals capitals, Bool.and_eq_true, Bool.or_eq_true,
    List.isEmpty_iff] at spelled
  exact ⟨spelled.1.2, spelled.2⟩

theorem length_le_slotCount (noStar : rack.star = false) (capitals : AreCapitals word.toList)
    (spelled : rack.spells word subanagram = true) : word.length ≤ rack.slotCount := by
  obtain ⟨_, supplied⟩ := supplied_of_spells capitals spelled
  rw [noStar] at supplied
  have others := length_le_of_canSupply supplied
  have balance := length_takeLetters rack.letters word.toList
  rw [String.length_toList] at balance
  rw [slotCount]
  omega

theorem slotCount_le_length (capitals : AreCapitals word.toList)
    (spelled : rack.spells word false = true) : rack.slotCount ≤ word.length := by
  obtain ⟨left, supplied⟩ := supplied_of_spells capitals spelled
  have others := le_length_of_canSupply supplied
  have balance := length_takeLetters rack.letters word.toList
  have none : (takeLetters rack.letters word.toList).2 = [] := left.resolve_left (by decide)
  rw [none, String.length_toList, List.length_nil] at balance
  rw [slotCount]
  omega

/-! ## Racks of tokens -/

theorem slotCount_add_le (rack : Rack) (token : Token) :
    (rack.add token).slotCount ≤ rack.slotCount + Token.slots [token] := by
  cases token with
  | letter c =>
    rw [add]
    split
    · simp [slotCount, Token.slots]
      omega
    · simp [slotCount, Token.slots]
  | any => simp [add, slotCount, Token.slots]; omega
  | oneOf k => simp [add, slotCount, Token.slots]; omega
  | star => simp [add, slotCount, Token.slots]

theorem slotCount_le_add (rack : Rack) (token : Token) :
    min (rack.slotCount + Token.slots [token]) maxCopies ≤ (rack.add token).slotCount := by
  cases token with
  | letter c =>
    rw [add]
    split
    · simp [slotCount, Token.slots]
    · next full =>
      have := rack.letters.count_le_length (a := c)
      simp [slotCount, Token.slots]
      omega
  | any => simp [add, slotCount, Token.slots]; omega
  | oneOf k => simp [add, slotCount, Token.slots]
  | star => simp [add, slotCount, Token.slots]

theorem slots_cons (token : Token) (tokens : List Token) :
    Token.slots (token :: tokens) = Token.slots [token] + Token.slots tokens := by
  rw [Token.slots, Token.slots, Token.slots, ← List.countP_append, List.singleton_append]

theorem slotCount_foldl (tokens : List Token) (rack : Rack) :
    (tokens.foldl add rack).slotCount ≤ rack.slotCount + Token.slots tokens ∧
      min (rack.slotCount + Token.slots tokens) maxCopies ≤ (tokens.foldl add rack).slotCount := by
  induction tokens generalizing rack with
  | nil => simp [Token.slots]
  | cons token tokens ih =>
    obtain ⟨most, least⟩ := ih (rack.add token)
    have mostHere := slotCount_add_le rack token
    have leastHere := slotCount_le_add rack token
    rw [List.foldl_cons, slots_cons]
    omega

theorem slotCount_ofTokens_le (tokens : List Token) :
    (ofTokens tokens).slotCount ≤ Token.slots tokens := by
  have := (slotCount_foldl tokens empty).1
  rwa [show empty.slotCount = 0 from rfl, Nat.zero_add] at this

theorem le_slotCount_ofTokens (tokens : List Token) :
    min (Token.slots tokens) maxCopies ≤ (ofTokens tokens).slotCount := by
  have := (slotCount_foldl tokens empty).2
  rwa [show empty.slotCount = 0 from rfl, Nat.zero_add] at this

theorem star_foldl (tokens : List Token) (rack : Rack) :
    (tokens.foldl add rack).star = (rack.star || tokens.contains .star) := by
  induction tokens generalizing rack with
  | nil => simp
  | cons token tokens ih =>
    have here : (rack.add token).star = (rack.star || token == .star) := by
      cases token with
      | letter c =>
        rw [add]
        split <;> simp
      | _ => simp [add]
    rw [List.foldl_cons, ih, here, List.contains_cons, Bool.or_assoc, Bool.beq_comm]

theorem star_ofTokens (tokens : List Token) : (ofTokens tokens).star = tokens.contains .star := by
  rw [ofTokens, star_foldl]
  rfl

theorem count_letters_foldl (tokens : List Token) (rack : Rack) (c : Char)
    (few : rack.letters.count c ≤ maxCopies) :
    (tokens.foldl add rack).letters.count c =
      min (rack.letters.count c + tokens.count (.letter c)) maxCopies := by
  induction tokens generalizing rack with
  | nil => simpa using few
  | cons token tokens ih =>
    have here : (rack.add token).letters.count c =
        min (rack.letters.count c + [token].count (.letter c)) maxCopies := by
      cases token with
      | letter d =>
        rw [add]
        by_cases same : d = c
        · subst same
          split
          · next room => simp; omega
          · next full => simp; omega
        · split <;> simp [same, few]
      | _ => simp [add, few]
    have whole : (token :: tokens).count (.letter c) =
        [token].count (.letter c) + tokens.count (.letter c) := by
      rw [← List.count_append, List.singleton_append]
    rw [List.foldl_cons, ih _ (here ▸ Nat.min_le_right _ _), here, whole]
    omega

theorem count_letters_ofTokens (tokens : List Token) (c : Char) :
    (ofTokens tokens).letters.count c = min (tokens.count (.letter c)) maxCopies := by
  rw [ofTokens, count_letters_foldl _ _ _ (Nat.zero_le _), show empty.letters = [] from rfl,
    List.count_nil, Nat.zero_add]

theorem length_classes_foldl (tokens : List Token) (rack : Rack) :
    (tokens.foldl add rack).classes.length =
      rack.classes.length + tokens.countP Token.isClass := by
  induction tokens generalizing rack with
  | nil => simp
  | cons token tokens ih =>
    rw [List.foldl_cons, ih]
    cases token with
    | letter c =>
      rw [add]
      split <;> simp [Token.isClass]
    | oneOf k => simp [add, List.countP_cons, Token.isClass]; omega
    | _ => simp [add, Token.isClass]

end Rack

end WordFinder
