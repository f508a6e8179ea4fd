import Mathlib
import WordFinder.Proofs.Lists
import WordFinder.Proofs.SearchString.Units
import WordFinder.Proofs.Text.Parts
import WordFinder.Tile.Distribution

/-!
# What a distribution says

A distribution is read entry by entry. If each entry names a tile and a count, the last entry for a
tile says how many there are, and there is a bag unless one of these counts is too large for the
table. Otherwise the first entry that does not is reported with what is wrong with it.
-/
set_option autoImplicit false

namespace WordFinder

namespace Text

/-- A numeral for a count: decimal digits, which a plus sign may precede, of a value below 2^64. -/
def IsCount (text : List Char) (n : Nat) : Prop :=
  ∃ digits, (text = digits ∨ text = '+' :: digits) ∧ digits ≠ [] ∧
    (∀ c ∈ digits, c.isDigit = true) ∧ n = Nat.ofDigitChars 10 digits 0 ∧ n < 2 ^ 64

def withoutPlus : List Char → List Char
  | '+' :: cs => cs
  | cs => cs

theorem eq_or_of_withoutPlus (text : List Char) :
    text = withoutPlus text ∨ text = '+' :: withoutPlus text := by
  unfold withoutPlus
  split
  · exact .inr rfl
  · exact .inl rfl

theorem withoutPlus_of_digits {digits : List Char} (all : ∀ c ∈ digits, c.isDigit = true) :
    withoutPlus digits = digits := by
  unfold withoutPlus
  split
  · exact absurd (all '+' (List.mem_cons_self ..)) (by decide)
  · rfl

theorem count?_eq (s : String) :
    count? s =
      if !(withoutPlus s.toList).isEmpty && (withoutPlus s.toList).all Char.isDigit then
        if Nat.ofDigitChars 10 (withoutPlus s.toList) 0 < 2 ^ 64 then
          some (Nat.ofDigitChars 10 (withoutPlus s.toList) 0)
        else none
      else none :=
  rfl

theorem count?_eq_some_iff {s : String} {n : Nat} : count? s = some n ↔ IsCount s.toList n := by
  have areDigits {digits : List Char} : (!digits.isEmpty && digits.all Char.isDigit) = true ↔
      digits ≠ [] ∧ ∀ c ∈ digits, c.isDigit = true := by
    rw [Bool.and_eq_true, Bool.not_eq_true', List.isEmpty_eq_false_iff, List.all_eq_true]
  rw [count?_eq, Option.ite_none_right_eq_some, Option.ite_none_right_eq_some, areDigits]
  constructor
  · rintro ⟨⟨nonempty, all⟩, small, value⟩
    cases value
    exact ⟨_, eq_or_of_withoutPlus _, nonempty, all, rfl, small⟩
  · rintro ⟨digits, shape, nonempty, all, rfl, small⟩
    have same : withoutPlus s.toList = digits := by
      rcases shape with plain | signed
      · rw [plain, withoutPlus_of_digits all]
      · rw [signed, withoutPlus]
    rw [same]
    exact ⟨⟨nonempty, all⟩, small, rfl⟩

end Text

namespace TileBag

/-! ## Entries -/

/-- A tile as it may be written: a letter in either case, or the mark of a blank. -/
def IsTile (c : Char) : Prop :=
  c.isAlpha = true ∨ c = blankTile

instance (c : Char) : Decidable (IsTile c) :=
  inferInstanceAs (Decidable (_ ∨ _))

/-- An entry that says how many tiles there are of a kind. -/
def Gives (entry : String) (tile : Char) (n : Nat) : Prop :=
  ∃ c count, entry.toList = c :: ':' :: count ∧ IsTile c ∧ c.toUpper = tile ∧ Text.IsCount count n

/-- What is wrong with an entry, if something is. -/
inductive HasFault (entry : String) : DistributionError → Prop
  | noMark : ':' ∉ entry.toList → HasFault entry (.malformedEntry entry)
  | notOne (before after : List Char) : entry.toList = before ++ ':' :: after → ':' ∉ before →
      before.length ≠ 1 → HasFault entry (.malformedEntry entry)
  | badTile (c : Char) (count : List Char) : entry.toList = c :: ':' :: count → c ≠ ':' →
      ¬IsTile c → HasFault entry (.invalidTile c)
  | badCount (c : Char) (count : List Char) : entry.toList = c :: ':' :: count → IsTile c →
      (∀ n, ¬Text.IsCount count n) → HasFault entry (.invalidCount entry)

variable {entry : String} {c tile : Char} {count : List Char} {n : Nat}

theorem isTile_iff : IsTile c ↔ ¬(c.toUpper != blankTile && !c.toUpper.isUpper) = true := by
  rw [Bool.and_eq_true, bne_iff_ne, Bool.not_eq_true', Char.isUpper_toUpper_eq_isAlpha, IsTile,
    not_and_or, not_not, Bool.not_eq_false, Text.toUpper_eq_iff (by decide)]
  exact or_comm

theorem ne_mark_of_isTile (known : IsTile c) : c ≠ ':' := by
  rintro rfl
  exact absurd known (by decide)

theorem toUpper_of_not_isTile (unknown : ¬IsTile c) : c.toUpper = c := by
  apply Char.toUpper_eq_of_not_isLower
  intro lower
  exact unknown (.inl (by rw [Char.isAlpha, lower, Bool.or_true]))

theorem splitAtFirst_mark (whole : entry.toList = c :: ':' :: count) (other : c ≠ ':') :
    Text.splitAtFirst ':' entry = some (.ofList [c], .ofList count) := by
  apply Text.splitAtFirst_eq_some_iff.mpr
  rw [String.toList_ofList, String.toList_ofList]
  exact ⟨whole, fun member => other (List.mem_singleton.mp member).symm⟩

theorem readEntry_of_gives (gives : Gives entry tile n) : readEntry entry = .ok (tile, n) := by
  obtain ⟨c, count, whole, known, rfl, numeral⟩ := gives
  rw [← String.toList_ofList (l := count), ← Text.count?_eq_some_iff] at numeral
  rw [readEntry, splitAtFirst_mark whole (ne_mark_of_isTile known)]
  simp only [String.toList_ofList, if_neg (isTile_iff.mp known), numeral]

theorem readEntry_of_hasFault {e : DistributionError} (fault : HasFault entry e) :
    readEntry entry = .error e := by
  cases fault with
  | noMark absent => rw [readEntry, Text.splitAtFirst_eq_none_iff.mpr absent]
  | notOne before after whole first several =>
    have split : Text.splitAtFirst ':' entry = some (.ofList before, .ofList after) := by
      apply Text.splitAtFirst_eq_some_iff.mpr
      rw [String.toList_ofList, String.toList_ofList]
      exact ⟨whole, first⟩
    rw [readEntry, split]
    simp only [String.toList_ofList]
    match before, several with
    | [], _ => rfl
    | _ :: _ :: _, _ => rfl
  | badTile c count whole other unknown =>
    have refused := not_not.mp (mt isTile_iff.mpr unknown)
    rw [toUpper_of_not_isTile unknown] at refused
    rw [readEntry, splitAtFirst_mark whole other]
    simp only [String.toList_ofList, toUpper_of_not_isTile unknown, if_pos refused]
  | badCount c count whole known noNumeral =>
    have none : Text.count? (.ofList count) = none := by
      rw [Option.eq_none_iff_forall_ne_some]
      intro n read
      rw [Text.count?_eq_some_iff, String.toList_ofList] at read
      exact noNumeral n read
    rw [readEntry, splitAtFirst_mark whole (ne_mark_of_isTile known)]
    simp only [String.toList_ofList, if_neg (isTile_iff.mp known), none]

theorem gives_or_hasFault (entry : String) :
    (∃ tile n, Gives entry tile n) ∨ ∃ e, HasFault entry e := by
  cases split : Text.splitAtFirst ':' entry with
  | none => exact .inr ⟨_, .noMark (Text.splitAtFirst_eq_none_iff.mp split)⟩
  | some parts =>
    obtain ⟨whole, first⟩ := Text.splitAtFirst_eq_some_iff.mp split
    by_cases single : parts.1.toList.length = 1
    · obtain ⟨c, before⟩ := List.length_eq_one_iff.mp single
      rw [before, List.singleton_append] at whole
      rw [before, List.mem_singleton] at first
      by_cases known : IsTile c
      · by_cases numeral : ∃ n, Text.IsCount parts.2.toList n
        · obtain ⟨n, numeral⟩ := numeral
          exact .inl ⟨c.toUpper, n, c, _, whole, known, rfl, numeral⟩
        · exact .inr ⟨_, .badCount c _ whole known (not_exists.mp numeral)⟩
      · exact .inr ⟨_, .badTile c _ whole (Ne.symm first) known⟩
    · exact .inr ⟨_, .notOne _ _ whole first single⟩

theorem readEntry_eq_ok_iff : readEntry entry = .ok (tile, n) ↔ Gives entry tile n := by
  refine ⟨fun read => ?_, readEntry_of_gives⟩
  rcases gives_or_hasFault entry with ⟨tile', n', gives⟩ | ⟨e, fault⟩
  · cases (readEntry_of_gives gives).symm.trans read
    exact gives
  · exact absurd ((readEntry_of_hasFault fault).symm.trans read) nofun

theorem readEntry_eq_error_iff {e : DistributionError} :
    readEntry entry = .error e ↔ HasFault entry e := by
  refine ⟨fun read => ?_, readEntry_of_hasFault⟩
  rcases gives_or_hasFault entry with ⟨tile, n, gives⟩ | ⟨e', fault⟩
  · exact absurd ((readEntry_of_gives gives).symm.trans read) nofun
  · cases (readEntry_of_hasFault fault).symm.trans read
    exact fault

theorem mem_tiles_of_gives (gives : Gives entry tile n) : tile ∈ tiles := by
  obtain ⟨c, _, _, known, rfl, _⟩ := gives
  rw [tiles, List.mem_append, Text.mem_alphabet_iff, List.mem_singleton,
    Char.isUpper_toUpper_eq_isAlpha, Text.toUpper_eq_iff (by decide)]
  exact known

/-! ## Entries read one after the other -/

section Readings

variable {entries : List String} {readings : List (Char × Nat)}
  (read : entries.map readEntry = readings.map .ok)

include read

theorem mem_readings_of_gives (listed : entry ∈ entries) (gives : Gives entry tile n) :
    (tile, n) ∈ readings := by
  have member : readEntry entry ∈ entries.map readEntry := List.mem_map_of_mem listed
  rw [read, readEntry_of_gives gives, List.mem_map] at member
  obtain ⟨reading, member, same⟩ := member
  cases same
  exact member

theorem exists_gives_of_mem_readings (member : (tile, n) ∈ readings) :
    ∃ entry ∈ entries, Gives entry tile n := by
  have given : Except.ok (tile, n) ∈ entries.map readEntry := read ▸ List.mem_map_of_mem member
  obtain ⟨entry, listed, reads⟩ := List.mem_map.mp given
  exact ⟨entry, listed, readEntry_eq_ok_iff.mp reads⟩

end Readings

/-! ## Bags -/

variable {distribution : String} {bag : TileBag}

/-- The last entry for a tile says how many there are; without one there are none. -/
def IsLastCount (entries : List String) (tile : Char) (n : Nat) : Prop :=
  (∃ before entry after, entries = before ++ entry :: after ∧ Gives entry tile n ∧
      ∀ later ∈ after, ∀ m, ¬Gives later tile m) ∨
    n = 0 ∧ ∀ entry ∈ entries, ∀ m, ¬Gives entry tile m

theorem isLastCount_frequency {entries : List String}
    (read : entries.map readEntry = bag.entries.reverse.map .ok) (c : Char) :
    IsLastCount entries c.toUpper (bag.frequency c) := by
  rw [frequency]
  cases found : bag.entries.lookup c.toUpper with
  | none =>
    rw [List.lookup_eq_none_iff] at found
    refine .inr ⟨rfl, fun entry listed n gives => ?_⟩
    have member := List.mem_reverse.mp (mem_readings_of_gives read listed gives)
    exact absurd rfl (bne_iff_ne.mp (found _ member))
  | some n =>
    -- the bag has the latest entry first, so what the lookup passes over comes later in the text
    obtain ⟨later, earlier, entries, others⟩ := List.lookup_eq_some_iff.mp found
    rw [entries, List.reverse_append, List.reverse_cons, List.append_assoc, List.singleton_append,
      List.map_append, List.map_cons, List.map_eq_append_iff] at read
    obtain ⟨before, rest, whole, _, read⟩ := read
    obtain ⟨entry, after, rfl, here, read⟩ := List.map_eq_cons_iff.mp read
    refine .inl ⟨before, entry, after, whole, readEntry_eq_ok_iff.mp here, ?_⟩
    intro other listed m gives
    have member := List.mem_reverse.mp (mem_readings_of_gives read listed gives)
    exact absurd rfl (bne_iff_ne.mp (others _ member))

theorem frequency_of_isLastCount {entries : List String}
    (read : entries.map readEntry = bag.entries.reverse.map .ok) {c : Char}
    (last : IsLastCount entries c.toUpper n) : bag.frequency c = n := by
  rcases last with ⟨before, entry, after, rfl, gives, others⟩ | ⟨rfl, others⟩
  · rw [List.map_append, List.map_cons, readEntry_of_gives gives, eq_comm,
      List.map_eq_append_iff] at read
    obtain ⟨earlier, rest, whole, _, read⟩ := read
    obtain ⟨reading, later, rfl, here, read⟩ := List.map_eq_cons_iff.mp read
    cases here
    have found : bag.entries.lookup c.toUpper = some n := by
      rw [List.lookup_eq_some_iff]
      refine ⟨later.reverse, earlier.reverse, ?_, fun other member => ?_⟩
      · rw [← List.reverse_reverse bag.entries, whole]
        simp
      · rw [bne_iff_ne]
        intro same
        obtain ⟨entry, listed, gives⟩ :=
          exists_gives_of_mem_readings (List.cons.inj read).2.symm (List.mem_reverse.mp member)
        exact others entry listed _ (same ▸ gives)
    rw [frequency, found, Option.getD_some]
  · have absent : bag.entries.lookup c.toUpper = none := by
      rw [List.lookup_eq_none_iff]
      intro other member
      rw [bne_iff_ne]
      intro same
      obtain ⟨entry, listed, gives⟩ :=
        exists_gives_of_mem_readings read (List.mem_reverse.mpr member)
      exact others entry listed _ (same ▸ gives)
    rw [frequency, absent, Option.getD_none]

theorem largestCount_lt_iff {bound : Nat} (positive : 0 < bound) :
    bag.largestCount < bound ↔ ∀ tile ∈ tiles, bag.frequency tile < bound := by
  constructor
  · intro small tile member
    exact (List.le_max?_getD_of_mem (List.mem_map_of_mem member)).trans_lt small
  · intro small
    rw [largestCount]
    cases largest : (tiles.map bag.frequency).max? with
    | none => exact positive
    | some n =>
      obtain ⟨tile, member, rfl⟩ := List.mem_map.mp (List.max?_mem largest)
      exact small tile member

/-! ## Reading a distribution -/

theorem toUpper_of_mem_tiles (member : tile ∈ tiles) : tile.toUpper = tile := by
  rw [tiles, List.mem_append, Text.mem_alphabet_iff, List.mem_singleton] at member
  rcases member with capital | rfl
  · exact Text.toUpper_of_isUpper capital
  · rfl

def FitsTable (entries : List String) : Prop :=
  ∀ tile ∈ tiles, ∀ n, IsLastCount entries tile n → n < maxTableRows

theorem fitsTable_iff {entries : List String}
    (read : entries.map readEntry = bag.entries.reverse.map .ok) :
    FitsTable entries ↔ bag.largestCount < maxTableRows := by
  rw [largestCount_lt_iff (by decide)]
  refine forall₂_congr fun tile member => ⟨fun fits => fits _ ?_, fun small n last => ?_⟩
  · have last := isLastCount_frequency read tile
    rwa [toUpper_of_mem_tiles member] at last
  · rw [← toUpper_of_mem_tiles member] at last
    rwa [← frequency_of_isLastCount read last]

theorem withTable_eq_ok_iff {other : TileBag} :
    bag.withTable = .ok other ↔ bag = other ∧ bag.largestCount < maxTableRows := by
  rw [withTable]
  split
  · next small => simp [small]
  · next large => simp [large]

theorem withTable_eq_error_iff {failure : BagFailure} :
    bag.withTable = .error failure ↔
      failure = .tableTooLong ∧ ¬bag.largestCount < maxTableRows := by
  rw [withTable]
  split
  · next small => simp [small]
  · next large => simp [large, eq_comm]

theorem ofDistribution_eq_ok_iff :
    ofDistribution distribution = .ok bag ↔
      (Text.words distribution).map readEntry = bag.entries.reverse.map .ok ∧
        bag.largestCount < maxTableRows := by
  rw [← mapM_eq_ok_iff, ofDistribution]
  cases (Text.words distribution).mapM readEntry with
  | error e => simp
  | ok entries =>
    simp only [withTable_eq_ok_iff, Except.ok.injEq]
    constructor
    · rintro ⟨rfl, small⟩
      exact ⟨(List.reverse_reverse entries).symm, small⟩
    · rintro ⟨rfl, small⟩
      rw [List.reverse_reverse]
      exact ⟨rfl, small⟩

theorem ofDistribution_eq_unreadable_iff {e : DistributionError} :
    ofDistribution distribution = .error (.unreadable e) ↔
      ∃ before entry after, Text.words distribution = before ++ entry :: after ∧
        (∀ earlier ∈ before, ∃ tile n, Gives earlier tile n) ∧ HasFault entry e := by
  have fails : ofDistribution distribution = .error (.unreadable e) ↔
      (Text.words distribution).mapM readEntry = .error e := by
    rw [ofDistribution]
    cases (Text.words distribution).mapM readEntry with
    | error cause => simp
    | ok entries => simp [withTable_eq_error_iff]
  rw [fails, mapM_eq_error_iff]
  simp only [Prod.exists, readEntry_eq_ok_iff, readEntry_eq_error_iff]

theorem ofDistribution_eq_tableTooLong_iff_exists :
    ofDistribution distribution = .error .tableTooLong ↔
      ∃ bag : TileBag, (Text.words distribution).map readEntry = bag.entries.reverse.map .ok ∧
        ¬bag.largestCount < maxTableRows := by
  simp only [← mapM_eq_ok_iff, ofDistribution]
  cases (Text.words distribution).mapM readEntry with
  | error cause => simp
  | ok entries =>
    simp only [withTable_eq_error_iff, true_and, Except.ok.injEq]
    constructor
    · intro large
      exact ⟨_, (List.reverse_reverse entries).symm, large⟩
    · rintro ⟨bag, rfl, large⟩
      rwa [List.reverse_reverse]

def IsReadable (entries : List String) : Prop :=
  ∀ entry ∈ entries, ∃ tile n, Gives entry tile n

theorem isReadable_iff {entries : List String} :
    IsReadable entries ↔ ∃ bag : TileBag, entries.map readEntry = bag.entries.reverse.map .ok := by
  constructor
  · intro good
    induction entries with
    | nil => exact ⟨⟨[]⟩, rfl⟩
    | cons entry entries ih =>
      obtain ⟨⟨tile, n, gives⟩, good⟩ := List.forall_mem_cons.mp good
      obtain ⟨bag, read⟩ := ih good
      refine ⟨⟨bag.entries ++ [(tile, n)]⟩, ?_⟩
      rw [List.map_cons, readEntry_of_gives gives, read]
      simp
  · rintro ⟨bag, read⟩ entry listed
    have member := List.mem_map_of_mem (f := readEntry) listed
    rw [read, List.mem_map] at member
    obtain ⟨⟨tile, n⟩, _, same⟩ := member
    exact ⟨tile, n, readEntry_eq_ok_iff.mp same.symm⟩

theorem exists_bag_iff :
    (∃ bag, ofDistribution distribution = .ok bag) ↔
      IsReadable (Text.words distribution) ∧ FitsTable (Text.words distribution) := by
  simp only [ofDistribution_eq_ok_iff]
  constructor
  · rintro ⟨bag, read, small⟩
    exact ⟨isReadable_iff.mpr ⟨bag, read⟩, (fitsTable_iff read).mpr small⟩
  · rintro ⟨good, fits⟩
    obtain ⟨bag, read⟩ := isReadable_iff.mp good
    exact ⟨bag, read, (fitsTable_iff read).mp fits⟩

theorem ofDistribution_eq_tableTooLong_iff :
    ofDistribution distribution = .error .tableTooLong ↔
      IsReadable (Text.words distribution) ∧ ¬FitsTable (Text.words distribution) := by
  rw [ofDistribution_eq_tableTooLong_iff_exists]
  constructor
  · rintro ⟨bag, read, large⟩
    exact ⟨isReadable_iff.mpr ⟨bag, read⟩, (fitsTable_iff read).not.mpr large⟩
  · rintro ⟨good, exceeds⟩
    obtain ⟨bag, read⟩ := isReadable_iff.mp good
    exact ⟨bag, read, (fitsTable_iff read).not.mp exceeds⟩

/-! ## Totals -/

theorem total_eq_sum (bag : TileBag) : bag.total = ∑ tile ∈ tiles.toFinset, bag.frequency tile := by
  have distinct : tiles.Nodup := by decide
  rw [total, totalOf_eq_sum, List.sum_toFinset _ distinct]

theorem total_eq_of_named (read : ofDistribution distribution = .ok bag) {named : List Char}
    (once : named.Nodup)
    (all : ∀ tile, tile ∈ named ↔ ∃ entry ∈ Text.words distribution, ∃ n, Gives entry tile n) :
    bag.total = totalOf bag.frequency named := by
  rw [total_eq_sum, totalOf_eq_sum, ← List.sum_toFinset _ once]
  symm
  apply Finset.sum_subset
  · intro tile member
    obtain ⟨entry, _, n, gives⟩ := (all tile).mp (List.mem_toFinset.mp member)
    exact List.mem_toFinset.mpr (mem_tiles_of_gives gives)
  · intro tile member unnamed
    have last := isLastCount_frequency (ofDistribution_eq_ok_iff.mp read).1 tile
    rw [toUpper_of_mem_tiles (List.mem_toFinset.mp member)] at last
    rcases last with ⟨before, entry, after, whole, gives, _⟩ | ⟨none, _⟩
    · apply absurd (List.mem_toFinset.mpr ((all tile).mpr ⟨entry, _, _, gives⟩)) unnamed
      rw [whole]
      exact List.mem_append_right _ (List.mem_cons_self ..)
    · exact none

theorem total_le (entries : List (Char × Nat)) :
    (TileBag.mk entries).total ≤ totalOf Prod.snd entries := by
  rw [total_eq_sum]
  induction entries with
  | nil => exact (Finset.sum_eq_zero fun tile _ => rfl).le
  | cons reading entries ih =>
    -- a later entry hides the earlier ones for its tile, so each frequency is at most a sum
    have each : ∀ tile ∈ tiles.toFinset, (TileBag.mk (reading :: entries)).frequency tile ≤
        (if tile = reading.1 then reading.2 else 0) + (TileBag.mk entries).frequency tile := by
      intro tile member
      rw [frequency, frequency, toUpper_of_mem_tiles (List.mem_toFinset.mp member), List.lookup]
      by_cases here : tile = reading.1
      · simp [here]
      · simp [here, beq_eq_false_iff_ne.mpr here]
    calc ∑ tile ∈ tiles.toFinset, (TileBag.mk (reading :: entries)).frequency tile
      _ ≤ ∑ tile ∈ tiles.toFinset,
          ((if tile = reading.1 then reading.2 else 0) + (TileBag.mk entries).frequency tile) :=
        Finset.sum_le_sum each
      _ = (∑ tile ∈ tiles.toFinset, if tile = reading.1 then reading.2 else 0) +
          ∑ tile ∈ tiles.toFinset, (TileBag.mk entries).frequency tile := Finset.sum_add_distrib
      _ ≤ reading.2 + totalOf Prod.snd entries := by
        apply Nat.add_le_add _ ih
        rw [Finset.sum_ite_eq']
        split
        · exact Nat.le_refl _
        · exact Nat.zero_le _

theorem totalOf_counts (read : ofDistribution distribution = .ok bag) {counts : String → Nat}
    (given : ∀ entry ∈ Text.words distribution, ∃ tile, Gives entry tile (counts entry)) :
    totalOf counts (Text.words distribution) = totalOf Prod.snd bag.entries := by
  let countIn : Except DistributionError (Char × Nat) → Nat
    | .ok reading => reading.2
    | .error _ => 0
  have read := congrArg (List.map countIn) (ofDistribution_eq_ok_iff.mp read).1
  have each : ∀ entry ∈ Text.words distribution, (countIn ∘ readEntry) entry = counts entry := by
    intro entry listed
    obtain ⟨tile, gives⟩ := given entry listed
    rw [Function.comp_apply, readEntry_of_gives gives]
  rw [List.map_map, List.map_map, List.map_congr_left each] at read
  rw [totalOf_eq_sum, read, ← totalOf_reverse, totalOf_eq_sum]
  rfl

theorem total_lt (read : ofDistribution distribution = .ok bag) : bag.total < 2 ^ 64 := by
  have small := (largestCount_lt_iff (by decide)).mp (ofDistribution_eq_ok_iff.mp read).2
  have all := totalOf_le_length_mul bag.frequency maxTableRows tiles fun tile member =>
    (small tile member).le
  exact all.trans_lt (by decide)

/-- A distribution describes a bag if each of its entries names a tile and a count and the last count
for no tile is too large for the table. Then the last entry for a tile counts, and the total is that
of the tiles named, each once, which is at most that of all counts and never overflows. Where only a
count is too large the program stops; otherwise the error is what is wrong with the first entry that
does not name a tile and a count. -/
theorem ofDistribution_exact (distribution : String) :
    ((∃ bag, ofDistribution distribution = .ok bag) ↔
      IsReadable (Text.words distribution) ∧ FitsTable (Text.words distribution)) ∧
    (∀ bag, ofDistribution distribution = .ok bag →
      (∀ c, IsLastCount (Text.words distribution) c.toUpper (bag.frequency c)) ∧
      bag.total = totalOf bag.frequency tiles ∧ bag.total < 2 ^ 64 ∧
      (∀ named : List Char, named.Nodup →
        (∀ tile, tile ∈ named ↔ ∃ entry ∈ Text.words distribution, ∃ n, Gives entry tile n) →
        bag.total = totalOf bag.frequency named) ∧
      ∀ counts : String → Nat,
        (∀ entry ∈ Text.words distribution, ∃ tile, Gives entry tile (counts entry)) →
        bag.total ≤ totalOf counts (Text.words distribution)) ∧
    (ofDistribution distribution = .error .tableTooLong ↔
      IsReadable (Text.words distribution) ∧ ¬FitsTable (Text.words distribution)) ∧
    ∀ e, ofDistribution distribution = .error (.unreadable e) ↔
      ∃ before entry after, Text.words distribution = before ++ entry :: after ∧
        IsReadable before ∧ HasFault entry e := by
  refine ⟨exists_bag_iff, fun bag read => ?_, ofDistribution_eq_tableTooLong_iff,
    fun e => ofDistribution_eq_unreadable_iff⟩
  refine ⟨isLastCount_frequency (ofDistribution_eq_ok_iff.mp read).1, rfl, total_lt read,
    fun named => total_eq_of_named read, fun counts given => ?_⟩
  rw [totalOf_counts read given]
  exact total_le bag.entries

/-- A bag with a letter in both cases and a kind of which there are none, and a distribution with
three bad entries. -/
theorem ofDistribution_exact_mixed :
    (∃ bag, ofDistribution "a:1 B:2 A:+3\t_:0" = .ok bag ∧
      IsLastCount ["a:1", "B:2", "A:+3", "_:0"] 'A' (bag.frequency 'a') ∧ bag.frequency 'a' = 3 ∧
      bag.total = totalOf bag.frequency ['A', 'B', '_'] ∧ bag.total = 5) ∧
    ofDistribution "A:1 3:x B9 :2" = .error (.unreadable (.invalidTile '3')) := by
  constructor
  · let bag : TileBag := ⟨[('_', 0), ('A', 3), ('B', 2), ('A', 1)]⟩
    have read : ofDistribution "a:1 B:2 A:+3\t_:0" = .ok bag := by decide +kernel
    have words : Text.words "a:1 B:2 A:+3\t_:0" = ["a:1", "B:2", "A:+3", "_:0"] := by decide +kernel
    obtain ⟨last, _, _, totals, _⟩ := (ofDistribution_exact "a:1 B:2 A:+3\t_:0").2.1 bag read
    have readings := (ofDistribution_eq_ok_iff.mp read).1
    have named (tile : Char) : tile ∈ ['A', 'B', '_'] ↔
        ∃ entry ∈ Text.words "a:1 B:2 A:+3\t_:0", ∃ n, Gives entry tile n := by
      constructor
      · intro member
        have every : ∀ tile ∈ ['A', 'B', '_'], ∃ n, (tile, n) ∈ bag.entries.reverse := by
          simp [bag, exists_or]
        obtain ⟨n, given⟩ := every tile member
        obtain ⟨entry, listed, gives⟩ := exists_gives_of_mem_readings readings given
        exact ⟨entry, listed, n, gives⟩
      · rintro ⟨entry, listed, n, gives⟩
        have every : ∀ reading ∈ bag.entries.reverse, reading.1 ∈ ['A', 'B', '_'] := by decide
        exact every _ (mem_readings_of_gives readings listed gives)
    refine ⟨bag, read, words ▸ last 'a', by decide +kernel, ?_, by decide +kernel⟩
    exact totals ['A', 'B', '_'] (by decide) named
  · apply ((ofDistribution_exact "A:1 3:x B9 :2").2.2.2 _).mpr
    refine ⟨["A:1"], "3:x", ["B9", ":2"], by decide +kernel, ?_, ?_⟩
    · intro entry listed
      rw [List.mem_singleton.mp listed]
      exact ⟨'A', 1, readEntry_eq_ok_iff.mp (by decide +kernel)⟩
    · exact readEntry_eq_error_iff.mp (by decide +kernel)

/-- One good entry, whose count is far below 2^64, and no bag. -/
theorem not_ofDistribution_exact_tooLong :
    Text.words "A:384307168202282325" = ["A:384307168202282325"] ∧
      Gives "A:384307168202282325" 'A' 384307168202282325 ∧ 384307168202282325 < 2 ^ 64 ∧
      ofDistribution "A:384307168202282325" = .error .tableTooLong := by
  refine ⟨by decide +kernel, readEntry_eq_ok_iff.mp (by decide +kernel), by decide, ?_⟩
  decide +kernel

end TileBag

end WordFinder
