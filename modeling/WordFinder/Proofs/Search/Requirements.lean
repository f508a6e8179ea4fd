import Mathlib
import WordFinder.Proofs.Search.Canonical

/-!
# What merged conditions require

Conditions are merged one by one into requirements. A word that meets the requirements so far and the
next condition meets the requirements after it, so they can be extended; and windows, once tightened
by a condition that they express in full, stay at least as tight.
-/
set_option autoImplicit false

namespace WordFinder.Requirements

variable {x : Lexicon} {word : String} {r after : Requirements} {c : Condition}

/-- What a word has to be like to meet the conditions merged so far. -/
structure Met (r : Requirements) (x : Lexicon) (word : String) : Prop where
  windows : r.windows.Hold x word
  included : ∀ l ∈ r.included, l ∈ word.toList
  excluded : ∀ l ∈ r.excluded, l ∉ word.toList
  lexicons : ∀ named ∈ r.lexicons, ((named.1 == x.name) != named.2) = true
  partsOfSpeech : ∀ named ∈ r.partsOfSpeech,
    (x.glossary.hasPartOfSpeech word named.1 != named.2) = true

theorem met_default (bounded : HasBoundedCounts x word) : Met {} x word where
  windows := Windows.hold_default bounded
  included _ member := absurd member List.not_mem_nil
  excluded _ member := absurd member List.not_mem_nil
  lexicons _ member := absurd member List.not_mem_nil
  partsOfSpeech _ member := absurd member List.not_mem_nil

/-- Windows that hold and are possible can take the place of the windows so far. -/
theorem Met.withWindows (met : r.Met x word) {windows : Windows} (hold : windows.Hold x word)
    {possible : Bool} (found : possible = true) :
    ∃ after, (if possible then some { r with windows } else none) = some after ∧
      after.Met x word := by
  rw [if_pos found]
  exact ⟨_, rfl, hold, met.included, met.excluded, met.lexicons, met.partsOfSpeech⟩

/-! ## One condition more -/

theorem boundLength_of_met (bounded : HasBoundedCounts x word) (met : r.Met x word)
    {least most : Int32} (has : Window.Has ⟨least, most⟩ word.length) :
    ∃ after, r.boundLength least most = some after ∧ after.Met x word := by
  have hold : Windows.Hold { r.windows with lengths := r.windows.lengths.tighten least most } x
      word :=
    { met.windows with lengths := Window.has_tighten.mpr ⟨met.windows.lengths, has⟩ }
  exact met.withWindows hold (hold.arePossible bounded).lengths

theorem boundByMatch_of_met (bounded : HasBoundedCounts x word) (storable : IsStorable word.toList)
    (met : r.Met x word) (isMatch : c.kind.isMatch = true) (countable : c.HasCountableSlots)
    (meets : x.meets word c = true) :
    ∃ after, r.boundByMatch c.canonical = some after ∧ after.Met x word := by
  rw [Condition.canonical_of_kind (Or.inl isMatch), boundByMatch]
  split
  · exact ⟨r, rfl, met⟩
  · next bounds =>
    rw [Bool.or_eq_true, not_or, Bool.not_eq_true, Bool.not_eq_true] at bounds
    have has :=
      Condition.has_slots_of_meets isMatch bounds.1 bounds.2 countable storable meets
    exact boundLength_of_met bounded met has

theorem boundByGroup_of_met (bounded : HasBoundedCounts x word) (storable : IsStorable word.toList)
    (met : r.Met x word) (meets : x.meetsGroup word c = true) :
    ∃ after, r.boundByGroup c = some after ∧ after.Met x word := by
  rw [boundByGroup]
  cases negated : c.negated with
  | true => exact ⟨r, rfl, met⟩
  | false =>
    rw [if_neg Bool.false_ne_true]
    cases named : WordGroup.ofName? c.string with
    | none => exact ⟨r, rfl, met⟩
    | some group =>
      cases sized : group.length? with
      | none =>
        simp only [Option.bind_some, sized]
        exact ⟨r, rfl, met⟩
      | some length =>
        simp only [Option.bind_some, sized]
        simp only [Lexicon.meetsGroup, named, Condition.verdict, negated, Bool.bne_false] at meets
        have same := Condition.length_of_isMember sized storable.capitals meets
        have short : word.length ≤ 15 := storable.short
        apply boundLength_of_met bounded met
        rw [Window.Has, Int32.toInt_ofNat_of_lt (by omega)]
        omega

theorem addLetters_of_met (met : r.Met x word) (isLetters : c.kind = .includesLetters)
    (listsLetters : c.ListsLetters) (meets : c.includesLetters word = true) :
    ∃ after, r.addLetters c.canonical = some after ∧ after.Met x word := by
  rw [Condition.canonical_of_kind (Or.inr isLetters), addLetters]
  simp only [SearchString.filter_isUpper_canonical]
  cases negated : c.negated with
  | true =>
    have refused : ∀ l ∈ SearchString.lettersOf (SearchString.canonical c.string).toList,
        l ∉ word.toList := by
      intro l member
      rw [SearchString.mem_lettersOf_canonical] at member
      simp only [Condition.includesLetters, negated, if_true, List.all_eq_true,
        Bool.not_eq_true'] at meets
      rw [← List.contains_iff_mem, meets l member]
      exact Bool.false_ne_true
    rw [if_pos rfl, if_neg]
    · refine ⟨_, rfl, met.windows, met.included, fun l member => ?_, met.lexicons,
        met.partsOfSpeech⟩
      rcases List.mem_append.mp member with old | new
      · exact met.excluded l old
      · exact refused l new
    · rw [List.any_eq_true]
      intro holds
      obtain ⟨l, member, required⟩ := holds
      exact refused l member (met.included l (List.contains_iff_mem.mp required))
  | false =>
    have required : ∀ l ∈ SearchString.lettersOf (SearchString.canonical c.string).toList,
        l ∈ word.toList := by
      intro l member
      rw [SearchString.lettersOf_canonical (listsLetters isLetters negated)] at member
      simp only [Condition.includesLetters, negated, Bool.false_eq_true, if_false,
        List.all_eq_true, decide_eq_true_eq] at meets
      have written : 0 < c.wantedLetters.count l := List.count_pos_iff.mpr member
      exact List.count_pos_iff.mp (Nat.lt_of_lt_of_le written (meets l member))
    rw [if_neg Bool.false_ne_true, if_neg]
    · refine ⟨_, rfl, met.windows, fun l member => ?_, met.excluded, met.lexicons,
        met.partsOfSpeech⟩
      rcases List.mem_append.mp member with old | new
      · exact met.included l old
      · exact required l new
    · rw [List.any_eq_true]
      intro holds
      obtain ⟨l, member, refused⟩ := holds
      exact met.excluded l (List.contains_iff_mem.mp refused) (required l member)

theorem addName_of_holds (holds : String → Bool) {names : List (String × Bool)}
    (known : ∀ named ∈ names, (holds named.1 != named.2) = true)
    (verdict : (holds c.string != c.negated) = true) :
    ∃ extended, addName names c = some extended ∧
      ∀ named ∈ extended, (holds named.1 != named.2) = true := by
  rw [addName, if_neg]
  · refine ⟨_, rfl, fun named member => ?_⟩
    rcases List.mem_cons.mp member with rfl | old
    · exact verdict
    · exact known named old
  · rw [List.contains_iff_mem]
    intro contrary
    have other := known _ contrary
    simp only at other
    cases holds c.string <;> cases c.negated <;> simp_all

/-- A word that meets the requirements so far and one more condition meets them together. -/
theorem add_of_met (bounded : HasBoundedCounts x word) (storable : IsStorable word.toList)
    (listsLetters : c.ListsLetters) (countable : c.HasCountableSlots) (met : r.Met x word)
    (meets : x.meets word c = true) :
    ∃ after, r.add c.canonical = some after ∧ after.Met x word := by
  have windows := met.windows
  unfold add
  rw [Condition.kind_canonical]
  cases kind : c.kind
  case patternMatch | anagramMatch | subanagramMatch =>
    exact boundByMatch_of_met bounded storable met (by rw [kind]; rfl) countable meets
  case includesLetters =>
    simp only [Lexicon.meets, kind] at meets
    exact addLetters_of_met met kind listsLetters meets
  all_goals
    rw [Condition.canonical_of_other (by rw [kind]; rfl) (by rw [kind]; decide)]
    simp only [Lexicon.meets, kind] at meets
  case length => exact boundLength_of_met bounded met (Condition.admits_iff.mp meets)
  case belongsToGroup => exact boundByGroup_of_met bounded storable met meets
  case inLexicon =>
    obtain ⟨names, added, hold⟩ := addName_of_holds (· == x.name) met.lexicons meets
    rw [added]
    exact ⟨_, rfl, windows, met.included, met.excluded, hold, met.partsOfSpeech⟩
  case partOfSpeech =>
    obtain ⟨names, added, hold⟩ :=
      addName_of_holds (x.glossary.hasPartOfSpeech word) met.partsOfSpeech meets
    rw [added]
    exact ⟨_, rfl, windows, met.included, met.excluded, met.lexicons, hold⟩
  case anagramCount =>
    have hold : Windows.Hold
        { r.windows with anagrams := r.windows.anagrams.tighten c.min c.max } x word :=
      { windows with
        anagrams := Window.has_tighten.mpr ⟨windows.anagrams, Condition.admits_iff.mp meets⟩ }
    exact met.withWindows hold (hold.arePossible bounded).anagrams
  case vowelCount =>
    have hold : Windows.Hold
        { r.windows with vowels := r.windows.vowels.tighten c.min c.max } x word :=
      { windows with
        vowels := Window.has_tighten.mpr ⟨windows.vowels, Condition.admits_iff.mp meets⟩ }
    exact met.withWindows hold (hold.arePossible bounded).vowels
  case uniqueLetterCount =>
    have hold : Windows.Hold
        { r.windows with uniqueLetters := r.windows.uniqueLetters.tighten c.min c.max } x word :=
      { windows with
        uniqueLetters :=
          Window.has_tighten.mpr ⟨windows.uniqueLetters, Condition.admits_iff.mp meets⟩ }
    exact met.withWindows hold (hold.arePossible bounded).uniqueLetters
  case pointValue =>
    have hold : Windows.Hold
        { r.windows with points := r.windows.points.tighten c.min c.max } x word :=
      { windows with
        points := Window.has_tighten.mpr ⟨windows.points, Condition.admits_iff.mp meets⟩ }
    exact met.withWindows hold (hold.arePossible bounded).points
  all_goals exact ⟨r, rfl, met⟩

/-! ## Tighter windows -/

/-- Windows that say at least as much as others. -/
structure AreTighter (w earlier : Windows) : Prop where
  hold : ∀ {x : Lexicon} {word : String}, w.Hold x word → earlier.Hold x word
  shorter : w.lengths.max.toInt ≤ earlier.lengths.max.toInt

theorem AreTighter.rfl {w : Windows} : AreTighter w w := ⟨id, le_refl _⟩

theorem AreTighter.trans {first second third : Windows} (later : AreTighter third second)
    (earlier : AreTighter second first) : AreTighter third first :=
  ⟨fun hold => earlier.hold (later.hold hold), le_trans later.shorter earlier.shorter⟩

theorem windows_of_if {windows : Windows} {possible : Bool}
    (added : (if possible then some { r with windows } else none) = some after) :
    after.windows = windows := by
  split at added
  · cases added
    rfl
  · contradiction

theorem areTighter_boundLength {least most : Int32}
    (bounded : r.boundLength least most = some after) :
    AreTighter after.windows r.windows ∧
      ∀ {x : Lexicon} {word : String}, after.windows.Hold x word →
        Window.Has ⟨least, most⟩ word.length := by
  rw [windows_of_if bounded]
  refine ⟨⟨fun hold => ?_, ?_⟩, fun hold => (Window.has_tighten.mp hold.lengths).2⟩
  · exact { hold with lengths := (Window.has_tighten.mp hold.lengths).1 }
  · simp only [Window.tighten, toInt_min]
    omega

/-- Merging a condition loosens no window, and a condition that a window expresses in full holds for
the words in the window. -/
theorem areTighter_add (added : r.add c = some after) :
    AreTighter after.windows r.windows ∧
      ∀ {x : Lexicon} {word : String}, after.windows.Hold x word → c.kind.isWindow = true →
        x.meets word c = true := by
  unfold add at added
  cases kind : c.kind
  all_goals simp only [kind] at added
  case length =>
    obtain ⟨tighter, has⟩ := areTighter_boundLength added
    refine ⟨tighter, fun hold _ => ?_⟩
    simpa only [Lexicon.meets, kind] using Condition.admits_iff.mpr (has hold)
  case patternMatch | anagramMatch | subanagramMatch =>
    refine ⟨?_, fun _ isWindow => absurd isWindow Bool.false_ne_true⟩
    unfold boundByMatch at added
    split at added
    · cases added
      exact .rfl
    · exact (areTighter_boundLength added).1
  case belongsToGroup =>
    refine ⟨?_, fun _ isWindow => absurd isWindow Bool.false_ne_true⟩
    unfold boundByGroup at added
    split at added
    · exact (areTighter_boundLength added).1
    · cases added
      exact .rfl
  case includesLetters =>
    refine ⟨?_, fun _ isWindow => absurd isWindow Bool.false_ne_true⟩
    simp only [addLetters] at added
    split_ifs at added <;> (cases added; exact .rfl)
  case inLexicon | partOfSpeech =>
    refine ⟨?_, fun _ isWindow => absurd isWindow Bool.false_ne_true⟩
    obtain ⟨_, _, same⟩ := Option.map_eq_some_iff.mp added
    cases same
    exact .rfl
  case anagramCount =>
    rw [windows_of_if added]
    refine ⟨⟨fun hold => { hold with anagrams := (Window.has_tighten.mp hold.anagrams).1 },
      le_refl _⟩, fun hold _ => ?_⟩
    simpa only [Lexicon.meets, kind] using
      Condition.admits_iff.mpr (Window.has_tighten.mp hold.anagrams).2
  case vowelCount =>
    rw [windows_of_if added]
    refine ⟨⟨fun hold => { hold with vowels := (Window.has_tighten.mp hold.vowels).1 },
      le_refl _⟩, fun hold _ => ?_⟩
    simpa only [Lexicon.meets, kind] using
      Condition.admits_iff.mpr (Window.has_tighten.mp hold.vowels).2
  case uniqueLetterCount =>
    rw [windows_of_if added]
    refine ⟨⟨fun hold =>
      { hold with uniqueLetters := (Window.has_tighten.mp hold.uniqueLetters).1 },
      le_refl _⟩, fun hold _ => ?_⟩
    simpa only [Lexicon.meets, kind] using
      Condition.admits_iff.mpr (Window.has_tighten.mp hold.uniqueLetters).2
  case pointValue =>
    rw [windows_of_if added]
    refine ⟨⟨fun hold => { hold with points := (Window.has_tighten.mp hold.points).1 },
      le_refl _⟩, fun hold _ => ?_⟩
    simpa only [Lexicon.meets, kind] using
      Condition.admits_iff.mpr (Window.has_tighten.mp hold.points).2
  all_goals
    cases added
    exact ⟨.rfl, fun _ isWindow => absurd isWindow Bool.false_ne_true⟩

/-! ## All conditions -/

theorem addAll_cons (r : Requirements) (c : Condition) (conditions : List Condition) :
    r.addAll (c :: conditions) = (r.add c).bind fun after => after.addAll conditions := by
  rw [addAll, List.foldlM_cons]
  rfl

theorem addAll_of_met (bounded : HasBoundedCounts x word) (storable : IsStorable word.toList)
    {conditions : List Condition} (listsLetters : ∀ c ∈ conditions, c.ListsLetters)
    (countable : ∀ c ∈ conditions, c.HasCountableSlots) (met : r.Met x word)
    (meets : x.meetsAll word conditions = true) :
    ∃ after, r.addAll (conditions.map Condition.canonical) = some after ∧ after.Met x word := by
  induction conditions generalizing r with
  | nil => exact ⟨r, rfl, met⟩
  | cons c conditions ih =>
    rw [Lexicon.meetsAll, List.all_cons, Bool.and_eq_true] at meets
    obtain ⟨next, added, metNext⟩ := add_of_met bounded storable
      (listsLetters c List.mem_cons_self) (countable c List.mem_cons_self) met meets.1
    obtain ⟨after, merged, metAfter⟩ :=
      ih (fun d member => listsLetters d (List.mem_cons_of_mem c member))
        (fun d member => countable d (List.mem_cons_of_mem c member)) metNext meets.2
    refine ⟨after, ?_, metAfter⟩
    rw [List.map_cons, addAll_cons, added, Option.bind_some, merged]

theorem areTighter_addAll {conditions : List Condition}
    (merged : r.addAll conditions = some after) :
    AreTighter after.windows r.windows ∧
      ∀ {x : Lexicon} {word : String}, after.windows.Hold x word →
        x.meetsAll word (conditions.filter (·.kind.isWindow)) = true := by
  induction conditions generalizing r with
  | nil =>
    cases merged
    exact ⟨.rfl, fun _ => rfl⟩
  | cons c conditions ih =>
    rw [addAll_cons, Option.bind_eq_some_iff] at merged
    obtain ⟨next, added, merged⟩ := merged
    obtain ⟨tighterNext, meetsFirst⟩ := areTighter_add added
    obtain ⟨tighter, meetsOthers⟩ := ih merged
    refine ⟨tighter.trans tighterNext, fun {x word} hold => ?_⟩
    rw [List.filter_cons]
    split
    · next isWindow =>
      rw [Lexicon.meetsAll, List.all_cons, Bool.and_eq_true]
      exact ⟨meetsFirst (tighter.hold hold) isWindow, meetsOthers hold⟩
    · exact meetsOthers hold

end WordFinder.Requirements
