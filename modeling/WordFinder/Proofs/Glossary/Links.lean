import Mathlib
import WordFinder.Glossary

/-!
# Links between definitions

The links of an entry name other entries, whose links name others in turn. An entry from which no
chain of links is longer than the limit is shown in full, and a higher limit changes nothing. Entries
may link to each other in a circle; these have no height, and the limit ends their expansion.
-/
set_option autoImplicit false

namespace WordFinder.Glossary

open Text (fullUpper)

variable (g : Glossary)

def linked (l : DefinitionLink) : List String :=
  g.entriesFor (fullUpper l.word) l.partOfSpeech

def linkedEntries (entry : String) : List String :=
  (definitionPieces entry).flatMap fun
    | .plain _ => []
    | .link l => g.linked l

/-! ## Heights -/

noncomputable def heightOver : (String → ℕ∞) →o (String → ℕ∞) where
  toFun heights entry := ⨆ target ∈ g.linkedEntries entry, (heights target + 1)
  monotone' _ _ lower _ := iSup₂_mono fun target _ => add_le_add_left (lower target) 1

/-- The height of an entry: none if its links name no entry, otherwise one more than the greatest of
the entries they name. -/
noncomputable def height (entry : String) : ℕ∞ :=
  g.heightOver.lfp entry

variable {g} {entry target : String} {depth : Nat}

theorem height_eq (entry : String) :
    g.height entry = ⨆ target ∈ g.linkedEntries entry, (g.height target + 1) :=
  (congrFun g.heightOver.map_lfp entry).symm

theorem height_le_iff {bound : ℕ∞} :
    g.height entry ≤ bound ↔ ∀ target ∈ g.linkedEntries entry, g.height target + 1 ≤ bound := by
  rw [height_eq, iSup₂_le_iff]

theorem height_le_zero_iff : g.height entry ≤ 0 ↔ g.linkedEntries entry = [] := by
  rw [height_le_iff, List.eq_nil_iff_forall_not_mem]
  refine forall₂_congr fun target _ => ?_
  simp

theorem height_le_succ_iff :
    g.height entry ≤ (depth + 1 : Nat) ↔ ∀ target ∈ g.linkedEntries entry, g.height target ≤ depth := by
  rw [height_le_iff]
  refine forall₂_congr fun target _ => ?_
  rw [Nat.cast_add, Nat.cast_one]
  exact ENat.add_le_add_iff_right ENat.one_ne_top

theorem height_eq_top (circle : Relation.TransGen (fun e t => t ∈ g.linkedEntries e) entry entry) :
    g.height entry = ⊤ := by
  have falls {first last : String}
      (chain : Relation.TransGen (fun e t => t ∈ g.linkedEntries e) first last) :
      g.height last + 1 ≤ g.height first := by
    induction chain with
    | single link => exact height_le_iff.mp le_rfl _ link
    | tail _ link ih =>
      exact (height_le_iff.mp le_rfl _ link).trans (le_self_add.trans ih)
  by_contra finite
  exact absurd (falls circle) (ENat.lt_add_one_iff finite |>.mpr le_rfl).not_ge

/-! ## Entries shown up to a limit -/

def shownBy (text : DefinitionLink → String) (entry : String) : String :=
  String.join ((definitionPieces entry).map fun
    | .plain c => .singleton c
    | .link l => text l)

/-- What an entry is shown as up to a number of links deep. At the limit a link shows its word; above
it a link shows the entries it names, which have one link less. -/
inductive Shows (g : Glossary) : ℕ∞ → String → String → Prop
  | cut (entry : String) : Shows g 0 entry (shownBy (fun l => fullUpper l.word) entry)
  | deeper (limit : ℕ∞) (entry : String) (shown : String → String) :
    (∀ target ∈ g.linkedEntries entry, Shows g limit target (shown target)) →
      Shows g (limit + 1) entry (shownBy (fun l => linkText l ((g.linked l).map shown)) entry)

theorem mem_linkedEntries {l : DefinitionLink} (link : .link l ∈ definitionPieces entry)
    (named : target ∈ g.linked l) : target ∈ g.linkedEntries entry :=
  List.mem_flatMap.mpr ⟨.link l, link, named⟩

theorem shownBy_congr {text other : DefinitionLink → String}
    (same : ∀ l, .link l ∈ definitionPieces entry → text l = other l) :
    shownBy text entry = shownBy other entry := by
  rw [shownBy, shownBy]
  congr 1
  apply List.map_congr_left
  rintro (c | l) piece
  · rfl
  · exact same l piece

theorem expand_zero (g : Glossary) (entry : String) :
    g.expand 0 entry = shownBy (fun l => fullUpper l.word) entry :=
  rfl

theorem expand_succ (g : Glossary) (depth : Nat) (entry : String) :
    g.expand (depth + 1) entry =
      shownBy (fun l => linkText l ((g.linked l).map (g.expand depth))) entry :=
  rfl

theorem shownBy_linked_congr {shown other : String → String}
    (same : ∀ target ∈ g.linkedEntries entry, shown target = other target) :
    shownBy (fun l => linkText l ((g.linked l).map shown)) entry =
      shownBy (fun l => linkText l ((g.linked l).map other)) entry := by
  apply shownBy_congr
  intro l link
  congr 1
  exact List.map_congr_left fun target named => same target (mem_linkedEntries link named)

theorem shownBy_of_no_links (shown : String → String) (none : g.linkedEntries entry = []) :
    shownBy (fun l => linkText l ((g.linked l).map shown)) entry = g.expand 0 entry := by
  rw [expand_zero]
  apply shownBy_congr
  intro l link
  have nothing : g.linked l = [] := by
    rw [List.eq_nil_iff_forall_not_mem]
    intro target named
    have member := mem_linkedEntries link named
    rw [none] at member
    exact List.not_mem_nil member
  rw [nothing]
  rfl

/-- With a limit there is one text for each entry, and it is found even if links go in a circle. -/
theorem shows_iff (limit : Nat) (entry text : String) :
    g.Shows limit entry text ↔ text = g.expand limit entry := by
  constructor
  · intro shows
    -- the limit of the relation may be infinite, so the induction is over any limit equal to this one
    generalize bound : (limit : ℕ∞) = limit' at shows
    induction shows generalizing limit with
    | cut entry =>
      rw [Nat.cast_eq_zero.mp bound, expand_zero]
    | deeper limit' entry shown _ ih =>
      cases limit with
      | zero => exact absurd bound.symm (by simp)
      | succ limit =>
        have below : (limit : ℕ∞) = limit' := by
          rw [Nat.cast_add, Nat.cast_one] at bound
          exact ENat.add_left_injective_of_ne_top ENat.one_ne_top bound
        rw [expand_succ]
        exact shownBy_linked_congr fun target named => ih target named limit below
  · rintro rfl
    induction limit generalizing entry with
    | zero => exact .cut entry
    | succ limit ih =>
      rw [Nat.cast_add, Nat.cast_one, expand_succ]
      exact .deeper limit entry _ fun target _ => ih target

theorem expand_of_height_le (low : g.height entry ≤ depth) {deeper : Nat} (more : depth ≤ deeper) :
    g.expand deeper entry = g.expand depth entry := by
  induction depth generalizing entry deeper with
  | zero =>
    cases deeper with
    | zero => rfl
    | succ deeper =>
      rw [expand_succ, shownBy_of_no_links _ (height_le_zero_iff.mp low)]
  | succ depth ih =>
    cases deeper with
    | zero => exact absurd more (Nat.not_succ_le_zero depth)
    | succ deeper =>
      rw [expand_succ, expand_succ]
      apply shownBy_linked_congr
      intro target named
      exact ih (height_le_succ_iff.mp low target named) (Nat.le_of_succ_le_succ more)

theorem shows_top_of_height_le (low : g.height entry ≤ depth) :
    g.Shows ⊤ entry (g.expand depth entry) := by
  induction depth generalizing entry with
  | zero =>
    have none := height_le_zero_iff.mp low
    rw [← top_add 1, ← shownBy_of_no_links id none]
    apply Shows.deeper
    intro target named
    rw [none] at named
    exact absurd named List.not_mem_nil
  | succ depth ih =>
    rw [← top_add 1, expand_succ]
    exact .deeper ⊤ entry _ fun target named => ih (height_le_succ_iff.mp low target named)

theorem height_lt_top_of_shows {limit : ℕ∞} {text : String} (shows : g.Shows limit entry text)
    (unlimited : limit = ⊤) : g.height entry < ⊤ := by
  induction shows with
  | cut entry => exact absurd unlimited.symm ENat.top_ne_zero
  | deeper limit entry shown _ ih =>
    have above : limit = ⊤ := by simpa using unlimited
    -- an entry names finitely many others, so finite heights of these have a finite maximum
    simp only [height_eq entry, ← List.mem_toFinset]
    rw [← Finset.sup_eq_iSup, Finset.sup_lt_iff ENat.top_pos]
    intro target named
    exact WithTop.add_lt_top.mpr ⟨ih target (List.mem_toFinset.mp named) above, ENat.one_lt_top⟩

theorem exists_shows_top_iff : (∃ text, g.Shows ⊤ entry text) ↔ g.height entry < ⊤ := by
  constructor
  · rintro ⟨text, shows⟩
    exact height_lt_top_of_shows shows rfl
  · intro finite
    obtain ⟨depth, same⟩ := ENat.ne_top_iff_exists.mp finite.ne
    exact ⟨_, shows_top_of_height_le same.ge⟩

/-- An entry is shown in full, with no link cut, at every limit from its height on, so the definition
of a word does not depend on the limit unless an entry of the word is higher. At every limit there is
one text for each entry, however its links go. -/
theorem expand_in_full (g : Glossary) :
    (∀ (entry : String) (depth : Nat), g.height entry ≤ depth →
      g.Shows ⊤ entry (g.expand depth entry) ∧
      ∀ deeper, depth ≤ deeper → g.expand deeper entry = g.expand depth entry) ∧
    (∀ word, (∀ entry ∈ g.entries word, g.height entry ≤ maxLinkDepth) →
      ∀ limit, maxLinkDepth ≤ limit →
        "\n".intercalate ((g.entries word).map (g.expand limit)) = g.definition word) ∧
    ∀ (limit : Nat) (entry text : String), g.Shows limit entry text ↔ text = g.expand limit entry := by
  refine ⟨fun entry depth low => ?_, fun word low limit more => ?_, shows_iff⟩
  · exact ⟨shows_top_of_height_le low, fun deeper more => expand_of_height_le low more⟩
  · rw [definition]
    congr 1
    exact List.map_congr_left fun entry listed => expand_of_height_le (low entry listed) more

/-- A plural that links to its singular, and two entries that link to each other. -/
theorem expand_in_full_plural :
    let g := [("CAT", "a feline [n -S]"), ("CATS", "{cat=n} [n]"), ("A", "<b=n> [n]"),
      ("B", "<a=n> [n]")].foldl (fun g (word, definition) => g.insert word definition) empty
    g.height "{cat=n} [n]" ≤ 1 ∧ g.Shows ⊤ "{cat=n} [n]" "CAT, a feline [n -S] [n]" ∧
      g.expand 9 "{cat=n} [n]" = "CAT, a feline [n -S] [n]" ∧
      "\n".intercalate ((g.entries "CATS").map (g.expand 9)) = g.definition "CATS" ∧
      (¬∃ text, g.Shows ⊤ "<b=n> [n]" text) ∧ g.Shows 3 "<b=n> [n]" "A [n] [n] [n] [n]" := by
  intro g
  have plural : g.linkedEntries "{cat=n} [n]" = ["a feline [n -S]"] := by decide +kernel
  have singular : g.linkedEntries "a feline [n -S]" = [] := by decide +kernel
  have low : g.height "{cat=n} [n]" ≤ (0 + 1 : Nat) := by
    rw [height_le_succ_iff, plural, List.forall_mem_singleton]
    exact height_le_zero_iff.mpr singular
  have there : "<a=n> [n]" ∈ g.linkedEntries "<b=n> [n]" := by decide +kernel
  have back : "<b=n> [n]" ∈ g.linkedEntries "<a=n> [n]" := by decide +kernel
  have text : g.expand (0 + 1) "{cat=n} [n]" = "CAT, a feline [n -S] [n]" := by decide +kernel
  have entries : g.entries "CATS" = ["{cat=n} [n]"] := by decide +kernel
  obtain ⟨full, whole, limited⟩ := expand_in_full g
  obtain ⟨shown, same⟩ := full "{cat=n} [n]" (0 + 1) low
  refine ⟨low, text ▸ shown, (same 9 (by decide)).trans text, whole "CATS" ?_ 9 (by decide), ?_,
    (limited 3 _ _).mpr (by decide +kernel)⟩
  · rw [entries, List.forall_mem_singleton]
    exact low.trans (by decide)
  · rw [exists_shows_top_iff, height_eq_top (.tail (.single there) back)]
    exact lt_irrefl _

end WordFinder.Glossary
