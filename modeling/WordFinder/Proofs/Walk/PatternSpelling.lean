import Mathlib
import WordFinder.Proofs.Lists
import WordFinder.Proofs.MatchSet.Spelling
import WordFinder.Proofs.Walk.Pattern

/-!
# How pattern walks spell words

A pattern can match a word in several ways, each with its own marks. A walk finds them one after the
other, first those in which the first token takes the first letter and then those in which a star
that comes first is skipped. This order is a matter of the pattern and the word alone: the nodes of
a trie that do not lead to the word add nothing to it, and of the nodes next to each other one at
most leads to it.
-/
set_option autoImplicit false

namespace WordFinder

open Text (upper)

namespace Pattern

/-- The ways to spell a word from its first letter on, if `later` has those to spell the rest. -/
def markingsFrom (later : List Token → List (List Char)) (c : Char) :
    List Token → List (List Char)
  | [] => []
  | token :: tokens =>
    (if token.accepts c then
      (later (PatternState.tokensAfter (token :: tokens))).map (PatternState.mark token c :: ·)
    else []) ++ if token = .star then markingsFrom later c tokens else []

/-- The ways to spell a word with the marks of a pattern, in the order in which they are found. -/
def markings : List Char → List Token → List (List Char)
  | [], tokens => if onlyStars tokens then [[]] else []
  | c :: word, tokens => markingsFrom (markings word) c tokens

/-- The spelling of a word that a walk keeps: the word itself if it is one of its markings, and
otherwise the first of these. -/
def keptMarking? (word : List Char) (tokens : List Token) : Option (List Char) :=
  if word ∈ markings word tokens then some word else (markings word tokens).head?

end Pattern

namespace PatternState

open Pattern (markings)

variable {limits : WalkLimits} {s later : PatternState} {word : List Char}

/-- Whether a state is on the way to a word. -/
def LeadsTo (s : PatternState) (word : List Char) : Prop :=
  s.spelled.reverse.map Char.toUpper ++ word.drop s.spelled.length = word ∧
    word.drop s.spelled.length ∈ s.chain.words

instance (s : PatternState) (word : List Char) : Decidable (s.LeadsTo word) :=
  inferInstanceAs (Decidable (_ ∧ _))

theorem leadsTo_iff :
    s.LeadsTo word ↔ ∃ rest ∈ s.chain.words, word = s.spelled.reverse.map Char.toUpper ++ rest := by
  have length : (s.spelled.reverse.map Char.toUpper).length = s.spelled.length := by simp
  constructor
  · intro leads
    exact ⟨_, leads.2, leads.1.symm⟩
  · intro holds
    obtain ⟨rest, member, rfl⟩ := holds
    rw [LeadsTo, ← length, List.drop_left]
    exact ⟨rfl, member⟩

def spellings (s : PatternState) (word : List Char) : List String :=
  if s.LeadsTo word then
    (markings (word.drop s.spelled.length) s.tokens).map fun marked =>
      .ofList (s.spelled.reverse ++ marked)
  else []

def spellingAt (limits : WalkLimits) (s : PatternState) (word : List Char) (n : TrieNode) :
    List String :=
  if (s.choose n).isComplete limits n && (s.choose n).spelled.reverse.map Char.toUpper = word then
    [.ofList (s.choose n).spelled.reverse]
  else []

theorem spellings_of_not_leadsTo (off : ¬s.LeadsTo word) : s.spellings word = [] :=
  if_neg off

theorem spellings_of_append {rest : List Char} (member : rest ∈ s.chain.words)
    (same : word = s.spelled.reverse.map Char.toUpper ++ rest) :
    s.spellings word = (markings rest s.tokens).map fun marked =>
      .ofList (s.spelled.reverse ++ marked) := by
  have length : (s.spelled.reverse.map Char.toUpper).length = s.spelled.length := by simp
  rw [spellings, if_pos (leadsTo_iff.mpr ⟨rest, member, same⟩), same, ← length, List.drop_left]

/-! ## States off the way -/

theorem spells_of_leadsTo {n : TrieNode} (capital : s.chain.IsCapital)
    (chosen : n ∈ s.choices limits) (leads : (s.choose n).LeadsTo word) :
    ∃ rest, n.Spells rest ∧ word = s.spelled.reverse.map Char.toUpper ++ n.letter :: rest := by
  obtain ⟨rest, member, rfl⟩ := leadsTo_iff.mp leads
  obtain ⟨_, _, _, sibling, _⟩ := mem_choices_iff.mp chosen
  cases rest with
  | nil => exact absurd member (Trie.nil_notMem_words _)
  | cons d rest =>
    have whole : n.letter :: d :: rest ∈ s.chain.words :=
      Trie.mem_words_iff.mpr ⟨n, sibling, rfl, member⟩
    have capitalLetter := (areCapitals_cons.mp (capital _ whole)).1
    refine ⟨d :: rest, member, ?_⟩
    rw [(spelled_choose capitalLetter chosen).1, List.append_assoc, List.singleton_append]

theorem spells_of_spellingAt {n : TrieNode} (capital : s.chain.IsCapital)
    (chosen : n ∈ s.choices limits) (some : s.spellingAt limits word n ≠ []) :
    n.Spells [] ∧ word = s.spelled.reverse.map Char.toUpper ++ [n.letter] := by
  obtain ⟨_, _, _, sibling, _⟩ := mem_choices_iff.mp chosen
  rw [spellingAt, ite_ne_right_iff, Bool.and_eq_true, decide_eq_true_eq] at some
  obtain ⟨⟨complete, same⟩, _⟩ := some
  simp only [isComplete, Bool.and_eq_true] at complete
  have ends : n.Spells [] := complete.1.1
  have member : [n.letter] ∈ s.chain.words := Trie.mem_words_iff.mpr ⟨n, sibling, rfl, ends⟩
  have capitalLetter := (areCapitals_cons.mp (capital _ member)).1
  refine ⟨ends, ?_⟩
  rw [← same, (spelled_choose capitalLetter chosen).1]

theorem room {c : Char} {rest : List Char} (admits : limits.Admits word)
    (same : word = s.spelled.reverse.map Char.toUpper ++ c :: rest) :
    s.spelled.length < limits.maxLength := by
  rw [same] at admits
  simpa using admits.length_lt

theorem isOpen_of_spellings (admits : limits.Admits word) (some : s.spellings word ≠ []) :
    s.isOpen limits = true := by
  have leads : s.LeadsTo word := by
    by_contra off
    exact some (if_neg off)
  obtain ⟨rest, member, same⟩ := leadsTo_iff.mp leads
  rw [spellings_of_append member same] at some
  obtain ⟨c, rest, rfl⟩ := Trie.exists_cons_of_mem_words member
  have someNode : s.chain.isEmpty = false := Trie.isEmpty_of_mem_words member
  have someToken : s.tokens.isEmpty = false := by
    cases tokens : s.tokens with
    | nil =>
      rw [tokens] at some
      exact absurd rfl some
    | cons token tokens => rfl
  rw [isOpen, someNode, someToken, WalkLimits.continues, decide_eq_true (room admits same)]
  rfl

/-- Only open states are put on the stack, but the others amount to nothing. -/
theorem flatMap_next (admits : limits.Admits word) :
    (s.next limits).reverse.flatMap (·.spellings word) =
      ((s.choices limits).reverse.flatMap fun n => (s.choose n).spellings word) ++
        s.skipStar.flatMap (·.spellings word) := by
  have atMostOne : s.skipStar.reverse = s.skipStar := by
    rw [skipStar]
    split <;> rfl
  have opened (states : List PatternState) :
      (states.filter (·.isOpen limits)).flatMap (·.spellings word) =
        states.flatMap (·.spellings word) := by
    induction states with
    | nil => rfl
    | cons first states ih =>
      rw [List.filter_cons, List.flatMap_cons]
      split
      · rw [List.flatMap_cons, ih]
      · next closed =>
        have nothing : first.spellings word = [] := by
          by_contra some
          exact closed (isOpen_of_spellings admits some)
        rw [nothing, ih, List.nil_append]
  rw [next, List.reverse_append, List.flatMap_append, atMostOne, ← List.filter_reverse, opened,
    ← List.map_reverse, List.flatMap_map]

/-! ## States on the way -/

theorem flatMap_of_chosen {f : TrieNode → List String} {n : TrieNode} (proper : s.chain.IsProper)
    (chosen : n ∈ s.choices limits)
    (others : ∀ m ∈ s.choices limits, m.letter ≠ n.letter → f m = []) :
    (s.choices limits).flatMap f = f n ∧ (s.choices limits).reverse.flatMap f = f n := by
  have part : (s.choices limits).Sublist s.chain.siblings := by
    rw [choices]
    split
    · exact List.nil_sublist _
    · exact List.filter_sublist
  have distinct : ((s.choices limits).map TrieNode.letter).Nodup :=
    proper.nodup_letters.sublist (part.map _)
  have apart : ∀ m ∈ s.choices limits, m ≠ n → f m = [] := by
    intro m listed other
    apply others m listed
    intro same
    exact other (List.inj_on_of_nodup_map distinct listed chosen same)
  have once := List.Nodup.of_map _ distinct
  constructor
  · exact flatMap_of_unique once chosen apart
  · apply flatMap_of_unique (List.nodup_reverse.mpr once) (List.mem_reverse.mpr chosen)
    exact fun m listed => apart m (List.mem_reverse.mp listed)

theorem spellings_of_choice {n : TrieNode} {token : Token} {tokens : List Token} {rest : List Char}
    (capital : n.letter.isUpper = true) (tokensAre : s.tokens = token :: tokens)
    (chosen : n ∈ s.choices limits) (spells : n.Spells rest) (admits : limits.Admits word)
    (same : word = s.spelled.reverse.map Char.toUpper ++ n.letter :: rest) :
    s.spellingAt limits word n ++ (s.choose n).spellings word =
      (markings rest (tokensAfter (token :: tokens))).map fun marked =>
        .ofList (s.spelled.reverse ++ mark token n.letter :: marked) := by
  obtain ⟨spelled, length⟩ := spelled_choose capital chosen
  have choice : s.choose n =
      ⟨n.child, mark token n.letter :: s.spelled, tokensAfter (token :: tokens)⟩ := by
    rw [choose, tokensAre]
    rfl
  cases rest with
  | nil =>
    have long := admits.long
    rw [same, ← spelled, List.length_map, List.length_reverse] at long
    have ends : n.isEnd = true := spells
    have noMore : (s.choose n).spellings word = [] := by
      apply if_neg
      rw [leadsTo_iff, spelled]
      intro holds
      obtain ⟨rest, member, whole⟩ := holds
      rw [whole, List.append_right_eq_self] at same
      rw [same] at member
      exact Trie.nil_notMem_words _ member
    rw [noMore, List.append_nil, spellingAt, spelled, ← same, isComplete, ends,
      decide_eq_true long, choice, markings]
    cases Pattern.onlyStars (tokensAfter (token :: tokens)) <;> simp
  | cons d rest =>
    have notYet : s.spellingAt limits word n = [] := by
      rw [spellingAt, if_neg]
      rw [Bool.and_eq_true, decide_eq_true_eq, spelled, same]
      simp
    have onwards : word = (s.choose n).spelled.reverse.map Char.toUpper ++ d :: rest := by
      rw [spelled, same, List.append_assoc, List.singleton_append]
    rw [notYet, List.nil_append, spellings_of_append (by exact spells) onwards, choice]
    simp

theorem spellings_of_skipStar {token : Token} {tokens : List Token} {rest : List Char}
    (tokensAre : s.tokens = token :: tokens) (member : rest ∈ s.chain.words)
    (same : word = s.spelled.reverse.map Char.toUpper ++ rest) :
    s.skipStar.flatMap (·.spellings word) =
      (if token = .star then markings rest tokens else []).map fun marked =>
        .ofList (s.spelled.reverse ++ marked) := by
  by_cases star : token = .star
  · cases tokens with
    | nil =>
      have nothing : markings rest [] = [] := by
        cases rest with
        | nil => exact absurd member (Trie.nil_notMem_words _)
        | cons c rest => rfl
      rw [if_pos star, nothing, skipStar, tokensAre, star]
      rfl
    | cons next tokens =>
      have skipped : s.skipStar = [{ s with tokens := next :: tokens }] := by
        rw [skipStar, tokensAre, star]
      rw [if_pos star, skipped, List.flatMap_singleton]
      exact spellings_of_append member same
  · have none : s.skipStar = [] := by
      rw [skipStar, tokensAre]
      split
      · next first => exact absurd (List.cons.inj first).1 star
      · rfl
    rw [if_neg star, none]
    rfl

theorem nothing_of_other_letter {c : Char} {rest : List Char} (capital : s.chain.IsCapital)
    (same : word = s.spelled.reverse.map Char.toUpper ++ c :: rest) {n : TrieNode}
    (chosen : n ∈ s.choices limits) (other : n.letter ≠ c) :
    s.spellingAt limits word n = [] ∧ (s.choose n).spellings word = [] := by
  constructor
  · by_contra some
    have here := (spells_of_spellingAt capital chosen some).2
    rw [same, List.append_cancel_left_eq, List.cons.injEq] at here
    exact other here.1.symm
  · apply spellings_of_not_leadsTo
    intro onTheWay
    obtain ⟨_, _, here⟩ := spells_of_leadsTo capital chosen onTheWay
    rw [same, List.append_cancel_left_eq, List.cons.injEq] at here
    exact other here.1.symm

theorem spellings_of_choices {token : Token} {tokens : List Token} {c : Char} {rest : List Char}
    (capital : s.chain.IsCapital) (proper : s.chain.IsProper) (admits : limits.Admits word)
    (tokensAre : s.tokens = token :: tokens) (member : c :: rest ∈ s.chain.words)
    (same : word = s.spelled.reverse.map Char.toUpper ++ c :: rest) :
    (s.choices limits).flatMap (s.spellingAt limits word) ++
        ((s.choices limits).reverse.flatMap fun n => (s.choose n).spellings word) =
      (if token.accepts c then
        (markings rest (tokensAfter (token :: tokens))).map (mark token c :: ·)
      else []).map fun marked => .ofList (s.spelled.reverse ++ marked) := by
  obtain ⟨n, sibling, rfl, spells⟩ := Trie.mem_words_iff.mp member
  have capitalLetter := (areCapitals_cons.mp (capital _ member)).1
  by_cases accepted : token.accepts n.letter = true
  · have allowed : limits.allows n.letter = true := admits.allowed _ (by rw [same]; simp)
    have chosen : n ∈ s.choices limits := mem_choices_iff.mpr
      ⟨token, tokens, tokensAre, sibling, accepted, allowed, room admits same⟩
    rw [(flatMap_of_chosen proper chosen fun m listed other =>
        (nothing_of_other_letter capital same listed other).1).1,
      (flatMap_of_chosen proper chosen fun m listed other =>
        (nothing_of_other_letter capital same listed other).2).2,
      spellings_of_choice capitalLetter tokensAre chosen spells admits same, if_pos accepted,
      List.map_map]
    rfl
  · have refused : ∀ m ∈ s.choices limits, m.letter ≠ n.letter := by
      intro m listed sameLetter
      obtain ⟨_, _, first, _, takes, _⟩ := mem_choices_iff.mp listed
      rw [tokensAre, List.cons.injEq] at first
      rw [← first.1, sameLetter] at takes
      exact accepted takes
    have nothing (m : TrieNode) (listed : m ∈ s.choices limits) :=
      nothing_of_other_letter capital same listed (refused m listed)
    rw [if_neg accepted, List.flatMap_eq_nil_iff.mpr fun m listed => (nothing m listed).1,
      List.flatMap_eq_nil_iff.mpr fun m listed => (nothing m (List.mem_reverse.mp listed)).2]
    rfl

theorem nothing_of_not_leadsTo (capital : s.chain.IsCapital) (off : ¬s.LeadsTo word)
    {n : TrieNode} (chosen : n ∈ s.choices limits) :
    s.spellingAt limits word n = [] ∧ (s.choose n).spellings word = [] := by
  obtain ⟨_, _, _, sibling, _⟩ := mem_choices_iff.mp chosen
  have onTheWay {rest : List Char} (spells : n.Spells rest)
      (same : word = s.spelled.reverse.map Char.toUpper ++ n.letter :: rest) : s.LeadsTo word :=
    leadsTo_iff.mpr ⟨n.letter :: rest, Trie.mem_words_iff.mpr ⟨n, sibling, rfl, spells⟩, same⟩
  constructor
  · by_contra some
    obtain ⟨spells, same⟩ := spells_of_spellingAt capital chosen some
    exact off (onTheWay spells same)
  · apply spellings_of_not_leadsTo
    intro leads
    obtain ⟨_, spells, same⟩ := spells_of_leadsTo capital chosen leads
    exact off (onTheWay spells same)

/-- A state amounts to what it adds at once and then to what the states after it amount to, the last
of them first. -/
theorem spellings_eq (capital : s.chain.IsCapital) (proper : s.chain.IsProper)
    (admits : limits.Admits word) :
    s.spellings word = (s.choices limits).flatMap (s.spellingAt limits word) ++
      (s.next limits).reverse.flatMap (·.spellings word) := by
  rw [flatMap_next admits, ← List.append_assoc]
  by_cases leads : s.LeadsTo word
  · obtain ⟨rest, member, same⟩ := leadsTo_iff.mp leads
    obtain ⟨c, rest, rfl⟩ := Trie.exists_cons_of_mem_words member
    rw [spellings_of_append member same]
    cases tokensAre : s.tokens with
    | nil => simp [choices, skipStar, tokensAre, markings, Pattern.markingsFrom]
    | cons token tokens =>
      rw [spellings_of_choices capital proper admits tokensAre member same,
        spellings_of_skipStar tokensAre member same, ← List.map_append]
      rfl
  · -- Skipping a star keeps the place in the trie, so it does not lead to the word either.
    have offSkipped : ∀ later ∈ s.skipStar, later.spellings word = [] := by
      intro later skipped
      obtain ⟨tokens, _, _, rfl⟩ := mem_skipStar_iff.mp skipped
      exact spellings_of_not_leadsTo leads
    have nothing (n : TrieNode) (chosen : n ∈ s.choices limits) :=
      nothing_of_not_leadsTo capital leads chosen
    rw [spellings_of_not_leadsTo leads, List.flatMap_eq_nil_iff.mpr offSkipped,
      List.flatMap_eq_nil_iff.mpr fun n listed => (nothing n listed).1,
      List.flatMap_eq_nil_iff.mpr fun n listed => (nothing n (List.mem_reverse.mp listed)).2]
    rfl

/-! ## The walk -/

theorem spelling?_visit (found : MatchSet) (s : PatternState) (word : String) :
    (visit limits found s).spelling? word =
      ((s.choices limits).flatMap (s.spellingAt limits word.toList)).foldl
        (MatchSet.keepSpelling word) (found.spelling? word) := by
  have same (n : TrieNode) : upper (.ofList (s.choose n).spelled.reverse) = word ↔
      (s.choose n).spelled.reverse.map Char.toUpper = word.toList := by
    rw [← String.toList_inj, Text.toList_upper, String.toList_ofList]
  rw [visit, MatchSet.spelling?_foldl_insertIf]
  congr 1
  induction s.choices limits with
  | nil => rfl
  | cons n choices ih =>
    rw [List.flatMap_cons, ← ih, spellingAt, List.filter_cons]
    by_cases complete : (s.choose n).isComplete limits n = true
    · rw [if_pos complete, List.map_cons, List.filter_cons, complete]
      simp only [same, Bool.true_and, decide_eq_true_eq]
      split <;> rfl
    · simp [complete]

theorem isProper_of_next (proper : s.chain.IsProper) (next : later ∈ s.next limits) :
    later.chain.IsProper := by
  rcases mem_next_iff.mp next with skipped | ⟨_, n, chosen, rfl⟩
  · obtain ⟨tokens, _, _, rfl⟩ := mem_skipStar_iff.mp skipped
    exact proper
  · obtain ⟨_, _, _, sibling, _⟩ := mem_choices_iff.mp chosen
    exact proper.child sibling

end PatternState

namespace Pattern

theorem spelling?_matchesIn_foldl (p : Pattern) {limits : WalkLimits} {t : Trie}
    (capital : t.IsCapital) (proper : t.IsProper) {word : String}
    (admits : limits.Admits word.toList) (member : word.toList ∈ t.words) :
    (p.matchesIn limits t).spelling? word =
      ((markings word.toList p.tokens).map String.ofList).foldl (MatchSet.keepSpelling word)
        none := by
  -- Each state contributes a fold of its own spellings; at the start these are all the markings.
  have run := Walk.look_run (walk limits)
    (fun s => s.chain.IsCapital ∧ s.chain.IsProper) (fun found => found.spelling? word)
    (MatchSet.keepSpelling word)
    (fun s => (s.choices limits).flatMap (s.spellingAt limits word.toList))
    (fun s => s.spellings word.toList)
    (fun found s _ => PatternState.spelling?_visit found s word)
    (fun s valid later next => ⟨PatternState.isCapital_of_next valid.1 next,
      PatternState.isProper_of_next valid.2 next⟩)
    (fun s valid => PatternState.spellings_eq valid.1 valid.2 admits)
    .empty [⟨t, [], p.tokens⟩] (List.forall_mem_singleton.mpr ⟨capital, proper⟩)
  have start : PatternState.spellings ⟨t, [], p.tokens⟩ word.toList = _ :=
    PatternState.spellings_of_append member rfl
  rw [matchesIn, run, MatchSet.spelling?_empty, List.flatMap_singleton, start]
  rfl

/-- How a walk spells a word that it finds: as the first way in which the pattern marks it, unless a
later way marks no letter. -/
theorem spelling?_matchesIn (p : Pattern) {limits : WalkLimits} {t : Trie} (capital : t.IsCapital)
    (proper : t.IsProper) {word : String} (found : (p.matchesIn limits t).contains word = true) :
    (p.matchesIn limits t).spelling? word =
      (keptMarking? word.toList p.tokens).map String.ofList := by
  obtain ⟨member, _, admits⟩ := (p.contains_matchesIn limits capital word).mp found
  have same : word ∈ (markings word.toList p.tokens).map String.ofList ↔
      word.toList ∈ markings word.toList p.tokens := by
    rw [← List.mem_map_of_injective (f := String.ofList) fun _ _ => String.ofList_injective,
      String.ofList_toList]
  rw [p.spelling?_matchesIn_foldl capital proper admits member, MatchSet.foldl_keepSpelling,
    keptMarking?, Option.none_or, List.head?_map]
  simp only [same]
  split
  · rw [Option.map_some, String.ofList_toList]
  · rfl

end Pattern

end WordFinder
