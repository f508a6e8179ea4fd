import WordFinder.Pattern.Token

/-!
# Scanning a word with tokens

A scan goes from left to right through tokens and letters. A star takes no letter at first; a letter
that cannot be passed is left to the latest star met, and the tokens after that star are tried again
behind it. Earlier stars are never gone back to.
-/
set_option autoImplicit false

namespace WordFinder

namespace Pattern

def onlyStars (tokens : List Token) : Bool :=
  tokens.all (· == .star)

/-- A place in a pattern and in a word while the word is scanned from left to right. -/
structure Scan where
  tokens : List Token
  word : List Char
  /-- The tokens after the latest star met, and the letters on which they were last tried. -/
  tried? : Option (List Token × List Char)
  /-- Since they were tried, as many tokens as letters were passed, none of them a star. -/
  passed : ∀ tried ∈ tried?, ∃ tokensPassed lettersPassed,
    tried = (tokensPassed ++ tokens, lettersPassed ++ word) ∧
      tokensPassed.length = lettersPassed.length ∧ .star ∉ tokensPassed

namespace Scan

def start (tokens : List Token) (word : List Char) : Scan :=
  ⟨tokens, word, none, by simp⟩

def afterStar (tokens : List Token) (word : List Char) : Scan :=
  ⟨tokens, word, some (tokens, word), fun _ same => ⟨[], [], by simpa using same.symm⟩⟩

/-- The tokens after the latest star tried again, with one letter more left to the star. -/
def retry? (s : Scan) : Option Scan :=
  s.tried?.map fun tried => afterStar tried.1 tried.2.tail

/-- The scan after one step. A scan without a next step is over. -/
def step? : Scan → Option Scan
  | ⟨_, [], _, _⟩ => none
  | s@⟨[], _ :: _, _, _⟩ => s.retry?
  | s@⟨token :: tokens, c :: word, tried?, passed⟩ =>
    if star : token = .star then some (afterStar tokens (c :: word))
    else if token.accepts c then
      some ⟨tokens, word, tried?, fun tried same => by
        obtain ⟨tokensPassed, lettersPassed, rfl, length, noStar⟩ := passed tried same
        exact ⟨tokensPassed ++ [token], lettersPassed ++ [c], by simp, by simp [length],
          by simp [noStar, Ne.symm star]⟩⟩
    else s.retry?

def isMatched (s : Scan) : Bool :=
  s.word.isEmpty && onlyStars s.tokens

/-- What a step is: a star is met, a letter is passed, or the latest star takes one letter more. -/
theorem step?_eq_some {s next : Scan} (step : s.step? = some next) :
    ∃ c word, s.word = c :: word ∧
      ((∃ tokens, s.tokens = .star :: tokens ∧ next = afterStar tokens s.word) ∨
        (∃ token tokens, s.tokens = token :: tokens ∧ token ≠ .star ∧ token.accepts c = true ∧
          next.tokens = tokens ∧ next.word = word ∧ next.tried? = s.tried?) ∨
        ((∀ token tokens, s.tokens = token :: tokens → token ≠ .star ∧ token.accepts c ≠ true) ∧
          ∃ tried ∈ s.tried?, next = afterStar tried.1 tried.2.tail)) := by
  obtain ⟨tokens, word, tried?, passed⟩ := s
  cases word with
  | nil => simp [step?] at step
  | cons c word =>
    refine ⟨c, word, rfl, ?_⟩
    cases tokens with
    | nil =>
      obtain ⟨tried, found, rfl⟩ := Option.map_eq_some_iff.mp step
      exact Or.inr (Or.inr ⟨by simp, tried, found, rfl⟩)
    | cons token tokens =>
      rw [step?] at step
      split at step
      · next star =>
        cases step
        exact Or.inl ⟨tokens, congrArg (· :: tokens) star, rfl⟩
      · next single =>
        split at step
        · next accepted =>
          cases step
          exact Or.inr (Or.inl ⟨token, tokens, rfl, single, accepted, rfl, rfl, rfl⟩)
        · next refused =>
          obtain ⟨tried, found, rfl⟩ := Option.map_eq_some_iff.mp step
          refine Or.inr (Or.inr ⟨fun _ _ same => ?_, tried, found, rfl⟩)
          cases same
          exact ⟨single, refused⟩

/-- What the latest star was last tried on, or what is left where no star was met. -/
def latest (s : Scan) : List Token × List Char :=
  s.tried?.getD (s.tokens, s.word)

theorem latest_afterStar (tokens : List Token) (word : List Char) :
    (afterStar tokens word).latest = (tokens, word) :=
  rfl

theorem latest_eq (s : Scan) : ∃ tokensPassed lettersPassed,
    s.latest = (tokensPassed ++ s.tokens, lettersPassed ++ s.word) := by
  cases latest : s.tried? with
  | none => exact ⟨[], [], by rw [Scan.latest, latest]; rfl⟩
  | some tried =>
    obtain ⟨tokensPassed, lettersPassed, rfl, _⟩ := s.passed tried latest
    exact ⟨tokensPassed, lettersPassed, by rw [Scan.latest, latest]; rfl⟩

/-- Bounds the steps that a scan takes: for every letter that the latest star may still take, the
tokens after it are passed at most once. -/
def weight (s : Scan) : Nat :=
  s.latest.2.length * (s.latest.1.length + 1) + s.tokens.length

theorem weight_lt {s next : Scan} (tokens : next.latest.1.length ≤ s.latest.1.length)
    (letters : next.latest.2.length ≤ s.latest.2.length)
    (passed : next.tokens.length < s.tokens.length) : next.weight < s.weight :=
  Nat.add_lt_add_of_le_of_lt (Nat.mul_le_mul letters (Nat.succ_le_succ tokens)) passed

theorem weight_step {s next : Scan} (step : s.step? = some next) : next.weight < s.weight := by
  obtain ⟨tokensPassed, lettersPassed, latest⟩ := s.latest_eq
  obtain ⟨c, word, letters, ⟨tokens, front, rfl⟩ | ⟨token, tokens, front, _, _, shape⟩ |
    ⟨_, tried, found, rfl⟩⟩ := step?_eq_some step
  · refine weight_lt ?_ ?_ ?_
    · simp only [latest, front, latest_afterStar, List.length_append, List.length_cons]
      omega
    · simp only [latest, latest_afterStar, List.length_append]
      omega
    · simp [front, afterStar]
  · obtain ⟨tokensLeft, wordLeft, same⟩ := shape
    have less : next.latest.1.length ≤ s.latest.1.length ∧
        next.latest.2.length ≤ s.latest.2.length := by
      rw [Scan.latest, Scan.latest, same]
      cases s.tried? with
      | none => simp [tokensLeft, wordLeft, front, letters]
      | some tried => exact ⟨Nat.le_refl _, Nat.le_refl _⟩
    exact weight_lt less.1 less.2 (by simp [tokensLeft, front])
  · -- The star has a letter less to take, which makes up for all tokens after it.
    have same : s.latest = tried := by rw [Scan.latest, show s.tried? = some tried from found]; rfl
    have letter : tried.2.length = tried.2.tail.length + 1 := by
      rw [← same, latest, letters, List.length_tail, List.length_append, List.length_cons]
      omega
    rw [weight, weight, same, latest_afterStar, letter, Nat.succ_mul]
    simp only [afterStar]
    omega

def run (s : Scan) : Bool :=
  match _step : s.step? with
  | some next => next.run
  | none => s.isMatched
termination_by s.weight
decreasing_by exact weight_step _step

end Scan

end Pattern

end WordFinder
