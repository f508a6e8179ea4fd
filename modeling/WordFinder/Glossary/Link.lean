import WordFinder.Text.WordChar

/-!
# Marks in definitions

A definition may name its part of speech after an opening bracket, as in `[n -S]`, and may link to
the definition of another word: `{cat=n}` stands for the word and its definition as a noun, `<cat=n>`
for the definition alone.
-/
set_option autoImplicit false

namespace WordFinder

def partOfSpeechFrom : List Char → List Char
  | [] => []
  | c :: cs =>
    let name := cs.takeWhile Text.isWordChar
    if c = '[' && !name.isEmpty then name else partOfSpeechFrom cs

def partOfSpeech (entry : String) : String :=
  .ofList (partOfSpeechFrom entry.toList)

structure DefinitionLink where
  word : String
  partOfSpeech : String
  /-- Whether the word itself is shown before its entries. -/
  showsWord : Bool
deriving DecidableEq, Repr

/-- The link that a text starts with once its opening mark is read, and the length of that link. -/
def linkAfter? (closing : Char) (showsWord : Bool) (cs : List Char) :
    Option (DefinitionLink × Nat) :=
  let word := cs.takeWhile Text.isWordChar
  match cs.dropWhile Text.isWordChar with
  | '=' :: rest =>
    let pos := rest.takeWhile Text.isWordChar
    match rest.dropWhile Text.isWordChar with
    | c :: _ =>
      if c = closing && !word.isEmpty && !pos.isEmpty then
        some (⟨.ofList word, .ofList pos, showsWord⟩, word.length + pos.length + 2)
      else none
    | [] => none
  | _ => none

/-- The link that a text starts with, and how many characters of it come after the opening mark. -/
def link? : List Char → Option (DefinitionLink × Nat)
  | '\x7b' :: cs => linkAfter? '\x7d' true cs
  | '<' :: cs => linkAfter? '>' false cs
  | _ => none

/-- A stretch of a definition: one character, or a link. -/
inductive DefinitionPiece where
  | plain (c : Char)
  | link (l : DefinitionLink)
deriving DecidableEq, Repr

/-- The pieces of a definition, of which the first `skip` characters belong to a link already
found. -/
def piecesAfter : Nat → List Char → List DefinitionPiece
  | _, [] => []
  | skip + 1, _ :: cs => piecesAfter skip cs
  | 0, c :: cs =>
    match link? (c :: cs) with
    | some (l, length) => .link l :: piecesAfter length cs
    | none => .plain c :: piecesAfter 0 cs

def definitionPieces (entry : String) : List DefinitionPiece :=
  piecesAfter 0 entry.toList

end WordFinder
