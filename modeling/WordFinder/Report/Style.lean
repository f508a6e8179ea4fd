import WordFinder.Text.Blank

/-!
# Styled text

Text for a terminal in colour and weight, which are set by escape sequences and reset after it. Text
that resets the terminal itself takes up its style again after each reset.
-/
set_option autoImplicit false

namespace WordFinder

structure Style where
  parameters : String
deriving DecidableEq, Repr

namespace Style

def red : Style := ⟨"31"⟩
def green : Style := ⟨"32"⟩
def yellow : Style := ⟨"33"⟩
def cyan : Style := ⟨"36"⟩
def brightYellow : Style := ⟨"93"⟩
def boldRed : Style := ⟨"1;31"⟩
def boldGreen : Style := ⟨"1;32"⟩
def boldBrightYellow : Style := ⟨"1;93"⟩
def boldBrightMagenta : Style := ⟨"1;95"⟩
def boldBrightCyan : Style := ⟨"1;96"⟩

def start (style : Style) : String :=
  "\x1b[" ++ style.parameters ++ "m"

def reset : String := "\x1b[0m"

def paint (style : Style) (colours : Bool) (text : String) : String :=
  if colours then
    style.start ++ (reset ++ style.start).intercalate (Text.splitOn reset text) ++ reset
  else text

end Style

end WordFinder
