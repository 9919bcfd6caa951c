/-! A source text, and the excerpt of it that a message shows around one character. -/
namespace RuleTree

/-- A whole text and the name it goes by, if it has one. -/
structure Source where
  name : Option String
  text : String
  deriving DecidableEq

/-- How a marked character is set off: by arrows, or in red on a terminal. -/
inductive Highlight where
  | plain | ansi
  deriving DecidableEq

namespace Highlight

def opening : Highlight → String
  | .plain => ">>"
  | .ansi => "\x1b[31m"

def closing : Highlight → String
  | .plain => "<<"
  | .ansi => "\x1b[39m"

end Highlight

/-- Part of a text with one character marked. -/
structure Excerpt where
  /-- The text goes on in front of `before`. -/
  cutStart : Bool
  before : String
  /-- The marked character; empty when the offset lies past the end of the text. -/
  marked : String
  after : String
  /-- The excerpt is full, so the text may go on after it. -/
  cutEnd : Bool
  deriving DecidableEq

namespace Excerpt

/-- How many characters are shown in front of the marked one at most, and how many from it on. -/
def reach : Nat := 50

def empty : Excerpt := ⟨false, "", "", "", false⟩

/-- The characters of `text` from `reach` before `index` to less than `reach` after it. Offsets are
numbers of any size; where they are words of 64 bits, the sum `index + reach` has to be one too, and
so `index` less than `2 ^ 64 - reach`. -/
def window (text : String) (index : Nat) : List Char :=
  (text.toList.drop (index - reach)).take (index + reach - (index - reach))

/-- The excerpt of `text` around the character at `index`, counted in characters. -/
def around (text : String) (index : Nat) : Excerpt :=
  let start := index - reach
  let shown := window text index
  { cutStart := decide (start ≠ 0)
    before := String.ofList (shown.take (index - start))
    marked := String.ofList ((shown.drop (index - start)).take 1)
    after := String.ofList (shown.drop (index - start + 1))
    cutEnd := decide (2 * reach ≤ shown.length) }

/-- The excerpt as text, cuts shown by dots. -/
def render (h : Highlight) (e : Excerpt) : String :=
  (if e.cutStart then "...\n" else "") ++ e.before ++ h.opening ++ e.marked ++ h.closing ++
    e.after ++ (if e.cutEnd then "..." else "")

end Excerpt

def Source.excerpt (s : Source) (index : Nat) : Excerpt := Excerpt.around s.text index

end RuleTree
