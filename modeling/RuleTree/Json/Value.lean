import RuleTree.Json.Escape

/-! JSON values of texts, natural numbers, lists and records, and how they are written: without any
space, or one item to a line. -/
namespace RuleTree

/-- A JSON value. A record keeps its fields in the order given. -/
inductive Json where
  | number (n : Nat)
  | text (s : String)
  | list (items : List Json)
  | record (fields : List (String × Json))

namespace Json

/-- The blanks between the parts of a value. -/
structure Layout where
  /-- What stands in front of an item that is `level` brackets deep. -/
  line : Nat → List Char
  gap : List Char

namespace Layout

def compact : Layout := ⟨fun _ => [], []⟩

/-- One item to a line, set in by two spaces for each bracket around it. -/
def pretty : Layout := ⟨fun level => '\n' :: List.replicate (2 * level) ' ', [' ']⟩

/-- Items between brackets that are themselves `level` brackets deep. -/
def enclose (l : Layout) (level : Nat) (opener closer : Char) : List (List Char) → List Char
  | [] => [opener, closer]
  | items =>
    opener :: l.line (level + 1) ++ (',' :: l.line (level + 1)).intercalate items ++
      l.line level ++ [closer]

end Layout

mutual

/-- A value that stands `level` brackets deep, as text. -/
def write (l : Layout) (level : Nat) : Json → List Char
  | .number n => Nat.toDigits 10 n
  | .text s => quote s
  | .list items => l.enclose level '[' ']' (writeItems l (level + 1) items)
  | .record fields => l.enclose level '{' '}' (writeFields l (level + 1) fields)

def writeItems (l : Layout) (level : Nat) : List Json → List (List Char)
  | [] => []
  | item :: items => write l level item :: writeItems l level items

def writeFields (l : Layout) (level : Nat) : List (String × Json) → List (List Char)
  | [] => []
  | (key, value) :: fields =>
    (quote key ++ [':'] ++ l.gap ++ write l level value) :: writeFields l level fields

end

/-- The text of a value in the given layout. -/
def render (l : Layout) (j : Json) : String := String.ofList (write l 0 j)

def compact (j : Json) : String := render .compact j

def pretty (j : Json) : String := render .pretty j

end Json
end RuleTree
