import RuleTree.Token.Scan

/-! Segments: the tokens up to a semicolon, read as an at-rule without a body or as a statement.
Delimiters inside them mean nothing, but an at-rule has one after its name. -/
namespace RuleTree

/-- The tokens of an at-rule, delimiters left out, and how many tokens it takes. -/
structure AtRule where
  size : Nat
  tokens : List Token

namespace AtRule

/-- Whether an at-rule begins here: an at-sign directly in front of a word. -/
def begins : List Token → Bool
  | mark :: name :: _ => mark.isAtSign && name.isWord
  | _ => false

/-- An at-rule has at least its mark, name, delimiter and semicolon. -/
def leastSize : Nat := 4

/-- Reads the at-rule that begins here. Its name is followed by a delimiter and a value. -/
def read (ts : List Token) : Except ParseError AtRule := do
  let size ← Scan.statementLength ts
  if size < leastSize then
    throw (.atLast .endOfInput (ts.take size))
  Scan.requireKinds ts [.atSign, .word, .delimiter]
  let tokens := Scan.significant (ts.take size)
  match tokens.drop 2 with
  | [] => throw (.atLast .missingValue (ts.take size))
  | value :: _ =>
    if value.isSemicolon then throw (value.fault .missingValue)
    return ⟨size, tokens⟩

end AtRule

/-- A statement's property and the tokens of its value, and how many tokens it takes. -/
structure Statement where
  size : Nat
  property : String
  value : List Token

namespace Statement

/-- Whether a statement may begin with `t`. -/
def beginsWith (t : Token) : Bool := !(t.isAtSign || t.isBraceOpen || t.isBraceClose)

/-- The tokens without the semicolon at their end. -/
def dropTerminator (ts : List Token) : List Token :=
  if ts.getLast?.any Token.isSemicolon then ts.dropLast else ts

/-- Reads the statement that begins here. The token after the property separates it from the
value and is dropped. -/
def read (ts : List Token) : Except ParseError Statement := do
  let size ← Scan.statementLength ts
  match dropTerminator (Scan.significant (ts.take size)) with
  | [] => throw (.atLast .mismatch (ts.take size))
  | property :: more => return ⟨size, property.text, more.drop 1⟩

end Statement

end RuleTree
