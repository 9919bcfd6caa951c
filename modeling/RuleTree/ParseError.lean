import RuleTree.Token

/-! Why tokens were refused, and at which token. -/
namespace RuleTree

/-- What is wrong with a token sequence. Every cause ends the whole parse. -/
inductive Cause where
  /-- A statement, at-rule or header breaks off. -/
  | endOfInput
  /-- A token is not of the kind that its place asks for. -/
  | mismatch
  /-- An at-rule's name has no value after it. -/
  | missingValue
  | unmatchedBrace
  | unknownToken
  | nestingTooDeep
  deriving DecidableEq

def Cause.message : Cause → String
  | .endOfInput => "unexpected end of input."
  | .mismatch => "unexpected token."
  | .missingValue => "expected expression"
  | .unmatchedBrace => "invalid nesting. No closing token was found"
  | .unknownToken => "unknown token"
  | .nestingTooDeep => "nesting too deep"

/-- A cause together with the token it is found at. -/
structure ParseError where
  cause : Cause
  index : Nat
  token : String
  excerpt : Excerpt
  deriving DecidableEq

namespace ParseError

/-- The error of an empty token sequence, which has no token to point at. -/
def detached (cause : Cause) : ParseError := ⟨cause, 0, "", .empty⟩

def render (h : Highlight) (e : ParseError) : String :=
  "Parse error, " ++ e.cause.message ++ "\nAt " ++ toString e.index ++ "\n\"" ++
    e.excerpt.render h ++ "\""

end ParseError

/-- The error of the given cause at `t`, with the excerpt of the text that `t` comes from. -/
def Token.fault (t : Token) (cause : Cause) : ParseError :=
  ⟨cause, t.index, t.text, t.origin.excerpt t.index⟩

/-- The error of the given cause at the last of `ts`. -/
def ParseError.atLast (cause : Cause) (ts : List Token) : ParseError :=
  match ts.getLast? with
  | some t => t.fault cause
  | none => .detached cause

end RuleTree
