import RuleTree.Source
import RuleTree.Text.Quoted

/-! Tokens: what the words and marks of a style sheet are called, and where they stand. -/
namespace RuleTree

/-- What a token is. Tags that are not among the eleven named ones are kept under `other`, and
nothing ever looks inside them. -/
inductive Kind where
  | word
  | delimiter
  | semicolon
  | colon
  | comma
  /-- The mark in front of an at-rule's name, which is a word of its own. -/
  | atSign
  | braceOpen
  | braceClose
  | parenOpen
  | parenClose
  /-- A quoted text, its quotes included. -/
  | quoted
  | other (tag : String)
  deriving DecidableEq

namespace Kind

/-- The tag by which a kind is exchanged. -/
def tag : Kind → String
  | .word => "word"
  | .delimiter => "delimiter"
  | .semicolon => "semicolon"
  | .colon => "colon"
  | .comma => "comma"
  | .atSign => "at"
  | .braceOpen => "braceOpen"
  | .braceClose => "braceClose"
  | .parenOpen => "parenthesisOpen"
  | .parenClose => "parenthesisClose"
  | .quoted => "string"
  | .other tag => tag

/-- The kinds with a tag of their own. -/
def named : List Kind :=
  [.word, .delimiter, .semicolon, .colon, .comma, .atSign, .braceOpen, .braceClose, .parenOpen,
   .parenClose, .quoted]

/-- The kind with the given tag of its own. -/
def named? (tag : String) : Option Kind := named.find? fun k => k.tag == tag

/-- The kind that a tag stands for. -/
def ofTag (tag : String) : Kind := (named? tag).getD (.other tag)

@[simp] theorem tag_ofTag (tag : String) : (ofTag tag).tag = tag := by
  unfold ofTag named?
  cases h : named.find? fun k => k.tag == tag with
  | none => rfl
  | some k => simpa using List.find?_some h

theorem ofTag_tag {k : Kind} (h : k ∈ named) : ofTag k.tag = k := by
  simp only [named, List.mem_cons, List.not_mem_nil, or_false] at h
  rcases h with rfl | rfl | rfl | rfl | rfl | rfl | rfl | rfl | rfl | rfl | rfl <;> rfl

/-- The name under which a kind is listed. -/
def label : Kind → String
  | .word => "Word"
  | .delimiter => "Delimiter"
  | .semicolon => "Semicolon"
  | .colon => "Colon"
  | .comma => "Comma"
  | .atSign => "At"
  | .braceOpen => "BraceOpen"
  | .braceClose => "BraceClose"
  | .parenOpen => "ParenthesisOpen"
  | .parenClose => "ParenthesisClose"
  | .quoted => "QuotedString"
  | .other tag => "Other(" ++ Text.quoted tag ++ ")"

end Kind

/-- A piece of a source. The offset `index` counts characters; the origin feeds excerpts only. In
tokens of a text offsets are less than its length; tokens from elsewhere may have any, and an error
at such a token is exact in words of 64 bits if `index + Excerpt.reach` is one. -/
structure Token where
  kind : Kind
  text : String
  index : Nat
  origin : Source
  deriving DecidableEq

namespace Token

def isWord (t : Token) : Bool := t.kind == .word
def isDelimiter (t : Token) : Bool := t.kind == .delimiter
def isSemicolon (t : Token) : Bool := t.kind == .semicolon
def isComma (t : Token) : Bool := t.kind == .comma
def isAtSign (t : Token) : Bool := t.kind == .atSign
def isBraceOpen (t : Token) : Bool := t.kind == .braceOpen
def isBraceClose (t : Token) : Bool := t.kind == .braceClose

end Token
end RuleTree
