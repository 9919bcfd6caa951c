import RuleTree.Token

/-! The rule tree: blocks with their content, at-rules without a body, and statements. -/
namespace RuleTree

/-- Positions of the tokens that a node was read from: from `start` up to, but not including,
`stop`, in the whole token sequence also for nodes inside blocks. -/
structure Span where
  start : Nat
  stop : Nat
  deriving DecidableEq, Inhabited

namespace Span

/-- Number of tokens in a span. -/
def size (s : Span) : Nat := s.stop - s.start

/-- Whether a span ends where it starts. -/
def isEmpty (s : Span) : Bool := s.start == s.stop

/-- How a span is shown in records. -/
def label (s : Span) : String :=
  "Span \x7b start: " ++ toString s.start ++ ", end: " ++ toString s.stop ++ " \x7d"

end Span

/-- What stands in front of a block's braces. -/
inductive Header where
  /-- An at-rule with a body, by its name. -/
  | atRule (name : String)
  /-- A style rule, by its trimmed selectors. -/
  | selectors (list : List String)
  deriving DecidableEq

def Header.label : Header → String
  | .atRule name => "Kind(" ++ Text.quoted name ++ ")"
  | .selectors list => "Selectors([" ++ ", ".intercalate (list.map Text.quoted) ++ "])"

/-- A node of the rule tree, with the span it was read from. -/
inductive Node where
  /-- A header and the nodes between its braces. -/
  | block (header : Header) (content : List Node) (span : Span)
  /-- An at-rule without a body. Its value is never read, so the tokens are kept as they are. -/
  | atRule (tokens : List Token) (span : Span)
  | statement (property : String) (value : List Token) (span : Span)
  deriving Inhabited

namespace Node

def span : Node → Span
  | .block _ _ s => s
  | .atRule _ s => s
  | .statement _ _ s => s

def isBlock : Node → Bool
  | .block .. => true
  | _ => false

def isAtRule : Node → Bool
  | .atRule .. => true
  | _ => false

def isStatement : Node → Bool
  | .statement .. => true
  | _ => false

/-- The name of an at-rule with a body. -/
def ruleName? : Node → Option String
  | .block (.atRule name) _ _ => some name
  | _ => none

/-- The selectors of a style rule. -/
def selectors? : Node → Option (List String)
  | .block (.selectors list) _ _ => some list
  | _ => none

/-- The nodes inside a block. Other nodes have none. -/
def content : Node → List Node
  | .block _ content _ => content
  | _ => []

mutual

/-- Number of block levels at and below a node. -/
def depth : Node → Nat
  | .block _ content _ => 1 + depthAll content
  | .atRule .. => 0
  | .statement .. => 0

/-- Number of block levels in a list of nodes. -/
def depthAll : List Node → Nat
  | [] => 0
  | n :: ns => max n.depth (depthAll ns)

end

mutual

/-- A node and the nodes below it, each in front of its content. -/
def preorder : Node → List Node
  | .block header content span => .block header content span :: preorderAll content
  | .atRule tokens span => [.atRule tokens span]
  | .statement property value span => [.statement property value span]

def preorderAll : List Node → List Node
  | [] => []
  | n :: ns => n.preorder ++ preorderAll ns

end

end Node
end RuleTree
