import RuleTree.Window

/-! What happens while tokens are read, and the log that it leaves. Events tell more than the log:
they name the window at each step, also where nothing is recorded. -/
namespace RuleTree

/-- The three kinds of node, as what the next tokens are tried for. -/
inductive Shape where
  | block | atRule | statement
  deriving DecidableEq

inductive Event where
  /-- A run on this many tokens begins. -/
  | started (count : Nat) (source : Option String)
  /-- A range inside `depth` blocks is entered, from the window of the range around it. -/
  | entered (depth : Nat) (outer : Option Window) (range : Window)
  /-- Blocks, an at-rule and a statement are about to be looked for, in this order. -/
  | pass (w : Window)
  /-- Such a pass read tokens. -/
  | passed (before after : Window)
  /-- The next tokens are tried for a shape. -/
  | tried (shape : Shape) (w : Window)
  /-- The next tokens have to be of this shape. -/
  | took (shape : Shape)
  | selecting
  | found (node : Node)

inductive Level where
  | debug | trace
  deriving DecidableEq

def Level.label : Level → String
  | .debug => "DEBUG"
  | .trace => "TRACE"

structure Record where
  level : Level
  /-- The part of the program that speaks. -/
  speaker : String
  message : String
  deriving DecidableEq

namespace Shape

/-- The part of the program that reads nodes of a shape. -/
def speaker : Shape → String
  | .block => "cssnest_parser::parser::block"
  | .atRule => "cssnest_parser::parser::at_rule"
  | .statement => "cssnest_parser::parser::statement"

/-- What is recorded when nodes of a shape are read. -/
def activity : Shape → String
  | .block => "parse_block"
  | .atRule => "parse_at_rule"
  | .statement => "parse_statement"

end Shape

def Node.record : Node → Record
  | .block header _ span =>
    ⟨.debug, Shape.block.speaker, "block " ++ header.label ++ " spanning tokens " ++ span.label⟩
  | .atRule tokens span =>
    ⟨.debug, Shape.atRule.speaker, "at-rule @" ++ (tokens[1]?.map Token.text).getD "" ++
      " spanning tokens " ++ span.label⟩
  | .statement property _ span =>
    ⟨.debug, Shape.statement.speaker, "statement " ++ property ++ " spanning tokens " ++
      span.label⟩

namespace Event

/-- The record of an event, if it leaves one. -/
def record? : Event → Option Record
  | .started count source =>
    some ⟨.debug, "cssnest_parser", "parsing " ++ toString count ++ " tokens from " ++
      source.getD "<unknown>"⟩
  | .entered depth _ _ =>
    some ⟨.trace, "cssnest_parser::parser", "parse_tokens (depth " ++ toString depth ++ ")"⟩
  | .pass _ => none
  | .passed _ _ => none
  | .tried _ _ => none
  | .took shape => some ⟨.trace, shape.speaker, shape.activity⟩
  | .selecting => some ⟨.trace, "cssnest_parser::parser::selector_list", "parse_selector_list"⟩
  | .found node => some node.record

end Event

end RuleTree
