import RuleTree.Run
import RuleTree.Segment
import RuleTree.Selectors

/-! From tokens to the rule tree. A range of tokens is read in passes: all its blocks, with
whatever stands in front of their braces, then an at-rule, then a statement. What is between a
block's braces is a range of its own. -/
namespace RuleTree

/-- Most blocks that may be nested where nothing else is asked for. -/
def Config.standardDepth : Nat := 256

structure Config where
  /-- The name of the source, for the log. -/
  source : Option String := none
  /-- Most blocks that may be nested in each other. -/
  maxDepth : Nat := Config.standardDepth

/-- What stands in front of a block's braces. A header with an at-sign anywhere is named by the
token after its first one. -/
def Header.read (ts : List Token) : Run Header :=
  match ts.dropWhile fun t => !t.isAtSign with
  | [] => do
    Run.note .selecting
    return .selectors ((Selectors.ofTokens? ts).getD [])
  | mark :: [] => Run.fail (mark.fault .endOfInput)
  | _ :: name :: _ => return .atRule name.text

namespace Parser

/-- How the range between a block's braces is read, given its opening brace, the window that the
block begins and the range itself. -/
abbrev Inner := Token → Window → Window → Run (List Node)

/-- A window with the nodes read in front of it. -/
abbrev Step := Run (List Node × Window)

theorem advance_rest_lt {w : Window} {n : Nat} (h : w.rest ≠ []) :
    (w.advance (n + 1)).rest.length < w.rest.length := by
  have := List.length_pos_iff.mpr h
  simp only [Window.advance_rest, List.length_drop]
  omega

/-- Reads blocks until no opening brace is left. -/
def blocks (inner : Inner) (w : Window) : Step :=
  match h : w.rest.dropWhile fun t => !t.isBraceOpen with
  | [] => return ([], w)
  | brace :: _ => do
    let header := w.rest.takeWhile fun t => !t.isBraceOpen
    let close ← Run.of (Scan.matchingBrace w.rest header.length)
    let content ← inner brace w (w.inside (header.length + 1) close)
    let node := .block (← Header.read header) content (w.span (close + 1))
    Run.note (.found node)
    have _shorter := advance_rest_lt (w := w) (n := close) (by intro hnil; simp [hnil] at h)
    (fun more => (node :: more.1, more.2)) <$> blocks inner (w.advance (close + 1))
termination_by w.rest.length

def takeBlocks (inner : Inner) (w : Window) : Step := do
  Run.note (.tried .block w)
  Run.note (.took .block)
  blocks inner w

/-- Reads an at-rule, if the next tokens begin one. -/
def takeAtRule (w : Window) : Step := do
  Run.note (.tried .atRule w)
  if AtRule.begins w.rest then
    Run.note (.took .atRule)
    let rule ← Run.of (AtRule.read w.rest)
    let node := .atRule rule.tokens (w.span rule.size)
    Run.note (.found node)
    return ([node], w.advance rule.size)
  else
    return ([], w)

/-- Reads a statement, if the next token may begin one. A delimiter that is the last token is
passed over. -/
def takeStatement (w : Window) : Step := do
  Run.note (.tried .statement w)
  match w.rest with
  | [] => return ([], w)
  | front :: more =>
    if more.isEmpty && front.isDelimiter then
      return ([], w.advance 1)
    else if Statement.beginsWith front then
      Run.note (.took .statement)
      let statement ← Run.of (Statement.read w.rest)
      let node := .statement statement.property statement.value (w.span statement.size)
      Run.note (.found node)
      return ([node], w.advance statement.size)
    else
      return ([], w)

/-- Goes on with `f` where `x` stops, unless nothing is left there. -/
def andThen (x : Step) (f : Window → Step) : Step := do
  let (found, w) ← x
  if w.rest.isEmpty then
    return (found, w)
  else
    (fun more => (found ++ more.1, more.2)) <$> f w

/-- One pass: blocks, an at-rule, a statement. -/
def pass (inner : Inner) (w : Window) : Step := do
  Run.note (.pass w)
  andThen (andThen (takeBlocks inner w) takeAtRule) takeStatement

/-- Makes passes until the range is read. A pass that reads nothing is stopped by an unknown
token. -/
def passes (inner : Inner) (w : Window) : Run (List Node) :=
  match w.rest with
  | [] => return []
  | front :: _ => do
    let (found, next) ← pass inner w
    if next.rest.length < w.rest.length then
      Run.note (.passed w next)
      (found ++ ·) <$> passes inner next
    else
      Run.fail (front.fault .unknownToken)
termination_by w.rest.length

/-- Reads a range inside `depth` blocks, in which blocks may be nested `room` deep. -/
def range (room depth : Nat) (outer : Option Window) (w : Window) : Run (List Node) := do
  Run.note (.entered depth outer w)
  match room with
  | 0 => passes (fun brace _ _ => Run.fail (brace.fault .nestingTooDeep)) w
  | room + 1 => passes (fun _ around w => range room (depth + 1) (some around) w) w
termination_by structural room

end Parser

def parse (config : Config) (ts : List Token) : Run (List Node) := do
  Run.note (.started ts.length config.source)
  Parser.range config.maxDepth 0 none (.all ts)

end RuleTree
