import RuleTree.Parser
import RuleTree.Proofs.Spans

/-! The parser by positions. It works on the whole list of tokens, moves positions in it, and looks
into lists by indices that may be outside of them; there the run breaks off. A range and a position
in it carry that they lie in the list, so where a move would leave its range, the run breaks off as
well. -/
namespace RuleTree

/-- A run that may also break off, without a result and without an error. -/
abbrev Checked (α : Type) := OptionT Run α

namespace Checked

/-- A run in which nothing happens but its result. -/
def of {α : Type} (r : Except ParseError α) : Checked α := OptionT.mk (some <$> Run.of r)

def note (e : Event) : Checked Unit := OptionT.mk (some <$> Run.note e)

def fail {α : Type} (e : ParseError) : Checked α := OptionT.mk (Run.fail e)

/-- The token at an index. -/
def token (us : List Token) (i : Nat) : Checked Token :=
  match us[i]? with
  | some t => pure t
  | none => failure

/-- The token in front of an index. -/
def tokenBefore (us : List Token) : Nat → Checked Token
  | 0 => failure
  | n + 1 => token us n

/-- The tokens from one index to before another. -/
def slice (us : List Token) (first last : Nat) : Checked (List Token) :=
  if first ≤ last ∧ last ≤ us.length then pure (Span.tokens ⟨first, last⟩ us) else failure

/-- Looks for the end of a segment from the index `i` on: behind a semicolon or in front of an
opening brace. -/
def scan (us : List Token) (i : Nat) : Checked Nat :=
  if i < us.length then do
    let before ← tokenBefore us i
    if before.isSemicolon then
      return i
    else
      let here ← token us i
      if here.isBraceOpen then return i else scan us (i + 1)
  else return i
termination_by us.length - i

/-- The end of the segment that begins `us`. -/
def segmentStop (us : List Token) : Checked Nat := do
  let stop ← scan us 1
  if stop = us.length ∧ ¬ us.getLast?.any Token.isSemicolon then
    fail (.atLast .endOfInput us)
  else
    return stop

/-- The at-rule that begins `us`. -/
def atRule (us : List Token) : Checked AtRule := do
  let stop ← segmentStop us
  if stop < AtRule.leastSize then
    let last ← tokenBefore us stop
    fail (last.fault .endOfInput)
  else
    of (Scan.requireKinds us [.atSign, .word, .delimiter])
    let segment ← slice us 0 stop
    match (Scan.significant segment)[2]? with
    | none => do
      let last ← tokenBefore us stop
      fail (last.fault .missingValue)
    | some value =>
      if value.isSemicolon then fail (value.fault .missingValue)
      else return ⟨stop, Scan.significant segment⟩

/-- The statement that begins `us`. -/
def statement (us : List Token) : Checked Statement := do
  let stop ← segmentStop us
  let segment ← slice us 0 stop
  match Statement.dropTerminator (Scan.significant segment) with
  | [] => do
    let last ← tokenBefore us stop
    fail (last.fault .mismatch)
  | property :: more => return ⟨stop, property.text, more.drop 1⟩

/-- What stands in front of a block's braces. -/
def header (us : List Token) : Checked Header := do
  match Scan.firstIndex? .atSign us with
  | none => do
    note .selecting
    return .selectors ((Selectors.ofTokens? us).getD [])
  | some i =>
    match us[i + 1]? with
    | some name => return .atRule name.text
    | none => do
      let mark ← token us i
      fail (mark.fault .endOfInput)

section
variable {α β : Type} {x : Checked α} {k : α → Checked β}

theorem run_bind_of_some {a : α} (h : x.run.result = .ok (some a)) :
    (x >>= k).run = ⟨x.run.events ++ (k a).run.events, (k a).run.result⟩ := by
  change Run.bind x.run _ = _
  rw [Run.bind, h]
  rfl

theorem run_bind_of_none (h : x.run.result = .ok none) :
    (x >>= k).run = ⟨x.run.events, .ok none⟩ := by
  change Run.bind x.run _ = _
  rw [Run.bind, h]
  exact congrArg (Run.mk · _) (List.append_nil _)

theorem run_bind_of_error {e : ParseError} (h : x.run.result = .error e) :
    (x >>= k).run = ⟨x.run.events, .error e⟩ := by
  change Run.bind x.run _ = _
  rw [Run.bind, h]

/-- A run goes on behind a value, and stops without one. -/
theorem run_bind_cases (x : Checked α) (k : α → Checked β) :
    (∃ a, x.run.result = .ok (some a) ∧
      (x >>= k).run = ⟨x.run.events ++ (k a).run.events, (k a).run.result⟩) ∨
    ((x >>= k).run.events = x.run.events ∧ ∀ b, (x >>= k).run.result ≠ .ok (some b)) := by
  cases hx : x.run.result with
  | error e =>
    right
    rw [run_bind_of_error hx]
    exact ⟨rfl, nofun⟩
  | ok a? =>
    cases a? with
    | none =>
      right
      rw [run_bind_of_none hx]
      exact ⟨rfl, nofun⟩
    | some a => exact .inl ⟨a, rfl, run_bind_of_some hx⟩

theorem map_run_events (f : α → β) : (f <$> x).run.events = x.run.events := by
  change (x >>= fun a => pure (f a)).run.events = _
  rcases run_bind_cases x fun a => pure (f a) with ⟨a, -, hrun⟩ | ⟨hevents, -⟩
  · rw [hrun]
    exact List.append_nil _
  · exact hevents

end
end Checked

/-- A range of the tokens `ts`, as a parser of its own reads it. -/
structure Range (ts : List Token) where
  start : Nat
  stop : Nat
  start_le : start ≤ stop
  stop_le : stop ≤ ts.length

/-- How far a range is read. -/
structure Cursor {ts : List Token} (r : Range ts) where
  position : Nat
  start_le : r.start ≤ position
  le_stop : position ≤ r.stop

namespace Range
variable {ts : List Token}

def all (ts : List Token) : Range ts := ⟨0, ts.length, Nat.zero_le _, Nat.le_refl _⟩

/-- Where the reading of a range begins. -/
def front (r : Range ts) : Cursor r := ⟨r.start, Nat.le_refl _, r.start_le⟩

end Range

namespace Cursor
open Checked

variable {ts : List Token} {r : Range ts}

/-- The unread tokens, with the positions that they are known by. -/
def window (c : Cursor r) : Window := ⟨r.start, c.position, Span.tokens ⟨c.position, r.stop⟩ ts⟩

def advance (c : Cursor r) (n : Nat) (h : c.position + n ≤ r.stop) : Cursor r where
  position := c.position + n
  start_le := Nat.le_add_right_of_le c.start_le
  le_stop := h

/-- The range of the unread tokens from the `first` to before the `last`, counted from the next
one. -/
def inside (c : Cursor r) (first last : Nat) (h : first ≤ last) (hl : c.position + last ≤ r.stop) :
    Range ts where
  start := c.position + first
  stop := c.position + last
  start_le := Nat.add_le_add_left h _
  stop_le := Nat.le_trans hl r.stop_le

def span (c : Cursor r) (n : Nat) : Span := ⟨c.position, c.position + n⟩

/-- The unread tokens. -/
def rest (c : Cursor r) : Checked (List Token) := slice ts c.position r.stop

/-- Moves over the next `n` tokens. -/
def forward (c : Cursor r) (n : Nat) : Checked (Cursor r) :=
  if h : c.position + n ≤ r.stop then pure (c.advance n h) else failure

/-- How the range between a block's braces is read, given its opening brace and where the block
begins. -/
abbrev Inner (r : Range ts) := Token → Cursor r → Range ts → Checked (List Node)

/-- A place in a range with the nodes read in front of it. -/
abbrev Step (r : Range ts) := Checked (List Node × Cursor r)

/-- Reads blocks until no opening brace is left. -/
def blocks (inner : Inner r) (c : Cursor r) : Step r := do
  let rest ← c.rest
  match Scan.firstIndex? .braceOpen rest with
  | none => return ([], c)
  | some o =>
    let close ← of (Scan.matchingBrace rest o)
    if h : o + 1 ≤ close ∧ c.position + (close + 1) ≤ r.stop then do
      let brace ← token rest o
      let content ← inner brace c (c.inside (o + 1) close h.1 (Nat.le_of_succ_le h.2))
      let header ← Checked.header (← slice rest 0 o)
      let node := .block header content (c.span (close + 1))
      note (.found node)
      (fun more => (node :: more.1, more.2)) <$> blocks inner (c.advance (close + 1) h.2)
    else failure
termination_by r.stop - c.position
decreasing_by simp only [advance]; omega

def takeBlocks (inner : Inner r) (c : Cursor r) : Step r := do
  note (.tried .block c.window)
  note (.took .block)
  blocks inner c

/-- Reads an at-rule, if the next tokens begin one. Its name is looked up for the log. -/
def takeAtRule (c : Cursor r) : Step r := do
  note (.tried .atRule c.window)
  let rest ← c.rest
  if AtRule.begins rest then
    note (.took .atRule)
    let rule ← Checked.atRule rest
    let _name ← token rule.tokens 1
    let node := .atRule rule.tokens (c.span rule.size)
    note (.found node)
    return ([node], ← c.forward rule.size)
  else
    return ([], c)

/-- Reads a statement, if the next token may begin one. A delimiter that is the last token is
passed over. -/
def takeStatement (c : Cursor r) : Step r := do
  note (.tried .statement c.window)
  match ← c.rest with
  | [] => return ([], c)
  | front :: more =>
    if more.isEmpty && front.isDelimiter then
      return ([], ← c.forward 1)
    else if Statement.beginsWith front then
      note (.took .statement)
      let statement ← Checked.statement (front :: more)
      let node := .statement statement.property statement.value (c.span statement.size)
      note (.found node)
      return ([node], ← c.forward statement.size)
    else
      return ([], c)

/-- Goes on with `f` where `x` stops, unless that is the end of the range. -/
def andThen (x : Step r) (f : Cursor r → Step r) : Step r := do
  let (found, c) ← x
  if r.stop ≤ c.position then
    return (found, c)
  else
    (fun more => (found ++ more.1, more.2)) <$> f c

/-- One pass: blocks, an at-rule, a statement. -/
def pass (inner : Inner r) (c : Cursor r) : Step r := do
  note (.pass c.window)
  andThen (andThen (takeBlocks inner c) takeAtRule) takeStatement

/-- Makes passes until the range is read. A pass that does not move is stopped by an unknown token;
one that moves back breaks off. -/
def passes (inner : Inner r) (c : Cursor r) : Checked (List Node) :=
  if r.stop ≤ c.position then
    return []
  else do
    let (found, next) ← pass inner c
    if next.position = c.position then
      let front ← token ts c.position
      fail (front.fault .unknownToken)
    else if _moved : c.position < next.position then do
      note (.passed c.window next.window)
      (found ++ ·) <$> passes inner next
    else failure
termination_by r.stop - c.position

/-- Reads a range inside `depth` blocks, in which blocks may be nested `room` deep. -/
def readRange (room depth : Nat) (outer : Option Window) (r : Range ts) : Checked (List Node) := do
  note (.entered depth outer r.front.window)
  match room with
  | 0 => passes (fun brace _ _ => fail (brace.fault .nestingTooDeep)) r.front
  | room + 1 => passes (fun _ around r => readRange room (depth + 1) (some around.window) r) r.front
termination_by structural room

/-- Reads all tokens. -/
def parse (config : Config) (ts : List Token) : Checked (List Node) := do
  note (.started ts.length config.source)
  readRange config.maxDepth 0 none (Range.all ts)

end Cursor

end RuleTree
