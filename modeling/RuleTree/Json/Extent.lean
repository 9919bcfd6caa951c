import RuleTree.Json.Lexeme

/-! How far a value reaches. The lexemes of a value of any shape are passed one by one, with the
brackets that are open at each. -/
namespace RuleTree.Json

/-- How closely a value is looked at. A loose reader takes numbers of any size and all escapes that
are well formed, at any depth. An exact one wants numbers of double precision, escapes that stand
for characters, and at most `deepest` open brackets, of which `around` enclose the value. -/
inductive Care where
  | loose
  | exact (around : Nat)

/-- Most brackets that may be open at once in an exact reading. -/
def deepest : Nat := 127

namespace Care

/-- Whether a bracket may be opened inside `depth` brackets of the value. -/
def admits (care : Care) (depth : Nat) : Bool :=
  match care with
  | .loose => true
  | .exact around => decide (around + depth < deepest)

def number : Care → Except Fault Numeral → Except Fault Unit
  | .loose, .ok _ => .ok ()
  | .loose, .error _ => .error .malformed
  | .exact _, .ok n => n.check
  | .exact _, .error f => .error f

def text : Care → Except Fault String → Except Fault Unit → Except Fault Unit
  | .loose, _, closed => closed
  | .exact _, chars, _ => chars.map fun _ => ()

end Care

inductive Bracket where
  | list | record
  deriving DecidableEq

inductive Expected where
  | value
  | firstItem
  | firstKey
  | key
  | colon
  /-- A comma, or the end of the innermost bracket. -/
  | more
  deriving DecidableEq

/-- A point inside a value: the open brackets, innermost first, and what comes next. -/
structure Point where
  brackets : List Bracket
  expected : Expected

namespace Point

/-- The point after a value inside `brackets`; none when that ends the whole. -/
def after (brackets : List Bracket) : Option Point :=
  match brackets with
  | [] => none
  | _ :: _ => some ⟨brackets, .more⟩

def value (care : Care) (brackets : List Bracket) : Lexeme → Except Fault (Option Point)
  | .openList =>
    if care.admits brackets.length then .ok (some ⟨.list :: brackets, .firstItem⟩)
    else .error .malformed
  | .openRecord =>
    if care.admits brackets.length then .ok (some ⟨.record :: brackets, .firstKey⟩)
    else .error .malformed
  | .name spelled => spelled.map fun _ => after brackets
  | .number written => (care.number written).map fun _ => after brackets
  | .text exact closed => (care.text exact closed).map fun _ => after brackets
  | _ => .error .malformed

def key (care : Care) (brackets : List Bracket) : Lexeme → Except Fault (Option Point)
  | .text exact closed => (care.text exact closed).map fun _ => some ⟨brackets, .colon⟩
  | _ => .error .malformed

/-- Goes on by one lexeme; none when the value is complete. -/
def step (care : Care) (p : Point) (l : Lexeme) : Except Fault (Option Point) :=
  match p.expected, p.brackets, l with
  | .firstItem, _ :: outer, .closeList => .ok (after outer)
  | .firstKey, _ :: outer, .closeRecord => .ok (after outer)
  | .more, .list :: outer, .closeList => .ok (after outer)
  | .more, .record :: outer, .closeRecord => .ok (after outer)
  | .more, .list :: outer, .comma => .ok (some ⟨.list :: outer, .value⟩)
  | .more, .record :: outer, .comma => .ok (some ⟨.record :: outer, .key⟩)
  | .more, _, _ => .error .malformed
  | .colon, brackets, .colon => .ok (some ⟨brackets, .value⟩)
  | .colon, _, _ => .error .malformed
  | .value, brackets, l => value care brackets l
  | .firstItem, brackets, l => value care brackets l
  | .key, brackets, l => key care brackets l
  | .firstKey, brackets, l => key care brackets l

/-- The lexemes after the value that `p` is inside. -/
def leave (care : Care) (p : Point) : List Lexeme → Except Fault (List Lexeme)
  | [] => .error .cutShort
  | l :: ls =>
    match p.step care l with
    | .error f => .error f
    | .ok none => .ok ls
    | .ok (some p) => leave care p ls

theorem leave_length {care : Care} {p : Point} {ls rest : List Lexeme}
    (h : leave care p ls = .ok rest) : rest.length < ls.length := by
  fun_induction leave care p ls with
  | case1 => cases h
  | case2 => cases h
  | case3 => cases h; simp
  | case4 p l ls q _ ih => exact Nat.lt_succ_of_lt (ih h)

end Point

def afterValue (care : Care) (ls : List Lexeme) : Except Fault (List Lexeme) :=
  Point.leave care ⟨[], .value⟩ ls

theorem afterValue_length {care : Care} {ls rest : List Lexeme}
    (h : afterValue care ls = .ok rest) : rest.length < ls.length := Point.leave_length h

end RuleTree.Json
