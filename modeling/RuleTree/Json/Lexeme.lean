import RuleTree.Json.Escape
import RuleTree.Json.Numeral

/-! The lexemes of a JSON text. A lexeme with a fault is the last one; those in front of it are
sound, so that a reader meets the faults of a text in order. -/
namespace RuleTree.Json

inductive Lexeme where
  | openList
  | closeList
  | openRecord
  | closeRecord
  | comma
  | colon
  /-- One of `null`, `true` and `false`, or the fault in spelling it. -/
  | name (spelled : Except Fault String)
  /-- A number, or the fault in writing it. -/
  | number (written : Except Fault Numeral)
  /-- A text: its characters, if it is exact, and whether it is at least closed properly with
  sound escapes. -/
  | text (exact : Except Fault String) (closed : Except Fault Unit)
  | stray

namespace Lexeme

/-- Whether `c` may stand between lexemes. -/
def isGap (c : Char) : Bool := c == ' ' || c == '\n' || c == '\t' || c == '\r'

def ofMark? : Char → Option Lexeme
  | '[' => some .openList
  | ']' => some .closeList
  | '{' => some .openRecord
  | '}' => some .closeRecord
  | ',' => some .comma
  | ':' => some .colon
  | _ => none

def name? : Char → Option String
  | 'n' => some "null"
  | 't' => some "true"
  | 'f' => some "false"
  | _ => none

/-- Takes `expected` from the front of a text. -/
def spell : List Char → List Char → Except Fault (List Char)
  | [], cs => .ok cs
  | _ :: _, [] => .error .cutShort
  | e :: es, c :: cs => if e = c then spell es cs else .error .malformed

/-- The lexeme that `c` begins when `cs` follows, and the text after it if it has no fault. -/
def first (c : Char) (cs : List Char) : Lexeme × Option (List Char) :=
  match ofMark? c with
  | some l => (l, some cs)
  | none =>
    if c = '"' then
      let exact := (readQuoted true cs).map fun r => String.ofList r.1
      match readQuoted false cs with
      | .ok r => (.text exact (.ok ()), some r.2)
      | .error f => (.text exact (.error f), none)
    else if c = '-' || c.isDigit then
      match readNumeral (c :: cs) with
      | .ok r => (.number (.ok r.1), some r.2)
      | .error f => (.number (.error f), none)
    else match name? c with
      | some known =>
        match spell (known.toList.drop 1) cs with
        | .ok rest => (.name (.ok known), some rest)
        | .error f => (.name (.error f), none)
      | none => (.stray, none)

theorem spell_length {es cs rest : List Char} (h : spell es cs = .ok rest) :
    rest.length ≤ cs.length := by
  fun_induction spell es cs with
  | case1 => cases h; exact Nat.le_refl _
  | case2 => cases h
  | case3 es c cs ih => exact Nat.le_succ_of_le (ih h)
  | case4 => cases h

theorem first_length {c : Char} {cs rest : List Char} (h : (first c cs).2 = some rest) :
    rest.length ≤ cs.length := by
  unfold first at h
  split at h
  · cases h
    exact Nat.le_refl _
  · split at h
    · split at h
      · next hr =>
        cases h
        exact Nat.le_of_lt (readQuoted_length hr)
      · cases h
    · split at h
      · split at h
        · next hr =>
          cases h
          exact Nat.le_of_lt_succ (readNumeral_length hr)
        · cases h
      · split at h
        · split at h
          · next hr =>
            cases h
            exact spell_length hr
          · cases h
        · cases h

end Lexeme

/-- The lexemes of a text, up to the first with a fault. -/
def lexemes (cs : List Char) : List Lexeme :=
  match cs with
  | [] => []
  | c :: cs =>
    if Lexeme.isGap c then lexemes cs
    else match h : (Lexeme.first c cs).2 with
      | none => [(Lexeme.first c cs).1]
      | some rest =>
        have _shorter := Lexeme.first_length h
        (Lexeme.first c cs).1 :: lexemes rest
termination_by cs.length

namespace Lexeme

/-- The fault of a value that begins with this lexeme where a value of another shape is wanted. A
list or record is not read on, but a name, number or text has to be sound. -/
def misfit : Lexeme → Fault
  | .openList => .mismatched
  | .openRecord => .mismatched
  | .name (.ok _) => .mismatched
  | .name (.error f) => f
  | .number (.ok n) => if n.isTooLarge then .malformed else .mismatched
  | .number (.error f) => f
  | .text (.ok _) _ => .mismatched
  | .text (.error f) _ => f
  | _ => .malformed

end Lexeme

/-- The fault where a value of some shape is wanted in front of these lexemes, which do not begin
one. -/
def misfit : List Lexeme → Fault
  | [] => .cutShort
  | l :: _ => l.misfit

/-- The fault where a certain mark is wanted in front of these lexemes, which do not begin with
it. -/
def missingMark : List Lexeme → Fault
  | [] => .cutShort
  | _ :: _ => .malformed

end RuleTree.Json
