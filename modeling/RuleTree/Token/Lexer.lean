import RuleTree.Token
import RuleTree.Text.Blank

/-! From text to tokens. A lexeme is a run of blanks, a single mark, a quoted text or a run of
other characters; lexemes follow each other without gaps, so that their texts join to the whole. -/
namespace RuleTree

/-- The kind of a token that is this one character. -/
def Kind.ofMark? : Char → Option Kind
  | '@' => some .atSign
  | '{' => some .braceOpen
  | '}' => some .braceClose
  | ';' => some .semicolon
  | ':' => some .colon
  | ',' => some .comma
  | '(' => some .parenOpen
  | ')' => some .parenClose
  | _ => none

namespace Lexer
open Text

/-- Whether `c` opens a quoted text, which then ends with the same character. -/
def isQuote (c : Char) : Bool := c == '"' || c == '\''

def isWordChar (c : Char) : Bool := !isBlank c && (Kind.ofMark? c).isNone && !isQuote c

structure Lexeme where
  kind : Kind
  chars : List Char

/-- Splits a text after the first `q` that no backslash hides. A backslash hides one character;
without such a `q` all of the text comes first. -/
def splitQuoted (q : Char) : List Char → List Char × List Char
  | [] => ([], [])
  | [c] => ([c], [])
  | c :: d :: cs =>
    if c = q then ([c], d :: cs)
    else if c = '\\' then
      let r := splitQuoted q cs
      (c :: d :: r.1, r.2)
    else
      let r := splitQuoted q (d :: cs)
      (c :: r.1, r.2)

theorem splitQuoted_append (q : Char) (cs : List Char) :
    (splitQuoted q cs).1 ++ (splitQuoted q cs).2 = cs := by
  fun_induction splitQuoted q cs <;> simp_all +zetaDelta

/-- The lexeme that `c` begins when `cs` follows, and the text after it. -/
def first (c : Char) (cs : List Char) : Lexeme × List Char :=
  if isBlank c then (⟨.delimiter, c :: cs.takeWhile isBlank⟩, cs.dropWhile isBlank)
  else match Kind.ofMark? c with
    | some k => (⟨k, [c]⟩, cs)
    | none =>
      if isQuote c then
        let r := splitQuoted c cs
        (⟨.quoted, c :: r.1⟩, r.2)
      else (⟨.word, c :: cs.takeWhile isWordChar⟩, cs.dropWhile isWordChar)

theorem first_append (c : Char) (cs : List Char) :
    (first c cs).1.chars ++ (first c cs).2 = c :: cs := by
  unfold first
  split
  · simp [List.takeWhile_append_dropWhile]
  · split
    · simp
    · split
      · simp [splitQuoted_append]
      · simp [List.takeWhile_append_dropWhile]

theorem first_chars_ne_nil (c : Char) (cs : List Char) : (first c cs).1.chars ≠ [] := by
  unfold first
  split
  · simp
  · split
    · simp
    · split <;> simp

theorem first_rest_length (c : Char) (cs : List Char) :
    (first c cs).2.length < (c :: cs).length := by
  have h := congrArg List.length (first_append c cs)
  have hpos := List.length_pos_iff.mpr (first_chars_ne_nil c cs)
  simp only [List.length_append] at h
  omega

def lexemes : List Char → List Lexeme
  | [] => []
  | c :: cs => (first c cs).1 :: lexemes (first c cs).2
termination_by cs => cs.length
decreasing_by exact first_rest_length c cs

/-- Lexemes as tokens that stand one after the other from the offset `index` on. -/
def place (origin : Source) : Nat → List Lexeme → List Token
  | _, [] => []
  | index, l :: ls =>
    ⟨l.kind, String.ofList l.chars, index, origin⟩ :: place origin (index + l.chars.length) ls

end Lexer

def Source.tokens (s : Source) : List Token :=
  Lexer.place s 0 (Lexer.lexemes s.text.toList)

end RuleTree
