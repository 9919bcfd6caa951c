import Mathlib.Tactic
import RuleTree.Json.Extent
import RuleTree.Json.Value

/-! The texts of JSON as the format describes them, whoever reads them: gaps, what may stand between
quotes, numbers, and values of any shape. -/
namespace RuleTree.Json

/-- The text consists of characters that stand between lexemes. -/
def Gap (text : List Char) : Prop := ∀ c ∈ text, Lexeme.isGap c

instance (text : List Char) : Decidable (Gap text) :=
  decidable_of_iff (text.all Lexeme.isGap) List.all_eq_true

/-- A text of some kind, with a gap on either side. -/
inductive Padded (P : List Char → Prop) : List Char → Prop
  | intro {front text back : List Char} (hfront : Gap front) (h : P text) (hback : Gap back) :
      Padded P (front ++ (text ++ back))

theorem Padded.of {P : List Char → Prop} {text : List Char} (h : P text) : Padded P text := by
  have hpadded : Padded P ([] ++ (text ++ [])) := .intro (by decide) h (by decide)
  rwa [List.nil_append, List.append_nil] at hpadded

/-! ### Texts in quotes -/

/-- What stands for a character behind a backslash, and that character. -/
def shortEscapes : List (Char × Char) :=
  [('"', '"'), ('\\', '\\'), ('/', '/'), ('b', '\x08'), ('f', '\x0c'), ('n', '\n'), ('r', '\r'),
   ('t', '\t')]

/-- A hexadecimal digit of either case. -/
def HexDigit (n : Nat) (c : Char) : Prop :=
  c = Nat.digitChar n ∨ c = (Nat.digitChar n).toUpper

instance : DecidableRel HexDigit := fun _ _ => inferInstanceAs (Decidable (_ ∨ _))

/-- Four hexadecimal digits for a number of 16 bits. -/
structure HexCode (n : Nat) (text : List Char) : Prop where
  lt : n < 0x10000
  digits : List.Forall₂ HexDigit [n / 0x1000, n / 0x100 % 0x10, n / 0x10 % 0x10, n % 0x10] text

/-- A character that needs no escape. -/
structure Plain (c : Char) : Prop where
  ne_quote : c ≠ '"'
  ne_slash : c ≠ '\\'
  le_toNat : 0x20 ≤ c.toNat

/-- What may stand between quotes. A code need not stand for a character. -/
inductive InQuotes : List Char → Prop
  | nil : InQuotes []
  | plain {c : Char} {text : List Char} (hc : Plain c) (h : InQuotes text) : InQuotes (c :: text)
  | short {d c : Char} {text : List Char} (hd : (d, c) ∈ shortEscapes) (h : InQuotes text) :
      InQuotes ('\\' :: d :: text)
  | code {n : Nat} {digits text : List Char} (hn : HexCode n digits) (h : InQuotes text) :
      InQuotes ('\\' :: 'u' :: (digits ++ text))

/-- What may stand between quotes for the given characters. One beyond U+FFFF takes a pair of
surrogates where it is written by code. -/
inductive Escapes : List Char → List Char → Prop
  | nil : Escapes [] []
  | plain {c : Char} {text cs : List Char} (hc : Plain c) (h : Escapes text cs) :
      Escapes (c :: text) (c :: cs)
  | short {d c : Char} {text cs : List Char} (hd : (d, c) ∈ shortEscapes) (h : Escapes text cs) :
      Escapes ('\\' :: d :: text) (c :: cs)
  | code {c : Char} {digits text cs : List Char} (hc : HexCode c.toNat digits)
      (h : Escapes text cs) : Escapes ('\\' :: 'u' :: (digits ++ text)) (c :: cs)
  | pair {c : Char} {high low : Nat} {digits digits' text cs : List Char}
      (hhigh : high < 0x400) (hlow : low < 0x400) (hc : c.toNat = 0x10000 + 0x400 * high + low)
      (hd : HexCode (0xD800 + high) digits) (hd' : HexCode (0xDC00 + low) digits')
      (h : Escapes text cs) :
      Escapes ('\\' :: 'u' :: (digits ++ '\\' :: 'u' :: (digits' ++ text))) (c :: cs)

/-- The text `s` in quotes, with whatever escapes. -/
inductive Quotes (s : String) : List Char → Prop
  | intro {text : List Char} (h : Escapes text s.toList) : Quotes s ('"' :: (text ++ ['"']))

/-! ### Numbers -/

structure Digits (text : List Char) : Prop where
  ne_nil : text ≠ []
  all : ∀ c ∈ text, c.isDigit

/-- The digits in front of the point. Only a zero of its own begins with a zero. -/
structure Whole (text : List Char) : Prop extends Digits text where
  front : text.head? = some '0' → text = ['0']

inductive Fraction : List Char → Prop
  | none : Fraction []
  | digits {text : List Char} (h : Digits text) : Fraction ('.' :: text)

inductive Exponent : List Char → Prop
  | none : Exponent []
  | digits {mark : Char} {sign text : List Char} (hmark : mark = 'e' ∨ mark = 'E')
      (hsign : sign ∈ [[], ['+'], ['-']]) (h : Digits text) : Exponent (mark :: (sign ++ text))

inductive IsNumber : List Char → Prop
  | intro {sign whole fraction exponent : List Char} (hsign : sign ∈ [[], ['-']])
      (hwhole : Whole whole) (hfraction : Fraction fraction) (hexponent : Exponent exponent) :
      IsNumber (sign ++ (whole ++ (fraction ++ exponent)))

/-! ### Values -/

namespace Bracket

def opener : Bracket → Char
  | .list => '['
  | .record => '{'

def closer : Bracket → Char
  | .list => ']'
  | .record => '}'

/-- Entries between brackets, with commas between them. -/
def enclose (b : Bracket) (entries : List (List Char)) : List Char :=
  b.opener :: ([','].intercalate entries ++ [b.closer])

end Bracket

/-- A value, or an entry of a list or record with the gaps around it. -/
inductive Part where
  | value
  | entry (b : Bracket)

/-- The text is JSON. A value of any shape may be an item of a list, or a field of a record behind
a key. -/
inductive WellFormed : Part → List Char → Prop
  | name {known : String} (h : known ∈ ["null", "true", "false"]) : WellFormed .value known.toList
  | number {text : List Char} (h : IsNumber text) : WellFormed .value text
  | text {text : List Char} (h : InQuotes text) : WellFormed .value ('"' :: (text ++ ['"']))
  | empty (b : Bracket) {gap : List Char} (h : Gap gap) : WellFormed .value (b.enclose [gap])
  | enclosed (b : Bracket) {entries : List (List Char)} (hne : entries ≠ [])
      (h : ∀ text ∈ entries, WellFormed (.entry b) text) : WellFormed .value (b.enclose entries)
  | item {front text back : List Char} (hfront : Gap front) (h : WellFormed .value text)
      (hback : Gap back) : WellFormed (.entry .list) (front ++ (text ++ back))
  | field {front key gap text : List Char} (hfront : Gap front) (hkey : InQuotes key)
      (hgap : Gap gap) (h : WellFormed (.entry .list) text) :
      WellFormed (.entry .record) (front ++ '"' :: (key ++ '"' :: (gap ++ ':' :: text)))

/-! ### What is written -/

theorem HexCode.control {n : Nat} (h : n < 0x20) :
    HexCode n ['0', '0', Nat.digitChar (n / 16), Nat.digitChar (n % 16)] := by
  refine ⟨by omega, ?_⟩
  have hfirst : n / 0x1000 = 0 := by omega
  have hsecond : n / 0x100 % 0x10 = 0 := by omega
  have hthird : n / 0x10 % 0x10 = n / 16 := by omega
  rw [hfirst, hsecond, hthird]
  exact .cons (.inl rfl) (.cons (.inl rfl) (.cons (.inl rfl) (.cons (.inl rfl) .nil)))

/-- A character is written as a short escape, by its code, or as itself. -/
theorem escapes_escapeChar (c : Char) {text cs : List Char} (h : Escapes text cs) :
    Escapes (escapeChar c ++ text) (c :: cs) := by
  by_cases hshort : c ∈ ['"', '\\', '\x08', '\x0c', '\n', '\r', '\t']
  · simp only [List.mem_cons, List.not_mem_nil, or_false] at hshort
    rcases hshort with rfl | rfl | rfl | rfl | rfl | rfl | rfl <;>
      exact .short (by decide) h
  · simp only [List.mem_cons, List.not_mem_nil, or_false, not_or] at hshort
    obtain ⟨hquote, hslash, hb, hf, hn, hr, ht⟩ := hshort
    simp only [escapeChar, hquote, hslash, hb, hf, hn, hr, ht, if_false]
    by_cases hcontrol : c.toNat < 0x20
    · rw [if_pos hcontrol]
      exact .code (.control hcontrol) h
    · rw [if_neg hcontrol]
      exact .plain ⟨hquote, hslash, Nat.le_of_not_lt hcontrol⟩ h

theorem escapes_flatMap (cs : List Char) : Escapes (cs.flatMap escapeChar) cs := by
  induction cs with
  | nil => exact .nil
  | cons c cs ih => exact escapes_escapeChar c ih

theorem quotes_quote (s : String) : Quotes s (quote s) := .intro (escapes_flatMap s.toList)

theorem head_toDigits_ne_zero {n : Nat} (h : 0 < n) : (Nat.toDigits 10 n).head? ≠ some '0' := by
  induction n using Nat.strong_induction_on with
  | _ n ih =>
    rcases Nat.lt_or_ge n 10 with hlt | hge
    · rw [Nat.toDigits_of_lt_base hlt, List.head?_cons]
      intro hzero
      have hdigit : n.digitChar = '0' := Option.some.inj hzero
      rw [Nat.digitChar_eq_zero] at hdigit
      omega
    · have hmore := ih (n / 10) (by omega) (by omega)
      rw [Nat.toDigits_of_base_le (by decide) hge]
      cases hd : Nat.toDigits 10 (n / 10) with
      | nil => exact absurd hd Nat.toDigits_ne_nil
      | cons d ds =>
        rw [hd] at hmore
        exact hmore

/-- Decimal digits of a number do not begin with a zero in front of others. -/
theorem whole_toDigits (n : Nat) : Whole (Nat.toDigits 10 n) where
  ne_nil := Nat.toDigits_ne_nil
  all _ hc := Nat.isDigit_of_mem_toDigits (by decide) (by decide) hc
  front h := by
    rcases Nat.eq_zero_or_pos n with rfl | hpos
    · rfl
    · exact absurd h (head_toDigits_ne_zero hpos)

end RuleTree.Json
