import RuleTree.Json.Fault
import RuleTree.Success

/-! Texts inside JSON quotes. Writing escapes quotes, backslashes and controls; reading takes every
escape of the format, with a character beyond U+FFFF as a pair of surrogates. -/
namespace RuleTree.Json

/-- How `c` is written between quotes. -/
def escapeChar (c : Char) : List Char :=
  if c = '"' then ['\\', '"']
  else if c = '\\' then ['\\', '\\']
  else if c = '\x08' then ['\\', 'b']
  else if c = '\x0c' then ['\\', 'f']
  else if c = '\n' then ['\\', 'n']
  else if c = '\r' then ['\\', 'r']
  else if c = '\t' then ['\\', 't']
  else if c.toNat < 0x20 then
    ['\\', 'u', '0', '0', Nat.digitChar (c.toNat / 16), Nat.digitChar (c.toNat % 16)]
  else [c]

/-- The text `s` between quotes. -/
def quote (s : String) : List Char := '"' :: s.toList.flatMap escapeChar ++ ['"']

/-- What a single letter or mark after a backslash stands for. -/
def shortEscape? : Char → Option Char
  | '"' => some '"'
  | '\\' => some '\\'
  | '/' => some '/'
  | 'b' => some '\x08'
  | 'f' => some '\x0c'
  | 'n' => some '\n'
  | 'r' => some '\r'
  | 't' => some '\t'
  | _ => none

/-- The value of a hexadecimal digit of either case. -/
def hexValue? (c : Char) : Option Nat :=
  if '0' ≤ c ∧ c ≤ '9' then some (c.toNat - '0'.toNat)
  else if 'a' ≤ c ∧ c ≤ 'f' then some (c.toNat - 'a'.toNat + 10)
  else if 'A' ≤ c ∧ c ≤ 'F' then some (c.toNat - 'A'.toNat + 10)
  else none

def hexValue4? (a b c d : Char) : Option Nat := do
  return (((← hexValue? a) * 16 + (← hexValue? b)) * 16 + (← hexValue? c)) * 16 + (← hexValue? d)

/-- Reads four hexadecimal digits. The text is cut short if fewer than four bytes are left. -/
def readHex4 : List Char → Except Fault (Nat × List Char)
  | a :: b :: c :: d :: cs =>
    match hexValue4? a b c d with
    | some n => .ok (n, cs)
    | none => .error .malformed
  | cs => if (String.ofList cs).utf8ByteSize < 4 then .error .cutShort else .error .malformed

/-- Whether `n` is the first of two surrogates. -/
def isHighSurrogate (n : Nat) : Bool := decide (0xD800 ≤ n) && decide (n ≤ 0xDBFF)

def isLowSurrogate (n : Nat) : Bool := decide (0xDC00 ≤ n) && decide (n ≤ 0xDFFF)

def ofSurrogates (high low : Nat) : Char :=
  Char.ofNat (0x10000 + (high - 0xD800) * 0x400 + (low - 0xDC00))

/-- Reads the escape of a second surrogate, its backslash included. -/
def readLowSurrogate : List Char → Except Fault (Nat × List Char)
  | [] => .error .cutShort
  | ['\\'] => .error .cutShort
  | '\\' :: 'u' :: cs =>
    match readHex4 cs with
    | .ok (n, rest) => if isLowSurrogate n then .ok (n, rest) else .error .malformed
    | .error f => .error f
  | _ => .error .malformed

/-- Reads the code after a backslash and `u`. Where texts need not be `exact`, no code has to
stand for a character. -/
def readCode (exact : Bool) (cs : List Char) : Except Fault (Char × List Char) :=
  match readHex4 cs with
  | .error f => .error f
  | .ok (n, rest) =>
    if exact && isHighSurrogate n then
      match readLowSurrogate rest with
      | .ok (low, rest) => .ok (ofSurrogates n low, rest)
      | .error f => .error f
    else if exact && isLowSurrogate n then .error .malformed
    else .ok (Char.ofNat n, rest)

def readEscape (exact : Bool) : List Char → Except Fault (Char × List Char)
  | [] => .error .cutShort
  | c :: cs =>
    if c = 'u' then readCode exact cs
    else match shortEscape? c with
      | some d => .ok (d, cs)
      | none => .error .malformed

theorem readHex4_length {cs rest : List Char} {n : Nat} (h : readHex4 cs = .ok (n, rest)) :
    rest.length < cs.length := by
  unfold readHex4 at h
  split at h
  · split at h
    · cases h
      simp only [List.length_cons]
      omega
    · cases h
  · split at h <;> cases h

theorem readLowSurrogate_length {cs rest : List Char} {n : Nat}
    (h : readLowSurrogate cs = .ok (n, rest)) : rest.length < cs.length := by
  unfold readLowSurrogate at h
  split at h
  · cases h
  · cases h
  · split at h
    · next hr =>
      split at h
      · cases h
        have := readHex4_length hr
        simp only [List.length_cons]
        omega
      · cases h
    · cases h
  · cases h

theorem readCode_length {exact : Bool} {cs rest : List Char} {c : Char}
    (h : readCode exact cs = .ok (c, rest)) : rest.length < cs.length := by
  unfold readCode at h
  split at h
  · cases h
  · next hr =>
    have := readHex4_length hr
    split at h
    · split at h
      · next hl =>
        have := readLowSurrogate_length hl
        simp only [Except.ok.injEq, Prod.mk.injEq] at h
        exact h.2 ▸ by omega
      · cases h
    · split at h
      · cases h
      · simp only [Except.ok.injEq, Prod.mk.injEq] at h
        exact h.2 ▸ this

theorem readEscape_length {exact : Bool} {cs rest : List Char} {c : Char}
    (h : readEscape exact cs = .ok (c, rest)) : rest.length < cs.length := by
  unfold readEscape at h
  split at h
  · cases h
  · split at h
    · have := readCode_length h
      simp only [List.length_cons]
      omega
    · split at h
      · cases h
        simp
      · cases h

/-- Reads the characters up to the closing quote, which is taken too. -/
def readQuoted (exact : Bool) (cs : List Char) : Except Fault (List Char × List Char) :=
  match cs with
  | [] => .error .cutShort
  | c :: cs =>
    if c = '"' then .ok ([], cs)
    else if c = '\\' then
      match h : readEscape exact cs with
      | .error f => .error f
      | .ok (d, rest) =>
        have _shorter := readEscape_length h
        (readQuoted exact rest).map fun r => (d :: r.1, r.2)
    else if c.toNat < 0x20 then .error .malformed
    else (readQuoted exact cs).map fun r => (c :: r.1, r.2)
termination_by cs.length

theorem readQuoted_length {exact : Bool} {cs : List Char} {r : List Char × List Char}
    (h : readQuoted exact cs = .ok r) : r.2.length < cs.length := by
  fun_induction readQuoted exact cs generalizing r with
  | case1 => cases h
  | case2 => cases h; simp
  | case3 => cases h
  | case4 cs d rest _ _ _ ih =>
    obtain ⟨s, hs, rfl⟩ := map_eq_ok_iff.mp h
    have := ih hs
    simp only [List.length_cons]
    omega
  | case5 => cases h
  | case6 c cs _ _ _ ih =>
    obtain ⟨s, hs, rfl⟩ := map_eq_ok_iff.mp h
    have := ih hs
    simp only [List.length_cons]
    omega

end RuleTree.Json
