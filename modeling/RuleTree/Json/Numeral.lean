import RuleTree.Json.Fault
import RuleTree.Success
import RuleTree.Text.Decimal

/-! Numbers as JSON writes them, and whether one is within the range of double precision. -/
namespace RuleTree.Json

structure Numeral where
  negative : Bool
  whole : List Char
  /-- The digits after the point; none when there is no point. -/
  fraction : List Char
  exponent : Option Int

def readDigits (cs : List Char) : Except Fault (List Char × List Char) :=
  match cs.takeWhile Char.isDigit with
  | [] => .error (if cs.isEmpty then .cutShort else .malformed)
  | d :: ds => .ok (d :: ds, cs.dropWhile Char.isDigit)

/-- Reads the digits in front of the point. Only a zero of its own begins with a zero. -/
def readWhole (cs : List Char) : Except Fault (List Char × List Char) :=
  match readDigits cs with
  | .ok ('0' :: _ :: _, _) => .error .malformed
  | r => r

/-- Reads a point and the digits after it, if there is a point. -/
def readFraction : List Char → Except Fault (List Char × List Char)
  | '.' :: cs => readDigits cs
  | cs => .ok ([], cs)

/-- Reads a sign, if there is one: whether it is a minus. -/
def readSign : List Char → Bool × List Char
  | '-' :: cs => (true, cs)
  | '+' :: cs => (false, cs)
  | cs => (false, cs)

def signed (negative : Bool) (digits : List Char) : Int :=
  if negative then -Int.ofNat (Nat.ofDigitChars 10 digits 0)
  else Int.ofNat (Nat.ofDigitChars 10 digits 0)

def readExponent : List Char → Except Fault (Option Int × List Char)
  | [] => .ok (none, [])
  | c :: cs =>
    if c = 'e' ∨ c = 'E' then
      (readDigits (readSign cs).2).map fun r => (some (signed (readSign cs).1 r.1), r.2)
    else .ok (none, c :: cs)

def readUnsigned (negative : Bool) (cs : List Char) : Except Fault (Numeral × List Char) :=
  match readWhole cs with
  | .error f => .error f
  | .ok (whole, cs) =>
    match readFraction cs with
    | .error f => .error f
    | .ok (fraction, cs) =>
      (readExponent cs).map fun r => (⟨negative, whole, fraction, r.1⟩, r.2)

def readNumeral : List Char → Except Fault (Numeral × List Char)
  | '-' :: cs => readUnsigned true cs
  | cs => readUnsigned false cs

theorem readDigits_length {cs : List Char} {r : List Char × List Char}
    (h : readDigits cs = .ok r) : r.2.length < cs.length := by
  unfold readDigits at h
  split at h
  · cases h
  · next hd =>
    cases h
    have := congrArg List.length (List.takeWhile_append_dropWhile (p := Char.isDigit) (l := cs))
    simp only [hd, List.length_append, List.length_cons] at this
    simp only
    omega

theorem readWhole_length {cs : List Char} {r : List Char × List Char}
    (h : readWhole cs = .ok r) : r.2.length < cs.length := by
  unfold readWhole at h
  split at h
  · cases h
  · exact readDigits_length h

theorem readFraction_length {cs : List Char} {r : List Char × List Char}
    (h : readFraction cs = .ok r) : r.2.length ≤ cs.length := by
  unfold readFraction at h
  split at h
  · have := readDigits_length h
    simp only [List.length_cons]
    omega
  · cases h
    exact Nat.le_refl _

theorem readSign_length (cs : List Char) : (readSign cs).2.length ≤ cs.length := by
  unfold readSign
  split <;> simp

theorem readExponent_length {cs : List Char} {r : Option Int × List Char}
    (h : readExponent cs = .ok r) : r.2.length ≤ cs.length := by
  unfold readExponent at h
  split at h
  · cases h
    simp
  · next c cs =>
    split at h
    · obtain ⟨d, hd, rfl⟩ := map_eq_ok_iff.mp h
      have := readDigits_length hd
      have := readSign_length cs
      simp only [List.length_cons]
      omega
    · cases h
      exact Nat.le_refl _

theorem readUnsigned_length {negative : Bool} {cs : List Char} {r : Numeral × List Char}
    (h : readUnsigned negative cs = .ok r) : r.2.length < cs.length := by
  unfold readUnsigned at h
  split at h
  · cases h
  · next hw =>
    split at h
    · cases h
    · next hf =>
      have hw := readWhole_length hw
      have hf := readFraction_length hf
      obtain ⟨e, he, rfl⟩ := map_eq_ok_iff.mp h
      have := readExponent_length he
      simp only at *
      omega

theorem readNumeral_length {cs : List Char} {r : Numeral × List Char}
    (h : readNumeral cs = .ok r) : r.2.length < cs.length := by
  unfold readNumeral at h
  split at h
  · have := readUnsigned_length h
    simp only [List.length_cons]
    omega
  · exact readUnsigned_length h

/-- Takes digits into `value` as long as it fits 64 bits: the value, and the digits left over. -/
def takeDigits (value : Nat) : List Char → Nat × List Char
  | [] => (value, [])
  | c :: cs =>
    let next := 10 * value + Text.digitValue c
    if next < Text.wordBound then takeDigits next cs else (value, c :: cs)

/-- The nearest number with at most 53 significant bits; halfway, the one with an even last bit. -/
def nearest53 (n : Nat) : Nat :=
  let unit := 1 <<< (n.log2 + 1 - 53)
  let low := n / unit
  if 2 * (n % unit) < unit ∨ 2 * (n % unit) = unit ∧ low % 2 = 0 then low * unit
  else (low + 1) * unit

/-- Where double precision ends: from here on a value rounds to infinity. -/
def doubleBound : Nat := 1 <<< 1024 - 1 <<< 970

/-- The largest power of ten in double precision. -/
def lastPower : Nat := 308

namespace Numeral

/-- A significand of 64 bits and a power of ten, which the number is close to. -/
def scientific (n : Numeral) : Nat × Int :=
  let whole := takeDigits 0 n.whole
  let all := takeDigits whole.1 n.fraction
  (all.1, n.exponent.getD 0 + whole.2.length - (n.fraction.length - all.2.length : Nat))

/-- Whether the number leaves double precision: its significand and its power of ten are rounded
each, and then their product. -/
def isTooLarge (n : Numeral) : Bool :=
  let (significand, power) := n.scientific
  significand != 0 && decide (0 ≤ power) &&
    (decide (lastPower < power) ||
      decide (doubleBound ≤ nearest53 significand * nearest53 (Nat.pow 10 power.toNat)))

/-- The natural number of 64 bits that is written without sign, point and exponent. -/
def natural? (n : Numeral) : Option Nat :=
  if n.negative || !n.fraction.isEmpty || n.exponent.isSome then none else Text.word? n.whole

/-- Refuses a number that is too large. -/
def check (n : Numeral) : Except Fault Unit :=
  if n.isTooLarge then .error .malformed else .ok ()

end Numeral
end RuleTree.Json
