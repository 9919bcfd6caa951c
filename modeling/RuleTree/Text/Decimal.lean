/-! Decimal digits, and the natural numbers that take at most 64 bits. -/
namespace RuleTree.Text

/-- The first natural number that takes more than 64 bits. -/
def wordBound : Nat := 0x10000000000000000

def digitValue (c : Char) : Nat := c.toNat - '0'.toNat

/-- The number that decimal digits spell, if there is one and it takes at most 64 bits. -/
def word? (digits : List Char) : Option Nat :=
  if digits.isEmpty || !digits.all Char.isDigit then none
  else
    let n := Nat.ofDigitChars 10 digits 0
    if n < wordBound then some n else none

end RuleTree.Text
