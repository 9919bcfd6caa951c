/-! White space as the property White_Space lists it, and trimming. Blanks separate words in a
style sheet and are cut from both ends of a selector. -/
namespace RuleTree.Text

/-- Ranges of white space code points, both ends included. -/
def blankRanges : List (Nat × Nat) :=
  [(0x09, 0x0D), (0x20, 0x20), (0x85, 0x85), (0xA0, 0xA0), (0x1680, 0x1680), (0x2000, 0x200A),
   (0x2028, 0x2029), (0x202F, 0x202F), (0x205F, 0x205F), (0x3000, 0x3000)]

def isBlank (c : Char) : Bool :=
  blankRanges.any fun r => decide (r.1 ≤ c.toNat) && decide (c.toNat ≤ r.2)

def trimStart (cs : List Char) : List Char := cs.dropWhile isBlank

def trimEnd (cs : List Char) : List Char := (cs.reverse.dropWhile isBlank).reverse

def trim (cs : List Char) : List Char := trimEnd (trimStart cs)

end RuleTree.Text
