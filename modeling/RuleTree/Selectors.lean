import RuleTree.Token
import RuleTree.Text.Blank

/-! Selectors: the comma separated parts of a block's header, as trimmed text. -/
namespace RuleTree.Selectors

/-- What a token adds to the selector it belongs to. A delimiter counts as one space. -/
def piece (t : Token) : List Char := if t.isDelimiter then [' '] else t.text.toList

/-- The selectors of a header of which `current` has been read since the last comma. -/
def collect (current : List Char) : List Token → List String
  | [] => [String.ofList (Text.trim current)]
  | t :: ts =>
    if t.isComma then String.ofList (Text.trim current) :: collect [] ts
    else collect (current ++ piece t) ts

/-- The selectors that the tokens spell. A header that begins with an at-sign spells none. -/
def ofTokens? (ts : List Token) : Option (List String) :=
  if ts.head?.any Token.isAtSign then none else some (collect [] ts)

theorem ofTokens?_of_head {ts : List Token} (h : ∀ t ∈ ts.head?, t.isAtSign = false) :
    ofTokens? ts = some (collect [] ts) := by
  cases ts with
  | nil => rfl
  | cons t ts => simp [ofTokens?, h t rfl]

theorem length_collect (current : List Char) (ts : List Token) :
    (collect current ts).length = ts.countP Token.isComma + 1 := by
  induction ts generalizing current with
  | nil => rfl
  | cons t ts ih =>
    by_cases ht : t.isComma
    · rw [collect, if_pos ht, List.length_cons, ih, List.countP_cons_of_pos ht]
    · rw [collect, if_neg ht, ih, List.countP_cons_of_neg ht]

end RuleTree.Selectors
