import RuleTree.Node

/-! The outline of a tree: one line for each node, set in by its depth. -/
namespace RuleTree.Outline

/-- What a line starts with inside `level` blocks. -/
def margin (level : Nat) : String := String.ofList (List.replicate (2 * level) ' ')

/-- The texts of tokens, joined by `gap`. -/
def joined (gap : String) (ts : List Token) : String := gap.intercalate (ts.map Token.text)

def headerLine : Header → String
  | .atRule name => "[Block] kind: " ++ name
  | .selectors list => "[Block] selectors: " ++ ", ".intercalate list

mutual

/-- The lines of a node inside `level` blocks. -/
def lines (level : Nat) : Node → List String
  | .block header content _ =>
    (margin level ++ headerLine header) :: linesAll (level + 1) content
  | .atRule tokens _ =>
    [margin level ++ "[At] " ++ joined "" (tokens.take 2) ++ " " ++ joined "" (tokens.drop 2)]
  | .statement property value _ =>
    [margin level ++ "[Statement] property: " ++ property ++ " value: " ++ joined " " value]

def linesAll (level : Nat) : List Node → List String
  | [] => []
  | n :: ns => lines level n ++ linesAll level ns

end

/-- The outline of a tree, each line ended by a line feed. -/
def render (nodes : List Node) : String := String.join ((linesAll 0 nodes).map (· ++ "\n"))

end RuleTree.Outline
