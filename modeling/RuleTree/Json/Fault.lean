/-! What can be wrong with a JSON text that is read for tokens. -/
namespace RuleTree.Json

/-- The kinds of fault. The first one met from the left decides. -/
inductive Fault where
  /-- This is not JSON. -/
  | malformed
  /-- The JSON value has another shape than the one asked for. -/
  | mismatched
  | cutShort
  deriving DecidableEq

end RuleTree.Json
