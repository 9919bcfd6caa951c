import RuleTree.Json.Value
import RuleTree.Node

/-! Tokens and rule trees as JSON values. The origin of a token is left out. -/
namespace RuleTree

/-- A token as a record of its type, text and offset. -/
def Token.json (t : Token) : Json :=
  .record [("type", .text t.kind.tag), ("source", .text t.text), ("index", .number t.index)]

def Span.json (s : Span) : Json := .record [("start", .number s.start), ("end", .number s.stop)]

/-- A header's field in the record of its block. -/
def Header.field : Header → String × Json
  | .atRule name => ("kind", .text name)
  | .selectors list => ("selectors", .list (list.map Json.text))

namespace Node

mutual

/-- A node as a record, its shape first and its span last. -/
def json : Node → Json
  | .block header content span =>
    .record [("type", .text "block"), header.field, ("content", .list (jsonAll content)),
      ("span", span.json)]
  | .atRule tokens span =>
    .record [("type", .text "at"), ("childTokens", .list (tokens.map Token.json)),
      ("span", span.json)]
  | .statement property value span =>
    .record [("type", .text "statement"), ("property", .text property),
      ("valueTokens", .list (value.map Token.json)), ("span", span.json)]

def jsonAll : List Node → List Json
  | [] => []
  | n :: ns => n.json :: jsonAll ns

end

def treeJson (nodes : List Node) : Json := .list (jsonAll nodes)

end Node
end RuleTree
