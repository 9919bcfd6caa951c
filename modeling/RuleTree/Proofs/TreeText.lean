import Mathlib.Tactic
import RuleTree.Node.Json
import RuleTree.Proofs.Json.Unambiguous

/-! Trees by their JSON texts. Two trees are written alike, without spaces or one item to a line, only
if they differ in nothing but the sources of their tokens and in tags that are kept where they stand
for a kind. -/
namespace RuleTree
open Json

/-- Kinds that are exchanged alike: equal ones, and a kind with a tag of its own beside the same tag
kept as another. -/
inductive Kind.Same : Kind → Kind → Prop
  | refl (k : Kind) : Kind.Same k k
  | kept {k : Kind} (hk : k ∈ Kind.named) : Kind.Same (.other k.tag) k
  | known {k : Kind} (hk : k ∈ Kind.named) : Kind.Same k (.other k.tag)

/-- Tokens that agree in all but their sources, with kinds that are exchanged alike. -/
structure Token.Same (t u : Token) : Prop where
  kind : Kind.Same t.kind u.kind
  text : t.text = u.text
  index : t.index = u.index

/-- Trees that agree in all but their tokens, which are pairwise the same. -/
inductive Node.Same : List Node → List Node → Prop
  | nil : Node.Same [] []
  | block {header : Header} {content content' nodes nodes' : List Node} {span : Span}
      (body : Node.Same content content') (more : Node.Same nodes nodes') :
      Node.Same (.block header content span :: nodes) (.block header content' span :: nodes')
  | atRule {tokens tokens' : List Token} {nodes nodes' : List Node} {span : Span}
      (children : List.Forall₂ Token.Same tokens tokens') (more : Node.Same nodes nodes') :
      Node.Same (.atRule tokens span :: nodes) (.atRule tokens' span :: nodes')
  | statement {property : String} {value value' : List Token} {nodes nodes' : List Node}
      {span : Span} (values : List.Forall₂ Token.Same value value')
      (more : Node.Same nodes nodes') :
      Node.Same (.statement property value span :: nodes)
        (.statement property value' span :: nodes')

/-- A kind that keeps its tag as another, or one with a tag of its own. -/
theorem Kind.other_or_named (k : Kind) : (∃ tag, k = .other tag) ∨ k ∈ Kind.named := by
  cases k with
  | other tag => exact .inl ⟨tag, rfl⟩
  | _ => exact .inr (by decide)

theorem Kind.same_iff {k k' : Kind} : Kind.Same k k' ↔ k.tag = k'.tag := by
  constructor
  · intro h
    cases h <;> rfl
  · intro h
    rcases k.other_or_named with ⟨tag, rfl⟩ | hk
    · rcases k'.other_or_named with ⟨tag', rfl⟩ | hk'
      · obtain rfl : tag = tag' := h
        exact .refl _
      · obtain rfl : tag = k'.tag := h
        exact .kept hk'
    · rcases k'.other_or_named with ⟨tag', rfl⟩ | hk'
      · obtain rfl : k.tag = tag' := h
        exact .known hk
      · -- a tag of its own stands for one kind
        rw [← Kind.ofTag_tag hk, ← Kind.ofTag_tag hk', h]
        exact .refl _

theorem Token.same_iff {t u : Token} : Token.Same t u ↔ t.json = u.json := by
  simp only [Token.json, Json.record.injEq, List.cons.injEq, Prod.mk.injEq, Json.text.injEq,
    Json.number.injEq, true_and, and_true]
  constructor
  · intro h
    exact ⟨Kind.same_iff.mp h.kind, h.text, h.index⟩
  · rintro ⟨htag, htext, hindex⟩
    exact ⟨Kind.same_iff.mpr htag, htext, hindex⟩

theorem Token.forall₂_same_iff {ts us : List Token} :
    List.Forall₂ Token.Same ts us ↔ ts.map Token.json = us.map Token.json := by
  have hsame : Token.Same = fun t u => t.json = u.json := by
    funext t u
    exact propext same_iff
  rw [← List.forall₂_eq_eq_eq, List.forall₂_map_left_iff, List.forall₂_map_right_iff, hsame]

theorem Span.json_inj {s s' : Span} : s.json = s'.json ↔ s = s' := by
  cases s
  cases s'
  simp [Span.json]

theorem Header.field_inj {h h' : Header} : h.field = h'.field ↔ h = h' := by
  have htexts : Function.Injective (List.map Json.text) :=
    List.map_injective_iff.mpr fun _ _ => Json.text.inj
  cases h with
  | atRule name => cases h' <;> simp [Header.field]
  | selectors list => cases h' <;> simp [Header.field, htexts.eq_iff]

namespace Node

theorem Same.jsonAll_eq {nodes nodes' : List Node} (h : Same nodes nodes') :
    jsonAll nodes = jsonAll nodes' := by
  induction h with
  | nil => rfl
  | block body more ihb ihm => simp only [jsonAll, json, ihb, ihm]
  | atRule children more ih => simp only [jsonAll, json, Token.forall₂_same_iff.mp children, ih]
  | statement values more ih => simp only [jsonAll, json, Token.forall₂_same_iff.mp values, ih]

/-- What is written like a block is a block. -/
theorem exists_of_json_block {header : Header} {content : List Node} {span : Span} {n : Node}
    (h : (Node.block header content span).json = n.json) :
    ∃ content', n = .block header content' span ∧ jsonAll content = jsonAll content' := by
  cases n with
  | block header' content' span' =>
    simp only [json, Json.record.injEq, List.cons.injEq, Header.field_inj, Prod.mk.injEq,
      Json.list.injEq, Span.json_inj, true_and, and_true] at h
    obtain ⟨rfl, hbody, rfl⟩ := h
    exact ⟨content', rfl, hbody⟩
  | atRule tokens span' => simp [json] at h
  | statement property value span' => simp [json] at h

theorem exists_of_json_atRule {tokens : List Token} {span : Span} {n : Node}
    (h : (Node.atRule tokens span).json = n.json) :
    ∃ tokens', n = .atRule tokens' span ∧ List.Forall₂ Token.Same tokens tokens' := by
  cases n with
  | block header content span' => simp [json] at h
  | atRule tokens' span' =>
    simp only [json, Json.record.injEq, List.cons.injEq, Prod.mk.injEq, Json.list.injEq,
      Span.json_inj, true_and, and_true] at h
    obtain ⟨hchildren, rfl⟩ := h
    exact ⟨tokens', rfl, Token.forall₂_same_iff.mpr hchildren⟩
  | statement property value span' => simp [json] at h

theorem exists_of_json_statement {property : String} {value : List Token} {span : Span} {n : Node}
    (h : (Node.statement property value span).json = n.json) :
    ∃ value', n = .statement property value' span ∧ List.Forall₂ Token.Same value value' := by
  cases n with
  | block header content span' => simp [json] at h
  | atRule tokens span' => simp [json] at h
  | statement property' value' span' =>
    simp only [json, Json.record.injEq, List.cons.injEq, Prod.mk.injEq, Json.text.injEq,
      Json.list.injEq, Span.json_inj, true_and, and_true] at h
    obtain ⟨rfl, hvalues, rfl⟩ := h
    exact ⟨value', rfl, Token.forall₂_same_iff.mpr hvalues⟩

theorem same_of_jsonAll_eq : ∀ nodes nodes' : List Node, jsonAll nodes = jsonAll nodes' →
    Same nodes nodes'
  | [], [], _ => .nil
  | [], _ :: _, h => nomatch h
  | _ :: _, [], h => nomatch h
  | .block header content span :: nodes, n :: nodes', h => by
    obtain ⟨hnode, hmore⟩ := List.cons.inj h
    obtain ⟨content', rfl, hbody⟩ := exists_of_json_block hnode
    exact .block (same_of_jsonAll_eq content content' hbody) (same_of_jsonAll_eq nodes nodes' hmore)
  | .atRule tokens span :: nodes, n :: nodes', h => by
    obtain ⟨hnode, hmore⟩ := List.cons.inj h
    obtain ⟨tokens', rfl, hchildren⟩ := exists_of_json_atRule hnode
    exact .atRule hchildren (same_of_jsonAll_eq nodes nodes' hmore)
  | .statement property value span :: nodes, n :: nodes', h => by
    obtain ⟨hnode, hmore⟩ := List.cons.inj h
    obtain ⟨value', rfl, hvalues⟩ := exists_of_json_statement hnode
    exact .statement hvalues (same_of_jsonAll_eq nodes nodes' hmore)

theorem same_iff {nodes nodes' : List Node} :
    Same nodes nodes' ↔ jsonAll nodes = jsonAll nodes' :=
  ⟨Same.jsonAll_eq, same_of_jsonAll_eq nodes nodes'⟩

theorem render_treeJson_eq_iff {l : Layout} (hl : l.Blank) (nodes nodes' : List Node) :
    render l (treeJson nodes) = render l (treeJson nodes') ↔ Same nodes nodes' := by
  rw [(render_injective hl).eq_iff, same_iff, treeJson, treeJson, Json.list.injEq]

/-- The text of a tree, in either layout, determines the tree: whatever its nodes, texts and spans
are, only trees that are the same up to the sources of tokens and up to tags kept beside the kinds
that they stand for are written alike. -/
theorem treeJson_text_eq_iff (nodes nodes' : List Node) :
    ((treeJson nodes).compact = (treeJson nodes').compact ↔ Same nodes nodes') ∧
      ((treeJson nodes).pretty = (treeJson nodes').pretty ↔ Same nodes nodes') :=
  ⟨render_treeJson_eq_iff Layout.compact_blank nodes nodes',
    render_treeJson_eq_iff Layout.pretty_blank nodes nodes'⟩

example : (treeJson [.atRule [⟨.other "at", "@", 7, ⟨none, ""⟩⟩] ⟨0, 4⟩]).compact =
    (treeJson [.atRule [⟨.atSign, "@", 7, ⟨some "a.css", "@"⟩⟩] ⟨0, 4⟩]).compact := rfl

end Node
end RuleTree
