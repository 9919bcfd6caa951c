import Mathlib
import RuleTree.Proofs.Placement
import RuleTree.Token.Lexer

/-! What nodes hold, by their spans. The payload of every node of a parse, at any depth, is read
off the tokens that its span covers. -/
namespace RuleTree
open Braces

/-- The header is what the tokens of the span say, which stand in front of a brace: named by the
token behind the first at-sign, if there is one, and made of their selectors otherwise. -/
def Header.Tells (ts : List Token) (s : Span) : Header → Prop
  | .atRule name => ∃ k t, Scan.FirstAt .atSign ts s.start k ∧ k + 1 < s.stop ∧
      ts[k + 1]? = some t ∧ name = t.text
  | .selectors list => (∀ t ∈ s.tokens ts, t.kind ≠ .atSign) ∧
      Selectors.ofTokens? (s.tokens ts) = some list

/-- The payload of the node is what the tokens of its span say. With `w` for those among them that
are no delimiters, a statement is named by the first of `w`, and its value is the rest of `w`
behind a separator and without the semicolon at the end; an at-rule keeps all of `w`; a block has
the header that the tokens in front of its first brace make. -/
def Node.Tells (ts : List Token) : Node → Prop
  | .block header _ s => ∃ o < s.stop, Scan.FirstAt .braceOpen ts s.start o ∧
      header.Tells ts ⟨s.start, o⟩
  | .atRule tokens s =>
      let w := (s.tokens ts).filter fun t => t.kind ≠ .delimiter
      tokens = w ∧ 4 ≤ w.length ∧ (∃ mark, w[0]? = some mark ∧ mark.kind = .atSign) ∧
        (∃ name, w[1]? = some name ∧ name.kind = .word) ∧
        ∃ gap, ts[s.start + 2]? = some gap ∧ gap.kind = .delimiter
  | .statement property value s =>
      let w := (s.tokens ts).filter fun t => t.kind ≠ .delimiter
      2 ≤ w.length ∧ (∃ first, w[0]? = some first ∧ property = first.text) ∧
        (∃ last, w.getLast? = some last ∧ last.kind = .semicolon) ∧ value = w.dropLast.drop 2

theorem Header.Matches.tells {ts : List Token} {start stop : Nat} {header : Header}
    (h : header.Matches (Span.tokens ⟨start, stop⟩ ts)) : header.Tells ts ⟨start, stop⟩ := by
  cases header with
  | atRule name =>
    obtain ⟨k, t, hk, hget, rfl⟩ := h
    obtain ⟨-, hfirst⟩ := (Scan.firstAt_of_firstIndex? hk).of_take
    rw [Span.tokens, List.getElem?_drop] at hget
    obtain ⟨hlt, -⟩ := List.getElem?_eq_some_iff.mp hget
    rw [List.length_take] at hlt
    have hstop : start + (k + 1) < stop := hlt.trans_le (Nat.min_le_left _ _)
    rw [List.getElem?_take_of_lt hstop] at hget
    exact ⟨start + k, t, hfirst, hstop, hget, rfl⟩
  | selectors list => exact ⟨Scan.firstIndex?_eq_none.mp h.1, h.2⟩

theorem tells_atRule {ts body : List Token} {last : Token} {start : Nat}
    (hw : Span.tokens ⟨start, start + (body.length + 1)⟩ ts = body ++ [last])
    (he : Ends body last) (hb : AtRule.Body body) :
    Node.Tells ts (.atRule (Scan.significant (body ++ [last]))
      ⟨start, start + (body.length + 1)⟩) := by
  obtain @⟨mark, name, gap, value, hmark, hname, hgap, hvalue⟩ := hb
  obtain ⟨first, more, hs⟩ := List.exists_cons_of_ne_nil (Scan.significant_ne_nil_iff.mpr hvalue)
  have hsig : Scan.significant (mark :: name :: gap :: value ++ [last]) =
      mark :: name :: (first :: more ++ [last]) := by
    rw [AtRule.significant_segment hmark hname hgap he.last, hs]
  have hthird : ts[start + 2]? = some gap := by
    have hlt : 2 < (mark :: name :: gap :: value).length + 1 := by
      simp only [List.length_cons]
      omega
    rw [← Span.getElem?_tokens ts hlt, hw]
    rfl
  rw [Node.Tells, hw, ← Scan.significant_eq_filter, hsig]
  exact ⟨rfl, by simp, ⟨mark, rfl, beq_iff_eq.mp hmark⟩, ⟨name, rfl, beq_iff_eq.mp hname⟩, gap,
    hthird, beq_iff_eq.mp hgap⟩

theorem tells_statement {ts body value : List Token} {property last : Token} {start : Nat}
    (hw : Span.tokens ⟨start, start + (body.length + 1)⟩ ts = body ++ [last])
    (he : Ends body last) (hs : Scan.significant body = property :: value) :
    Node.Tells ts (.statement property.text (value.drop 1)
      ⟨start, start + (body.length + 1)⟩) := by
  have hsig : Scan.significant (body ++ [last]) = property :: value ++ [last] := by
    rw [Scan.significant_append, Scan.significant_singleton he.last, hs]
  rw [Node.Tells, hw, ← Scan.significant_eq_filter, hsig]
  refine ⟨by simp, ⟨property, rfl, rfl⟩,
    ⟨last, List.getLast?_concat, beq_iff_eq.mp he.last⟩, ?_⟩
  rw [List.dropLast_concat, List.drop_succ_cons]

theorem Placed.tells {ts : List Token} {start stop : Nat} {nodes : List Node}
    (h : Placed ts start stop nodes) : ∀ n ∈ Node.preorderAll nodes, n.Tells ts := by
  intro n hn
  obtain ⟨first, last, more, hplaced⟩ := h.exists_head n hn
  cases hplaced with
  | atRule hw hf he hb => exact tells_atRule hw he hb
  | statement hw hf he hb hs => exact tells_statement hw he hs
  | block ho ha hw hc hh =>
    exact ⟨_, ha.behind.trans (Nat.lt_succ_self _), firstAt_of_firstOpen? ho, hh.tells⟩

/-- Every node of a parse tells what the tokens of its span say. -/
theorem parse_tells (config : Config) (ts : List Token) (nodes : List Node)
    (h : (parse config ts).result = .ok nodes) : ∀ n ∈ Node.preorderAll nodes, n.Tells ts :=
  (placed_of_parse h).tells

theorem parse_tells_nested :
    ∃ nodes, (parse {} (Source.tokens ⟨none, "@m\x7b@n a;\x7db : ;"⟩)).result = .ok nodes ∧
      ∀ n ∈ Node.preorderAll nodes, n.Tells (Source.tokens ⟨none, "@m\x7b@n a;\x7db : ;"⟩) := by
  have h : (parse {} (Source.tokens ⟨none, "@m\x7b@n a;\x7db : ;"⟩)).result =
      .ok [.block (.atRule "m")
        [.atRule
          [⟨.atSign, "@", 3, ⟨none, "@m\x7b@n a;\x7db : ;"⟩⟩,
            ⟨.word, "n", 4, ⟨none, "@m\x7b@n a;\x7db : ;"⟩⟩,
            ⟨.word, "a", 6, ⟨none, "@m\x7b@n a;\x7db : ;"⟩⟩,
            ⟨.semicolon, ";", 7, ⟨none, "@m\x7b@n a;\x7db : ;"⟩⟩]
          ⟨3, 8⟩] ⟨0, 9⟩, .statement "b" [] ⟨9, 14⟩] := by cbv
  exact ⟨_, h, parse_tells _ _ _ h⟩

end RuleTree
