import Mathlib
import RuleTree.Proofs.Height
import RuleTree.Proofs.Placement
import RuleTree.Token.Lexer

/-! Names of at-rules. A block is named by the token behind the first at-sign of its header,
whatever that token is; an at-rule without a body has a word there. -/
namespace RuleTree
open Braces

/-- Where the name of a node comes from. The header of a block with a name goes on behind its first
at-sign with a token of which `allowed` holds, and this is the name; a block without a name has no
at-sign in its header. An at-rule without a body begins with an at-sign and a word. -/
def Node.NamedBy (allowed : Token → Prop) (ts : List Token) : Node → Prop
  | .block (.atRule name) _ s => ∃ o front mark t back, firstOpen? ts s.start = some o ∧
      Span.tokens ⟨s.start, o⟩ ts = front ++ mark :: t :: back ∧
      (∀ u ∈ front, u.isAtSign = false) ∧ mark.isAtSign ∧ name = t.text ∧ allowed t
  | .block (.selectors _) _ s => ∃ o, firstOpen? ts s.start = some o ∧
      ∀ u ∈ Span.tokens ⟨s.start, o⟩ ts, u.isAtSign = false
  | .atRule tokens s => ∃ mark name more value, s.tokens ts = mark :: name :: more ∧
      mark.isAtSign ∧ name.isWord ∧ tokens = mark :: name :: value
  | .statement .. => True

/-- No opening brace stands in front of the first one. -/
theorem Braces.flat_of_firstOpen? {ts : List Token} {start o : Nat}
    (h : firstOpen? ts start = some o) : Flat (Span.tokens ⟨start, o⟩ ts) := by
  obtain ⟨n, hn, rfl⟩ := Option.map_eq_some_iff.mp h
  obtain ⟨front, brace, back, hs, rfl, hf, -⟩ := exists_of_firstIndex? hn
  rwa [Span.tokens_eq_take, hs, List.take_left]

theorem namedBy_block {ts : List Token} {start o stop : Nat} {header : Header}
    {content : List Node} (ho : firstOpen? ts start = some o)
    (hh : header.Matches (Span.tokens ⟨start, o⟩ ts)) :
    (Node.block header content ⟨start, stop⟩).NamedBy (fun t => t.isBraceOpen = false) ts := by
  cases header with
  | atRule name =>
    obtain ⟨k, t, hk, ht, hname⟩ := hh
    obtain ⟨front, mark, rest, hs, rfl, hf, hm⟩ := Scan.exists_of_firstIndex? hk
    rw [hs, ← List.head?_drop, drop_behind] at ht
    obtain ⟨back, rfl⟩ := List.head?_eq_some_iff.mp ht
    refine ⟨o, front, mark, t, back, ho, hs, ?_, beq_iff_eq.mpr hm, hname, ?_⟩
    · exact fun u hu => beq_eq_false_iff_ne.mpr (hf u hu)
    · exact flat_of_firstOpen? ho t (by simp [hs])
  | selectors list =>
    refine ⟨o, ho, fun u hu => ?_⟩
    exact beq_eq_false_iff_ne.mpr (Scan.firstIndex?_eq_none.mp hh.1 u hu)

theorem namedBy_atRule {allowed : Token → Prop} {ts body : List Token} {last : Token} {start : Nat}
    (hw : Span.tokens ⟨start, start + (body.length + 1)⟩ ts = body ++ [last])
    (he : Ends body last) (hb : AtRule.Body body) :
    (Node.atRule (Scan.significant (body ++ [last]))
      ⟨start, start + (body.length + 1)⟩).NamedBy allowed ts := by
  obtain @⟨mark, name, gap, value, hmark, hname, hgap, -⟩ := hb
  exact ⟨mark, name, _, _, hw, hmark, hname,
    AtRule.significant_segment hmark hname hgap he.last⟩

theorem Placed.namedBy {ts : List Token} {start stop : Nat} {nodes : List Node}
    (h : Placed ts start stop nodes) :
    ∀ n ∈ Node.preorderAll nodes, n.NamedBy (fun t => t.isBraceOpen = false) ts := by
  intro n hn
  obtain ⟨first, last, more, hplaced⟩ := h.exists_head n hn
  cases hplaced with
  | atRule hw hf he hb => exact namedBy_atRule hw he hb
  | statement => trivial
  | block ho ha hw hc hh => exact namedBy_block ho hh

/-- The blocks of a parse that have an at-sign in their headers are named by the token behind it,
which is any but an opening brace, and its at-rules without a body by a word. -/
theorem parse_namedBy (config : Config) (ts : List Token) (nodes : List Node)
    (h : (parse config ts).result = .ok nodes) :
    ∀ n ∈ Node.preorderAll nodes, n.NamedBy (fun t => t.isBraceOpen = false) ts :=
  (placed_of_parse h).namedBy

theorem parse_namedBy_quoted :
    ∃ nodes, (parse {} (Source.tokens ⟨none, "@m\x7ba @'q' \x7b\x7d@n a;\x7d"⟩)).result =
        .ok nodes ∧
      ∀ n ∈ Node.preorderAll nodes, n.NamedBy (fun t => t.isBraceOpen = false)
        (Source.tokens ⟨none, "@m\x7ba @'q' \x7b\x7d@n a;\x7d"⟩) := by
  have h : (parse {} (Source.tokens ⟨none, "@m\x7ba @'q' \x7b\x7d@n a;\x7d"⟩)).result =
      .ok [.block (.atRule "m")
        [.block (.atRule "'q'") [] ⟨3, 10⟩,
          .atRule
            [⟨.atSign, "@", 12, ⟨none, "@m\x7ba @'q' \x7b\x7d@n a;\x7d"⟩⟩,
              ⟨.word, "n", 13, ⟨none, "@m\x7ba @'q' \x7b\x7d@n a;\x7d"⟩⟩,
              ⟨.word, "a", 15, ⟨none, "@m\x7ba @'q' \x7b\x7d@n a;\x7d"⟩⟩,
              ⟨.semicolon, ";", 16, ⟨none, "@m\x7ba @'q' \x7b\x7d@n a;\x7d"⟩⟩]
            ⟨10, 15⟩] ⟨0, 16⟩] := by cbv
  exact ⟨_, h, parse_namedBy _ _ _ h⟩

/-- Any token that is no opening brace names a block. -/
theorem parse_result_named {config : Config} {mark name brace close : Token} {back : List Token}
    (hdepth : 0 < config.maxDepth) (hm : mark.isAtSign) (hn : name.isBraceOpen = false)
    (hback : Flat back) (hb : brace.isBraceOpen) (hc : close.isBraceClose) :
    (parse config (mark :: name :: back ++ [brace, close])).result =
      .ok [.block (.atRule name.text) [] ⟨0, back.length + 4⟩] := by
  obtain ⟨room, hroom⟩ := Nat.exists_eq_succ_of_ne_zero hdepth.ne'
  have hfront : Flat (mark :: name :: back) :=
    List.forall_mem_cons.mpr ⟨Token.kind_beq_of_ne hm (by decide),
      List.forall_mem_cons.mpr ⟨hn, hback⟩⟩
  have hfirst : Scan.firstIndex? .atSign (mark :: name :: back) = some 0 :=
    Scan.firstIndex?_append (name :: back) (List.forall_mem_nil _) (beq_iff_eq.mp hm)
  have hspells : Spells (room + 1) 0 (mark :: name :: back ++ brace :: ([] ++ [close]))
      [.block (.atRule name.text) [] ⟨0, 0 + ((mark :: name :: back).length + 1 + 0 + 1)⟩] :=
    .block hfront hb (settles_zero.mp settles_nil) hc ⟨0, name, hfirst, rfl, rfl⟩ .nothing .nothing
  rw [Nat.zero_add] at hspells
  rw [parse_ok_iff, hroom]
  exact hspells

/-- A block is named by the white space in front of a word, and not by the word. -/
theorem parse_names_gap :
    ∃ nodes, (parse {} (Source.tokens ⟨none, "@ media\x7b\x7d"⟩)).result = .ok nodes ∧
      ∃ n ∈ Node.preorderAll nodes, n.isBlock ∧
        ¬ n.NamedBy (fun t => t.isWord) (Source.tokens ⟨none, "@ media\x7b\x7d"⟩) := by
  have htokens : Source.tokens ⟨none, "@ media\x7b\x7d"⟩ =
      ⟨.atSign, "@", 0, ⟨none, "@ media\x7b\x7d"⟩⟩ ::
        ⟨.delimiter, " ", 1, ⟨none, "@ media\x7b\x7d"⟩⟩ ::
          [⟨.word, "media", 2, ⟨none, "@ media\x7b\x7d"⟩⟩] ++
        [⟨.braceOpen, "\x7b", 7, ⟨none, "@ media\x7b\x7d"⟩⟩,
          ⟨.braceClose, "\x7d", 8, ⟨none, "@ media\x7b\x7d"⟩⟩] := by cbv
  rw [htokens]
  refine ⟨_, parse_result_named (by decide) rfl rfl (by decide) rfl rfl, _, List.mem_cons_self,
    rfl, ?_⟩
  rintro ⟨o, front, mark, t, back, ho, hs, hfront, hmark, -, ht⟩
  cases ho
  cases front with
  | nil =>
    cases hs
    cases ht
  | cons u front =>
    -- the first at-sign is the first token
    obtain ⟨rfl, -⟩ := List.cons.inj hs
    cases hfront _ List.mem_cons_self

end RuleTree
