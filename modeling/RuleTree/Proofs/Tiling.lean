import Mathlib
import RuleTree.Proofs.Placement
import RuleTree.Token.Lexer

/-! Spans laid side by side. The nodes of a parse cover its tokens without gaps and overlaps, and
so do the nodes between the braces of each block; at most one delimiter stays behind them. -/
namespace RuleTree
open Braces

/-- A span over a segment: no opening brace, and one semicolon, which is its last token. -/
def Span.IsSegment (s : Span) (ts : List Token) : Prop :=
  ∃ body last, s.tokens ts = body ++ [last] ∧ Flat (body ++ [last]) ∧ Ends body last

namespace Node

mutual

/-- The span of the node fits its kind. That of a block ends with the answer to the first opening
brace in it, and the content lies side by side between the two. -/
def Fits (ts : List Token) : Node → Prop
  | .block _ content s => ∃ o c close, firstOpen? ts s.start = some o ∧ Answers ts o c ∧
      s.stop = c + 1 ∧ ts[c]? = some close ∧ close.isBraceClose ∧ Tile ts (o + 1) c content
  | .atRule _ s => s.IsSegment ts
  | .statement _ _ s => s.IsSegment ts

/-- The nodes lie side by side from `start` on, and behind the last one nothing or a single
delimiter is left in front of `stop`. -/
def Tile (ts : List Token) (start stop : Nat) : List Node → Prop
  | [] => stop = start ∨ stop = start + 1 ∧ ∃ t, ts[start]? = some t ∧ t.isDelimiter
  | n :: ns => n.span.start = start ∧ start < n.span.stop ∧ Fits ts n ∧
      Tile ts n.span.stop stop ns

end

end Node

theorem Placed.tile {ts : List Token} {start stop : Nat} {nodes : List Node}
    (h : Placed ts start stop nodes) : Node.Tile ts start stop nodes := by
  induction h with
  | nothing => exact .inl rfl
  | trailing hw ht => exact .inr ⟨rfl, _, hw, ht⟩
  | atRule hw hf he hb more ih =>
    exact ⟨rfl, Nat.lt_add_of_pos_right (Nat.succ_pos _), ⟨_, _, hw, hf, he⟩, ih⟩
  | statement hw hf he hb hs more ih =>
    exact ⟨rfl, Nat.lt_add_of_pos_right (Nat.succ_pos _), ⟨_, _, hw, hf, he⟩, ih⟩
  | @block start o c stop close header content nodes ho ha hw hc hh body more ihb ihm =>
    refine ⟨rfl, ?_, ⟨o, c, close, ho, ha, rfl, hw, hc, ihb⟩, ihm⟩
    exact Nat.lt_succ_of_le ((le_of_firstOpen? ho).trans ha.behind.le)

/-- No token is lost and none is read twice: the nodes of a parse lie side by side over all of
the tokens. -/
theorem parse_tiles (config : Config) (ts : List Token) (nodes : List Node)
    (h : (parse config ts).result = .ok nodes) : Node.Tile ts 0 ts.length nodes :=
  (placed_of_parse h).tile

theorem parse_tiles_nested :
    ∃ nodes, (parse {} (Source.tokens ⟨none, "@m\x7b.a\x7b\x7d\x7db; "⟩)).result = .ok nodes ∧
      Node.Tile (Source.tokens ⟨none, "@m\x7b.a\x7b\x7d\x7db; "⟩) 0
        (Source.tokens ⟨none, "@m\x7b.a\x7b\x7d\x7db; "⟩).length nodes := by
  have h : (parse {} (Source.tokens ⟨none, "@m\x7b.a\x7b\x7d\x7db; "⟩)).result =
      .ok [.block (.atRule "m") [.block (.selectors [".a"]) [] ⟨3, 6⟩] ⟨0, 7⟩,
        .statement "b" [] ⟨7, 9⟩] := by cbv
  exact ⟨_, h, parse_tiles _ _ _ h⟩

end RuleTree
