import Mathlib
import RuleTree.Proofs.Height
import RuleTree.Proofs.Spelling
import RuleTree.Token.Lexer

/-! Trees as deep as their tokens. The depth of a tree that was read is the greatest height on the
way through its tokens, and it has one block for each opening brace. -/
namespace RuleTree
open Braces

theorem Node.depthAll_eq_foldr (nodes : List Node) :
    Node.depthAll nodes = (nodes.map Node.depth).foldr max 0 := by
  induction nodes with
  | nil => rfl
  | cons n ns ih => rw [Node.depthAll, ih, List.map_cons, List.foldr_cons]

namespace Spells

variable {room p : Nat} {ts : List Token} {nodes : List Node}

theorem depthAll_eq_peak (h : Spells room p ts nodes) : Node.depthAll nodes = peak ts := by
  induction h with
  | nothing => rfl
  | trailing ht => exact (flat_of_isDelimiter ht).heightFrom_zero.2.symm
  | @atRule room p body rest last nodes hf he hb more ih =>
    rw [List.append_cons body last rest] at hf ⊢
    rw [(flat_append.mp hf).1.peak_append, ← ih]
    exact Nat.zero_max _
  | @statement room p body value rest property last nodes hf he hb hs more ih =>
    rw [List.append_cons body last rest] at hf ⊢
    rw [(flat_append.mp hf).1.peak_append, ← ih]
    exact Nat.zero_max _
  | block hf hb hi hc hh body more ihb ihm =>
    rw [peak_block hf hb hi hc, ← ihb, ← ihm]
    rfl

/-- No height exceeds the depth limit of a reading that succeeds. -/
theorem peak_le (h : Spells room p ts nodes) : peak ts ≤ room := by
  induction h with
  | nothing => exact Nat.zero_le _
  | trailing ht => exact (flat_of_isDelimiter ht).heightFrom_zero.2.le.trans (Nat.zero_le _)
  | @atRule room p body rest last nodes hf he hb more ih =>
    rw [List.append_cons body last rest] at hf ⊢
    rwa [(flat_append.mp hf).1.peak_append]
  | @statement room p body value rest property last nodes hf he hb hs more ih =>
    rw [List.append_cons body last rest] at hf ⊢
    rwa [(flat_append.mp hf).1.peak_append]
  | block hf hb hi hc hh body more ihb ihm =>
    rw [peak_block hf hb hi hc]
    omega

theorem countP_isBlock (h : Spells room p ts nodes) :
    (Node.preorderAll nodes).countP Node.isBlock = opens ts := by
  induction h with
  | nothing => rfl
  | trailing ht =>
    have hopens := (flat_of_isDelimiter ht).opens_append []
    exact hopens.symm
  | @atRule room p body rest last nodes hf he hb more ih =>
    rw [List.append_cons body last rest] at hf ⊢
    rw [(flat_append.mp hf).1.opens_append, ← ih]
    rfl
  | @statement room p body value rest property last nodes hf he hb hs more ih =>
    rw [List.append_cons body last rest] at hf ⊢
    rw [(flat_append.mp hf).1.opens_append, ← ih]
    rfl
  | block hf hb hi hc hh body more ihb ihm =>
    rw [opens_block hf hb hc, ← ihb, ← ihm, Node.preorderAll, Node.preorder, List.cons_append,
      List.countP_cons_of_pos rfl, List.countP_append]
    omega

end Spells

/-- The depth of a parsed tree is the greatest height behind a beginning of its tokens, and the
tree has as many blocks as there are opening braces. -/
theorem parse_depth (config : Config) (ts : List Token) (nodes : List Node)
    (h : (parse config ts).result = .ok nodes) :
    IsGreatest {d | ∃ front, front <+: ts ∧ height front = d}
        ((nodes.map Node.depth).foldr max 0) ∧
      (Node.preorderAll nodes).countP Node.isBlock = opens ts := by
  have hspells := parse_ok_iff.mp h
  constructor
  · rw [← Node.depthAll_eq_foldr, hspells.depthAll_eq_peak]
    exact isGreatest_peak ts
  · exact hspells.countP_isBlock

theorem parse_depth_stray :
    ∃ nodes,
      (parse {} (Source.tokens ⟨none, "\x7da\x7bb\x7b\x7d\x7d\x7b\x7dc;"⟩)).result =
        .ok nodes ∧
      IsGreatest {d | ∃ front,
          front <+: Source.tokens ⟨none, "\x7da\x7bb\x7b\x7d\x7d\x7b\x7dc;"⟩ ∧ height front = d}
        ((nodes.map Node.depth).foldr max 0) ∧
      (nodes.map Node.depth).foldr max 0 = 2 ∧
      (Node.preorderAll nodes).countP Node.isBlock =
        opens (Source.tokens ⟨none, "\x7da\x7bb\x7b\x7d\x7d\x7b\x7dc;"⟩) := by
  have h : (parse {} (Source.tokens ⟨none, "\x7da\x7bb\x7b\x7d\x7d\x7b\x7dc;"⟩)).result =
      .ok [.block (.selectors ["\x7da"]) [.block (.selectors ["b"]) [] ⟨3, 6⟩] ⟨0, 7⟩,
        .block (.selectors [""]) [] ⟨7, 9⟩, .statement "c" [] ⟨9, 11⟩] := by cbv
  obtain ⟨hdepth, hblocks⟩ := parse_depth _ _ _ h
  exact ⟨_, h, hdepth, by decide, hblocks⟩

end RuleTree
