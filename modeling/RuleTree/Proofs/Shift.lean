import Mathlib.Tactic
import RuleTree.Proofs.Passes

/-! Trees moved along the tokens. What a range gives depends on its tokens alone: where the range
stands moves the spans, and how many blocks are around it changes nothing. So a block's content
is what its tokens would give as a sheet of their own. -/
namespace RuleTree
open Braces

/-- The span `k` tokens further on. -/
def Span.shift (k : Nat) (s : Span) : Span := ⟨s.start + k, s.stop + k⟩

namespace Node

mutual

/-- The node with all its spans moved `k` tokens on. -/
def shift (k : Nat) : Node → Node
  | .block header content span => .block header (shiftAll k content) (span.shift k)
  | .atRule tokens span => .atRule tokens (span.shift k)
  | .statement property value span => .statement property value (span.shift k)

/-- The nodes with all their spans moved `k` tokens on. -/
def shiftAll (k : Nat) : List Node → List Node
  | [] => []
  | n :: ns => n.shift k :: shiftAll k ns

end

end Node

namespace Parser

variable {inner inner' : Inner} {w w' : Window} {k : Nat}

/-- Ranges with the same tokens give the same nodes, as far apart as the ranges are. -/
theorem passes_result_shift
    (hi : ∀ brace around around' v v', v.rest = v'.rest → v.position = v'.position + k →
      (inner brace around v).result = (inner' brace around' v').result.map (Node.shiftAll k))
    (hr : w.rest = w'.rest) (hp : w.position = w'.position + k) :
    (passes inner w).result = (passes inner' w').result.map (Node.shiftAll k) := by
  -- on the tokens that are left: both ranges read the same node and go on with fewer of them
  induction hn : w'.rest.length using Nat.strong_induction_on generalizing w w' with
  | _ n ih =>
    have hspan (m : Nat) : w.span m = (w'.span m).shift k := by
      simp only [Window.span, Span.shift, hp, Nat.add_right_comm]
    have hmore {m : Nat} (hm : 0 < m) (hne : w'.rest ≠ []) :
        (passes inner (w.advance m)).result =
          (passes inner' (w'.advance m)).result.map (Node.shiftAll k) := by
      apply ih _ _ _ _ rfl
      · have := List.length_pos_iff.mpr hne
        simp only [Window.advance_rest, List.length_drop]
        omega
      · simp only [Window.advance_rest, hr]
      · simp only [Window.advance_position, hp, Nat.add_right_comm]
    cases next w'.rest with
    | nothing hs =>
      rw [passes_result_nil hs, passes_result_nil (hr.trans hs)]
      rfl
    | trailing t hs ht =>
      rw [passes_result_trailing hs ht, passes_result_trailing (hr.trans hs) ht]
      rfl
    | block front brace back hs hf hb =>
      rw [passes_result_split hs hf hb, passes_result_split (hr.trans hs) hf hb, hr]
      cases Scan.matchingBrace w'.rest front.length with
      | error e => rfl
      | ok close =>
        have hinside : (w.inside (front.length + 1) close).rest =
            (w'.inside (front.length + 1) close).rest := by simp only [Window.inside, hr]
        rw [ok_bind, ok_bind, hi brace w w' _ _ hinside
          (by simp only [Window.inside, hp, Nat.add_right_comm])]
        cases (inner' brace w' (w'.inside (front.length + 1) close)).result with
        | error e => rfl
        | ok content =>
          cases (Header.read front).result with
          | error e => rfl
          | ok header =>
            simp only [Except.map, ok_bind]
            rw [hmore (Nat.succ_pos close) (by simp [hs]), hspan]
            cases (passes inner' (w'.advance (close + 1))).result <;> rfl
    | atRule hf hb =>
      rw [passes_result_atRule hf hb, passes_result_atRule (hr ▸ hf) (hr ▸ hb), hr]
      cases hrule : AtRule.read w'.rest with
      | error e => rfl
      | ok rule =>
        obtain ⟨body, last, rest, hs, -, -, rfl⟩ := AtRule.exists_of_read hf hrule
        rw [ok_bind, ok_bind, hmore (Nat.succ_pos _) (by simp [hs]), hspan]
        cases (passes inner' (w'.advance (body.length + 1))).result <;> rfl
    | statement front more hf hs hl hb =>
      rw [passes_result_statement hf hs hl hb,
        passes_result_statement (hr ▸ hf) (hr.trans hs) hl hb, hr]
      cases hread : Statement.read w'.rest with
      | error e => rfl
      | ok s =>
        obtain ⟨body, last, rest, property, value, -, -, -, rfl⟩ :=
          Statement.exists_of_read hf hread
        rw [ok_bind, ok_bind, hmore (Nat.succ_pos _) (by simp [hs]), hspan]
        cases (passes inner' (w'.advance (body.length + 1))).result <;> rfl
    | unknown front more hf hs hl ha hb =>
      rw [passes_result_unknown hf hs hl ha hb,
        passes_result_unknown (hr ▸ hf) (hr.trans hs) hl (hr ▸ ha) hb]
      rfl

theorem range_result_zero (depth : Nat) (outer : Option Window) (w : Window) :
    (range 0 depth outer w).result =
      (passes (fun brace _ _ => Run.fail (brace.fault .nestingTooDeep)) w).result := by
  simp [range]

theorem range_result_succ (room depth : Nat) (outer : Option Window) (w : Window) :
    (range (room + 1) depth outer w).result =
      (passes (fun _ around w => range room (depth + 1) (some around) w) w).result := by
  simp [range]

/-- What a range gives does not hang on the blocks around it. -/
theorem range_result_shift (room depth depth' : Nat) (outer outer' : Option Window)
    (hr : w.rest = w'.rest) (hp : w.position = w'.position + k) :
    (range room depth outer w).result =
      (range room depth' outer' w').result.map (Node.shiftAll k) := by
  induction room generalizing depth depth' outer outer' w w' with
  | zero =>
    rw [range_result_zero, range_result_zero]
    exact passes_result_shift (fun _ _ _ _ _ _ _ => rfl) hr hp
  | succ room ih =>
    rw [range_result_succ, range_result_succ]
    exact passes_result_shift (fun _ _ _ _ _ hr hp => ih _ _ _ _ hr hp) hr hp

end Parser

theorem parse_result (config : Config) (ts : List Token) :
    (parse config ts).result = (Parser.range config.maxDepth 0 none (.all ts)).result := by
  simp [parse]

/-- A range is read as its tokens alone would be, at the place where it stands. -/
theorem range_result_eq_parse (source : Option String) (room depth : Nat) (outer : Option Window)
    (w : Window) :
    (Parser.range room depth outer w).result =
      (parse ⟨source, room⟩ w.rest).result.map (Node.shiftAll w.position) := by
  rw [parse_result]
  exact Parser.range_result_shift _ _ _ _ _ rfl (Nat.zero_add _).symm

/-- Between balanced braces the tokens are read as a sheet of their own with one level of blocks
less, and behind them reading begins anew. An error in the content is met first, then one in
the header, then one behind the block. -/
theorem parse_append_block (config : Config) (hdepth : 1 ≤ config.maxDepth)
    {front inner rest : List Token} {brace close : Token} (hfront : Flat front)
    (hbrace : brace.isBraceOpen) (hinner : Balanced inner) (hclose : close.isBraceClose) :
    (parse config (front ++ [brace] ++ inner ++ [close] ++ rest)).result = (do
      let content ← (parse { config with maxDepth := config.maxDepth - 1 } inner).result
      let header ← (Header.read front).result
      let more ← (parse config rest).result
      return .block header (Node.shiftAll (front.length + 1) content)
        ⟨0, front.length + inner.length + 2⟩ ::
          Node.shiftAll (front.length + inner.length + 2) more) := by
  obtain ⟨source, room⟩ := config
  obtain ⟨room, rfl⟩ := Nat.exists_eq_add_of_le' hdepth
  have hts : front ++ [brace] ++ inner ++ [close] ++ rest =
      front ++ brace :: (inner ++ close :: rest) := by simp
  rw [hts, parse_result, Parser.range_result_succ,
    Parser.passes_result_block rfl hfront hbrace hinner hclose, ← Parser.range_result_succ room 0
      none, range_result_eq_parse source, range_result_eq_parse source,
    Parser.inside_block_rest rfl, Parser.advance_block_rest rfl]
  have hsize : front.length + 1 + inner.length + 1 = front.length + inner.length + 2 := by omega
  simp only [Window.inside, Window.advance, Window.span, Window.all, Nat.zero_add, hsize]
  -- the depth limit of the content, one less than `room + 1`, is `room`
  change ((parse ⟨source, room⟩ inner).result.map _ >>= _) =
    (parse ⟨source, room⟩ inner).result >>= _
  cases (parse ⟨source, room⟩ inner).result with
  | error e => rfl
  | ok content =>
    cases (Header.read front).result with
    | error e => rfl
    | ok header => cases (parse ⟨source, room + 1⟩ rest).result <;> rfl

theorem parse_append_block_nested :
    Flat [⟨.word, "a", 0, ⟨none, ""⟩⟩] ∧
      Balanced [⟨.word, "b", 2, ⟨none, ""⟩⟩, ⟨.braceOpen, "\x7b", 3, ⟨none, ""⟩⟩,
        ⟨.braceClose, "\x7d", 4, ⟨none, ""⟩⟩, ⟨.word, "c", 5, ⟨none, ""⟩⟩,
        ⟨.semicolon, ";", 6, ⟨none, ""⟩⟩] ∧
      (parse ⟨none, 2⟩ ([⟨.word, "a", 0, ⟨none, ""⟩⟩] ++ [⟨.braceOpen, "\x7b", 1, ⟨none, ""⟩⟩] ++
        [⟨.word, "b", 2, ⟨none, ""⟩⟩, ⟨.braceOpen, "\x7b", 3, ⟨none, ""⟩⟩,
          ⟨.braceClose, "\x7d", 4, ⟨none, ""⟩⟩, ⟨.word, "c", 5, ⟨none, ""⟩⟩,
          ⟨.semicolon, ";", 6, ⟨none, ""⟩⟩] ++ [⟨.braceClose, "\x7d", 7, ⟨none, ""⟩⟩] ++
        [⟨.word, "d", 8, ⟨none, ""⟩⟩, ⟨.semicolon, ";", 9, ⟨none, ""⟩⟩])).result =
        .ok [.block (.selectors ["a"])
          [.block (.selectors ["b"]) [] ⟨2, 5⟩, .statement "c" [] ⟨5, 7⟩] ⟨0, 8⟩,
          .statement "d" [] ⟨8, 10⟩] := by
  refine ⟨by decide, by decide, ?_⟩
  exact (parse_append_block ⟨none, 2⟩ (by decide) (by decide) rfl (by decide) rfl).trans (by cbv)

end RuleTree
