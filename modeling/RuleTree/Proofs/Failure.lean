import Mathlib.Tactic
import RuleTree.Proofs.Grammar

/-! Token lists beside the error that ends their reading. Reading a range fails with exactly the
errors that its tokens fail with, so what is said about errors can be shown on token lists. -/
namespace RuleTree
open Braces

/-- Reading the tokens ends with the error; blocks may be nested `room` deep. There is one rule for
each place that raises an error and one for each way in which an error is passed on. -/
inductive Fails : (room : Nat) → List Token → ParseError → Prop
  | unmatched {room : Nat} {front back : List Token} {brace : Token} {e : ParseError}
      (hf : Flat front) (hb : brace.isBraceOpen)
      (hm : Scan.matchingBrace (front ++ brace :: back) front.length = .error e) :
      Fails room (front ++ brace :: back) e
  | tooDeep {front inner rest : List Token} {brace close : Token} (hf : Flat front)
      (hb : brace.isBraceOpen) (hi : Balanced inner) (hc : close.isBraceClose) :
      Fails 0 (front ++ brace :: (inner ++ close :: rest)) (brace.fault .nestingTooDeep)
  | content {room : Nat} {front inner rest : List Token} {brace close : Token} {e : ParseError}
      (hf : Flat front) (hb : brace.isBraceOpen) (hi : Balanced inner) (hc : close.isBraceClose)
      (body : Fails room inner e) :
      Fails (room + 1) (front ++ brace :: (inner ++ close :: rest)) e
  | header {room : Nat} {front inner rest : List Token} {brace close : Token} {e : ParseError}
      (hf : Flat front) (hb : brace.isBraceOpen) (hi : Balanced inner) (hc : close.isBraceClose)
      (body : Sheet room inner) (hh : (Header.read front).result = .error e) :
      Fails (room + 1) (front ++ brace :: (inner ++ close :: rest)) e
  | behindBlock {room : Nat} {front inner rest : List Token} {brace close : Token}
      {e : ParseError} (hf : Flat front) (hb : brace.isBraceOpen) (hi : Balanced inner)
      (hc : close.isBraceClose) (body : Sheet room inner) (hn : Header.Named front)
      (more : Fails (room + 1) rest e) :
      Fails (room + 1) (front ++ brace :: (inner ++ close :: rest)) e
  | atRule {room : Nat} {ts : List Token} {e : ParseError} (hf : Flat ts)
      (hb : AtRule.begins ts) (hr : AtRule.read ts = .error e) : Fails room ts e
  | statement {room : Nat} {first : Token} {more : List Token} {e : ParseError}
      (hf : Flat (first :: more)) (hl : ¬ (more = [] ∧ first.isDelimiter))
      (hb : Statement.beginsWith first) (hr : Statement.read (first :: more) = .error e) :
      Fails room (first :: more) e
  | behindSegment {room : Nat} {segment rest : List Token} {e : ParseError}
      (hf : Flat (segment ++ rest)) (hs : Segment segment) (more : Fails room rest e) :
      Fails room (segment ++ rest) e
  | unknown {room : Nat} {first : Token} {more : List Token} (hf : Flat (first :: more))
      (hl : ¬ (more = [] ∧ first.isDelimiter)) (ha : AtRule.begins (first :: more) = false)
      (hb : Statement.beginsWith first = false) :
      Fails room (first :: more) (first.fault .unknownToken)

namespace Parser

variable {inner : Inner} {room depth : Nat} {outer : Option Window} {w : Window}
  {e : ParseError}

theorem fails_of_passes
    (hfail : ∀ brace around v e, (inner brace around v).result = .error e →
      (room = 0 ∧ e = brace.fault .nestingTooDeep) ∨
        ∃ deeper, room = deeper + 1 ∧ Fails deeper v.rest e)
    (hok : ∀ brace around v content, (inner brace around v).result = .ok content →
      ∃ deeper, room = deeper + 1 ∧ Sheet deeper v.rest)
    (h : (passes inner w).result = .error e) : Fails room w.rest e := by
  -- on the tokens that are left, as for the nodes of a reading that succeeds
  induction hn : w.rest.length using Nat.strong_induction_on generalizing w with
  | _ n ih =>
    cases next w.rest with
    | nothing hs =>
      rw [passes_result_nil hs] at h
      cases h
    | trailing t hs ht =>
      rw [passes_result_trailing hs ht] at h
      cases h
    | block front brace back hs hf hb =>
      rw [passes_result_split hs hf hb] at h
      rcases bind_eq_error_iff.mp h with hm | ⟨close, hclose, h⟩
      · rw [hs] at hm ⊢
        exact .unmatched hf hb hm
      rw [hs] at hclose
      obtain ⟨middle, last, rest, rfl, rfl, hc, hi⟩ := exists_of_matchingBrace hclose
      have hinside := inside_block_rest hs
      rcases bind_eq_error_iff.mp h with hcontent | ⟨content, hcontent, h⟩
      · rcases hfail _ _ _ _ hcontent with ⟨rfl, rfl⟩ | ⟨deeper, rfl, hbody⟩
        · rw [hs]
          exact .tooDeep hf hb hi hc
        · rw [hinside] at hbody
          rw [hs]
          exact .content hf hb hi hc hbody
      obtain ⟨deeper, rfl, hbody⟩ := hok _ _ _ _ hcontent
      rw [hinside] at hbody
      rcases bind_eq_error_iff.mp h with hheader | ⟨header, hheader, h⟩
      · rw [hs]
        exact .header hf hb hi hc hbody hheader
      · have hnamed := Header.exists_matches_iff.mp ⟨header, Header.read_result_iff.mp hheader⟩
        have hmore := ih _ (by rw [advance_block_rest hs, ← hn, hs]; simp; omega)
          (map_eq_error_iff.mp h) rfl
        rw [advance_block_rest hs] at hmore
        rw [hs]
        exact .behindBlock hf hb hi hc hbody hnamed hmore
    | atRule hf hb =>
      rw [passes_result_atRule hf hb] at h
      rcases bind_eq_error_iff.mp h with hr | ⟨rule, hrule, h⟩
      · exact .atRule hf hb hr
      obtain ⟨body, last, rest, hs, he, hbody, rfl⟩ := AtRule.exists_of_read hf hrule
      have hmore := ih _ (by rw [advance_segment_rest hs, ← hn, hs]; simp; omega)
        (map_eq_error_iff.mp h) rfl
      rw [advance_segment_rest hs] at hmore
      rw [hs, List.append_cons body last rest] at hf ⊢
      exact .behindSegment hf (.atRule he hbody) hmore
    | statement front more hf hs hl hb =>
      rw [passes_result_statement hf hs hl hb] at h
      rcases bind_eq_error_iff.mp h with hr | ⟨statement, hread, h⟩
      · rw [hs] at hf hr ⊢
        exact .statement hf hl hb hr
      obtain ⟨body, last, rest, property, value, hts, he, hsig, rfl⟩ :=
        Statement.exists_of_read hf hread
      have hfront : front ∈ body.head? := by
        cases body with
        | nil => cases hsig
        | cons t body => simp [(List.cons.inj (hs.symm.trans hts)).1]
      have hmore := ih _ (by rw [advance_segment_rest hts, ← hn, hts]; simp; omega)
        (map_eq_error_iff.mp h) rfl
      rw [advance_segment_rest hts] at hmore
      rw [hts, List.append_cons body last rest] at hf ⊢
      exact .behindSegment hf (.statement he (Statement.body_of_beginsWith hb hsig hfront)) hmore
    | unknown front more hf hs hl ha hb =>
      rw [passes_result_unknown hf hs hl ha hb] at h
      cases h
      rw [hs] at hf ha ⊢
      exact .unknown hf hl ha hb

theorem fails_of_range (h : (range room depth outer w).result = .error e) :
    Fails room w.rest e := by
  induction room generalizing depth outer w e with
  | zero =>
    rw [range_result_zero] at h
    apply fails_of_passes _ _ h
    · rintro brace around v e hfail
      cases hfail
      exact .inl ⟨rfl, rfl⟩
    · intro brace around v content hok
      cases hok
  | succ room ih =>
    rw [range_result_succ] at h
    apply fails_of_passes _ _ h
    · intro brace around v e hfail
      exact .inr ⟨room, rfl, ih hfail⟩
    · intro brace around v content hok
      exact ⟨room, rfl, (spells_of_range hok).sheet⟩

/-- Behind a segment that can be read, reading goes on with the tokens that follow it. -/
theorem range_result_segment (room depth : Nat) (outer : Option Window) (start p : Nat)
    {segment rest : List Token} (hf : Flat (segment ++ rest)) (hs : Segment segment) :
    ∃ node, (range room depth outer ⟨start, p, segment ++ rest⟩).result =
      (range room depth outer ⟨start, p + segment.length, rest⟩).result.map (node :: ·) := by
  cases hs with
  | @atRule body last he hb =>
    rw [List.append_assoc, List.singleton_append] at hf ⊢
    rw [List.length_append]
    exact ⟨_, range_result_atRule hf he hb⟩
  | @statement body last he hb =>
    obtain ⟨property, value, hsig⟩ := hb.exists_significant
    rw [List.append_assoc, List.singleton_append] at hf ⊢
    rw [List.length_append]
    exact ⟨_, range_result_statement hf he hb hsig⟩

theorem range_of_fails {start p : Nat} {ts : List Token} (h : Fails room ts e) :
    (range room depth outer ⟨start, p, ts⟩).result = .error e := by
  induction h generalizing start p depth outer with
  | @unmatched room front back brace e hf hb hm =>
    obtain ⟨inner, hr⟩ := range_result_eq_passes room depth
    rw [hr, passes_result_split rfl hf hb, hm, error_bind]
  | tooDeep hf hb hi hc =>
    rw [range_result_zero, passes_result_block rfl hf hb hi hc]
    rfl
  | @content room front inner rest brace close e hf hb hi hc body ih =>
    rw [range_result_block hf hb hi hc, ih, error_bind]
  | @header room front inner rest brace close e hf hb hi hc body hh =>
    obtain ⟨content, hspells⟩ := body.spells (p + (front.length + 1))
    rw [range_result_block hf hb hi hc, range_of_spells hspells, hh, ok_bind, error_bind]
  | @behindBlock room front inner rest brace close e hf hb hi hc body hn more ih =>
    obtain ⟨content, hspells⟩ := body.spells (p + (front.length + 1))
    obtain ⟨header, hheader⟩ := Header.exists_matches_iff.mpr hn
    rw [range_result_block hf hb hi hc, range_of_spells hspells, ok_bind,
      Header.read_result_iff.mpr hheader, ok_bind, ih]
    rfl
  | @atRule room ts e hf hb hr =>
    obtain ⟨inner, hr'⟩ := range_result_eq_passes room depth
    rw [hr', passes_result_atRule hf hb, hr, error_bind]
  | @statement room first more e hf hl hb hr =>
    obtain ⟨inner, hr'⟩ := range_result_eq_passes room depth
    rw [hr', passes_result_statement hf rfl hl hb, hr, error_bind]
  | @behindSegment room segment rest e hf hs more ih =>
    obtain ⟨node, hnode⟩ := range_result_segment room depth outer start p hf hs
    rw [hnode, ih]
    rfl
  | @unknown room first more hf hl ha hb =>
    obtain ⟨inner, hr⟩ := range_result_eq_passes room depth
    rw [hr, passes_result_unknown hf rfl hl ha hb]

end Parser

theorem parse_error_iff {config : Config} {ts : List Token} {e : ParseError} :
    (parse config ts).result = .error e ↔ Fails config.maxDepth ts e := by
  rw [parse_result]
  exact ⟨Parser.fails_of_range, Parser.range_of_fails⟩

end RuleTree
