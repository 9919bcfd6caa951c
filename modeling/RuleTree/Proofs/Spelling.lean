import Mathlib.Tactic
import RuleTree.Proofs.Headers
import RuleTree.Proofs.Shift

/-! Token lists beside the nodes that they spell. Reading a range succeeds with exactly the nodes
that its tokens spell there. -/
namespace RuleTree
open Braces

/-- The tokens, of which the first stands at `p`, spell the nodes; blocks are nested at most
`room` deep. -/
inductive Spells : (room p : Nat) → List Token → List Node → Prop
  | nothing {room p : Nat} : Spells room p [] []
  | trailing {room p : Nat} {t : Token} (ht : t.isDelimiter) : Spells room p [t] []
  | atRule {room p : Nat} {body rest : List Token} {last : Token} {nodes : List Node}
      (hf : Flat (body ++ last :: rest)) (he : Ends body last) (hb : AtRule.Body body)
      (more : Spells room (p + (body.length + 1)) rest nodes) :
      Spells room p (body ++ last :: rest)
        (.atRule (Scan.significant (body ++ [last])) ⟨p, p + (body.length + 1)⟩ :: nodes)
  | statement {room p : Nat} {body value rest : List Token} {property last : Token}
      {nodes : List Node} (hf : Flat (body ++ last :: rest)) (he : Ends body last)
      (hb : Statement.Body body) (hs : Scan.significant body = property :: value)
      (more : Spells room (p + (body.length + 1)) rest nodes) :
      Spells room p (body ++ last :: rest)
        (.statement property.text (value.drop 1) ⟨p, p + (body.length + 1)⟩ :: nodes)
  | block {room p : Nat} {front inner rest : List Token} {brace close : Token} {header : Header}
      {content nodes : List Node} (hf : Flat front) (hb : brace.isBraceOpen)
      (hi : Balanced inner) (hc : close.isBraceClose) (hh : header.Matches front)
      (body : Spells room (p + (front.length + 1)) inner content)
      (more : Spells (room + 1) (p + (front.length + 1 + inner.length + 1)) rest nodes) :
      Spells (room + 1) p (front ++ brace :: (inner ++ close :: rest))
        (.block header content ⟨p, p + (front.length + 1 + inner.length + 1)⟩ :: nodes)

theorem AtRule.Body.begins {body : List Token} (hb : AtRule.Body body) (rest : List Token) :
    AtRule.begins (body ++ rest) := by
  obtain @⟨mark, name, gap, value, hmark, hname, -, -⟩ := hb
  simp [AtRule.begins, hmark, hname]

theorem Statement.Body.beginsWith {t : Token} {body : List Token} (hb : Statement.Body (t :: body))
    (hf : t.isBraceOpen = false) : Statement.beginsWith t := by
  have := hb.front t (by simp)
  simp [Statement.beginsWith, hf, this.1, this.2]

theorem Statement.body_of_beginsWith {t property : Token} {body value : List Token}
    (hb : Statement.beginsWith t) (hs : Scan.significant body = property :: value)
    (ht : t ∈ body.head?) : Statement.Body body where
  front u hu := by
    obtain rfl := Option.mem_unique ht hu
    simp only [Statement.beginsWith, Bool.not_eq_true', Bool.or_eq_false_iff] at hb
    exact ⟨hb.1.1, hb.2⟩
  content := by
    have : property ∈ Scan.significant body := by simp [hs]
    exact ⟨property, by simpa [Scan.significant] using this⟩

namespace Parser

variable {inner : Inner} {room depth : Nat} {outer : Option Window} {w : Window}
  {nodes : List Node}

theorem spells_of_passes
    (hi : ∀ brace around v content, (inner brace around v).result = .ok content →
      ∃ deeper, room = deeper + 1 ∧ Spells deeper v.position v.rest content)
    (h : (passes inner w).result = .ok nodes) : Spells room w.position w.rest nodes := by
  -- on the tokens that are left: every node takes some of them
  induction hn : w.rest.length using Nat.strong_induction_on generalizing w nodes with
  | _ n ih =>
    cases next w.rest with
    | nothing hs =>
      rw [passes_result_nil hs] at h
      cases h
      exact hs ▸ .nothing
    | trailing t hs ht =>
      rw [passes_result_trailing hs ht] at h
      cases h
      exact hs ▸ .trailing ht
    | block front brace back hs hf hb =>
      rw [passes_result_split hs hf hb] at h
      obtain ⟨close, hclose, h⟩ := bind_eq_ok_iff.mp h
      obtain ⟨content, hcontent, h⟩ := bind_eq_ok_iff.mp h
      obtain ⟨header, hheader, h⟩ := bind_eq_ok_iff.mp h
      obtain ⟨more, hmore, rfl⟩ := map_eq_ok_iff.mp h
      rw [hs] at hclose
      obtain ⟨middle, last, rest, rfl, rfl, hc, hm⟩ := exists_of_matchingBrace hclose
      obtain ⟨deeper, rfl, hbody⟩ := hi _ _ _ _ hcontent
      have hrest := ih _ (by rw [advance_block_rest hs, ← hn, hs]; simp; omega) hmore rfl
      rw [inside_block_rest hs] at hbody
      rw [advance_block_rest hs] at hrest
      rw [hs]
      exact .block hf hb hm hc (Header.read_result_iff.mp hheader) hbody hrest
    | atRule hf hb =>
      rw [passes_result_atRule hf hb] at h
      obtain ⟨rule, hrule, h⟩ := bind_eq_ok_iff.mp h
      obtain ⟨more, hmore, rfl⟩ := map_eq_ok_iff.mp h
      obtain ⟨body, last, rest, hs, he, hbody, rfl⟩ := AtRule.exists_of_read hf hrule
      have hrest := ih _ (by rw [advance_segment_rest hs, ← hn, hs]; simp; omega) hmore rfl
      rw [advance_segment_rest hs] at hrest
      rw [hs] at hf ⊢
      exact .atRule hf he hbody hrest
    | statement front more hf hs hl hb =>
      rw [passes_result_statement hf hs hl hb] at h
      obtain ⟨statement, hread, h⟩ := bind_eq_ok_iff.mp h
      obtain ⟨found, hfound, rfl⟩ := map_eq_ok_iff.mp h
      obtain ⟨body, last, rest, property, value, hts, he, hsig, rfl⟩ :=
        Statement.exists_of_read hf hread
      have hfront : front ∈ body.head? := by
        cases body with
        | nil => cases hsig
        | cons t body => simp [(List.cons.inj (hs.symm.trans hts)).1]
      have hrest := ih _ (by rw [advance_segment_rest hts, ← hn, hts]; simp; omega) hfound rfl
      rw [advance_segment_rest hts] at hrest
      rw [hts] at hf ⊢
      exact .statement hf he (Statement.body_of_beginsWith hb hsig hfront) hsig hrest
    | unknown front more hf hs hl ha hb =>
      rw [passes_result_unknown hf hs hl ha hb] at h
      cases h

theorem spells_of_range (h : (range room depth outer w).result = .ok nodes) :
    Spells room w.position w.rest nodes := by
  induction room generalizing depth outer w nodes with
  | zero =>
    rw [range_result_zero] at h
    refine spells_of_passes (fun brace around v content hc => ?_) h
    cases hc
  | succ room ih =>
    rw [range_result_succ] at h
    exact spells_of_passes (fun brace around v content hc => ⟨room, rfl, ih hc⟩) h

/-- A range is read in passes, whatever its blocks may hold. -/
theorem range_result_eq_passes (room depth : Nat) :
    ∃ inner, ∀ outer w, (range room depth outer w).result = (passes inner w).result := by
  cases room with
  | zero => exact ⟨_, fun outer w => range_result_zero depth outer w⟩
  | succ room => exact ⟨_, fun outer w => range_result_succ room depth outer w⟩

theorem advance_segment (start p : Nat) (body rest : List Token) (last : Token) :
    (Window.mk start p (body ++ last :: rest)).advance (body.length + 1) =
      ⟨start, p + (body.length + 1), rest⟩ :=
  congrArg (Window.mk _ _) (advance_segment_rest rfl)

section
variable (start p : Nat) (front inner rest : List Token) (brace close : Token)

theorem inside_block :
    (Window.mk start p (front ++ brace :: (inner ++ close :: rest))).inside (front.length + 1)
      (front.length + 1 + inner.length) = ⟨p + (front.length + 1), p + (front.length + 1), inner⟩ :=
  congrArg (Window.mk _ _) (inside_block_rest rfl)

theorem advance_block :
    (Window.mk start p (front ++ brace :: (inner ++ close :: rest))).advance
      (front.length + 1 + inner.length + 1) =
        ⟨start, p + (front.length + 1 + inner.length + 1), rest⟩ :=
  congrArg (Window.mk _ _) (advance_block_rest rfl)

end

section
variable {start p : Nat} {body front middle rest : List Token} {last brace close : Token}

/-- An at-rule in front is the first node, and reading goes on behind it. -/
theorem range_result_atRule (hf : Flat (body ++ last :: rest)) (he : Ends body last)
    (hb : AtRule.Body body) :
    (range room depth outer ⟨start, p, body ++ last :: rest⟩).result =
      (range room depth outer ⟨start, p + (body.length + 1), rest⟩).result.map
        (.atRule (Scan.significant (body ++ [last])) ⟨p, p + (body.length + 1)⟩ :: ·) := by
  obtain ⟨inner, hr⟩ := range_result_eq_passes room depth
  rw [hr, passes_result_atRule hf (hb.begins _),
    AtRule.read_append rest (flat_append.mp hf).1 he hb, ok_bind, advance_segment, ← hr outer]
  rfl

/-- A statement in front is the first node, and reading goes on behind it. -/
theorem range_result_statement {property : Token} {value : List Token}
    (hf : Flat (body ++ last :: rest)) (he : Ends body last) (hb : Statement.Body body)
    (hs : Scan.significant body = property :: value) :
    (range room depth outer ⟨start, p, body ++ last :: rest⟩).result =
      (range room depth outer ⟨start, p + (body.length + 1), rest⟩).result.map
        (.statement property.text (value.drop 1) ⟨p, p + (body.length + 1)⟩ :: ·) := by
  obtain ⟨inner, hr⟩ := range_result_eq_passes room depth
  cases body with
  | nil => cases hs
  | cons t body =>
    have hbegins := hb.beginsWith (hf t (by simp))
    rw [hr, passes_result_statement hf rfl (by simp) hbegins,
      Statement.read_append rest (flat_append.mp hf).1 he hs, ok_bind, advance_segment,
      ← hr outer]
    rfl

/-- A block in front of which nothing is a block is the first node, if its content and its header
can be read, and reading goes on behind it. -/
theorem range_result_block (hf : Flat front) (hb : brace.isBraceOpen) (hi : Balanced middle)
    (hc : close.isBraceClose) :
    (range (room + 1) depth outer
        ⟨start, p, front ++ brace :: (middle ++ close :: rest)⟩).result = (do
      let content ← (range room (depth + 1)
        (some ⟨start, p, front ++ brace :: (middle ++ close :: rest)⟩)
        ⟨p + (front.length + 1), p + (front.length + 1), middle⟩).result
      let header ← (Header.read front).result
      (range (room + 1) depth outer
        ⟨start, p + (front.length + 1 + middle.length + 1), rest⟩).result.map
          (.block header content ⟨p, p + (front.length + 1 + middle.length + 1)⟩ :: ·)) := by
  rw [range_result_succ, passes_result_block rfl hf hb hi hc, inside_block, advance_block,
    ← range_result_succ room depth outer]
  rfl

end

theorem range_of_spells {start p : Nat} {ts : List Token} (h : Spells room p ts nodes) :
    (range room depth outer ⟨start, p, ts⟩).result = .ok nodes := by
  induction h generalizing start depth outer with
  | @nothing room p =>
    obtain ⟨inner, hr⟩ := range_result_eq_passes room depth
    rw [hr, passes_result_nil rfl]
  | @trailing room p t ht =>
    obtain ⟨inner, hr⟩ := range_result_eq_passes room depth
    rw [hr, passes_result_trailing rfl ht]
  | atRule hf he hb more ih =>
    rw [range_result_atRule hf he hb, ih]
    rfl
  | statement hf he hb hs more ih =>
    rw [range_result_statement hf he hb hs, ih]
    rfl
  | block hf hb hi hc hh body more ihb ihm =>
    rw [range_result_block hf hb hi hc, ihb, ok_bind, Header.read_result_iff.mpr hh, ok_bind, ihm]
    rfl

end Parser

theorem parse_ok_iff {config : Config} {ts : List Token} {nodes : List Node} :
    (parse config ts).result = .ok nodes ↔ Spells config.maxDepth 0 ts nodes := by
  rw [parse_result]
  exact ⟨Parser.spells_of_range, Parser.range_of_spells⟩

end RuleTree
