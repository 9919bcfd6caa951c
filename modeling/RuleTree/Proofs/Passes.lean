import Mathlib.Tactic
import RuleTree.Parser
import RuleTree.Success
import RuleTree.Proofs.Segments

/-! What a range gives, one node at a time. A pass tries blocks, an at-rule and a statement in
turn; to go on with new passes where any of the three stops gives the same as the whole pass. So
each node is followed by what the tokens behind it would give on their own. -/
namespace RuleTree.Parser
open Braces

/-- A step leaves an end of the range, and it reads tokens or does nothing at all. -/
structure Advances (w : Window) (x : List Node × Window) : Prop where
  suffix : x.2.rest <:+ w.rest
  progress : x.2.rest.length < w.rest.length ∨ x = ([], w)

theorem Advances.refl (w : Window) : Advances w ([], w) := ⟨List.suffix_rfl, .inr rfl⟩

theorem Advances.advance {w : Window} (nodes : List Node) {n : Nat} (hn : 0 < n)
    (hw : w.rest ≠ []) : Advances w (nodes, w.advance n) where
  suffix := List.drop_suffix ..
  progress := by
    have := List.length_pos_iff.mpr hw
    simp only [Window.advance_rest, List.length_drop]
    omega

theorem Advances.trans {w v u : Window} {found more : List Node} (h : Advances w (found, v))
    (k : Advances v (more, u)) : Advances w (found ++ more, u) where
  suffix := k.suffix.trans h.suffix
  progress := by
    rcases k.progress with hk | hk
    · left
      exact Nat.lt_of_lt_of_le hk h.suffix.length_le
    · obtain ⟨rfl, rfl⟩ := Prod.mk.inj hk
      rw [List.append_nil]
      exact h.progress

variable {inner : Inner} {w : Window}

theorem blocks_flat (h : Flat w.rest) : blocks inner w = pure ([], w) := by
  rw [blocks]
  split
  next => rfl
  next hd => simp [h.dropWhile_eq_nil] at hd

/-- The first block that is left, with whatever stands in front of its braces. -/
theorem blocks_split {front back : List Token} {brace : Token}
    (hw : w.rest = front ++ brace :: back) (hf : Flat front) (hb : brace.isBraceOpen) :
    blocks inner w = (do
      let close ← Run.of (Scan.matchingBrace w.rest front.length)
      let content ← inner brace w (w.inside (front.length + 1) close)
      let header ← Header.read front
      Run.note (.found (.block header content (w.span (close + 1))))
      (fun more => (.block header content (w.span (close + 1)) :: more.1, more.2)) <$>
        blocks inner (w.advance (close + 1))) := by
  have htake : w.rest.takeWhile (fun t => !t.isBraceOpen) = front := by
    rw [hw, hf.takeWhile_append hb]
  have hdrop : w.rest.dropWhile (fun t => !t.isBraceOpen) = brace :: back := by
    rw [hw, hf.dropWhile_append hb]
  rw [blocks]
  split
  next hd => simp [hdrop] at hd
  next hd =>
    obtain ⟨rfl, rfl⟩ := List.cons.inj (hdrop.symm.trans hd)
    simp only [htake]

theorem blocks_result_flat (h : Flat w.rest) : (blocks inner w).result = .ok ([], w) := by
  rw [blocks_flat h, Run.pure_result]

theorem blocks_result_split {front back : List Token} {brace : Token}
    (hw : w.rest = front ++ brace :: back) (hf : Flat front) (hb : brace.isBraceOpen) :
    (blocks inner w).result = (do
      let close ← Scan.matchingBrace w.rest front.length
      let content ← (inner brace w (w.inside (front.length + 1) close)).result
      let header ← (Header.read front).result
      (fun more => (.block header content (w.span (close + 1)) :: more.1, more.2)) <$>
        (blocks inner (w.advance (close + 1))).result) := by
  rw [blocks_split hw hf hb]
  simp only [Run.bind_result, Run.of_result, Run.map_result, Run.note_result, ok_bind]
  rfl

theorem blocks_advances {x : List Node × Window} (h : (blocks inner w).result = .ok x) :
    Advances w x ∧ Flat x.2.rest := by
  induction hn : w.rest.length using Nat.strong_induction_on generalizing w x with
  | _ n ih =>
    rcases flat_or_split w.rest with hf | ⟨front, brace, back, hw, hf, hb⟩
    · rw [blocks_result_flat hf] at h
      cases h
      exact ⟨.refl w, hf⟩
    rw [blocks_result_split hw hf hb] at h
    obtain ⟨close, -, h⟩ := bind_eq_ok_iff.mp h
    obtain ⟨content, -, h⟩ := bind_eq_ok_iff.mp h
    obtain ⟨header, -, h⟩ := bind_eq_ok_iff.mp h
    obtain ⟨⟨more, v⟩, hv, rfl⟩ := map_eq_ok_iff.mp h
    have hne : w.rest ≠ [] := by simp [hw]
    have hlt : (w.advance (close + 1)).rest.length < n := hn ▸ advance_rest_lt hne
    obtain ⟨hadv, hflat⟩ := ih _ hlt hv rfl
    exact ⟨(Advances.advance [_] (Nat.succ_pos close) hne).trans hadv, hflat⟩

theorem takeAtRule_result (h : AtRule.begins w.rest) :
    (takeAtRule w).result = (AtRule.read w.rest).map fun rule =>
      ([.atRule rule.tokens (w.span rule.size)], w.advance rule.size) := by
  simp only [takeAtRule, h, Run.bind_result, Run.note_result, Run.of_result, Run.pure_result,
    ok_bind, if_true]
  cases AtRule.read w.rest <;> rfl

theorem takeAtRule_result_decline (h : AtRule.begins w.rest = false) :
    (takeAtRule w).result = .ok ([], w) := by
  simp [takeAtRule, h]

theorem takeAtRule_advances {x : List Node × Window} (hf : Flat w.rest)
    (h : (takeAtRule w).result = .ok x) : Advances w x := by
  cases hb : AtRule.begins w.rest with
  | false =>
    rw [takeAtRule_result_decline hb] at h
    cases h
    exact .refl w
  | true =>
    rw [takeAtRule_result hb] at h
    obtain ⟨rule, hr, rfl⟩ := map_eq_ok_iff.mp h
    obtain ⟨body, last, rest, hw, -, -, rfl⟩ := AtRule.exists_of_read hf hr
    exact .advance _ (Nat.succ_pos _) (by simp [hw])

theorem takeStatement_result_nil (hw : w.rest = []) : (takeStatement w).result = .ok ([], w) := by
  simp [takeStatement, hw]

theorem takeStatement_result_trailing {t : Token} (hw : w.rest = [t]) (ht : t.isDelimiter) :
    (takeStatement w).result = .ok ([], w.advance 1) := by
  simp [takeStatement, hw, ht]

theorem takeStatement_result {front : Token} {more : List Token} (hw : w.rest = front :: more)
    (hl : ¬ (more = [] ∧ front.isDelimiter)) (hb : Statement.beginsWith front) :
    (takeStatement w).result = (Statement.read w.rest).map fun s =>
      ([.statement s.property s.value (w.span s.size)], w.advance s.size) := by
  have hl : ¬ (more.isEmpty && front.isDelimiter) := by simpa using hl
  simp only [takeStatement, hw, hl, hb, Run.bind_result, Run.note_result, ok_bind, if_true]
  cases Statement.read (front :: more) <;> rfl

theorem takeStatement_result_decline {front : Token} {more : List Token}
    (hw : w.rest = front :: more) (hl : ¬ (more = [] ∧ front.isDelimiter))
    (hb : Statement.beginsWith front = false) : (takeStatement w).result = .ok ([], w) := by
  have hl : ¬ (more.isEmpty && front.isDelimiter) := by simpa using hl
  simp [takeStatement, hw, hl, hb]

theorem takeStatement_advances {x : List Node × Window} (hf : Flat w.rest)
    (h : (takeStatement w).result = .ok x) : Advances w x := by
  cases hw : w.rest with
  | nil =>
    rw [takeStatement_result_nil hw] at h
    cases h
    exact .refl w
  | cons front more =>
    have hne : w.rest ≠ [] := by simp [hw]
    by_cases hl : more = [] ∧ front.isDelimiter
    · rw [takeStatement_result_trailing (hl.1 ▸ hw) hl.2] at h
      cases h
      exact .advance _ Nat.one_pos hne
    cases hb : Statement.beginsWith front with
    | false =>
      rw [takeStatement_result_decline hw hl hb] at h
      cases h
      exact .refl w
    | true =>
      rw [takeStatement_result hw hl hb] at h
      obtain ⟨s, hs, rfl⟩ := map_eq_ok_iff.mp h
      obtain ⟨body, last, rest, property, value, -, -, -, rfl⟩ := Statement.exists_of_read hf hs
      exact .advance _ (Nat.succ_pos _) hne

theorem takeBlocks_result : (takeBlocks inner w).result = (blocks inner w).result := by
  simp [takeBlocks]

theorem andThen_result (x : Step) (f : Window → Step) :
    (andThen x f).result = x.result >>= fun y =>
      if y.2.rest.isEmpty then .ok y
      else (f y.2).result.map fun more => (y.1 ++ more.1, more.2) := by
  simp only [andThen, Run.bind_result]
  congr 1
  funext y
  split <;> rfl

/-- A step that goes on in a second one advances if both do. -/
theorem andThen_advances {x : Step} {f : Window → Step} {z : List Node × Window}
    (hx : ∀ y, x.result = .ok y → Advances w y ∧ Flat y.2.rest)
    (hf : ∀ v, Flat v.rest → ∀ y, (f v).result = .ok y → Advances v y)
    (h : (andThen x f).result = .ok z) : Advances w z ∧ Flat z.2.rest := by
  rw [andThen_result] at h
  obtain ⟨⟨found, v⟩, hy, h⟩ := bind_eq_ok_iff.mp h
  obtain ⟨hadv, hflat⟩ := hx _ hy
  split at h
  · cases h
    exact ⟨hadv, hflat⟩
  · obtain ⟨⟨more, u⟩, hm, rfl⟩ := map_eq_ok_iff.mp h
    have hk := hf v hflat _ hm
    exact ⟨hadv.trans hk, hflat.of_suffix hk.suffix⟩

theorem takeBlocks_advances {x : List Node × Window} (h : (takeBlocks inner w).result = .ok x) :
    Advances w x ∧ Flat x.2.rest := blocks_advances (takeBlocks_result ▸ h)

theorem takeBlocksAtRule_advances {x : List Node × Window}
    (h : (andThen (takeBlocks inner w) takeAtRule).result = .ok x) :
    Advances w x ∧ Flat x.2.rest :=
  andThen_advances (fun _ => takeBlocks_advances) (fun _ hv _ => takeAtRule_advances hv) h

theorem pass_result : (pass inner w).result =
    (andThen (andThen (takeBlocks inner w) takeAtRule) takeStatement).result := by
  simp [pass]

theorem pass_advances {x : List Node × Window} (h : (pass inner w).result = .ok x) :
    Advances w x :=
  (andThen_advances (fun _ => takeBlocksAtRule_advances)
    (fun _ hv _ => takeStatement_advances hv) (pass_result ▸ h)).1

/-- New passes where a step stopped, behind the nodes that it found. -/
def resume (inner : Inner) (x : List Node × Window) : Except ParseError (List Node) :=
  (passes inner x.2).result.map (x.1 ++ ·)

theorem resume_append (found more : List Node) (v : Window) :
    resume inner (found ++ more, v) = (resume inner (more, v)).map (found ++ ·) := by
  simp only [resume]
  cases (passes inner v).result with
  | error e => rfl
  | ok nodes => simp [Except.map]

@[simp] theorem resume_nil (v : Window) : resume inner ([], v) = (passes inner v).result := by
  rw [resume]
  cases (passes inner v).result <;> rfl

theorem passes_result_nil (hw : w.rest = []) : (passes inner w).result = .ok [] := by
  rw [passes]
  split
  next => rfl
  next h => simp [hw] at h

/-- A pass and new passes behind it are what passes are; also a pass that reads nothing and is
stopped for it. -/
theorem pass_resume (hw : w.rest ≠ []) :
    (pass inner w).result >>= resume inner = (passes inner w).result := by
  cases hp : (pass inner w).result with
  | error e =>
    rw [passes]
    split
    next h => exact absurd h hw
    next => simp [hp]
  | ok x =>
    rcases (pass_advances hp).progress with hlt | rfl
    · rw [passes]
      split
      next h => exact absurd h hw
      next => simp [hp, hlt, resume]
    · rw [ok_bind, resume_nil]

/-- A second step changes nothing where new passes would do the same as it does. -/
theorem andThen_resume {x : Step} {f : Window → Step}
    (hf : ∀ y, x.result = .ok y → (f y.2).result >>= resume inner = (passes inner y.2).result) :
    (andThen x f).result >>= resume inner = x.result >>= resume inner := by
  rw [andThen_result]
  cases hx : x.result with
  | error e => rfl
  | ok y =>
    obtain ⟨found, v⟩ := y
    have hv := hf _ hx
    rw [ok_bind, ok_bind, resume, ← hv]
    split
    next he =>
      rw [ok_bind, resume, hv]
    next =>
      cases (f v).result with
      | error e => rfl
      | ok more => exact resume_append found more.1 more.2

theorem andThen_result_of_nothing {x : Step} {f : Window → Step} (hx : x.result = .ok ([], w))
    (hw : w.rest ≠ []) : (andThen x f).result = (f w).result := by
  rw [andThen_result, hx, ok_bind, if_neg (by simpa using hw)]
  cases (f w).result <;> rfl

theorem pass_result_flat (hf : Flat w.rest) (hw : w.rest ≠ []) :
    (pass inner w).result = (andThen (takeAtRule w) takeStatement).result := by
  have hx : (takeBlocks inner w).result = .ok ([], w) :=
    takeBlocks_result.trans (blocks_result_flat hf)
  rw [pass_result, andThen_result, andThen_result_of_nothing hx hw, ← andThen_result]

theorem takeStatement_resume (hf : Flat w.rest) :
    (takeStatement w).result >>= resume inner = (passes inner w).result := by
  cases hw : w.rest with
  | nil => rw [takeStatement_result_nil hw, ok_bind, resume_nil]
  | cons front more =>
    have hne : w.rest ≠ [] := by simp [hw]
    cases hb : AtRule.begins w.rest with
    | false =>
      rw [← pass_resume hne, pass_result_flat hf hne,
        andThen_result_of_nothing (takeAtRule_result_decline hb) hne]
    | true =>
      -- what begins an at-rule is left to the next pass
      have hmark : front.isAtSign := by
        rw [hw] at hb
        cases more with
        | nil => cases hb
        | cons name more => exact (Bool.and_eq_true_iff.mp hb).1
      have hl : ¬ (more = [] ∧ front.isDelimiter) := by
        have hd : front.isDelimiter = false := Token.kind_beq_of_ne hmark (by decide)
        simp [hd]
      rw [takeStatement_result_decline hw hl (by simp [Statement.beginsWith, hmark]), ok_bind,
        resume_nil]

theorem takeAtRule_resume (hf : Flat w.rest) :
    (takeAtRule w).result >>= resume inner = (passes inner w).result := by
  by_cases hw : w.rest = []
  · rw [takeAtRule_result_decline (by rw [hw]; rfl), ok_bind, resume_nil]
  · rw [← pass_resume hw, pass_result_flat hf hw, andThen_resume]
    intro y hy
    exact takeStatement_resume (hf.of_suffix (takeAtRule_advances hf hy).suffix)

theorem blocks_resume : (blocks inner w).result >>= resume inner = (passes inner w).result := by
  by_cases hw : w.rest = []
  · rw [blocks_result_flat (by simp [Flat, hw]), ok_bind, resume_nil]
  · rw [← pass_resume hw, pass_result, andThen_resume, andThen_resume, takeBlocks_result]
    · intro y hy
      exact takeAtRule_resume (takeBlocks_advances hy).2
    · intro y hy
      exact takeStatement_resume (takeBlocksAtRule_advances hy).2

/-- A range that holds a block gives the block and what the tokens behind it give. -/
theorem passes_result_split {front back : List Token} {brace : Token}
    (hw : w.rest = front ++ brace :: back) (hf : Flat front) (hb : brace.isBraceOpen) :
    (passes inner w).result = (do
      let close ← Scan.matchingBrace w.rest front.length
      let content ← (inner brace w (w.inside (front.length + 1) close)).result
      let header ← (Header.read front).result
      (passes inner (w.advance (close + 1))).result.map
        (.block header content (w.span (close + 1)) :: ·)) := by
  rw [← blocks_resume, blocks_result_split hw hf hb]
  simp only [bind_assoc, ← blocks_resume (w := w.advance _)]
  congr; funext close; congr; funext content; congr; funext header
  cases (blocks inner (w.advance (close + 1))).result with
  | error e => rfl
  | ok x => exact resume_append [_] x.1 x.2

/-- The same for a block whose closing brace is known. -/
theorem passes_result_block {front middle back : List Token} {brace close : Token}
    (hw : w.rest = front ++ brace :: (middle ++ close :: back)) (hf : Flat front)
    (hb : brace.isBraceOpen) (hm : Balanced middle) (hc : close.isBraceClose) :
    (passes inner w).result = (do
      let content ← (inner brace w
        (w.inside (front.length + 1) (front.length + 1 + middle.length))).result
      let header ← (Header.read front).result
      (passes inner (w.advance (front.length + 1 + middle.length + 1))).result.map
        (.block header content (w.span (front.length + 1 + middle.length + 1)) :: ·)) := by
  rw [passes_result_split hw hf hb, hw, matchingBrace_append front brace back hm hc]
  rfl

theorem advance_segment_rest {body back : List Token} {last : Token}
    (hw : w.rest = body ++ last :: back) : (w.advance (body.length + 1)).rest = back := by
  rw [Window.advance_rest, hw, drop_behind]

theorem inside_block_rest {front middle back : List Token} {brace close : Token}
    (hw : w.rest = front ++ brace :: (middle ++ close :: back)) :
    (w.inside (front.length + 1) (front.length + 1 + middle.length)).rest = middle := by
  change Span.tokens ⟨front.length + 1, front.length + 1 + middle.length⟩ w.rest = middle
  rw [hw, tokens_between]

theorem advance_block_rest {front middle back : List Token} {brace close : Token}
    (hw : w.rest = front ++ brace :: (middle ++ close :: back)) :
    (w.advance (front.length + 1 + middle.length + 1)).rest = back := by
  rw [Window.advance_rest, hw, drop_between]

theorem passes_result_atRule (hf : Flat w.rest) (hb : AtRule.begins w.rest) :
    (passes inner w).result = AtRule.read w.rest >>= fun rule =>
      (passes inner (w.advance rule.size)).result.map
        (.atRule rule.tokens (w.span rule.size) :: ·) := by
  rw [← takeAtRule_resume hf, takeAtRule_result hb]
  cases AtRule.read w.rest <;> rfl

theorem passes_result_trailing {t : Token} (hw : w.rest = [t]) (ht : t.isDelimiter) :
    (passes inner w).result = .ok [] := by
  have hf : Flat w.rest := by
    rw [hw]
    exact flat_of_isDelimiter ht
  rw [← takeStatement_resume hf, takeStatement_result_trailing hw ht, ok_bind, resume_nil,
    passes_result_nil (by simp [hw])]

theorem passes_result_statement {front : Token} {more : List Token} (hf : Flat w.rest)
    (hw : w.rest = front :: more) (hl : ¬ (more = [] ∧ front.isDelimiter))
    (hb : Statement.beginsWith front) :
    (passes inner w).result = Statement.read w.rest >>= fun s =>
      (passes inner (w.advance s.size)).result.map
        (.statement s.property s.value (w.span s.size) :: ·) := by
  rw [← takeStatement_resume hf, takeStatement_result hw hl hb]
  cases Statement.read w.rest <;> rfl

theorem passes_result_unknown {front : Token} {more : List Token} (hf : Flat w.rest)
    (hw : w.rest = front :: more) (hl : ¬ (more = [] ∧ front.isDelimiter))
    (ha : AtRule.begins w.rest = false) (hb : Statement.beginsWith front = false) :
    (passes inner w).result = .error (front.fault .unknownToken) := by
  have hp : (pass inner w).result = .ok ([], w) := by
    have hne : w.rest ≠ [] := by simp [hw]
    rw [pass_result_flat hf hne, andThen_result_of_nothing (takeAtRule_result_decline ha) hne,
      takeStatement_result_decline hw hl hb]
  rw [passes]
  split
  next h => simp [hw] at h
  next h =>
    obtain ⟨rfl, rfl⟩ := List.cons.inj (hw.symm.trans h)
    simp [hp]

/-- What the next tokens of a range are taken for. -/
inductive Next (ts : List Token) : Prop
  | nothing (hs : ts = [])
  | trailing (t : Token) (hs : ts = [t]) (ht : t.isDelimiter)
  | block (front : List Token) (brace : Token) (back : List Token)
      (hs : ts = front ++ brace :: back) (hf : Flat front) (hb : brace.isBraceOpen)
  | atRule (hf : Flat ts) (hb : AtRule.begins ts)
  | statement (front : Token) (more : List Token) (hf : Flat ts) (hs : ts = front :: more)
      (hl : ¬ (more = [] ∧ front.isDelimiter)) (hb : Statement.beginsWith front)
  | unknown (front : Token) (more : List Token) (hf : Flat ts) (hs : ts = front :: more)
      (hl : ¬ (more = [] ∧ front.isDelimiter)) (ha : AtRule.begins ts = false)
      (hb : Statement.beginsWith front = false)

theorem next (ts : List Token) : Next ts := by
  rcases flat_or_split ts with hf | ⟨front, brace, back, hs, hf, hb⟩
  · cases hs : ts with
    | nil => exact .nothing rfl
    | cons front more =>
      rw [← hs]
      by_cases hl : more = [] ∧ front.isDelimiter
      · exact .trailing front (by rw [hs, hl.1]) hl.2
      cases ha : AtRule.begins ts with
      | true => exact .atRule hf ha
      | false =>
        cases hb : Statement.beginsWith front with
        | true => exact .statement front more hf hs hl hb
        | false => exact .unknown front more hf hs hl ha hb
  · exact .block front brace back hs hf hb

end RuleTree.Parser
