import Mathlib
import RuleTree.Proofs.Cursors
import RuleTree.Proofs.Passes
import RuleTree.Proofs.Faults

/-! The parser by positions is the parser. No look into a list is outside of it and no move leaves
its range, so the run by positions never breaks off; what happens in it, and its result, is the
same. -/
namespace RuleTree
open Braces

namespace Scan

theorem statementLength?_singleton {t : Token} (ht : t.isSemicolon = false) :
    statementLength? [t] = none := by
  simp [statementLength?.eq_def, ht]

theorem statementLength?_cons_brace {t u : Token} (us : List Token) (ht : t.isSemicolon = false)
    (hu : u.isBraceOpen) : statementLength? (t :: u :: us) = some 1 := by
  simp [statementLength?.eq_def, ht, hu]

/-- A segment that takes all tokens ends with a semicolon. -/
theorem semicolon_of_statementLength? {ts : List Token} {n : Nat}
    (h : statementLength? ts = some n) (hn : n = ts.length) :
    ts.getLast?.any Token.isSemicolon := by
  fun_induction statementLength? ts generalizing n with
  | case1 =>
    cases h
    cases hn
  | case2 t ts ht =>
    obtain rfl : ts = [] := by
      cases h
      simpa using hn
    simpa using ht
  | case3 => cases h
  | case4 =>
    cases h
    simp at hn
  | case5 t _ u us _ ih =>
    obtain ⟨m, hm, rfl⟩ := Option.map_eq_some_iff.mp h
    rw [List.getLast?_cons_cons]
    exact ih hm (Nat.succ.inj hn)

theorem statementLength_bounds {ts : List Token} {n : Nat} (hne : ts ≠ [])
    (h : statementLength ts = .ok n) : 0 < n ∧ n ≤ ts.length := by
  unfold statementLength at h
  split at h
  next hs =>
    cases h
    exact statementLength?_bounds hne hs
  next => cases h

end Scan

namespace Checked

theorem pure_bind {α β : Type} (a : α) (k : α → Checked β) : (pure a : Checked α) >>= k = k a := rfl

theorem of_ok_bind {α β : Type} (a : α) (k : α → Checked β) : of (.ok a) >>= k = k a := rfl

theorem of_error {α : Type} (e : ParseError) : (of (.error e) : Checked α) = fail e := rfl

variable {us : List Token} {t : Token} {i n : Nat}

theorem token_eq (h : us[i]? = some t) : token us i = pure t := by rw [token, h]

theorem tokenBefore_succ (h : us[i]? = some t) : tokenBefore us (i + 1) = pure t := token_eq h

theorem slice_eq {first last : Nat} (h : first ≤ last) (hl : last ≤ us.length) :
    slice us first last = pure (Span.tokens ⟨first, last⟩ us) := if_pos ⟨h, hl⟩

theorem slice_front (h : n ≤ us.length) : slice us 0 n = pure (us.take n) :=
  slice_eq (Nat.zero_le n) h

/-- The token in front of an index is the last of those up to it. -/
theorem exists_tokenBefore (h : 0 < n) (hn : n ≤ us.length) :
    ∃ t, tokenBefore us n = pure t ∧
      ∀ cause, ParseError.atLast cause (us.take n) = t.fault cause := by
  obtain ⟨i, rfl⟩ := Nat.exists_eq_succ_of_ne_zero h.ne'
  have hi : us[i]? = some us[i] := List.getElem?_eq_getElem hn
  refine ⟨us[i], tokenBefore_succ hi, fun cause => ParseError.atLast_eq ?_⟩
  rw [List.take_succ_eq_append_getElem hn]
  exact List.getLast?_concat

/-- Behind the token at `i`, a list is looked through for the end of the segment that this token
begins. -/
theorem scan_succ (h : i < us.length) : scan us (i + 1) =
    pure ((Scan.statementLength? (us.drop i)).elim us.length (i + ·)) := by
  induction hn : us.length - i using Nat.strong_induction_on generalizing i with
  | _ n ih =>
    have hdrop : us.drop i = us[i] :: us.drop (i + 1) := List.drop_eq_getElem_cons h
    have hbefore : tokenBefore us (i + 1) = pure us[i] :=
      tokenBefore_succ (List.getElem?_eq_getElem h)
    rw [scan, hdrop]
    by_cases hmore : i + 1 < us.length
    · have hhere : token us (i + 1) = pure us[i + 1] := token_eq (List.getElem?_eq_getElem hmore)
      have hnext : us.drop (i + 1) = us[i + 1] :: us.drop (i + 2) :=
        List.drop_eq_getElem_cons hmore
      rw [if_pos hmore, hbefore, pure_bind]
      cases hsemicolon : us[i].isSemicolon with
      | true =>
        rw [if_pos rfl, Scan.statementLength?_cons_semicolon _ hsemicolon]
        rfl
      | false =>
        rw [if_neg Bool.false_ne_true, hhere, pure_bind, hnext]
        cases hbrace : us[i + 1].isBraceOpen with
        | true =>
          rw [if_pos rfl, Scan.statementLength?_cons_brace _ hsemicolon hbrace]
          rfl
        | false =>
          rw [if_neg Bool.false_ne_true, ih _ (by omega) hmore rfl, hnext,
            Scan.statementLength?_cons_cons _ hsemicolon hbrace]
          cases Scan.statementLength? (us[i + 1] :: us.drop (i + 2)) with
          | none => rfl
          | some m => exact congrArg pure (Nat.add_right_comm i 1 m)
    · -- the token at `i` is the last one
      have hnil : us.drop (i + 1) = [] := List.drop_eq_nil_of_le (Nat.le_of_not_lt hmore)
      have hlast : us.length = i + 1 := by omega
      rw [if_neg hmore, hnil, hlast]
      cases hsemicolon : us[i].isSemicolon with
      | true =>
        rw [Scan.statementLength?_cons_semicolon _ hsemicolon]
        rfl
      | false =>
        rw [Scan.statementLength?_singleton hsemicolon]
        rfl

/-- The readers of segments look at tokens only, as long as there is one. -/
theorem segmentStop_eq (hne : us ≠ []) : segmentStop us = of (Scan.statementLength us) := by
  have hscan := scan_succ (List.length_pos_iff.mpr hne)
  rw [Nat.zero_add, List.drop_zero] at hscan
  rw [segmentStop, hscan, pure_bind]
  cases hs : Scan.statementLength? us with
  | none =>
    obtain ⟨last, hlast, hfree, hlength⟩ := Scan.error_of_statementLength? hne hs
    have hopen : last.isSemicolon = false := hfree last (List.mem_of_getLast? hlast)
    have hend : us.length = us.length ∧ ¬ us.getLast?.any Token.isSemicolon := by
      simp [hlast, hopen]
    rw [hlength, of_error, ← ParseError.atLast_eq hlast]
    exact if_pos hend
  | some n =>
    have hlength : Scan.statementLength us = .ok n := by rw [Scan.statementLength, hs]
    have hgoes : ¬ (0 + n = us.length ∧ ¬ us.getLast?.any Token.isSemicolon) := by
      rintro ⟨hn, hlast⟩
      exact hlast (Scan.semicolon_of_statementLength? hs (by omega))
    rw [hlength, Option.elim_some, if_neg hgoes, Nat.zero_add]
    rfl

theorem atRule_eq (hne : us ≠ []) : atRule us = of (AtRule.read us) := by
  rw [atRule, AtRule.read, segmentStop_eq hne]
  cases hs : Scan.statementLength us with
  | error e => rfl
  | ok n =>
    obtain ⟨hpos, hle⟩ := Scan.statementLength_bounds hne hs
    obtain ⟨last, hbefore, hatLast⟩ := exists_tokenBefore hpos hle
    rw [of_ok_bind, ok_bind]
    by_cases hleast : n < AtRule.leastSize
    · rw [if_pos hleast, if_pos hleast, hbefore, pure_bind, hatLast]
      rfl
    rw [if_neg hleast, if_neg hleast]
    cases hkinds : Scan.requireKinds us [.atSign, .word, .delimiter] with
    | error e => rfl
    | ok _ =>
      rw [of_ok_bind, slice_front hle, pure_bind]
      -- the value is looked up here, and is what is left behind two tokens there
      simp only [ok_bind, ← List.head?_drop]
      cases (Scan.significant (us.take n)).drop 2 with
      | nil =>
        rw [List.head?_nil]
        simp only
        rw [hbefore, pure_bind, hatLast]
        rfl
      | cons value more =>
        rw [List.head?_cons]
        simp only
        by_cases hvalue : value.isSemicolon
        · rw [if_pos hvalue, if_pos hvalue]
          rfl
        · rw [if_neg hvalue, if_neg hvalue]
          rfl

theorem statement_eq (hne : us ≠ []) : statement us = of (Statement.read us) := by
  rw [statement, Statement.read, segmentStop_eq hne]
  cases hs : Scan.statementLength us with
  | error e => rfl
  | ok n =>
    obtain ⟨hpos, hle⟩ := Scan.statementLength_bounds hne hs
    obtain ⟨last, hbefore, hatLast⟩ := exists_tokenBefore hpos hle
    rw [of_ok_bind, ok_bind, slice_front hle, pure_bind]
    cases Statement.dropTerminator (Scan.significant (us.take n)) with
    | nil =>
      simp only
      rw [hbefore, pure_bind, hatLast]
      rfl
    | cons property more => rfl

theorem header_eq (us : List Token) : header us = OptionT.mk (some <$> Header.read us) := by
  cases hk : Scan.firstIndex? .atSign us with
  | none =>
    rw [header, Header.read, hk, Scan.dropWhile_atSign_eq_nil hk]
    rfl
  | some i =>
    obtain ⟨front, mark, back, rfl, rfl, hf, hm⟩ := Scan.exists_of_firstIndex? hk
    have hmark : token (front ++ mark :: back) front.length = pure mark :=
      token_eq (by simp)
    have hname : (front ++ mark :: back)[front.length + 1]? = back.head? := by
      rw [← List.head?_drop, drop_behind]
    rw [header, Header.read, hk, Scan.dropWhile_atSign_append back hf hm]
    simp only [hname]
    cases back with
    | nil =>
      simp only [List.head?_nil]
      rw [hmark]
      rfl
    | cons name more => rfl

end Checked

/-- A run that never breaks off and is the run `y` else, where `f` forgets what only the first one
keeps. -/
structure Agrees {α β : Type} (f : α → β) (x : Checked α) (y : Run β) : Prop where
  events : x.run.events = y.events
  result : x.run.result.map (Option.map f) = y.result.map some

namespace Agrees
variable {α β γ δ : Type} {f : α → β} {g : γ → δ} {x : Checked α} {y : Run β}

theorem of (r : Except ParseError α) : Agrees id (Checked.of r) (Run.of r) := by
  constructor
  · rfl
  · cases r <;> rfl

theorem run (y : Run α) : Agrees id (OptionT.mk (some <$> y)) y := by
  constructor
  · rfl
  · change (y.result.map some).map (Option.map id) = _
    cases y.result <;> rfl

theorem note (e : Event) : Agrees id (Checked.note e) (Run.note e) := run _

theorem fail (f : α → β) (e : ParseError) : Agrees f (Checked.fail e) (Run.fail e) := ⟨rfl, rfl⟩

theorem pure (f : α → β) (a : α) : Agrees f (Pure.pure a) (Pure.pure (f a)) := ⟨rfl, rfl⟩

/-- The error of a run that agrees, or its value. -/
theorem cases_result (h : Agrees f x y) :
    (∃ e, x.run.result = .error e ∧ y.result = .error e) ∨
      ∃ a, x.run.result = .ok (some a) ∧ y.result = .ok (f a) := by
  have hr := h.result
  cases hx : x.run.result with
  | error e =>
    cases hy : y.result with
    | error c =>
      rw [hx, hy] at hr
      cases hr
      exact .inl ⟨e, rfl, rfl⟩
    | ok b =>
      rw [hx, hy] at hr
      cases hr
  | ok a? =>
    cases hy : y.result with
    | error c =>
      rw [hx, hy] at hr
      cases hr
    | ok b =>
      rw [hx, hy] at hr
      obtain ⟨a, rfl, rfl⟩ := Option.map_eq_some_iff.mp (Except.ok.inj hr)
      exact .inr ⟨a, rfl, rfl⟩

theorem bind {k : α → Checked γ} {l : β → Run δ} (h : Agrees f x y)
    (hk : ∀ a, y.result = .ok (f a) → Agrees g (k a) (l (f a))) : Agrees g (x >>= k) (y >>= l) := by
  rcases h.cases_result with ⟨e, hx, hy⟩ | ⟨a, hx, hy⟩
  · constructor
    · rw [Checked.run_bind_of_error hx, Run.bind_events_of_error hy, h.events]
    · rw [Checked.run_bind_of_error hx, Run.bind_result, hy]
      rfl
  · have hmore := hk a hy
    constructor
    · rw [Checked.run_bind_of_some hx, Run.bind_events_of_ok hy, h.events, hmore.events]
    · rw [Checked.run_bind_of_some hx, Run.bind_result, hy]
      exact hmore.result

/-- The same where nothing is forgotten. -/
theorem bind_id {x : Checked α} {y : Run α} {k : α → Checked γ} {l : α → Run δ} (h : Agrees id x y)
    (hk : ∀ a, y.result = .ok a → Agrees g (k a) (l a)) : Agrees g (x >>= k) (y >>= l) := h.bind hk

theorem map {k : α → γ} {l : β → δ} (h : Agrees f x y) (hk : ∀ a, g (k a) = l (f a)) :
    Agrees g (k <$> x) (l <$> y) := by
  rcases h.cases_result with ⟨e, hx, hy⟩ | ⟨a, hx, hy⟩
  · have hrun : (k <$> x).run = ⟨x.run.events, .error e⟩ := Checked.run_bind_of_error hx
    constructor
    · rw [hrun, Run.map_events, h.events]
    · rw [hrun, Run.map_result, hy]
      rfl
  · have hrun : (k <$> x).run = ⟨x.run.events ++ [], .ok (some (k a))⟩ :=
      Checked.run_bind_of_some hx
    constructor
    · rw [hrun, Run.map_events, h.events, List.append_nil]
    · rw [hrun, Run.map_result, hy]
      exact congrArg (fun b => Except.ok (some b)) (hk a)

/-- A run that agrees and forgets nothing is the same one. -/
theorem run_eq {x : Checked α} {y : Run α} (h : Agrees id x y) : x.run = some <$> y := by
  have hresult : x.run.result = y.result.map some := by
    rw [← h.result, Option.map_id]
    cases x.run.result <;> rfl
  calc x.run = ⟨x.run.events, x.run.result⟩ := rfl
    _ = some <$> y := by
      rw [h.events, hresult]
      rfl

end Agrees

namespace Cursor
variable {ts : List Token} {r : Range ts}

theorem window_all (ts : List Token) : (Range.all ts).front.window = .all ts := by
  simp only [window, Range.front, Range.all, Window.all, Span.tokens, List.take_length,
    List.drop_zero]

theorem rest_eq (c : Cursor r) : c.rest = pure c.window.rest := Checked.slice_eq c.le_stop r.stop_le

theorem forward_eq {c : Cursor r} {n : Nat} (h : c.position + n ≤ r.stop) :
    c.forward n = pure (c.advance n h) := dif_pos h

theorem length_rest (c : Cursor r) : c.window.rest.length = r.stop - c.position := by
  have := r.stop_le
  simp only [window, Span.tokens, List.length_drop, List.length_take]
  omega

theorem rest_eq_nil_iff {c : Cursor r} : c.window.rest = [] ↔ r.stop ≤ c.position := by
  rw [← List.length_eq_zero_iff, length_rest]
  omega

/-- The token in front of which a cursor stands. -/
theorem getElem?_position {c : Cursor r} {front : Token} {more : List Token}
    (hw : c.window.rest = front :: more) : ts[c.position]? = some front := by
  have hlt : c.position < r.stop := by
    rw [← Nat.not_le, ← rest_eq_nil_iff, hw]
    exact List.cons_ne_nil _ _
  rw [← List.getElem?_take_of_lt hlt, ← List.head?_drop]
  exact congrArg List.head? hw

theorem segment_le {c : Cursor r} (body : List Token) {back : List Token} {last : Token}
    (hw : c.window.rest = body ++ last :: back) : c.position + (body.length + 1) ≤ r.stop := by
  have hlength := c.length_rest
  have := c.le_stop
  rw [hw, List.length_append, List.length_cons] at hlength
  omega

theorem window_advance {c : Cursor r} {n : Nat} (h : c.position + n ≤ r.stop) :
    (c.advance n h).window = c.window.advance n := by
  simp only [window, advance, Window.advance, Span.tokens, List.drop_drop]

theorem window_inside {c : Cursor r} {first last : Nat} (h : first ≤ last)
    (hl : c.position + last ≤ r.stop) :
    (c.inside first last h hl).front.window = c.window.inside first last := by
  have hrest : Span.tokens ⟨c.position + first, c.position + last⟩ ts =
      ((Span.tokens ⟨c.position, r.stop⟩ ts).take last).drop first := by
    simp only [Span.tokens]
    rw [List.take_drop, List.take_take, List.drop_drop, Nat.min_eq_left hl]
  simp only [window, Range.front, inside, Window.inside, hrest]

section
variable {byPosition : Inner r} {inner : Parser.Inner}

/-- Ranges inside the range are read alike. -/
def AgreesInside (byPosition : Inner r) (inner : Parser.Inner) : Prop :=
  ∀ brace (c : Cursor r) (d : Range ts),
    Agrees id (byPosition brace c d) (inner brace c.window d.front.window)

/-- Steps that agree find the same nodes and stop at the same place. -/
abbrev AgreesStep (x : Step r) (y : Parser.Step) : Prop := Agrees (Prod.map id window) x y

theorem agrees_at (found : List Node) (c : Cursor r) :
    AgreesStep (pure (found, c)) (pure (found, c.window)) := .pure (Prod.map id window) (found, c)

theorem blocks_agrees (hi : AgreesInside byPosition inner) (c : Cursor r) :
    AgreesStep (blocks byPosition c) (Parser.blocks inner c.window) := by
  induction hn : r.stop - c.position using Nat.strong_induction_on generalizing c with
  | _ n ih =>
    rw [blocks, rest_eq, Checked.pure_bind]
    rcases flat_or_split c.window.rest with hf | ⟨front, brace, back, hw, hf, hb⟩
    · have hopen : Scan.firstIndex? .braceOpen c.window.rest = none := by
        apply Scan.firstIndex?_eq_none.mpr
        intro t ht
        simpa [Token.isBraceOpen] using hf t ht
      rw [Parser.blocks_flat hf, hopen]
      exact agrees_at [] c
    · have hopen : Scan.firstIndex? .braceOpen c.window.rest = some front.length := by
        rw [hw, hf.firstIndex?_append back hb]
      rw [Parser.blocks_split hw hf hb, hopen]
      refine .bind_id (.of _) fun close hclose => ?_
      obtain ⟨hlt, hle⟩ := Scan.matchingBrace_bounds hclose
      rw [length_rest] at hle
      have hrange : front.length + 1 ≤ close ∧ c.position + (close + 1) ≤ r.stop := by
        constructor <;> omega
      have hbrace : Checked.token c.window.rest front.length = pure brace :=
        Checked.token_eq (by simp [hw])
      have hfront : Checked.slice c.window.rest 0 front.length = pure front := by
        rw [Checked.slice_front (by simp [hw]), hw, List.take_left]
      rw [dif_pos hrange, hbrace, Checked.pure_bind]
      refine .bind_id ?_ fun content _ => ?_
      · rw [← window_inside hrange.1 (Nat.le_of_succ_le hrange.2)]
        exact hi ..
      rw [hfront, Checked.pure_bind, Checked.header_eq]
      refine .bind_id (.run _) fun header _ => .bind_id (.note _) fun _ _ => ?_
      rw [← window_advance hrange.2]
      exact (ih _ (by simp only [advance]; omega) _ rfl).map fun _ => rfl

theorem takeBlocks_agrees (hi : AgreesInside byPosition inner) (c : Cursor r) :
    AgreesStep (takeBlocks byPosition c) (Parser.takeBlocks inner c.window) :=
  .bind_id (.note _) fun _ _ => .bind_id (.note _) fun _ _ => blocks_agrees hi c

theorem takeAtRule_agrees (c : Cursor r) (hf : Flat c.window.rest) :
    AgreesStep (takeAtRule c) (Parser.takeAtRule c.window) := by
  refine .bind_id (.note _) fun _ _ => ?_
  rw [rest_eq, Checked.pure_bind]
  by_cases hb : AtRule.begins c.window.rest
  · rw [if_pos hb, if_pos hb]
    have hne : c.window.rest ≠ [] := by
      intro hnil
      rw [hnil] at hb
      cases hb
    rw [Checked.atRule_eq hne]
    refine .bind_id (.note _) fun _ _ => .bind_id (.of _) fun rule hrule => ?_
    obtain ⟨body, last, back, hw, he, hbody, rfl⟩ := AtRule.exists_of_read hf hrule
    obtain @⟨mark, name, gap, value, hmark, hname, hgap, -⟩ := hbody
    have hname : Checked.token (Scan.significant (mark :: name :: gap :: value ++ [last])) 1 =
        pure name := by
      apply Checked.token_eq
      rw [AtRule.significant_segment hmark hname hgap he.last]
      rfl
    rw [hname, Checked.pure_bind]
    refine .bind_id (.note _) fun _ _ => ?_
    have hsize := segment_le _ hw
    rw [forward_eq hsize, Checked.pure_bind, ← window_advance hsize]
    exact agrees_at [_] _
  · rw [if_neg hb, if_neg hb]
    exact agrees_at [] c

theorem takeStatement_agrees (c : Cursor r) (hf : Flat c.window.rest) :
    AgreesStep (takeStatement c) (Parser.takeStatement c.window) := by
  refine .bind_id (.note _) fun _ _ => ?_
  rw [rest_eq, Checked.pure_bind]
  cases hw : c.window.rest with
  | nil => exact agrees_at [] c
  | cons front more =>
    simp only
    by_cases hlast : more.isEmpty && front.isDelimiter
    · rw [if_pos hlast, if_pos hlast]
      have hone : c.position + 1 ≤ r.stop := segment_le [] hw
      rw [forward_eq hone, Checked.pure_bind, ← window_advance hone]
      exact agrees_at [] _
    rw [if_neg hlast, if_neg hlast]
    by_cases hb : Statement.beginsWith front
    · rw [if_pos hb, if_pos hb, Checked.statement_eq (List.cons_ne_nil _ _)]
      refine .bind_id (.note _) fun _ _ => .bind_id (.of _) fun s hs => ?_
      obtain ⟨body, last, back, property, value, hbody, -, -, rfl⟩ :=
        Statement.exists_of_read (hw ▸ hf) hs
      refine .bind_id (.note _) fun _ _ => ?_
      have hsize := segment_le body (hw.trans hbody)
      rw [forward_eq hsize, Checked.pure_bind, ← window_advance hsize]
      exact agrees_at [_] _
    · rw [if_neg hb, if_neg hb]
      exact agrees_at [] c

theorem andThen_agrees {x : Step r} {y : Parser.Step} {f : Cursor r → Step r}
    {g : Window → Parser.Step} (hx : AgreesStep x y)
    (hf : ∀ found (d : Cursor r), y.result = .ok (found, d.window) →
      AgreesStep (f d) (g d.window)) :
    AgreesStep (andThen x f) (Parser.andThen y g) := by
  apply Agrees.bind hx
  rintro ⟨found, d⟩ hy
  by_cases hstop : r.stop ≤ d.position
  · have hnil : d.window.rest.isEmpty := List.isEmpty_iff.mpr (rest_eq_nil_iff.mpr hstop)
    simp only [Prod.map, id, if_pos hstop, if_pos hnil]
    exact agrees_at found d
  · have hmore : ¬ d.window.rest.isEmpty := by rwa [List.isEmpty_iff, rest_eq_nil_iff]
    simp only [Prod.map, id, if_neg hstop, if_neg hmore]
    exact (hf found d hy).map fun _ => rfl

theorem pass_agrees (hi : AgreesInside byPosition inner) (c : Cursor r) :
    AgreesStep (pass byPosition c) (Parser.pass inner c.window) := by
  refine .bind_id (.note _) fun _ _ => ?_
  apply andThen_agrees
  · apply andThen_agrees (takeBlocks_agrees hi c)
    intro found d hd
    exact takeAtRule_agrees d (Parser.takeBlocks_advances hd).2
  · intro found d hd
    exact takeStatement_agrees d (Parser.takeBlocksAtRule_advances hd).2

theorem passes_agrees (hi : AgreesInside byPosition inner) (c : Cursor r) :
    Agrees id (passes byPosition c) (Parser.passes inner c.window) := by
  induction hn : r.stop - c.position using Nat.strong_induction_on generalizing c with
  | _ n ih =>
    rw [passes, Parser.passes]
    cases hw : c.window.rest with
    | nil =>
      rw [if_pos (rest_eq_nil_iff.mp hw)]
      exact .pure id []
    | cons front more =>
      have hstop : ¬ r.stop ≤ c.position := by
        rw [← rest_eq_nil_iff, hw]
        exact List.cons_ne_nil _ _
      rw [if_neg hstop]
      apply Agrees.bind (pass_agrees hi c)
      rintro ⟨found, d⟩ hd
      have hle := (Parser.pass_advances hd).suffix.length_le
      have := d.le_stop
      simp only [Prod.map, id, ← hw, length_rest] at hle ⊢
      by_cases hmoved : c.position < d.position
      · have hne : d.position ≠ c.position := hmoved.ne'
        have hlt : r.stop - d.position < r.stop - c.position := by omega
        rw [if_neg hne, dif_pos hmoved, if_pos hlt]
        refine .bind_id (.note _) fun _ _ => ?_
        exact (ih _ (hn ▸ hlt) d rfl).map fun _ => rfl
      · have heq : d.position = c.position := by omega
        have hnlt : ¬ r.stop - d.position < r.stop - c.position := by omega
        have hfront : Checked.token ts c.position = pure front :=
          Checked.token_eq (getElem?_position hw)
        rw [if_pos heq, if_neg hnlt, hfront, Checked.pure_bind]
        exact .fail id _

theorem readRange_agrees (room depth : Nat) (outer : Option Window) (r : Range ts) :
    Agrees id (readRange room depth outer r) (Parser.range room depth outer r.front.window) := by
  induction room generalizing depth outer r with
  | zero =>
    refine .bind_id (.note _) fun _ _ => passes_agrees ?_ r.front
    intro brace c d
    exact .fail id _
  | succ room ih =>
    refine .bind_id (.note _) fun _ _ => passes_agrees ?_ r.front
    intro brace c d
    exact ih (depth + 1) (some c.window) d

theorem parse_agrees (config : Config) (ts : List Token) :
    Agrees id (Cursor.parse config ts) (RuleTree.parse config ts) := by
  rw [RuleTree.parse, ← window_all]
  exact .bind_id (.note _) fun _ _ => readRange_agrees ..

end
end Cursor
end RuleTree
