import Mathlib
import RuleTree.Proofs.Agreement
import RuleTree.Token.Lexer

/-! States in range, and progress. Wherever a parse stands, its position is in its range and the
range in the tokens; a pass moves on, and the range of a block lies between the tokens that the
block takes. So a token pays for each pass, also for those in all the ranges inside. -/
namespace RuleTree

/-- A window on tokens of `ts`. -/
structure Window.On (ts : List Token) (w : Window) : Prop where
  start_le : w.start ≤ w.position
  le_stop : w.position ≤ w.stop
  stop_le : w.stop ≤ ts.length
  rest_eq : w.rest = Span.tokens ⟨w.position, w.stop⟩ ts

namespace Event

def isPass : Event → Bool
  | .pass _ => true
  | _ => false

/-- What an event shows of the state of the parse is in range. The first range is all of the tokens,
any other lies strictly inside what is left of the one around it; nothing is looked for at the end
of a range; and a pass moves on in its range. -/
def InRange (ts : List Token) : Event → Prop
  | .started count _ => count = ts.length
  | .entered _ none range => range = .all ts ∧ range.On ts
  | .entered _ (some around) range => around.On ts ∧ range.On ts ∧ range.position = range.start ∧
      around.position < range.start ∧ range.stop < around.stop
  | .pass w => w.On ts ∧ w.position < w.stop
  | .tried _ w => w.On ts ∧ w.position < w.stop
  | .passed before after => before.On ts ∧ after.On ts ∧ after.start = before.start ∧
      after.stop = before.stop ∧ before.position < after.position
  | .took _ => True
  | .selecting => True
  | .found _ => True

end Event

/-- What happened while the tokens from one position to before another were read: no more passes
than there are such tokens. -/
structure Paid (ts : List Token) (es : List Event) (first last : Nat) : Prop where
  inRange : ∀ e ∈ es, e.InRange ts
  passes : first + es.countP Event.isPass ≤ last

/-- The same with a token to spare, if there was a pass at all. -/
structure Spare (ts : List Token) (es : List Event) (first last : Nat) : Prop where
  le : first ≤ last
  inRange : ∀ e ∈ es, e.InRange ts
  passes : es.countP Event.isPass = 0 ∨ first + es.countP Event.isPass < last

section
variable {ts : List Token} {es es' : List Event} {e : Event} {p q s : Nat}

theorem Paid.append (h : Paid ts es p q) (h' : Paid ts es' q s) : Paid ts (es ++ es') p s where
  inRange := List.forall_mem_append.mpr ⟨h.inRange, h'.inRange⟩
  passes := by
    have := h.passes
    have := h'.passes
    rw [List.countP_append]
    omega

theorem Paid.cons (h : Paid ts es p q) (hr : e.InRange ts) (he : e.isPass = false) :
    Paid ts (e :: es) p q where
  inRange := List.forall_mem_cons.mpr ⟨hr, h.inRange⟩
  passes := by
    rw [List.countP_cons_of_neg (by simp [he])]
    exact h.passes

theorem Paid.bind {α β : Type} {x : Checked α} {k : α → Checked β}
    (always : Paid ts x.run.events p q)
    (hk : ∀ a, x.run.result = .ok (some a) → Paid ts (x.run.events ++ (k a).run.events) p q) :
    Paid ts (x >>= k).run.events p q := by
  rcases Checked.run_bind_cases x k with ⟨a, hx, hrun⟩ | ⟨hevents, -⟩
  · rw [hrun]
    exact hk a hx
  · rw [hevents]
    exact always

theorem Paid.nil (h : p ≤ q) : Paid ts [] p q := ⟨List.forall_mem_nil _, h⟩

theorem Spare.nil (h : p ≤ q) : Spare ts [] p q := ⟨h, List.forall_mem_nil _, .inl rfl⟩

theorem Spare.event (hr : e.InRange ts) (he : e.isPass = false) : Spare ts [e] p p where
  le := Nat.le_refl p
  inRange := List.forall_mem_singleton.mpr hr
  passes := .inl (List.countP_cons_of_neg (by simp [he]))

theorem Spare.append (h : Spare ts es p q) (h' : Spare ts es' q s) : Spare ts (es ++ es') p s where
  le := h.le.trans h'.le
  inRange := List.forall_mem_append.mpr ⟨h.inRange, h'.inRange⟩
  passes := by
    have := h.le
    have := h'.le
    rw [List.countP_append]
    rcases h.passes with hm | hm <;> rcases h'.passes with hn | hn <;> omega

theorem Spare.mono (h : Spare ts es p q) (hq : q ≤ s) : Spare ts es p s := by
  simpa using h.append (.nil hq)

/-- A range leaves its closing brace to spare. -/
theorem Paid.spare (h : Paid ts es q s) (hp : p < q) : Spare ts es p (s + 1) where
  le := by
    have := h.passes
    omega
  inRange := h.inRange
  passes := by
    have := h.passes
    omega

/-- A token to spare pays for the pass in which the others were read. -/
theorem Spare.pass {w : Window} (h : Spare ts es p q) (hw : (Event.pass w).InRange ts)
    (hlt : p < q) : Paid ts (.pass w :: es) p q where
  inRange := List.forall_mem_cons.mpr ⟨hw, h.inRange⟩
  passes := by
    rw [List.countP_cons_of_pos rfl]
    rcases h.passes with hm | hm <;> omega

end

namespace Cursor
variable {ts : List Token} {r : Range ts}

theorem window_stop (c : Cursor r) : c.window.stop = r.stop := by
  have := c.le_stop
  rw [Window.stop, length_rest]
  simp only [window]
  omega

theorem window_on (c : Cursor r) : c.window.On ts where
  start_le := c.start_le
  le_stop := Nat.le_add_right ..
  stop_le := by
    rw [window_stop]
    exact r.stop_le
  rest_eq := by
    rw [window_stop]
    rfl

theorem window_unread {c : Cursor r} (hc : c.position < r.stop) :
    c.window.On ts ∧ c.window.position < c.window.stop := by
  rw [window_stop]
  exact ⟨c.window_on, hc⟩

/-- A step pays for what happens in it, whether it fails or moves on. -/
structure Pays (c : Cursor r) (x : Step r) : Prop where
  always : Spare ts x.run.events c.position r.stop
  value : ∀ y, x.run.result = .ok (some y) → Spare ts x.run.events c.position y.2.position

namespace Pays
variable {α : Type} {c d : Cursor r} {x : Checked α} {k : α → Step r} {y : Step r}

theorem pure (found : List Node) (h : c.position ≤ d.position) : Pays c (Pure.pure (found, d)) where
  always := .nil c.le_stop
  value := by
    rintro _ ⟨⟩
    exact .nil h

theorem failure : Pays c (Alternative.failure : Step r) where
  always := .nil c.le_stop
  value := nofun

theorem bind (always : Spare ts x.run.events c.position r.stop)
    (hk : ∀ a, x.run.result = .ok (some a) →
      ∃ d : Cursor r, Spare ts x.run.events c.position d.position ∧ Pays d (k a)) :
    Pays c (x >>= k) := by
  rcases Checked.run_bind_cases x k with ⟨a, hx, hrun⟩ | ⟨hevents, hnone⟩
  · obtain ⟨d, hd, hpays⟩ := hk a hx
    constructor
    · rw [hrun]
      exact hd.append hpays.always
    · rw [hrun]
      intro z hz
      exact hd.append (hpays.value z hz)
  · constructor
    · rw [hevents]
      exact always
    · intro z hz
      exact absurd hz (hnone z)

/-- A run that takes the place of a move. -/
theorem behind (hx : Spare ts x.run.events c.position d.position) (hk : ∀ a, Pays d (k a)) :
    Pays c (x >>= k) := bind (hx.mono d.le_stop) fun a _ => ⟨d, hx, hk a⟩

theorem silent (hx : x.run.events = []) (hk : ∀ a, Pays c (k a)) : Pays c (x >>= k) := by
  apply behind (d := c) _ hk
  rw [hx]
  exact .nil (Nat.le_refl _)

theorem note {e : Event} (hr : e.InRange ts) (he : e.isPass = false) (h : Pays c y) :
    Pays c (Checked.note e >>= fun _ => y) := behind (.event hr he) fun _ => h

theorem map {g : List Node × Cursor r → List Node × Cursor r} (hg : ∀ z, (g z).2 = z.2)
    (h : Pays c y) : Pays c (g <$> y) := by
  apply bind h.always
  intro z hz
  refine ⟨z.2, h.value z hz, ?_⟩
  rw [← hg z]
  exact pure _ (Nat.le_refl _)

end Pays

theorem pays_forward (c : Cursor r) (found : List Node) (n : Nat) :
    Pays c (c.forward n >>= fun d => pure (found, d)) := by
  unfold forward
  split
  · rw [Checked.pure_bind]
    exact .pure found (Nat.le_add_right ..)
  · exact .failure

end Cursor

namespace Checked

theorem token_silent (us : List Token) (i : Nat) : (token us i).run.events = [] := by
  unfold token
  split <;> rfl

theorem slice_silent (us : List Token) (first last : Nat) :
    (slice us first last).run.events = [] := by
  unfold slice
  split <;> rfl

theorem header_spare (ts us : List Token) (p : Nat) : Spare ts (header us).run.events p p := by
  rw [header_eq]
  change Spare ts (Header.read us).events p p
  unfold Header.read
  split
  · exact .event trivial rfl
  · exact .nil (Nat.le_refl p)
  · exact .nil (Nat.le_refl p)

end Checked

namespace Cursor
variable {ts : List Token} {r : Range ts} {inner : Inner r}

/-- Whatever is read between braces is paid for there. -/
def PaysInside (inner : Inner r) : Prop :=
  ∀ brace (c : Cursor r) (d : Range ts), c.position < d.start → d.stop < r.stop →
    Paid ts (inner brace c d).run.events d.start d.stop

/-- Each block pays for the ranges inside it with the tokens that it takes. -/
theorem blocks_pays (hi : PaysInside inner) (c : Cursor r) : Pays c (blocks inner c) := by
  induction hn : r.stop - c.position using Nat.strong_induction_on generalizing c with
  | _ n ih =>
    rw [blocks, rest_eq, Checked.pure_bind]
    split
    · exact .pure [] (Nat.le_refl _)
    next o _ =>
    refine .silent rfl fun close => ?_
    by_cases h : o + 1 ≤ close ∧ c.position + (close + 1) ≤ r.stop
    · rw [dif_pos h]
      have hbehind : c.position < c.position + (o + 1) := Nat.lt_add_of_pos_right (Nat.succ_pos o)
      refine .silent (Checked.token_silent ..) fun brace => ?_
      have hinside := hi brace c (c.inside (o + 1) close h.1 (Nat.le_of_succ_le h.2)) hbehind h.2
      refine .behind (d := c.advance (close + 1) h.2) (hinside.spare hbehind) fun content => ?_
      refine .silent (Checked.slice_silent ..) fun front => ?_
      refine .behind (Checked.header_spare ..) fun header => ?_
      refine .note trivial rfl (.map (fun _ => rfl) ?_)
      exact ih _ (by simp only [advance]; omega) _ rfl
    · rw [dif_neg h]
      exact .failure

theorem takeBlocks_pays (hi : PaysInside inner) {c : Cursor r} (hc : c.position < r.stop) :
    Pays c (takeBlocks inner c) :=
  .note (window_unread hc) rfl (.note trivial rfl (blocks_pays hi c))

theorem takeAtRule_pays {c : Cursor r} (hc : c.position < r.stop) : Pays c (takeAtRule c) := by
  refine .note (window_unread hc) rfl ?_
  rw [rest_eq, Checked.pure_bind]
  by_cases hb : AtRule.begins c.window.rest
  · have hne : c.window.rest ≠ [] := by rwa [Ne, rest_eq_nil_iff, Nat.not_le]
    rw [if_pos hb, Checked.atRule_eq hne]
    refine .note trivial rfl (.silent rfl fun rule => ?_)
    refine .silent (Checked.token_silent ..) fun _ => .note trivial rfl ?_
    exact pays_forward c [_] rule.size
  · rw [if_neg hb]
    exact .pure [] (Nat.le_refl _)

theorem takeStatement_pays {c : Cursor r} (hc : c.position < r.stop) :
    Pays c (takeStatement c) := by
  refine .note (window_unread hc) rfl ?_
  rw [rest_eq, Checked.pure_bind]
  split
  · exact .pure [] (Nat.le_refl _)
  next front more hw =>
    split
    · exact pays_forward c [] 1
    · split
      · rw [Checked.statement_eq (List.cons_ne_nil _ _)]
        refine .note trivial rfl (.silent rfl fun s => .note trivial rfl ?_)
        exact pays_forward c [_] s.size
      · exact .pure [] (Nat.le_refl _)

theorem andThen_pays {c : Cursor r} {x : Step r} {f : Cursor r → Step r} (hx : Pays c x)
    (hf : ∀ d : Cursor r, d.position < r.stop → Pays d (f d)) : Pays c (andThen x f) := by
  apply Pays.bind hx.always
  rintro ⟨found, d⟩ hd
  refine ⟨d, hx.value _ hd, ?_⟩
  by_cases hstop : r.stop ≤ d.position
  · simp only [if_pos hstop]
    exact .pure found (Nat.le_refl _)
  · simp only [if_neg hstop]
    exact .map (fun _ => rfl) (hf d (Nat.lt_of_not_le hstop))

/-- The tokens that a pass reads pay for it; if it fails or reads none, those that are left do. -/
theorem pass_paid (hi : PaysInside inner) {c : Cursor r} (hc : c.position < r.stop) :
    Paid ts (pass inner c).run.events c.position r.stop ∧
      ∀ y, (pass inner c).run.result = .ok (some y) → c.position < y.2.position →
        Paid ts (pass inner c).run.events c.position y.2.position := by
  have hpass : (Event.pass c.window).InRange ts := window_unread hc
  have hsteps : Pays c (andThen (andThen (takeBlocks inner c) takeAtRule) takeStatement) := by
    apply andThen_pays
    · exact andThen_pays (takeBlocks_pays hi hc) fun _ => takeAtRule_pays
    · exact fun _ => takeStatement_pays
  exact ⟨hsteps.always.pass hpass hc, fun y hy => (hsteps.value y hy).pass hpass⟩

theorem passes_paid (hi : PaysInside inner) (c : Cursor r) :
    Paid ts (passes inner c).run.events c.position r.stop := by
  induction hn : r.stop - c.position using Nat.strong_induction_on generalizing c with
  | _ n ih =>
    rw [passes]
    by_cases hstop : r.stop ≤ c.position
    · rw [if_pos hstop]
      exact .nil c.le_stop
    obtain ⟨halways, hvalue⟩ := pass_paid hi (Nat.lt_of_not_le hstop)
    rw [if_neg hstop]
    apply Paid.bind halways
    rintro ⟨found, d⟩ hd
    -- a pass that stayed where it was is the last one; behind any other, the rest pays for the rest
    by_cases heq : d.position = c.position
    · simp only [if_pos heq]
      refine halways.append (.bind ?_ fun front _ => ?_)
      · rw [Checked.token_silent]
        exact .nil (Nat.le_refl _)
      · rw [Checked.token_silent]
        exact .nil (Nat.le_refl _)
    · by_cases hmoved : c.position < d.position
      · simp only [if_neg heq, dif_pos hmoved]
        have hmore := ih _ (by omega) d rfl
        rw [← Checked.map_run_events (found ++ ·)] at hmore
        have hnote : (Event.passed c.window d.window).InRange ts := by
          refine ⟨c.window_on, d.window_on, rfl, ?_, hmoved⟩
          rw [window_stop, window_stop]
        exact (hvalue _ hd hmoved).append (hmore.cons hnote rfl)
      · simp only [if_neg heq, dif_neg hmoved]
        exact halways.append (.nil (Nat.le_refl _))

theorem readRange_paid (room depth : Nat) (outer : Option Window) (r : Range ts)
    (hr : (Event.entered depth outer r.front.window).InRange ts) :
    Paid ts (readRange room depth outer r).run.events r.start r.stop := by
  induction room generalizing depth outer r with
  | zero =>
    refine (passes_paid ?_ r.front).cons hr rfl
    intro brace c d hlt hle
    exact .nil d.start_le
  | succ room ih =>
    refine (passes_paid ?_ r.front).cons hr rfl
    intro brace c d hlt hle
    apply ih
    refine ⟨c.window_on, d.front.window_on, rfl, hlt, ?_⟩
    rwa [window_stop, window_stop]

end Cursor

theorem parse_paid (config : Config) (ts : List Token) :
    Paid ts (Cursor.parse config ts).run.events 0 ts.length := by
  have hr : (Event.entered 0 none (Range.all ts).front.window).InRange ts :=
    ⟨Cursor.window_all ts, Cursor.window_on _⟩
  exact (Cursor.readRange_paid config.maxDepth 0 none (Range.all ts) hr).cons rfl rfl

/-- Wherever a parse looks into a list of tokens, it finds one, and wherever it moves, it stays in
its range: by positions and with each of these checked, it is the same run. In all that happens on
the way the state is in range, every pass that does not fail moves on, and every further range lies
strictly inside what is left of the one around it. So there are at most as many passes, in all the
ranges, as there are tokens. -/
theorem parse_inRange (config : Config) (ts : List Token) :
    (Cursor.parse config ts).run = some <$> parse config ts ∧
      (∀ e ∈ (parse config ts).events, e.InRange ts) ∧
      (parse config ts).events.countP Event.isPass ≤ ts.length := by
  have hagrees := Cursor.parse_agrees config ts
  have hpaid := parse_paid config ts
  rw [hagrees.events] at hpaid
  refine ⟨hagrees.run_eq, hpaid.inRange, ?_⟩
  simpa using hpaid.passes

-- one token may take a pass, so the bound is reached
example : (parse {} (Source.tokens ⟨none, "\x7d"⟩)).events.countP Event.isPass = 1 := by cbv

end RuleTree
