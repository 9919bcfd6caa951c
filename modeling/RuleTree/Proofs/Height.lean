import Mathlib.Order.Bounds.Basic
import Mathlib.Tactic
import RuleTree.Proofs.Braces

/-! How many braces are open along a token list. A closing brace lowers the height by one and at
height zero changes nothing, so the height is defined for lists with stray braces too. Main facts:
a block leaves the height where it was and reaches one more than its inside does, and a closing
brace answers an opening one exactly where the height in front of it is not zero. -/
namespace RuleTree.Braces

/-- The height behind `t` where it is `h` in front of it. -/
def turn (h : Nat) (t : Token) : Nat :=
  if t.isBraceOpen then h + 1 else if t.isBraceClose then h - 1 else h

/-- The height behind the tokens where it is `h` in front of them. -/
def heightFrom (h : Nat) (ts : List Token) : Nat := ts.foldl turn h

/-- How many braces are open behind the tokens. -/
def height (ts : List Token) : Nat := heightFrom 0 ts

/-- The greatest height on the way through the tokens where it is `h` in front of them. -/
def peakFrom (h : Nat) : List Token → Nat
  | [] => h
  | t :: ts => max h (peakFrom (turn h t) ts)

def peak (ts : List Token) : Nat := peakFrom 0 ts

/-- The token at `i` is an opening brace. -/
def OpenAt (ts : List Token) (i : Nat) : Prop := ∃ t, ts[i]? = some t ∧ t.isBraceOpen

/-- The token at `i` is a closing brace. -/
def CloseAt (ts : List Token) (i : Nat) : Prop := ∃ t, ts[i]? = some t ∧ t.isBraceClose

/-- The brace at `c` answers an opening one. -/
def Answered (ts : List Token) (c : Nat) : Prop := ∃ o, OpenAt ts o ∧ Answers ts o c

instance (ts : List Token) (i : Nat) : Decidable (OpenAt ts i) :=
  decidable_of_iff (∃ t ∈ ts[i]?, t.isBraceOpen) Iff.rfl

instance (ts : List Token) (i : Nat) : Decidable (CloseAt ts i) :=
  decidable_of_iff (∃ t ∈ ts[i]?, t.isBraceClose) Iff.rfl

instance (ts : List Token) (o c : Nat) : Decidable (Answers ts o c) :=
  decidable_of_iff (o < c ∧ c < ts.length ∧
      closes (Span.tokens ⟨o + 1, c + 1⟩ ts) = opens (Span.tokens ⟨o + 1, c + 1⟩ ts) + 1 ∧
      ∀ m < c, o < m →
        closes (Span.tokens ⟨o + 1, m + 1⟩ ts) ≠ opens (Span.tokens ⟨o + 1, m + 1⟩ ts) + 1)
    ⟨fun h => ⟨h.1, h.2.1, h.2.2.1, fun m hm hl => h.2.2.2 m hl hm⟩,
      fun h => ⟨h.behind, h.within, h.level, fun m hl hm => h.first m hm hl⟩⟩

instance (ts : List Token) (c : Nat) : Decidable (Answered ts c) :=
  decidable_of_iff (∃ o < c, OpenAt ts o ∧ Answers ts o c)
    ⟨fun ⟨o, _, h⟩ => ⟨o, h⟩, fun ⟨o, h⟩ => ⟨o, h.2.behind, h⟩⟩

@[simp] theorem heightFrom_nil (h : Nat) : heightFrom h [] = h := rfl

@[simp] theorem heightFrom_cons (h : Nat) (t : Token) (ts : List Token) :
    heightFrom h (t :: ts) = heightFrom (turn h t) ts := rfl

theorem heightFrom_append (h : Nat) (ts us : List Token) :
    heightFrom h (ts ++ us) = heightFrom (heightFrom h ts) us := List.foldl_append

@[simp] theorem peakFrom_nil (h : Nat) : peakFrom h [] = h := rfl

@[simp] theorem peakFrom_cons (h : Nat) (t : Token) (ts : List Token) :
    peakFrom h (t :: ts) = max h (peakFrom (turn h t) ts) := rfl

theorem le_peakFrom (h : Nat) (ts : List Token) : h ≤ peakFrom h ts := by
  cases ts with
  | nil => exact Nat.le_refl h
  | cons t ts => exact Nat.le_max_left ..

theorem peakFrom_append (h : Nat) (ts us : List Token) :
    peakFrom h (ts ++ us) = max (peakFrom h ts) (peakFrom (heightFrom h ts) us) := by
  induction ts generalizing h with
  | nil => exact (Nat.max_eq_right (le_peakFrom h us)).symm
  | cons t ts ih => rw [List.cons_append, peakFrom_cons, peakFrom_cons, heightFrom_cons, ih,
      Nat.max_assoc]

theorem heightFrom_le_peakFrom (h : Nat) {front ts : List Token} (hf : front <+: ts) :
    heightFrom h front ≤ peakFrom h ts := by
  obtain ⟨rest, rfl⟩ := hf
  have hrest : heightFrom h front ≤ peakFrom (heightFrom h front) rest := le_peakFrom ..
  rw [peakFrom_append]
  exact hrest.trans (Nat.le_max_right ..)

theorem exists_heightFrom_eq_peakFrom (h : Nat) (ts : List Token) :
    ∃ front, front <+: ts ∧ heightFrom h front = peakFrom h ts := by
  induction ts generalizing h with
  | nil => exact ⟨[], List.prefix_rfl, rfl⟩
  | cons t ts ih =>
    rcases Nat.le_total (peakFrom (turn h t) ts) h with hle | hle
    · exact ⟨[], List.nil_prefix, (Nat.max_eq_left hle).symm⟩
    · obtain ⟨front, hf, he⟩ := ih (turn h t)
      refine ⟨t :: front, List.cons_prefix_cons.mpr ⟨rfl, hf⟩, ?_⟩
      rw [heightFrom_cons, he, peakFrom_cons, Nat.max_eq_right hle]

/-- The peak is the greatest of the heights behind the beginnings of the list. -/
theorem isGreatest_peak (ts : List Token) :
    IsGreatest {h | ∃ front, front <+: ts ∧ height front = h} (peak ts) := by
  constructor
  · exact exists_heightFrom_eq_peakFrom 0 ts
  · rintro h ⟨front, hf, rfl⟩
    exact heightFrom_le_peakFrom 0 hf

/-- Tokens are turned by a height in the same way wherever the count starts. -/
theorem Turns.turn_add {before after : Nat} {t : Token} (ht : Turns before t after) (h : Nat) :
    turn (h + before) t = h + after := by
  unfold Turns at ht
  unfold turn
  cases ho : t.isBraceOpen with
  | true =>
    have hc := Token.isBraceClose_of_isBraceOpen ho
    simp only [ho, hc, if_true, Bool.false_eq_true, if_false] at ht ⊢
    omega
  | false =>
    cases hc : t.isBraceClose with
    | true =>
      simp only [ho, hc, if_true, Bool.false_eq_true, if_false] at ht ⊢
      omega
    | false =>
      simp only [ho, hc, Bool.false_eq_true, if_false] at ht ⊢
      omega

section
variable {ts : List Token} {before : Nat}

theorem Flat.heightFrom_zero (hf : Flat ts) : heightFrom 0 ts = 0 ∧ peakFrom 0 ts = 0 := by
  induction ts with
  | nil => exact ⟨rfl, rfl⟩
  | cons t ts ih =>
    obtain ⟨ht, hts⟩ := List.forall_mem_cons.mp hf
    have hturn : turn 0 t = 0 := by simp [turn, ht]
    rw [heightFrom_cons, peakFrom_cons, hturn, Nat.zero_max]
    exact ih hts

theorem Flat.height_append (hf : Flat ts) (rest : List Token) :
    height (ts ++ rest) = height rest := by
  rw [height, heightFrom_append, hf.heightFrom_zero.1, height]

theorem Flat.peak_append (hf : Flat ts) (rest : List Token) : peak (ts ++ rest) = peak rest := by
  rw [peak, peakFrom_append, hf.heightFrom_zero.1, hf.heightFrom_zero.2, Nat.zero_max, peak]

/-- Where no beginning closes more braces than are open, the height counts all of them. -/
theorem heightFrom_covered (hc : ∀ front, front <+: ts → closes front ≤ opens front + before)
    (h : Nat) : heightFrom (h + before) ts + closes ts = h + before + opens ts ∧
      peakFrom (h + before) ts = h + peakFrom before ts := by
  induction ts generalizing before with
  | nil => simp
  | cons t ts ih =>
    have hfirst := hc [t] (by simp)
    rcases close_or_turns before t with ⟨rfl, ht⟩ | ⟨after, ht⟩
    · rw [opens_cons_close _ ht, closes_cons_close _ ht] at hfirst
      simp at hfirst
    · have hturn : turn before t = after := by simpa using ht.turn_add 0
      have hrest : ∀ front, front <+: ts → closes front ≤ opens front + after := by
        intro front hf
        have := hc (t :: front) (List.cons_prefix_cons.mpr ⟨rfl, hf⟩)
        unfold Turns at ht
        simp only [opens_cons, closes_cons] at this
        omega
      obtain ⟨hheight, hpeak⟩ := ih hrest
      unfold Turns at ht
      rw [heightFrom_cons, peakFrom_cons, peakFrom_cons, Turns.turn_add ht, hturn, hpeak,
        opens_cons, closes_cons]
      omega

theorem Balanced.heightFrom_eq (hb : Balanced ts) (h : Nat) : heightFrom h ts = h := by
  have hcount : heightFrom h ts + closes ts = h + opens ts :=
    (@heightFrom_covered ts 0 hb.covered h).1
  have hlevel := hb.level
  omega

/-- Along a beginning of balanced tokens the height in front of them only adds. -/
theorem Balanced.heightFrom_add {us : List Token} (hb : Balanced (ts ++ us)) (h : Nat) :
    heightFrom h ts = h + height ts ∧ peakFrom h ts = h + peak ts := by
  have hcovered : ∀ front, front <+: ts → closes front ≤ opens front := by
    intro front hf
    exact hb.covered front (hf.trans (List.prefix_append ts us))
  have hcount : heightFrom h ts + closes ts = h + opens ts :=
    (@heightFrom_covered ts 0 hcovered h).1
  have hzero : height ts + closes ts = 0 + opens ts := (@heightFrom_covered ts 0 hcovered 0).1
  exact ⟨by omega, (@heightFrom_covered ts 0 hcovered h).2⟩

theorem settles_nil : Settles 0 [] := ⟨by simp, rfl⟩

theorem Settles.append {ts us : List Token} {more : Nat} (hts : Settles before ts)
    (hus : Settles more us) : Settles (before + more) (ts ++ us) where
  covered front hf := by
    rcases List.prefix_or_prefix_of_prefix hf (List.prefix_append ts us) with hp | ⟨back, rfl⟩
    · have := hts.covered front hp
      omega
    · have hback := hus.covered back ((List.prefix_append_right_inj ts).mp hf)
      have hlevel := hts.level
      rw [opens_append, closes_append]
      omega
  level := by
    have hlevel := hts.level
    have hmore := hus.level
    rw [opens_append, closes_append]
    omega

end

section
variable {front inner rest : List Token} {brace close : Token}

/-- Tokens between braces are balanced with the two braces around them. -/
theorem Balanced.wrap (hi : Balanced inner) (hb : brace.isBraceOpen) (hc : close.isBraceClose) :
    Balanced (brace :: (inner ++ [close])) := by
  have hopen : Turns 0 brace 1 := by simp [Turns, hb, Token.isBraceClose_of_isBraceOpen hb]
  have hclose : Turns 1 close 0 := by simp [Turns, hc, Token.isBraceOpen_of_isBraceClose hc]
  have hone : Settles 1 [close] := (settles_cons hclose).mpr settles_nil
  have hinner : Settles (0 + 1) (inner ++ [close]) := (settles_zero.mpr hi).append hone
  exact settles_zero.mp ((settles_cons hopen).mpr hinner)

theorem Balanced.append {ts us : List Token} (hts : Balanced ts) (hus : Balanced us) :
    Balanced (ts ++ us) :=
  settles_zero.mp ((settles_zero.mpr hts).append (settles_zero.mpr hus))

theorem turn_open (h : Nat) (hb : brace.isBraceOpen) : turn h brace = h + 1 := by simp [turn, hb]

theorem turn_close (h : Nat) (hc : close.isBraceClose) : turn h close = h - 1 := by
  simp [turn, hc, Token.isBraceOpen_of_isBraceClose hc]

/-- Behind a block the height is what it would be without the block and its header. -/
theorem height_block (hf : Flat front) (hb : brace.isBraceOpen) (hi : Balanced inner)
    (hc : close.isBraceClose) :
    height (front ++ brace :: (inner ++ close :: rest)) = height rest := by
  rw [hf.height_append, height, heightFrom_cons, turn_open 0 hb, heightFrom_append,
    hi.heightFrom_eq, heightFrom_cons, turn_close _ hc]
  rfl

/-- A block reaches one level more than its inside, and what follows it starts anew. -/
theorem peak_block (hf : Flat front) (hb : brace.isBraceOpen) (hi : Balanced inner)
    (hc : close.isBraceClose) :
    peak (front ++ brace :: (inner ++ close :: rest)) = max (1 + peak inner) (peak rest) := by
  have hinner : heightFrom 1 inner = 1 := hi.heightFrom_eq 1
  have hlow : peakFrom 1 inner = 1 + peak inner :=
    (Balanced.heightFrom_add (by rwa [List.append_nil]) 1).2
  rw [hf.peak_append, peak, peakFrom_cons, turn_open 0 hb, peakFrom_append, peakFrom_cons,
    Nat.zero_add, hinner, hlow, turn_close 1 hc]
  have hrest : peakFrom (1 - 1) rest = peak rest := rfl
  omega

/-- Inside a block the heights are one more than in its tokens alone. -/
theorem height_inside {ts : List Token} (hf : Flat front) (hb : brace.isBraceOpen)
    (hi : Balanced (inner ++ ts)) : height (front ++ brace :: inner) = 1 + height inner ∧
      peak (front ++ brace :: inner) = 1 + peak inner := by
  obtain ⟨hheight, hpeak⟩ := hi.heightFrom_add 1
  constructor
  · rw [hf.height_append, height, heightFrom_cons, turn_open 0 hb, hheight]
  · rw [hf.peak_append, peak, peakFrom_cons, turn_open 0 hb, hpeak]
    omega

theorem Flat.opens_append (hf : Flat front) (rest : List Token) :
    opens (front ++ rest) = opens rest := by
  have hfront : opens front = 0 := List.countP_eq_zero.mpr (by simpa [Flat] using hf)
  rw [Braces.opens_append, hfront, Nat.zero_add]

theorem opens_block (hf : Flat front) (hb : brace.isBraceOpen) (hc : close.isBraceClose) :
    opens (front ++ brace :: (inner ++ close :: rest)) = 1 + opens inner + opens rest := by
  rw [hf.opens_append, opens_cons_open _ hb, Braces.opens_append, opens_cons_close _ hc]
  omega

end

/-- Where the height is not zero, the innermost brace that is open has balanced tokens behind
it. -/
theorem exists_open_of_height_pos {front : List Token} (h : 0 < height front) :
    ∃ before brace inner, front = before ++ brace :: inner ∧ brace.isBraceOpen ∧
      Balanced inner := by
  -- on the length: what a closing brace ends is skipped as a whole
  induction hn : front.length using Nat.strong_induction_on generalizing front with
  | _ n ih =>
    rcases List.eq_nil_or_concat front with rfl | ⟨init, t, rfl⟩
    · simp [height] at h
    rw [List.concat_eq_append] at h hn ⊢
    have hlt : init.length < n := by
      rw [← hn, List.length_append]
      simp
    have hsplit : height (init ++ [t]) = turn (height init) t := by
      rw [height, heightFrom_append]
      rfl
    rw [hsplit] at h
    cases ho : t.isBraceOpen with
    | true => exact ⟨init, t, [], rfl, ho, settles_zero.mp settles_nil⟩
    | false =>
      cases hc : t.isBraceClose with
      | false =>
        have hturn : turn (height init) t = height init := by simp [turn, ho, hc]
        obtain ⟨before, brace, inner, rfl, hb, hi⟩ := ih _ hlt (hturn ▸ h) rfl
        have ht : Turns 0 t 0 := by simp [Turns, ho, hc]
        have ht : Balanced [t] := settles_zero.mp ((settles_cons ht).mpr settles_nil)
        exact ⟨before, brace, inner ++ [t], by simp, hb, hi.append ht⟩
      | true =>
        rw [turn_close _ hc] at h
        obtain ⟨before, brace, inner, rfl, hb, hi⟩ := ih _ hlt (by omega) rfl
        have hheight : height (before ++ brace :: inner) = height before + 1 := by
          rw [height, heightFrom_append, heightFrom_cons, turn_open _ hb, hi.heightFrom_eq]
          rfl
        have hbefore : before.length < n := by
          rw [List.length_append] at hlt
          omega
        obtain ⟨outer, open', inner', rfl, hb', hi'⟩ := ih _ hbefore (by omega) rfl
        exact ⟨outer, open', inner' ++ brace :: (inner ++ [t]), by simp, hb',
          hi'.append (hi.wrap hb hc)⟩

theorem OpenAt.ne_nil {ts : List Token} {o : Nat} (h : OpenAt ts o) : ts ≠ [] := by
  rintro rfl
  obtain ⟨t, hget, -⟩ := h
  cases hget

theorem CloseAt.not_openAt {ts : List Token} {i : Nat} (h : CloseAt ts i) : ¬ OpenAt ts i := by
  obtain ⟨t, hget, ht⟩ := h
  rintro ⟨u, hu, ho⟩
  obtain rfl := Option.some.inj (hget.symm.trans hu)
  rw [Token.isBraceOpen_of_isBraceClose ht] at ho
  cases ho

theorem openAt_append (front : List Token) {brace : Token} (back : List Token)
    (hb : brace.isBraceOpen) : OpenAt (front ++ brace :: back) front.length :=
  ⟨brace, by simp, hb⟩

theorem exists_of_openAt {ts : List Token} {o : Nat} (h : OpenAt ts o) :
    ∃ front brace back, ts = front ++ brace :: back ∧ o = front.length ∧ brace.isBraceOpen := by
  obtain ⟨brace, hget, hb⟩ := h
  obtain ⟨front, back, hs, hlength⟩ := exists_append_of_getElem? hget
  exact ⟨front, brace, back, hs, hlength, hb⟩

theorem openAt_around (before : List Token) {ts : List Token} (behind : List Token) {o : Nat}
    (h : OpenAt ts o) : OpenAt (before ++ (ts ++ behind)) (before.length + o) := by
  obtain ⟨front, brace, back, rfl, rfl, hb⟩ := exists_of_openAt h
  have hsplit : before ++ (front ++ brace :: back ++ behind) =
      (before ++ front) ++ brace :: (back ++ behind) := by simp
  rw [hsplit, ← List.length_append]
  exact openAt_append (before ++ front) (back ++ behind) hb

/-- A brace is answered in the same way whatever stands around the tokens. -/
theorem answers_around (before : List Token) {ts : List Token} (behind : List Token) {o c : Nat}
    (ho : OpenAt ts o) (h : Answers ts o c) :
    Answers (before ++ (ts ++ behind)) (before.length + o) (before.length + c) := by
  obtain ⟨front, brace, back, rfl, rfl, hb⟩ := exists_of_openAt ho
  obtain ⟨inner, close, rest, rfl, rfl, hc, hi⟩ := exists_of_answers h
  have hsplit : before ++ (front ++ brace :: (inner ++ close :: rest) ++ behind) =
      (before ++ front) ++ brace :: (inner ++ close :: (rest ++ behind)) := by simp
  have hlength : before.length + (front.length + 1 + inner.length) =
      (before ++ front).length + 1 + inner.length := by
    rw [List.length_append]
    omega
  rw [hsplit, hlength, ← List.length_append]
  exact answers_append (before ++ front) brace (rest ++ behind) hi hc

/-- What is answered behind further tokens is answered without them. -/
theorem exists_answers_of_append {before ts : List Token} {o c : Nat} (ho : OpenAt ts o)
    (h : Answers (before ++ ts) (before.length + o) c) : ∃ d, Answers ts o d := by
  obtain ⟨front, brace, back, rfl, rfl, hb⟩ := exists_of_openAt ho
  rw [← List.append_assoc, ← List.length_append] at h
  obtain ⟨inner, close, rest, rfl, -, hc, hi⟩ := exists_of_answers h
  exact ⟨_, answers_append front brace rest hi hc⟩

/-- In balanced tokens every opening brace is answered. -/
theorem Balanced.exists_answers {ts : List Token} {o : Nat} (hb : Balanced ts)
    (ho : OpenAt ts o) : ∃ c, Answers ts o c := by
  obtain ⟨front, brace, back, rfl, rfl, hbrace⟩ := exists_of_openAt ho
  cases hs : Scan.closer? 0 back with
  | some n =>
    obtain ⟨inner, close, rest, rfl, -, hc, hi⟩ := exists_of_closer? hs
    exact ⟨_, answers_append front brace rest (settles_zero.mp hi) hc⟩
  | none =>
    have hback := covered_of_closer?_eq_none hs List.prefix_rfl
    have hfront := hb.covered front (List.prefix_append ..)
    have hlevel := hb.level
    rw [opens_append, closes_append, opens_cons_open _ hbrace, closes_cons_open _ hbrace] at hlevel
    omega

/-- A closing brace answers an opening one exactly where a brace is open in front of it. -/
theorem answered_iff {front : List Token} {close : Token} (back : List Token)
    (hc : close.isBraceClose) :
    Answered (front ++ close :: back) front.length ↔ 0 < height front := by
  constructor
  · rintro ⟨o, hopen, ha⟩
    obtain ⟨before, brace, after, hs, rfl, hb⟩ := exists_of_openAt hopen
    rw [hs] at ha
    obtain ⟨inner, last, rest, rfl, hlen, -, hi⟩ := exists_of_answers ha
    have hfront : front = before ++ brace :: inner := by
      have hs' : front ++ close :: back = (before ++ brace :: inner) ++ last :: rest := by
        rw [hs]
        simp
      refine (List.append_inj hs' ?_).1
      rw [hlen, List.length_append, List.length_cons]
      omega
    rw [hfront, height, heightFrom_append, heightFrom_cons, turn_open _ hb, hi.heightFrom_eq]
    exact Nat.succ_pos _
  · intro h
    obtain ⟨before, brace, inner, rfl, hb, hi⟩ := exists_open_of_height_pos h
    have hs : before ++ brace :: inner ++ close :: back =
        before ++ brace :: (inner ++ close :: back) := by simp
    have hlen : (before ++ brace :: inner).length = before.length + 1 + inner.length := by
      rw [List.length_append, List.length_cons]
      omega
    rw [hs, hlen]
    exact ⟨before.length, openAt_append before _ hb, answers_append before brace back hi hc⟩

/-- In balanced tokens a brace is open in front of every closing one. -/
theorem Balanced.height_pos {front back : List Token} {close : Token}
    (hb : Balanced (front ++ close :: back)) (hc : close.isBraceClose) : 0 < height front := by
  have hcovered : ∀ part, part <+: front → closes part ≤ opens part := by
    intro part hp
    exact hb.covered part (hp.trans (List.prefix_append ..))
  have hcount : height front + closes front = 0 + opens front :=
    (@heightFrom_covered front 0 hcovered 0).1
  have hthrough := hb.covered (front ++ [close]) ⟨back, by simp⟩
  rw [opens_append, closes_append, opens_cons_close _ hc, closes_cons_close _ hc, opens_nil,
    closes_nil] at hthrough
  omega

end RuleTree.Braces
