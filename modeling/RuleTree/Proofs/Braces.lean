import Mathlib.Data.List.Infix
import Mathlib.Data.List.TakeWhile
import Mathlib.Tactic
import RuleTree.Proofs.Spans
import RuleTree.Token.Scan

/-! Braces of a token list, counted: balanced lists, and the closing brace that answers an
opening one. The search for that brace finds exactly the first position at which a count of open
braces is back where it stood. -/
namespace RuleTree

namespace Token

variable {t : Token}

/-- A token that passes the test for one kind fails that for another. -/
theorem kind_beq_of_ne {k n : Kind} (h : t.kind == k) (hne : k ≠ n) : (t.kind == n) = false := by
  rw [beq_iff_eq] at h
  rw [h]
  exact beq_eq_false_iff_ne.mpr hne

theorem isBraceClose_of_isBraceOpen (h : t.isBraceOpen) : t.isBraceClose = false :=
  kind_beq_of_ne h (by decide)

theorem isBraceOpen_of_isBraceClose (h : t.isBraceClose) : t.isBraceOpen = false :=
  kind_beq_of_ne h (by decide)

end Token

namespace Braces

/-- Number of opening braces. -/
def opens (ts : List Token) : Nat := ts.countP Token.isBraceOpen

/-- Number of closing braces. -/
def closes (ts : List Token) : Nat := ts.countP Token.isBraceClose

/-- No opening brace stands among the tokens. -/
def Flat (ts : List Token) : Prop := ∀ t ∈ ts, t.isBraceOpen = false

/-- The tokens close `before` braces that are open in front of them and all that they open, and
no beginning of them closes more. -/
structure Settles (before : Nat) (ts : List Token) : Prop where
  covered : ∀ front, front <+: ts → closes front ≤ opens front + before
  level : closes ts = opens ts + before

/-- No beginning of the tokens has more closing than opening braces, and in all there are as
many of the one as of the other. -/
structure Balanced (ts : List Token) : Prop where
  covered : ∀ front, front <+: ts → closes front ≤ opens front
  level : closes ts = opens ts

/-- Behind `t` there are `after` open braces where there were `before` in front of it. -/
def Turns (before : Nat) (t : Token) (after : Nat) : Prop :=
  before + (if t.isBraceOpen then 1 else 0) = after + if t.isBraceClose then 1 else 0

/-- The brace at `c` answers the one at `o`: of the positions behind `o` it is the first at which
a count of open braces that starts at one is back at zero. -/
structure Answers (ts : List Token) (o c : Nat) : Prop where
  behind : o < c
  within : c < ts.length
  level : closes (Span.tokens ⟨o + 1, c + 1⟩ ts) = opens (Span.tokens ⟨o + 1, c + 1⟩ ts) + 1
  first : ∀ m, o < m → m < c →
    closes (Span.tokens ⟨o + 1, m + 1⟩ ts) ≠ opens (Span.tokens ⟨o + 1, m + 1⟩ ts) + 1

instance (ts : List Token) : Decidable (Flat ts) :=
  inferInstanceAs (Decidable (∀ t ∈ ts, t.isBraceOpen = false))

instance (ts : List Token) : Decidable (Balanced ts) :=
  decidable_of_iff ((∀ front ∈ ts.inits, closes front ≤ opens front) ∧ closes ts = opens ts)
    ⟨fun h => ⟨fun front hf => h.1 front ((List.mem_inits _ _).mpr hf), h.2⟩,
      fun h => ⟨fun front hf => h.covered front ((List.mem_inits _ _).mp hf), h.level⟩⟩

@[simp] theorem opens_nil : opens [] = 0 := rfl
@[simp] theorem closes_nil : closes [] = 0 := rfl

@[simp] theorem opens_cons (t : Token) (ts : List Token) :
    opens (t :: ts) = opens ts + if t.isBraceOpen then 1 else 0 := List.countP_cons

@[simp] theorem closes_cons (t : Token) (ts : List Token) :
    closes (t :: ts) = closes ts + if t.isBraceClose then 1 else 0 := List.countP_cons

@[simp] theorem opens_append (ts us : List Token) : opens (ts ++ us) = opens ts + opens us :=
  List.countP_append

@[simp] theorem closes_append (ts us : List Token) :
    closes (ts ++ us) = closes ts + closes us := List.countP_append

section
variable {t : Token} (ts : List Token)

theorem opens_cons_open (h : t.isBraceOpen) : opens (t :: ts) = opens ts + 1 := by simp [h]

theorem closes_cons_open (h : t.isBraceOpen) : closes (t :: ts) = closes ts := by
  simp [Token.isBraceClose_of_isBraceOpen h]

theorem opens_cons_close (h : t.isBraceClose) : opens (t :: ts) = opens ts := by
  simp [Token.isBraceOpen_of_isBraceClose h]

theorem closes_cons_close (h : t.isBraceClose) : closes (t :: ts) = closes ts + 1 := by simp [h]

end

theorem flat_append {ts us : List Token} : Flat (ts ++ us) ↔ Flat ts ∧ Flat us := by
  simp only [Flat, List.forall_mem_append]

theorem flat_of_isDelimiter {t : Token} (ht : t.isDelimiter) : Flat [t] := by
  have ho : t.isBraceOpen = false := Token.kind_beq_of_ne ht (by decide)
  simp [Flat, ho]

theorem Flat.of_suffix {ts us : List Token} (h : Flat us) (hs : ts <:+ us) : Flat ts :=
  fun t ht => h t (hs.subset ht)

theorem Flat.takeWhile_append {front back : List Token} {brace : Token} (hf : Flat front)
    (hb : brace.isBraceOpen) :
    (front ++ brace :: back).takeWhile (fun t => !t.isBraceOpen) = front := by
  rw [List.takeWhile_append_of_pos (fun t ht => by simp [hf t ht])]
  simp [hb]

theorem Flat.dropWhile_append {front back : List Token} {brace : Token} (hf : Flat front)
    (hb : brace.isBraceOpen) :
    (front ++ brace :: back).dropWhile (fun t => !t.isBraceOpen) = brace :: back := by
  rw [List.dropWhile_append_of_pos (fun t ht => by simp [hf t ht])]
  simp [hb]

theorem Flat.dropWhile_eq_nil {ts : List Token} (hf : Flat ts) :
    ts.dropWhile (fun t => !t.isBraceOpen) = [] := by
  rw [List.dropWhile_eq_nil_iff]
  intro t ht
  simp [hf t ht]

/-- A list is flat, or it splits at its first opening brace. -/
theorem flat_or_split (ts : List Token) :
    Flat ts ∨ ∃ front brace back, ts = front ++ brace :: back ∧ Flat front ∧ brace.isBraceOpen := by
  induction ts with
  | nil => exact .inl (by simp [Flat])
  | cons t ts ih =>
    cases ht : t.isBraceOpen with
    | true => exact .inr ⟨[], t, ts, rfl, by simp [Flat], ht⟩
    | false =>
      rcases ih with hf | ⟨front, brace, back, rfl, hf, hb⟩
      · exact .inl (List.forall_mem_cons.mpr ⟨ht, hf⟩)
      · exact .inr ⟨t :: front, brace, back, rfl, List.forall_mem_cons.mpr ⟨ht, hf⟩, hb⟩

theorem settles_zero {ts : List Token} : Settles 0 ts ↔ Balanced ts :=
  ⟨fun h => ⟨h.covered, h.level⟩, fun h => ⟨h.covered, h.level⟩⟩

theorem close_or_turns (before : Nat) (t : Token) :
    (before = 0 ∧ t.isBraceClose) ∨ ∃ after, Turns before t after := by
  cases ho : t.isBraceOpen with
  | true => exact .inr ⟨before + 1, by simp [Turns, ho, Token.isBraceClose_of_isBraceOpen ho]⟩
  | false =>
    cases hc : t.isBraceClose with
    | false => exact .inr ⟨before, by simp [Turns, ho, hc]⟩
    | true =>
      cases before with
      | zero => exact .inl ⟨rfl, rfl⟩
      | succ after => exact .inr ⟨after, by simp [Turns, ho, hc]⟩

theorem settles_cons {before after : Nat} {t : Token} {ts : List Token}
    (h : Turns before t after) : Settles before (t :: ts) ↔ Settles after ts := by
  unfold Turns at h
  constructor
  · intro hs
    refine ⟨fun front hf => ?_, ?_⟩
    · have := hs.covered (t :: front) (List.cons_prefix_cons.mpr ⟨rfl, hf⟩)
      simp only [opens_cons, closes_cons] at this
      omega
    · have := hs.level
      simp only [opens_cons, closes_cons] at this
      omega
  · intro hs
    refine ⟨fun front hf => ?_, ?_⟩
    · rcases List.prefix_cons_iff.mp hf with rfl | ⟨more, rfl, hm⟩
      · simp
      · have := hs.covered more hm
        simp only [opens_cons, closes_cons]
        omega
    · have := hs.level
      simp only [opens_cons, closes_cons]
      omega

theorem not_settles_zero_cons {t : Token} {ts : List Token} (h : t.isBraceClose) :
    ¬ Settles 0 (t :: ts) := by
  intro hs
  have hfirst := hs.covered [t] (by simp)
  rw [opens_cons_close _ h, closes_cons_close _ h] at hfirst
  simp at hfirst

theorem closer?_zero_cons {t : Token} {ts : List Token} (h : t.isBraceClose) :
    Scan.closer? 0 (t :: ts) = some 0 := by
  simp [Scan.closer?, h, Token.isBraceOpen_of_isBraceClose h]

theorem closer?_cons {before after : Nat} {t : Token} (ts : List Token)
    (h : Turns before t after) :
    Scan.closer? before (t :: ts) = (Scan.closer? after ts).map (· + 1) := by
  unfold Turns at h
  cases ho : t.isBraceOpen with
  | true =>
    have hafter : after = before + 1 := by
      simpa [ho, Token.isBraceClose_of_isBraceOpen ho] using h.symm
    simp [Scan.closer?.eq_def before (t :: ts), ho, hafter]
  | false =>
    cases hc : t.isBraceClose with
    | true =>
      have hbefore : before = after + 1 := by simpa [ho, hc] using h
      simp [Scan.closer?, ho, hc, hbefore]
    | false =>
      have hbefore : before = after := by simpa [ho, hc] using h
      simp [Scan.closer?.eq_def after (t :: ts), ho, hc, hbefore]

/-- The search passes over tokens that settle what is open and stops at the next closing brace. -/
theorem closer?_append {before : Nat} {inner : List Token} {close : Token} (rest : List Token)
    (hi : Settles before inner) (hc : close.isBraceClose) :
    Scan.closer? before (inner ++ close :: rest) = some inner.length := by
  induction inner generalizing before with
  | nil =>
    have hb : before = 0 := by simpa using hi.level.symm
    rw [List.nil_append, hb, closer?_zero_cons hc]
    rfl
  | cons t ts ih =>
    rcases close_or_turns before t with ⟨rfl, ht⟩ | ⟨after, ht⟩
    · exact absurd hi (not_settles_zero_cons ht)
    · rw [List.cons_append, closer?_cons _ ht, ih ((settles_cons ht).mp hi)]
      rfl

/-- What the search has passed over when it stops. -/
theorem exists_of_closer? {before n : Nat} {ts : List Token}
    (h : Scan.closer? before ts = some n) :
    ∃ inner close rest, ts = inner ++ close :: rest ∧ inner.length = n ∧
      close.isBraceClose ∧ Settles before inner := by
  induction ts generalizing before n with
  | nil => cases h
  | cons t ts ih =>
    rcases close_or_turns before t with ⟨rfl, ht⟩ | ⟨after, ht⟩
    · rw [closer?_zero_cons ht] at h
      cases h
      exact ⟨[], t, ts, rfl, rfl, ht, by simp, rfl⟩
    · rw [closer?_cons _ ht] at h
      obtain ⟨m, hm, rfl⟩ := Option.map_eq_some_iff.mp h
      obtain ⟨inner, close, rest, rfl, rfl, hc, hi⟩ := ih hm
      exact ⟨t :: inner, close, rest, rfl, rfl, hc, (settles_cons ht).mpr hi⟩

/-- Where the search finds nothing, no beginning closes more than is open. -/
theorem covered_of_closer?_eq_none {before : Nat} {ts front : List Token}
    (h : Scan.closer? before ts = none) (hf : front <+: ts) :
    closes front ≤ opens front + before := by
  induction ts generalizing before front with
  | nil =>
    rw [List.prefix_nil.mp hf]
    simp
  | cons t ts ih =>
    rcases List.prefix_cons_iff.mp hf with rfl | ⟨more, rfl, hm⟩
    · simp
    rcases close_or_turns before t with ⟨rfl, ht⟩ | ⟨after, ht⟩
    · rw [closer?_zero_cons ht] at h
      cases h
    · rw [closer?_cons _ ht, Option.map_eq_none_iff] at h
      have hcovered := ih h hm
      unfold Turns at ht
      rw [opens_cons, closes_cons]
      omega

theorem Answers.unique {ts : List Token} {o c d : Nat} (hc : Answers ts o c)
    (hd : Answers ts o d) : c = d := by
  rcases Nat.lt_trichotomy c d with h | h | h
  · exact absurd hc.level (hd.first c hc.behind h)
  · exact h
  · exact absurd hd.level (hc.first d hd.behind h)

/-- The brace behind balanced tokens answers the one in front of them. -/
theorem answers_append (front : List Token) (brace : Token) {inner : List Token} {close : Token}
    (rest : List Token) (hi : Balanced inner) (hc : close.isBraceClose) :
    Answers (front ++ brace :: (inner ++ close :: rest)) front.length
      (front.length + 1 + inner.length) where
  behind := by omega
  within := by
    simp only [List.length_append, List.length_cons]
    omega
  level := by
    rw [Nat.add_assoc _ inner.length, tokens_behind, take_through]
    simp [hi.level, hc, Token.isBraceOpen_of_isBraceClose hc]
  first m hm hl := by
    have hn : m + 1 = front.length + 1 + (m - front.length) := by omega
    have := hi.covered (inner.take (m - front.length)) (List.take_prefix ..)
    rw [hn, tokens_behind, List.take_append_of_le_length (by omega)]
    omega

/-- What stands between an opening brace and the position that answers it. -/
theorem exists_of_answers {front back : List Token} {brace : Token} {c : Nat}
    (h : Answers (front ++ brace :: back) front.length c) :
    ∃ inner close rest, back = inner ++ close :: rest ∧ c = front.length + 1 + inner.length ∧
      close.isBraceClose ∧ Balanced inner := by
  cases hs : Scan.closer? 0 back with
  | none =>
    have hn : c + 1 = front.length + 1 + (c - front.length) := by
      have := h.behind
      omega
    have hl := h.level
    rw [hn, tokens_behind] at hl
    have := covered_of_closer?_eq_none hs (List.take_prefix (c - front.length) back)
    omega
  | some n =>
    obtain ⟨inner, close, rest, rfl, -, hc, hi⟩ := exists_of_closer? hs
    have hi := settles_zero.mp hi
    exact ⟨inner, close, rest, rfl, h.unique (answers_append front brace rest hi hc), hc, hi⟩

theorem matchingBrace_append (front : List Token) (brace : Token) {inner : List Token}
    {close : Token} (rest : List Token) (hi : Balanced inner) (hc : close.isBraceClose) :
    Scan.matchingBrace (front ++ brace :: (inner ++ close :: rest)) front.length =
      .ok (front.length + 1 + inner.length) := by
  simp only [Scan.matchingBrace, drop_behind, closer?_append rest (settles_zero.mpr hi) hc]

theorem exists_of_matchingBrace {front back : List Token} {brace : Token} {c : Nat}
    (h : Scan.matchingBrace (front ++ brace :: back) front.length = .ok c) :
    ∃ inner close rest, back = inner ++ close :: rest ∧ c = front.length + 1 + inner.length ∧
      close.isBraceClose ∧ Balanced inner := by
  rw [Scan.matchingBrace, drop_behind] at h
  split at h
  next n hn =>
    obtain ⟨inner, close, rest, rfl, rfl, hc, hi⟩ := exists_of_closer? hn
    cases h
    exact ⟨inner, close, rest, rfl, rfl, hc, settles_zero.mp hi⟩
  next => cases h

end Braces
end RuleTree
