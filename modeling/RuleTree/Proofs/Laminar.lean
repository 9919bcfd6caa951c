import Mathlib
import RuleTree.Proofs.Faults
import RuleTree.Proofs.Height
import RuleTree.Token.Lexer

/-! Pairs of braces. The search for the brace that answers an opening one finds the closing brace
behind balanced tokens and no other. Of two pairs the later one stands behind the earlier one or
inside it, and what opens inside a pair is answered there, as if the tokens between the two braces
stood alone. -/
namespace RuleTree

namespace Braces

/-- A closing brace stands at `c`, and the tokens between `o` and `c` are balanced. -/
structure Encloses (ts : List Token) (o c : Nat) : Prop where
  behind : o < c
  close : CloseAt ts c
  balanced : Balanced (Span.tokens ⟨o + 1, c⟩ ts)

theorem encloses_append (front : List Token) (brace : Token) {inner : List Token} {close : Token}
    (rest : List Token) (hi : Balanced inner) (hc : close.isBraceClose) :
    Encloses (front ++ brace :: (inner ++ close :: rest)) front.length
      (front.length + 1 + inner.length) where
  behind := by omega
  close := by
    refine ⟨close, ?_, hc⟩
    rw [← List.getElem?_drop, drop_behind, List.getElem?_append_right (Nat.le_refl _),
      Nat.sub_self]
    rfl
  balanced := by rwa [tokens_between]

section
variable {ts : List Token} {o c i d : Nat}

theorem Encloses.within (h : Encloses ts o c) : c < ts.length := by
  obtain ⟨t, hget, -⟩ := h.close
  exact (List.getElem?_eq_some_iff.mp hget).1

theorem Encloses.exists_split (h : Encloses ts o c) :
    ∃ front brace inner close rest, ts = front ++ brace :: (inner ++ close :: rest) ∧
      o = front.length ∧ c = front.length + 1 + inner.length ∧ close.isBraceClose ∧
      Balanced inner := by
  obtain ⟨front, brace, back, rfl, rfl⟩ := exists_append_of_lt (h.behind.trans h.within)
  obtain ⟨n, rfl⟩ : ∃ n, c = front.length + 1 + n := Nat.exists_eq_add_of_le h.behind
  obtain ⟨close, hget, hc⟩ := h.close
  have hbalanced := h.balanced
  rw [← List.getElem?_drop, drop_behind] at hget
  rw [tokens_behind] at hbalanced
  obtain ⟨inner, rest, rfl, rfl⟩ := exists_append_of_getElem? hget
  rw [List.take_left] at hbalanced
  exact ⟨front, brace, inner, close, rest, rfl, rfl, rfl, hc, hbalanced⟩

/-- The tokens behind `o` are balanced up to the brace at which a count of open braces is back at
zero for the first time. -/
theorem encloses_iff_answers : Encloses ts o c ↔ Answers ts o c := by
  constructor
  · intro h
    obtain ⟨front, brace, inner, close, rest, rfl, rfl, rfl, hc, hi⟩ := h.exists_split
    exact answers_append front brace rest hi hc
  · intro h
    obtain ⟨front, brace, back, rfl, rfl⟩ := exists_append_of_lt (h.behind.trans h.within)
    obtain ⟨inner, close, rest, rfl, rfl, hc, hi⟩ := exists_of_answers h
    exact encloses_append front brace rest hi hc

theorem Encloses.unique (hc : Encloses ts o c) (hd : Encloses ts o d) : c = d :=
  (encloses_iff_answers.mp hc).unique (encloses_iff_answers.mp hd)

/-- The search finds the closing brace behind balanced tokens, -/
theorem matchingBrace_eq_ok_iff : Scan.matchingBrace ts o = .ok c ↔ Encloses ts o c := by
  constructor
  · intro h
    have hbounds := Scan.matchingBrace_bounds h
    obtain ⟨front, brace, back, rfl, rfl⟩ := exists_append_of_lt (hbounds.1.trans hbounds.2)
    obtain ⟨inner, close, rest, rfl, rfl, hc, hi⟩ := exists_of_matchingBrace h
    exact encloses_append front brace rest hi hc
  · intro h
    obtain ⟨front, brace, inner, close, rest, rfl, rfl, rfl, hc, hi⟩ := h.exists_split
    exact matchingBrace_append front brace rest hi hc

/-- and is refused where there is none. -/
theorem matchingBrace_eq_error_iff {e : ParseError} : Scan.matchingBrace ts o = .error e ↔
    e = .atLast .unmatchedBrace ts ∧ ∀ c, ¬ Encloses ts o c := by
  simp only [← matchingBrace_eq_ok_iff, Scan.matchingBrace]
  cases Scan.closer? 0 (ts.drop (o + 1)) with
  | none => simp [eq_comm]
  | some n => simp

/-- What opens between two braces is answered between them, and in the same place where the
tokens between the two stand alone. -/
theorem Encloses.exists_inside (h : Encloses ts o c) (hi : OpenAt ts i) (ho : o < i)
    (hc : i < c) : ∃ d < c, Encloses ts i d ∧
      Encloses (Span.tokens ⟨o + 1, c⟩ ts) (i - (o + 1)) (d - (o + 1)) := by
  have hwithin := h.within
  obtain ⟨n, rfl⟩ : ∃ n, c = o + 1 + n := Nat.exists_eq_add_of_le h.behind
  obtain ⟨m, rfl⟩ : ∃ m, i = o + 1 + m := Nat.exists_eq_add_of_le ho
  have hfront : (ts.take (o + 1)).length = o + 1 := List.length_take_of_le (by omega)
  have hopen : OpenAt (Span.tokens ⟨o + 1, o + 1 + n⟩ ts) m := by
    rwa [OpenAt, Span.getElem?_tokens ts (by omega)]
  -- balanced tokens answer all that they open, and what stands around them changes no answer
  obtain ⟨d, hd⟩ := h.balanced.exists_answers hopen
  have hlt : d < n := by
    refine hd.within.trans_le ?_
    rw [Span.tokens_eq_take]
    exact List.length_take_le n _
  have haround := answers_around (ts.take (o + 1)) (ts.drop (o + 1 + n)) hopen hd
  rw [Span.take_append_tokens_append_drop, hfront] at haround
  refine ⟨o + 1 + d, by omega, encloses_iff_answers.mpr haround, ?_⟩
  rw [Nat.add_sub_cancel_left, Nat.add_sub_cancel_left]
  exact encloses_iff_answers.mpr hd

/-- A brace that opens later is answered behind the first pair or inside it. -/
theorem Encloses.apart (hc : Encloses ts o c) (hd : Encloses ts i d) (hi : OpenAt ts i)
    (ho : o < i) : c < i ∨ d < c := by
  rcases Nat.lt_trichotomy c i with hlt | rfl | hlt
  · exact .inl hlt
  · exact absurd hi hc.close.not_openAt
  · obtain ⟨d', hlt', hinside, -⟩ := hc.exists_inside hi ho hlt
    obtain rfl := hd.unique hinside
    exact .inr hlt'

/-- No two opening braces are answered by one closing brace. -/
theorem Encloses.open_unique (hc : Encloses ts o c) (hd : Encloses ts i c) (ho : OpenAt ts o)
    (hi : OpenAt ts i) : o = i := by
  rcases Nat.lt_trichotomy o i with hlt | rfl | hlt
  · have hbehind := hd.behind
    have := hc.apart hd hi hlt
    omega
  · rfl
  · have hbehind := hc.behind
    have := hd.apart hc ho hlt
    omega

end

/-- How the search pairs the braces of a token list. -/
structure Laminar (ts : List Token) : Prop where
  /-- An opening brace is paired with the closing one that has balanced tokens in front of it, -/
  found : ∀ o, OpenAt ts o → ∀ c, Scan.matchingBrace ts o = .ok c ↔ Encloses ts o c
  /-- and refused at the last token exactly where no brace is such a one; -/
  refused : ∀ o, OpenAt ts o → ∃ last, ts.getLast? = some last ∧
    ∀ e, Scan.matchingBrace ts o = .error e ↔
      e.Cites .unmatchedBrace last ∧ ∀ c, ¬ Encloses ts o c
  /-- there are never two of them. -/
  unique : ∀ o c d, Encloses ts o c → Encloses ts o d → c = d
  /-- Of two pairs the later one is behind the earlier one or inside it, -/
  apart : ∀ o₁ o₂ c₁ c₂, OpenAt ts o₁ → OpenAt ts o₂ → o₁ < o₂ →
    Scan.matchingBrace ts o₁ = .ok c₁ → Scan.matchingBrace ts o₂ = .ok c₂ → c₁ < o₂ ∨ c₂ < c₁
  /-- and no closing brace belongs to two pairs. -/
  injective : ∀ o₁ o₂ c, OpenAt ts o₁ → OpenAt ts o₂ → Scan.matchingBrace ts o₁ = .ok c →
    Scan.matchingBrace ts o₂ = .ok c → o₁ = o₂
  /-- What opens inside a pair is paired there, in the whole list as in the tokens between the two
  braces of the pair alone. -/
  inside : ∀ o₁ o₂ c₁, OpenAt ts o₁ → OpenAt ts o₂ → Scan.matchingBrace ts o₁ = .ok c₁ →
    o₁ < o₂ → o₂ < c₁ → ∃ c₂, o₂ < c₂ ∧ c₂ < c₁ ∧ Scan.matchingBrace ts o₂ = .ok c₂ ∧
      Scan.matchingBrace (Span.tokens ⟨o₁ + 1, c₁⟩ ts) (o₂ - (o₁ + 1)) = .ok (c₂ - (o₁ + 1))

theorem matchingBrace_laminar (ts : List Token) : Laminar ts where
  found _ _ _ := matchingBrace_eq_ok_iff
  refused o ho := by
    have hlast := List.getLast?_eq_some_getLast ho.ne_nil
    refine ⟨_, hlast, fun e => ?_⟩
    rw [matchingBrace_eq_error_iff, ParseError.atLast_eq hlast, ParseError.cites_iff]
  unique _ _ _ hc hd := hc.unique hd
  apart _ _ _ _ _ ho₂ hlt h₁ h₂ :=
    (matchingBrace_eq_ok_iff.mp h₁).apart (matchingBrace_eq_ok_iff.mp h₂) ho₂ hlt
  injective _ _ _ ho₁ ho₂ h₁ h₂ :=
    (matchingBrace_eq_ok_iff.mp h₁).open_unique (matchingBrace_eq_ok_iff.mp h₂) ho₁ ho₂
  inside o₁ o₂ c₁ _ ho₂ h₁ hlt hle := by
    obtain ⟨c₂, hc₂, hwhole, hpart⟩ :=
      (matchingBrace_eq_ok_iff.mp h₁).exists_inside ho₂ hlt hle
    exact ⟨c₂, hwhole.behind, hc₂, matchingBrace_eq_ok_iff.mpr hwhole,
      matchingBrace_eq_ok_iff.mpr hpart⟩

theorem matchingBrace_laminar_nested :
    Scan.matchingBrace (Source.tokens ⟨none, "\x7b\x7b\x7d\x7b\x7d\x7d"⟩) 0 = .ok 5 ∧
      Scan.matchingBrace (Source.tokens ⟨none, "\x7b\x7b\x7d\x7b\x7d\x7d"⟩) 3 = .ok 4 ∧
      Scan.matchingBrace
        (Span.tokens ⟨1, 5⟩ (Source.tokens ⟨none, "\x7b\x7b\x7d\x7b\x7d\x7d"⟩)) 2 = .ok 3 := by
  have houter : OpenAt (Source.tokens ⟨none, "\x7b\x7b\x7d\x7b\x7d\x7d"⟩) 0 :=
    of_decide_eq_true (by cbv)
  have hinner : OpenAt (Source.tokens ⟨none, "\x7b\x7b\x7d\x7b\x7d\x7d"⟩) 3 :=
    of_decide_eq_true (by cbv)
  have hpair :
      Scan.matchingBrace (Source.tokens ⟨none, "\x7b\x7b\x7d\x7b\x7d\x7d"⟩) 0 = .ok 5 := by cbv
  obtain ⟨c, hbehind, hwithin, hwhole, hpart⟩ := (matchingBrace_laminar _).inside 0 3 5 houter
    hinner hpair (by decide) (by decide)
  obtain rfl : c = 4 := by omega
  exact ⟨hpair, hwhole, hpart⟩

end Braces
end RuleTree
