import Mathlib
import RuleTree.Proofs.Faults
import RuleTree.Proofs.Placement
import RuleTree.Token.Lexer

/-! Where a statement ends. The first semicolon and the first opening brace behind the first token
decide it between them, whichever stands in front of the other; without both, the statement has no
end. -/
namespace RuleTree
open Braces

namespace Scan

/-- The statement that begins the tokens ends behind `n` of them: with their first semicolon, or
in front of the first opening brace that is not their first token. -/
inductive StopsAt (ts : List Token) : Nat → Prop
  | semicolon {s : Nat} (hs : firstIndex? .semicolon ts = some s)
      (hb : ∀ b ∈ firstOpen? ts 1, s < b) : StopsAt ts (s + 1)
  | brace {b : Nat} (hb : firstOpen? ts 1 = some b)
      (hs : ∀ s ∈ firstIndex? .semicolon ts, b < s) : StopsAt ts b

section
variable {ts : List Token} {t u : Token} {n : Nat}

theorem firstOpen?_cons (t : Token) (ts : List Token) :
    firstOpen? (t :: ts) 1 = (firstIndex? .braceOpen ts).map (1 + ·) := rfl

/-- Behind a token that is no opening brace, the search from the second token on goes on as it
does without the first. -/
theorem firstOpen?_cons_cons (ts : List Token) (hu : u.isBraceOpen = false) :
    firstOpen? (t :: u :: ts) 1 = (firstOpen? (u :: ts) 1).map (· + 1) := by
  rw [firstOpen?_cons, firstOpen?_cons, firstIndex?_cons_of_neg ts hu, Option.map_map,
    Option.map_map]
  rfl

theorem stopsAt_cons_semicolon (ts : List Token) (ht : t.isSemicolon) :
    StopsAt (t :: ts) n ↔ n = 1 := by
  have hfirst : firstIndex? .semicolon (t :: ts) = some 0 := firstIndex?_cons_of_pos ts ht
  constructor
  · rintro (⟨hs, -⟩ | ⟨-, hs⟩)
    · cases hfirst.symm.trans hs
      rfl
    · exact absurd (hs 0 hfirst) (Nat.not_lt_zero _)
  · rintro rfl
    exact .semicolon hfirst fun b hb => le_of_firstOpen? hb

theorem not_stopsAt_singleton (ht : t.isSemicolon = false) : ¬ StopsAt [t] n := by
  have hnone : firstIndex? .semicolon [t] = none := firstIndex?_cons_of_neg [] ht
  rintro (⟨hs, -⟩ | ⟨hb, -⟩)
  · cases hnone.symm.trans hs
  · cases hb

/-- An opening brace behind the first token ends a statement, as no semicolon is in front of it. -/
theorem stopsAt_cons_brace (ts : List Token) (ht : t.isSemicolon = false) (hu : u.isBraceOpen) :
    StopsAt (t :: u :: ts) n ↔ n = 1 := by
  have hbrace : firstOpen? (t :: u :: ts) 1 = some 1 := by
    rw [firstOpen?_cons, firstIndex?_cons_of_pos ts hu]
    rfl
  have hlate : ∀ s ∈ firstIndex? .semicolon (t :: u :: ts), 1 < s := by
    rw [firstIndex?_cons_of_neg (u :: ts) ht,
      firstIndex?_cons_of_neg ts (Token.kind_beq_of_ne hu (by decide)), Option.map_map]
    intro s hs
    obtain ⟨i, -, rfl⟩ := Option.map_eq_some_iff.mp hs
    exact Nat.lt_add_left i Nat.one_lt_two
  constructor
  · rintro (⟨hs, hb⟩ | ⟨hb, -⟩)
    · exact absurd (hlate _ hs) (Nat.not_lt_of_gt (hb 1 hbrace))
    · cases hbrace.symm.trans hb
      rfl
  · rintro rfl
    exact .brace hbrace hlate

/-- Behind a token at which nothing ends, a statement ends where it does without that token. -/
theorem stopsAt_cons_cons (ts : List Token) (ht : t.isSemicolon = false)
    (hu : u.isBraceOpen = false) :
    StopsAt (t :: u :: ts) n ↔ ∃ m, StopsAt (u :: ts) m ∧ m + 1 = n := by
  have hsemicolon := firstIndex?_cons_of_neg (u :: ts) ht
  have hbrace := @firstOpen?_cons_cons t u ts hu
  constructor
  · rintro (⟨hs, hb⟩ | ⟨hb, hs⟩)
    · rw [hsemicolon] at hs
      rw [hbrace, Option.forall_mem_map] at hb
      obtain ⟨s, hfirst, rfl⟩ := Option.map_eq_some_iff.mp hs
      exact ⟨s + 1, .semicolon hfirst fun b h => Nat.lt_of_succ_lt_succ (hb b h), rfl⟩
    · rw [hbrace] at hb
      rw [hsemicolon, Option.forall_mem_map] at hs
      obtain ⟨b, hfirst, rfl⟩ := Option.map_eq_some_iff.mp hb
      exact ⟨b, .brace hfirst fun s h => Nat.lt_of_succ_lt_succ (hs s h), rfl⟩
  · rintro ⟨m, ⟨hs, hb⟩ | ⟨hb, hs⟩, rfl⟩
    · refine .semicolon (by rw [hsemicolon, hs]; rfl) ?_
      rw [hbrace, Option.forall_mem_map]
      exact fun b h => Nat.succ_lt_succ (hb b h)
    · refine .brace (by rw [hbrace, hb]; rfl) ?_
      rw [hsemicolon, Option.forall_mem_map]
      exact fun s h => Nat.succ_lt_succ (hs s h)

/-- The length that is found is where the statement ends. -/
theorem statementLength?_eq_some_iff (hne : ts ≠ []) :
    statementLength? ts = some n ↔ StopsAt ts n := by
  fun_induction statementLength? ts generalizing n with
  | case1 => exact absurd rfl hne
  | case2 t ts ht => rw [stopsAt_cons_semicolon ts ht, Option.some.injEq, eq_comm]
  | case3 t ht =>
    exact iff_of_false (Option.some_ne_none n).symm
      (not_stopsAt_singleton (eq_false_of_ne_true ht))
  | case4 t ht u us hu =>
    rw [stopsAt_cons_brace us (eq_false_of_ne_true ht) hu, Option.some.injEq, eq_comm]
  | case5 t ht u us hu ih =>
    rw [stopsAt_cons_cons us (eq_false_of_ne_true ht) (eq_false_of_ne_true hu),
      Option.map_eq_some_iff]
    simp only [ih (List.cons_ne_nil u us)]

theorem statementLength_eq_ok_iff (hne : ts ≠ []) :
    statementLength ts = .ok n ↔ StopsAt ts n := by
  rw [← statementLength?_eq_some_iff hne, statementLength]
  cases statementLength? ts with
  | none => simp
  | some m => simp

theorem statementLength_eq_error_iff {e : ParseError} (hne : ts ≠ []) :
    statementLength ts = .error e ↔ e = .atLast .endOfInput ts ∧ ∀ n, ¬ StopsAt ts n := by
  simp only [← statementLength?_eq_some_iff hne, statementLength]
  cases statementLength? ts with
  | none => simp [eq_comm]
  | some m => simp

namespace StopsAt

theorem ne_nil (h : StopsAt ts n) : ts ≠ [] := by
  rintro rfl
  cases h with
  | semicolon hs _ => cases hs
  | brace hb _ => cases hb

theorem bounds (h : StopsAt ts n) : 1 ≤ n ∧ n ≤ ts.length :=
  statementLength?_bounds h.ne_nil ((statementLength?_eq_some_iff h.ne_nil).mpr h)

/-- A statement has a semicolon at most at its end, -/
theorem free (h : StopsAt ts n) : ∀ t ∈ (ts.take n).dropLast, t.isSemicolon = false := by
  have hfirst : ∀ s ∈ firstIndex? .semicolon ts, n - 1 ≤ s := by
    intro s hs
    cases h with
    | semicolon hs' =>
      cases hs.symm.trans hs'
      exact Nat.le_refl s
    | brace hb hlt => exact (Nat.sub_le n 1).trans (hlt s hs).le
  intro t ht
  rw [List.dropLast_take_eq_take_dropLast] at ht
  have hmem : t ∈ ts.take (n - 1) := ((List.dropLast_prefix ts).take (n - 1)).subset ht
  exact beq_eq_false_iff_ne.mpr (kind_ne_of_mem_take hfirst t hmem)

/-- and an opening brace at most at its beginning. -/
theorem flat (h : StopsAt ts n) : Flat ((ts.take n).drop 1) := by
  have hfirst : ∀ i ∈ firstIndex? .braceOpen (ts.drop 1), n - 1 ≤ i := by
    intro i hi
    have hb : firstOpen? ts 1 = some (1 + i) := by
      rw [firstOpen?, hi]
      rfl
    cases h with
    | semicolon hs hlt =>
      have := hlt _ hb
      omega
    | brace hb' =>
      cases hb.symm.trans hb'
      exact Nat.le_of_eq (Nat.add_sub_cancel_left 1 i)
  intro t ht
  rw [List.drop_take] at ht
  exact beq_eq_false_iff_ne.mpr (kind_ne_of_mem_take hfirst t ht)

end StopsAt
end

/-- How the statement that begins the tokens is measured. -/
structure Measured (ts : List Token) : Prop where
  /-- It stops at its semicolon or in front of a brace, whichever comes first, -/
  found : ∀ n, statementLength ts = .ok n ↔ StopsAt ts n
  /-- and is refused at the last token exactly where there is nothing to stop at. -/
  refused : ∃ last, ts.getLast? = some last ∧
    ∀ e, statementLength ts = .error e ↔ e.Cites .endOfInput last ∧ ∀ n, ¬ StopsAt ts n
  /-- It has at least one token and no more than there are, -/
  bounds : ∀ n, statementLength ts = .ok n → 1 ≤ n ∧ n ≤ ts.length
  /-- a semicolon only as its last token, -/
  free : ∀ n, statementLength ts = .ok n → ∀ t ∈ (ts.take n).dropLast, t.isSemicolon = false
  /-- and an opening brace only as its first one. -/
  flat : ∀ n, statementLength ts = .ok n → Flat ((ts.take n).drop 1)

theorem statementLength_measured {ts : List Token} (hne : ts ≠ []) : Measured ts where
  found _ := statementLength_eq_ok_iff hne
  refused := by
    have hlast := List.getLast?_eq_some_getLast hne
    refine ⟨_, hlast, fun e => ?_⟩
    rw [statementLength_eq_error_iff hne, ParseError.atLast_eq hlast, ParseError.cites_iff]
  bounds _ h := ((statementLength_eq_ok_iff hne).mp h).bounds
  free _ h := ((statementLength_eq_ok_iff hne).mp h).free
  flat _ h := ((statementLength_eq_ok_iff hne).mp h).flat

theorem statementLength_measured_braced :
    Source.tokens ⟨none, "\x7ba;\x7b"⟩ ≠ [] ∧
      statementLength (Source.tokens ⟨none, "\x7ba;\x7b"⟩) = .ok 3 ∧
      Flat (((Source.tokens ⟨none, "\x7ba;\x7b"⟩).take 3).drop 1) := by
  have hne : Source.tokens ⟨none, "\x7ba;\x7b"⟩ ≠ [] := of_decide_eq_true (by cbv)
  have hsemicolon : firstIndex? .semicolon (Source.tokens ⟨none, "\x7ba;\x7b"⟩) = some 2 := by cbv
  have hbrace : firstOpen? (Source.tokens ⟨none, "\x7ba;\x7b"⟩) 1 = some 3 := by cbv
  have hmeasured := statementLength_measured hne
  have hlength := (hmeasured.found 3).mpr (.semicolon hsemicolon (by simp [hbrace]))
  exact ⟨hne, hlength, hmeasured.flat 3 hlength⟩

end Scan
end RuleTree
