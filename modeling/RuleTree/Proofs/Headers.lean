import Mathlib.Tactic
import RuleTree.Parser
import RuleTree.Success
import RuleTree.Proofs.Braces

/-! Headers by the first at-sign among their tokens. -/
namespace RuleTree
namespace Scan

variable {k : Kind} {ts : List Token}

theorem firstIndex?_cons_of_pos {t : Token} (ts : List Token) (h : t.kind == k) :
    firstIndex? k (t :: ts) = some 0 := by
  simp [firstIndex?, List.findIdx?_cons, h]

theorem firstIndex?_cons_of_neg {t : Token} (ts : List Token) (h : (t.kind == k) = false) :
    firstIndex? k (t :: ts) = (firstIndex? k ts).map (· + 1) := by
  simp [firstIndex?, List.findIdx?_cons, h]

theorem firstIndex?_append {front : List Token} {t : Token} (back : List Token)
    (hf : ∀ u ∈ front, u.kind ≠ k) (ht : t.kind = k) :
    firstIndex? k (front ++ t :: back) = some front.length := by
  induction front with
  | nil => exact firstIndex?_cons_of_pos back (beq_iff_eq.mpr ht)
  | cons u front ih =>
    have hu : u.kind ≠ k := hf u (by simp)
    have htail := ih fun v hv => hf v (by simp [hv])
    rw [List.cons_append, firstIndex?_cons_of_neg _ (beq_eq_false_iff_ne.mpr hu), htail]
    rfl

theorem firstIndex?_eq_none : firstIndex? k ts = none ↔ ∀ u ∈ ts, u.kind ≠ k := by
  simp [firstIndex?, List.findIdx?_eq_none_iff]

theorem exists_of_firstIndex? {i : Nat} (h : firstIndex? k ts = some i) :
    ∃ front t back, ts = front ++ t :: back ∧ i = front.length ∧
      (∀ u ∈ front, u.kind ≠ k) ∧ t.kind = k := by
  induction ts generalizing i with
  | nil => cases h
  | cons t ts ih =>
    by_cases ht : t.kind = k
    · have hi : firstIndex? k (t :: ts) = some 0 := firstIndex?_cons_of_pos ts (beq_iff_eq.mpr ht)
      exact ⟨[], t, ts, rfl, Option.some.inj (h.symm.trans hi), by simp, ht⟩
    · rw [firstIndex?_cons_of_neg ts (beq_eq_false_iff_ne.mpr ht)] at h
      obtain ⟨j, hj, rfl⟩ := Option.map_eq_some_iff.mp h
      obtain ⟨front, u, back, rfl, rfl, hf, hu⟩ := ih hj
      refine ⟨t :: front, u, back, rfl, rfl, ?_, hu⟩
      exact List.forall_mem_cons.mpr ⟨ht, hf⟩

/-- In front of the first token of a kind there is none. -/
theorem kind_ne_of_mem_take {n : Nat} (h : ∀ i ∈ firstIndex? k ts, n ≤ i) :
    ∀ t ∈ ts.take n, t.kind ≠ k := by
  cases hi : firstIndex? k ts with
  | none =>
    intro t ht
    exact firstIndex?_eq_none.mp hi t (List.mem_of_mem_take ht)
  | some i =>
    obtain ⟨front, u, back, rfl, rfl, hf, -⟩ := exists_of_firstIndex? hi
    intro t ht
    rw [List.take_append_of_le_length (h _ hi)] at ht
    exact hf t (List.mem_of_mem_take ht)

/-- The first token of kind `k` from `start` on is at `i`. -/
structure FirstAt (k : Kind) (ts : List Token) (start i : Nat) : Prop where
  behind : start ≤ i
  here : ∃ t, ts[i]? = some t ∧ t.kind = k
  first : ∀ j t, start ≤ j → j < i → ts[j]? = some t → t.kind ≠ k

theorem firstAt_of_firstIndex? {start n : Nat} (h : firstIndex? k (ts.drop start) = some n) :
    FirstAt k ts start (start + n) := by
  obtain ⟨front, t, back, hs, rfl, hf, ht⟩ := exists_of_firstIndex? h
  refine ⟨Nat.le_add_right start _, ⟨t, ?_, ht⟩, ?_⟩
  · rw [← List.getElem?_drop, hs, List.getElem?_append_right (Nat.le_refl _), Nat.sub_self]
    rfl
  · intro j u hj hlt hget
    obtain ⟨m, rfl⟩ := Nat.exists_eq_add_of_le hj
    rw [← List.getElem?_drop, hs, List.getElem?_append_left (by omega)] at hget
    exact hf u (List.mem_of_getElem? hget)

/-- What is first among some tokens at the beginning is first among all. -/
theorem FirstAt.of_take {start stop i : Nat} (h : FirstAt k (ts.take stop) start i) :
    i < stop ∧ FirstAt k ts start i := by
  obtain ⟨t, hget, ht⟩ := h.here
  obtain ⟨hi, -⟩ := List.getElem?_eq_some_iff.mp hget
  rw [List.length_take] at hi
  have hlt : i < stop := hi.trans_le (Nat.min_le_left _ _)
  rw [List.getElem?_take_of_lt hlt] at hget
  refine ⟨hlt, h.behind, ⟨t, hget, ht⟩, fun j u hj hji hu => h.first j u hj hji ?_⟩
  rwa [List.getElem?_take_of_lt (hji.trans hlt)]

/-- A header without an at-sign is gone through to its end, -/
theorem dropWhile_atSign_eq_nil (h : firstIndex? .atSign ts = none) :
    ts.dropWhile (fun t => !t.isAtSign) = [] := by
  have hfree := firstIndex?_eq_none.mp h
  rw [List.dropWhile_eq_nil_iff]
  intro t ht
  simpa [Token.isAtSign] using hfree t ht

/-- and any other one up to its first at-sign. -/
theorem dropWhile_atSign_append {front : List Token} {mark : Token} (back : List Token)
    (hf : ∀ u ∈ front, u.kind ≠ .atSign) (hm : mark.kind = .atSign) :
    (front ++ mark :: back).dropWhile (fun t => !t.isAtSign) = mark :: back := by
  rw [List.dropWhile_append_of_pos fun t ht => by simpa [Token.isAtSign] using hf t ht]
  simp [Token.isAtSign, hm]

end Scan

namespace Braces

theorem Flat.firstIndex?_append {front : List Token} {brace : Token} (back : List Token)
    (hf : Flat front) (hb : brace.isBraceOpen) :
    Scan.firstIndex? .braceOpen (front ++ brace :: back) = some front.length := by
  apply Scan.firstIndex?_append
  · intro u hu
    simpa [Token.isBraceOpen] using hf u hu
  · simpa [Token.isBraceOpen] using hb

theorem exists_of_firstIndex? {ts : List Token} {o : Nat}
    (h : Scan.firstIndex? .braceOpen ts = some o) :
    ∃ front brace back, ts = front ++ brace :: back ∧ o = front.length ∧ Flat front ∧
      brace.isBraceOpen := by
  obtain ⟨front, brace, back, hs, ho, hf, hb⟩ := Scan.exists_of_firstIndex? h
  refine ⟨front, brace, back, hs, ho, fun u hu => ?_, ?_⟩
  · simpa [Token.isBraceOpen] using hf u hu
  · simpa [Token.isBraceOpen] using hb

end Braces

namespace Header

/-- The header that tokens in front of a brace make: named by the token behind their first
at-sign, or their selectors where no at-sign is among them. -/
def Matches (ts : List Token) : Header → Prop
  | .atRule name => ∃ k t, Scan.firstIndex? .atSign ts = some k ∧ ts[k + 1]? = some t ∧
      name = t.text
  | .selectors list => Scan.firstIndex? .atSign ts = none ∧ Selectors.ofTokens? ts = some list

theorem read_result_selectors {ts : List Token} (h : Scan.firstIndex? .atSign ts = none) :
    (read ts).result = .ok (.selectors (Selectors.collect [] ts)) ∧
      Selectors.ofTokens? ts = some (Selectors.collect [] ts) := by
  have hfree := Scan.firstIndex?_eq_none.mp h
  have hlist : Selectors.ofTokens? ts = some (Selectors.collect [] ts) :=
    Selectors.ofTokens?_of_head fun t ht =>
      beq_eq_false_iff_ne.mpr (hfree t (List.mem_of_mem_head? ht))
  refine ⟨?_, hlist⟩
  rw [read, Scan.dropWhile_atSign_eq_nil h]
  simp [hlist]

theorem read_result_atSign {front back : List Token} {mark : Token}
    (hf : ∀ u ∈ front, u.kind ≠ .atSign) (hm : mark.kind = .atSign) :
    (read (front ++ mark :: back)).result =
      match back with
      | [] => .error (mark.fault .endOfInput)
      | name :: _ => .ok (.atRule name.text) := by
  rw [read, Scan.dropWhile_atSign_append back hf hm]
  cases back <;> rfl

theorem read_result_iff {ts : List Token} {header : Header} :
    (read ts).result = .ok header ↔ Matches ts header := by
  cases hk : Scan.firstIndex? .atSign ts with
  | none =>
    obtain ⟨hr, hl⟩ := read_result_selectors hk
    rw [hr]
    cases header with
    | atRule name => simp [Matches, hk]
    | selectors list => simp [Matches, hk, hl]
  | some k =>
    obtain ⟨front, mark, back, rfl, rfl, hf, hm⟩ := Scan.exists_of_firstIndex? hk
    rw [read_result_atSign hf hm]
    cases back with
    | nil => cases header <;> simp [Matches, hk]
    | cons name more => cases header <;> simp [Matches, hk, eq_comm]

/-- The first at-sign, if there is one, is not the last token. -/
def Named (ts : List Token) : Prop := ∀ k, Scan.firstIndex? .atSign ts = some k → k + 1 < ts.length

theorem exists_matches_iff {ts : List Token} : (∃ header, Matches ts header) ↔ Named ts := by
  constructor
  · rintro ⟨header, h⟩ k hk
    cases header with
    | atRule name =>
      obtain ⟨j, t, hj, ht, -⟩ := h
      obtain rfl := Option.some.inj (hk.symm.trans hj)
      exact (List.getElem?_eq_some_iff.mp ht).1
    | selectors list => cases hk.symm.trans h.1
  · intro h
    cases hk : Scan.firstIndex? .atSign ts with
    | none => exact ⟨.selectors _, hk, (read_result_selectors hk).2⟩
    | some k =>
      have hlt := h k hk
      exact ⟨.atRule ts[k + 1].text, k, _, hk, List.getElem?_eq_getElem hlt, rfl⟩

end Header
end RuleTree
