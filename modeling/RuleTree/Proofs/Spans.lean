import Mathlib.Tactic
import RuleTree.Node

/-! The tokens that a span covers, and the parts of a token list that is split at two of its
tokens. -/
namespace RuleTree

/-- The tokens that a span of `ts` covers. -/
def Span.tokens (s : Span) (ts : List Token) : List Token := (ts.take s.stop).drop s.start

theorem Span.tokens_eq_take (start n : Nat) (ts : List Token) :
    Span.tokens ⟨start, start + n⟩ ts = (ts.drop start).take n := by
  rw [Span.tokens, List.drop_take, Nat.add_sub_cancel_left]

theorem Span.getElem?_tokens {start n i : Nat} (ts : List Token) (h : i < n) :
    (Span.tokens ⟨start, start + n⟩ ts)[i]? = ts[start + i]? := by
  rw [tokens_eq_take, List.getElem?_take_of_lt h, List.getElem?_drop]

theorem Span.tokens_append (front middle back : List Token) :
    Span.tokens ⟨front.length, front.length + middle.length⟩ (front ++ (middle ++ back)) =
      middle := by
  rw [tokens_eq_take, List.drop_left, List.take_left]

theorem Span.take_append_tokens_append_drop (start n : Nat) (ts : List Token) :
    ts.take start ++ (Span.tokens ⟨start, start + n⟩ ts ++ ts.drop (start + n)) = ts := by
  rw [tokens_eq_take, ← List.drop_drop, List.take_append_drop, List.take_append_drop]

theorem exists_append_of_getElem? {ts : List Token} {t : Token} {i : Nat} (h : ts[i]? = some t) :
    ∃ front back, ts = front ++ t :: back ∧ i = front.length := by
  obtain ⟨hlt, ht⟩ := List.getElem?_eq_some_iff.mp h
  refine ⟨ts.take i, ts.drop (i + 1), ?_, ?_⟩
  · rw [← ht, ← List.drop_eq_getElem_cons hlt, List.take_append_drop]
  · rw [List.length_take]
    omega

theorem exists_append_of_lt {ts : List Token} {i : Nat} (h : i < ts.length) :
    ∃ front t back, ts = front ++ t :: back ∧ i = front.length := by
  obtain ⟨front, back, hs, hi⟩ := exists_append_of_getElem? (List.getElem?_eq_getElem h)
  exact ⟨front, _, back, hs, hi⟩

section
variable (front middle back : List Token) (t u : Token)

theorem drop_behind : (front ++ t :: back).drop (front.length + 1) = back := by
  rw [List.drop_length_add_append, List.drop_succ_cons, List.drop_zero]

theorem take_through : (front ++ t :: back).take (front.length + 1) = front ++ [t] := by
  rw [List.take_length_add_append, List.take_succ_cons, List.take_zero]

theorem tokens_behind (n : Nat) :
    Span.tokens ⟨front.length + 1, front.length + 1 + n⟩ (front ++ t :: back) = back.take n := by
  rw [Span.tokens_eq_take, drop_behind]

theorem tokens_between :
    Span.tokens ⟨front.length + 1, front.length + 1 + middle.length⟩
      (front ++ t :: (middle ++ u :: back)) = middle := by
  rw [tokens_behind, List.take_left]

theorem drop_between :
    (front ++ t :: (middle ++ u :: back)).drop (front.length + 1 + middle.length + 1) = back := by
  rw [Nat.add_assoc (front.length + 1), ← List.drop_drop, drop_behind, drop_behind]

end
end RuleTree
