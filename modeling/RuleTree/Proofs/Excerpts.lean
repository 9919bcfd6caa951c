import Mathlib
import RuleTree.Proofs.Blame
import RuleTree.Proofs.Positions

/-! Excerpts of texts. An excerpt shows the marked character with at most `Excerpt.reach` characters
in front of it and fewer than that behind it, and nothing else of the text bears on it. The errors
of a text's own tokens mark the first character of the token that they name. -/
namespace RuleTree
namespace Excerpt

variable (text : String) (index : Nat)

/-- The characters in front of the marked one, up to it. -/
theorem before_around :
    (around text index).before.toList = (text.toList.take index).drop (index - reach) := by
  simp only [around, window, String.toList_ofList, List.take_take, List.drop_take]
  congr 1
  omega

theorem drop_window {n : Nat} (h : index - reach ≤ n) (hn : n ≤ index + reach) :
    (window text index).drop (n - (index - reach)) =
      (text.toList.drop n).take (index + reach - n) := by
  rw [window, List.drop_take, List.drop_drop]
  congr 1
  · omega
  · congr 1
    omega

theorem marked_around : (around text index).marked.toList = (text.toList.drop index).take 1 := by
  have hreach : 0 < reach := by decide
  have hfrom := drop_window text index (n := index) (by omega) (by omega)
  simp only [around, String.toList_ofList, hfrom, List.take_take]
  congr 1
  omega

/-- The characters behind the marked one. -/
theorem after_around :
    (around text index).after.toList = (text.toList.drop (index + 1)).take (reach - 1) := by
  have hreach : 0 < reach := by decide
  have hfrom := drop_window text index (n := index + 1) (by omega) (by omega)
  have hcount : index + 1 - (index - reach) = index - (index - reach) + 1 := by omega
  rw [hcount] at hfrom
  simp only [around, String.toList_ofList, hfrom]
  congr 1
  omega

/-- The characters of `text` from position `start` up to, but not including, `stop`. -/
def between (text : String) (start stop : Nat) : List Char := (text.toList.take stop).drop start

/-- The excerpt shows what stands around `index` in the text. -/
structure Cuts (text : String) (index : Nat) (e : Excerpt) : Prop where
  whole : (e.before ++ e.marked ++ e.after).toList =
    between text (index - 50) (min text.length (index + 50))
  before : e.before.toList = between text (index - 50) (min text.length index)
  marked : e.marked.toList = text.toList[index]?.toList
  cutStart : e.cutStart ↔ 50 < index
  cutEnd : e.cutEnd ↔ 50 ≤ index ∧ index + 50 ≤ text.length
  length_le : (e.before ++ e.marked ++ e.after).length ≤ 100
  /-- Nothing else bears on it: a text with the same characters there has the same excerpt. -/
  unique : ∀ other : String,
    (∀ i, index - 50 ≤ i → i < index + 50 → other.toList[i]? = text.toList[i]?) →
      around other index = e

theorem between_min_length (start stop : Nat) :
    between text start (min text.length stop) = between text start stop := by
  rw [between, between, ← String.length_toList, min_comm, ← List.take_take, List.take_length]

theorem window_eq_between : window text index = between text (index - reach) (index + reach) := by
  rw [window, between, List.drop_take]

theorem length_window :
    (window text index).length = min text.length (index + reach) - (index - reach) := by
  rw [window_eq_between, between, List.length_drop, List.length_take, String.length_toList,
    min_comm]

/-- The three parts of an excerpt make up the window. -/
theorem toList_around :
    ((around text index).before ++ (around text index).marked ++ (around text index).after).toList =
      window text index := by
  simp only [around, String.toList_append, String.toList_ofList]
  rw [List.append_assoc, ← List.drop_drop, List.take_append_drop, List.take_append_drop]

theorem window_congr {other : String}
    (h : ∀ i, index - reach ≤ i → i < index + reach → other.toList[i]? = text.toList[i]?) :
    window other index = window text index := by
  apply List.ext_getElem?
  intro i
  simp only [window, List.getElem?_take, List.getElem?_drop]
  split
  next hi => exact h _ (by omega) (by omega)
  next => rfl

/-- Around every offset, also one behind the end of the text, an excerpt shows exactly what stands
there. -/
theorem around_cuts (text : String) (index : Nat) : (around text index).Cuts text index where
  whole := by
    rw [toList_around, window_eq_between, between_min_length]
    rfl
  before := by
    rw [before_around, between_min_length]
    rfl
  marked := by
    rw [marked_around, List.take_one, List.head?_drop]
  cutStart := by
    have hreach : reach = 50 := rfl
    simp only [around, decide_eq_true_eq]
    omega
  cutEnd := by
    have hreach : reach = 50 := rfl
    simp only [around, decide_eq_true_eq, length_window]
    omega
  length_le := by
    have hreach : reach = 50 := rfl
    rw [← String.length_toList, toList_around, length_window]
    omega
  unique other h := by
    simp only [around, window_congr text index h]

end Excerpt

/-- The error is at a token of the text, and its excerpt shows the text around the first character
of this token. -/
structure ParseError.PointsInto (text : String) (e : ParseError) : Prop where
  index_lt : e.index < text.length
  token_ne : e.token ≠ ""
  token_at : e.token.toList <+: text.toList.drop e.index
  /-- The marked character is the one at the offset, which the token begins with. -/
  marked : ∃ c, text.toList[e.index]? = some c ∧ e.token.toList.head? = some c ∧
    e.excerpt.marked = String.ofList [c]
  before_length : e.excerpt.before.length = min 50 e.index
  before_at : e.excerpt.before.toList <:+ text.toList.take e.index
  after_at : e.excerpt.after.toList = (text.toList.drop (e.index + 1)).take 49

theorem Token.fault_pointsInto {s : Source} {t : Token} (ht : t ∈ s.tokens) (cause : Cause) :
    (t.fault cause).PointsInto s.text := by
  have horigin := Source.origin_of_mem_tokens ht
  have hlt := Source.index_lt_of_mem_tokens ht
  have hne := Source.text_ne_of_mem_tokens ht
  have hprefix := Source.prefix_of_mem_tokens ht
  have hexcerpt : (t.fault cause).excerpt = Excerpt.around s.text t.index := by
    rw [Token.fault, horigin, Source.excerpt]
  have hmarked := Excerpt.marked_around s.text t.index
  have hbefore := Excerpt.before_around s.text t.index
  rw [← hexcerpt] at hmarked hbefore
  refine ⟨hlt, hne, hprefix, ?_, ?_, ?_, ?_⟩
  · -- the first character of the token is the one that the excerpt marks
    obtain ⟨more, hmore⟩ := hprefix
    obtain ⟨c, cs, hcs⟩ := List.exists_cons_of_ne_nil (mt String.toList_eq_nil_iff.mp hne)
    rw [hcs, List.cons_append] at hmore
    rw [← hmore, List.take_succ_cons, List.take_zero] at hmarked
    refine ⟨c, ?_, ?_, ?_⟩
    · change s.text.toList[t.index]? = some c
      rw [← List.head?_drop, ← hmore, List.head?_cons]
    · exact congrArg List.head? hcs
    · rw [← hmarked, String.ofList_toList]
  · rw [← String.length_toList, hbefore, List.length_drop, List.length_take, String.length_toList]
    change min t.index s.text.length - (t.index - 50) = min 50 t.index
    omega
  · rw [hbefore]
    exact List.drop_suffix ..
  · rw [hexcerpt, Excerpt.after_around]
    rfl

/-- Whatever is wrong with the tokens of a text, the error points into this text. -/
theorem parse_error_pointsInto (config : Config) (s : Source) (e : ParseError)
    (h : (parse config s.tokens).result = .error e) : e.PointsInto s.text := by
  obtain ⟨front, t, back, hsplit, hcites, -⟩ := (parse_error_iff.mp h).blamed
  have ht : t ∈ s.tokens := hsplit ▸ List.mem_append_cons_self
  rw [ParseError.cites_iff.mp hcites]
  exact Token.fault_pointsInto ht e.cause

theorem parse_error_pointsInto_nested :
    ∃ t : Token, (parse {} t.origin.tokens).result = .error (t.fault .endOfInput) ∧
      t.text = "été" ∧ t.index = 56 ∧ (t.fault .endOfInput).PointsInto t.origin.text := by
  have h : (parse {} (Source.tokens
      ⟨none, ".abcdefghijklmnopqrstuvwxyz0123456789\x7b@media é\x7b'\x7d';\x7d b: été\x7d"⟩)).result =
      .error (Token.fault ⟨.word, "été", 56,
        ⟨none, ".abcdefghijklmnopqrstuvwxyz0123456789\x7b@media é\x7b'\x7d';\x7d b: été\x7d"⟩⟩
        .endOfInput) := by cbv
  refine ⟨⟨.word, "été", 56, ⟨none, _⟩⟩, h, rfl, rfl, ?_⟩
  exact parse_error_pointsInto {} _ _ h

end RuleTree
