import Mathlib.Tactic
import RuleTree.Segment
import RuleTree.Success
import RuleTree.Proofs.Braces

/-! Segments by their shape: what stands in front of the semicolon of an at-rule or a statement
that can be read, and what reading it gives. -/
namespace RuleTree
open Braces

/-- The tokens `body ++ [last]` end at their first semicolon. -/
structure Ends (body : List Token) (last : Token) : Prop where
  free : ∀ t ∈ body, t.isSemicolon = false
  last : last.isSemicolon

/-- What stands in front of an at-rule's semicolon: the mark, a name, a delimiter, and later at
least one token that is no delimiter. -/
inductive AtRule.Body : List Token → Prop
  | intro {mark name gap : Token} {value : List Token} (hmark : mark.isAtSign)
      (hname : name.isWord) (hgap : gap.isDelimiter)
      (hvalue : ∃ t ∈ value, t.isDelimiter = false) : AtRule.Body (mark :: name :: gap :: value)

/-- What stands in front of a statement's semicolon: at least one token that is no delimiter. The
first token is neither an at-sign nor a closing brace. -/
structure Statement.Body (body : List Token) : Prop where
  front : ∀ t ∈ body.head?, t.isAtSign = false ∧ t.isBraceClose = false
  content : ∃ t ∈ body, t.isDelimiter = false

namespace Scan

theorem significant_ne_nil_iff {ts : List Token} :
    significant ts ≠ [] ↔ ∃ t ∈ ts, t.isDelimiter = false := by
  simp [significant, List.filter_eq_nil_iff]

theorem significant_singleton {t : Token} (h : t.isSemicolon) : significant [t] = [t] := by
  have hd : t.isDelimiter = false := Token.kind_beq_of_ne h (by decide)
  simp [significant, hd]

theorem statementLength?_cons_semicolon {t : Token} (ts : List Token) (h : t.isSemicolon) :
    statementLength? (t :: ts) = some 1 := by
  simp [statementLength?.eq_def, h]

theorem statementLength?_cons_cons {t u : Token} (us : List Token) (ht : t.isSemicolon = false)
    (hu : u.isBraceOpen = false) :
    statementLength? (t :: u :: us) = (statementLength? (u :: us)).map (· + 1) := by
  simp [statementLength?.eq_def (t :: _), ht, hu]

/-- A flat segment's length is found whatever follows it. -/
theorem statementLength?_append {body : List Token} {last : Token} (rest : List Token)
    (hf : Flat body) (he : Ends body last) :
    statementLength? (body ++ last :: rest) = some (body.length + 1) := by
  induction body with
  | nil => exact statementLength?_cons_semicolon rest he.last
  | cons t body ih =>
    have ht : t.isSemicolon = false := he.free t (by simp)
    have hb := ih (fun u hu => hf u (by simp [hu]))
      ⟨fun u hu => he.free u (by simp [hu]), he.last⟩
    cases body with
    | nil =>
      have hlast : last.isBraceOpen = false := Token.kind_beq_of_ne he.last (by decide)
      rw [List.nil_append] at hb
      rw [List.cons_append, List.nil_append, statementLength?_cons_cons rest ht hlast, hb]
      rfl
    | cons u body =>
      rw [List.cons_append] at hb
      rw [List.cons_append, List.cons_append,
        statementLength?_cons_cons _ ht (hf u (by simp)), hb]
      rfl

theorem exists_of_statementLength? {ts : List Token} {n : Nat} (hf : Flat ts) (hne : ts ≠ [])
    (h : statementLength? ts = some n) :
    ∃ body last rest, ts = body ++ last :: rest ∧ n = body.length + 1 ∧ Ends body last := by
  fun_induction statementLength? ts generalizing n with
  | case1 => exact absurd rfl hne
  | case2 t ts ht =>
    cases h
    exact ⟨[], t, ts, rfl, rfl, by simp, ht⟩
  | case3 => cases h
  | case4 t _ u us hu =>
    have := hf u (by simp)
    simp [this] at hu
  | case5 t ht u us _ ih =>
    obtain ⟨m, hm, rfl⟩ := Option.map_eq_some_iff.mp h
    obtain ⟨body, last, rest, hts, rfl, he⟩ :=
      ih (fun v hv => hf v (by simp [hv])) (List.cons_ne_nil u us) hm
    refine ⟨t :: body, last, rest, by rw [hts, List.cons_append], rfl, ?_, he.last⟩
    intro v hv
    rcases List.mem_cons.mp hv with rfl | hv
    · simpa using ht
    · exact he.free v hv

theorem requireWithin_eq_ok_iff {whole ts : List Token} {kinds : List Kind} {u : Unit} :
    requireWithin whole ts kinds = .ok u ↔ kinds <+: ts.map Token.kind := by
  fun_induction requireWithin whole ts kinds with
  | case1 => simp
  | case2 => simp
  | case3 t ts ks ih => simp [ih, List.cons_prefix_cons]
  | case4 t ts k ks hk => simp [List.cons_prefix_cons, Ne.symm hk]

theorem statementLength_append {body : List Token} {last : Token} (rest : List Token)
    (hf : Flat body) (he : Ends body last) :
    statementLength (body ++ last :: rest) = .ok (body.length + 1) := by
  rw [statementLength, statementLength?_append rest hf he]

theorem exists_of_statementLength {ts : List Token} {n : Nat} (hf : Flat ts) (hne : ts ≠ [])
    (h : statementLength ts = .ok n) :
    ∃ body last rest, ts = body ++ last :: rest ∧ n = body.length + 1 ∧ Ends body last := by
  unfold statementLength at h
  split at h
  next hn =>
    cases h
    exact exists_of_statementLength? hf hne hn
  next => cases h

end Scan

namespace AtRule

section
variable {mark name gap last : Token} {value : List Token}

/-- The tokens of an at-rule that count. -/
theorem significant_segment (hmark : mark.isAtSign) (hname : name.isWord)
    (hgap : gap.isDelimiter) (hlast : last.isSemicolon) :
    Scan.significant (mark :: name :: gap :: value ++ [last]) =
      mark :: name :: (Scan.significant value ++ [last]) := by
  have hm : mark.isDelimiter = false := Token.kind_beq_of_ne hmark (by decide)
  have hn : name.isDelimiter = false := Token.kind_beq_of_ne hname (by decide)
  rw [Scan.significant_append, Scan.significant_singleton hlast]
  simp [Scan.significant, hgap, hm, hn]

theorem requireKinds_eq_ok_iff {rest : List Token} :
    Scan.requireKinds (mark :: name :: gap :: rest) [.atSign, .word, .delimiter] = .ok () ↔
      mark.isAtSign ∧ name.isWord ∧ gap.isDelimiter := by
  rw [Scan.requireKinds, Scan.requireWithin_eq_ok_iff]
  simp only [List.map_cons, List.cons_prefix_cons, List.nil_prefix, and_true, Token.isAtSign,
    Token.isWord, Token.isDelimiter, beq_iff_eq]
  rw [eq_comm, eq_comm (b := name.kind), eq_comm (b := gap.kind)]

/-- With a mark, a name and a delimiter in front, all depends on the value. -/
theorem read_front (rest : List Token) (hf : Flat (mark :: name :: gap :: value))
    (he : Ends (mark :: name :: gap :: value) last) (hmark : mark.isAtSign)
    (hname : name.isWord) (hgap : gap.isDelimiter) :
    read (mark :: name :: gap :: value ++ last :: rest) =
      if Scan.significant value = [] then .error (last.fault .missingValue)
      else .ok ⟨value.length + 4, mark :: name :: (Scan.significant value ++ [last])⟩ := by
  have hkinds : Scan.requireKinds (mark :: name :: gap :: value ++ last :: rest)
      [.atSign, .word, .delimiter] = .ok () := requireKinds_eq_ok_iff.mpr ⟨hmark, hname, hgap⟩
  have hsize : ¬ (mark :: name :: gap :: value).length + 1 < leastSize := by simp [leastSize]
  simp only [read, Scan.statementLength_append rest hf he, hkinds, ok_bind, if_neg hsize,
    take_through, significant_segment hmark hname hgap he.last, List.drop_succ_cons,
    List.drop_zero]
  cases hs : Scan.significant value with
  | nil =>
    simp only [List.nil_append, he.last, if_true]
    rfl
  | cons first more =>
    -- the first token that counts stands in front of the semicolon, so it is none itself
    have hmem : first ∈ value := List.mem_of_mem_filter (hs ▸ List.mem_cons_self)
    have hfree : first.isSemicolon = false := he.free first (by simp [hmem])
    simp only [List.cons_append, hfree, Bool.false_eq_true, if_false, reduceCtorEq]
    rfl

end

/-- An at-rule is read off the tokens up to its semicolon, whatever follows them. -/
theorem read_append {body : List Token} {last : Token} (rest : List Token) (hf : Flat body)
    (he : Ends body last) (hb : Body body) :
    read (body ++ last :: rest) =
      .ok ⟨body.length + 1, Scan.significant (body ++ [last])⟩ := by
  obtain ⟨hmark, hname, hgap, hvalue⟩ := hb
  rw [read_front rest hf he hmark hname hgap, significant_segment hmark hname hgap he.last,
    if_neg (Scan.significant_ne_nil_iff.mpr hvalue)]
  rfl

/-- Only a body with a mark, a name and a delimiter in front is read. -/
theorem exists_front_of_read {body rest : List Token} {last : Token} {rule : AtRule}
    (hf : Flat body) (he : Ends body last) (h : read (body ++ last :: rest) = .ok rule) :
    ∃ mark name gap value, body = mark :: name :: gap :: value ∧ mark.isAtSign ∧ name.isWord ∧
      gap.isDelimiter := by
  simp only [read, Scan.statementLength_append rest hf he, ok_bind] at h
  split at h
  · cases h
  next hleast =>
  obtain ⟨_, hkinds, -⟩ := bind_eq_ok_iff.mp h
  match body, hleast with
  | mark :: name :: gap :: value, _ =>
    exact ⟨mark, name, gap, value, rfl, requireKinds_eq_ok_iff.mp hkinds⟩
  | [], h | [_], h | [_, _], h => simp [leastSize] at h

/-- An at-rule that was read has a mark, a name, a delimiter, a value and a semicolon. -/
theorem exists_of_read {ts : List Token} {rule : AtRule} (hf : Flat ts)
    (h : read ts = .ok rule) :
    ∃ body last rest, ts = body ++ last :: rest ∧ Ends body last ∧ Body body ∧
      rule = ⟨body.length + 1, Scan.significant (body ++ [last])⟩ := by
  have hne : ts ≠ [] := by
    rintro rfl
    cases h
  obtain ⟨size, hsize, -⟩ := bind_eq_ok_iff.mp h
  obtain ⟨body, last, rest, rfl, -, he⟩ := Scan.exists_of_statementLength hf hne hsize
  have hfb := (flat_append.mp hf).1
  obtain ⟨mark, name, gap, value, rfl, hmark, hname, hgap⟩ := exists_front_of_read hfb he h
  rw [read_front rest hfb he hmark hname hgap] at h
  split at h
  · cases h
  next hvalue =>
  cases h
  refine ⟨_, last, rest, rfl, he,
    ⟨hmark, hname, hgap, Scan.significant_ne_nil_iff.mp hvalue⟩, ?_⟩
  rw [significant_segment hmark hname hgap he.last]
  rfl

end AtRule

namespace Statement

theorem Body.exists_significant {body : List Token} (h : Body body) :
    ∃ property value, Scan.significant body = property :: value :=
  List.exists_cons_of_ne_nil (Scan.significant_ne_nil_iff.mpr h.content)

theorem dropTerminator_append {ts : List Token} {last : Token} (h : last.isSemicolon) :
    dropTerminator (ts ++ [last]) = ts := by
  simp [dropTerminator, h]

/-- The tokens of a segment that count, its semicolon dropped. -/
theorem dropTerminator_significant {body : List Token} {last : Token} (h : last.isSemicolon) :
    dropTerminator (Scan.significant (body ++ [last])) = Scan.significant body := by
  rw [Scan.significant_append, Scan.significant_singleton h, dropTerminator_append h]

/-- A statement is read off the tokens up to its semicolon, whatever follows them. -/
theorem read_append {body : List Token} {last property : Token} {more : List Token}
    (rest : List Token) (hf : Flat body) (he : Ends body last)
    (hb : Scan.significant body = property :: more) :
    read (body ++ last :: rest) = .ok ⟨body.length + 1, property.text, more.drop 1⟩ := by
  simp only [read, Scan.statementLength_append rest hf he, ok_bind, take_through,
    dropTerminator_significant he.last, hb]
  rfl

theorem exists_of_read {ts : List Token} {statement : Statement} (hf : Flat ts)
    (h : read ts = .ok statement) :
    ∃ body last rest property more, ts = body ++ last :: rest ∧ Ends body last ∧
      Scan.significant body = property :: more ∧
      statement = ⟨body.length + 1, property.text, more.drop 1⟩ := by
  have hne : ts ≠ [] := by
    rintro rfl
    cases h
  unfold read at h
  obtain ⟨size, hsize, h⟩ := bind_eq_ok_iff.mp h
  obtain ⟨body, last, rest, rfl, rfl, he⟩ := Scan.exists_of_statementLength hf hne hsize
  rw [take_through, dropTerminator_significant he.last] at h
  split at h
  · cases h
  next property more hb =>
  cases h
  exact ⟨body, last, rest, property, more, rfl, he, hb, rfl⟩

end Statement
end RuleTree
