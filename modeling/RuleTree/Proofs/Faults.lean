import Mathlib.Tactic
import RuleTree.Proofs.Headers
import RuleTree.Proofs.Segments

/-! Errors where they are raised: for each of the readers, the tokens on which it fails and the
token that its error is at. -/
namespace RuleTree
open Braces

/-- The error has the cause and is at the token: it carries the token's offset and text, and the
excerpt around that offset of the text that the token comes from. Tokens may have any offset here;
`Excerpt.window` says up to which one words of 64 bits give the same excerpt. -/
structure ParseError.Cites (e : ParseError) (c : Cause) (t : Token) : Prop where
  cause : e.cause = c
  index : e.index = t.index
  token : e.token = t.text
  excerpt : e.excerpt = Excerpt.around t.origin.text t.index

theorem Token.fault_cites (t : Token) (c : Cause) : (t.fault c).Cites c t := ⟨rfl, rfl, rfl, rfl⟩

/-- Errors are the faults of the tokens that they are at. -/
theorem ParseError.cites_iff {e : ParseError} {c : Cause} {t : Token} :
    e.Cites c t ↔ e = t.fault c := by
  constructor
  · rintro ⟨hcause, hindex, htoken, hexcerpt⟩
    cases e
    cases hcause
    cases hindex
    cases htoken
    cases hexcerpt
    rfl
  · rintro rfl
    exact t.fault_cites c

theorem ParseError.atLast_eq {cause : Cause} {ts : List Token} {last : Token}
    (h : ts.getLast? = some last) : ParseError.atLast cause ts = last.fault cause := by
  rw [ParseError.atLast, h]

theorem ParseError.atLast_append (cause : Cause) (ts : List Token) (last : Token) :
    ParseError.atLast cause (ts ++ [last]) = last.fault cause :=
  atLast_eq List.getLast?_concat

namespace Scan

/-- A segment without an end has no semicolon. -/
theorem free_of_statementLength? {ts : List Token} (h : statementLength? ts = none) :
    ∀ t ∈ ts, t.isSemicolon = false := by
  fun_induction statementLength? ts with
  | case1 => cases h
  | case2 => cases h
  | case3 t ht => simpa using ht
  | case4 => cases h
  | case5 t ht u us _ ih =>
    have hrest := ih (Option.map_eq_none_iff.mp h)
    exact List.forall_mem_cons.mpr ⟨by simpa using ht, hrest⟩

/-- A segment without an end is refused at its last token. -/
theorem error_of_statementLength? {ts : List Token} (hne : ts ≠ [])
    (h : statementLength? ts = none) :
    ∃ last, ts.getLast? = some last ∧ (∀ t ∈ ts, t.isSemicolon = false) ∧
      statementLength ts = .error (last.fault .endOfInput) := by
  obtain ⟨last, hlast⟩ := Option.ne_none_iff_exists'.mp (mt List.getLast?_eq_none_iff.mp hne)
  refine ⟨last, hlast, free_of_statementLength? h, ?_⟩
  rw [statementLength, h, ← ParseError.atLast_eq hlast]

theorem error_of_matchingBrace {front back : List Token} {brace : Token} {e : ParseError}
    (h : matchingBrace (front ++ brace :: back) front.length = .error e) :
    closer? 0 back = none ∧ e = .atLast .unmatchedBrace (front ++ brace :: back) := by
  rw [matchingBrace, drop_behind] at h
  split at h
  next => cases h
  next hn =>
    cases h
    exact ⟨hn, rfl⟩

theorem requireKinds_third {mark name third : Token} (rest : List Token) (hmark : mark.isAtSign)
    (hname : name.isWord) (hthird : third.isDelimiter = false) :
    requireKinds (mark :: name :: third :: rest) [.atSign, .word, .delimiter] =
      .error (third.fault .mismatch) := by
  simp only [Token.isAtSign, Token.isWord, Token.isDelimiter, beq_iff_eq, beq_eq_false_iff_ne]
    at hmark hname hthird
  simp [requireKinds, requireWithin, hmark, hname, hthird]

end Scan

/-- The errors of a segment that begins an at-rule. -/
inductive AtRule.Fault : List Token → ParseError → Prop
  | endless {ts : List Token} {last : Token} (hfree : ∀ t ∈ ts, t.isSemicolon = false)
      (hlast : ts.getLast? = some last) : AtRule.Fault ts (last.fault .endOfInput)
  | bare {mark name last : Token} {rest : List Token} (hmark : mark.isAtSign)
      (hname : name.isWord) (hlast : last.isSemicolon) :
      AtRule.Fault (mark :: name :: last :: rest) (last.fault .endOfInput)
  | noGap {mark name third : Token} {rest : List Token} (hmark : mark.isAtSign)
      (hname : name.isWord) (hgap : third.isDelimiter = false)
      (hthird : third.isSemicolon = false) :
      AtRule.Fault (mark :: name :: third :: rest) (third.fault .mismatch)
  | noValue {mark name last : Token} {gap rest : List Token} (hmark : mark.isAtSign)
      (hname : name.isWord) (hne : gap ≠ []) (hgap : ∀ t ∈ gap, t.isDelimiter)
      (hlast : last.isSemicolon) :
      AtRule.Fault (mark :: name :: (gap ++ last :: rest)) (last.fault .missingValue)

/-- The errors of a segment that begins a statement. -/
inductive Statement.Fault : List Token → ParseError → Prop
  | endless {ts : List Token} {last : Token} (hfree : ∀ t ∈ ts, t.isSemicolon = false)
      (hlast : ts.getLast? = some last) : Statement.Fault ts (last.fault .endOfInput)
  | empty {gap rest : List Token} {last : Token} (hgap : ∀ t ∈ gap, t.isDelimiter)
      (hlast : last.isSemicolon) : Statement.Fault (gap ++ last :: rest) (last.fault .mismatch)

theorem Scan.significant_eq_nil_iff {ts : List Token} :
    significant ts = [] ↔ ∀ t ∈ ts, t.isDelimiter := by
  simp [significant, List.filter_eq_nil_iff]

namespace AtRule

/-- What begins an at-rule has a mark and a name in front of its semicolon. -/
theorem exists_front_of_begins {body rest : List Token} {last : Token}
    (hb : begins (body ++ last :: rest)) (hlast : last.isSemicolon) :
    ∃ mark name more, body = mark :: name :: more ∧ mark.isAtSign ∧ name.isWord := by
  simp only [Token.isSemicolon, beq_iff_eq] at hlast
  cases body with
  | nil => cases rest <;> simp [begins, Token.isAtSign, hlast] at hb
  | cons mark body =>
    cases body with
    | nil => simp [begins, Token.isWord, hlast] at hb
    | cons name more =>
      obtain ⟨hmark, hname⟩ := Bool.and_eq_true_iff.mp hb
      exact ⟨mark, name, more, rfl, hmark, hname⟩

theorem fault_of_read {ts : List Token} {e : ParseError} (hf : Flat ts) (hb : begins ts)
    (h : read ts = .error e) : Fault ts e := by
  have hne : ts ≠ [] := by
    rintro rfl
    cases hb
  cases hs : Scan.statementLength? ts with
  | none =>
    obtain ⟨last, hlast, hfree, hlength⟩ := Scan.error_of_statementLength? hne hs
    rw [read, hlength] at h
    cases h
    exact .endless hfree hlast
  | some n =>
    obtain ⟨body, last, rest, rfl, -, he⟩ := Scan.exists_of_statementLength? hf hne hs
    obtain ⟨mark, name, more, rfl, hmark, hname⟩ := exists_front_of_begins hb he.last
    have hfb := (flat_append.mp hf).1
    cases more with
    | nil =>
      have hr : read ([mark, name] ++ last :: rest) = .error (last.fault .endOfInput) := by
        rw [read, Scan.statementLength_append rest hfb he, ok_bind, take_through,
          ParseError.atLast_append]
        rfl
      cases h.symm.trans hr
      exact .bare hmark hname he.last
    | cons gap value =>
      cases hgap : gap.isDelimiter with
      | true =>
        rw [read_front rest hfb he hmark hname hgap] at h
        split at h
        next hvalue =>
          cases h
          have hdelimiters := Scan.significant_eq_nil_iff.mp hvalue
          exact .noValue hmark hname (List.cons_ne_nil gap value)
            (List.forall_mem_cons.mpr ⟨hgap, hdelimiters⟩) he.last
        next => cases h
      | false =>
        have hsize : ¬ (mark :: name :: gap :: value).length + 1 < leastSize := by
          simp [leastSize]
        have hr : read (mark :: name :: gap :: value ++ last :: rest) =
            .error (gap.fault .mismatch) := by
          rw [read, Scan.statementLength_append rest hfb he, ok_bind, if_neg hsize]
          exact congrArg (· >>= _) (Scan.requireKinds_third _ hmark hname hgap)
        cases h.symm.trans hr
        exact .noGap hmark hname hgap (he.free gap (by simp))

theorem Fault.cause_ne {ts : List Token} {e : ParseError} (h : Fault ts e) :
    e.cause ≠ .nestingTooDeep := by
  cases h <;> nofun

end AtRule

namespace Statement

theorem fault_of_read {ts : List Token} {e : ParseError} (hf : Flat ts) (hne : ts ≠ [])
    (h : read ts = .error e) : Fault ts e := by
  cases hs : Scan.statementLength? ts with
  | none =>
    obtain ⟨last, hlast, hfree, hlength⟩ := Scan.error_of_statementLength? hne hs
    rw [read, hlength] at h
    cases h
    exact .endless hfree hlast
  | some n =>
    obtain ⟨body, last, rest, rfl, -, he⟩ := Scan.exists_of_statementLength? hf hne hs
    rw [read, Scan.statementLength_append rest (flat_append.mp hf).1 he, ok_bind, take_through,
      dropTerminator_significant he.last] at h
    split at h
    next hbody =>
      rw [ParseError.atLast_append] at h
      cases h
      exact .empty (Scan.significant_eq_nil_iff.mp hbody) he.last
    next => cases h

theorem Fault.cause_ne {ts : List Token} {e : ParseError} (h : Fault ts e) :
    e.cause ≠ .nestingTooDeep := by
  cases h <;> nofun

end Statement

/-- A header is refused for an at-sign at its end. -/
theorem Header.exists_of_read_error {ts : List Token} {e : ParseError}
    (h : (Header.read ts).result = .error e) :
    ∃ front mark, ts = front ++ [mark] ∧ mark.isAtSign ∧ e = mark.fault .endOfInput := by
  cases hk : Scan.firstIndex? .atSign ts with
  | none =>
    rw [(read_result_selectors hk).1] at h
    cases h
  | some k =>
    obtain ⟨front, mark, back, rfl, -, hfree, hmark⟩ := Scan.exists_of_firstIndex? hk
    rw [read_result_atSign hfree hmark] at h
    cases back with
    | nil =>
      cases h
      exact ⟨front, mark, rfl, by simp [Token.isAtSign, hmark], rfl⟩
    | cons => cases h

end RuleTree
