import Mathlib
import RuleTree.Proofs.Failure
import RuleTree.Proofs.Faults
import RuleTree.Proofs.Height
import RuleTree.Token.Lexer

/-! Errors and the tokens that they are at. Every error is at a token of the input, and what stands
around that token in the whole input is what the cause of the error says. -/
namespace RuleTree
open Braces

/-- The tokens end with an at-sign and a word. -/
def EndsInName (ts : List Token) : Prop :=
  ∃ before mark name, ts = before ++ [mark, name] ∧ mark.isAtSign ∧ name.isWord

/-- A segment may begin behind the tokens: there are none, or the last one is a semicolon or a
brace. -/
def AtBoundary (ts : List Token) : Prop :=
  ∀ t ∈ ts.getLast?, t.isSemicolon ∨ t.isBraceOpen ∨ t.isBraceClose

/-- `t` is no semicolon, and it is the last token or the last one in a block. -/
def BreaksOff (front : List Token) (t : Token) (back : List Token) : Prop :=
  t.isSemicolon = false ∧ (back = [] ∨ ∃ o < front.length, OpenAt (front ++ t :: back) o ∧
    Answers (front ++ t :: back) o (front.length + 1))

/-- What stands around `t` where an error of the given cause is at it. -/
inductive Blames (front : List Token) (t : Token) (back : List Token) : Cause → Prop
  /-- The last token, where an opening brace has no answer. -/
  | unmatched {o : Nat} (hlast : back = []) (ho : OpenAt (front ++ t :: back) o)
      (hc : ∀ c, ¬ Answers (front ++ t :: back) o c) : Blames front t back .unmatchedBrace
  | tooDeep (ht : t.isBraceOpen) : Blames front t back .nestingTooDeep
  /-- A closing brace that answers none. -/
  | stray (ht : t.isBraceClose) (hno : ¬ Answered (front ++ t :: back) front.length) :
      Blames front t back .unknownToken
  /-- An at-sign that is not directly in front of a word. -/
  | nameless (ht : t.isAtSign) (hname : ∀ u ∈ back.head?, u.isWord = false) :
      Blames front t back .unknownToken
  /-- A semicolon behind an at-sign, a word and at least one delimiter. -/
  | valueless {before gap : List Token} (ht : t.isSemicolon) (hfront : front = before ++ gap)
      (hname : EndsInName before) (hne : gap ≠ []) (hgap : ∀ u ∈ gap, u.isDelimiter) :
      Blames front t back .missingValue
  /-- A semicolon with nothing but delimiters between it and the last boundary. -/
  | empty {before gap : List Token} (ht : t.isSemicolon) (hfront : front = before ++ gap)
      (hbefore : AtBoundary before) (hgap : ∀ u ∈ gap, u.isDelimiter) :
      Blames front t back .mismatch
  /-- A token directly behind an at-rule's name that is no delimiter and no semicolon. -/
  | gapless (ht : t.isDelimiter = false) (hlast : t.isSemicolon = false)
      (hname : EndsInName front) : Blames front t back .mismatch
  | breaksOff (h : BreaksOff front t back) : Blames front t back .endOfInput
  /-- A semicolon directly behind an at-rule's name. -/
  | bare (ht : t.isSemicolon) (hname : EndsInName front) : Blames front t back .endOfInput
  /-- An at-sign directly in front of an opening brace. -/
  | header (ht : t.isAtSign) (hback : ∃ brace ∈ back.head?, brace.isBraceOpen) :
      Blames front t back .endOfInput

/-- The error is at a token of the list, and its cause is what is found there. -/
def Blamed (ts : List Token) (e : ParseError) : Prop :=
  ∃ front t back, ts = front ++ t :: back ∧ e.Cites e.cause t ∧ Blames front t back e.cause

section
variable {before front back after : List Token} {t : Token} {cause : Cause}

theorem EndsInName.behind (before : List Token) (h : EndsInName front) :
    EndsInName (before ++ front) := by
  obtain ⟨more, mark, name, rfl, hmark, hname⟩ := h
  exact ⟨before ++ more, mark, name, by simp, hmark, hname⟩

theorem AtBoundary.concat (before : List Token)
    (ht : t.isSemicolon ∨ t.isBraceOpen ∨ t.isBraceClose) : AtBoundary (before ++ [t]) := by
  intro u hu
  rw [List.getLast?_concat] at hu
  obtain rfl := Option.some.inj hu
  exact ht

theorem AtBoundary.behind (hbefore : AtBoundary before) (h : AtBoundary front) :
    AtBoundary (before ++ front) := by
  rcases List.eq_nil_or_concat front with rfl | ⟨init, t, rfl⟩
  · rwa [List.append_nil]
  · rw [List.concat_eq_append] at h ⊢
    rw [← List.append_assoc]
    exact .concat _ (h t List.getLast?_concat)

theorem BreaksOff.around (before : List Token) (h : BreaksOff front t back)
    (hback : back = [] → after = [] ∨ ∃ o < before.length,
      OpenAt (before ++ (front ++ t :: back ++ after)) o ∧
        Answers (before ++ (front ++ t :: back ++ after)) o (before.length + front.length + 1)) :
    BreaksOff (before ++ front) t (back ++ after) := by
  have hsplit : before ++ front ++ t :: (back ++ after) =
      before ++ (front ++ t :: back ++ after) := by simp
  refine ⟨h.1, ?_⟩
  rw [hsplit, List.length_append]
  rcases h.2 with rfl | ⟨o, hlt, hopen, ha⟩
  · rcases hback rfl with rfl | ⟨o, hlt, hopen, ha⟩
    · exact .inl rfl
    · exact .inr ⟨o, by omega, hopen, ha⟩
  · exact .inr ⟨before.length + o, by omega, openAt_around before after hopen,
      answers_around before after hopen ha⟩

/-- What stands around a token is still there behind other tokens, which end at a boundary and
leave no brace open. -/
theorem Blames.behind (hbefore : AtBoundary before) (hheight : height before = 0)
    (h : Blames front t back cause) : Blames (before ++ front) t back cause := by
  have hsplit : before ++ front ++ t :: back = before ++ (front ++ t :: back) :=
    List.append_assoc ..
  cases h with
  | @unmatched o hlast ho hc =>
    have hopen := openAt_around before [] ho
    rw [List.append_nil] at hopen
    apply Blames.unmatched hlast (hsplit ▸ hopen)
    intro c ha
    obtain ⟨d, hd⟩ := exists_answers_of_append ho (hsplit ▸ ha)
    exact hc d hd
  | tooDeep ht => exact .tooDeep ht
  | stray ht hno =>
    apply Blames.stray ht
    rw [answered_iff back ht] at hno ⊢
    rwa [height, heightFrom_append, ← height, hheight]
  | nameless ht hname => exact .nameless ht hname
  | valueless ht hfront hname hne hgap =>
    exact .valueless ht (by rw [hfront, List.append_assoc]) (hname.behind before) hne hgap
  | empty ht hfront hb hgap =>
    exact .empty ht (by rw [hfront, List.append_assoc]) (hbefore.behind hb) hgap
  | gapless ht hlast hname => exact .gapless ht hlast (hname.behind before)
  | breaksOff h =>
    have hlarge : BreaksOff (before ++ front) t (back ++ []) := h.around before fun _ => .inl rfl
    rw [List.append_nil] at hlarge
    exact .breaksOff hlarge
  | bare ht hname => exact .bare ht (hname.behind before)
  | header ht hback => exact .header ht hback

/-- What stands around a token in balanced tokens is still there where these are the inside of a
block. -/
theorem Blames.inside {outer rest : List Token} {brace close : Token} (hb : brace.isBraceOpen)
    (hi : Balanced (front ++ t :: back)) (hc : close.isBraceClose)
    (h : Blames front t back cause) :
    Blames (outer ++ brace :: front) t (back ++ close :: rest) cause := by
  have houter : outer ++ brace :: front = outer ++ [brace] ++ front := by simp
  have hboundary : AtBoundary (outer ++ [brace]) := .concat outer (.inr (.inl hb))
  rw [houter]
  cases h with
  | @unmatched o hlast ho hnone =>
    obtain ⟨c, ha⟩ := hi.exists_answers ho
    exact absurd ha (hnone c)
  | tooDeep ht => exact .tooDeep ht
  | stray ht hno => exact absurd ((answered_iff back ht).mpr (hi.height_pos ht)) hno
  | nameless ht hname =>
    apply Blames.nameless ht
    cases back with
    | nil =>
      intro u hu
      obtain rfl := Option.some.inj hu
      exact Token.kind_beq_of_ne hc (by decide)
    | cons u more => exact hname
  | valueless ht hfront hname hne hgap =>
    exact .valueless ht (by rw [hfront, ← List.append_assoc]) (hname.behind (outer ++ [brace])) hne
      hgap
  | empty ht hfront hbefore hgap =>
    exact .empty ht (by rw [hfront, ← List.append_assoc]) (hboundary.behind hbefore) hgap
  | gapless ht hlast hname => exact .gapless ht hlast (hname.behind _)
  | breaksOff h =>
    apply Blames.breaksOff
    apply h.around
    -- the last token of the inside stands in front of the brace that closes the block
    rintro rfl
    have hsplit : outer ++ [brace] ++ (front ++ [t] ++ close :: rest) =
        outer ++ brace :: (front ++ [t] ++ close :: rest) := by simp
    have hlength : (outer ++ [brace]).length + front.length + 1 =
        outer.length + 1 + (front ++ [t]).length := by
      simp only [List.length_append, List.length_singleton]
      omega
    rw [hsplit, hlength]
    exact .inr ⟨outer.length, by simp, openAt_append outer _ hb,
      answers_append outer brace rest hi hc⟩
  | bare ht hname => exact .bare ht (hname.behind _)
  | header ht hback =>
    obtain ⟨open', hhead, hopen⟩ := hback
    refine .header ht ⟨open', ?_, hopen⟩
    cases back with
    | nil => cases hhead
    | cons u more => exact hhead

end

section
variable {ts : List Token} {e : ParseError}

/-- A segment without an end is refused at its last token. -/
theorem blamed_endless {last : Token} (hfree : ∀ t ∈ ts, t.isSemicolon = false)
    (hlast : ts.getLast? = some last) : Blamed ts (last.fault .endOfInput) := by
  obtain ⟨init, rfl⟩ := List.getLast?_eq_some_iff.mp hlast
  exact ⟨init, last, [], rfl, last.fault_cites _, .breaksOff ⟨hfree last (by simp), .inl rfl⟩⟩

theorem AtRule.Fault.blamed (h : AtRule.Fault ts e) : Blamed ts e := by
  cases h with
  | endless hfree hlast => exact blamed_endless hfree hlast
  | @bare mark name last rest hmark hname hlast =>
    exact ⟨[mark, name], last, rest, rfl, last.fault_cites _,
      .bare hlast ⟨[], mark, name, rfl, hmark, hname⟩⟩
  | @noGap mark name third rest hmark hname hgap hthird =>
    exact ⟨[mark, name], third, rest, rfl, third.fault_cites _,
      .gapless hgap hthird ⟨[], mark, name, rfl, hmark, hname⟩⟩
  | @noValue mark name last gap rest hmark hname hne hgap hlast =>
    exact ⟨[mark, name] ++ gap, last, rest, rfl, last.fault_cites _,
      .valueless hlast rfl ⟨[], mark, name, rfl, hmark, hname⟩ hne hgap⟩

theorem Statement.Fault.blamed (h : Statement.Fault ts e) : Blamed ts e := by
  cases h with
  | endless hfree hlast => exact blamed_endless hfree hlast
  | @empty gap rest last hgap hlast =>
    have hstart : AtBoundary [] := nofun
    exact ⟨gap, last, rest, rfl, last.fault_cites _,
      .empty hlast (List.nil_append gap).symm hstart hgap⟩

theorem Blamed.behind {before : List Token} (hbefore : AtBoundary before)
    (hheight : height before = 0) (h : Blamed ts e) : Blamed (before ++ ts) e := by
  obtain ⟨front, t, back, rfl, he, hblames⟩ := h
  exact ⟨before ++ front, t, back, by simp, he, hblames.behind hbefore hheight⟩

theorem Segment.atBoundary (h : Segment ts) : AtBoundary ts := by
  cases h with
  | @atRule body last he hb => exact .concat body (.inl he.last)
  | @statement body last he hb => exact .concat body (.inl he.last)

theorem Fails.blamed {room : Nat} (h : Fails room ts e) : Blamed ts e := by
  induction h with
  | @unmatched room front back brace e hf hb hm =>
    obtain ⟨hnone, rfl⟩ := Scan.error_of_matchingBrace hm
    have hopen := openAt_append front back hb
    have hunanswered : ∀ c, ¬ Answers (front ++ brace :: back) front.length c := by
      intro c ha
      obtain ⟨inner, close, rest, rfl, -, hc, hi⟩ := exists_of_answers ha
      rw [closer?_append rest (settles_zero.mpr hi) hc] at hnone
      cases hnone
    rcases List.eq_nil_or_concat (front ++ brace :: back) with hnil | ⟨init, last, hs⟩
    · simp at hnil
    rw [List.concat_eq_append] at hs
    rw [hs] at hopen hunanswered ⊢
    rw [ParseError.atLast_append]
    exact ⟨init, last, [], rfl, last.fault_cites _, .unmatched rfl hopen hunanswered⟩
  | @tooDeep front inner rest brace close hf hb hi hc =>
    exact ⟨front, brace, _, rfl, brace.fault_cites _, .tooDeep hb⟩
  | @content room front inner rest brace close e hf hb hi hc body ih =>
    obtain ⟨before, t, after, rfl, he, hblames⟩ := ih
    exact ⟨front ++ brace :: before, t, after ++ close :: rest, by simp, he,
      hblames.inside hb hi hc⟩
  | @header room front inner rest brace close e hf hb hi hc body hh =>
    obtain ⟨before, mark, rfl, hmark, rfl⟩ := Header.exists_of_read_error hh
    exact ⟨before, mark, brace :: (inner ++ close :: rest), by simp, mark.fault_cites _,
      .header hmark ⟨brace, rfl, hb⟩⟩
  | @behindBlock room front inner rest brace close e hf hb hi hc body hn more ih =>
    have hheight : height (front ++ brace :: (inner ++ [close])) = 0 := height_block hf hb hi hc
    have hboundary : AtBoundary (front ++ brace :: (inner ++ [close])) := by
      rw [← List.cons_append, ← List.append_assoc]
      exact .concat _ (.inr (.inr hc))
    have hsplit : front ++ brace :: (inner ++ close :: rest) =
        front ++ brace :: (inner ++ [close]) ++ rest := by simp
    rw [hsplit]
    exact ih.behind hboundary hheight
  | atRule hf hb hr => exact (AtRule.fault_of_read hf hb hr).blamed
  | statement hf hl hb hr => exact (Statement.fault_of_read hf (List.cons_ne_nil _ _) hr).blamed
  | @behindSegment room segment rest e hf hs more ih =>
    exact ih.behind hs.atBoundary (flat_append.mp hf).1.heightFrom_zero.1
  | @unknown room first more hf hl ha hb =>
    refine ⟨[], first, more, rfl, first.fault_cites _, ?_⟩
    have hopen := hf first (List.mem_cons_self ..)
    simp only [Statement.beginsWith, hopen, Bool.or_false, Bool.not_eq_false',
      Bool.or_eq_true] at hb
    rcases hb with hmark | hclose
    · apply Blames.nameless hmark
      intro u hu
      cases more with
      | nil => cases hu
      | cons name more =>
        obtain rfl := Option.some.inj hu
        simpa [AtRule.begins, hmark] using ha
    · apply Blames.stray hclose
      rw [answered_iff more hclose]
      simp [height]

end

/-- An error of a parse is at a token of the input, whose offset, text and excerpt it has, and what
stands around that token is what the cause of the error says. -/
theorem parse_blames (config : Config) (ts : List Token) (e : ParseError)
    (h : (parse config ts).result = .error e) :
    ∃ front t back, ts = front ++ t :: back ∧ e.Cites e.cause t ∧
      Blames front t back e.cause :=
  (parse_error_iff.mp h).blamed

theorem parse_blames_inside :
    ∃ e, (parse {} (Source.tokens ⟨none, "\x7d\x7ba;b\x7d"⟩)).result = .error e ∧
      ∃ front t back, Source.tokens ⟨none, "\x7d\x7ba;b\x7d"⟩ = front ++ t :: back ∧
        e.Cites e.cause t ∧ Blames front t back e.cause := by
  have h : (parse {} (Source.tokens ⟨none, "\x7d\x7ba;b\x7d"⟩)).result =
      .error (Token.fault ⟨.word, "b", 4, ⟨none, "\x7d\x7ba;b\x7d"⟩⟩ .endOfInput) := by cbv
  exact ⟨_, h, parse_blames _ _ _ h⟩

/-- An input that breaks off need not end there: the error is at the semicolon of an at-rule
without a value, and at the at-sign of a header without a name. -/
theorem parse_endOfInput_midway :
    (∃ e, (parse {} (Source.tokens ⟨none, "@import;"⟩)).result = .error e ∧
      e.cause = .endOfInput ∧
      ¬ ∃ front t back, Source.tokens ⟨none, "@import;"⟩ = front ++ t :: back ∧
        e.Cites e.cause t ∧ BreaksOff front t back) ∧
    ∃ e, (parse {} (Source.tokens ⟨none, "@\x7b\x7d"⟩)).result = .error e ∧
      e.cause = .endOfInput ∧
      ¬ ∃ front t back, Source.tokens ⟨none, "@\x7b\x7d"⟩ = front ++ t :: back ∧
        e.Cites e.cause t ∧ BreaksOff front t back := by
  constructor
  · have htokens : Source.tokens ⟨none, "@import;"⟩ =
        [⟨.atSign, "@", 0, ⟨none, "@import;"⟩⟩, ⟨.word, "import", 1, ⟨none, "@import;"⟩⟩,
          ⟨.semicolon, ";", 7, ⟨none, "@import;"⟩⟩] := by cbv
    have h : (parse {} (Source.tokens ⟨none, "@import;"⟩)).result =
        .error (Token.fault ⟨.semicolon, ";", 7, ⟨none, "@import;"⟩⟩ .endOfInput) := by cbv
    refine ⟨_, h, rfl, ?_⟩
    rintro ⟨front, t, back, hs, he, hfree, -⟩
    rw [htokens] at hs
    have hindex : t.index = 7 := he.index.symm
    have ht : t ∈ front ++ t :: back := by simp
    rw [← hs] at ht
    simp only [List.mem_cons, List.not_mem_nil, or_false] at ht
    rcases ht with rfl | rfl | rfl
    · cases hindex
    · cases hindex
    · cases hfree
  · have htokens : Source.tokens ⟨none, "@\x7b\x7d"⟩ =
        [⟨.atSign, "@", 0, ⟨none, "@\x7b\x7d"⟩⟩, ⟨.braceOpen, "\x7b", 1, ⟨none, "@\x7b\x7d"⟩⟩,
          ⟨.braceClose, "\x7d", 2, ⟨none, "@\x7b\x7d"⟩⟩] := by cbv
    have h : (parse {} (Source.tokens ⟨none, "@\x7b\x7d"⟩)).result =
        .error (Token.fault ⟨.atSign, "@", 0, ⟨none, "@\x7b\x7d"⟩⟩ .endOfInput) := by cbv
    refine ⟨_, h, rfl, ?_⟩
    rintro ⟨front, t, back, hs, he, -, hback⟩
    rw [htokens] at hs
    have hindex : t.index = 0 := he.index.symm
    cases front with
    | nil =>
      obtain ⟨-, rfl⟩ := List.cons.inj hs
      rcases hback with hback | ⟨o, ho, -⟩
      · cases hback
      · cases ho
    | cons u front =>
      rw [List.cons_append] at hs
      have ht : t ∈ front ++ t :: back := by simp
      rw [← (List.cons.inj hs).2] at ht
      simp only [List.mem_cons, List.not_mem_nil, or_false] at ht
      rcases ht with rfl | rfl
      · cases hindex
      · cases hindex

end RuleTree
