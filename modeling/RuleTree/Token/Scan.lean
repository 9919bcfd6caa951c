import RuleTree.ParseError

/-! Searches in token lists: the first token of a kind, the end of a statement, and the brace
that answers an opening one. -/
namespace RuleTree.Scan

def firstIndex? (k : Kind) (ts : List Token) : Option Nat := ts.findIdx? fun t => t.kind == k

/-- The tokens that are not delimiters, in order. -/
def significant (ts : List Token) : List Token := ts.filter fun t => !t.isDelimiter

theorem significant_append (ts us : List Token) :
    significant (ts ++ us) = significant ts ++ significant us := List.filter_append ..

theorem significant_eq_filter (ts : List Token) :
    significant ts = ts.filter fun t => t.kind ≠ .delimiter := by
  apply List.filter_congr
  intro t _
  rw [Token.isDelimiter, decide_not]
  rfl

/-- Checks `ts` against `kinds`, one by one, within the list `whole` that `ts` ends. -/
def requireWithin (whole : List Token) : List Token → List Kind → Except ParseError Unit
  | _, [] => .ok ()
  | [], _ :: _ => .error (.atLast .endOfInput whole)
  | t :: ts, k :: ks =>
    if t.kind = k then requireWithin whole ts ks else .error (t.fault .mismatch)

/-- Checks that the tokens begin with the given kinds. The error is at the first token that
differs, or at the last one when there are too few. -/
def requireKinds (ts : List Token) (kinds : List Kind) : Except ParseError Unit :=
  requireWithin ts ts kinds

/-- Number of tokens of the statement that begins the list. It ends with its first semicolon, or
in front of the first opening brace other than its own first token. That token is counted unseen,
and so also where there is none. -/
def statementLength? : List Token → Option Nat
  | [] => some 1
  | t :: ts =>
    if t.isSemicolon then some 1
    else match ts with
      | [] => none
      | u :: us => if u.isBraceOpen then some 1 else (statementLength? (u :: us)).map (· + 1)

theorem statementLength?_bounds {ts : List Token} {n : Nat} (hne : ts ≠ [])
    (h : statementLength? ts = some n) : 0 < n ∧ n ≤ ts.length := by
  fun_induction statementLength? ts generalizing n with
  | case1 => exact absurd rfl hne
  | case2 => cases h; simp
  | case3 => cases h
  | case4 => cases h; simp
  | case5 t _ u us _ ih =>
    obtain ⟨m, hm, rfl⟩ := Option.map_eq_some_iff.mp h
    have := ih (List.cons_ne_nil u us) hm
    simp only [List.length_cons] at this ⊢
    omega

/-- The statement's length, or the error of a statement that does not end. -/
def statementLength (ts : List Token) : Except ParseError Nat :=
  match statementLength? ts with
  | some n => .ok n
  | none => .error (.atLast .endOfInput ts)

/-- Position of the closing brace that leaves no brace open when `opens` braces are open, and one
more, in front of the list. -/
def closer? : Nat → List Token → Option Nat
  | _, [] => none
  | opens, t :: ts =>
    if t.isBraceOpen then (closer? (opens + 1) ts).map (· + 1)
    else if t.isBraceClose then
      match opens with
      | 0 => some 0
      | opens + 1 => (closer? opens ts).map (· + 1)
    else (closer? opens ts).map (· + 1)

theorem closer?_lt {opens n : Nat} {ts : List Token} (h : closer? opens ts = some n) :
    n < ts.length := by
  induction ts generalizing opens n with
  | nil => cases h
  | cons t ts ih =>
    unfold closer? at h
    split at h
    · obtain ⟨m, hm, rfl⟩ := Option.map_eq_some_iff.mp h
      exact Nat.succ_lt_succ (ih hm)
    · split at h
      · split at h
        · cases h
          simp
        · obtain ⟨m, hm, rfl⟩ := Option.map_eq_some_iff.mp h
          exact Nat.succ_lt_succ (ih hm)
      · obtain ⟨m, hm, rfl⟩ := Option.map_eq_some_iff.mp h
        exact Nat.succ_lt_succ (ih hm)

/-- Position of the closing brace that answers the opening one at `o`. -/
def matchingBrace (ts : List Token) (o : Nat) : Except ParseError Nat :=
  match closer? 0 (ts.drop (o + 1)) with
  | some n => .ok (o + 1 + n)
  | none => .error (.atLast .unmatchedBrace ts)

theorem matchingBrace_bounds {ts : List Token} {o c : Nat} (h : matchingBrace ts o = .ok c) :
    o < c ∧ c < ts.length := by
  unfold matchingBrace at h
  split at h
  · next hn =>
    have := closer?_lt hn
    simp only [List.length_drop] at this
    cases h
    omega
  · cases h

end RuleTree.Scan
