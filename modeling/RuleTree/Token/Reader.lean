import RuleTree.Json.Extent
import RuleTree.Token

/-! Tokens from a JSON list. Each is a record of its type, text and offset, in any order and among
others, or a list of the three. The text is read from left to right and its first fault decides. -/
namespace RuleTree

namespace Token.Reader
open Json

/-- Brackets around the value of a token's field: the list's and the token's. -/
def bracketsAround : Nat := 2

/-- Reads a token's type. Besides as a text, a type with a tag of its own may be written as a record
that holds nothing but this tag as the key of `null`. -/
def readKind (ls : List Lexeme) : Except Fault (Kind × List Lexeme) :=
  match ls with
  | .text (.ok tag) _ :: ls => .ok (Kind.ofTag tag, ls)
  | .openRecord :: .text (.ok tag) _ :: .colon :: .name (.ok "null") :: .closeRecord :: ls =>
    match Kind.named? tag with
    | some k => .ok (k, ls)
    | none => .error .mismatched
  | ls =>
    match afterValue (.exact bracketsAround) ls with
    | .ok _ => .error .mismatched
    | .error f => .error f

def readText (ls : List Lexeme) : Except Fault (String × List Lexeme) :=
  match ls with
  | .text (.ok s) _ :: ls => .ok (s, ls)
  | ls => .error (misfit ls)

/-- Reads a token's offset, a natural number of 64 bits. -/
def readIndex (ls : List Lexeme) : Except Fault (Nat × List Lexeme) :=
  match ls with
  | .number (.ok n) :: ls =>
    match n.natural? with
    | some index => .ok (index, ls)
    | none => .error (misfit (.number (.ok n) :: ls))
  | ls => .error (misfit ls)

/-- Takes a comma inside a list that has to go on. -/
def readComma (ls : List Lexeme) : Except Fault (List Lexeme) :=
  match ls with
  | .comma :: ls => .ok ls
  | .closeList :: _ => .error .mismatched
  | ls => .error (missingMark ls)

/-- Reads a token that is written as a list, from its first item to the list's end. A list of fewer
than three items has the wrong shape; one of more counts as malformed. -/
def readItems (origin : Source) (ls : List Lexeme) : Except Fault (Token × List Lexeme) :=
  match ls with
  | .closeList :: _ => .error .mismatched
  | ls => do
    let (kind, ls) ← readKind ls
    let ls ← readComma ls
    let (text, ls) ← readText ls
    let ls ← readComma ls
    let (index, ls) ← readIndex ls
    match ls with
    | .closeList :: ls => return (⟨kind, text, index, origin⟩, ls)
    | ls => throw (missingMark ls)

structure Draft where
  kind : Option Kind := none
  text : Option String := none
  index : Option Nat := none

def Draft.token? (d : Draft) (origin : Source) : Option Token := do
  return ⟨← d.kind, ← d.text, ← d.index, origin⟩

def readColon (ls : List Lexeme) : Except Fault (List Lexeme) :=
  match ls with
  | .colon :: ls => .ok ls
  | ls => .error (missingMark ls)

/-- Reads the value of a token's field whose key was read. A second value for a field is refused
already at its key; a key that is no field's may have any value. -/
def readField (d : Draft) (key : String) (ls : List Lexeme) :
    Except Fault (Draft × List Lexeme) := do
  if key = "type" then
    if d.kind.isSome then throw .mismatched
    let (kind, ls) ← readKind (← readColon ls)
    return ({ d with kind := some kind }, ls)
  else if key = "source" then
    if d.text.isSome then throw .mismatched
    let (text, ls) ← readText (← readColon ls)
    return ({ d with text := some text }, ls)
  else if key = "index" then
    if d.index.isSome then throw .mismatched
    let (index, ls) ← readIndex (← readColon ls)
    return ({ d with index := some index }, ls)
  else
    return (d, ← afterValue .loose (← readColon ls))

def readMember (d : Draft) (ls : List Lexeme) : Except Fault (Draft × List Lexeme) :=
  match ls with
  | .text (.ok key) _ :: ls => readField d key ls
  | .text (.error f) _ :: _ => .error f
  | ls => .error (missingMark ls)

theorem readKind_length {ls : List Lexeme} {r : Kind × List Lexeme} (h : readKind ls = .ok r) :
    r.2.length < ls.length := by
  unfold readKind at h
  split at h
  · cases h
    simp
  · split at h
    · cases h
      simp only [List.length_cons]
      omega
    · cases h
  · split at h <;> cases h

theorem readText_length {ls : List Lexeme} {r : String × List Lexeme} (h : readText ls = .ok r) :
    r.2.length < ls.length := by
  unfold readText at h
  split at h
  · cases h
    simp
  · cases h

theorem readIndex_length {ls : List Lexeme} {r : Nat × List Lexeme} (h : readIndex ls = .ok r) :
    r.2.length < ls.length := by
  unfold readIndex at h
  split at h
  · split at h
    · cases h
      simp
    · cases h
  · cases h

theorem readColon_length {ls rest : List Lexeme} (h : readColon ls = .ok rest) :
    rest.length < ls.length := by
  unfold readColon at h
  split at h
  · cases h
    simp
  · cases h

theorem readComma_length {ls rest : List Lexeme} (h : readComma ls = .ok rest) :
    rest.length < ls.length := by
  unfold readComma at h
  split at h
  · cases h
    simp
  · cases h
  · cases h

theorem readItems_length {origin : Source} {ls : List Lexeme} {r : Token × List Lexeme}
    (h : readItems origin ls = .ok r) : r.2.length < ls.length := by
  unfold readItems at h
  split at h
  · cases h
  · simp only [bind_eq_ok_iff] at h
    obtain ⟨k, hk, c, hc, t, ht, c', hc', i, hi, h⟩ := h
    have hk := readKind_length hk
    have hc := readComma_length hc
    have ht := readText_length ht
    have hc' := readComma_length hc'
    have hi := readIndex_length hi
    split at h
    · next hr =>
      cases h
      simp only [hr, List.length_cons] at hi
      simp only
      omega
    · cases h

theorem readField_length {d : Draft} {key : String} {ls : List Lexeme} {r : Draft × List Lexeme}
    (h : readField d key ls = .ok r) : r.2.length < ls.length := by
  unfold readField at h
  split at h
  · split at h
    · cases h
    · simp only [bind_eq_ok_iff] at h
      obtain ⟨c, hc, k, hk, h⟩ := h
      cases h
      exact Nat.lt_trans (readKind_length hk) (readColon_length hc)
  · split at h
    · split at h
      · cases h
      · simp only [bind_eq_ok_iff] at h
        obtain ⟨c, hc, t, ht, h⟩ := h
        cases h
        exact Nat.lt_trans (readText_length ht) (readColon_length hc)
    · split at h
      · split at h
        · cases h
        · simp only [bind_eq_ok_iff] at h
          obtain ⟨c, hc, i, hi, h⟩ := h
          cases h
          exact Nat.lt_trans (readIndex_length hi) (readColon_length hc)
      · simp only [bind_eq_ok_iff] at h
        obtain ⟨c, hc, rest, hr, h⟩ := h
        cases h
        exact Nat.lt_trans (afterValue_length hr) (readColon_length hc)

theorem readMember_length {d : Draft} {ls : List Lexeme} {r : Draft × List Lexeme}
    (h : readMember d ls = .ok r) : r.2.length < ls.length := by
  unfold readMember at h
  split at h
  · exact Nat.lt_succ_of_lt (readField_length h)
  · cases h
  · cases h

def readMembers (origin : Source) (d : Draft) (ls : List Lexeme) :
    Except Fault (Token × List Lexeme) :=
  match h : readMember d ls with
  | .error f => .error f
  | .ok (d, .closeRecord :: rest) =>
    match d.token? origin with
    | some t => .ok (t, rest)
    | none => .error .mismatched
  | .ok (d, .comma :: rest) =>
    have _shorter : rest.length < ls.length := Nat.lt_of_succ_lt (readMember_length h)
    readMembers origin d rest
  | .ok (_, rest) => .error (missingMark rest)
termination_by ls.length

def readToken (origin : Source) (ls : List Lexeme) : Except Fault (Token × List Lexeme) :=
  match ls with
  | .openList :: ls => readItems origin ls
  | .openRecord :: .closeRecord :: _ => .error .mismatched
  | .openRecord :: ls => readMembers origin {} ls
  | ls => .error (misfit ls)

theorem readMembers_length {origin : Source} {d : Draft} {ls : List Lexeme}
    {r : Token × List Lexeme} (h : readMembers origin d ls = .ok r) :
    r.2.length < ls.length := by
  fun_induction readMembers origin d ls with
  | case1 => cases h
  | case2 d ls d' rest hm t ht =>
    cases h
    have := readMember_length hm
    simp only [List.length_cons] at this
    simp only
    omega
  | case3 => cases h
  | case4 d ls d' rest hm shorter ih => exact Nat.lt_trans (ih h) shorter
  | case5 => cases h

theorem readToken_length {origin : Source} {ls : List Lexeme} {r : Token × List Lexeme}
    (h : readToken origin ls = .ok r) : r.2.length < ls.length := by
  unfold readToken at h
  split at h
  · exact Nat.lt_succ_of_lt (readItems_length h)
  · cases h
  · exact Nat.lt_succ_of_lt (readMembers_length h)
  · cases h

/-- Reads tokens up to the end of their list, which is not at its first. -/
def readTokens (origin : Source) (ls : List Lexeme) : Except Fault (List Token × List Lexeme) :=
  match h : readToken origin ls with
  | .error f => .error f
  | .ok (t, .closeList :: rest) => .ok ([t], rest)
  | .ok (t, .comma :: rest) =>
    have _shorter : rest.length < ls.length := Nat.lt_of_succ_lt (readToken_length h)
    (readTokens origin rest).map fun r => (t :: r.1, r.2)
  | .ok (_, rest) => .error (missingMark rest)
termination_by ls.length

def readList (origin : Source) (ls : List Lexeme) : Except Fault (List Token × List Lexeme) :=
  match ls with
  | .openList :: .closeList :: ls => .ok ([], ls)
  | .openList :: ls => readTokens origin ls
  | ls => .error (misfit ls)

end Token.Reader

/-- The tokens that a JSON text lists, as pieces of the source. -/
def Source.tokensOfJson (s : Source) (json : String) : Except Json.Fault (List Token) :=
  match Token.Reader.readList s (Json.lexemes json.toList) with
  | .error f => .error f
  | .ok (ts, []) => .ok ts
  | .ok (_, _ :: _) => .error .malformed

end RuleTree
