import Mathlib.Data.List.ReduceOption
import Mathlib.Tactic
import RuleTree.Proofs.Json.Values
import RuleTree.Token.Reader

/-! Texts that list tokens, in all the ways in which JSON can write them: with any blanks and
escapes, each token as a record of its fields in any order among others, or as a list of the three
values. Their reader takes each token's type, text and offset from them and adds the source. -/
namespace RuleTree
open Json

/-- A token as it is exchanged, without its source. -/
structure RawToken where
  tag : String
  text : String
  index : Nat

namespace RawToken

/-- What a token is listed with. -/
inductive Field where
  | type | source | index
  deriving DecidableEq

/-- The key of a field in a record. -/
def Field.key : Field → String
  | .type => "type"
  | .source => "source"
  | .index => "index"

def Field.all : List Field := [.type, .source, .index]

section
variable (e : RawToken)

/-- The texts of a field's value. -/
def Value : Field → List Char → Prop
  | .type, text => Quotes e.tag text
  | .source, text => Quotes e.text text
  | .index, text => text = Nat.toDigits 10 e.index

/-- An entry of the token's record: one of its fields, or any value behind a key that is no
field's. -/
inductive Member : Option Field → List Char → Prop
  | field (f : Field) {front key gap value : List Char} (hfront : Gap front)
      (hkey : Quotes f.key key) (hgap : Gap gap) (h : Padded (e.Value f) value) :
      Member (some f) (front ++ (key ++ (gap ++ ':' :: value)))
  | other {known : String} {front key gap value : List Char} (hother : ∀ f : Field, known ≠ f.key)
      (hfront : Gap front) (hkey : Quotes known key) (hgap : Gap gap)
      (h : WellFormed (.entry .list) value) :
      Member none (front ++ (key ++ (gap ++ ':' :: value)))

/-- The texts of the token: a record that has every field once, or a list of the fields' values. -/
inductive Written : List Char → Prop
  | record {members : List (Option Field)} {entries : List (List Char)}
      (hfields : members.reduceOption.Perm Field.all)
      (h : List.Forall₂ e.Member members entries) : Written (Bracket.record.enclose entries)
  | list {entries : List (List Char)}
      (h : List.Forall₂ (fun f => Padded (e.Value f)) Field.all entries) :
      Written (Bracket.list.enclose entries)

/-- The token as it is received for the source `s`. -/
def token (s : Source) : Token := ⟨Kind.ofTag e.tag, e.text, e.index, s⟩

end

/-- The texts of a list of tokens. -/
inductive Listing : List RawToken → List Char → Prop
  | empty {gap : List Char} (h : Gap gap) : Listing [] (Bracket.list.enclose [gap])
  | tokens {es : List RawToken} {entries : List (List Char)} (hne : es ≠ [])
      (h : List.Forall₂ (fun e => Padded e.Written) es entries) :
      Listing es (Bracket.list.enclose entries)

end RawToken

/-! ### Readers of one part -/

namespace Token.Reader

section
variable {s : Source} {d d' : Draft} {t : Token} {ls rest : List Lexeme}

theorem readMembers_more (h : readMember d ls = .ok (d', .comma :: rest)) :
    readMembers s d ls = readMembers s d' rest := by
  rw [readMembers]
  split
  next hf => cases h.symm.trans hf
  next hl => cases h.symm.trans hl
  next hm =>
    cases h.symm.trans hm
    rfl
  next hother hm =>
    cases h.symm.trans hm
    exact absurd rfl (hother rest)

theorem readMembers_last (h : readMember d ls = .ok (d', .closeRecord :: rest))
    (ht : d'.token? s = some t) : readMembers s d ls = .ok (t, rest) := by
  rw [readMembers]
  split
  next hf => cases h.symm.trans hf
  next hl =>
    cases h.symm.trans hl
    rw [ht]
  next hm => cases h.symm.trans hm
  next hother _ hm =>
    cases h.symm.trans hm
    exact absurd rfl (hother rest)

theorem readTokens_more (h : readToken s ls = .ok (t, .comma :: rest)) :
    readTokens s ls = (readTokens s rest).map fun r => (t :: r.1, r.2) := by
  rw [readTokens]
  split
  next hf => cases h.symm.trans hf
  next hl => cases h.symm.trans hl
  next hm =>
    cases h.symm.trans hm
    rfl
  next hother hm =>
    cases h.symm.trans hm
    exact absurd rfl (hother rest)

theorem readTokens_last (h : readToken s ls = .ok (t, .closeList :: rest)) :
    readTokens s ls = .ok ([t], rest) := by
  rw [readTokens]
  split
  next hf => cases h.symm.trans hf
  next hl =>
    cases h.symm.trans hl
    rfl
  next hm => cases h.symm.trans hm
  next hother _ hm =>
    cases h.symm.trans hm
    exact absurd rfl (hother rest)

theorem readMember_type (h : d.kind = none) (tag : String) (rest : List Lexeme) :
    readMember d (.text (.ok "type") (.ok ()) :: .colon :: .text (.ok tag) (.ok ()) :: rest) =
      .ok ({ d with kind := some (Kind.ofTag tag) }, rest) := by
  simp only [readMember, readField, h, readColon, readKind, ok_bind, Option.isSome_none,
    Bool.false_eq_true, if_true, if_false]
  rfl

theorem readMember_source (h : d.text = none) (text : String) (rest : List Lexeme) :
    readMember d (.text (.ok "source") (.ok ()) :: .colon :: .text (.ok text) (.ok ()) :: rest) =
      .ok ({ d with text := some text }, rest) := by
  have htype : "source" ≠ "type" := by decide
  simp only [readMember, readField, htype, h, readColon, readText, ok_bind, Option.isSome_none,
    Bool.false_eq_true, if_true, if_false]
  rfl

theorem readMember_index (h : d.index = none) {index : Nat} (hindex : index < Text.wordBound)
    (rest : List Lexeme) :
    readMember d (.text (.ok "index") (.ok ()) :: .colon :: .number (.ok (.ofNat index)) :: rest) =
      .ok ({ d with index := some index }, rest) := by
  have htype : "index" ≠ "type" := by decide
  have hsource : "index" ≠ "source" := by decide
  simp only [readMember, readField, htype, hsource, h, readColon, readIndex,
    Numeral.natural?_ofNat hindex, ok_bind, Option.isSome_none, Bool.false_eq_true, if_true,
    if_false]
  rfl

/-- No token begins with the end of a list, so a list of tokens that can be read is not empty. -/
theorem readList_more {r : List Token × List Lexeme} (h : readTokens s ls = .ok r) :
    readList s (.openList :: ls) = .ok r := by
  unfold readList
  split
  next heq =>
    cases heq
    rw [readTokens] at h
    split at h
    next => cases h
    all_goals
      next hread => simp only [readToken, reduceCtorEq] at hread
  next heq =>
    cases heq
    exact h
  next hother => exact absurd rfl (hother ls)

end

end Token.Reader

/-! ### Reading -/

namespace RawToken

section
variable {e : RawToken} {s : Source} {f : Field} {seen : List Field} {text : List Char}
  {rest : List Char}

/-- Every value of a field is one lexeme. -/
def lexeme (e : RawToken) : Field → Lexeme
  | .type => .text (.ok e.tag) (.ok ())
  | .source => .text (.ok e.text) (.ok ())
  | .index => .number (.ok (.ofNat e.index))

theorem lexemes_value (h : Padded (e.Value f) text) (hrest : Ended rest) :
    lexemes (text ++ rest) = e.lexeme f :: lexemes rest := by
  obtain ⟨hfront, hvalue, hback⟩ := h
  rw [List.append_assoc, List.append_assoc, lexemes_gap hfront]
  cases f with
  | type => rw [lexemes_quotes hvalue, lexemes_gap hback, lexeme]
  | source => rw [lexemes_quotes hvalue, lexemes_gap hback, lexeme]
  | index =>
    have hdigits : _ = Nat.toDigits 10 e.index := hvalue
    rw [hdigits, lexemes_toDigits _ (ended_gap hback hrest), lexemes_gap hback, lexeme]

/-- What is known of the token when the fields in `seen` were read. -/
def draft (e : RawToken) (seen : List Field) : Token.Reader.Draft where
  kind := if .type ∈ seen then some (Kind.ofTag e.tag) else none
  text := if .source ∈ seen then some e.text else none
  index := if .index ∈ seen then some e.index else none

open Token.Reader

theorem readMember_field (hindex : e.index < Text.wordBound) (hf : f ∉ seen) (ls : List Lexeme) :
    readMember (e.draft seen) (.text (.ok f.key) (.ok ()) :: .colon :: e.lexeme f :: ls) =
      .ok (e.draft (seen ++ [f]), ls) := by
  cases f with
  | type =>
    have hfree : (e.draft seen).kind = none := if_neg hf
    exact (readMember_type hfree _ _).trans (by simp [draft])
  | source =>
    have hfree : (e.draft seen).text = none := if_neg hf
    exact (readMember_source hfree _ _).trans (by simp [draft])
  | index =>
    have hfree : (e.draft seen).index = none := if_neg hf
    exact (readMember_index hfree hindex _).trans (by simp [draft])

theorem readMember_other {d : Draft} {known : String} {ls rest : List Lexeme}
    (hother : ∀ f : Field, known ≠ f.key) (h : afterValue .loose ls = .ok rest) :
    readMember d (.text (.ok known) (.ok ()) :: .colon :: ls) = .ok (d, rest) := by
  have htype : known ≠ "type" := hother .type
  have hsource : known ≠ "source" := hother .source
  have hindex : known ≠ "index" := hother .index
  simp only [readMember, readField, htype, hsource, hindex, if_false, readColon, ok_bind, h]
  rfl

theorem Member.read {m : Option Field} (h : e.Member m text) (hindex : e.index < Text.wordBound)
    (hm : ∀ f ∈ m, f ∉ seen) (hrest : Ended rest) :
    readMember (e.draft seen) (lexemes (text ++ rest)) =
      .ok (e.draft (seen ++ m.toList), lexemes rest) := by
  have hcolon : Lexeme.ofMark? ':' = some .colon := rfl
  cases h with
  | field f hfront hkey hgap hvalue =>
    simp only [List.append_assoc, List.cons_append, lexemes_gap hfront, lexemes_quotes hkey,
      lexemes_gap hgap, lexemes_mark hcolon, lexemes_value hvalue hrest]
    exact readMember_field hindex (hm f rfl) _
  | other hother hfront hkey hgap hvalue =>
    simp only [List.append_assoc, List.cons_append, lexemes_gap hfront, lexemes_quotes hkey,
      lexemes_gap hgap, lexemes_mark hcolon, Option.toList_none, List.append_nil]
    exact readMember_other hother (hvalue.afterValue hrest)

theorem token?_draft (hall : ∀ f, f ∈ seen) (s : Source) :
    (e.draft seen).token? s = some (e.token s) := by
  simp only [draft, hall, if_true]
  rfl

/-- The entries of a record give the token when they and the fields `seen` before them are all
fields, each once. -/
theorem readMembers_entries {members : List (Option Field)} {entries : List (List Char)}
    (h : List.Forall₂ e.Member members entries) (hindex : e.index < Text.wordBound)
    (hne : members ≠ []) (hall : (seen ++ members.reduceOption).Perm Field.all)
    (s : Source) (rest : List Char) :
    readMembers s (e.draft seen) (lexemes ([','].intercalate entries ++ '}' :: rest)) =
      .ok (e.token s, lexemes rest) := by
  induction h generalizing seen with
  | nil => exact absurd rfl hne
  | @cons m entry members entries hentry hmore ih =>
    have hsplit : (m :: members).reduceOption = m.toList ++ members.reduceOption := by
      cases m <;> rfl
    rw [hsplit, ← List.append_assoc] at hall
    have hnodup : (seen ++ m.toList).Nodup :=
      (List.nodup_append.mp (hall.nodup_iff.mpr (by decide))).1
    have hfree : ∀ f ∈ m, f ∉ seen := fun f hf hseen =>
      List.disjoint_of_nodup_append hnodup hseen (Option.mem_toList.mpr hf)
    cases hmore with
    | nil =>
      have hend : Lexeme.ofMark? '}' = some .closeRecord := rfl
      have hseen : ∀ f, f ∈ seen ++ m.toList := by
        intro f
        rw [List.reduceOption_nil, List.append_nil] at hall
        exact hall.mem_iff.mpr (by cases f <;> decide)
      have hread := hentry.read hindex hfree (ended_mark hend rest)
      rw [lexemes_mark hend] at hread
      rw [List.intercalate_singleton]
      exact readMembers_last hread (token?_draft hseen s)
    | @cons m' entry' members entries hentry' hmore =>
      have hcomma : Lexeme.ofMark? ',' = some .comma := rfl
      have hread := hentry.read hindex hfree
        (ended_mark hcomma ([','].intercalate (entry' :: entries) ++ '}' :: rest))
      rw [lexemes_mark hcomma] at hread
      rw [intercalate_append, readMembers_more hread]
      exact ih (List.cons_ne_nil _ _) hall

/-- No entry begins with the end of its record, so a record whose entries can be read is not
empty. -/
theorem readToken_record {ls : List Lexeme} {r : Token × List Lexeme}
    (h : readMembers s {} ls = .ok r) : readToken s (.openRecord :: ls) = .ok r := by
  unfold readToken
  split
  next heq => cases heq
  next heq =>
    cases heq
    rw [readMembers] at h
    cases h
  next heq =>
    cases heq
    exact h
  next hother => exact absurd rfl (hother ls)

theorem readToken_list (hindex : e.index < Text.wordBound) (s : Source) (ls : List Lexeme) :
    readToken s (.openList :: e.lexeme .type :: .comma :: e.lexeme .source :: .comma ::
      e.lexeme .index :: .closeList :: ls) = .ok (e.token s, ls) := by
  simp only [readToken, readItems, readKind, readComma, readText, readIndex, lexeme,
    Numeral.natural?_ofNat hindex, ok_bind]
  rfl

/-- However a token is written, it is read back in front of anything. -/
theorem Written.read (h : Padded e.Written text) (hindex : e.index < Text.wordBound) (s : Source)
    (rest : List Char) :
    readToken s (lexemes (text ++ rest)) = .ok (e.token s, lexemes rest) := by
  obtain ⟨hfront, hwritten, hback⟩ := h
  rw [List.append_assoc, List.append_assoc, lexemes_gap hfront]
  cases hwritten with
  | @record members entries hfields h =>
    have hne : members ≠ [] := by
      rintro rfl
      cases hfields.length_eq
    have hall : ([] ++ members.reduceOption).Perm Field.all := hfields
    rw [Bracket.lexemes_enclose, ← lexemes_gap hback rest]
    exact readToken_record (readMembers_entries h hindex hne hall s _)
  | list h =>
    have hcomma : Lexeme.ofMark? ',' = some .comma := rfl
    have hend : Lexeme.ofMark? ']' = some .closeList := rfl
    obtain _ | ⟨htype, _ | ⟨hsource, _ | ⟨hvalue, _ | _⟩⟩⟩ := h
    have hlast : Bracket.list.closer = ']' := rfl
    rw [Bracket.lexemes_enclose, hlast, intercalate_append,
      lexemes_value htype (ended_mark hcomma _), lexemes_mark hcomma, intercalate_append,
      lexemes_value hsource (ended_mark hcomma _), lexemes_mark hcomma, List.intercalate_singleton,
      lexemes_value hvalue (ended_mark hend _), lexemes_mark hend, lexemes_gap hback]
    exact readToken_list hindex s _

/-- Tokens are read one after another, up to the end of their list. -/
theorem readTokens_entries {es : List RawToken} {entries : List (List Char)}
    (h : List.Forall₂ (fun e => Padded e.Written) es entries)
    (hindex : ∀ e ∈ es, e.index < Text.wordBound) (hne : es ≠ []) (s : Source)
    (rest : List Char) :
    readTokens s (lexemes ([','].intercalate entries ++ ']' :: rest)) =
      .ok (es.map fun e => e.token s, lexemes rest) := by
  induction h with
  | nil => exact absurd rfl hne
  | @cons e entry es entries hentry hmore ih =>
    obtain ⟨he, hes⟩ := List.forall_mem_cons.mp hindex
    cases hmore with
    | nil =>
      have hend : Lexeme.ofMark? ']' = some .closeList := rfl
      have hread := Written.read hentry he s (']' :: rest)
      rw [lexemes_mark hend] at hread
      rw [List.intercalate_singleton]
      exact readTokens_last hread
    | @cons e' entry' es entries hentry' hmore =>
      have hcomma : Lexeme.ofMark? ',' = some .comma := rfl
      have hread := Written.read hentry he s
        (',' :: ([','].intercalate (entry' :: entries) ++ ']' :: rest))
      rw [lexemes_mark hcomma] at hread
      rw [intercalate_append, readTokens_more hread, ih hes (List.cons_ne_nil _ _)]
      rfl

theorem Listing.read {es : List RawToken} (h : Listing es text)
    (hindex : ∀ e ∈ es, e.index < Text.wordBound) (s : Source) (rest : List Char) :
    readList s (lexemes (text ++ rest)) = .ok (es.map fun e => e.token s, lexemes rest) := by
  cases h with
  | empty hgap =>
    have hend : Lexeme.ofMark? ']' = some .closeList := rfl
    rw [Bracket.lexemes_enclose, List.intercalate_singleton, lexemes_gap hgap]
    exact congrArg (fun ls => readList s (.openList :: ls)) (lexemes_mark hend rest)
  | tokens hne h =>
    rw [Bracket.lexemes_enclose]
    exact readList_more (readTokens_entries h hindex hne s rest)

end

end RawToken

/-- Every text of a list of tokens is read as these tokens. -/
theorem Source.tokensOfJson_listed {es : List RawToken} {json : String}
    (hindex : ∀ e ∈ es, e.index < Text.wordBound) (h : Padded (RawToken.Listing es) json.toList)
    (s : Source) : s.tokensOfJson json = .ok (es.map fun e => e.token s) := by
  generalize htext : json.toList = text at h
  obtain ⟨hfront, hlisting, hback⟩ := h
  have hend := lexemes_gap hback []
  rw [List.append_nil, lexemes_nil] at hend
  rw [tokensOfJson, htext, lexemes_gap hfront, hlisting.read hindex s, hend]

end RuleTree
