import Mathlib.Tactic
import RuleTree.Json.Extent
import RuleTree.Proofs.Json.Written

/-! Values of any shape, passed by a loose reader. Wherever a value may stand, its text is left
behind and nothing of what follows is touched. -/
namespace RuleTree.Json

namespace Bracket

/-- What is expected right behind the opened bracket. -/
def first : Bracket → Expected
  | .list => .firstItem
  | .record => .firstKey

/-- What is expected behind a comma. -/
def next : Bracket → Expected
  | .list => .value
  | .record => .key

/-- What opens the bracket, as a lexeme. -/
def opens : Bracket → Lexeme
  | .list => .openList
  | .record => .openRecord

def closes : Bracket → Lexeme
  | .list => .closeList
  | .record => .closeRecord

variable (b : Bracket)

theorem ofMark?_opener : Lexeme.ofMark? b.opener = some b.opens := by cases b <;> rfl

theorem ofMark?_closer : Lexeme.ofMark? b.closer = some b.closes := by cases b <;> rfl

theorem lexemes_enclose (entries : List (List Char)) (rest : List Char) :
    lexemes (b.enclose entries ++ rest) =
      b.opens :: lexemes ([','].intercalate entries ++ b.closer :: rest) := by
  rw [enclose, List.cons_append, lexemes_mark b.ofMark?_opener, List.append_assoc,
    List.singleton_append]

end Bracket

namespace Point

/-- Goes on behind a value inside `brackets`. -/
def resume (brackets : List Bracket) (ls : List Lexeme) : Except Fault (List Lexeme) :=
  match after brackets with
  | none => .ok ls
  | some p => leave .loose p ls

section
variable {p q : Point} {l : Lexeme} {brackets : List Bracket} {b : Bracket} {ls rest : List Lexeme}

theorem leave_step (h : p.step .loose l = .ok (some q)) (ls : List Lexeme) :
    leave .loose p (l :: ls) = leave .loose q ls := by
  rw [leave, h]

theorem leave_after (h : p.step .loose l = .ok (after brackets)) (ls : List Lexeme) :
    leave .loose p (l :: ls) = resume brackets ls := by
  rw [leave, h, resume]
  cases after brackets <;> rfl

/-- Where an entry can be read, the end of the bracket does not stand, so that it does not matter
whether the entry is the first one. -/
theorem leave_first (h : leave .loose ⟨[], b.next⟩ ls = .ok rest) (outer : List Bracket) :
    leave .loose ⟨outer, b.first⟩ ls = leave .loose ⟨outer, b.next⟩ ls := by
  cases ls with
  | nil => rfl
  | cons l ls =>
    have hstep : step .loose ⟨outer, b.first⟩ l = step .loose ⟨outer, b.next⟩ l := by
      cases b <;> cases outer <;> cases l <;> first | rfl | cases h
    rw [leave, leave, hstep]

end
end Point

open Point

/-- The text is passed by a loose reader that expects `e` in any brackets. -/
def Passes (e : Expected) (text : List Char) : Prop :=
  ∀ brackets rest, Ended rest →
    leave .loose ⟨brackets, e⟩ (lexemes (text ++ rest)) = resume brackets (lexemes rest)

section
variable {b : Bracket} {text : List Char} {entries : List (List Char)}

/-- Entries are passed one after another, up to the end of their bracket. -/
theorem leave_entries (h : ∀ text ∈ entries, Passes b.next text) (hne : entries ≠ [])
    (outer : List Bracket) (rest : List Char) :
    leave .loose ⟨b :: outer, b.next⟩ (lexemes ([','].intercalate entries ++ b.closer :: rest)) =
      resume outer (lexemes rest) := by
  induction entries with
  | nil => exact absurd rfl hne
  | cons entry entries ih =>
    obtain ⟨hentry, hmore⟩ := List.forall_mem_cons.mp h
    cases entries with
    | nil =>
      have hclose : step .loose ⟨b :: outer, .more⟩ b.closes = .ok (after outer) := by
        cases b <;> rfl
      rw [List.intercalate_singleton, hentry _ _ (ended_mark b.ofMark?_closer rest)]
      rw [lexemes_mark b.ofMark?_closer]
      exact leave_after hclose _
    | cons e es =>
      have hcomma : step .loose ⟨b :: outer, .more⟩ .comma = .ok (some ⟨b :: outer, b.next⟩) := by
        cases b <;> rfl
      have hmark : Lexeme.ofMark? ',' = some .comma := rfl
      rw [intercalate_append, hentry _ _ (ended_mark hmark _), lexemes_mark hmark]
      exact (leave_step hcomma _).trans (ih hmore (List.cons_ne_nil e es))

/-- The first entry is followed by a comma or by the end of the bracket. -/
theorem exists_ended_behind (b : Bracket) (entry : List Char) (entries : List (List Char))
    (rest : List Char) :
    ∃ behind, Ended behind ∧
      [','].intercalate (entry :: entries) ++ b.closer :: rest = entry ++ behind := by
  cases entries with
  | nil => exact ⟨_, ended_mark b.ofMark?_closer rest, by rw [List.intercalate_singleton]⟩
  | cons e es => exact ⟨_, ended_mark rfl _, intercalate_append entry e es _⟩

theorem passes_enclose (h : ∀ text ∈ entries, Passes b.next text) (hne : entries ≠ []) :
    Passes .value (b.enclose entries) := by
  intro brackets rest _
  have hopen : step .loose ⟨brackets, .value⟩ b.opens = .ok (some ⟨b :: brackets, b.first⟩) := by
    cases b <;> rfl
  obtain ⟨entry, more, rfl⟩ := List.exists_cons_of_ne_nil hne
  obtain ⟨behind, hbehind, heq⟩ := exists_ended_behind b entry more rest
  have hfirst : leave .loose ⟨[], b.next⟩ (lexemes (entry ++ behind)) = .ok (lexemes behind) :=
    h entry List.mem_cons_self [] behind hbehind
  rw [b.lexemes_enclose, leave_step hopen, heq, leave_first hfirst, ← heq]
  exact leave_entries h hne brackets rest

/-- A lexeme of its own is passed where it may stand as a value. -/
theorem passes_of_lexeme
    (h : ∀ rest, Ended rest → ∃ l, lexemes (text ++ rest) = l :: lexemes rest ∧
      ∀ brackets, step .loose ⟨brackets, .value⟩ l = .ok (after brackets)) :
    Passes .value text := by
  intro brackets rest hrest
  obtain ⟨l, hl, hstep⟩ := h rest hrest
  rw [hl]
  exact leave_after (hstep brackets) _

end

/-- What comes next in front of a part of a value. -/
def Part.expected : Part → Expected
  | .value => .value
  | .entry b => b.next

/-- Every well-formed value is passed, and so is every entry of a list or record. -/
theorem WellFormed.passes {part : Part} {text : List Char} (h : WellFormed part text) :
    Passes part.expected text := by
  induction h with
  | name h => exact passes_of_lexeme fun rest _ => ⟨_, lexemes_name h rest, fun _ => rfl⟩
  | number h =>
    refine passes_of_lexeme fun rest hrest => ?_
    obtain ⟨n, hn⟩ := lexemes_number h hrest
    exact ⟨_, hn, fun _ => rfl⟩
  | text h =>
    refine passes_of_lexeme fun rest _ => ?_
    obtain ⟨exact, hread⟩ := lexemes_inQuotes h rest
    rw [List.cons_append, List.append_assoc, List.singleton_append]
    exact ⟨_, hread, fun _ => rfl⟩
  | empty b hgap =>
    intro brackets rest _
    have hopen : step .loose ⟨brackets, .value⟩ b.opens = .ok (some ⟨b :: brackets, b.first⟩) := by
      cases b <;> rfl
    have hclose : step .loose ⟨b :: brackets, b.first⟩ b.closes = .ok (after brackets) := by
      cases b <;> rfl
    rw [b.lexemes_enclose, List.intercalate_singleton, lexemes_gap hgap,
      lexemes_mark b.ofMark?_closer]
    exact (leave_step hopen _).trans (leave_after hclose _)
  | enclosed b hne _ ih => exact passes_enclose ih hne
  | item hfront _ hback ih =>
    intro brackets rest hrest
    rw [List.append_assoc, List.append_assoc, lexemes_gap hfront]
    exact (ih brackets _ (ended_gap hback hrest)).trans (by rw [lexemes_gap hback])
  | @field front key gap text hfront hkey hgap _ ih =>
    intro brackets rest hrest
    have hcolon : Lexeme.ofMark? ':' = some .colon := rfl
    obtain ⟨exact, hread⟩ := lexemes_inQuotes hkey (gap ++ ':' :: (text ++ rest))
    simp only [List.append_assoc, List.cons_append, lexemes_gap hfront, hread, lexemes_gap hgap,
      lexemes_mark hcolon]
    exact (leave_step rfl _).trans ((leave_step rfl _).trans (ih brackets rest hrest))

/-- The value that a text is lies in front of whatever follows. -/
theorem WellFormed.afterValue {text rest : List Char} (h : WellFormed (.entry .list) text)
    (hrest : Ended rest) : afterValue .loose (lexemes (text ++ rest)) = .ok (lexemes rest) :=
  h.passes [] rest hrest

end RuleTree.Json
