import Mathlib.Tactic
import RuleTree.Proofs.Fitting

/-! Maximal lexemes. The tokens of a text are runs of blanks and words that cannot be made longer,
single marks, and quoted texts up to their closing quotes; and there is one way only to split a text
like this. -/
namespace RuleTree

/-- The marks, with the character that each of them is. -/
def Kind.marks : List (Kind × Char) :=
  [(.atSign, '@'), (.braceOpen, '{'), (.braceClose, '}'), (.semicolon, ';'), (.colon, ':'),
   (.comma, ','), (.parenOpen, '('), (.parenClose, ')')]

theorem Kind.ofMark?_eq_some_iff {k : Kind} {c : Char} :
    Kind.ofMark? c = some k ↔ (k, c) ∈ Kind.marks := by
  constructor
  · intro h
    unfold Kind.ofMark? at h
    split at h <;> cases h <;> decide
  · intro h
    simp only [Kind.marks, List.mem_cons, Prod.mk.injEq, List.not_mem_nil, or_false] at h
    rcases h with ⟨rfl, rfl⟩ | ⟨rfl, rfl⟩ | ⟨rfl, rfl⟩ | ⟨rfl, rfl⟩ | ⟨rfl, rfl⟩ | ⟨rfl, rfl⟩ |
      ⟨rfl, rfl⟩ | ⟨rfl, rfl⟩ <;> rfl

theorem Kind.mem_named_cases {k : Kind} (h : k ∈ Kind.named) :
    k = .delimiter ∨ k = .word ∨ k = .quoted ∨ ∃ c, (k, c) ∈ Kind.marks := by
  simp only [Kind.named, List.mem_cons, List.not_mem_nil, or_false] at h
  rcases h with rfl | rfl | rfl | rfl | rfl | rfl | rfl | rfl | rfl | rfl | rfl <;>
    simp [Kind.marks]

namespace Lexer
open Text

/-- What lexemes are that cannot be made longer. -/
structure Maximal (ls : List Lexeme) : Prop where
  /-- There are no kinds but the eleven. -/
  named : ∀ l ∈ ls, l.kind ∈ Kind.named
  ne_nil : ∀ l ∈ ls, l.chars ≠ []
  delimiter : ∀ l ∈ ls, l.kind = .delimiter → ∀ c ∈ l.chars, isBlank c
  word : ∀ l ∈ ls, l.kind = .word →
    ∀ c ∈ l.chars, isBlank c = false ∧ isQuote c = false ∧ ∀ k, (k, c) ∉ Kind.marks
  mark : ∀ l ∈ ls, ∀ c, (l.kind, c) ∈ Kind.marks → l.chars = [c]
  /-- A quoted text ends with its closing quote. Without one all the rest of the text is quoted. -/
  quoted : ∀ front l back, ls = front ++ l :: back → l.kind = .quoted →
    Closed l.chars ∨ (Unclosed l.chars ∧ back.flatMap Lexeme.chars = [])
  /-- Neither two runs of blanks nor two words are neighbours. -/
  apart : ls.IsChain fun l m =>
    ¬ (l.kind = .delimiter ∧ m.kind = .delimiter) ∧ ¬ (l.kind = .word ∧ m.kind = .word)

section
variable {l : Lexeme} {ls front back : List Lexeme} {next : Option Char}

theorem isWordChar_iff {c : Char} : isWordChar c = true ↔
    isBlank c = false ∧ isQuote c = false ∧ ∀ k, (k, c) ∉ Kind.marks := by
  simp only [← Kind.ofMark?_eq_some_iff, isWordChar, Bool.and_eq_true, Bool.not_eq_true',
    Option.isNone_iff_eq_none, Option.eq_none_iff_forall_ne_some, and_assoc]
  exact and_congr_right fun _ => and_comm

theorem Fitting.fits (h : Fitting (front ++ l :: back) next) :
    Fits l ((back.flatMap Lexeme.chars).head?.or next) := (fitting_append.mp h).2.1

theorem Fits.blanks (h : Fits l next) (hk : l.kind = .delimiter) :
    (∀ c ∈ l.chars, isBlank c) ∧ ∀ c ∈ next, isBlank c = false := by
  cases h with
  | delimiter hne hall hnext => exact ⟨hall, hnext⟩
  | mark h => exact absurd hk (kind_of_ofMark? h).1
  | word => cases hk
  | closed => cases hk
  | unclosed => cases hk

theorem Fits.wordChars (h : Fits l next) (hk : l.kind = .word) :
    (∀ c ∈ l.chars, isWordChar c) ∧ ∀ c ∈ next, isWordChar c = false := by
  cases h with
  | word hne hall hnext => exact ⟨hall, hnext⟩
  | mark h => exact absurd hk (kind_of_ofMark? h).2.1
  | delimiter => cases hk
  | closed => cases hk
  | unclosed => cases hk

theorem Fits.closed_or (h : Fits l next) (hk : l.kind = .quoted) :
    Closed l.chars ∨ (Unclosed l.chars ∧ next = none) := by
  cases h with
  | closed h => exact .inl h
  | unclosed h => exact .inr ⟨h, rfl⟩
  | mark h => exact absurd hk (kind_of_ofMark? h).2.2
  | delimiter => cases hk
  | word => cases hk

theorem Fits.mark_eq (h : Fits l next) {c : Char} (hk : (l.kind, c) ∈ Kind.marks) :
    l.chars = [c] := by
  have hne := kind_of_ofMark? (Kind.ofMark?_eq_some_iff.mpr hk)
  cases h with
  | @mark k d _ h =>
    have hinj : ∀ p ∈ Kind.marks, ∀ r ∈ Kind.marks, p.1 = r.1 → p.2 = r.2 := by decide
    obtain rfl : d = c := hinj _ (Kind.ofMark?_eq_some_iff.mp h) _ hk rfl
    rfl
  | delimiter => exact absurd rfl hne.1
  | word => exact absurd rfl hne.2.1
  | closed => exact absurd rfl hne.2.2
  | unclosed => exact absurd rfl hne.2.2

theorem Fitting.apart (h : Fitting ls next) : ls.IsChain fun l m =>
    ¬ (l.kind = .delimiter ∧ m.kind = .delimiter) ∧ ¬ (l.kind = .word ∧ m.kind = .word) := by
  induction ls with
  | nil => exact .nil
  | cons l ls ih =>
    cases ls with
    | nil => exact .singleton l
    | cons m ls =>
      obtain ⟨hl, hls⟩ := h
      obtain ⟨c, cs, hc⟩ := List.exists_cons_of_ne_nil hls.1.ne_nil
      have hnext : ((m :: ls).flatMap Lexeme.chars).head?.or next = some c := by
        rw [List.flatMap_cons, hc]
        rfl
      obtain ⟨hblank, hword⟩ := hls.1.head c (by rw [hc]; rfl)
      rw [hnext] at hl
      refine .cons_cons ⟨?_, ?_⟩ (ih hls)
      · rintro ⟨hk, hm⟩
        exact Bool.false_ne_true (((hl.blanks hk).2 c rfl).symm.trans (hblank.mpr hm))
      · rintro ⟨hk, hm⟩
        exact Bool.false_ne_true (((hl.wordChars hk).2 c rfl).symm.trans (hword.mpr hm))

theorem Fitting.maximal (h : Fitting ls none) (hnamed : ∀ l ∈ ls, l.kind ∈ Kind.named) :
    Maximal ls where
  named := hnamed
  ne_nil := h.ne_nil
  delimiter l hl := by
    obtain ⟨front, back, rfl⟩ := List.append_of_mem hl
    exact fun hk => (h.fits.blanks hk).1
  word l hl hk c hc := by
    obtain ⟨front, back, rfl⟩ := List.append_of_mem hl
    exact isWordChar_iff.mp ((h.fits.wordChars hk).1 c hc)
  mark l hl c hc := by
    obtain ⟨front, back, rfl⟩ := List.append_of_mem hl
    exact h.fits.mark_eq hc
  quoted front l back hsplit hk := by
    subst hsplit
    have hfits := h.fits
    rw [Option.or_none] at hfits
    exact (hfits.closed_or hk).imp_right fun ⟨hopen, hnext⟩ =>
      ⟨hopen, List.head?_eq_none_iff.mp hnext⟩
  apart := h.apart

theorem Maximal.tail (h : Maximal (l :: ls)) : Maximal ls where
  named m hm := h.named m (List.mem_cons_of_mem l hm)
  ne_nil m hm := h.ne_nil m (List.mem_cons_of_mem l hm)
  delimiter m hm := h.delimiter m (List.mem_cons_of_mem l hm)
  word m hm := h.word m (List.mem_cons_of_mem l hm)
  mark m hm := h.mark m (List.mem_cons_of_mem l hm)
  quoted front m back hsplit := h.quoted (l :: front) m back (by rw [hsplit]; rfl)
  apart := h.apart.tail

theorem Maximal.fits_none (h : Maximal ls) (hl : l ∈ ls) : Fits l none := by
  obtain ⟨k, chars⟩ := l
  have hne : chars ≠ [] := h.ne_nil _ hl
  rcases Kind.mem_named_cases (h.named _ hl) with rfl | rfl | rfl | ⟨c, hk⟩
  · exact .delimiter hne (h.delimiter _ hl rfl) nofun
  · exact .word hne (fun c hc => isWordChar_iff.mpr (h.word _ hl rfl c hc)) nofun
  · obtain ⟨front, back, rfl⟩ := List.append_of_mem hl
    rcases h.quoted front _ back rfl rfl with hclosed | ⟨hopen, -⟩
    · exact .closed hclosed
    · exact .unclosed hopen
  · obtain rfl : chars = [c] := h.mark _ hl c hk
    exact .mark (Kind.ofMark?_eq_some_iff.mpr hk)

theorem Maximal.fitting (h : Maximal ls) : Fitting ls none := by
  induction ls with
  | nil => trivial
  | cons l ls ih =>
    have hls := ih h.tail
    refine ⟨?_, hls⟩
    rw [Option.or_none]
    apply (h.fits_none List.mem_cons_self).in_front hls (List.isChain_cons.mp h.apart).1
    intro hk
    exact (h.quoted [] l ls rfl hk).imp_right And.right

end
end Lexer

namespace Source

/-- The kinds and texts of a text's tokens are maximal lexemes that join to the text, and no other
maximal lexemes do. -/
theorem tokens_lexeme_eq_iff (s : Source) (ls : List Lexer.Lexeme) :
    s.tokens.map Token.lexeme = ls ↔
      Lexer.Maximal ls ∧ ls.flatMap Lexer.Lexeme.chars = s.text.toList := by
  rw [tokens_lexeme, eq_comm, Lexer.eq_lexemes_iff]
  constructor
  · rintro ⟨h, hjoin⟩
    refine ⟨h.maximal ?_, hjoin⟩
    rw [h.eq_lexemes]
    exact Lexer.lexemes_named
  · rintro ⟨h, hjoin⟩
    exact ⟨h.fitting, hjoin⟩

end Source
end RuleTree
