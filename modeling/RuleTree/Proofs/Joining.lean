import Mathlib
import RuleTree.Proofs.Maximal

/-! Texts behind each other. The tokens of a joined text are those of its parts, unless the first part
ends within a quoted text, or a word or a run of blanks goes on into the second. -/
namespace RuleTree

/-- A token in another source, `n` characters further on. -/
def Token.moved (origin : Source) (n : Nat) (t : Token) : Token :=
  ⟨t.kind, t.text, t.index + n, origin⟩

namespace Lexer

section
variable {l : Lexeme} {ls ms : List Lexeme} {next : Option Char} {cs ds : List Char}

/-- A closing quote is the last character of one quoted text only. -/
theorem Closed.not_unclosed {chars : List Char} (h : Closed chars) : ¬ Unclosed chars := by
  rintro ⟨q, body, hq, hopen, rfl⟩
  obtain ⟨q, body, -, hbody, heq⟩ := h
  obtain ⟨rfl, rfl⟩ := List.cons.inj heq
  rcases hopen with hopen | ⟨front, -, hfront⟩
  · -- one more quote behind the closing one would be read in two ways
    have hsplit := hbody.splitQuoted_append (ne_slash_of_isQuote hq) [q, q]
    have hsplit' := hopen.splitQuoted_append (ne_slash_of_isQuote hq) [q]
    rw [List.append_assoc] at hsplit'
    have hrest := congrArg Prod.snd (hsplit.symm.trans hsplit')
    rw [splitQuoted_quote, splitQuoted_quote] at hrest
    cases hrest
  · obtain ⟨-, hlast⟩ := List.append_inj' hfront rfl
    exact ne_slash_of_isQuote hq (List.cons.inj hlast).1.symm

/-- Of lexemes that end a text only the last one can go on. -/
theorem Fitting.of_none (h : Fitting ls none) (hlast : ∀ l ∈ ls.getLast?, Fits l next) :
    Fitting ls next := by
  induction ls with
  | nil => trivial
  | cons l ls ih =>
    obtain ⟨hl, hls⟩ := h
    cases ls with
    | nil => exact ⟨hlast l rfl, trivial⟩
    | cons m ls =>
      refine ⟨?_, ih hls hlast⟩
      obtain ⟨c, cs, hc⟩ := List.exists_cons_of_ne_nil hls.1.ne_nil
      rw [List.flatMap_cons, hc] at hl ⊢
      exact hl

/-- The lexemes of a text that ends with a lexeme of its own. -/
theorem lexemes_append (hquoted : ∀ l ∈ (lexemes cs).getLast?,
      ¬ (l.kind = .quoted ∧ Unclosed l.chars))
    (hapart : ∀ l ∈ (lexemes cs).getLast?, ∀ m ∈ (lexemes ds).head?,
      ¬ (l.kind = .delimiter ∧ m.kind = .delimiter) ∧ ¬ (l.kind = .word ∧ m.kind = .word)) :
    lexemes (cs ++ ds) = lexemes cs ++ lexemes ds := by
  have hcs := lexemes_fitting cs
  have hds := lexemes_fitting ds
  symm
  rw [eq_lexemes_iff]
  refine ⟨?_, by rw [List.flatMap_append, lexemes_join, lexemes_join]⟩
  rw [fitting_append, Option.or_none]
  refine ⟨hcs.of_none fun l hl => ?_, hds⟩
  obtain ⟨front, -, -, -, hl'⟩ := exists_of_getLast?_lexemes hl
  apply hl'.in_front hds (hapart l hl)
  intro hk
  rcases hl'.closed_or hk with hclosed | ⟨hopen, -⟩
  · exact .inl hclosed
  · exact absurd ⟨hk, hopen⟩ (hquoted l hl)

theorem place_append (origin : Source) (index : Nat) (ls ms : List Lexeme) :
    place origin index (ls ++ ms) = place origin index ls ++
      place origin (index + (ls.flatMap Lexeme.chars).length) ms := by
  induction ls generalizing index with
  | nil => rfl
  | cons l ls ih =>
    rw [List.cons_append, place, place, ih, List.cons_append, List.flatMap_cons,
      List.length_append, Nat.add_assoc]

theorem place_moved (origin origin' : Source) (index n : Nat) (ls : List Lexeme) :
    (place origin' index ls).map (Token.moved origin n) = place origin (index + n) ls := by
  induction ls generalizing index with
  | nil => rfl
  | cons l ls ih =>
    rw [place, place, List.map_cons, ih, Token.moved, Nat.add_right_comm]

end
end Lexer

namespace Source

/-- The tokens of a joined text are those of the first part and behind them, moved on by the first
part's length, those of the second. The first part must not end in a quoted text that goes on, and its
last token must not be a word or a run of blanks that the second part's first token makes longer. -/
theorem tokens_of_joined (s a b : Source) (htext : s.text = a.text ++ b.text)
    (hquoted : ∀ t ∈ a.tokens.getLast?, ¬ (t.kind = .quoted ∧ Lexer.Unclosed t.text.toList))
    (hapart : ∀ t ∈ a.tokens.getLast?, ∀ u ∈ b.tokens.head?,
      ¬ (t.isDelimiter ∧ u.isDelimiter) ∧ ¬ (t.isWord ∧ u.isWord)) :
    s.tokens = a.tokens.map (Token.moved s 0) ++ b.tokens.map (Token.moved s a.text.length) := by
  have hlast : ∀ l ∈ (Lexer.lexemes a.text.toList).getLast?,
      ∃ t ∈ a.tokens.getLast?, t.lexeme = l := by
    rw [← tokens_lexeme, List.getLast?_map]
    exact fun l hl => Option.map_eq_some_iff.mp hl
  have hhead : ∀ l ∈ (Lexer.lexemes b.text.toList).head?, ∃ t ∈ b.tokens.head?, t.lexeme = l := by
    rw [← tokens_lexeme, List.head?_map]
    exact fun l hl => Option.map_eq_some_iff.mp hl
  have hlexemes : Lexer.lexemes s.text.toList =
      Lexer.lexemes a.text.toList ++ Lexer.lexemes b.text.toList := by
    rw [htext, String.toList_append]
    apply Lexer.lexemes_append
    · intro l hl
      obtain ⟨t, ht, rfl⟩ := hlast l hl
      exact hquoted t ht
    · intro l hl m hm
      obtain ⟨t, ht, rfl⟩ := hlast l hl
      obtain ⟨u, hu, rfl⟩ := hhead m hm
      have h := hapart t ht u hu
      simp only [Token.isDelimiter, Token.isWord, beq_iff_eq] at h
      exact h
  rw [tokens, tokens, tokens, hlexemes, Lexer.place_append, Lexer.place_moved, Lexer.place_moved,
    Lexer.lexemes_join, String.length_toList]

theorem tokens_of_joined_escaped :
    let a : Source := ⟨none, "é '\\''"⟩
    let b : Source := ⟨none, "'x"⟩
    let s : Source := ⟨none, "é '\\'''x"⟩
    s.text = a.text ++ b.text ∧
      (∀ t ∈ a.tokens.getLast?, ¬ (t.kind = .quoted ∧ Lexer.Unclosed t.text.toList)) ∧
      (∀ t ∈ a.tokens.getLast?, ∀ u ∈ b.tokens.head?,
        ¬ (t.isDelimiter ∧ u.isDelimiter) ∧ ¬ (t.isWord ∧ u.isWord)) ∧
      s.tokens = [⟨.word, "é", 0, s⟩, ⟨.delimiter, " ", 1, s⟩, ⟨.quoted, "'\\''", 2, s⟩] ++
        [⟨.quoted, "'x", 6, s⟩] := by
  intro a b s
  have ha : a.tokens = [⟨.word, "é", 0, a⟩, ⟨.delimiter, " ", 1, a⟩, ⟨.quoted, "'\\''", 2, a⟩] := by
    cbv
  have hb : b.tokens = [⟨.quoted, "'x", 0, b⟩] := by cbv
  have htext : s.text = a.text ++ b.text := by decide
  have hlength : a.text.length = 6 := by decide
  have hchars : "'\\''".toList = '\'' :: (['\\', '\''] ++ ['\'']) := by decide
  have hclosed : Lexer.Closed "'\\''".toList := ⟨'\'', _, rfl, .escaped '\'' .nil, hchars⟩
  have hquoted : ∀ t ∈ a.tokens.getLast?, ¬ (t.kind = .quoted ∧ Lexer.Unclosed t.text.toList) := by
    rw [ha]
    rintro t ⟨rfl⟩ ⟨-, hopen⟩
    exact hclosed.not_unclosed hopen
  have hapart : ∀ t ∈ a.tokens.getLast?, ∀ u ∈ b.tokens.head?,
      ¬ (t.isDelimiter ∧ u.isDelimiter) ∧ ¬ (t.isWord ∧ u.isWord) := by
    rw [ha, hb]
    rintro t ⟨rfl⟩ u ⟨rfl⟩
    decide
  refine ⟨htext, hquoted, hapart, ?_⟩
  have h := tokens_of_joined s a b htext hquoted hapart
  rw [ha, hb, hlength] at h
  exact h

end Source
end RuleTree
