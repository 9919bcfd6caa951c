import Mathlib.Tactic
import RuleTree.Proofs.Joining

/-! White space between lexemes. Runs of it may be replaced by single spaces, and it may be trimmed from
the ends of a text: the lexemes stay what they are, but for a quoted text at the end that is not closed,
from which white space is trimmed as well. -/
namespace RuleTree
namespace Lexer
open Text

/-- The lexeme, or for a delimiter the single space that it counts as. -/
def Lexeme.squeezed (l : Lexeme) : Lexeme := if l.kind = .delimiter then ⟨.delimiter, [' ']⟩ else l

section
variable {l : Lexeme} {ls : List Lexeme} {next : Option Char} {c d : Char} {cs : List Char}

theorem Lexeme.squeezed_kind (l : Lexeme) : l.squeezed.kind = l.kind := by
  unfold squeezed
  split
  next h => exact h.symm
  next => rfl

theorem Lexeme.squeezed_of_ne (h : l.kind ≠ .delimiter) : l.squeezed = l := if_neg h

theorem Lexeme.squeezed_of_eq (h : l.kind = .delimiter) : l.squeezed = ⟨.delimiter, [' ']⟩ := if_pos h

theorem Fits.squeezed (h : Fits l next) : Fits l.squeezed next := by
  by_cases hk : l.kind = .delimiter
  · rw [Lexeme.squeezed_of_eq hk]
    exact .delimiter (List.cons_ne_nil _ _) (List.forall_mem_singleton.mpr rfl) (h.blanks hk).2
  · rwa [Lexeme.squeezed_of_ne hk]

/-- In front of white space it does not matter which it is. -/
theorem Fits.of_blank (h : Fits l (some c)) (hc : isBlank c) (hd : isBlank d) : Fits l (some d) := by
  cases h with
  | delimiter hne hall hnext =>
    rw [hnext c rfl] at hc
    cases hc
  | word hne hall _ =>
    refine .word hne hall ?_
    rintro _ ⟨rfl⟩
    exact isWordChar_eq_false_of_isBlank hd
  | mark h => exact .mark h
  | closed h => exact .closed h

theorem Fits.to_none (h : Fits l next) : Fits l none := by
  cases h with
  | delimiter hne hall _ => exact .delimiter hne hall nofun
  | word hne hall _ => exact .word hne hall nofun
  | mark h => exact .mark h
  | closed h => exact .closed h
  | unclosed h => exact .unclosed h

theorem Fitting.to_none (h : Fitting ls next) : Fitting ls none := by
  induction ls with
  | nil => trivial
  | cons l ls ih =>
    refine ⟨?_, ih h.2⟩
    have hl := h.1
    cases hhead : (ls.flatMap Lexeme.chars).head? with
    | none => exact hl.to_none
    | some c =>
      rw [hhead] at hl
      exact hl

theorem Fitting.squeezed (h : Fitting ls next) : Fitting (ls.map Lexeme.squeezed) next := by
  induction ls with
  | nil => trivial
  | cons l ls ih =>
    obtain ⟨hl, hls⟩ := h
    refine ⟨?_, ih hls⟩
    cases ls with
    | nil => exact hl.squeezed
    | cons m ms =>
      obtain ⟨c, cs, hc⟩ := List.exists_cons_of_ne_nil hls.1.ne_nil
      rw [List.flatMap_cons, hc] at hl
      by_cases hk : m.kind = .delimiter
      · rw [List.map_cons, List.flatMap_cons, Lexeme.squeezed_of_eq hk]
        have hblank := (hls.1.blanks hk).1 c (by rw [hc]; exact List.mem_cons_self)
        exact hl.squeezed.of_blank hblank rfl
      · rw [List.map_cons, List.flatMap_cons, Lexeme.squeezed_of_ne hk, hc]
        exact hl.squeezed

theorem lexemes_squeezed (h : Fitting ls next) :
    lexemes (ls.flatMap fun l => l.squeezed.chars) = ls.map Lexeme.squeezed := by
  rw [← List.flatMap_map, ← h.squeezed.to_none.eq_lexemes]

theorem lexemes_blanks (hne : cs ≠ []) (h : ∀ c ∈ cs, isBlank c) :
    lexemes cs = [⟨.delimiter, cs⟩] := by
  symm
  rw [eq_lexemes_iff]
  exact ⟨⟨.delimiter hne h nofun, trivial⟩, List.append_nil cs⟩

/-- A text that begins with no white space has no delimiter in front. -/
theorem kind_ne_of_head? (hcs : ∀ c ∈ cs.head?, isBlank c = false) :
    ∀ l ∈ (lexemes cs).head?, l.kind ≠ .delimiter := by
  intro l hl hk
  cases cs with
  | nil =>
    rw [lexemes] at hl
    cases hl
  | cons c cs =>
    have hc : c ∈ ((lexemes (c :: cs)).flatMap Lexeme.chars).head? := by
      rw [lexemes_join]
      rfl
    obtain ⟨m, hm, hblank, -⟩ := (lexemes_fitting (c :: cs)).head c hc
    rw [Option.mem_unique hm hl] at hblank
    exact Bool.false_ne_true ((hcs c rfl).symm.trans (hblank.mpr hk))

/-- White space in front of a text that begins with none is a lexeme of its own. -/
theorem lexemes_blanks_append {blanks : List Char} (hne : blanks ≠ [])
    (hblanks : ∀ c ∈ blanks, isBlank c) (hcs : ∀ c ∈ cs.head?, isBlank c = false) :
    lexemes (blanks ++ cs) = ⟨.delimiter, blanks⟩ :: lexemes cs := by
  have hlexemes := lexemes_blanks hne hblanks
  rw [lexemes_append, hlexemes]
  · rfl
  · rw [hlexemes]
    rintro l ⟨rfl⟩ ⟨hk, -⟩
    cases hk
  · rw [hlexemes]
    rintro l ⟨rfl⟩ m hm
    exact ⟨fun h => kind_ne_of_head? hcs m hm h.2, fun h => Kind.noConfusion h.1⟩

theorem Hidden.append {q : Char} {ds : List Char} (h : Hidden q cs) (hds : Hidden q ds) :
    Hidden q (cs ++ ds) := by
  induction h with
  | nil => exact hds
  | plain hq hb _ ih => exact .plain hq hb ih
  | escaped c _ ih => exact .escaped c ih

theorem hidden_of_blanks {q : Char} {blanks : List Char} (hq : isQuote q)
    (hblanks : ∀ c ∈ blanks, isBlank c) : Hidden q blanks := by
  induction blanks with
  | nil => exact .nil
  | cons c blanks ih =>
    obtain ⟨hc, hblanks⟩ := List.forall_mem_cons.mp hblanks
    refine .plain ?_ ?_ (ih hblanks)
    · rintro rfl
      rw [isBlank_eq_false_of_isQuote hq] at hc
      cases hc
    · rintro rfl
      revert hc
      decide

/-- White space behind a quoted text that is not closed is quoted, too. -/
theorem Unclosed.append_blanks {chars blanks : List Char} (h : Unclosed chars)
    (hblanks : ∀ c ∈ blanks, isBlank c) : Unclosed (chars ++ blanks) := by
  obtain ⟨q, body, hq, hbody, rfl⟩ := h
  refine ⟨q, body ++ blanks, hq, ?_, rfl⟩
  rcases hbody with hbody | ⟨front, hfront, rfl⟩
  · exact .inl (hbody.append (hidden_of_blanks hq hblanks))
  · -- the backslash at the end now hides the first blank
    cases blanks with
    | nil => exact .inr ⟨front, hfront, List.append_nil _⟩
    | cons c blanks =>
      rw [List.append_assoc]
      have hmore := hidden_of_blanks hq (List.forall_mem_cons.mp hblanks).2
      exact .inl (hfront.append (.escaped c hmore))

/-- A closing quote is no white space. -/
theorem not_closed_append {chars blanks : List Char} (hne : blanks ≠ [])
    (hblanks : ∀ c ∈ blanks, isBlank c) : ¬ Closed (chars ++ blanks) := by
  rintro ⟨q, body, hq, -, heq⟩
  have hlast : (chars ++ blanks).getLast? = some q := by
    rw [heq, ← List.cons_append, List.getLast?_concat]
  rw [List.getLast?_append_of_ne_nil _ hne] at hlast
  have hblank := hblanks q (List.mem_of_getLast? hlast)
  rw [isBlank_eq_false_of_isQuote hq] at hblank
  cases hblank

/-- A text that ends in no white space has no delimiter at its end. -/
theorem kind_ne_of_getLast? (hcs : ∀ c ∈ cs.getLast?, isBlank c = false) :
    ∀ l ∈ (lexemes cs).getLast?, l.kind ≠ .delimiter := by
  intro l hl hk
  obtain ⟨front, -, hjoin, -, hfits⟩ := exists_of_getLast?_lexemes hl
  have hlast : cs.getLast? = some (l.chars.getLast hfits.ne_nil) := by
    rw [hjoin, List.getLast?_append_of_ne_nil _ hfits.ne_nil, List.getLast?_eq_some_getLast]
  have hblank := (hfits.blanks hk).1 _ (List.getLast_mem hfits.ne_nil)
  exact Bool.false_ne_true ((hcs _ hlast).symm.trans hblank)

/-- White space behind a text that ends in no white space is a lexeme of its own, -/
theorem lexemes_append_blanks {blanks : List Char} (hcs : ∀ c ∈ cs.getLast?, isBlank c = false)
    (hquoted : ∀ l ∈ (lexemes cs).getLast?, ¬ (l.kind = .quoted ∧ Unclosed l.chars))
    (hne : blanks ≠ []) (hblanks : ∀ c ∈ blanks, isBlank c) :
    lexemes (cs ++ blanks) = lexemes cs ++ [⟨.delimiter, blanks⟩] := by
  rw [lexemes_append hquoted, lexemes_blanks hne hblanks]
  intro l hl m hm
  rw [lexemes_blanks hne hblanks] at hm
  obtain rfl := Option.some.inj hm
  exact ⟨fun h => kind_ne_of_getLast? hcs l hl h.1, fun h => Kind.noConfusion h.2⟩

/-- or belongs to the quoted text that is not closed. -/
theorem lexemes_append_blanks_of_unclosed {blanks : List Char} (hl : l ∈ (lexemes cs).getLast?)
    (hopen : Unclosed l.chars) (hblanks : ∀ c ∈ blanks, isBlank c) :
    ∃ front, lexemes cs = front ++ [l] ∧
      lexemes (cs ++ blanks) = front ++ [⟨.quoted, l.chars ++ blanks⟩] := by
  obtain ⟨front, hfront, hjoin, hfits, hlast⟩ := exists_of_getLast?_lexemes hl
  refine ⟨front, hfront, ?_⟩
  symm
  rw [eq_lexemes_iff, fitting_append, List.flatMap_append, List.flatMap_singleton,
    List.head?_append_of_ne_nil _ hlast.ne_nil, Option.or_none]
  refine ⟨⟨hfits, .unclosed (hopen.append_blanks hblanks), trivial⟩, ?_⟩
  rw [hjoin, List.append_assoc]

/-- The lexemes that are left when the end of a text is trimmed. One that is not among those of the
text is a quoted text that is not closed, of which white space was trimmed. -/
theorem mem_lexemes_trimEnd (hl : l ∈ lexemes (trimEnd cs)) : l ∈ lexemes cs ∨
    (l.kind = .quoted ∧ ∃ blanks, blanks ≠ [] ∧ (∀ c ∈ blanks, isBlank c) ∧
      ⟨.quoted, l.chars ++ blanks⟩ ∈ lexemes cs) := by
  obtain ⟨blanks, hblanks, hcs⟩ := exists_of_trimEnd cs
  by_cases hne : blanks = []
  · rw [hne, List.append_nil] at hcs
    exact .inl (hcs ▸ hl)
  by_cases hopen : ∃ m ∈ (lexemes (trimEnd cs)).getLast?, m.kind = .quoted ∧ Unclosed m.chars
  · obtain ⟨m, hm, hk, hm'⟩ := hopen
    obtain ⟨front, hfront, hlexemes⟩ := lexemes_append_blanks_of_unclosed hm hm' hblanks
    rw [← hcs] at hlexemes
    rw [hfront] at hl
    rw [hlexemes]
    rcases List.mem_append.mp hl with hl | hl
    · exact .inl (List.mem_append_left _ hl)
    · obtain rfl := List.mem_singleton.mp hl
      exact .inr ⟨hk, blanks, hne, hblanks, List.mem_append_right _ List.mem_cons_self⟩
  · have hquoted : ∀ m ∈ (lexemes (trimEnd cs)).getLast?, ¬ (m.kind = .quoted ∧ Unclosed m.chars) :=
      fun m hm h => hopen ⟨m, hm, h⟩
    have hlexemes := lexemes_append_blanks (last_trimEnd cs) hquoted hne hblanks
    rw [← hcs] at hlexemes
    rw [hlexemes]
    exact .inl (List.mem_append_left _ hl)

theorem mem_lexemes_trim (hl : l ∈ lexemes (trim cs)) : l ∈ lexemes cs ∨
    (l.kind = .quoted ∧ ∃ blanks, blanks ≠ [] ∧ (∀ c ∈ blanks, isBlank c) ∧
      ⟨.quoted, l.chars ++ blanks⟩ ∈ lexemes cs) := by
  have hsuffix : lexemes (trimStart cs) <:+ lexemes cs := by
    obtain ⟨blanks, hblanks, hcs⟩ := exists_of_trimStart cs
    by_cases hne : blanks = []
    · rw [hne, List.nil_append] at hcs
      rw [← hcs]
    · have hlexemes := lexemes_blanks_append hne hblanks (head_trimStart cs)
      rw [← hcs] at hlexemes
      rw [hlexemes]
      exact List.suffix_cons ..
  rcases mem_lexemes_trimEnd hl with h | ⟨hk, blanks, hne, hblanks, h⟩
  · exact .inl (hsuffix.subset h)
  · exact .inr ⟨hk, blanks, hne, hblanks, hsuffix.subset h⟩

end
end Lexer
end RuleTree
