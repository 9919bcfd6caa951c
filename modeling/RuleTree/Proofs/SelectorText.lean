import Mathlib
import RuleTree.Outline
import RuleTree.Proofs.Spacing
import RuleTree.Selectors

/-! Selectors as text. The selectors of a header, written with commas and spaces between them, are a
header that has the same selectors. -/
namespace RuleTree
namespace Selectors
open Text Lexer

/-- What is known of the text of a selector. -/
structure Tame (cs : List Char) : Prop where
  trimmed : Trimmed cs
  delimiter : ∀ l ∈ lexemes cs, l.kind = .delimiter → l.chars = [' ']
  comma : ∀ l ∈ lexemes cs, l.kind ≠ .comma
  atSign : ∀ l ∈ lexemes cs, l.kind ≠ .atSign

/-- The texts of a header's selectors. Only the last may hold a quoted text that is not closed. -/
inductive Row : List (List Char) → Prop
  | last {cs : List Char} (h : Tame cs) : Row [cs]
  | cons {cs : List Char} {parts : List (List Char)} (h : Tame cs)
      (hquoted : ∀ l ∈ lexemes cs, ¬ (l.kind = .quoted ∧ Unclosed l.chars)) (more : Row parts) :
      Row (cs :: parts)

theorem piece_eq (t : Token) : piece t = t.lexeme.squeezed.chars := by
  by_cases hk : t.lexeme.kind = .delimiter
  · have ht : t.isDelimiter := beq_iff_eq.mpr hk
    rw [Lexeme.squeezed_of_eq hk, piece, if_pos ht]
  · have ht : ¬ t.isDelimiter := mt beq_iff_eq.mp hk
    rw [Lexeme.squeezed_of_ne hk, piece, if_neg ht]
    rfl

section
variable {p : List Lexeme} {next : Option Char} {cs : List Char}

/-- The trimmed text of lexemes without comma and at-sign, each delimiter taken for a space. -/
theorem tame_trim (hfits : Fitting p next) (hcomma : ∀ l ∈ p, l.kind ≠ .comma)
    (hat : ∀ l ∈ p, l.kind ≠ .atSign) : Tame (trim (p.flatMap fun l => l.squeezed.chars)) := by
  have hlexemes := lexemes_squeezed hfits
  -- a lexeme that is no quoted text is one of the given ones
  have hmem : ∀ l ∈ lexemes (trim (p.flatMap fun l => l.squeezed.chars)), l.kind ≠ .quoted →
      ∃ m ∈ p, m.squeezed = l := by
    intro l hl hk
    rcases mem_lexemes_trim hl with hl | ⟨hquoted, -⟩
    · rw [hlexemes] at hl
      exact List.mem_map.mp hl
    · exact absurd hquoted hk
  refine ⟨trimmed_trim _, ?_, ?_, ?_⟩
  · intro l hl hk
    obtain ⟨m, -, rfl⟩ := hmem l hl (by rw [hk]; decide)
    rw [Lexeme.squeezed_kind] at hk
    rw [Lexeme.squeezed_of_eq hk]
  · intro l hl hk
    obtain ⟨m, hm, rfl⟩ := hmem l hl (by rw [hk]; decide)
    exact hcomma m hm (m.squeezed_kind ▸ hk)
  · intro l hl hk
    obtain ⟨m, hm, rfl⟩ := hmem l hl (by rw [hk]; decide)
    exact hat m hm (m.squeezed_kind ▸ hk)

/-- In front of a further character all quoted texts are closed, and they stay so. -/
theorem closed_trim {c : Char} (hfits : Fitting p (some c)) :
    ∀ l ∈ lexemes (trim (p.flatMap fun l => l.squeezed.chars)),
      ¬ (l.kind = .quoted ∧ Unclosed l.chars) := by
  have hclosed : ∀ l ∈ p.map Lexeme.squeezed, l.kind = .quoted → Closed l.chars := by
    intro l hl hk
    obtain ⟨m, hm, rfl⟩ := List.mem_map.mp hl
    rw [Lexeme.squeezed_kind] at hk
    rw [Lexeme.squeezed_of_ne (by rw [hk]; decide)]
    obtain ⟨front, back, rfl⟩ := List.append_of_mem hm
    rcases hfits.fits.closed_or hk with hclosed | ⟨-, hnext⟩
    · exact hclosed
    · cases h : (back.flatMap Lexeme.chars).head? with
      | none =>
        rw [h] at hnext
        cases hnext
      | some d =>
        rw [h] at hnext
        cases hnext
  rintro l hl ⟨hk, hopen⟩
  rcases mem_lexemes_trim hl with hl | ⟨-, blanks, hne, hblanks, hl⟩
  · rw [lexemes_squeezed hfits] at hl
    exact (hclosed l hl hk).not_unclosed hopen
  · rw [lexemes_squeezed hfits] at hl
    exact not_closed_append hne hblanks (hclosed _ hl rfl)

/-- The selectors of lexemes that fit, behind lexemes `p` of the first selector. -/
theorem exists_row {ts : List Token} (hfits : Fitting (p ++ ts.map Token.lexeme) none)
    (hcomma : ∀ l ∈ p, l.kind ≠ .comma)
    (hat : ∀ l ∈ p ++ ts.map Token.lexeme, l.kind ≠ .atSign) :
    ∃ parts, Row parts ∧
      collect (p.flatMap fun l => l.squeezed.chars) ts = parts.map String.ofList := by
  induction ts generalizing p with
  | nil =>
    rw [List.map_nil, List.append_nil] at hfits hat
    exact ⟨[_], .last (tame_trim hfits hcomma hat), rfl⟩
  | cons t ts ih =>
    rw [List.map_cons] at hfits hat
    by_cases ht : t.isComma
    · obtain ⟨hp, hmore⟩ := fitting_append.mp hfits
      obtain ⟨hatp, hat⟩ := List.forall_mem_append.mp hat
      obtain ⟨parts, hrow, hparts⟩ := ih (p := []) hmore.2 (List.forall_mem_nil _)
        (List.forall_mem_cons.mp hat).2
      obtain ⟨c, chars, hc⟩ := List.exists_cons_of_ne_nil hmore.1.ne_nil
      rw [List.flatMap_cons, hc] at hp
      refine ⟨_ :: parts, .cons (tame_trim hp hcomma hatp) (closed_trim hp) hrow, ?_⟩
      rw [collect, if_pos ht]
      exact congrArg _ hparts
    · rw [List.append_cons] at hfits hat
      have hcomma' : ∀ l ∈ p ++ [t.lexeme], l.kind ≠ .comma := by
        rw [List.forall_mem_append]
        refine ⟨hcomma, List.forall_mem_singleton.mpr ?_⟩
        intro hk
        exact ht (beq_iff_eq.mpr hk)
      obtain ⟨parts, hrow, hparts⟩ := ih hfits hcomma' hat
      refine ⟨parts, hrow, ?_⟩
      rw [← hparts, collect, if_neg ht, piece_eq, List.flatMap_append, List.flatMap_singleton]

end

section
variable {cs : List Char} {parts : List (List Char)}

theorem Tame.flatMap_piece (h : Tame cs) {ts : List Token}
    (hts : ts.map Token.lexeme = lexemes cs) : ts.flatMap piece = cs := by
  have hpiece : ∀ t ∈ ts, piece t = t.lexeme.chars := by
    intro t ht
    rw [piece_eq]
    by_cases hk : t.lexeme.kind = .delimiter
    · rw [Lexeme.squeezed_of_eq hk, h.delimiter _ (hts ▸ List.mem_map_of_mem ht) hk]
    · rw [Lexeme.squeezed_of_ne hk]
  rw [List.flatMap_congr hpiece, ← List.flatMap_map, hts, lexemes_join]

theorem collect_append {current : List Char} {ts us : List Token}
    (hts : ∀ t ∈ ts, t.isComma = false) :
    collect current (ts ++ us) = collect (current ++ ts.flatMap piece) us := by
  induction ts generalizing current with
  | nil => rw [List.nil_append, List.flatMap_nil, List.append_nil]
  | cons t ts ih =>
    obtain ⟨ht, hts⟩ := List.forall_mem_cons.mp hts
    rw [List.cons_append, collect, if_neg (by rw [ht]; exact Bool.false_ne_true), ih hts,
      List.flatMap_cons, List.append_assoc]

theorem Row.exists_cons (h : Row parts) : ∃ cs more, parts = cs :: more := by
  cases h with
  | last => exact ⟨_, _, rfl⟩
  | cons => exact ⟨_, _, rfl⟩

theorem Row.intercalate_cons (h : Row parts) (cs : List Char) :
    [',', ' '].intercalate (cs :: parts) = cs ++ ',' :: ([' '] ++ [',', ' '].intercalate parts) := by
  obtain ⟨part, more, rfl⟩ := h.exists_cons
  rw [List.intercalate_cons_cons, List.append_assoc]
  rfl

/-- Joined selectors do not begin with white space. -/
theorem Row.head (h : Row parts) :
    ∀ c ∈ ([',', ' '].intercalate parts).head?, isBlank c = false := by
  cases h with
  | last h =>
    rw [List.intercalate_singleton]
    exact h.trimmed.head
  | @cons cs parts h _ more =>
    rw [more.intercalate_cons]
    cases cs with
    | nil =>
      rintro c ⟨rfl⟩
      rfl
    | cons d ds => exact h.trimmed.head

theorem lexemes_comma (cs : List Char) : lexemes (',' :: cs) = ⟨.comma, [',']⟩ :: lexemes cs := by
  rw [lexemes]
  rfl

/-- The lexemes of joined selectors are those of each, with a comma and a space between them. -/
theorem Row.lexemes_cons (more : Row parts)
    (hquoted : ∀ l ∈ lexemes cs, ¬ (l.kind = .quoted ∧ Unclosed l.chars)) :
    lexemes ([',', ' '].intercalate (cs :: parts)) =
      lexemes cs ++ ⟨.comma, [',']⟩ :: ⟨.delimiter, [' ']⟩ ::
        lexemes ([',', ' '].intercalate parts) := by
  have hspace : lexemes ([' '] ++ [',', ' '].intercalate parts) =
      ⟨.delimiter, [' ']⟩ :: lexemes ([',', ' '].intercalate parts) :=
    lexemes_blanks_append (List.cons_ne_nil _ _) (List.forall_mem_singleton.mpr rfl) more.head
  rw [more.intercalate_cons, lexemes_append, lexemes_comma, hspace]
  · intro l hl
    exact hquoted l (List.mem_of_getLast? hl)
  · rw [lexemes_comma]
    rintro l hl m ⟨rfl⟩
    exact ⟨fun hk => Kind.noConfusion hk.2, fun hk => Kind.noConfusion hk.2⟩

theorem Row.atSign (h : Row parts) :
    ∀ l ∈ lexemes ([',', ' '].intercalate parts), l.kind ≠ .atSign := by
  induction h with
  | last h =>
    rw [List.intercalate_singleton]
    exact h.atSign
  | cons h hquoted more ih =>
    rw [more.lexemes_cons hquoted, List.forall_mem_append, List.forall_mem_cons,
      List.forall_mem_cons]
    exact ⟨h.atSign, nofun, nofun, ih⟩

/-- Joined selectors are split into the same ones again. -/
theorem Row.collect_eq (h : Row parts) {blanks : List Char} (hblanks : ∀ c ∈ blanks, isBlank c)
    {ts : List Token} (hts : ts.map Token.lexeme = lexemes ([',', ' '].intercalate parts)) :
    collect blanks ts = parts.map String.ofList := by
  induction h generalizing blanks ts with
  | @last cs h =>
    rw [List.intercalate_singleton] at hts
    have hcomma : ∀ t ∈ ts, t.isComma = false := by
      intro t ht
      exact beq_eq_false_iff_ne.mpr (h.comma _ (hts ▸ List.mem_map_of_mem ht))
    have hcollect : collect blanks (ts ++ []) = collect (blanks ++ ts.flatMap piece) [] :=
      collect_append hcomma
    rw [List.append_nil, h.flatMap_piece hts, collect, h.trimmed.trim_append hblanks] at hcollect
    exact hcollect
  | @cons cs parts h hquoted more ih =>
    rw [more.lexemes_cons hquoted] at hts
    obtain ⟨us, vs, rfl, hus, hvs⟩ := List.map_eq_append_iff.mp hts
    obtain ⟨comma, vs, rfl, hc, hvs⟩ := List.map_eq_cons_iff.mp hvs
    obtain ⟨space, vs, rfl, hs, hvs⟩ := List.map_eq_cons_iff.mp hvs
    have hcomma : ∀ t ∈ us, t.isComma = false := by
      intro t ht
      exact beq_eq_false_iff_ne.mpr (h.comma _ (hus ▸ List.mem_map_of_mem ht))
    have hc : comma.isComma := beq_iff_eq.mpr (congrArg Lexeme.kind hc)
    have hs' : ¬ space.isComma := by
      have hk : space.kind = .delimiter := congrArg Lexeme.kind hs
      simp [Token.isComma, hk]
    have hspace : piece space = [' '] := by
      rw [piece_eq, hs]
      rfl
    rw [collect_append hcomma, h.flatMap_piece hus, collect, if_pos hc,
      h.trimmed.trim_append hblanks, collect, if_neg hs', hspace, List.nil_append,
      ih (List.forall_mem_singleton.mpr rfl) hvs, List.map_cons]

theorem toList_intercalate (parts : List (List Char)) :
    (", ".intercalate (parts.map String.ofList)).toList = [',', ' '].intercalate parts := by
  rw [String.toList_intercalate, List.map_map]
  have hid : String.toList ∘ String.ofList = id := funext fun cs => String.toList_ofList
  rw [hid, List.map_id]
  rfl

theorem ofTokens?_of_free {ts : List Token} (h : ∀ t ∈ ts, t.isAtSign = false) :
    ofTokens? ts = some (collect [] ts) :=
  ofTokens?_of_head fun t ht => h t (List.mem_of_mem_head? ht)

end

end Selectors

namespace Source

theorem isAtSign_eq_false_iff {s : Source} : (∀ t ∈ s.tokens, t.isAtSign = false) ↔
    ∀ l ∈ Lexer.lexemes s.text.toList, l.kind ≠ .atSign := by
  rw [← tokens_lexeme, List.forall_mem_map]
  refine forall₂_congr fun t _ => ?_
  rw [Token.isAtSign, beq_eq_false_iff_ne]
  rfl

/-- A header without an at-sign has selectors. Written as an outline shows them, with commas and
spaces between them, they are again a header without an at-sign, and it has the same selectors. -/
theorem selectors_joined (s : Source) (name : Option String)
    (hat : ∀ t ∈ s.tokens, t.isAtSign = false) :
    ∃ selectors, Selectors.ofTokens? s.tokens = some selectors ∧
      Outline.headerLine (.selectors selectors) =
        "[Block] selectors: " ++ ", ".intercalate selectors ∧
      (∀ t ∈ tokens ⟨name, ", ".intercalate selectors⟩, t.isAtSign = false) ∧
      Selectors.ofTokens? (tokens ⟨name, ", ".intercalate selectors⟩) = some selectors := by
  have hlexemes := isAtSign_eq_false_iff.mp hat
  rw [← tokens_lexeme] at hlexemes
  have hfits := Lexer.lexemes_fitting s.text.toList
  rw [← tokens_lexeme] at hfits
  obtain ⟨parts, hrow, hparts⟩ :=
    Selectors.exists_row (p := []) hfits (List.forall_mem_nil _) hlexemes
  have htext : (", ".intercalate (parts.map String.ofList)).toList = [',', ' '].intercalate parts :=
    Selectors.toList_intercalate parts
  have hat' : ∀ t ∈ tokens ⟨name, ", ".intercalate (parts.map String.ofList)⟩,
      t.isAtSign = false := by
    rw [isAtSign_eq_false_iff, htext]
    exact hrow.atSign
  refine ⟨parts.map String.ofList, ?_, rfl, hat', ?_⟩
  · rw [Selectors.ofTokens?_of_free hat]
    exact congrArg some hparts
  · rw [Selectors.ofTokens?_of_free hat']
    apply congrArg some
    apply hrow.collect_eq (List.forall_mem_nil _)
    rw [tokens_lexeme, htext]

theorem selectors_joined_unclosed :
    let s : Source := ⟨none, "a\t>  b ,, '@, x' , \"é\\ "⟩
    (∀ t ∈ s.tokens, t.isAtSign = false) ∧
      Selectors.ofTokens? s.tokens = some ["a > b", "", "'@, x'", "\"é\\"] ∧
      Selectors.ofTokens? (tokens ⟨none, "a > b, , '@, x', \"é\\"⟩) =
        some ["a > b", "", "'@, x'", "\"é\\"] := by
  intro s
  have hat : ∀ t ∈ s.tokens, t.isAtSign = false := by
    have hall : (s.tokens.all fun t => !t.isAtSign) = true := by cbv
    intro t ht
    simpa using List.all_eq_true.mp hall t ht
  have hselectors : Selectors.ofTokens? s.tokens = some ["a > b", "", "'@, x'", "\"é\\"] := by cbv
  obtain ⟨selectors, hs, -, -, hjoined⟩ := selectors_joined s none hat
  obtain rfl := Option.some.inj (hs.symm.trans hselectors)
  exact ⟨hat, hselectors, hjoined⟩

end Source
end RuleTree
