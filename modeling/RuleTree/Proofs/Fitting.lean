import Mathlib.Tactic
import RuleTree.Proofs.Lexing
import RuleTree.Proofs.Trimming

/-! Lexemes that fit what follows them. Where a lexeme ends depends on its own characters and on the
next one only, and a text is split into lexemes that fit in just one way. -/
namespace RuleTree.Lexer
open Text

/-- A text in which each `q` is hidden by a backslash. A backslash hides the character behind it. -/
inductive Hidden (q : Char) : List Char → Prop
  | nil : Hidden q []
  | plain {c : Char} {cs : List Char} (hq : c ≠ q) (hb : c ≠ '\\') (h : Hidden q cs) :
      Hidden q (c :: cs)
  | escaped (c : Char) {cs : List Char} (h : Hidden q cs) : Hidden q ('\\' :: c :: cs)

/-- A text in which each `q` is hidden, and which may end in a backslash that hides nothing. -/
def Unended (q : Char) (cs : List Char) : Prop :=
  Hidden q cs ∨ ∃ front, Hidden q front ∧ cs = front ++ ['\\']

/-- A quoted text up to the first quote of its own that is not hidden. -/
def Closed (chars : List Char) : Prop :=
  ∃ q body, isQuote q ∧ Hidden q body ∧ chars = q :: (body ++ [q])

/-- A quoted text that goes on where it ends, for want of a quote that is not hidden. -/
def Unclosed (chars : List Char) : Prop :=
  ∃ q body, isQuote q ∧ Unended q body ∧ chars = q :: body

/-- Whether a lexeme may end in front of the next character, of which there is none at the end of the
text. -/
inductive Fits : Lexeme → Option Char → Prop
  | delimiter {chars : List Char} {next : Option Char} (hne : chars ≠ [])
      (h : ∀ c ∈ chars, isBlank c) (hnext : ∀ c ∈ next, isBlank c = false) :
      Fits ⟨.delimiter, chars⟩ next
  | word {chars : List Char} {next : Option Char} (hne : chars ≠ [])
      (h : ∀ c ∈ chars, isWordChar c) (hnext : ∀ c ∈ next, isWordChar c = false) :
      Fits ⟨.word, chars⟩ next
  | mark {k : Kind} {c : Char} {next : Option Char} (h : Kind.ofMark? c = some k) :
      Fits ⟨k, [c]⟩ next
  | closed {chars : List Char} {next : Option Char} (h : Closed chars) :
      Fits ⟨.quoted, chars⟩ next
  | unclosed {chars : List Char} (h : Unclosed chars) : Fits ⟨.quoted, chars⟩ none

/-- Lexemes that fit each other, the last of them in front of `next`. -/
def Fitting : List Lexeme → Option Char → Prop
  | [], _ => True
  | l :: ls, next => Fits l ((ls.flatMap Lexeme.chars).head?.or next) ∧ Fitting ls next

section
variable {q c : Char} {body cs rest : List Char}

theorem ne_slash_of_isQuote (h : isQuote q) : '\\' ≠ q := by
  rintro rfl
  revert h
  decide

theorem splitQuoted_plain (hq : c ≠ q) (hb : c ≠ '\\') :
    splitQuoted q (c :: cs) = (c :: (splitQuoted q cs).1, (splitQuoted q cs).2) := by
  cases cs with
  | nil => rfl
  | cons d cs => rw [splitQuoted, if_neg hq, if_neg hb]

theorem splitQuoted_escaped (hq : '\\' ≠ q) :
    splitQuoted q ('\\' :: c :: cs) = ('\\' :: c :: (splitQuoted q cs).1, (splitQuoted q cs).2) := by
  rw [splitQuoted, if_neg hq, if_pos rfl]

theorem splitQuoted_quote : splitQuoted q (q :: rest) = ([q], rest) := by
  cases rest with
  | nil => rfl
  | cons d rest => rw [splitQuoted, if_pos rfl]

theorem Hidden.splitQuoted_append (h : Hidden q body) (hq : '\\' ≠ q) (rest : List Char) :
    splitQuoted q (body ++ rest) = (body ++ (splitQuoted q rest).1, (splitQuoted q rest).2) := by
  induction h with
  | nil => rfl
  | plain hc hb h ih => rw [List.cons_append, splitQuoted_plain hc hb, ih, List.cons_append]
  | escaped c h ih =>
    rw [List.cons_append, List.cons_append, splitQuoted_escaped hq, ih, List.cons_append,
      List.cons_append]

theorem Unended.splitQuoted_eq (h : Unended q body) (hq : '\\' ≠ q) :
    splitQuoted q body = (body, []) := by
  rcases h with h | ⟨front, h, rfl⟩
  · have hsplit := h.splitQuoted_append hq []
    rwa [List.append_nil, splitQuoted, List.append_nil] at hsplit
  · rw [h.splitQuoted_append hq, splitQuoted]

/-- A text ends behind the first quote that is not hidden, or it has none. -/
theorem splitQuoted_cases (q : Char) (cs : List Char) :
    (∃ body, Hidden q body ∧ (splitQuoted q cs).1 = body ++ [q]) ∨
      (Unended q cs ∧ splitQuoted q cs = (cs, [])) := by
  fun_induction splitQuoted q cs with
  | case1 => exact .inr ⟨.inl .nil, rfl⟩
  | case2 c =>
    by_cases hc : c = q
    · exact .inl ⟨[], .nil, by rw [hc]; rfl⟩
    by_cases hb : c = '\\'
    · exact .inr ⟨.inr ⟨[], .nil, by rw [hb]; rfl⟩, rfl⟩
    · exact .inr ⟨.inl (.plain hc hb .nil), rfl⟩
  | case3 d cs => exact .inl ⟨[], .nil, rfl⟩
  | case4 d cs r _ ih =>
    rcases ih with ⟨body, hbody, hr⟩ | ⟨hbody | ⟨front, hfront, rfl⟩, hr⟩
    · exact .inl ⟨'\\' :: d :: body, .escaped d hbody, by rw [hr]; rfl⟩
    · exact .inr ⟨.inl (.escaped d hbody), by simp only [r, hr]⟩
    · exact .inr ⟨.inr ⟨'\\' :: d :: front, .escaped d hfront, rfl⟩, by simp only [r, hr]⟩
  | case5 c d cs hc hb r ih =>
    rcases ih with ⟨body, hbody, hr⟩ | ⟨hbody | ⟨front, hfront, heq⟩, hr⟩
    · exact .inl ⟨c :: body, .plain hc hb hbody, by rw [hr]; rfl⟩
    · exact .inr ⟨.inl (.plain hc hb hbody), by simp only [r, hr]⟩
    · exact .inr ⟨.inr ⟨c :: front, .plain hc hb hfront, by rw [heq]; rfl⟩, by simp only [r, hr]⟩

end

section
variable {p : Char → Bool} {body rest : List Char}

theorem takeWhile_append_of_head? (hbody : ∀ c ∈ body, p c) (hrest : ∀ c ∈ rest.head?, p c = false) :
    (body ++ rest).takeWhile p = body ∧ (body ++ rest).dropWhile p = rest := by
  rw [List.takeWhile_append_of_pos hbody, List.dropWhile_append_of_pos hbody]
  cases rest with
  | nil => simp
  | cons c rest => simp [hrest c rfl]

end

section
variable {l : Lexeme} {ls ms : List Lexeme} {next : Option Char} {c : Char} {cs rest : List Char}

theorem Fits.ne_nil (h : Fits l next) : l.chars ≠ [] := by
  cases h with
  | delimiter hne _ _ => exact hne
  | word hne _ _ => exact hne
  | mark h => exact List.cons_ne_nil _ _
  | closed h =>
    obtain ⟨q, body, -, -, rfl⟩ := h
    exact List.cons_ne_nil _ _
  | unclosed h =>
    obtain ⟨q, body, -, -, rfl⟩ := h
    exact List.cons_ne_nil _ _

theorem isBlank_eq_false_of_ofMark? {k : Kind} (h : Kind.ofMark? c = some k) : isBlank c = false := by
  unfold Kind.ofMark? at h
  split at h <;> cases h <;> decide

theorem isBlank_eq_false_of_isQuote (h : isQuote c) : isBlank c = false := by
  simp only [isQuote, Bool.or_eq_true, beq_iff_eq] at h
  rcases h with rfl | rfl <;> decide

theorem ofMark?_eq_none_of_isQuote (h : isQuote c) : Kind.ofMark? c = none := by
  simp only [isQuote, Bool.or_eq_true, beq_iff_eq] at h
  rcases h with rfl | rfl <;> decide

/-- The lexeme that a text begins with fits, -/
theorem first_fits (c : Char) (cs : List Char) : Fits (first c cs).1 (first c cs).2.head? := by
  unfold first
  split
  next hc =>
    refine .delimiter (List.cons_ne_nil _ _) ?_ eq_false_of_head?_dropWhile
    exact List.forall_mem_cons.mpr ⟨hc, fun d hd => List.all_eq_true.mp List.all_takeWhile d hd⟩
  next hblank =>
    split
    next k hk => exact .mark hk
    next hmark =>
      split
      next hq =>
        rcases splitQuoted_cases c cs with ⟨body, hbody, hr⟩ | ⟨hopen, hr⟩
        · exact .closed ⟨c, body, hq, hbody, by rw [hr]⟩
        · rw [hr]
          exact .unclosed ⟨c, cs, hq, hopen, rfl⟩
      next hq =>
        have hc : isWordChar c := by simp [isWordChar, hblank, hmark, hq]
        refine .word (List.cons_ne_nil _ _) ?_ eq_false_of_head?_dropWhile
        exact List.forall_mem_cons.mpr ⟨hc, fun d hd => List.all_eq_true.mp List.all_takeWhile d hd⟩

/-- and no other lexeme that the text begins with does. -/
theorem Fits.first_eq (h : Fits l rest.head?) (hl : l.chars = c :: cs) :
    first c (cs ++ rest) = (l, rest) := by
  generalize hnext : rest.head? = next at h
  cases h with
  | delimiter hne hall hstop =>
    obtain rfl := hl
    obtain ⟨hblank, hall⟩ := List.forall_mem_cons.mp hall
    obtain ⟨htake, hdrop⟩ := takeWhile_append_of_head? hall (hnext ▸ hstop)
    rw [first, if_pos hblank, htake, hdrop]
  | word hne hall hstop =>
    obtain rfl := hl
    obtain ⟨hword, hall⟩ := List.forall_mem_cons.mp hall
    obtain ⟨htake, hdrop⟩ := takeWhile_append_of_head? hall (hnext ▸ hstop)
    simp only [isWordChar, Bool.and_eq_true, Bool.not_eq_true', Option.isNone_iff_eq_none] at hword
    obtain ⟨⟨hblank, hmark⟩, hquote⟩ := hword
    simp only [first, hblank, hmark, hquote, htake, hdrop, Bool.false_eq_true, if_false]
  | mark hk =>
    obtain ⟨rfl, rfl⟩ := List.cons.inj hl
    simp only [first, isBlank_eq_false_of_ofMark? hk, hk, Bool.false_eq_true, if_false,
      List.nil_append]
  | closed h =>
    obtain ⟨q, body, hq, hbody, rfl⟩ := h
    obtain ⟨rfl, rfl⟩ := List.cons.inj hl
    have hsplit := hbody.splitQuoted_append (ne_slash_of_isQuote hq) (q :: rest)
    rw [splitQuoted_quote] at hsplit
    simp only [first, isBlank_eq_false_of_isQuote hq, ofMark?_eq_none_of_isQuote hq, hq, hsplit,
      List.append_assoc, List.singleton_append, Bool.false_eq_true, if_false, if_true]
  | unclosed h =>
    obtain ⟨q, body, hq, hbody, rfl⟩ := h
    obtain ⟨rfl, rfl⟩ := List.cons.inj hl
    obtain rfl : rest = [] := List.head?_eq_none_iff.mp hnext
    simp only [first, isBlank_eq_false_of_isQuote hq, ofMark?_eq_none_of_isQuote hq, hq,
      hbody.splitQuoted_eq (ne_slash_of_isQuote hq), List.append_nil, Bool.false_eq_true, if_false,
      if_true]

theorem lexemes_fitting (cs : List Char) : Fitting (lexemes cs) none := by
  fun_induction lexemes cs with
  | case1 => trivial
  | case2 c cs ih =>
    refine ⟨?_, ih⟩
    rw [lexemes_join, Option.or_none]
    exact first_fits c cs

theorem Fitting.eq_lexemes (h : Fitting ls none) : ls = lexemes (ls.flatMap Lexeme.chars) := by
  induction ls with
  | nil => rw [List.flatMap_nil, lexemes]
  | cons l ls ih =>
    obtain ⟨hl, hls⟩ := h
    obtain ⟨c, cs, hcs⟩ := List.exists_cons_of_ne_nil hl.ne_nil
    rw [Option.or_none] at hl
    rw [List.flatMap_cons, hcs, List.cons_append, lexemes, hl.first_eq hcs, ← ih hls]

/-- Lexemes that fit are the lexemes of the text that they join to. -/
theorem eq_lexemes_iff : ls = lexemes cs ↔ Fitting ls none ∧ ls.flatMap Lexeme.chars = cs := by
  constructor
  · rintro rfl
    exact ⟨lexemes_fitting cs, lexemes_join cs⟩
  · rintro ⟨h, rfl⟩
    exact h.eq_lexemes

theorem fitting_append : Fitting (ls ++ ms) next ↔
    Fitting ls ((ms.flatMap Lexeme.chars).head?.or next) ∧ Fitting ms next := by
  induction ls with
  | nil => simp [Fitting]
  | cons l ls ih =>
    simp only [List.cons_append, Fitting, ih, List.flatMap_append, List.head?_append,
      Option.or_assoc, and_assoc]

/-- The last lexeme of a text, with the lexemes in front of it. -/
theorem exists_of_getLast?_lexemes (hl : l ∈ (lexemes cs).getLast?) :
    ∃ front, lexemes cs = front ++ [l] ∧ cs = front.flatMap Lexeme.chars ++ l.chars ∧
      Fitting front l.chars.head? ∧ Fits l none := by
  obtain ⟨front, hfront⟩ := List.getLast?_eq_some_iff.mp hl
  have hjoin := lexemes_join cs
  have hfits := lexemes_fitting cs
  rw [hfront, List.flatMap_append, List.flatMap_singleton] at hjoin
  rw [hfront, fitting_append, List.flatMap_singleton, Option.or_none] at hfits
  exact ⟨front, hfront, hjoin.symm, hfits.1, hfits.2.1⟩

theorem Fitting.ne_nil (h : Fitting ls next) : ∀ l ∈ ls, l.chars ≠ [] := by
  induction ls with
  | nil => exact List.forall_mem_nil _
  | cons l ls ih => exact List.forall_mem_cons.mpr ⟨h.1.ne_nil, ih h.2⟩

theorem kind_of_ofMark? {k : Kind} (h : Kind.ofMark? c = some k) :
    k ≠ .delimiter ∧ k ≠ .word ∧ k ≠ .quoted := by
  unfold Kind.ofMark? at h
  split at h <;> cases h <;> decide

theorem isWordChar_eq_false_of_ofMark? {k : Kind} (h : Kind.ofMark? c = some k) :
    isWordChar c = false := by
  simp [isWordChar, h]

theorem isWordChar_eq_false_of_isQuote (h : isQuote c) : isWordChar c = false := by
  simp [isWordChar, h]

theorem isWordChar_eq_false_of_isBlank (h : isBlank c) : isWordChar c = false := by
  simp [isWordChar, h]

/-- The first character of a lexeme tells whether it is a run of blanks or a word. -/
theorem Fits.head (h : Fits l next) : ∀ c ∈ l.chars.head?,
    (isBlank c = true ↔ l.kind = .delimiter) ∧ (isWordChar c = true ↔ l.kind = .word) := by
  intro c hc
  cases h with
  | delimiter hne hall hnext =>
    have hblank := hall c (List.mem_of_mem_head? hc)
    simp [hblank, isWordChar_eq_false_of_isBlank hblank]
  | word hne hall hnext =>
    have hword := hall c (List.mem_of_mem_head? hc)
    have hblank : isBlank c = false := by
      by_contra hblank
      rw [isWordChar_eq_false_of_isBlank (by simpa using hblank)] at hword
      cases hword
    simp [hblank, hword]
  | mark h =>
    obtain rfl := Option.some.inj hc
    obtain ⟨hd, hw, -⟩ := kind_of_ofMark? h
    simp [isBlank_eq_false_of_ofMark? h, isWordChar_eq_false_of_ofMark? h, hd, hw]
  | closed h =>
    obtain ⟨q, body, hq, -, rfl⟩ := h
    obtain rfl := Option.some.inj hc
    simp [isBlank_eq_false_of_isQuote hq, isWordChar_eq_false_of_isQuote hq]
  | unclosed h =>
    obtain ⟨q, body, hq, -, rfl⟩ := h
    obtain rfl := Option.some.inj hc
    simp [isBlank_eq_false_of_isQuote hq, isWordChar_eq_false_of_isQuote hq]

/-- The first character of lexemes tells of the first of them. -/
theorem Fitting.head (h : Fitting ls next) : ∀ c ∈ (ls.flatMap Lexeme.chars).head?, ∃ l ∈ ls.head?,
    (isBlank c = true ↔ l.kind = .delimiter) ∧ (isWordChar c = true ↔ l.kind = .word) := by
  intro c hc
  cases ls with
  | nil => cases hc
  | cons l ls =>
    rw [List.flatMap_cons, List.head?_append_of_ne_nil _ h.1.ne_nil] at hc
    exact ⟨l, rfl, h.1.head c hc⟩

/-- A lexeme that fits at the end of a text fits in front of any lexemes that do not make it longer. -/
theorem Fits.in_front (h : Fits l none) (hms : Fitting ms none)
    (hapart : ∀ m ∈ ms.head?,
      ¬ (l.kind = .delimiter ∧ m.kind = .delimiter) ∧ ¬ (l.kind = .word ∧ m.kind = .word))
    (hquoted : l.kind = .quoted → Closed l.chars ∨ ms.flatMap Lexeme.chars = []) :
    Fits l (ms.flatMap Lexeme.chars).head? := by
  cases h with
  | delimiter hne hall _ =>
    refine .delimiter hne hall fun c hc => ?_
    obtain ⟨m, hm, hblank, -⟩ := hms.head c hc
    by_contra hc
    exact (hapart m hm).1 ⟨rfl, hblank.mp (by simpa using hc)⟩
  | word hne hall _ =>
    refine .word hne hall fun c hc => ?_
    obtain ⟨m, hm, -, hword⟩ := hms.head c hc
    by_contra hc
    exact (hapart m hm).2 ⟨rfl, hword.mp (by simpa using hc)⟩
  | mark h => exact .mark h
  | closed h => exact .closed h
  | unclosed h =>
    rcases hquoted rfl with hclosed | hnil
    · exact .closed hclosed
    · rw [hnil]
      exact .unclosed h

end
end RuleTree.Lexer
