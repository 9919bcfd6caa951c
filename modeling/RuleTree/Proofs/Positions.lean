import Mathlib
import RuleTree.Proofs.Lexing

/-! Tokens by their positions in the text. A cursor that only counts characters cuts the same tokens
out of a text, and every cut that it makes lies within the text. So nothing of a text is lost, and
the offset of a token is the number of characters in front of it. -/
namespace RuleTree
namespace Lexer
open Text

/-- The first position from `i` on where `p` does not hold, at most the end of the text. -/
def runStop (p : Char → Bool) (cs : List Char) (i : Nat) : Nat :=
  if h : i < cs.length then
    if p cs[i] then runStop p cs (i + 1) else i
  else i
termination_by cs.length - i

/-- The position of the first `q` from `i` on that no backslash hides. Without such a `q` it is the
end of the text, or one past it behind a backslash that hides nothing. -/
def quoteStop (q : Char) (cs : List Char) (i : Nat) : Nat :=
  if h : i < cs.length then
    if cs[i] = q then i
    else if cs[i] = '\\' then quoteStop q cs (i + 2)
    else quoteStop q cs (i + 1)
  else i
termination_by cs.length - i

/-- The kind of the lexeme at `i`, and the position behind it. -/
def lexemeAt (cs : List Char) (i : Nat) (h : i < cs.length) : Kind × Nat :=
  if isBlank cs[i] then (.delimiter, runStop isBlank cs i)
  else match Kind.ofMark? cs[i] with
    | some k => (k, i + 1)
    | none =>
      if isQuote cs[i] then (.quoted, min (quoteStop cs[i] cs (i + 1) + 1) cs.length)
      else (.word, runStop isWordChar cs i)

/-- The characters from `start` to before `stop`, if there are such positions in the text. -/
def slice? (cs : List Char) (start stop : Nat) : Option (List Char) :=
  if start ≤ stop ∧ stop ≤ cs.length then some ((cs.take stop).drop start) else none

section
variable {p : Char → Bool} {q c : Char} {before rest : List Char}

theorem runStop_cons : runStop p (before ++ c :: rest) before.length =
    if p c then runStop p (before ++ c :: rest) (before.length + 1) else before.length := by
  have hlt : before.length < (before ++ c :: rest).length := by simp
  have hget : (before ++ c :: rest)[before.length] = c := List.getElem_of_append rfl rfl
  rw [runStop, dif_pos hlt, hget]

/-- A run stops behind the characters that `p` holds of. -/
theorem runStop_append (before rest : List Char) :
    runStop p (before ++ rest) before.length = before.length + (rest.takeWhile p).length := by
  induction rest generalizing before with
  | nil =>
    rw [runStop]
    simp
  | cons c rest ih =>
    have hmore := ih (before ++ [c])
    rw [List.append_assoc, List.singleton_append, List.length_append,
      List.length_singleton] at hmore
    rw [runStop_cons, hmore]
    by_cases hc : p c
    · rw [if_pos hc, List.takeWhile_cons_of_pos hc, List.length_cons]
      omega
    · rw [if_neg hc, List.takeWhile_cons_of_neg hc, List.length_nil, Nat.add_zero]

theorem quoteStop_cons : quoteStop q (before ++ c :: rest) before.length =
    if c = q then before.length
    else if c = '\\' then quoteStop q (before ++ c :: rest) (before.length + 2)
    else quoteStop q (before ++ c :: rest) (before.length + 1) := by
  have hlt : before.length < (before ++ c :: rest).length := by simp
  have hget : (before ++ c :: rest)[before.length] = c := List.getElem_of_append rfl rfl
  rw [quoteStop, dif_pos hlt, hget]

theorem quoteStop_of_length_le {cs : List Char} {i : Nat} (h : cs.length ≤ i) :
    quoteStop q cs i = i := by
  rw [quoteStop, dif_neg (by omega)]

/-- Cut back to the end of the text, the position behind the closing quote is where the quoted text
was split off. -/
theorem quoteStop_append (q : Char) (before rest : List Char) :
    min (quoteStop q (before ++ rest) before.length + 1) (before ++ rest).length =
      before.length + (splitQuoted q rest).1.length := by
  fun_induction splitQuoted q rest generalizing before with
  | case1 =>
    rw [quoteStop_of_length_le (by simp)]
    simp
  | case2 c =>
    -- wherever the search goes on from the last character, that is behind the end
    have hlength : (before ++ [c]).length = before.length + 1 := List.length_append
    rw [quoteStop_cons, quoteStop_of_length_le (by omega), quoteStop_of_length_le (by omega),
      hlength, List.length_singleton]
    split
    · omega
    · split <;> omega
  | case3 d cs =>
    rw [quoteStop_cons, if_pos rfl]
    simp
  | case4 d cs r hq ih =>
    have hmore := ih (before ++ ['\\', d])
    simp only [List.append_assoc, List.cons_append, List.nil_append, List.length_append,
      List.length_cons, List.length_nil, r] at hmore ⊢
    rw [quoteStop_cons, if_neg hq, if_pos rfl, hmore]
    omega
  | case5 c d cs hq hb r ih =>
    have hmore := ih (before ++ [c])
    simp only [List.append_assoc, List.cons_append, List.nil_append, List.length_append,
      List.length_cons, List.length_nil, r] at hmore ⊢
    rw [quoteStop_cons, if_neg hq, if_neg hb, hmore]
    omega

/-- The lexeme at a position is the one that its character begins. -/
theorem lexemeAt_append (before rest : List Char) (c : Char)
    (h : before.length < (before ++ c :: rest).length) :
    lexemeAt (before ++ c :: rest) before.length h =
      ((first c rest).1.kind, before.length + (first c rest).1.chars.length) := by
  have hget : (before ++ c :: rest)[before.length] = c := List.getElem_of_append rfl rfl
  rw [lexemeAt, hget]
  unfold first
  by_cases hblank : isBlank c
  · rw [if_pos hblank, if_pos hblank, runStop_append, List.takeWhile_cons_of_pos hblank]
  rw [if_neg hblank, if_neg hblank]
  cases hmark : Kind.ofMark? c with
  | some k => rfl
  | none =>
    by_cases hquote : isQuote c
    · have hquoted := quoteStop_append c (before ++ [c]) rest
      rw [List.append_assoc, List.singleton_append, List.length_append, List.length_singleton,
        Nat.add_assoc, Nat.add_comm 1] at hquoted
      simp only [if_pos hquote, hquoted, List.length_cons]
    · have hword : isWordChar c := by simp [isWordChar, hblank, hmark, hquote]
      simp only [if_neg hquote, runStop_append, List.takeWhile_cons_of_pos hword]

theorem slice?_append (before middle rest : List Char) :
    slice? (before ++ (middle ++ rest)) before.length (before.length + middle.length) =
      some middle := by
  rw [slice?, if_pos (by simp), ← List.append_assoc, ← List.length_append, List.take_left,
    List.drop_left]

end

/-- Every lexeme takes at least one character. -/
theorem lt_lexemeAt {cs : List Char} {i : Nat} (h : i < cs.length) : i < (lexemeAt cs i h).2 := by
  obtain ⟨before, c, rest, rfl, rfl⟩ : ∃ before c rest, cs = before ++ c :: rest ∧
      i = before.length := by
    refine ⟨cs.take i, cs[i], cs.drop (i + 1), ?_, ?_⟩
    · rw [List.cons_getElem_drop_succ, List.take_append_drop]
    · rw [List.length_take]
      omega
  rw [lexemeAt_append]
  exact Nat.lt_add_of_pos_right (List.length_pos_iff.mpr (first_chars_ne_nil c rest))

/-- Cuts the text from position `i` on into tokens. None if a cut does not lie within the text. -/
def cut? (origin : Source) (cs : List Char) (i : Nat) : Option (List Token) :=
  if h : i < cs.length then do
    let chars ← slice? cs i (lexemeAt cs i h).2
    let more ← cut? origin cs (lexemeAt cs i h).2
    return ⟨(lexemeAt cs i h).1, String.ofList chars, i, origin⟩ :: more
  else some []
termination_by cs.length - i
decreasing_by
  have := lt_lexemeAt h
  omega

/-- From any position on, the cuts give the lexemes of the text behind it, and none fails. -/
theorem cut?_append (origin : Source) (before rest : List Char) :
    cut? origin (before ++ rest) before.length =
      some (place origin before.length (lexemes rest)) := by
  fun_induction lexemes rest generalizing before with
  | case1 =>
    rw [cut?, dif_neg (by simp)]
    rfl
  | case2 c cs ih =>
    have hlt : before.length < (before ++ c :: cs).length := by simp
    have hmore := ih (before ++ (first c cs).1.chars)
    have hslice := slice?_append before (first c cs).1.chars (first c cs).2
    rw [List.append_assoc, first_append, List.length_append] at hmore
    rw [first_append] at hslice
    rw [cut?, dif_pos hlt]
    simp only [lexemeAt_append, hslice, hmore, Option.bind_eq_bind, Option.bind_some,
      Option.pure_def, place]

section
variable {origin : Source} {index : Nat} {ls : List Lexeme} {t : Token} {front back : List Token}

theorem place_join (origin : Source) (index : Nat) (ls : List Lexeme) :
    (String.join ((place origin index ls).map Token.text)).toList = ls.flatMap Lexeme.chars := by
  induction ls generalizing index with
  | nil => rfl
  | cons l ls ih =>
    rw [place, List.map_cons, String.join_cons, String.toList_append, ih, String.toList_ofList,
      List.flatMap_cons]

theorem le_index_of_mem_place (h : t ∈ place origin index ls) : index ≤ t.index := by
  obtain ⟨front, l, back, -, rfl⟩ := exists_of_mem_place h
  exact Nat.le_add_right ..

/-- Offsets increase from token to token, since no lexeme is empty. -/
theorem place_pairwise (h : ∀ l ∈ ls, l.chars ≠ []) :
    (place origin index ls).Pairwise fun t u => t.index < u.index := by
  induction ls generalizing index with
  | nil => exact .nil
  | cons l ls ih =>
    obtain ⟨hl, hls⟩ := List.forall_mem_cons.mp h
    refine .cons ?_ (ih hls)
    intro u hu
    exact Nat.lt_of_lt_of_le (Nat.lt_add_of_pos_right (List.length_pos_iff.mpr hl))
      (le_index_of_mem_place hu)

/-- A placed token stands behind as many characters as the tokens in front of it have. -/
theorem index_of_place (h : place origin index ls = front ++ t :: back) :
    t.index = index + (front.map fun u => u.text.length).sum := by
  induction front generalizing index ls with
  | nil =>
    cases ls with
    | nil => cases h
    | cons l ls =>
      rw [place] at h
      exact (congrArg Token.index (List.cons.inj h).1).symm
  | cons u front ih =>
    cases ls with
    | nil => cases h
    | cons l ls =>
      rw [place, List.cons_append] at h
      obtain ⟨rfl, hmore⟩ := List.cons.inj h
      rw [ih hmore, List.map_cons, List.sum_cons, String.length_ofList, Nat.add_assoc]

end

end Lexer

theorem Token.sum_length (ts : List Token) :
    (ts.map fun t => t.text.length).sum = (String.join (ts.map Token.text)).length := by
  induction ts with
  | nil => rfl
  | cons t ts ih =>
    rw [List.map_cons, List.sum_cons, List.map_cons, String.join_cons, String.length_append, ih]

namespace Source
variable {s : Source} {t : Token} {front back : List Token}

theorem tokens_join (s : Source) : String.join (s.tokens.map Token.text) = s.text := by
  rw [← String.toList_inj, tokens, Lexer.place_join, Lexer.lexemes_join]

theorem text_ne_of_mem_tokens (h : t ∈ s.tokens) : t.text ≠ "" := by
  obtain ⟨front, l, back, hsplit, rfl⟩ := Lexer.exists_of_mem_place h
  have hchars := Lexer.chars_ne_nil l (hsplit ▸ List.mem_append_cons_self)
  intro htext
  exact hchars (String.ofList_eq_empty_iff.mp htext)

/-- The text around a token: what the tokens in front of it spell, its own text, and what those
behind it spell. -/
theorem text_of_tokens (h : s.tokens = front ++ t :: back) :
    s.text.toList = (String.join (front.map Token.text)).toList ++
      (t.text.toList ++ (String.join (back.map Token.text)).toList) := by
  rw [← tokens_join s, h, List.map_append, List.map_cons, String.join_append, String.join_cons,
    String.toList_append, String.toList_append]

/-- The text of a token begins at its offset. -/
theorem prefix_of_mem_tokens (h : t ∈ s.tokens) : t.text.toList <+: s.text.toList.drop t.index := by
  obtain ⟨front, back, hsplit⟩ := List.append_of_mem h
  have hindex := Lexer.index_of_place hsplit
  rw [Nat.zero_add, Token.sum_length, ← String.length_toList] at hindex
  rw [text_of_tokens hsplit, hindex, List.drop_left]
  exact List.prefix_append ..

/-- The tokens of a text are what a cursor cuts out of it without ever leaving it. None of them is
empty, together they are the text, and each stands behind the characters of those in front. -/
theorem tokens_lossless (s : Source) :
    Lexer.cut? s s.text.toList 0 = some s.tokens ∧
      String.join (s.tokens.map Token.text) = s.text ∧
      (∀ t ∈ s.tokens, t.text ≠ "" ∧ t.index + t.text.length ≤ s.text.length ∧
        (s.text.toList.drop t.index).take t.text.length = t.text.toList) ∧
      (∀ front t back, s.tokens = front ++ t :: back →
        t.index = (front.map fun u => u.text.length).sum) ∧
      (∀ t ∈ s.tokens.head?, t.index = 0) ∧
      s.tokens.Pairwise fun t u => t.index < u.index := by
  refine ⟨Lexer.cut?_append s [] s.text.toList, tokens_join s, ?_, ?_, ?_,
    Lexer.place_pairwise Lexer.chars_ne_nil⟩
  · intro t ht
    have hprefix := prefix_of_mem_tokens ht
    have hlength := hprefix.length_le
    have hlt := index_lt_of_mem_tokens ht
    rw [List.length_drop, String.length_toList, String.length_toList] at hlength
    refine ⟨text_ne_of_mem_tokens ht, by omega, ?_⟩
    rw [← String.length_toList, ← List.prefix_iff_eq_take.mp hprefix]
  · intro front t back h
    exact (Lexer.index_of_place h).trans (Nat.zero_add _)
  · intro t ht
    obtain ⟨back, hback⟩ := List.head?_eq_some_iff.mp ht
    have hfront : s.tokens = [] ++ t :: back := hback
    exact Lexer.index_of_place hfront

theorem tokens_lossless_unended :
    let s : Source := ⟨none, "é '\\"⟩
    let word : Token := ⟨.word, "é", 0, s⟩
    let gap : Token := ⟨.delimiter, " ", 1, s⟩
    let quoted : Token := ⟨.quoted, "'\\", 2, s⟩
    s.tokens = [word, gap, quoted] ∧ Lexer.cut? s s.text.toList 0 = some [word, gap, quoted] ∧
      quoted ∈ s.tokens ∧ (s.text.toList.drop 2).take quoted.text.length = quoted.text.toList ∧
      quoted.index = word.text.length + (gap.text.length + 0) := by
  intro s word gap quoted
  have htokens : s.tokens = [word, gap, quoted] := by cbv
  have hmem : quoted ∈ s.tokens := by rw [htokens]; simp
  obtain ⟨hcut, -, hslices, hindices, -⟩ := tokens_lossless s
  exact ⟨htokens, hcut.trans (congrArg some htokens), hmem, (hslices quoted hmem).2.2,
    hindices [word, gap] quoted [] htokens⟩

end Source
end RuleTree
