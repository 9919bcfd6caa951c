import Mathlib.Tactic
import RuleTree.Proofs.Json.Atoms

/-! Written values as lexemes. The layout of a value only puts gaps between its lexemes, so a text in
any layout is read as one and the same row of them. -/
namespace RuleTree
namespace Json

mutual

/-- The lexemes that a value is written with. -/
def spelling : Json → List Lexeme
  | .number n => [.number (.ok (.ofNat n))]
  | .text s => [.text (.ok s) (.ok ())]
  | .list items => .openList :: [Lexeme.comma].intercalate (spellingItems items) ++ [.closeList]
  | .record fields =>
    .openRecord :: [Lexeme.comma].intercalate (spellingFields fields) ++ [.closeRecord]

def spellingItems : List Json → List (List Lexeme)
  | [] => []
  | item :: items => item.spelling :: spellingItems items

def spellingFields : List (String × Json) → List (List Lexeme)
  | [] => []
  | (key, value) :: fields =>
    (.text (.ok key) (.ok ()) :: .colon :: value.spelling) :: spellingFields fields

end

/-- A layout that puts nothing but gaps between lexemes. -/
structure Layout.Blank (l : Layout) : Prop where
  line : ∀ level, Gap (l.line level)
  gap : Gap l.gap

theorem Layout.compact_blank : Layout.compact.Blank where
  line _ := by simp [compact, Gap]
  gap := by simp [compact, Gap]

theorem Layout.pretty_blank : Layout.pretty.Blank where
  line _ := by simp [pretty, Gap, Lexeme.isGap]
  gap := by simp [pretty, Gap, Lexeme.isGap]

/-- Behind the first of several entries stands a comma. -/
theorem intercalate_append (entry e : List Char) (es : List (List Char)) (rest : List Char) :
    [','].intercalate (entry :: e :: es) ++ rest =
      entry ++ ',' :: ([','].intercalate (e :: es) ++ rest) := by
  rw [List.intercalate_cons_cons, List.append_assoc, List.append_assoc, List.singleton_append]

/-- The blanks in front of items, and those behind the last, belong to entries. -/
theorem exists_entries {front back : List Char} (hfront : Gap front) (hback : Gap back)
    {items : List (List Char)} (hne : items ≠ []) :
    ∃ entries, front ++ ((',' :: front).intercalate items ++ back) = [','].intercalate entries ∧
      List.Forall₂ (fun item => Padded (· = item)) items entries := by
  induction items with
  | nil => exact absurd rfl hne
  | cons item items ih =>
    cases items with
    | nil =>
      refine ⟨[front ++ (item ++ back)], ?_, .cons (.intro hfront rfl hback) .nil⟩
      rw [List.intercalate_singleton, List.intercalate_singleton]
    | cons item' items =>
      obtain ⟨_ | ⟨e, es⟩, heq, hmore⟩ := ih (List.cons_ne_nil _ _)
      · cases hmore
      have hnil : Gap [] := by decide
      refine ⟨(front ++ (item ++ [])) :: e :: es, ?_, .cons (.intro hfront rfl hnil) hmore⟩
      rw [List.intercalate_cons_cons, List.intercalate_cons_cons, ← heq]
      simp only [List.append_assoc, List.cons_append, List.nil_append]

theorem Layout.Blank.exists_enclose {l : Layout} (hl : l.Blank) (level : Nat) (b : Bracket)
    {items : List (List Char)} (hne : items ≠ []) :
    ∃ entries, l.enclose level b.opener b.closer items = b.enclose entries ∧
      List.Forall₂ (fun item => Padded (· = item)) items entries := by
  obtain ⟨entries, heq, hentries⟩ := exists_entries (hl.line (level + 1)) (hl.line level) hne
  refine ⟨entries, ?_, hentries⟩
  rw [Layout.enclose, Bracket.enclose, ← heq]
  · simp only [List.append_assoc, List.cons_append]
  · exact hne

/-- The text is read as the lexemes, in front of anything that no number goes on with. -/
def ScansAs (text : List Char) (ls : List Lexeme) : Prop :=
  ∀ rest, Ended rest → lexemes (text ++ rest) = ls ++ lexemes rest

section
variable {c : Char} {cs rest : List Char} {l : Lexeme}

theorem lexemes_nil : lexemes [] = [] := by rw [lexemes]

theorem lexemes_gap (hg : Gap cs) (rest : List Char) : lexemes (cs ++ rest) = lexemes rest := by
  induction cs with
  | nil => rfl
  | cons c cs ih =>
    obtain ⟨hc, hcs⟩ := List.forall_mem_cons.mp hg
    rw [List.cons_append, lexemes, if_pos hc, ih hcs]

theorem lexemes_cons (hgap : Lexeme.isGap c = false) (h : Lexeme.first c cs = (l, some rest)) :
    lexemes (c :: cs) = l :: lexemes rest := by
  rw [lexemes]
  simp only [hgap, Bool.false_eq_true, if_false]
  split
  next hnone => simp [h] at hnone
  next hsome =>
    simp only [h, Option.some.injEq] at hsome
    rw [h, hsome]

theorem isGap_of_ofMark? (h : Lexeme.ofMark? c = some l) : Lexeme.isGap c = false := by
  unfold Lexeme.ofMark? at h
  split at h <;> first | rfl | cases h

theorem lexemes_mark (h : Lexeme.ofMark? c = some l) (rest : List Char) :
    lexemes (c :: rest) = l :: lexemes rest := by
  apply lexemes_cons (isGap_of_ofMark? h)
  simp only [Lexeme.first, h]

/-- Behind a quote, a text is taken up to its closing quote, whether its codes all stand for
characters or not. -/
theorem lexemes_inQuotes (h : InQuotes cs) (rest : List Char) :
    ∃ exact, lexemes ('"' :: (cs ++ '"' :: rest)) = .text exact (.ok ()) :: lexemes rest := by
  obtain ⟨chars, hread⟩ := h.readQuoted rest
  have hmark : Lexeme.ofMark? '"' = none := rfl
  refine ⟨(readQuoted true (cs ++ '"' :: rest)).map fun r => String.ofList r.1, ?_⟩
  apply lexemes_cons rfl
  simp only [Lexeme.first, hmark, if_true, hread]

theorem lexemes_quotes {s : String} (h : Quotes s cs) (rest : List Char) :
    lexemes (cs ++ rest) = .text (.ok s) (.ok ()) :: lexemes rest := by
  obtain ⟨h⟩ := h
  obtain ⟨chars, hclosed⟩ := h.inQuotes.readQuoted rest
  have hmark : Lexeme.ofMark? '"' = none := rfl
  rw [List.cons_append, List.append_assoc, List.singleton_append]
  apply lexemes_cons rfl
  simp only [Lexeme.first, hmark, if_true, h.readQuoted, hclosed, Except.map, String.ofList_toList]

theorem lexemes_name {known : String} (h : known ∈ ["null", "true", "false"]) (rest : List Char) :
    lexemes (known.toList ++ rest) = .name (.ok known) :: lexemes rest := by
  simp only [List.mem_cons, List.not_mem_nil, or_false] at h
  rcases h with rfl | rfl | rfl <;> exact lexemes_cons rfl rfl

/-- What may stand in front of a number begins no other lexeme. -/
theorem lexemes_numeral {n : Numeral} (hc : (c == '-' || c.isDigit) = true)
    (h : readNumeral (c :: cs) = .ok (n, rest)) :
    lexemes (c :: cs) = .number (.ok n) :: lexemes rest := by
  have hmark : Lexeme.ofMark? c = none := by
    unfold Lexeme.ofMark?
    split <;> first | rfl | cases hc
  have hgap : Lexeme.isGap c = false := by
    simp only [Lexeme.isGap, Bool.or_eq_false_iff, beq_eq_false_iff_ne]
    refine ⟨⟨⟨?_, ?_⟩, ?_⟩, ?_⟩ <;> (rintro rfl; cases hc)
  have hquote : c ≠ '"' := by
    rintro rfl
    cases hc
  apply lexemes_cons hgap
  simp only [Lexeme.first, hmark, hquote, if_false]
  rw [if_pos (by simpa using hc), h]

theorem Digits.exists_cons (h : Digits cs) :
    ∃ d ds, cs = d :: ds ∧ (d == '-' || d.isDigit) = true := by
  cases cs with
  | nil => exact absurd rfl h.ne_nil
  | cons d ds => exact ⟨d, ds, rfl, by simp [h.all d List.mem_cons_self]⟩

theorem lexemes_toDigits (n : Nat) (hrest : Ended rest) :
    lexemes (Nat.toDigits 10 n ++ rest) = .number (.ok (.ofNat n)) :: lexemes rest := by
  have hread := readNumeral_toDigits n hrest
  obtain ⟨d, ds, hd, hdigit⟩ := (whole_toDigits n).toDigits.exists_cons
  rw [hd] at hread ⊢
  exact lexemes_numeral hdigit hread

theorem lexemes_number (h : IsNumber cs) (hrest : Ended rest) :
    ∃ n, lexemes (cs ++ rest) = .number (.ok n) :: lexemes rest := by
  obtain ⟨n, hread⟩ := h.read hrest
  refine ⟨n, ?_⟩
  obtain ⟨hsign, hwhole, -, -⟩ := h
  obtain ⟨d, ds, rfl, hdigit⟩ := hwhole.toDigits.exists_cons
  simp only [List.mem_cons, List.not_mem_nil, or_false] at hsign
  rcases hsign with rfl | rfl
  · exact lexemes_numeral hdigit hread
  · exact lexemes_numeral rfl hread

end

section
variable {text text' : List Char} {ls ms : List Lexeme} {c : Char} {l : Lexeme}

/-- A mark or a gap in front of what ends a number ends it too. -/
theorem ended_mark (h : Lexeme.ofMark? c = some l) (cs : List Char) : Ended (c :: cs) := by
  intro d hd
  obtain rfl : c = d := by simpa using hd
  unfold Lexeme.ofMark? at h
  split at h <;> first | decide | cases h

theorem ended_gap (hg : Gap text) {rest : List Char} (hrest : Ended rest) :
    Ended (text ++ rest) := by
  cases text with
  | nil => exact hrest
  | cons c cs =>
    intro d hd
    obtain rfl : c = d := by simpa using hd
    have hc : Lexeme.isGap c := hg c List.mem_cons_self
    simp only [Lexeme.isGap, Bool.or_eq_true, beq_iff_eq] at hc
    rcases hc with ((rfl | rfl) | rfl) | rfl <;> decide

theorem ScansAs.append (h : ScansAs text ls) (h' : ScansAs text' ms)
    (hended : ∀ rest, Ended rest → Ended (text' ++ rest)) :
    ScansAs (text ++ text') (ls ++ ms) := by
  intro rest hrest
  rw [List.append_assoc, h _ (hended rest hrest), h' rest hrest, List.append_assoc]

theorem ScansAs.mark (h : Lexeme.ofMark? c = some l) (ht : ScansAs text ls) :
    ScansAs (c :: text) (l :: ls) := by
  intro rest hrest
  rw [List.cons_append, lexemes_mark h, ht rest hrest, List.cons_append]

theorem ScansAs.gap (hg : Gap text) (ht : ScansAs text' ls) : ScansAs (text ++ text') ls := by
  intro rest hrest
  rw [List.append_assoc, lexemes_gap hg, ht rest hrest]

theorem ScansAs.nil : ScansAs [] [] := fun _ _ => rfl

end

section
variable {l : Layout}

/-- Items with commas between them. -/
theorem scansAs_intercalate {gap : List Char} (hg : Gap gap) {texts : List (List Char)}
    {lss : List (List Lexeme)} (h : List.Forall₂ ScansAs texts lss) :
    ScansAs ((',' :: gap).intercalate texts) ([Lexeme.comma].intercalate lss) := by
  induction h with
  | nil => exact .nil
  | @cons text ls texts lss htext hmore ih =>
    cases hmore with
    | nil => simpa only [List.intercalate_singleton] using htext
    | @cons text' ls' texts lss htext' hmore =>
      rw [List.intercalate_cons_cons, List.intercalate_cons_cons, List.append_assoc,
        List.append_assoc, List.cons_append, List.singleton_append]
      exact htext.append (.mark rfl (.gap hg ih)) fun _ _ => ended_mark rfl _

theorem scansAs_enclose (hl : l.Blank) (level : Nat) {opener closer : Char} {o c : Lexeme}
    (ho : Lexeme.ofMark? opener = some o) (hc : Lexeme.ofMark? closer = some c)
    {texts : List (List Char)} {lss : List (List Lexeme)} (h : List.Forall₂ ScansAs texts lss) :
    ScansAs (l.enclose level opener closer texts)
      (o :: [Lexeme.comma].intercalate lss ++ [c]) := by
  have hclose : ScansAs [closer] [c] := .mark hc .nil
  have hitems := scansAs_intercalate (hl.line (level + 1)) h
  cases h with
  | nil => exact .mark ho hclose
  | @cons text ls texts lss htext hmore =>
    rw [Layout.enclose, List.append_assoc, List.append_assoc, List.cons_append, List.cons_append]
    · refine .mark ho (.gap (hl.line _) (hitems.append (.gap (hl.line _) hclose) ?_))
      intro rest hrest
      rw [List.append_assoc]
      exact ended_gap (hl.line _) (ended_mark hc _)
    · exact fun h => nomatch h

mutual

/-- A written value is read as the lexemes that spell it, whatever the layout. -/
theorem scansAs_write (hl : l.Blank) (level : Nat) :
    ∀ j : Json, ScansAs (write l level j) j.spelling
  | .number n => fun rest hrest => lexemes_toDigits n hrest
  | .text s => fun rest _ => lexemes_quotes (quotes_quote s) rest
  | .list items => by
    rw [write, spelling]
    exact scansAs_enclose hl level rfl rfl (scansAs_writeItems hl (level + 1) items)
  | .record fields => by
    rw [write, spelling]
    exact scansAs_enclose hl level rfl rfl (scansAs_writeFields hl (level + 1) fields)

theorem scansAs_writeItems (hl : l.Blank) (level : Nat) :
    ∀ items : List Json, List.Forall₂ ScansAs (writeItems l level items) (spellingItems items)
  | [] => .nil
  | item :: items => .cons (scansAs_write hl level item) (scansAs_writeItems hl level items)

theorem scansAs_writeFields (hl : l.Blank) (level : Nat) :
    ∀ fields : List (String × Json),
      List.Forall₂ ScansAs (writeFields l level fields) (spellingFields fields)
  | [] => .nil
  | (key, value) :: fields => by
    have hvalue := scansAs_write hl level value
    have hcolon : Lexeme.ofMark? ':' = some .colon := rfl
    refine .cons ?_ (scansAs_writeFields hl level fields)
    intro rest hrest
    simp only [List.append_assoc, List.cons_append, List.nil_append,
      lexemes_quotes (quotes_quote key), lexemes_mark hcolon, lexemes_gap hl.gap, hvalue rest hrest]

end

theorem lexemes_render (hl : l.Blank) (j : Json) : lexemes (render l j).toList = j.spelling := by
  have h := scansAs_write hl 0 j [] .nil
  rwa [List.append_nil, lexemes_nil, List.append_nil, ← String.toList_ofList (l := write l 0 j)] at h

end

end Json
end RuleTree
