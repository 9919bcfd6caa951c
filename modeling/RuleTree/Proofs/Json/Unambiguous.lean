import Mathlib.Tactic
import RuleTree.Proofs.Json.Written

/-! Written values are told apart by their texts. The lexemes of a value mark where it ends, whatever
follows them, so two values in one layout have one text only if they are equal. -/
namespace RuleTree.Json

/-- A row of lexemes that begins with that of `a` and one that begins with that of any `b` agree
only if `a` is `b`, and behind it. -/
def Marks {α : Type} (row : α → List Lexeme) (a : α) : Prop :=
  ∀ b front back, row a ++ front = row b ++ back → a = b ∧ front = back

section
variable {α : Type} {row : α → List Lexeme}

theorem intercalate_cons (mark : Lexeme) (first : List Lexeme) (more : List (List Lexeme)) :
    [mark].intercalate (first :: more) = first ++ more.flatMap (mark :: ·) := by
  induction more generalizing first with
  | nil => rw [List.intercalate_singleton, List.flatMap_nil, List.append_nil]
  | cons second more ih =>
    rw [List.intercalate_cons_cons, ih, List.flatMap_cons, List.append_assoc,
      List.singleton_append, List.cons_append]

/-- Entries behind the first, each with a comma in front of it, up to a mark that is no comma. -/
theorem Marks.further {entries : List α} (h : ∀ a ∈ entries, Marks row a) {closer : Lexeme}
    (hcloser : closer ≠ .comma) {entries' : List α} {front back : List Lexeme}
    (heq : (entries.map row).flatMap (Lexeme.comma :: ·) ++ closer :: front =
      (entries'.map row).flatMap (Lexeme.comma :: ·) ++ closer :: back) :
    entries = entries' ∧ front = back := by
  induction entries generalizing entries' with
  | nil =>
    cases entries' with
    | nil => exact ⟨rfl, (List.cons.inj heq).2⟩
    | cons b entries' => exact absurd (List.cons.inj heq).1 hcloser
  | cons a entries ih =>
    cases entries' with
    | nil => exact absurd (List.cons.inj heq).1.symm hcloser
    | cons b entries' =>
      obtain ⟨ha, hmore⟩ := List.forall_mem_cons.mp h
      simp only [List.map_cons, List.flatMap_cons, List.cons_append, List.append_assoc,
        List.cons.injEq, true_and] at heq
      obtain ⟨rfl, hrest⟩ := ha b _ _ heq
      obtain ⟨rfl, hback⟩ := ih hmore hrest
      exact ⟨rfl, hback⟩

/-- Entries with commas between them, up to a mark that no entry begins with. -/
theorem Marks.entries {entries : List α} (h : ∀ a ∈ entries, Marks row a) {closer : Lexeme}
    (hcloser : closer ≠ .comma) (hrow : ∀ a, ∃ l ls, row a = l :: ls ∧ l ≠ closer)
    {entries' : List α} {front back : List Lexeme}
    (heq : [Lexeme.comma].intercalate (entries.map row) ++ closer :: front =
      [Lexeme.comma].intercalate (entries'.map row) ++ closer :: back) :
    entries = entries' ∧ front = back := by
  cases entries with
  | nil =>
    cases entries' with
    | nil => exact ⟨rfl, (List.cons.inj heq).2⟩
    | cons b entries' =>
      obtain ⟨l, ls, hl, hne⟩ := hrow b
      rw [List.map_cons, intercalate_cons, hl] at heq
      exact absurd (List.cons.inj heq).1.symm hne
  | cons a entries =>
    cases entries' with
    | nil =>
      obtain ⟨l, ls, hl, hne⟩ := hrow a
      rw [List.map_cons, intercalate_cons, hl] at heq
      exact absurd (List.cons.inj heq).1 hne
    | cons b entries' =>
      obtain ⟨ha, hmore⟩ := List.forall_mem_cons.mp h
      rw [List.map_cons, List.map_cons, intercalate_cons, intercalate_cons, List.append_assoc,
        List.append_assoc] at heq
      obtain ⟨rfl, hrest⟩ := ha b _ _ heq
      obtain ⟨rfl, hback⟩ := Marks.further hmore hcloser hrest
      exact ⟨rfl, hback⟩

end

/-- The lexemes of a record's field. -/
def fieldSpelling (field : String × Json) : List Lexeme :=
  .text (.ok field.1) (.ok ()) :: .colon :: field.2.spelling

theorem spellingItems_eq (items : List Json) : spellingItems items = items.map spelling := by
  induction items with
  | nil => rfl
  | cons item items ih => rw [spellingItems, ih, List.map_cons]

theorem spellingFields_eq (fields : List (String × Json)) :
    spellingFields fields = fields.map fieldSpelling := by
  induction fields with
  | nil => rfl
  | cons field fields ih => rw [spellingFields, ih, List.map_cons, fieldSpelling]

theorem spelling_list (items : List Json) : (Json.list items).spelling =
    .openList :: ([Lexeme.comma].intercalate (items.map spelling) ++ [.closeList]) := by
  rw [spelling, spellingItems_eq, List.cons_append]

theorem spelling_record (fields : List (String × Json)) : (Json.record fields).spelling =
    .openRecord :: ([Lexeme.comma].intercalate (fields.map fieldSpelling) ++ [.closeRecord]) := by
  rw [spelling, spellingFields_eq, List.cons_append]

/-- No value begins with a closing bracket. -/
theorem exists_spelling_cons (j : Json) : ∃ l ls, j.spelling = l :: ls ∧ l ≠ .closeList := by
  cases j with
  | number n => exact ⟨_, _, rfl, nofun⟩
  | text s => exact ⟨_, _, rfl, nofun⟩
  | list items => exact ⟨_, _, spelling_list items, nofun⟩
  | record fields => exact ⟨_, _, spelling_record fields, nofun⟩

theorem toDigits_inj {m n : Nat} (h : Nat.toDigits 10 m = Nat.toDigits 10 n) : m = n :=
  calc
    m = Nat.ofDigitChars 10 (Nat.toDigits 10 m) 0 :=
      (Nat.ofDigitChars_toDigits (by decide) (by decide)).symm
    _ = Nat.ofDigitChars 10 (Nat.toDigits 10 n) 0 := by rw [h]
    _ = n := Nat.ofDigitChars_toDigits (by decide) (by decide)

theorem marks_number (n : Nat) : Marks spelling (.number n) := by
  intro j front back h
  cases j with
  | number m =>
    obtain ⟨hnumber, hback⟩ := List.cons.inj h
    simp only [Lexeme.number.injEq, Except.ok.injEq, Numeral.ofNat, Numeral.mk.injEq] at hnumber
    exact ⟨congrArg number (toDigits_inj hnumber.2.1), hback⟩
  | text s => cases (List.cons.inj h).1
  | list items => cases (List.cons.inj h).1
  | record fields => cases (List.cons.inj h).1

theorem marks_text (s : String) : Marks spelling (.text s) := by
  intro j front back h
  cases j with
  | text s' =>
    obtain ⟨htext, hback⟩ := List.cons.inj h
    cases htext
    exact ⟨rfl, hback⟩
  | number n => cases (List.cons.inj h).1
  | list items => cases (List.cons.inj h).1
  | record fields => cases (List.cons.inj h).1

theorem Marks.field {field : String × Json} (h : Marks spelling field.2) :
    Marks fieldSpelling field := by
  intro field' front back heq
  obtain ⟨key, value⟩ := field
  obtain ⟨key', value'⟩ := field'
  simp only [fieldSpelling, List.cons_append, List.cons.injEq, Lexeme.text.injEq, Except.ok.injEq,
    and_true, true_and] at heq
  obtain ⟨rfl, heq⟩ := heq
  obtain ⟨rfl, hback⟩ := h value' front back heq
  exact ⟨rfl, hback⟩

theorem Marks.list {items : List Json} (h : ∀ item ∈ items, Marks spelling item) :
    Marks spelling (.list items) := by
  intro j front back heq
  rw [spelling_list] at heq
  cases j with
  | list items' =>
    rw [spelling_list, List.cons_append, List.cons_append, List.append_assoc, List.append_assoc]
      at heq
    have hcloser : Lexeme.closeList ≠ .comma := nofun
    obtain ⟨rfl, hback⟩ := Marks.entries h hcloser exists_spelling_cons (List.cons.inj heq).2
    exact ⟨rfl, hback⟩
  | number n => cases (List.cons.inj heq).1
  | text s => cases (List.cons.inj heq).1
  | record fields => cases (List.cons.inj heq).1

theorem Marks.record {fields : List (String × Json)}
    (h : ∀ field ∈ fields, Marks spelling field.2) : Marks spelling (.record fields) := by
  intro j front back heq
  rw [spelling_record] at heq
  cases j with
  | record fields' =>
    rw [spelling_record, List.cons_append, List.cons_append, List.append_assoc,
      List.append_assoc] at heq
    have hcloser : Lexeme.closeRecord ≠ .comma := nofun
    have hfields : ∀ field ∈ fields, Marks fieldSpelling field := fun field hf => (h field hf).field
    obtain ⟨rfl, hback⟩ := Marks.entries hfields hcloser (fun _ => ⟨_, _, rfl, nofun⟩)
      (List.cons.inj heq).2
    exact ⟨rfl, hback⟩
  | number n => cases (List.cons.inj heq).1
  | text s => cases (List.cons.inj heq).1
  | list items => cases (List.cons.inj heq).1

mutual

/-- The lexemes of a value tell which value it is and where it ends. -/
theorem marks_spelling : ∀ j : Json, Marks spelling j
  | .number n => marks_number n
  | .text s => marks_text s
  | .list items => .list (marks_items items)
  | .record fields => .record (marks_fields fields)

theorem marks_items : ∀ items : List Json, ∀ item ∈ items, Marks spelling item
  | [] => List.forall_mem_nil _
  | item :: items => List.forall_mem_cons.mpr ⟨marks_spelling item, marks_items items⟩

theorem marks_fields : ∀ fields : List (String × Json), ∀ field ∈ fields, Marks spelling field.2
  | [] => List.forall_mem_nil _
  | (_, value) :: fields => List.forall_mem_cons.mpr ⟨marks_spelling value, marks_fields fields⟩

end

/-- Values that are written alike in one layout are equal. -/
theorem render_injective {l : Layout} (hl : l.Blank) : Function.Injective (render l) := by
  intro j j' h
  have hspelling : j.spelling ++ [] = j'.spelling ++ [] := by
    rw [← lexemes_render hl j, ← lexemes_render hl j', h]
  exact (marks_spelling j j' [] [] hspelling).1

end RuleTree.Json
