import Mathlib.Data.List.DropRight
import Mathlib.Tactic
import RuleTree.Text.Blank

/-! Trimmed text. Trimming takes white space from both ends, all of it and nothing else. -/
namespace RuleTree.Text

/-- A text with no white space at its ends. -/
structure Trimmed (cs : List Char) : Prop where
  head : ∀ c ∈ cs.head?, isBlank c = false
  last : ∀ c ∈ cs.getLast?, isBlank c = false

section
variable {blanks cs : List Char}

theorem trimEnd_eq_rdropWhile (cs : List Char) : trimEnd cs = cs.rdropWhile isBlank := rfl

theorem exists_of_trimStart (cs : List Char) :
    ∃ blanks, (∀ c ∈ blanks, isBlank c) ∧ cs = blanks ++ trimStart cs :=
  ⟨cs.takeWhile isBlank, List.all_eq_true.mp List.all_takeWhile,
    List.takeWhile_append_dropWhile.symm⟩

theorem exists_of_trimEnd (cs : List Char) :
    ∃ blanks, (∀ c ∈ blanks, isBlank c) ∧ cs = trimEnd cs ++ blanks :=
  ⟨cs.rtakeWhile isBlank, fun _ => List.mem_rtakeWhile_imp,
    List.rdropWhile_append_rtakeWhile.symm⟩

theorem eq_false_of_head?_dropWhile {p : Char → Bool} :
    ∀ c ∈ (cs.dropWhile p).head?, p c = false := by
  intro c hc
  have h := List.head?_dropWhile_not p cs
  rw [Option.mem_def.mp hc] at h
  exact h

theorem head_trimStart (cs : List Char) : ∀ c ∈ (trimStart cs).head?, isBlank c = false :=
  eq_false_of_head?_dropWhile

theorem last_trimEnd (cs : List Char) : ∀ c ∈ (trimEnd cs).getLast?, isBlank c = false := by
  rw [trimEnd, List.getLast?_reverse]
  exact eq_false_of_head?_dropWhile

theorem trimmed_trim (cs : List Char) : Trimmed (trim cs) where
  head c hc := by
    -- what is left of the end begins as the whole does
    obtain ⟨blanks, -, heq⟩ := exists_of_trimEnd (trimStart cs)
    apply head_trimStart cs
    rw [heq, List.head?_append, ← trim, Option.mem_def.mp hc]
    rfl
  last := last_trimEnd (trimStart cs)

/-- A trimmed text is what is left of it behind white space. -/
theorem Trimmed.trim_append (h : Trimmed cs) (hblanks : ∀ c ∈ blanks, isBlank c) :
    trim (blanks ++ cs) = cs := by
  have hstart : trimStart (blanks ++ cs) = cs := by
    rw [trimStart, List.dropWhile_append_of_pos hblanks, List.dropWhile_eq_self_iff]
    intro hpos
    rw [h.head _ (List.head?_eq_getElem? ▸ List.getElem?_eq_getElem hpos)]
    exact Bool.false_ne_true
  rw [trim, hstart, trimEnd_eq_rdropWhile, List.rdropWhile_eq_self_iff]
  intro hne
  rw [h.last _ (List.getLast?_eq_some_getLast hne)]
  exact Bool.false_ne_true

end
end RuleTree.Text
