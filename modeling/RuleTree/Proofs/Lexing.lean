import Mathlib.Tactic
import RuleTree.Node.Json
import RuleTree.Token.Lexer

/-! The tokens of a text: their lexemes join to the whole of it, and each token stands behind the
lexemes in front of it. -/
namespace RuleTree

/-- A token's kind and text. -/
def Token.lexeme (t : Token) : Lexer.Lexeme := ⟨t.kind, t.text.toList⟩

namespace Lexer

theorem named_of_ofMark? {c : Char} {k : Kind} (h : Kind.ofMark? c = some k) : k ∈ Kind.named := by
  unfold Kind.ofMark? at h
  split at h <;> cases h <;> decide

theorem first_named (c : Char) (cs : List Char) : (first c cs).1.kind ∈ Kind.named := by
  have hdelimiter : Kind.delimiter ∈ Kind.named := by decide
  have hquoted : Kind.quoted ∈ Kind.named := by decide
  have hword : Kind.word ∈ Kind.named := by decide
  unfold first
  split
  · exact hdelimiter
  · split
    next h => exact named_of_ofMark? h
    next =>
      split
      · exact hquoted
      · exact hword

theorem lexemes_join (cs : List Char) : (lexemes cs).flatMap Lexeme.chars = cs := by
  fun_induction lexemes cs with
  | case1 => rfl
  | case2 c cs ih => rw [List.flatMap_cons, ih, first_append]

theorem chars_ne_nil {cs : List Char} : ∀ l ∈ lexemes cs, l.chars ≠ [] := by
  fun_induction lexemes cs with
  | case1 => exact List.forall_mem_nil _
  | case2 c cs ih => exact List.forall_mem_cons.mpr ⟨first_chars_ne_nil c cs, ih⟩

theorem lexemes_named {cs : List Char} : ∀ l ∈ lexemes cs, l.kind ∈ Kind.named := by
  fun_induction lexemes cs with
  | case1 => exact List.forall_mem_nil _
  | case2 c cs ih => exact List.forall_mem_cons.mpr ⟨first_named c cs, ih⟩

section
variable {origin : Source} {index : Nat} {ls : List Lexeme} {t : Token}

/-- A placed token is one of the lexemes, behind the characters of those in front of it. -/
theorem exists_of_mem_place (h : t ∈ place origin index ls) :
    ∃ front l back, ls = front ++ l :: back ∧
      t = ⟨l.kind, String.ofList l.chars, index + (front.flatMap Lexeme.chars).length, origin⟩ := by
  induction ls generalizing index with
  | nil => cases h
  | cons l ls ih =>
    rcases List.mem_cons.mp h with rfl | h
    · exact ⟨[], l, ls, rfl, rfl⟩
    · obtain ⟨front, m, back, rfl, rfl⟩ := ih h
      refine ⟨l :: front, m, back, rfl, ?_⟩
      simp only [List.flatMap_cons, List.length_append, Nat.add_assoc]

theorem place_lexeme (origin : Source) (index : Nat) (ls : List Lexeme) :
    (place origin index ls).map Token.lexeme = ls := by
  induction ls generalizing index with
  | nil => rfl
  | cons l ls ih => rw [place, List.map_cons, ih, Token.lexeme, String.toList_ofList]

/-- What is written of a token does not tell which source it was cut from. -/
theorem place_json (origin origin' : Source) (index : Nat) (ls : List Lexeme) :
    (place origin index ls).map Token.json = (place origin' index ls).map Token.json := by
  induction ls generalizing index with
  | nil => rfl
  | cons l ls ih =>
    rw [place, place, List.map_cons, List.map_cons, ih]
    rfl

end

end Lexer

namespace Source
variable {s s' : Source} {t : Token}

theorem named_of_mem_tokens (h : t ∈ s.tokens) : t.kind ∈ Kind.named := by
  obtain ⟨front, l, back, hsplit, rfl⟩ := Lexer.exists_of_mem_place h
  exact Lexer.lexemes_named l (hsplit ▸ List.mem_append_cons_self)

theorem origin_of_mem_tokens (h : t ∈ s.tokens) : t.origin = s := by
  obtain ⟨front, l, back, -, rfl⟩ := Lexer.exists_of_mem_place h
  rfl

/-- A token begins at a character of the text. -/
theorem index_lt_of_mem_tokens (h : t ∈ s.tokens) : t.index < s.text.length := by
  obtain ⟨front, l, back, hsplit, rfl⟩ := Lexer.exists_of_mem_place h
  have hl : l.chars ≠ [] := Lexer.chars_ne_nil l (hsplit ▸ List.mem_append_cons_self)
  have hpos := List.length_pos_iff.mpr hl
  have hjoin := congrArg List.length (Lexer.lexemes_join s.text.toList)
  rw [hsplit, List.flatMap_append, List.flatMap_cons, List.length_append, List.length_append,
    String.length_toList] at hjoin
  simp only
  omega

theorem tokens_lexeme (s : Source) : s.tokens.map Token.lexeme = Lexer.lexemes s.text.toList :=
  Lexer.place_lexeme ..

/-- Sources of the same text are written as the same tokens, whatever their names. -/
theorem tokens_json (h : s'.text = s.text) : s'.tokens.map Token.json = s.tokens.map Token.json := by
  rw [tokens, tokens, h, Lexer.place_json s' s]

end Source
end RuleTree
