import Mathlib
import RuleTree.Proofs.Placement
import RuleTree.Token.Lexer

/-! What statements leave out. Besides delimiters and its semicolon a statement loses one token at
most, the separator behind its property. That token is skipped by its place: nothing asks whether it
is a colon. -/
namespace RuleTree
open Braces

/-- Those tokens of a statement's span that are no delimiters are its property, then a separator of
which `allowed` holds or none, then its value and then a semicolon. -/
def Node.LosesOnly (allowed : Token → Prop) (ts : List Token) : Node → Prop
  | .statement property value s => ∃ (first last : Token) (separator : Option Token),
      Scan.significant (s.tokens ts) = first :: (separator.toList ++ value ++ [last]) ∧
        property = first.text ∧ last.isSemicolon ∧ ∀ t ∈ separator, allowed t
  | .block .. => True
  | .atRule .. => True

/-- A token that may stand inside a segment. -/
def Token.MaySeparate (t : Token) : Prop :=
  t.isDelimiter = false ∧ t.isSemicolon = false ∧ t.isBraceOpen = false

theorem maySeparate_of_mem {body : List Token} {last t : Token} (hf : Flat (body ++ [last]))
    (he : Ends body last) (ht : t ∈ Scan.significant body) : t.MaySeparate := by
  obtain ⟨hmem, hd⟩ := List.mem_filter.mp ht
  refine ⟨by simpa using hd, he.free t hmem, hf t ?_⟩
  exact List.mem_append_left _ hmem

theorem losesOnly_statement {ts body value : List Token} {property last : Token} {start : Nat}
    (hw : Span.tokens ⟨start, start + (body.length + 1)⟩ ts = body ++ [last])
    (hf : Flat (body ++ [last])) (he : Ends body last)
    (hs : Scan.significant body = property :: value) :
    (Node.statement property.text (value.drop 1)
      ⟨start, start + (body.length + 1)⟩).LosesOnly Token.MaySeparate ts := by
  have hsplit : value.head?.toList ++ value.drop 1 = value := by
    cases value <;> rfl
  refine ⟨property, last, value.head?, ?_, rfl, he.last, ?_⟩
  · rw [hw, Scan.significant_append, Scan.significant_singleton he.last, hs, hsplit,
      List.cons_append]
  · intro t ht
    apply maySeparate_of_mem hf he
    rw [hs]
    exact List.mem_cons_of_mem _ (List.mem_of_mem_head? ht)

theorem Placed.losesOnly {ts : List Token} {start stop : Nat} {nodes : List Node}
    (h : Placed ts start stop nodes) :
    ∀ n ∈ Node.preorderAll nodes, n.LosesOnly Token.MaySeparate ts := by
  intro n hn
  obtain ⟨first, last, more, hplaced⟩ := h.exists_head n hn
  cases hplaced with
  | atRule => trivial
  | statement hw hf he hb hs => exact losesOnly_statement hw hf he hs
  | block => trivial

/-- No statement of a parse loses more than delimiters, its semicolon and the one token behind its
property that counts. -/
theorem parse_losesOnly (config : Config) (ts : List Token) (nodes : List Node)
    (h : (parse config ts).result = .ok nodes) :
    ∀ n ∈ Node.preorderAll nodes, n.LosesOnly Token.MaySeparate ts :=
  (placed_of_parse h).losesOnly

theorem parse_losesOnly_nested :
    ∃ nodes, (parse {} (Source.tokens ⟨none, "a\x7b b : c d;e;\x7d ( ) f;"⟩)).result = .ok nodes ∧
      ∀ n ∈ Node.preorderAll nodes,
        n.LosesOnly Token.MaySeparate (Source.tokens ⟨none, "a\x7b b : c d;e;\x7d ( ) f;"⟩) := by
  have h : (parse {} (Source.tokens ⟨none, "a\x7b b : c d;e;\x7d ( ) f;"⟩)).result =
      .ok [.block (.selectors ["a"])
        [.statement "b"
          [⟨.word, "c", 7, ⟨none, "a\x7b b : c d;e;\x7d ( ) f;"⟩⟩,
            ⟨.word, "d", 9, ⟨none, "a\x7b b : c d;e;\x7d ( ) f;"⟩⟩] ⟨2, 11⟩,
          .statement "e" [] ⟨11, 13⟩] ⟨0, 14⟩,
        .statement "(" [⟨.word, "f", 19, ⟨none, "a\x7b b : c d;e;\x7d ( ) f;"⟩⟩] ⟨14, 21⟩] := by
    cbv
  exact ⟨_, h, parse_losesOnly _ _ _ h⟩

/-- A statement loses the first token of its value where no colon stands in front of that. -/
theorem parse_loses_word :
    ∃ nodes, (parse {} (Source.tokens ⟨none, "color red;"⟩)).result = .ok nodes ∧
      ∃ n ∈ Node.preorderAll nodes, n.isStatement ∧
        ¬ n.LosesOnly (fun t => t.kind = .colon) (Source.tokens ⟨none, "color red;"⟩) := by
  have h : (parse {} (Source.tokens ⟨none, "color red;"⟩)).result =
      .ok [.statement "color" [] ⟨0, 4⟩] := by cbv
  have hw : Scan.significant (Span.tokens ⟨0, 4⟩ (Source.tokens ⟨none, "color red;"⟩)) =
      [⟨.word, "color", 0, ⟨none, "color red;"⟩⟩, ⟨.word, "red", 6, ⟨none, "color red;"⟩⟩,
        ⟨.semicolon, ";", 9, ⟨none, "color red;"⟩⟩] := by cbv
  refine ⟨_, h, _, List.mem_cons_self, rfl, ?_⟩
  rintro ⟨first, last, separator, htokens, -, -, hcolon⟩
  rw [hw] at htokens
  -- between the property and the semicolon only the separator is left for the word
  cases separator with
  | none => cases htokens
  | some t =>
    have hkind := hcolon t rfl
    cases htokens
    cases hkind

end RuleTree
