import Mathlib
import RuleTree.Proofs.Braces
import RuleTree.Proofs.Trimming
import RuleTree.Selectors

/-! Selectors part by part. A header without an at-sign in front has one selector for each part
between its commas, and each is the trimmed text of that part alone. -/
namespace RuleTree

/-- Tokens of one kind with one text, or two delimiters, or two commas. -/
structure Token.Respelled (t u : Token) : Prop where
  kind : t.kind = u.kind
  text : t.kind ≠ .delimiter → t.kind ≠ .comma → t.text = u.text

namespace Token.Respelled
variable {t u : Token}

theorem isComma_eq (h : t.Respelled u) : t.isComma = u.isComma :=
  congrArg (· == Kind.comma) h.kind

theorem isAtSign_eq (h : t.Respelled u) : t.isAtSign = u.isAtSign :=
  congrArg (· == Kind.atSign) h.kind

end Token.Respelled

namespace Selectors
open Text

/-- The characters of tokens in a row, each delimiter as one space whatever its text is. -/
def spoken (ts : List Token) : List Char :=
  ts.flatMap fun t => if t.kind = .delimiter then [' '] else t.text.toList

/-- The selector that one part of a header makes. -/
def textOf (part : List Token) : String := String.ofList (trim (spoken part))

/-- What the part says is `s` with white space around it, and `s` itself has none at its ends. -/
structure Reads (part : List Token) (s : String) : Prop where
  trimmed : Trimmed s.toList
  within : ∃ front back, spoken part = front ++ s.toList ++ back ∧ (∀ c ∈ front, isBlank c) ∧
    ∀ c ∈ back, isBlank c

/-- The selectors of a header: those of the parts between its commas, one by one. Behind a further
comma the selectors of what follows it are added. -/
structure Splits (ts : List Token) (selectors : List String) : Prop where
  parts : selectors = (ts.splitOnP Token.isComma).map textOf
  reads : List.Forall₂ Reads (ts.splitOnP Token.isComma) selectors
  length : selectors.length = ts.countP Token.isComma + 1
  trimmed : ∀ s ∈ selectors, Trimmed s.toList
  /-- The texts of commas and delimiters do not count. -/
  respelled : ∀ us, List.Forall₂ Token.Respelled ts us → ofTokens? us = some selectors
  followed : ∀ comma us, comma.isComma → (∀ t ∈ us.head?, t.isAtSign = false) →
    ∃ more, ofTokens? us = some more ∧ ofTokens? (ts ++ comma :: us) = some (selectors ++ more)

theorem reads_textOf (part : List Token) : Reads part (textOf part) := by
  obtain ⟨front, hfront, hstart⟩ := exists_of_trimStart (spoken part)
  obtain ⟨back, hback, hend⟩ := exists_of_trimEnd (trimStart (spoken part))
  constructor
  · rw [textOf, String.toList_ofList]
    exact trimmed_trim (spoken part)
  · refine ⟨front, back, ?_, hfront, hback⟩
    rw [textOf, String.toList_ofList, trim, List.append_assoc, ← hend, ← hstart]

section
variable {ts us : List Token}

theorem spoken_concat (ts : List Token) (t : Token) :
    spoken (ts ++ [t]) = spoken ts ++ piece t := by
  simp [spoken, piece, Token.isDelimiter]

/-- `front` holds the tokens read since the last comma, in reverse. -/
theorem collect_eq_map (front ts : List Token) :
    collect (spoken front.reverse) ts =
      (List.splitOnPPrepend Token.isComma ts front).map textOf := by
  induction ts generalizing front with
  | nil => rfl
  | cons t ts ih =>
    by_cases ht : t.isComma
    · rw [collect, if_pos ht, List.splitOnPPrepend_cons_pos ht, List.map_cons,
        ← List.splitOnPPrepend_nil_right, ← ih []]
      rfl
    · rw [collect, if_neg ht, List.splitOnPPrepend_cons_neg (Bool.eq_false_of_not_eq_true ht),
        ← ih (t :: front), List.reverse_cons, spoken_concat]

theorem collect_eq_splitOnP (ts : List Token) :
    collect [] ts = (ts.splitOnP Token.isComma).map textOf :=
  collect_eq_map [] ts

theorem piece_eq_of_respelled {t u : Token} (h : t.Respelled u) (ht : ¬ t.isComma) :
    piece t = piece u := by
  have hkind : t.isDelimiter = u.isDelimiter := congrArg (· == Kind.delimiter) h.kind
  by_cases hd : t.isDelimiter
  · rw [piece, piece, if_pos hd, if_pos (hkind ▸ hd)]
  · rw [piece, piece, if_neg hd, if_neg (hkind ▸ hd), h.text (mt beq_iff_eq.mpr hd)
      (mt beq_iff_eq.mpr ht)]

theorem collect_eq_of_respelled (h : List.Forall₂ Token.Respelled ts us) (current : List Char) :
    collect current ts = collect current us := by
  induction h generalizing current with
  | nil => rfl
  | @cons t u ts us htu _ ih =>
    rw [collect, collect, ← htu.isComma_eq, ih]
    split
    next => rfl
    next ht => rw [piece_eq_of_respelled htu ht, ih]

theorem splits_of_head (h : ∀ t ∈ ts.head?, t.isAtSign = false) :
    Splits ts ((ts.splitOnP Token.isComma).map textOf) where
  parts := rfl
  reads := by
    rw [List.forall₂_map_right_iff, List.forall₂_same]
    exact fun part _ => reads_textOf part
  length := by rw [← collect_eq_splitOnP, length_collect]
  trimmed := List.forall_mem_map.mpr fun part _ => (reads_textOf part).trimmed
  respelled us hus := by
    have hhead : ∀ u ∈ us.head?, u.isAtSign = false := by
      cases hus with
      | nil => exact h
      | cons htu =>
        rintro u ⟨rfl⟩
        rw [← htu.isAtSign_eq]
        exact h _ rfl
    rw [ofTokens?_of_head hhead, ← collect_eq_of_respelled hus, collect_eq_splitOnP]
  followed comma us hcomma hus := by
    have hhead : ∀ t ∈ (ts ++ comma :: us).head?, t.isAtSign = false := by
      cases ts with
      | nil =>
        rintro t ⟨rfl⟩
        exact Token.kind_beq_of_ne hcomma (by decide)
      | cons => exact h
    refine ⟨_, ofTokens?_of_head hus, ?_⟩
    rw [ofTokens?_of_head hhead, collect_eq_splitOnP, collect_eq_splitOnP,
      List.splitOnP_append_cons ts us hcomma, List.map_append]

end

/-- A header that does not begin with an at-sign is split at its commas, and the text of each part
is trimmed. -/
theorem ofTokens?_splits (ts : List Token) (h : ∀ t ∈ ts.head?, t.isAtSign = false) :
    ∃ selectors, ofTokens? ts = some selectors ∧ Splits ts selectors := by
  refine ⟨_, ?_, splits_of_head h⟩
  rw [ofTokens?_of_head h, collect_eq_splitOnP]

theorem ofTokens?_splits_spaced :
    let s : Source := ⟨none, ""⟩
    let ts : List Token := [⟨.comma, "@", 0, s⟩, ⟨.delimiter, "\n\t", 1, s⟩,
      ⟨.word, "\u3000a,b ", 3, s⟩, ⟨.delimiter, "x", 7, s⟩, ⟨.atSign, "c ", 8, s⟩,
      ⟨.comma, ",", 10, s⟩, ⟨.delimiter, "", 11, s⟩]
    (∀ t ∈ ts.head?, t.isAtSign = false) ∧ ofTokens? ts = some ["", "a,b  c", ""] ∧
      Splits ts ["", "a,b  c", ""] := by
  intro s ts
  have hhead : ∀ t ∈ ts.head?, t.isAtSign = false := by
    rintro t ⟨rfl⟩
    rfl
  have hselectors : ofTokens? ts = some ["", "a,b  c", ""] := by cbv
  obtain ⟨selectors, hs, hsplits⟩ := ofTokens?_splits ts hhead
  obtain rfl := Option.some.inj (hs.symm.trans hselectors)
  exact ⟨hhead, hselectors, hsplits⟩

end Selectors
end RuleTree
