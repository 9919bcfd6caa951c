import Mathlib.Tactic
import RuleTree.Proofs.Spelling

/-! The token lists that parse, said without the parser: blocks with matching braces, then
segments that end at their first semicolon, then at most one delimiter. -/
namespace RuleTree
open Braces

/-- The tokens of an at-rule or a statement, up to their first semicolon. -/
inductive Segment : List Token → Prop
  | atRule {body : List Token} {last : Token} (he : Ends body last) (hb : AtRule.Body body) :
      Segment (body ++ [last])
  | statement {body : List Token} {last : Token} (he : Ends body last)
      (hb : Statement.Body body) : Segment (body ++ [last])

/-- Segments without an opening brace, followed by nothing or by one delimiter. -/
structure Tail (ts : List Token) : Prop where
  flat : Flat ts
  split : ∃ segments : List (List Token), ∃ trailing : List Token,
    ts = segments.flatten ++ trailing ∧ (∀ s ∈ segments, Segment s) ∧
      (trailing = [] ∨ ∃ t, trailing = [t] ∧ t.isDelimiter)

/-- The sheets whose blocks are nested at most `room` deep. While there is an opening brace, the
first one has an answer, a sheet of its own stands between the two, and what is in front of
it does not have its first at-sign at the end. -/
inductive Sheet : (room : Nat) → List Token → Prop
  | tail {room : Nat} {ts : List Token} (h : Tail ts) : Sheet room ts
  | block {room : Nat} {ts : List Token} {o c : Nat}
      (hopen : Scan.firstIndex? .braceOpen ts = some o) (hclose : Answers ts o c)
      (hheader : Header.Named (ts.take o)) (body : Sheet room (Span.tokens ⟨o + 1, c⟩ ts))
      (rest : Sheet (room + 1) (ts.drop (c + 1))) : Sheet (room + 1) ts

theorem Tail.nil : Tail [] := ⟨by simp [Flat], [], [], rfl, by simp, .inl rfl⟩

theorem Tail.singleton {t : Token} (ht : t.isDelimiter) : Tail [t] :=
  ⟨flat_of_isDelimiter ht, [], [t], rfl, by simp, .inr ⟨t, rfl, ht⟩⟩

theorem Tail.append {segment rest : List Token} (hf : Flat (segment ++ rest))
    (hs : Segment segment) (h : Tail rest) : Tail (segment ++ rest) := by
  obtain ⟨segments, trailing, rfl, hall, ht⟩ := h.split
  exact ⟨hf, segment :: segments, trailing, by simp, List.forall_mem_cons.mpr ⟨hs, hall⟩, ht⟩

/-- A sheet without an opening brace is all tail. -/
theorem Sheet.tail_of_flat {room : Nat} {ts : List Token} (h : Sheet room ts) (hf : Flat ts) :
    Tail ts := by
  cases h with
  | tail h => exact h
  | block hopen =>
    obtain ⟨front, brace, back, rfl, -, -, hb⟩ := exists_of_firstIndex? hopen
    simp [hf brace (by simp)] at hb

theorem Sheet.append_block {room : Nat} {front inner rest : List Token} {brace close : Token}
    (hf : Flat front) (hb : brace.isBraceOpen) (hn : Header.Named front) (hi : Balanced inner)
    (hc : close.isBraceClose) (body : Sheet room inner) (more : Sheet (room + 1) rest) :
    Sheet (room + 1) (front ++ brace :: (inner ++ close :: rest)) := by
  refine .block (hf.firstIndex?_append _ hb) (answers_append front brace rest hi hc) ?_ ?_ ?_
  · rwa [List.take_left]
  · rwa [tokens_between]
  · rwa [drop_between]

theorem Spells.sheet {room p : Nat} {ts : List Token} {nodes : List Node}
    (h : Spells room p ts nodes) : Sheet room ts := by
  induction h with
  | nothing => exact .tail .nil
  | trailing ht => exact .tail (.singleton ht)
  | @atRule room p body rest last nodes hf he hb more ih =>
    rw [List.append_cons] at hf ⊢
    exact .tail (.append hf (.atRule he hb) (ih.tail_of_flat (flat_append.mp hf).2))
  | @statement room p body value rest property last nodes hf he hb hs more ih =>
    rw [List.append_cons] at hf ⊢
    exact .tail (.append hf (.statement he hb) (ih.tail_of_flat (flat_append.mp hf).2))
  | block hf hb hi hc hh body more ihb ihm =>
    exact .append_block hf hb (Header.exists_matches_iff.mp ⟨_, hh⟩) hi hc ihb ihm

theorem Tail.spells {ts : List Token} (h : Tail ts) (room p : Nat) :
    ∃ nodes, Spells room p ts nodes := by
  obtain ⟨segments, trailing, rfl, hall, ht⟩ := h.split
  have hf := h.flat
  clear h
  induction segments generalizing p with
  | nil =>
    rcases ht with rfl | ⟨t, rfl, ht⟩
    · exact ⟨[], .nothing⟩
    · exact ⟨[], .trailing ht⟩
  | cons segment segments ih =>
    obtain ⟨hs, hmore⟩ := List.forall_mem_cons.mp hall
    rw [List.flatten_cons, List.append_assoc] at hf ⊢
    cases hs with
    | @atRule body last he hb =>
      obtain ⟨nodes, hn⟩ := ih (p + (body.length + 1)) hmore (flat_append.mp hf).2
      rw [← List.append_cons] at hf ⊢
      exact ⟨_, .atRule hf he hb hn⟩
    | @statement body last he hb =>
      obtain ⟨nodes, hn⟩ := ih (p + (body.length + 1)) hmore (flat_append.mp hf).2
      rw [← List.append_cons] at hf ⊢
      obtain ⟨property, value, hs⟩ := hb.exists_significant
      exact ⟨_, .statement hf he hb hs hn⟩

theorem Sheet.spells {room : Nat} {ts : List Token} (h : Sheet room ts) (p : Nat) :
    ∃ nodes, Spells room p ts nodes := by
  induction h generalizing p with
  | tail h => exact h.spells _ p
  | @block room ts o c hopen hclose hheader body rest ihb ihr =>
    obtain ⟨front, brace, back, rfl, rfl, hf, hb⟩ := exists_of_firstIndex? hopen
    obtain ⟨inner, close, rest, rfl, rfl, hc, hi⟩ := exists_of_answers hclose
    rw [List.take_left] at hheader
    rw [tokens_between] at ihb
    rw [drop_between] at ihr
    obtain ⟨header, hh⟩ := Header.exists_matches_iff.mpr hheader
    obtain ⟨content, hcontent⟩ := ihb (p + (front.length + 1))
    obtain ⟨nodes, hnodes⟩ := ihr (p + (front.length + 1 + inner.length + 1))
    exact ⟨_, .block hf hb hi hc hh hcontent hnodes⟩

/-- Tokens parse exactly if they are a sheet. -/
theorem parse_succeeds_iff_sheet (config : Config) (ts : List Token) :
    (∃ nodes, (parse config ts).result = .ok nodes) ↔ Sheet config.maxDepth ts := by
  simp only [parse_ok_iff]
  constructor
  · rintro ⟨nodes, h⟩
    exact h.sheet
  · intro h
    exact h.spells 0

end RuleTree
