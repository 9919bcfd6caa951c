import Mathlib
import RuleTree.Proofs.Spelling
import RuleTree.Token.Lexer

/-! Tokens behind a complete sheet. Where the nodes of a parse reach to the last token, tokens that
are put behind it are read as if they stood alone, if no block begins among them. -/
namespace RuleTree
open Braces

/-- The last of the nodes ends where the tokens end, of which the first stands at `p`. -/
def Reaches (p : Nat) (ts : List Token) (nodes : List Node) : Prop :=
  ts = [] ∨ ∃ n, nodes.getLast? = some n ∧ n.span.stop = p + ts.length

section
variable {p size : Nat} {ts rest : List Token} {n : Node} {nodes : List Node}

/-- Behind a node over the first tokens the others reach as far as all of them. -/
theorem Reaches.behind (h : Reaches p ts (n :: nodes)) (hn : n.span.stop = p + size)
    (hts : ts.length = size + rest.length) (hne : ts ≠ []) : Reaches (p + size) rest nodes := by
  obtain ⟨last, hlast, hstop⟩ := h.resolve_left hne
  cases nodes with
  | nil =>
    obtain rfl : n = last := by simpa using hlast
    have hrest : rest.length = 0 := by omega
    exact .inl (List.length_eq_zero_iff.mp hrest)
  | cons m nodes =>
    rw [List.getLast?_cons_cons] at hlast
    exact .inr ⟨last, hlast, by omega⟩

end

theorem length_segment (body rest : List Token) (last : Token) :
    (body ++ last :: rest).length = body.length + 1 + rest.length := by
  rw [List.length_append, List.length_cons]
  omega

namespace Parser

theorem map_append_map (x : Except ParseError (List Node)) (n : Node) (nodes : List Node) :
    (x.map (nodes ++ ·)).map (n :: ·) = x.map (n :: nodes ++ ·) := by
  cases x <;> rfl

/-- Behind tokens that spell nodes reading goes on where the tokens end. -/
theorem range_result_append {room p : Nat} {ts us : List Token} {nodes : List Node}
    (h : Spells room p ts nodes) (hr : Reaches p ts nodes) (hus : Flat us) (start depth : Nat)
    (outer : Option Window) :
    (range room depth outer ⟨start, p, ts ++ us⟩).result =
      (range room depth outer ⟨start, p + ts.length, us⟩).result.map (nodes ++ ·) := by
  induction h with
  | @nothing room p =>
    rw [List.nil_append]
    cases (range room depth outer ⟨start, p, us⟩).result <;> rfl
  | trailing ht =>
    obtain ⟨n, hn, -⟩ := hr.resolve_left (List.cons_ne_nil _ _)
    cases hn
  | @atRule room p body rest last nodes hf he hb more ih =>
    have hlength := length_segment body rest last
    have hall := flat_append.mpr ⟨hf, hus⟩
    rw [List.append_assoc, List.cons_append] at hall ⊢
    rw [range_result_atRule hall he hb, ih (hr.behind rfl hlength (by simp)), map_append_map,
      hlength, Nat.add_assoc p]
  | @statement room p body value rest property last nodes hf he hb hs more ih =>
    have hlength := length_segment body rest last
    have hall := flat_append.mpr ⟨hf, hus⟩
    rw [List.append_assoc, List.cons_append] at hall ⊢
    rw [range_result_statement hall he hb hs, ih (hr.behind rfl hlength (by simp)), map_append_map,
      hlength, Nat.add_assoc p]
  | @block room p front inner rest brace close header content nodes hf hb hi hc hh body more ihb
      ihm =>
    have hlength : (front ++ brace :: (inner ++ close :: rest)).length =
        front.length + 1 + inner.length + 1 + rest.length := by
      simp only [List.length_append, List.length_cons]
      omega
    rw [List.append_assoc, List.cons_append, List.append_assoc, List.cons_append,
      range_result_block hf hb hi hc, range_of_spells body, ok_bind, Header.read_result_iff.mpr hh,
      ok_bind, ihm (hr.behind rfl hlength (by simp)), map_append_map, hlength, Nat.add_assoc p]

end Parser

/-- If the nodes of a parse reach to the end of its tokens, then tokens without an opening brace can
be put behind them. They give the nodes or the error that they give alone, with the nodes moved to
where they now stand. -/
theorem parse_append (config : Config) (ts us : List Token) (nodes : List Node)
    (h : (parse config ts).result = .ok nodes) (hr : Reaches 0 ts nodes) (hus : Flat us) :
    (parse config (ts ++ us)).result =
      (parse config us).result.map fun more => nodes ++ Node.shiftAll ts.length more := by
  obtain ⟨source, room⟩ := config
  rw [parse_result, Window.all, Parser.range_result_append (parse_ok_iff.mp h) hr hus,
    range_result_eq_parse source, Nat.zero_add]
  cases (parse ⟨source, room⟩ us).result <;> rfl

theorem parse_append_statement :
    let ts : List Token := [⟨.word, "a", 0, ⟨none, ""⟩⟩, ⟨.braceOpen, "\x7b", 1, ⟨none, ""⟩⟩,
      ⟨.word, "b", 2, ⟨none, ""⟩⟩, ⟨.semicolon, ";", 3, ⟨none, ""⟩⟩,
      ⟨.braceClose, "\x7d", 4, ⟨none, ""⟩⟩]
    let us : List Token := [⟨.delimiter, " ", 5, ⟨none, ""⟩⟩, ⟨.word, "c", 6, ⟨none, ""⟩⟩,
      ⟨.semicolon, ";", 7, ⟨none, ""⟩⟩, ⟨.delimiter, " ", 8, ⟨none, ""⟩⟩]
    let nodes : List Node := [.block (.selectors ["a"]) [.statement "b" [] ⟨2, 4⟩] ⟨0, 5⟩]
    (parse {} ts).result = .ok nodes ∧ Reaches 0 ts nodes ∧ Flat us ∧
      (parse {} (ts ++ us)).result = .ok (nodes ++ [.statement "c" [] ⟨5, 8⟩]) := by
  intro ts us nodes
  have h : (parse {} ts).result = .ok nodes := by cbv
  have hr : Reaches 0 ts nodes := .inr ⟨_, rfl, rfl⟩
  have hus : Flat us := by decide
  have hmore : (parse {} us).result = .ok [.statement "c" [] ⟨0, 3⟩] := by cbv
  refine ⟨h, hr, hus, ?_⟩
  rw [parse_append {} ts us nodes h hr hus, hmore]
  rfl

end RuleTree
