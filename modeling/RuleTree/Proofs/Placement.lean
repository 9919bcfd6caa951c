import Mathlib.Tactic
import RuleTree.Proofs.Spelling

/-! Nodes by their positions. Wherever a range stands in a token list, the spans of its nodes point
at the tokens that the nodes were read from. -/
namespace RuleTree
namespace Braces

/-- Position of the first opening brace from `start` on. -/
def firstOpen? (ts : List Token) (start : Nat) : Option Nat :=
  (Scan.firstIndex? .braceOpen (ts.drop start)).map (start + ·)

theorem le_of_firstOpen? {ts : List Token} {start o : Nat} (h : firstOpen? ts start = some o) :
    start ≤ o := by
  obtain ⟨n, -, rfl⟩ := Option.map_eq_some_iff.mp h
  exact Nat.le_add_right start n

theorem firstAt_of_firstOpen? {ts : List Token} {start o : Nat} (h : firstOpen? ts start = some o) :
    Scan.FirstAt .braceOpen ts start o := by
  obtain ⟨n, hn, rfl⟩ := Option.map_eq_some_iff.mp h
  exact Scan.firstAt_of_firstIndex? hn

theorem Flat.firstOpen?_append (before : List Token) {front : List Token} {brace : Token}
    (back : List Token) (hf : Flat front) (hb : brace.isBraceOpen) :
    firstOpen? (before ++ (front ++ brace :: back)) before.length =
      some (before.length + front.length) := by
  rw [firstOpen?, List.drop_left, hf.firstIndex?_append back hb, Option.map_some]

end Braces

open Braces

/-- The nodes were read from the tokens between two positions of `whole`. -/
inductive Placed (whole : List Token) : (start stop : Nat) → List Node → Prop
  | nothing {start : Nat} : Placed whole start start []
  | trailing {start : Nat} {t : Token} (hw : whole[start]? = some t) (ht : t.isDelimiter) :
      Placed whole start (start + 1) []
  | atRule {start stop : Nat} {body : List Token} {last : Token} {nodes : List Node}
      (hw : Span.tokens ⟨start, start + (body.length + 1)⟩ whole = body ++ [last])
      (hf : Flat (body ++ [last])) (he : Ends body last) (hb : AtRule.Body body)
      (more : Placed whole (start + (body.length + 1)) stop nodes) :
      Placed whole start stop
        (.atRule (Scan.significant (body ++ [last])) ⟨start, start + (body.length + 1)⟩ :: nodes)
  | statement {start stop : Nat} {body value : List Token} {property last : Token}
      {nodes : List Node}
      (hw : Span.tokens ⟨start, start + (body.length + 1)⟩ whole = body ++ [last])
      (hf : Flat (body ++ [last])) (he : Ends body last) (hb : Statement.Body body)
      (hs : Scan.significant body = property :: value)
      (more : Placed whole (start + (body.length + 1)) stop nodes) :
      Placed whole start stop
        (.statement property.text (value.drop 1) ⟨start, start + (body.length + 1)⟩ :: nodes)
  | block {start o c stop : Nat} {close : Token} {header : Header} {content nodes : List Node}
      (ho : firstOpen? whole start = some o) (ha : Answers whole o c)
      (hw : whole[c]? = some close) (hc : close.isBraceClose)
      (hh : header.Matches (Span.tokens ⟨start, o⟩ whole))
      (body : Placed whole (o + 1) c content) (more : Placed whole (c + 1) stop nodes) :
      Placed whole start stop (.block header content ⟨start, c + 1⟩ :: nodes)

/-- Each node of the trees stands first in a list of nodes that is placed in its own right. -/
theorem Placed.exists_head {whole : List Token} {start stop : Nat} {nodes : List Node}
    (h : Placed whole start stop nodes) :
    ∀ n ∈ Node.preorderAll nodes, ∃ first last more, Placed whole first last (n :: more) := by
  induction h with
  | nothing => simp [Node.preorderAll]
  | trailing => simp [Node.preorderAll]
  | atRule hw hf he hb more ih =>
    rw [Node.preorderAll, Node.preorder, List.singleton_append, List.forall_mem_cons]
    exact ⟨⟨_, _, _, .atRule hw hf he hb more⟩, ih⟩
  | statement hw hf he hb hs more ih =>
    rw [Node.preorderAll, Node.preorder, List.singleton_append, List.forall_mem_cons]
    exact ⟨⟨_, _, _, .statement hw hf he hb hs more⟩, ih⟩
  | block ho ha hw hc hh body more ihb ihm =>
    rw [Node.preorderAll, Node.preorder, List.cons_append, List.forall_mem_cons,
      List.forall_mem_append]
    exact ⟨⟨_, _, _, .block ho ha hw hc hh body more⟩, ihb, ihm⟩

theorem tokens_segment {whole before body : List Token} {last : Token} (rest : List Token)
    (hw : whole = before ++ (body ++ last :: rest)) :
    Span.tokens ⟨before.length, before.length + (body.length + 1)⟩ whole = body ++ [last] := by
  rw [hw, List.append_cons body, ← List.length_singleton, ← List.length_append,
    Span.tokens_append]

/-- Nodes that tokens spell are placed where the tokens stand. -/
theorem Spells.placed {room p : Nat} {ts : List Token} {nodes : List Node}
    (h : Spells room p ts nodes) {whole : List Token} {stop : Nat} (before behind : List Token)
    (hw : whole = before ++ (ts ++ behind)) (hp : p = before.length)
    (hstop : stop = p + ts.length) : Placed whole p stop nodes := by
  induction h generalizing before behind stop with
  | nothing => exact hstop ▸ .nothing
  | trailing ht => exact hstop ▸ .trailing (by simp [hw, hp]) ht
  | @atRule room p body rest last nodes hf he hb more ih =>
    subst hp
    have hmore : Placed whole (before.length + (body.length + 1)) stop nodes :=
      ih (before ++ (body ++ [last])) behind (by simp [hw]) (by simp) (by simp [hstop]; omega)
    rw [List.append_cons] at hf
    exact .atRule (tokens_segment (rest ++ behind) (by simp [hw])) (flat_append.mp hf).1 he hb hmore
  | @statement room p body value rest property last nodes hf he hb hs more ih =>
    subst hp
    have hmore : Placed whole (before.length + (body.length + 1)) stop nodes :=
      ih (before ++ (body ++ [last])) behind (by simp [hw]) (by simp) (by simp [hstop]; omega)
    rw [List.append_cons] at hf
    exact .statement (tokens_segment (rest ++ behind) (by simp [hw])) (flat_append.mp hf).1 he hb hs
      hmore
  | @block room p front inner rest brace close header content nodes hf hb hi hc hh body more ihb
      ihm =>
    subst hp
    have hsplit : whole = before ++ (front ++ brace :: (inner ++ close :: (rest ++ behind))) := by
      simp [hw]
    have hopen := hf.firstOpen?_append before (inner ++ close :: (rest ++ behind)) hb
    have hanswers := answers_append (before ++ front) brace (rest ++ behind) hi hc
    have hheader := Span.tokens_append before front (brace :: (inner ++ close :: (rest ++ behind)))
    rw [← hsplit] at hopen hheader
    rw [List.append_assoc, ← hsplit, List.length_append, Nat.add_assoc before.length,
      Nat.add_assoc before.length] at hanswers
    have hbehind : whole = before ++ (front ++ brace :: inner) ++ close :: (rest ++ behind) := by
      simp [hsplit]
    have hclose : whole[before.length + (front.length + 1 + inner.length)]? = some close := by
      have hc : before.length + (front.length + 1 + inner.length) =
          (before ++ (front ++ brace :: inner)).length := by
        simp only [List.length_append, List.length_cons]
        omega
      rw [hc, hbehind, List.getElem?_append_right (Nat.le_refl _), Nat.sub_self]
      rfl
    refine .block (c := before.length + (front.length + 1 + inner.length)) hopen hanswers hclose hc
      (by rwa [hheader]) ?_ ?_
    · exact ihb (before ++ (front ++ [brace])) (close :: (rest ++ behind)) (by simp [hsplit])
        (by simp) (by omega)
    · exact ihm (before ++ (front ++ brace :: inner) ++ [close]) behind (by simp [hsplit])
        (by simp; omega) (by simp [hstop]; omega)

theorem placed_of_parse {config : Config} {ts : List Token} {nodes : List Node}
    (h : (parse config ts).result = .ok nodes) : Placed ts 0 ts.length nodes :=
  (parse_ok_iff.mp h).placed [] [] (by simp) rfl (Nat.zero_add _).symm

end RuleTree
