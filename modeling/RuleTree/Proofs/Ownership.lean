import Mathlib
import RuleTree.Proofs.Height
import RuleTree.Proofs.Placement
import RuleTree.Token.Lexer

/-! Which node a token belongs to. Every token that is no delimiter is the opening or the closing
brace of one block, or is part of one header, at-rule or statement; from this follows what becomes
of braces, those that answer no other included. -/
namespace RuleTree
open Braces

namespace Node

/-- The first opening brace of the block is at `i`. -/
def opensAt (ts : List Token) (i : Nat) (n : Node) : Bool :=
  n.isBlock && firstOpen? ts n.span.start == some i

/-- The last token of the block is at `i`. -/
def closesAt (i : Nat) (n : Node) : Bool := n.isBlock && n.span.stop == i + 1

/-- Where the tokens end that the node itself is made of: those of a block are its header. -/
def textStop (ts : List Token) : Node → Nat
  | .block _ _ s => (firstOpen? ts s.start).getD s.stop
  | .atRule _ s => s.stop
  | .statement _ _ s => s.stop

/-- The token at `i` is part of the header, the at-rule or the statement. -/
def absorbs (ts : List Token) (i : Nat) (n : Node) : Bool :=
  n.span.start ≤ i && i < n.textStop ts

/-- In how many of the three ways the token at `i` belongs to the node. -/
def roles (ts : List Token) (i : Nat) (n : Node) : Nat :=
  (if n.opensAt ts i then 1 else 0) + (if n.closesAt i then 1 else 0) +
    if n.absorbs ts i then 1 else 0

/-- In how many ways the token at `i` belongs to nodes of the trees. -/
def owners (ts : List Token) (i : Nat) (nodes : List Node) : Nat :=
  ((preorderAll nodes).map (roles ts i)).sum

/-- One for a position from `start` up to `stop`, zero for any other. -/
def within (start stop i : Nat) : Nat := if start ≤ i ∧ i < stop then 1 else 0

theorem within_self (start i : Nat) : within start start i = 0 := if_neg (by omega)

theorem within_add {start middle stop : Nat} (h : start ≤ middle) (hle : middle ≤ stop) (i : Nat) :
    within start middle i + within middle stop i = within start stop i := by
  unfold within
  split_ifs <;> omega

section
variable {ts : List Token} {i : Nat} {n : Node}

theorem opensAt_iff : n.opensAt ts i ↔ n.isBlock ∧ firstOpen? ts n.span.start = some i := by
  simp [opensAt]

theorem closesAt_iff : n.closesAt i ↔ n.isBlock ∧ n.span.stop = i + 1 := by simp [closesAt]

theorem absorbs_iff : n.absorbs ts i ↔ n.span.start ≤ i ∧ i < n.textStop ts := by simp [absorbs]

theorem owners_nil : owners ts i [] = 0 := rfl

theorem owners_cons (nodes : List Node) : owners ts i (n :: nodes) =
    n.roles ts i + owners ts i n.content + owners ts i nodes := by
  cases n <;> simp [owners, preorderAll, preorder, content, Nat.add_assoc]

theorem textStop_eq (hn : n.isBlock = false) : n.textStop ts = n.span.stop := by
  cases n with
  | block => cases hn
  | atRule => rfl
  | statement => rfl

/-- An at-rule or a statement has all tokens of its span to itself. -/
theorem owners_segment (hn : n.isBlock = false) (nodes : List Node) :
    owners ts i (n :: nodes) = within n.span.start n.span.stop i + owners ts i nodes := by
  have hroles : roles ts i n = within n.span.start n.span.stop i := by
    simp [roles, opensAt_iff, closesAt_iff, absorbs_iff, hn, textStop_eq hn, within]
  have hcontent : n.content = [] := by
    cases n with
    | block => cases hn
    | atRule => rfl
    | statement => rfl
  rw [owners_cons, hroles, hcontent, owners_nil, Nat.add_zero]

/-- A block has its header, its opening brace and its closing brace to itself. -/
theorem owners_block {start o c : Nat} (ho : firstOpen? ts start = some o) (hstart : start ≤ o)
    (hc : o < c) (header : Header) (content nodes : List Node) :
    owners ts i (.block header content ⟨start, c + 1⟩ :: nodes) =
      within start (o + 1) i + owners ts i content + within c (c + 1) i + owners ts i nodes := by
  have hroles : roles ts i (.block header content ⟨start, c + 1⟩) =
      within start (o + 1) i + within c (c + 1) i := by
    simp only [roles, opensAt_iff, closesAt_iff, absorbs_iff, textStop, isBlock, span, ho, within,
      Option.getD_some, Option.some.injEq, true_and]
    split_ifs <;> omega
  rw [owners_cons, hroles, Node.content]
  omega

/-- The ways counted apart. -/
theorem owners_eq (nodes : List Node) : owners ts i nodes =
    (preorderAll nodes).countP (opensAt ts i) + (preorderAll nodes).countP (closesAt i) +
      (preorderAll nodes).countP (absorbs ts i) := by
  rw [owners]
  induction preorderAll nodes with
  | nil => rfl
  | cons n ns ih =>
    rw [List.map_cons, List.sum_cons, ih, roles, List.countP_cons, List.countP_cons,
      List.countP_cons]
    omega

end
end Node

namespace Braces

variable {ts : List Token} {start o i : Nat}

theorem openAt_of_firstOpen? (h : firstOpen? ts start = some o) : OpenAt ts o := by
  obtain ⟨t, hget, ht⟩ := (firstAt_of_firstOpen? h).here
  exact ⟨t, hget, beq_iff_eq.mpr ht⟩

/-- In front of the first opening brace there is none. -/
theorem not_openAt_of_firstOpen? (h : firstOpen? ts start = some o) (hs : start ≤ i)
    (hi : i < o) : ¬ OpenAt ts i := by
  rintro ⟨t, hget, ht⟩
  exact (firstAt_of_firstOpen? h).first i t hs hi hget (beq_iff_eq.mp ht)

/-- Closing braces between a brace and its answer are answered. -/
theorem Answers.answered {c : Nat} (ho : OpenAt ts o) (ha : Answers ts o c) (hi : CloseAt ts i)
    (hbehind : o < i) (hwithin : i < c) : Answered ts i := by
  obtain ⟨front, brace, back, rfl, rfl, hb⟩ := exists_of_openAt ho
  obtain ⟨inner, close, rest, rfl, rfl, hc, hbalanced⟩ := exists_of_answers ha
  obtain ⟨t, hget, ht⟩ := hi
  obtain ⟨m, rfl⟩ := Nat.exists_eq_add_of_le (Nat.succ_le_of_lt hbehind)
  have hm : m < inner.length := by omega
  have hsplit : front ++ brace :: (inner ++ close :: rest) =
      (front ++ [brace]) ++ (inner ++ close :: rest) := by simp
  have hlength : front.length.succ = (front ++ [brace]).length := by simp
  rw [hsplit, hlength] at hget ⊢
  rw [List.getElem?_append_right (Nat.le_add_right ..), Nat.add_sub_cancel_left,
    List.getElem?_append_left hm] at hget
  obtain ⟨before, after, rfl, rfl⟩ := exists_append_of_getElem? hget
  obtain ⟨o', ho', ha'⟩ := (answered_iff after ht).mpr (hbalanced.height_pos ht)
  exact ⟨_, openAt_around _ _ ho', answers_around _ _ ho' ha'⟩

theorem exists_significant {k : Kind} (hk : k ≠ .delimiter)
    (h : ∃ t, ts[i]? = some t ∧ t.kind == k) : ∃ t, ts[i]? = some t ∧ t.isDelimiter = false := by
  obtain ⟨t, hget, ht⟩ := h
  rw [beq_iff_eq] at ht
  exact ⟨t, hget, by simp [Token.isDelimiter, ht, hk]⟩

theorem OpenAt.significant (h : OpenAt ts i) : ∃ t, ts[i]? = some t ∧ t.isDelimiter = false :=
  exists_significant (k := .braceOpen) nofun h

theorem CloseAt.significant (h : CloseAt ts i) : ∃ t, ts[i]? = some t ∧ t.isDelimiter = false :=
  exists_significant (k := .braceClose) nofun h

/-- No opening brace stands in a span over flat tokens. -/
theorem Flat.not_openAt {n : Nat} {segment : List Token} (hf : Flat segment)
    (hw : Span.tokens ⟨start, start + n⟩ ts = segment) (hs : start ≤ i) (hi : i < start + n) :
    ¬ OpenAt ts i := by
  rintro ⟨t, hget, ht⟩
  obtain ⟨m, rfl⟩ := Nat.exists_eq_add_of_le hs
  have hm : m < n := by omega
  rw [← Span.getElem?_tokens ts hm, hw] at hget
  rw [hf t (List.mem_of_getElem? hget)] at ht
  cases ht

end Braces

namespace Placed

variable {ts : List Token} {start stop i : Nat} {nodes : List Node} {n : Node}

theorem le (h : Placed ts start stop nodes) : start ≤ stop := by
  induction h with
  | nothing => exact Nat.le_refl _
  | trailing => exact Nat.le_succ _
  | atRule hw hf he hb more ih => omega
  | statement hw hf he hb hs more ih => omega
  | block ho ha hw hc hh body more ihb ihm =>
    have hstart := le_of_firstOpen? ho
    have hbehind := ha.behind
    omega

/-- Every token that is no delimiter belongs to one node, and in one way. -/
theorem owners_eq_within (h : Placed ts start stop nodes)
    (ht : ∃ t, ts[i]? = some t ∧ t.isDelimiter = false) :
    Node.owners ts i nodes = Node.within start stop i := by
  induction h with
  | @nothing start => rw [Node.owners_nil, Node.within_self]
  | @trailing start u hw hu =>
    obtain ⟨t, hget, hd⟩ := ht
    have hne : i ≠ start := by
      rintro rfl
      rw [Option.some.inj (hget.symm.trans hw), hu] at hd
      cases hd
    rw [Node.owners_nil, Node.within, if_neg (by omega)]
  | atRule hw hf he hb more ih =>
    rw [Node.owners_segment rfl, ih]
    exact Node.within_add (Nat.le_add_right ..) more.le i
  | statement hw hf he hb hs more ih =>
    rw [Node.owners_segment rfl, ih]
    exact Node.within_add (Nat.le_add_right ..) more.le i
  | block ho ha hw hc hh body more ihb ihm =>
    have hstart := le_of_firstOpen? ho
    have hbehind := ha.behind
    rw [Node.owners_block ho hstart hbehind, ihb, ihm,
      Node.within_add (Nat.le_succ_of_le hstart) body.le,
      Node.within_add (hstart.trans hbehind.le) (Nat.le_succ _),
      Node.within_add (by omega) more.le]

section
variable (h : Placed ts start stop (n :: nodes))
include h

/-- The first opening brace of a block is an opening brace, and the block closes at its answer. -/
theorem exists_of_opensAt (hn : n.opensAt ts i) :
    OpenAt ts i ∧ ∃ c, Answers ts i c ∧ n.closesAt c := by
  obtain ⟨hblock, hopen⟩ := Node.opensAt_iff.mp hn
  cases h with
  | atRule => cases hblock
  | statement => cases hblock
  | block ho ha =>
    obtain rfl := Option.some.inj (ho.symm.trans hopen)
    exact ⟨openAt_of_firstOpen? ho, _, ha, Node.closesAt_iff.mpr ⟨rfl, rfl⟩⟩

/-- The last token of a block is a closing brace that answers an opening one. -/
theorem answered_of_closesAt (hn : n.closesAt i) : CloseAt ts i ∧ Answered ts i := by
  obtain ⟨hblock, hstop⟩ := Node.closesAt_iff.mp hn
  cases h with
  | atRule => cases hblock
  | statement => cases hblock
  | block ho ha hw hc =>
    obtain rfl := Nat.succ.inj hstop
    exact ⟨⟨_, hw, hc⟩, _, openAt_of_firstOpen? ho, ha⟩

theorem not_openAt_of_absorbs (hn : n.absorbs ts i) : ¬ OpenAt ts i := by
  obtain ⟨hfrom, hto⟩ := Node.absorbs_iff.mp hn
  cases h with
  | atRule hw hf => exact hf.not_openAt hw hfrom hto
  | statement hw hf => exact hf.not_openAt hw hfrom hto
  | block ho =>
    rw [Node.textStop, ho] at hto
    exact not_openAt_of_firstOpen? ho hfrom hto

/-- An at-rule or a statement does not begin with a closing brace. -/
theorem not_closeAt_start (hn : n.isBlock = false) : ¬ CloseAt ts n.span.start := by
  rintro ⟨t, hget, ht⟩
  cases h with
  | @atRule _ _ body last _ hw hf he hb =>
    obtain @⟨mark, name, gap, value, hmark, -, -, -⟩ := hb
    have hfirst : ts[start]? = some mark := by
      rw [← Nat.add_zero start, ← Span.getElem?_tokens ts (Nat.succ_pos _), hw]
      rfl
    obtain rfl := Option.some.inj (hfirst.symm.trans hget)
    simp only [Token.isAtSign, Token.isBraceClose, beq_iff_eq] at hmark ht
    cases hmark.symm.trans ht
  | @statement _ _ body _ _ last _ hw hf he hb hs =>
    cases body with
    | nil => cases hs
    | cons u body =>
      have hfirst : ts[start]? = some u := by
        rw [← Nat.add_zero start, ← Span.getElem?_tokens ts (Nat.succ_pos _), hw]
        rfl
      obtain rfl := Option.some.inj (hfirst.symm.trans hget)
      rw [(hb.front u rfl).2] at ht
      cases ht
  | block => cases hn

end

/-- A closing brace that answers none is part of no node inside a block. -/
theorem countP_absorbs (h : Placed ts start stop nodes) (hi : CloseAt ts i)
    (hno : ¬ Answered ts i) :
    (Node.preorderAll nodes).countP (Node.absorbs ts i) = nodes.countP (Node.absorbs ts i) := by
  induction h with
  | nothing => rfl
  | trailing => rfl
  | atRule hw hf he hb more ih =>
    rw [Node.preorderAll, Node.preorder, List.singleton_append, List.countP_cons, ih,
      List.countP_cons]
  | statement hw hf he hb hs more ih =>
    rw [Node.preorderAll, Node.preorder, List.singleton_append, List.countP_cons, ih,
      List.countP_cons]
  | @block start o c stop close header content nodes ho ha hw hc hh body more ihb ihm =>
    have houtside : ¬ (o + 1 ≤ i ∧ i < c) := fun hin =>
      hno (ha.answered (openAt_of_firstOpen? ho) hi hin.1 hin.2)
    have hinside := body.owners_eq_within hi.significant
    rw [Node.within, if_neg houtside, Node.owners_eq] at hinside
    rw [Node.preorderAll, Node.preorder, List.cons_append, List.countP_cons, List.countP_append,
      ihm, List.countP_cons]
    omega

section
variable (h : Placed ts start stop nodes)
include h

theorem countP_opensAt_eq_zero (hi : ¬ OpenAt ts i) :
    (Node.preorderAll nodes).countP (Node.opensAt ts i) = 0 := by
  rw [List.countP_eq_zero]
  intro n hn hopens
  obtain ⟨first, last, more, hplaced⟩ := h.exists_head n hn
  exact hi (hplaced.exists_of_opensAt hopens).1

theorem countP_closesAt_eq_zero (hi : ¬ (CloseAt ts i ∧ Answered ts i)) :
    (Node.preorderAll nodes).countP (Node.closesAt i) = 0 := by
  rw [List.countP_eq_zero]
  intro n hn hcloses
  obtain ⟨first, last, more, hplaced⟩ := h.exists_head n hn
  exact hi (hplaced.answered_of_closesAt hcloses)

theorem countP_absorbs_eq_zero (hi : OpenAt ts i) :
    (Node.preorderAll nodes).countP (Node.absorbs ts i) = 0 := by
  rw [List.countP_eq_zero]
  intro n hn habsorbs
  obtain ⟨first, last, more, hplaced⟩ := h.exists_head n hn
  exact hplaced.not_openAt_of_absorbs habsorbs hi

end

end Placed

/-- What becomes of the braces of tokens that parse. An opening brace is that of one block. A
closing brace that answers one is the last token of one block and nothing else. A closing brace
that answers none is taken as part of one header, at-rule or statement, which is not inside a
block; an at-rule or a statement does not begin with it. -/
theorem parse_braces (config : Config) (ts : List Token) (nodes : List Node)
    (h : (parse config ts).result = .ok nodes) :
    (∀ o, OpenAt ts o → (Node.preorderAll nodes).countP (Node.opensAt ts o) = 1) ∧
      (∀ c, CloseAt ts c → Answered ts c →
        (Node.preorderAll nodes).countP (Node.closesAt c) = 1 ∧
          (Node.preorderAll nodes).countP (Node.absorbs ts c) = 0) ∧
      (∀ c, CloseAt ts c → ¬ Answered ts c →
        (Node.preorderAll nodes).countP (Node.closesAt c) = 0 ∧
          (Node.preorderAll nodes).countP (Node.absorbs ts c) = 1 ∧
          nodes.countP (Node.absorbs ts c) = 1) ∧
      ∀ n ∈ Node.preorderAll nodes, n.isBlock = false → ¬ CloseAt ts n.span.start := by
  have hplaced := placed_of_parse h
  have hone : ∀ i, (∃ t, ts[i]? = some t ∧ t.isDelimiter = false) →
      (Node.preorderAll nodes).countP (Node.opensAt ts i) +
        (Node.preorderAll nodes).countP (Node.closesAt i) +
        (Node.preorderAll nodes).countP (Node.absorbs ts i) = 1 := by
    intro i hi
    have hwithin : i < ts.length := by
      obtain ⟨t, hget, -⟩ := hi
      exact (List.getElem?_eq_some_iff.mp hget).1
    rw [← Node.owners_eq, hplaced.owners_eq_within hi, Node.within,
      if_pos ⟨Nat.zero_le i, hwithin⟩]
  have hopen : ∀ o, OpenAt ts o → (Node.preorderAll nodes).countP (Node.opensAt ts o) = 1 := by
    intro o ho
    have hsum := hone o ho.significant
    have hcloses := hplaced.countP_closesAt_eq_zero fun hc => hc.1.not_openAt ho
    have habsorbs := hplaced.countP_absorbs_eq_zero ho
    omega
  refine ⟨hopen, ?_, ?_, ?_⟩
  · intro c hc hanswered
    have hsum := hone c hc.significant
    obtain ⟨o, ho, ha⟩ := hanswered
    -- the block that the answered brace opens ends with this one
    have hblock : 0 < (Node.preorderAll nodes).countP (Node.opensAt ts o) := by
      rw [hopen o ho]
      exact Nat.one_pos
    obtain ⟨n, hn, hopens⟩ := List.countP_pos_iff.mp hblock
    obtain ⟨first, last, more, hhead⟩ := hplaced.exists_head n hn
    obtain ⟨-, d, hd, hcloses⟩ := hhead.exists_of_opensAt hopens
    obtain rfl := ha.unique hd
    have hpos := List.countP_pos_iff.mpr ⟨n, hn, hcloses⟩
    omega
  · intro c hc hno
    have hsum := hone c hc.significant
    have hopens := hplaced.countP_opensAt_eq_zero hc.not_openAt
    have hcloses := hplaced.countP_closesAt_eq_zero fun hboth => hno hboth.2
    have htop := hplaced.countP_absorbs hc hno
    omega
  · intro n hn hblock
    obtain ⟨first, last, more, hhead⟩ := hplaced.exists_head n hn
    exact hhead.not_closeAt_start hblock

theorem parse_braces_nested :
    ∃ nodes, (parse {} (Source.tokens ⟨none, "\x7da\x7bb\x7b\x7d\x7d"⟩)).result = .ok nodes ∧
      (Node.preorderAll nodes).countP
        (Node.opensAt (Source.tokens ⟨none, "\x7da\x7bb\x7b\x7d\x7d"⟩) 4) = 1 ∧
      (Node.preorderAll nodes).countP (Node.closesAt 5) = 1 ∧
      nodes.countP (Node.absorbs (Source.tokens ⟨none, "\x7da\x7bb\x7b\x7d\x7d"⟩) 0) = 1 := by
  have h : (parse {} (Source.tokens ⟨none, "\x7da\x7bb\x7b\x7d\x7d"⟩)).result =
      .ok [.block (.selectors ["\x7da"]) [.block (.selectors ["b"]) [] ⟨3, 6⟩] ⟨0, 7⟩] := by cbv
  obtain ⟨hopen, hanswered, hstray, -⟩ := parse_braces _ _ _ h
  refine ⟨_, h, hopen 4 ?_, (hanswered 5 ?_ ?_).1, (hstray 0 ?_ ?_).2.2⟩
  · exact of_decide_eq_true (by cbv)
  · exact of_decide_eq_true (by cbv)
  · exact of_decide_eq_true (by cbv)
  · exact of_decide_eq_true (by cbv)
  · exact of_decide_eq_true (by cbv)

/-- Closing braces that answer none are read as part of a header, a statement and an at-rule. -/
theorem parse_keeps_stray_braces :
    ∃ nodes, (parse {} (Source.tokens ⟨none, "\x7d\x7b\x7da\x7d;@b \x7d;"⟩)).result = .ok nodes ∧
      ¬ Balanced (Source.tokens ⟨none, "\x7d\x7b\x7da\x7d;@b \x7d;"⟩) ∧
      ∀ c ∈ [0, 4, 9], CloseAt (Source.tokens ⟨none, "\x7d\x7b\x7da\x7d;@b \x7d;"⟩) c ∧
        (Node.preorderAll nodes).countP (Node.closesAt c) = 0 ∧
        (Node.preorderAll nodes).countP
          (Node.absorbs (Source.tokens ⟨none, "\x7d\x7b\x7da\x7d;@b \x7d;"⟩) c) = 1 := by
  have h : (parse {} (Source.tokens ⟨none, "\x7d\x7b\x7da\x7d;@b \x7d;"⟩)).result =
      .ok [.block (.selectors ["\x7d"]) [] ⟨0, 3⟩, .statement "a" [] ⟨3, 6⟩,
        .atRule
          [⟨.atSign, "@", 6, ⟨none, "\x7d\x7b\x7da\x7d;@b \x7d;"⟩⟩,
            ⟨.word, "b", 7, ⟨none, "\x7d\x7b\x7da\x7d;@b \x7d;"⟩⟩,
            ⟨.braceClose, "\x7d", 9, ⟨none, "\x7d\x7b\x7da\x7d;@b \x7d;"⟩⟩,
            ⟨.semicolon, ";", 10, ⟨none, "\x7d\x7b\x7da\x7d;@b \x7d;"⟩⟩]
          ⟨6, 11⟩] := by cbv
  refine ⟨_, h, of_decide_eq_true (by cbv), of_decide_eq_true (by cbv)⟩

end RuleTree
