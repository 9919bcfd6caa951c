import Mathlib
import RuleTree.Proofs.Blame
import RuleTree.Token.Lexer

/-! Blocks drain first. Wherever an at-rule or a statement is looked for, in whatever range, no opening
brace is left. So segments end with semicolons only, some errors of the readers are never met, and no
block stands behind an at-rule or a statement. -/
namespace RuleTree
open Braces

namespace Run
variable {α β : Type} {P : Event → Prop}

/-- All that happens in a run satisfies `P`, also if the run fails. -/
def Always (P : Event → Prop) (x : Run α) : Prop := ∀ e ∈ x.events, P e

theorem always_pure (a : α) : (pure a : Run α).Always P := nofun

theorem always_of (r : Except ParseError α) : (of r).Always P := nofun

theorem always_fail (e : ParseError) : (fail e : Run α).Always P := nofun

theorem always_note {e : Event} (h : P e) : (note e).Always P := by
  intro e' he
  obtain rfl := List.mem_singleton.mp he
  exact h

theorem Always.map {x : Run α} (h : x.Always P) (f : α → β) : (f <$> x).Always P := h

theorem Always.bind {x : Run α} {f : α → Run β} (hx : x.Always P)
    (hf : ∀ a, x.result = .ok a → (f a).Always P) : (x >>= f).Always P := by
  intro e he
  cases hr : x.result with
  | error c =>
    rw [bind_events_of_error hr] at he
    exact hx e he
  | ok a =>
    rw [bind_events_of_ok hr] at he
    rcases List.mem_append.mp he with he | he
    · exact hx e he
    · exact hf a hr e he

end Run

/-- What is known of the tokens in which an at-rule or a statement is looked for. -/
structure Drained (ts : List Token) : Prop where
  flat : Flat ts
  /-- An error at the last token has one to be at, -/
  ne_nil : ts ≠ []
  /-- also where it is at the last token of a segment. -/
  segment_ne_nil : ∀ n, Scan.statementLength ts = .ok n → ts.take n ≠ []
  /-- A segment that ends does so directly behind the first semicolon. -/
  size_eq : ∀ n, Scan.statementLength ts = .ok n →
    ∃ i, Scan.firstIndex? .semicolon ts = some i ∧ n = i + 1
  /-- An at-rule's first kinds are all compared with tokens, so that only one of these can be at
  fault. -/
  kinds : ∀ n, Scan.statementLength ts = .ok n → AtRule.leastSize ≤ n →
    [Kind.atSign, .word, .delimiter].length ≤ ts.length ∧
      ∀ e, Scan.requireKinds ts [.atSign, .word, .delimiter] = .error e →
        ∃ t ∈ ts, e.Cites .mismatch t
  /-- Behind an at-rule's mark and name comes a token that counts, be it the semicolon. -/
  third : ∀ n, Scan.statementLength ts = .ok n → AtRule.leastSize ≤ n →
    Scan.requireKinds ts [.atSign, .word, .delimiter] = .ok () →
      (Scan.significant (ts.take n)).drop 2 ≠ []

/-- What is known of the tokens in which blocks are looked for: whatever of them is left when an
opening brace is found, an error for want of its answer has a last token to be at. -/
structure Searched (ts : List Token) : Prop where
  ne_nil : ts ≠ []
  unmatched : ∀ left o e, left <:+ ts → Scan.firstIndex? .braceOpen left = some o →
    Scan.matchingBrace left o = .error e →
      ∃ last, left.getLast? = some last ∧ e.Cites .unmatchedBrace last

theorem Scan.firstIndex?_semicolon {body : List Token} {last : Token} (rest : List Token)
    (he : Ends body last) : firstIndex? .semicolon (body ++ last :: rest) = some body.length := by
  apply firstIndex?_append
  · intro t ht
    simpa [Token.isSemicolon] using he.free t ht
  · simpa [Token.isSemicolon] using he.last

/-- As many kinds as there are tokens can only be missed at one of these. -/
theorem Scan.exists_of_requireWithin {whole ts : List Token} {kinds : List Kind} {e : ParseError}
    (hlength : kinds.length ≤ ts.length) (h : requireWithin whole ts kinds = .error e) :
    ∃ t ∈ ts, e.Cites .mismatch t := by
  fun_induction requireWithin whole ts kinds with
  | case1 => cases h
  | case2 => simp at hlength
  | case3 t ts ks ih =>
    obtain ⟨u, hu, he⟩ := ih (Nat.le_of_succ_le_succ hlength) h
    exact ⟨u, List.mem_cons_of_mem _ hu, he⟩
  | case4 t ts k ks hk =>
    cases h
    exact ⟨t, List.mem_cons_self, t.fault_cites _⟩

theorem searched {ts : List Token} (hne : ts ≠ []) : Searched ts where
  ne_nil := hne
  unmatched left o e _ ho h := by
    obtain ⟨front, brace, back, rfl, rfl, -, -⟩ := exists_of_firstIndex? ho
    have hleft : front ++ brace :: back ≠ [] := by simp
    obtain ⟨last, hlast⟩ := Option.ne_none_iff_exists'.mp (mt List.getLast?_eq_none_iff.mp hleft)
    obtain ⟨-, rfl⟩ := Scan.error_of_matchingBrace h
    exact ⟨last, hlast, ParseError.cites_iff.mpr (ParseError.atLast_eq hlast)⟩

theorem drained {ts : List Token} (hf : Flat ts) (hne : ts ≠ []) : Drained ts where
  flat := hf
  ne_nil := hne
  segment_ne_nil n hn := by
    obtain ⟨body, last, rest, rfl, rfl, he⟩ := Scan.exists_of_statementLength hf hne hn
    rw [take_through]
    exact List.concat_ne_nil last body
  size_eq n hn := by
    obtain ⟨body, last, rest, rfl, rfl, he⟩ := Scan.exists_of_statementLength hf hne hn
    exact ⟨body.length, Scan.firstIndex?_semicolon rest he, rfl⟩
  kinds n hn hleast := by
    obtain ⟨body, last, rest, rfl, rfl, he⟩ := Scan.exists_of_statementLength hf hne hn
    have hlength : [Kind.atSign, .word, .delimiter].length ≤ (body ++ last :: rest).length := by
      simp only [AtRule.leastSize, List.length_append, List.length_cons, List.length_nil]
        at hleast ⊢
      omega
    exact ⟨hlength, fun e => Scan.exists_of_requireWithin hlength⟩
  third n hn hleast hkinds := by
    obtain ⟨body, last, rest, rfl, rfl, he⟩ := Scan.exists_of_statementLength hf hne hn
    obtain _ | ⟨mark, _ | ⟨name, _ | ⟨gap, value⟩⟩⟩ := body
    case cons.cons.cons =>
      obtain ⟨hmark, hname, hgap⟩ := AtRule.requireKinds_eq_ok_iff.mp hkinds
      rw [take_through, AtRule.significant_segment hmark hname hgap he.last]
      exact List.concat_ne_nil last _
    all_goals simp [AtRule.leastSize] at hleast

/-- An at-rule or a statement is only looked for where blocks are drained. -/
def Event.InOrder : Event → Prop
  | .tried .block w => Searched w.rest
  | .tried .atRule w => Drained w.rest
  | .tried .statement w => Drained w.rest
  | _ => True

theorem Header.read_inOrder (ts : List Token) : (read ts).Always Event.InOrder := by
  unfold read
  split
  · exact .bind (Run.always_note trivial) fun _ _ => Run.always_pure _
  · exact Run.always_fail _
  · exact Run.always_pure _

namespace Parser
variable {inner : Inner} {w : Window}

theorem blocks_inOrder (hi : ∀ brace around v, (inner brace around v).Always Event.InOrder) :
    (blocks inner w).Always Event.InOrder := by
  induction hn : w.rest.length using Nat.strong_induction_on generalizing w with
  | _ n ih =>
    rw [blocks]
    split
    next => exact Run.always_pure _
    next brace back hd =>
      have hne : w.rest ≠ [] := by
        intro hnil
        simp [hnil] at hd
      refine .bind (Run.always_of _) fun close _ => .bind (hi _ _ _) fun content _ => ?_
      refine .bind (Header.read_inOrder _) fun header _ => .bind (Run.always_note trivial) ?_
      intro _ _
      exact (ih _ (hn ▸ advance_rest_lt hne) rfl).map _

theorem takeBlocks_inOrder (hi : ∀ brace around v, (inner brace around v).Always Event.InOrder)
    (hw : w.rest ≠ []) : (takeBlocks inner w).Always Event.InOrder :=
  .bind (Run.always_note (searched hw)) fun _ _ => .bind (Run.always_note trivial) fun _ _ =>
    blocks_inOrder hi

theorem takeAtRule_inOrder (hw : Drained w.rest) : (takeAtRule w).Always Event.InOrder := by
  refine .bind (Run.always_note hw) fun _ _ => ?_
  split
  · refine .bind (Run.always_note trivial) fun _ _ => .bind (Run.always_of _) fun rule _ => ?_
    exact .bind (Run.always_note trivial) fun _ _ => Run.always_pure _
  · exact Run.always_pure _

theorem takeStatement_inOrder (hw : Drained w.rest) :
    (takeStatement w).Always Event.InOrder := by
  refine .bind (Run.always_note hw) fun _ _ => ?_
  split
  · exact Run.always_pure _
  · split
    · exact Run.always_pure _
    · split
      · refine .bind (Run.always_note trivial) fun _ _ => .bind (Run.always_of _) fun s _ => ?_
        exact .bind (Run.always_note trivial) fun _ _ => Run.always_pure _
      · exact Run.always_pure _

/-- A second step is made only where tokens are left. -/
theorem andThen_always {P : Event → Prop} {x : Step} {f : Window → Step} (hx : x.Always P)
    (hf : ∀ y, x.result = .ok y → y.2.rest ≠ [] → (f y.2).Always P) :
    (andThen x f).Always P := by
  refine .bind hx fun y hy => ?_
  by_cases hnil : y.2.rest = []
  · simp only [hnil, List.isEmpty_nil, if_true]
    exact Run.always_pure _
  · simp only [List.isEmpty_iff, hnil, if_false]
    exact (hf y hy hnil).map _

theorem pass_inOrder (hi : ∀ brace around v, (inner brace around v).Always Event.InOrder)
    (hw : w.rest ≠ []) : (pass inner w).Always Event.InOrder := by
  refine .bind (Run.always_note trivial) fun _ _ => ?_
  apply andThen_always
  · apply andThen_always (takeBlocks_inOrder hi hw)
    intro y hy hne
    exact takeAtRule_inOrder (drained (takeBlocks_advances hy).2 hne)
  · intro y hy hne
    exact takeStatement_inOrder (drained (takeBlocksAtRule_advances hy).2 hne)

theorem passes_inOrder (hi : ∀ brace around v, (inner brace around v).Always Event.InOrder) :
    (passes inner w).Always Event.InOrder := by
  induction hn : w.rest.length using Nat.strong_induction_on generalizing w with
  | _ n ih =>
    rw [passes]
    split
    next => exact Run.always_pure _
    next front back hw =>
      have hne : w.rest ≠ [] := by simp [hw]
      refine .bind (pass_inOrder hi hne) fun y _ => ?_
      by_cases hlt : y.2.rest.length < w.rest.length
      · simp only [hlt, if_true]
        exact .bind (Run.always_note trivial) fun _ _ => (ih _ (hn ▸ hlt) rfl).map _
      · simp only [hlt, if_false]
        exact Run.always_fail _

theorem range_inOrder (room depth : Nat) (outer : Option Window) (w : Window) :
    (range room depth outer w).Always Event.InOrder := by
  induction room generalizing depth outer w with
  | zero =>
    refine .bind (Run.always_note trivial) fun _ _ => passes_inOrder ?_
    intro brace around v
    exact Run.always_fail _
  | succ room ih =>
    refine .bind (Run.always_note trivial) fun _ _ => passes_inOrder ?_
    intro brace around v
    exact ih (depth + 1) (some around) v

end Parser

/-- No block of the list stands behind an at-rule or a statement. -/
def Node.BlocksFirst (nodes : List Node) : Prop := nodes.Pairwise fun m n => n.isBlock → m.isBlock

namespace Spells
variable {room p : Nat} {ts : List Token} {nodes : List Node}

theorem isBlock_eq_false (h : Spells room p ts nodes) (hf : Flat ts) :
    ∀ n ∈ nodes, n.isBlock = false := by
  induction h with
  | nothing => exact List.forall_mem_nil _
  | trailing => exact List.forall_mem_nil _
  | @atRule room p body rest last nodes _ he hb more ih =>
    rw [List.append_cons] at hf
    exact List.forall_mem_cons.mpr ⟨rfl, ih (flat_append.mp hf).2⟩
  | @statement room p body value rest property last nodes _ he hb hs more ih =>
    rw [List.append_cons] at hf
    exact List.forall_mem_cons.mpr ⟨rfl, ih (flat_append.mp hf).2⟩
  | block _ hb =>
    have hbrace := hf _ List.mem_append_cons_self
    rw [hb] at hbrace
    cases hbrace

/-- Behind a node in front of flat tokens there is no block. -/
theorem blocksFirst_cons {n : Node} (h : Spells room p ts nodes) (hf : Flat ts)
    (hnodes : Node.BlocksFirst nodes) : Node.BlocksFirst (n :: nodes) := by
  refine List.pairwise_cons.mpr ⟨fun m hm hblock => ?_, hnodes⟩
  rw [h.isBlock_eq_false hf m hm] at hblock
  cases hblock

theorem blocksFirst (h : Spells room p ts nodes) :
    Node.BlocksFirst nodes ∧ ∀ n ∈ Node.preorderAll nodes, Node.BlocksFirst n.content := by
  have hnil : Node.BlocksFirst [] := List.Pairwise.nil
  induction h with
  | nothing => exact ⟨hnil, List.forall_mem_nil _⟩
  | trailing => exact ⟨hnil, List.forall_mem_nil _⟩
  | @atRule room p body rest last nodes hf he hb more ih =>
    rw [List.append_cons] at hf
    rw [Node.preorderAll, Node.preorder, List.singleton_append, List.forall_mem_cons]
    exact ⟨more.blocksFirst_cons (flat_append.mp hf).2 ih.1, hnil, ih.2⟩
  | @statement room p body value rest property last nodes hf he hb hs more ih =>
    rw [List.append_cons] at hf
    rw [Node.preorderAll, Node.preorder, List.singleton_append, List.forall_mem_cons]
    exact ⟨more.blocksFirst_cons (flat_append.mp hf).2 ih.1, hnil, ih.2⟩
  | block hf hb hi hc hh body more ihb ihm =>
    rw [Node.preorderAll, Node.preorder, List.cons_append, List.forall_mem_cons,
      List.forall_mem_append]
    refine ⟨List.pairwise_cons.mpr ⟨fun _ _ _ => rfl, ihm.1⟩, ihb.1, ihb.2, ihm.2⟩

end Spells

theorem parse_inOrder (config : Config) (ts : List Token) :
    (parse config ts).Always Event.InOrder :=
  .bind (Run.always_note trivial) fun _ _ => Parser.range_inOrder _ _ _ _

/-- Blocks are drained first, in every range of every run, whether it fails or not. At-rules and
statements are looked for only where no opening brace is left, which keeps readers from some of their
errors; an error always is at a token; and in a tree that is found, no block stands behind an at-rule
or a statement. -/
theorem parse_drains (config : Config) (ts : List Token) :
    (∀ e ∈ (parse config ts).events, e.InOrder) ∧
      (∀ e, (parse config ts).result = .error e → ∃ t ∈ ts, e.Cites e.cause t) ∧
      ∀ nodes, (parse config ts).result = .ok nodes → Node.BlocksFirst nodes ∧
        ∀ n ∈ Node.preorderAll nodes, Node.BlocksFirst n.content := by
  refine ⟨parse_inOrder config ts, ?_, ?_⟩
  · intro e he
    obtain ⟨front, t, back, rfl, hcites, -⟩ := (parse_error_iff.mp he).blamed
    exact ⟨t, List.mem_append_cons_self, hcites⟩
  · intro nodes h
    exact (parse_ok_iff.mp h).blocksFirst

theorem parse_drains_nested :
    (∃ w, Event.tried .statement w ∈
        (parse {} (Source.tokens ⟨none, "a\x7bb;\x7d@"⟩)).events ∧ w.position = 2 ∧
      Drained w.rest) ∧
    (∃ e, (parse {} (Source.tokens ⟨none, "a\x7bb;\x7d@"⟩)).result = .error e ∧
      ∃ t ∈ Source.tokens ⟨none, "a\x7bb;\x7d@"⟩, e.Cites .unknownToken t) ∧
    ∃ n m, (parse {} (Source.tokens ⟨none, "a\x7bb;\x7dc;"⟩)).result = .ok [n, m] ∧
      n.isBlock ∧ m.isStatement ∧ Node.BlocksFirst [n, m] := by
  obtain ⟨hevents, herror, -⟩ := parse_drains {} (Source.tokens ⟨none, "a\x7bb;\x7d@"⟩)
  obtain ⟨-, -, hnodes⟩ := parse_drains {} (Source.tokens ⟨none, "a\x7bb;\x7dc;"⟩)
  have htried : (parse {} (Source.tokens ⟨none, "a\x7bb;\x7d@"⟩)).events[10]? =
      some (.tried .statement ⟨2, 2, [⟨.word, "b", 2, ⟨none, "a\x7bb;\x7d@"⟩⟩,
        ⟨.semicolon, ";", 3, ⟨none, "a\x7bb;\x7d@"⟩⟩]⟩) := by cbv
  have hfails : (parse {} (Source.tokens ⟨none, "a\x7bb;\x7d@"⟩)).result =
      .error (Token.fault ⟨.atSign, "@", 5, ⟨none, "a\x7bb;\x7d@"⟩⟩ .unknownToken) := by cbv
  have hfound : (parse {} (Source.tokens ⟨none, "a\x7bb;\x7dc;"⟩)).result =
      .ok [.block (.selectors ["a"]) [.statement "b" [] ⟨2, 4⟩] ⟨0, 5⟩,
        .statement "c" [] ⟨5, 7⟩] := by cbv
  refine ⟨⟨_, List.mem_of_getElem? htried, rfl, ?_⟩, ?_, ?_⟩
  · exact hevents _ (List.mem_of_getElem? htried)
  · exact ⟨_, hfails, herror _ hfails⟩
  · exact ⟨_, _, hfound, rfl, rfl, (hnodes _ hfound).1⟩

end RuleTree
