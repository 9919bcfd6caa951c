import Mathlib
import RuleTree.Parser
import RuleTree.Success
import RuleTree.Token.Lexer

/-! The log of a parse beside its tree. A parse that succeeds leaves one record for each node,
behind those of the node's content, and enters one range for each block, in the order in which the
blocks begin. -/
namespace RuleTree
namespace Node

mutual

/-- A node and the nodes below it, each behind its content. -/
def postorder : Node → List Node
  | .block header content span => postorderAll content ++ [.block header content span]
  | .atRule tokens span => [.atRule tokens span]
  | .statement property value span => [.statement property value span]

def postorderAll : List Node → List Node
  | [] => []
  | n :: ns => n.postorder ++ postorderAll ns

end

mutual

/-- How many blocks enclose the content of each block at and below a node, itself included, in the
order in which the blocks begin. The node stands inside `level` blocks. -/
def levels (level : Nat) : Node → List Nat
  | .block _ content _ => (level + 1) :: levelsAll (level + 1) content
  | .atRule .. => []
  | .statement .. => []

def levelsAll (level : Nat) : List Node → List Nat
  | [] => []
  | n :: ns => levels level n ++ levelsAll level ns

end

variable (level : Nat) (ms ns : List Node)

theorem postorderAll_append : postorderAll (ms ++ ns) = postorderAll ms ++ postorderAll ns := by
  induction ms with
  | nil => rfl
  | cons n ms ih => rw [List.cons_append, postorderAll, postorderAll, ih, List.append_assoc]

theorem levelsAll_append :
    levelsAll level (ms ++ ns) = levelsAll level ms ++ levelsAll level ns := by
  induction ms with
  | nil => rfl
  | cons n ms ih => rw [List.cons_append, levelsAll, levelsAll, ih, List.append_assoc]

theorem preorderAll_append : preorderAll (ms ++ ns) = preorderAll ms ++ preorderAll ns := by
  induction ms with
  | nil => rfl
  | cons n ms ih => rw [List.cons_append, preorderAll, preorderAll, ih, List.append_assoc]

theorem record_level (n : Node) : n.record.level = .debug := by
  cases n <;> rfl

end Node

/-- How positions of tokens are shown in a message. -/
def Record.positions (start stop : Nat) : String :=
  "Span \x7b start: " ++ toString start ++ ", end: " ++ toString stop ++ " \x7d"

/-- The record tells of the node: of the header of a block, of an at-rule's name, which is its
second token, or of a property, and of the positions of its tokens. -/
inductive Node.Recorded : Node → Record → Prop
  | named {name : String} {content : List Node} {s : Span} :
      Recorded (.block (.atRule name) content s) ⟨.debug, "cssnest_parser::parser::block",
        "block " ++ ("Kind(" ++ Text.quoted name ++ ")") ++ " spanning tokens " ++
          Record.positions s.start s.stop⟩
  | styled {list : List String} {content : List Node} {s : Span} :
      Recorded (.block (.selectors list) content s) ⟨.debug, "cssnest_parser::parser::block",
        "block " ++ ("Selectors([" ++ ", ".intercalate (list.map Text.quoted) ++ "])") ++
          " spanning tokens " ++ Record.positions s.start s.stop⟩
  | atRule {mark name : Token} {value : List Token} {s : Span} :
      Recorded (.atRule (mark :: name :: value) s) ⟨.debug, "cssnest_parser::parser::at_rule",
        "at-rule @" ++ name.text ++ " spanning tokens " ++ Record.positions s.start s.stop⟩
  | statement {property : String} {value : List Token} {s : Span} :
      Recorded (.statement property value s) ⟨.debug, "cssnest_parser::parser::statement",
        "statement " ++ property ++ " spanning tokens " ++ Record.positions s.start s.stop⟩

theorem Node.recorded_block (header : Header) (content : List Node) (s : Span) :
    (Node.block header content s).Recorded (Node.block header content s).record := by
  cases header with
  | atRule name => exact .named
  | selectors list => exact .styled

namespace Record

/-- The record of a range that is entered inside `depth` blocks. -/
def entry (depth : Nat) : Record :=
  ⟨.trace, "cssnest_parser::parser", "parse_tokens (depth " ++ toString depth ++ ")"⟩

def isEntry (r : Record) : Bool :=
  r.level == .trace && "parse_tokens (depth ".toList.isPrefixOf r.message.toList

def isDebug (r : Record) : Bool := r.level == .debug

/-- The record that the selectors of a header are read. -/
def selecting : Record :=
  ⟨.trace, "cssnest_parser::parser::selector_list", "parse_selector_list"⟩

/-- The record that a node of the shape is read. -/
def took (shape : Shape) : Record := ⟨.trace, shape.speaker, shape.activity⟩

theorem isEntry_entry (depth : Nat) : (entry depth).isEntry := by
  simp only [isEntry, entry, String.toList_append, List.append_assoc, Bool.and_eq_true,
    List.isPrefixOf_iff_prefix]
  exact ⟨rfl, List.prefix_append ..⟩

variable {r : Record}

theorem count_debug {d : Record} (hr : r.level = .trace) (hd : d.level = .debug)
    (log : List Record) : (d :: log).count r = log.count r := by
  apply List.count_cons_of_ne
  rintro rfl
  cases hr.symm.trans hd

theorem count_entry (hr : r.speaker ≠ "cssnest_parser::parser") (depth : Nat)
    (log : List Record) : (entry depth :: log).count r = log.count r := by
  apply List.count_cons_of_ne
  rintro rfl
  exact hr rfl

end Record

/-- What reading a header leaves in the log. -/
def Header.log : Header → List Record
  | .atRule _ => []
  | .selectors _ => [.selecting]

/-- The log tells of the nodes, which stand inside `level` blocks. -/
structure Mirrors (level : Nat) (log : List Record) (nodes : List Node) : Prop where
  found : List.Forall₂ Node.Recorded (Node.postorderAll nodes) (log.filter Record.isDebug)
  entries : log.filter Record.isEntry = (Node.levelsAll level nodes).map Record.entry
  atRules : log.count (.took .atRule) = (Node.preorderAll nodes).countP Node.isAtRule
  statements : log.count (.took .statement) = (Node.preorderAll nodes).countP Node.isStatement
  selections : log.count .selecting =
    (Node.preorderAll nodes).countP fun n => n.selectors?.isSome

namespace Mirrors
variable {level : Nat} {log log' : List Record} {nodes nodes' : List Node}

theorem nil : Mirrors level [] [] := ⟨.nil, rfl, rfl, rfl, rfl⟩

theorem append (h : Mirrors level log nodes) (h' : Mirrors level log' nodes') :
    Mirrors level (log ++ log') (nodes ++ nodes') where
  found := by
    rw [List.filter_append, Node.postorderAll_append]
    exact List.rel_append h.found h'.found
  entries := by
    rw [List.filter_append, h.entries, h'.entries, Node.levelsAll_append, List.map_append]
  atRules := by
    rw [List.count_append, h.atRules, h'.atRules, Node.preorderAll_append, List.countP_append]
  statements := by
    rw [List.count_append, h.statements, h'.statements, Node.preorderAll_append,
      List.countP_append]
  selections := by
    rw [List.count_append, h.selections, h'.selections, Node.preorderAll_append,
      List.countP_append]

theorem tookBlock : Mirrors level [.took .block] [] := ⟨.nil, rfl, rfl, rfl, rfl⟩

theorem atRule (mark name : Token) (value : List Token) (span : Span) :
    Mirrors level [.took .atRule, (Node.atRule (mark :: name :: value) span).record]
      [.atRule (mark :: name :: value) span] :=
  ⟨.cons .atRule .nil, rfl, rfl, rfl, rfl⟩

theorem statement (property : String) (value : List Token) (span : Span) :
    Mirrors level [.took .statement, (Node.statement property value span).record]
      [.statement property value span] :=
  ⟨.cons .statement .nil, rfl, rfl, rfl, rfl⟩

/-- A block's range is entered in front of its content, and its header is read behind it. -/
theorem block {content : List Node} (h : Mirrors (level + 1) log content) (header : Header)
    (span : Span) :
    Mirrors level (.entry (level + 1) :: (log ++ (header.log ++
      [(Node.block header content span).record]))) [.block header content span] := by
  have hpreorder : Node.preorderAll [.block header content span] =
      .block header content span :: Node.preorderAll content := List.append_nil _
  have hpostorder : Node.postorderAll [.block header content span] =
      Node.postorderAll content ++ [.block header content span] := List.append_nil _
  have hlevels : Node.levelsAll level [.block header content span] =
      (level + 1) :: Node.levelsAll (level + 1) content := List.append_nil _
  have hcount : ∀ r : Record, r.level = .trace → r.speaker ≠ "cssnest_parser::parser" →
      (Record.entry (level + 1) :: (log ++ (header.log ++
        [(Node.block header content span).record]))).count r =
          log.count r + header.log.count r := by
    intro r hlevel hspeaker
    rw [Record.count_entry hspeaker, List.count_append, List.count_append,
      Record.count_debug hlevel (Node.record_level _), List.count_nil, Nat.add_zero]
  constructor
  · have hentry : ¬ (Record.entry (level + 1)).isDebug := Bool.false_ne_true
    have hheader : (header.log ++ [(Node.block header content span).record]).filter
        Record.isDebug = [(Node.block header content span).record] := by cases header <;> rfl
    rw [List.filter_cons_of_neg hentry, List.filter_append, hheader, hpostorder]
    exact List.rel_append h.found (.cons (Node.recorded_block header content span) .nil)
  · have hheader : (header.log ++ [(Node.block header content span).record]).filter
        Record.isEntry = [] := by cases header <;> rfl
    rw [List.filter_cons_of_pos (Record.isEntry_entry _), List.filter_append, h.entries, hheader,
      List.append_nil, hlevels, List.map_cons]
  · have hheader : header.log.count (.took .atRule) = 0 := by cases header <;> rfl
    rw [hcount _ rfl (by decide), h.atRules, hheader, hpreorder,
      List.countP_cons_of_neg Bool.false_ne_true, Nat.add_zero]
  · have hheader : header.log.count (.took .statement) = 0 := by cases header <;> rfl
    rw [hcount _ rfl (by decide), h.statements, hheader, hpreorder,
      List.countP_cons_of_neg Bool.false_ne_true, Nat.add_zero]
  · have hheader : header.log.count .selecting =
        if (Node.block header content span).selectors?.isSome then 1 else 0 := by
      cases header <;> rfl
    rw [hcount _ rfl (by decide), h.selections, hheader, hpreorder, List.countP_cons]

end Mirrors

namespace Run
variable {α β : Type} {x : Run α} {f : α → Run β}

/-- A run that goes on to a result leaves the log of both parts. -/
theorem exists_of_bind_ok {b : β} (h : (x >>= f).result = .ok b) :
    ∃ a, x.result = .ok a ∧ (f a).result = .ok b ∧ (x >>= f).log = x.log ++ (f a).log := by
  rw [bind_result] at h
  obtain ⟨a, ha, hb⟩ := bind_eq_ok_iff.mp h
  refine ⟨a, ha, hb, ?_⟩
  rw [log, bind_events_of_ok ha, List.filterMap_append]
  rfl

/-- The log of a run, if it succeeds, tells of the nodes that it found inside `level` blocks. -/
def Mirrors (level : Nat) (nodes : α → List Node) (x : Run α) : Prop :=
  ∀ a, x.result = .ok a → RuleTree.Mirrors level x.log (nodes a)

theorem Mirrors.silently {level : Nat} {nodes : α → List Node} {e : Event}
    (he : e.record? = none) (hx : x.Mirrors level nodes) :
    (note e >>= fun _ => x).Mirrors level nodes := by
  intro a ha
  obtain ⟨_, -, ha, hlog⟩ := exists_of_bind_ok ha
  have hnote : (note e).log = [] := List.filterMap_cons_none he
  rw [hlog, hnote, List.nil_append]
  exact hx a ha

end Run

namespace Header

theorem log_read {ts : List Token} {header : Header} (h : (read ts).result = .ok header) :
    (read ts).log = header.log := by
  unfold read at h ⊢
  split at h
  · cases h
    rfl
  · cases h
  · cases h
    rfl

end Header

/-- An at-rule that is read has a name behind its mark. -/
theorem AtRule.exists_name_of_read {ts : List Token} {rule : AtRule} (h : read ts = .ok rule) :
    ∃ mark name value, rule.tokens = mark :: name :: value := by
  obtain ⟨size, -, h⟩ := bind_eq_ok_iff.mp h
  split at h
  · cases h
  obtain ⟨_, -, h⟩ := bind_eq_ok_iff.mp h
  generalize Scan.significant (ts.take size) = tokens at h
  obtain _ | ⟨mark, _ | ⟨name, _ | ⟨value, more⟩⟩⟩ := tokens
  case cons.cons.cons =>
    simp only [List.drop_succ_cons, List.drop_zero] at h
    split at h
    · cases h
    · cases h
      exact ⟨mark, name, _, rfl⟩
  all_goals cases h

namespace Parser
variable {inner : Inner} {level : Nat}

/-- The ranges inside blocks leave a log of their nodes, behind the record that they are entered. -/
def Enters (level : Nat) (inner : Inner) : Prop :=
  ∀ brace around v content, (inner brace around v).result = .ok content →
    ∃ log, (inner brace around v).log = .entry (level + 1) :: log ∧
      Mirrors (level + 1) log content

theorem blocks_mirrors (hi : Enters level inner) (w : Window) :
    (blocks inner w).Mirrors level Prod.fst := by
  induction hn : w.rest.length using Nat.strong_induction_on generalizing w with
  | _ n ih =>
    rw [blocks]
    split
    next =>
      intro a ha
      cases ha
      exact .nil
    next brace back hd =>
      have hne : w.rest ≠ [] := by
        intro hnil
        simp [hnil] at hd
      intro a ha
      obtain ⟨close, hclose, ha, hlog⟩ := Run.exists_of_bind_ok ha
      obtain ⟨content, hcontent, ha, hlog'⟩ := Run.exists_of_bind_ok ha
      obtain ⟨header, hheader, ha, hlog''⟩ := Run.exists_of_bind_ok ha
      obtain ⟨_, -, ha, hlog'''⟩ := Run.exists_of_bind_ok ha
      obtain ⟨more, hmore, rfl⟩ := map_eq_ok_iff.mp ha
      obtain ⟨log, hinner, hbody⟩ := hi _ _ _ _ hcontent
      have hlt : (w.advance (close + 1)).rest.length < n := hn ▸ advance_rest_lt hne
      have hrest := ih _ hlt _ rfl more hmore
      have hblock := (hbody.block header (w.span (close + 1))).append hrest
      rw [hlog, hlog', hlog'', hlog''', hinner, Header.log_read hheader]
      simp only [List.cons_append, List.append_assoc, List.nil_append] at hblock
      exact hblock

theorem takeBlocks_mirrors (hi : Enters level inner) (w : Window) :
    (takeBlocks inner w).Mirrors level Prod.fst := by
  apply Run.Mirrors.silently rfl
  intro a ha
  obtain ⟨_, -, ha, hlog⟩ := Run.exists_of_bind_ok ha
  rw [hlog]
  exact Mirrors.tookBlock.append (blocks_mirrors hi w a ha)

/-- What a segment that is read leaves in the log. -/
theorem segment_mirrors {α : Type} {shape : Shape} {x : Except ParseError α} {node : α → Node}
    {next : α → Window}
    (hnode : ∀ a, x = .ok a → Mirrors level [.took shape, (node a).record] [node a]) :
    (do
      Run.note (.took shape)
      let a ← Run.of x
      Run.note (.found (node a))
      return ([node a], next a) : Step).Mirrors level Prod.fst := by
  intro a ha
  obtain ⟨_, -, ha, hlog⟩ := Run.exists_of_bind_ok ha
  obtain ⟨b, hb, ha, hlog'⟩ := Run.exists_of_bind_ok ha
  obtain ⟨_, -, ha, hlog''⟩ := Run.exists_of_bind_ok ha
  cases ha
  rw [hlog, hlog', hlog'']
  exact hnode b hb

theorem nothing_mirrors (w : Window) : (pure ([], w) : Step).Mirrors level Prod.fst := by
  intro a ha
  cases ha
  exact .nil

theorem takeAtRule_mirrors (w : Window) : (takeAtRule w).Mirrors level Prod.fst := by
  apply Run.Mirrors.silently rfl
  split
  · refine segment_mirrors fun rule hrule => ?_
    obtain ⟨mark, name, value, htokens⟩ := AtRule.exists_name_of_read hrule
    rw [htokens]
    exact .atRule mark name value (w.span rule.size)
  · exact nothing_mirrors w

theorem takeStatement_mirrors (w : Window) : (takeStatement w).Mirrors level Prod.fst := by
  apply Run.Mirrors.silently rfl
  split
  · exact nothing_mirrors w
  · split
    · exact nothing_mirrors (w.advance 1)
    · split
      · exact segment_mirrors fun s _ => .statement s.property s.value (w.span s.size)
      · exact nothing_mirrors w

theorem andThen_mirrors {x : Step} {f : Window → Step} (hx : x.Mirrors level Prod.fst)
    (hf : ∀ w, (f w).Mirrors level Prod.fst) : (andThen x f).Mirrors level Prod.fst := by
  intro a ha
  obtain ⟨⟨found, w⟩, hfound, ha, hlog⟩ := Run.exists_of_bind_ok ha
  rw [andThen, hlog]
  by_cases hw : w.rest.isEmpty
  · simp only [hw, if_true] at ha ⊢
    cases ha
    change Mirrors level (x.log ++ []) found
    rw [List.append_nil]
    exact hx _ hfound
  · simp only [hw] at ha ⊢
    obtain ⟨more, hmore, rfl⟩ := map_eq_ok_iff.mp ha
    exact (hx _ hfound).append (hf w more hmore)

theorem pass_mirrors (hi : Enters level inner) (w : Window) :
    (pass inner w).Mirrors level Prod.fst := by
  apply Run.Mirrors.silently rfl
  exact andThen_mirrors (andThen_mirrors (takeBlocks_mirrors hi w) takeAtRule_mirrors)
    takeStatement_mirrors

theorem passes_mirrors (hi : Enters level inner) (w : Window) :
    (passes inner w).Mirrors level id := by
  induction hn : w.rest.length using Nat.strong_induction_on generalizing w with
  | _ n ih =>
    rw [passes]
    split
    next =>
      intro a ha
      cases ha
      exact .nil
    next front back hw =>
      intro a ha
      obtain ⟨⟨found, v⟩, hfound, ha, hlog⟩ := Run.exists_of_bind_ok ha
      rw [hlog]
      by_cases hlt : v.rest.length < w.rest.length
      · simp only [hlt, if_true] at ha ⊢
        obtain ⟨_, -, ha, hlog'⟩ := Run.exists_of_bind_ok ha
        obtain ⟨more, hmore, rfl⟩ := map_eq_ok_iff.mp ha
        rw [hlog']
        exact (pass_mirrors hi w _ hfound).append (ih _ (hn ▸ hlt) v rfl more hmore)
      · simp only [hlt, if_false] at ha
        cases ha

/-- A range leaves the record that it is entered, and the log of its nodes. -/
theorem range_mirrors (room level : Nat) (outer : Option Window) (w : Window) (nodes : List Node)
    (h : (range room level outer w).result = .ok nodes) :
    ∃ log, (range room level outer w).log = .entry level :: log ∧ Mirrors level log nodes := by
  induction room generalizing level outer w nodes with
  | zero =>
    obtain ⟨_, -, h, hlog⟩ := Run.exists_of_bind_ok h
    refine ⟨_, hlog, passes_mirrors ?_ w nodes h⟩
    intro brace around v content hc
    cases hc
  | succ room ih =>
    obtain ⟨_, -, h, hlog⟩ := Run.exists_of_bind_ok h
    refine ⟨_, hlog, passes_mirrors ?_ w nodes h⟩
    intro brace around v content hc
    exact ih _ _ _ _ hc

end Parser

/-- The log of a parse that succeeds mirrors the tree. Behind the first record there is one debug
record for each node, in postorder, and it tells of that node; ranges are entered once for the whole
and once for each block, in preorder; and at-rules, statements and selectors are read as often as
the tree holds them. -/
theorem parse_log (config : Config) (ts : List Token) (nodes : List Node)
    (h : (parse config ts).result = .ok nodes) :
    (∃ more, (parse config ts).log = ⟨.debug, "cssnest_parser", "parsing " ++ toString ts.length ++
        " tokens from " ++ config.source.getD "<unknown>"⟩ :: more ∧
      List.Forall₂ Node.Recorded (Node.postorderAll nodes) (more.filter Record.isDebug)) ∧
    (parse config ts).log.filter Record.isEntry =
      (0 :: Node.levelsAll 0 nodes).map Record.entry ∧
    (parse config ts).log.count ⟨.trace, "cssnest_parser::parser::at_rule", "parse_at_rule"⟩ =
      (Node.preorderAll nodes).countP Node.isAtRule ∧
    (parse config ts).log.count ⟨.trace, "cssnest_parser::parser::statement", "parse_statement"⟩ =
      (Node.preorderAll nodes).countP Node.isStatement ∧
    (parse config ts).log.count
        ⟨.trace, "cssnest_parser::parser::selector_list", "parse_selector_list"⟩ =
      (Node.preorderAll nodes).countP fun n => n.selectors?.isSome := by
  obtain ⟨_, -, hrange, hlog⟩ := Run.exists_of_bind_ok h
  obtain ⟨log, hentered, hmirrors⟩ := Parser.range_mirrors _ _ _ _ nodes hrange
  have hcount : ∀ r : Record, r.level = .trace → r.speaker ≠ "cssnest_parser::parser" →
      (parse config ts).log.count r = log.count r := by
    intro r hlevel hspeaker
    rw [parse, hlog, hentered]
    exact (Record.count_debug hlevel rfl _).trans (Record.count_entry hspeaker 0 log)
  refine ⟨?_, ?_, ?_, ?_, ?_⟩
  · rw [parse, hlog, hentered]
    exact ⟨_, rfl, hmirrors.found⟩
  · rw [parse, hlog, hentered, List.map_cons, ← hmirrors.entries]
    exact List.filter_cons_of_pos (Record.isEntry_entry 0)
  · exact (hcount _ rfl (by decide)).trans hmirrors.atRules
  · exact (hcount _ rfl (by decide)).trans hmirrors.statements
  · exact (hcount _ rfl (by decide)).trans hmirrors.selections

theorem parse_log_nested :
    ∃ nodes, (parse {} (Source.tokens ⟨none, "@m\x7ba\x7b\x7db;\x7dc\x7b\x7d"⟩)).result = .ok nodes ∧
      (∃ first more, (parse {} (Source.tokens ⟨none, "@m\x7ba\x7b\x7db;\x7dc\x7b\x7d"⟩)).log =
          first :: more ∧ more.filter Record.isDebug =
            [⟨.debug, "cssnest_parser::parser::block",
                "block Selectors([\"a\"]) spanning tokens Span \x7b start: 3, end: 6 \x7d"⟩,
              ⟨.debug, "cssnest_parser::parser::statement",
                "statement b spanning tokens Span \x7b start: 6, end: 8 \x7d"⟩,
              ⟨.debug, "cssnest_parser::parser::block",
                "block Kind(\"m\") spanning tokens Span \x7b start: 0, end: 9 \x7d"⟩,
              ⟨.debug, "cssnest_parser::parser::block",
                "block Selectors([\"c\"]) spanning tokens Span \x7b start: 9, end: 12 \x7d"⟩]) ∧
      (parse {} (Source.tokens ⟨none, "@m\x7ba\x7b\x7db;\x7dc\x7b\x7d"⟩)).log.filter
        Record.isEntry = [.entry 0, .entry 1, .entry 2, .entry 1] ∧
      (parse {} (Source.tokens ⟨none, "@m\x7ba\x7b\x7db;\x7dc\x7b\x7d"⟩)).log.count
        .selecting = 2 := by
  have h : (parse {} (Source.tokens ⟨none, "@m\x7ba\x7b\x7db;\x7dc\x7b\x7d"⟩)).result =
      .ok [.block (.atRule "m") [.block (.selectors ["a"]) [] ⟨3, 6⟩, .statement "b" [] ⟨6, 8⟩]
        ⟨0, 9⟩, .block (.selectors ["c"]) [] ⟨9, 12⟩] := by cbv
  obtain ⟨⟨more, hlog, hfound⟩, hentries, -, -, hselections⟩ := parse_log _ _ _ h
  refine ⟨_, h, ⟨_, more, hlog, ?_⟩, hentries, hselections⟩
  generalize more.filter Record.isDebug = records at hfound
  obtain _ | ⟨hfirst, _ | ⟨hsecond, _ | ⟨hthird, _ | ⟨hfourth, _ | _⟩⟩⟩⟩ := hfound
  cases hfirst
  cases hsecond
  cases hthird
  cases hfourth
  decide +kernel

end RuleTree
