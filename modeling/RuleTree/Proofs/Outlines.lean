import Mathlib
import RuleTree.Outline

/-! Outlines and the shape of trees. An outline has one line for each node, in the order in which
the nodes begin, and their margins and first words tell the shape of the tree, whatever texts
follow. -/
namespace RuleTree
namespace Node

/-- The form of a node. Blocks with a name and blocks with selectors are told apart. -/
inductive Form where
  | ruleBlock | styleBlock | atRule | statement
  deriving DecidableEq

def form : Node → Form
  | .block (.atRule _) _ _ => .ruleBlock
  | .block (.selectors _) _ _ => .styleBlock
  | .atRule .. => .atRule
  | .statement .. => .statement

/-- The texts that a node holds itself. -/
def texts : Node → List String
  | .block (.atRule name) _ _ => [name]
  | .block (.selectors list) _ _ => list
  | .atRule tokens _ => tokens.map Token.text
  | .statement property value _ => property :: value.map Token.text

mutual

/-- A node and the nodes below it, each in front of its content and with the number of blocks that
enclose it. The node itself stands inside `level` blocks. -/
def ranked (level : Nat) : Node → List (Nat × Node)
  | .block header content span =>
    (level, .block header content span) :: rankedAll (level + 1) content
  | .atRule tokens span => [(level, .atRule tokens span)]
  | .statement property value span => [(level, .statement property value span)]

def rankedAll (level : Nat) : List Node → List (Nat × Node)
  | [] => []
  | n :: ns => ranked level n ++ rankedAll level ns

end

/-- Trees that have nodes of the same forms at the same places. -/
inductive SameShape : List Node → List Node → Prop
  | nil : SameShape [] []
  | cons {n n' : Node} {nodes nodes' : List Node} (form : n.form = n'.form)
      (body : SameShape n.content n'.content) (more : SameShape nodes nodes') :
      SameShape (n :: nodes) (n' :: nodes')

/-- No text in the trees has a line feed. -/
def Unbroken (nodes : List Node) : Prop := ∀ n ∈ preorderAll nodes, ∀ s ∈ n.texts, '\n' ∉ s.toList

/-- Induction on lists of trees, through the content of the first tree and the trees behind it. -/
@[elab_as_elim]
theorem forestInduction {motive : List Node → Prop} (nil : motive [])
    (cons : ∀ n ns, motive n.content → motive ns → motive (n :: ns)) : ∀ nodes, motive nodes
  | [] => nil
  | .block _ content _ :: ns =>
    cons _ ns (forestInduction nil cons content) (forestInduction nil cons ns)
  | .atRule .. :: ns => cons _ ns nil (forestInduction nil cons ns)
  | .statement .. :: ns => cons _ ns nil (forestInduction nil cons ns)

section
variable (level : Nat) (n : Node) (ns nodes : List Node)

theorem preorderAll_cons :
    preorderAll (n :: ns) = n :: (preorderAll n.content ++ preorderAll ns) := by
  cases n <;> rfl

theorem rankedAll_cons : rankedAll level (n :: ns) =
    (level, n) :: (rankedAll (level + 1) n.content ++ rankedAll level ns) := by
  cases n <;> rfl

/-- The nodes with their ranks are those of the preorder. -/
theorem map_snd_rankedAll : (rankedAll level nodes).map Prod.snd = preorderAll nodes := by
  induction nodes using forestInduction generalizing level with
  | nil => rfl
  | cons n ns ihc ih =>
    rw [rankedAll_cons, preorderAll_cons, List.map_cons, List.map_append, ihc, ih]

/-- The forms of the nodes, with their ranks. -/
def forms (level : Nat) (nodes : List Node) : List (Nat × Form) :=
  (rankedAll level nodes).map fun p => (p.1, p.2.form)

theorem forms_cons : forms level (n :: ns) =
    (level, n.form) :: (forms (level + 1) n.content ++ forms level ns) := by
  simp only [forms, rankedAll_cons, List.map_cons, List.map_append]

end

/-- The first entry, if there is one, belongs to a node inside fewer than `level` blocks. -/
def Below (level : Nat) (rest : List (Nat × Form)) : Prop := ∀ r ∈ rest.head?, r.1 < level

theorem Below.forms_append {level : Nat} {rest : List (Nat × Form)} (h : Below level rest)
    (nodes : List Node) : Below (level + 1) (forms level nodes ++ rest) := by
  intro r hr
  cases nodes with
  | nil => exact Nat.lt_succ_of_lt (h r hr)
  | cons n ns =>
    rw [forms_cons] at hr
    cases hr
    exact Nat.lt_succ_self level

/-- The forms of nodes end in front of the first one of a lower rank, and tell their shape. -/
theorem sameShape_of_forms {level : Nat} {nodes nodes' : List Node} {rest rest' : List (Nat × Form)}
    (hrest : Below level rest) (hrest' : Below level rest')
    (h : forms level nodes ++ rest = forms level nodes' ++ rest') :
    SameShape nodes nodes' ∧ rest = rest' := by
  induction nodes using forestInduction generalizing level nodes' rest rest' with
  | nil =>
    cases nodes' with
    | nil => exact ⟨.nil, h⟩
    | cons n' ns' =>
      rw [forms_cons] at h
      have hlt := hrest (level, n'.form) (congrArg List.head? h)
      exact absurd hlt (Nat.lt_irrefl level)
  | cons n ns ihc ih =>
    cases nodes' with
    | nil =>
      rw [forms_cons] at h
      have hlt := hrest' (level, n.form) (congrArg List.head? h.symm)
      exact absurd hlt (Nat.lt_irrefl level)
    | cons n' ns' =>
      rw [forms_cons, forms_cons, List.cons_append, List.cons_append, List.append_assoc,
        List.append_assoc] at h
      obtain ⟨hfirst, hmore⟩ := List.cons.inj h
      -- behind the content of the first node stand its siblings, which are of a lower rank
      obtain ⟨hbody, hmore⟩ := ihc (hrest.forms_append ns) (hrest'.forms_append ns') hmore
      obtain ⟨hnodes, hrest⟩ := ih hrest hrest' hmore
      exact ⟨.cons (Prod.mk.inj hfirst).2 hbody hnodes, hrest⟩

end Node

namespace Outline
open Node

/-- What a line begins with behind its margin. -/
def opening : Form → String
  | .ruleBlock => "[Block] kind: "
  | .styleBlock => "[Block] selectors: "
  | .atRule => "[At] "
  | .statement => "[Statement] property: "

/-- What the line of a node says behind its opening. -/
def caption : Node → String
  | .block (.atRule name) _ _ => name
  | .block (.selectors list) _ _ => ", ".intercalate list
  | .atRule tokens _ => joined "" (tokens.take 2) ++ " " ++ joined "" (tokens.drop 2)
  | .statement property value _ => property ++ " value: " ++ joined " " value

/-- The line of a node with its rank. -/
def line (p : Nat × Node) : String := margin p.1 ++ (opening p.2.form ++ caption p.2)

theorem linesAll_cons (level : Nat) (n : Node) (ns : List Node) :
    linesAll level (n :: ns) =
      line (level, n) :: (linesAll (level + 1) n.content ++ linesAll level ns) := by
  cases n with
  | block header content span =>
    cases header <;> rfl
  | atRule tokens span =>
    simp [linesAll, lines, line, opening, form, caption, content, String.append_assoc]
  | statement property value span =>
    simp [linesAll, lines, line, opening, form, caption, content, String.append_assoc]

theorem linesAll_eq_map (level : Nat) (nodes : List Node) :
    linesAll level nodes = (rankedAll level nodes).map line := by
  induction nodes using forestInduction generalizing level with
  | nil => rfl
  | cons n ns ihc ih => rw [linesAll_cons, rankedAll_cons, List.map_cons, List.map_append, ihc, ih]

section
variable {level level' : Nat} {nodes nodes' : List Node}

theorem toList_line (p : Nat × Node) : (line p).toList =
    List.replicate (2 * p.1) ' ' ++ ((opening p.2.form).toList ++ (caption p.2).toList) := by
  rw [line, margin, String.toList_append, String.toList_append, String.toList_ofList]

theorem exists_opening (f : Form) : ∃ more, (opening f).toList = '[' :: more := by
  cases f <;> exact ⟨_, rfl⟩

theorem eq_of_prefix_opening {f g : Form} : (opening f).toList <+: (opening g).toList → f = g := by
  cases f <;> cases g <;> decide

theorem form_eq_of_opening {f g : Form} {xs ys : List Char}
    (h : (opening f).toList ++ xs = (opening g).toList ++ ys) : f = g := by
  have hg : (opening g).toList <+: (opening f).toList ++ xs := h ▸ List.prefix_append _ ys
  rcases List.prefix_or_prefix_of_prefix (List.prefix_append _ xs) hg with hfg | hgf
  · exact eq_of_prefix_opening hfg
  · exact (eq_of_prefix_opening hgf).symm

/-- The rank of a line is told by where its first bracket stands. -/
theorem replicate_append_inj {m m' : Nat} {xs ys : List Char}
    (h : List.replicate m ' ' ++ '[' :: xs = List.replicate m' ' ' ++ '[' :: ys) :
    m = m' ∧ '[' :: xs = '[' :: ys := by
  induction m generalizing m' with
  | zero =>
    cases m' with
    | zero => exact ⟨rfl, h⟩
    | succ m' => exact absurd (List.cons.inj h).1 (by decide)
  | succ m ih =>
    cases m' with
    | zero => exact absurd (List.cons.inj h).1 (by decide)
    | succ m' =>
      obtain ⟨rfl, hmore⟩ := ih (List.cons.inj h).2
      exact ⟨rfl, hmore⟩

theorem rank_eq_of_line {p q : Nat × Node} (h : line p = line q) :
    (p.1, p.2.form) = (q.1, q.2.form) := by
  have hline := congrArg String.toList h
  rw [toList_line, toList_line] at hline
  obtain ⟨xs, hxs⟩ := exists_opening p.2.form
  obtain ⟨ys, hys⟩ := exists_opening q.2.form
  rw [hxs, hys, List.cons_append, List.cons_append] at hline
  obtain ⟨hmargin, hmore⟩ := replicate_append_inj hline
  rw [← List.cons_append, ← List.cons_append, ← hxs, ← hys] at hmore
  exact Prod.ext (Nat.eq_of_mul_eq_mul_left Nat.two_pos hmargin) (form_eq_of_opening hmore)

theorem forms_eq_of_lines (h : linesAll level nodes = linesAll level' nodes') :
    forms level nodes = forms level' nodes' := by
  rw [linesAll_eq_map, linesAll_eq_map] at h
  rw [forms, forms]
  rw [← List.forall₂_eq_eq_eq, List.forall₂_map_left_iff, List.forall₂_map_right_iff] at h ⊢
  exact h.imp fun p q => rank_eq_of_line

end

section
variable {c : Char} {gap : String} {texts : List String} {ts : List Token}

theorem not_mem_intercalate (hgap : c ∉ gap.toList) (h : ∀ s ∈ texts, c ∉ s.toList) :
    c ∉ (gap.intercalate texts).toList := by
  induction texts with
  | nil => simp
  | cons s texts ih =>
    obtain ⟨hs, htexts⟩ := List.forall_mem_cons.mp h
    cases texts with
    | nil => rwa [String.intercalate_singleton]
    | cons t texts =>
      rw [String.intercalate_cons_cons, String.toList_append, String.toList_append,
        List.mem_append, List.mem_append]
      exact not_or.mpr ⟨not_or.mpr ⟨hs, hgap⟩, ih htexts⟩

theorem not_mem_joined (hgap : c ∉ gap.toList) (h : ∀ t ∈ ts, c ∉ t.text.toList) :
    c ∉ (joined gap ts).toList :=
  not_mem_intercalate hgap (List.forall_mem_map.mpr h)

theorem not_mem_caption {n : Node} (h : ∀ s ∈ n.texts, '\n' ∉ s.toList) :
    '\n' ∉ (caption n).toList := by
  cases n with
  | block header content span =>
    cases header with
    | atRule name => exact h name List.mem_cons_self
    | selectors list => exact not_mem_intercalate (by decide) h
  | atRule tokens span =>
    have htokens : ∀ t ∈ tokens, '\n' ∉ t.text.toList :=
      fun t ht => h _ (List.mem_map_of_mem ht)
    have htake : '\n' ∉ (joined "" (tokens.take 2)).toList :=
      not_mem_joined (by decide) fun t ht => htokens t (List.mem_of_mem_take ht)
    have hdrop : '\n' ∉ (joined "" (tokens.drop 2)).toList :=
      not_mem_joined (by decide) fun t ht => htokens t (List.mem_of_mem_drop ht)
    simp only [caption, String.toList_append, List.mem_append, not_or]
    exact ⟨⟨htake, by decide⟩, hdrop⟩
  | statement property value span =>
    obtain ⟨hproperty, hvalue⟩ := List.forall_mem_cons.mp h
    have hjoined : '\n' ∉ (joined " " value).toList :=
      not_mem_joined (by decide) fun t ht => hvalue _ (List.mem_map_of_mem ht)
    simp only [caption, String.toList_append, List.mem_append, not_or]
    exact ⟨⟨hproperty, by decide⟩, hjoined⟩

theorem not_mem_line {p : Nat × Node} (h : ∀ s ∈ p.2.texts, '\n' ∉ s.toList) :
    '\n' ∉ (line p).toList := by
  have hopening : '\n' ∉ (opening p.2.form).toList := by
    cases p.2.form <;> decide
  rw [toList_line, List.mem_append, List.mem_append]
  refine not_or.mpr ⟨fun hmargin => ?_, not_or.mpr ⟨hopening, not_mem_caption h⟩⟩
  exact absurd (List.eq_of_mem_replicate hmargin) (by decide)

end

/-- Lines that are ended by line feeds are told apart again. -/
theorem splitOn_lines {ls : List (List Char)} (h : ∀ l ∈ ls, '\n' ∉ l) :
    (ls.flatMap (· ++ ['\n'])).splitOn '\n' = ls ++ [[]] := by
  induction ls with
  | nil => rfl
  | cons l ls ih =>
    obtain ⟨hl, hls⟩ := List.forall_mem_cons.mp h
    rw [List.flatMap_cons, List.append_assoc, List.singleton_append,
      List.splitOn_append_cons_self_of_not_mem hl, ih hls, List.cons_append]

theorem toList_render (nodes : List Node) : (render nodes).toList =
    ((linesAll 0 nodes).map String.toList).flatMap (· ++ ['\n']) := by
  rw [render, String.toList_join, List.flatMap_map, List.flatMap_map]
  simp only [String.toList_append]
  rfl

theorem not_mem_of_unbroken {nodes : List Node} (h : Unbroken nodes) :
    ∀ p ∈ rankedAll 0 nodes, '\n' ∉ (line p).toList := by
  intro p hp
  apply not_mem_line
  apply h
  rw [← map_snd_rankedAll 0]
  exact List.mem_map_of_mem hp

theorem splitOn_render {nodes : List Node} (h : Unbroken nodes) :
    (render nodes).toList.splitOn '\n' = (linesAll 0 nodes).map String.toList ++ [[]] := by
  rw [toList_render, splitOn_lines]
  rw [linesAll_eq_map, List.map_map]
  exact List.forall_mem_map.mpr (not_mem_of_unbroken h)

theorem linesAll_eq_of_render {nodes nodes' : List Node} (h : Unbroken nodes)
    (h' : Unbroken nodes') (hrender : render nodes = render nodes') :
    linesAll 0 nodes = linesAll 0 nodes' := by
  have hinjective : Function.Injective String.toList := fun _ _ => String.toList_injective
  have hlines := splitOn_render h
  rw [hrender, splitOn_render h'] at hlines
  exact hinjective.list_map (List.append_cancel_right hlines.symm)

/-- The outline of a tree without line feeds in its texts has one line for each node, in preorder,
with a margin of two spaces for each block around the node and a bracket behind it. Only trees of
the same shape have the same outline. -/
theorem render_tells_shape (nodes : List Node) (h : Unbroken nodes) :
    render nodes = String.join ((rankedAll 0 nodes).map (line · ++ "\n")) ∧
      (∀ p ∈ rankedAll 0 nodes, '\n' ∉ (line p).toList ∧
        ∃ more, (line p).toList = List.replicate (2 * p.1) ' ' ++ '[' :: more) ∧
      ∀ nodes', Unbroken nodes' → render nodes = render nodes' → SameShape nodes nodes' := by
  refine ⟨?_, fun p hp => ⟨not_mem_of_unbroken h p hp, ?_⟩, ?_⟩
  · rw [render, linesAll_eq_map, List.map_map]
    rfl
  · obtain ⟨more, hmore⟩ := exists_opening p.2.form
    refine ⟨more ++ (caption p.2).toList, ?_⟩
    rw [toList_line, hmore, List.cons_append]
  · intro nodes' h' hrender
    have hforms := forms_eq_of_lines (linesAll_eq_of_render h h' hrender)
    have hnone : Below 0 [] := nofun
    exact (sameShape_of_forms hnone hnone (congrArg (· ++ []) hforms)).1

theorem render_tells_shape_blurred :
    let token (text : String) : Token := ⟨.word, text, 0, ⟨none, ""⟩⟩
    let nodes : List Node :=
      [.block (.atRule "m")
        [.statement " [At]" [token "y", token "z"] ⟨1, 5⟩, .atRule [] ⟨5, 6⟩] ⟨0, 7⟩,
        .block (.selectors ["p, q"]) [] ⟨7, 9⟩]
    let nodes' : List Node :=
      [.block (.atRule "m")
        [.statement " [At]" [token "y z"] ⟨0, 0⟩, .atRule [token ""] ⟨0, 0⟩] ⟨0, 0⟩,
        .block (.selectors ["p", "q"]) [] ⟨0, 0⟩]
    Unbroken nodes ∧ Unbroken nodes' ∧
      render nodes = "[Block] kind: m\n  [Statement] property:  [At] value: y z\n  [At]  \n" ++
        "[Block] selectors: p, q\n" ∧
      render nodes' = render nodes ∧ SameShape nodes nodes' ∧
      render nodes = String.join ((rankedAll 0 nodes).map (line · ++ "\n")) ∧
      ∃ more, (line (1, .statement " [At]" [token "y", token "z"] ⟨1, 5⟩)).toList =
        List.replicate 2 ' ' ++ '[' :: more := by
  intro token nodes nodes'
  have h : Unbroken nodes := by simp [Unbroken, nodes, preorderAll, preorder, texts, token]
  have h' : Unbroken nodes' := by simp [Unbroken, nodes', preorderAll, preorder, texts, token]
  have hrender : render nodes = render nodes' := by decide
  obtain ⟨hlines, hline, hshape⟩ := render_tells_shape nodes h
  refine ⟨h, h', by decide, hrender.symm, hshape nodes' h' hrender, hlines, ?_⟩
  exact (hline _ (List.mem_cons_of_mem _ List.mem_cons_self)).2

end Outline
end RuleTree
