import Mathlib
import RuleTree.Proofs.Faults
import RuleTree.Proofs.Shift
import RuleTree.Token.Lexer

/-! What a parse looks at. Let a relation hold of tokens only if their kinds cannot be told apart.
Then token sequences that it relates one by one give the same tree up to related tokens, or the same
error at related tokens. Nothing else of a token can therefore decide what a parse gives. -/
namespace RuleTree
open Braces

/-- The kind itself, or one and the same for all kinds without a tag of their own. -/
def Kind.untagged : Kind → Kind
  | .other _ => .other ""
  | k => k

/-- Tokens whose kinds are equal or both without a tag of their own. -/
def Token.Alike (t u : Token) : Prop := t.kind.untagged = u.kind.untagged

/-- The tokens stand at the same position of two sequences. -/
def Facing (ts us : List Token) (t u : Token) : Prop := ∃ p : Nat, ts[p]? = some t ∧ us[p]? = some u

section
variable (R : Token → Token → Prop)

/-- Headers named by related tokens, or with as many selectors as each other. -/
inductive Header.Related : Header → Header → Prop
  | atRule {t u : Token} (h : R t u) : Header.Related (.atRule t.text) (.atRule u.text)
  | selectors {list more : List String} (h : list.length = more.length) :
      Header.Related (.selectors list) (.selectors more)

/-- Trees of one shape, with equal spans, that hold related tokens or the texts of such. -/
inductive Node.Related : List Node → List Node → Prop
  | nil : Node.Related [] []
  | block {header header' : Header} {content content' nodes nodes' : List Node} {span : Span}
      (head : Header.Related R header header') (body : Node.Related content content')
      (more : Node.Related nodes nodes') :
      Node.Related (.block header content span :: nodes) (.block header' content' span :: nodes')
  | atRule {tokens tokens' : List Token} {nodes nodes' : List Node} {span : Span}
      (children : List.Forall₂ R tokens tokens') (more : Node.Related nodes nodes') :
      Node.Related (.atRule tokens span :: nodes) (.atRule tokens' span :: nodes')
  | statement {t u : Token} {value value' : List Token} {nodes nodes' : List Node} {span : Span}
      (property : R t u) (values : List.Forall₂ R value value')
      (more : Node.Related nodes nodes') :
      Node.Related (.statement t.text value span :: nodes) (.statement u.text value' span :: nodes')

structure AtRule.Related (a b : AtRule) : Prop where
  size : a.size = b.size
  tokens : List.Forall₂ R a.tokens b.tokens

structure Statement.Related (a b : Statement) : Prop where
  size : a.size = b.size
  property : ∃ t u, R t u ∧ a.property = t.text ∧ b.property = u.text
  value : List.Forall₂ R a.value b.value

/-- Two results that are related by `S`, or two errors of the same cause at related tokens. -/
inductive Related {α β : Type} (S : α → β → Prop) : Except ParseError α → Except ParseError β → Prop
  | ok {a : α} {b : β} (h : S a b) : Related S (.ok a) (.ok b)
  | error {e e' : ParseError} {t u : Token} {cause : Cause} (h : R t u) (he : e.Cites cause t)
      (he' : e'.Cites cause u) : Related S (.error e) (.error e')

end

theorem Kind.untagged_eq_iff {k n : Kind} (hn : n ∈ named) : k.untagged = n ↔ k = n := by
  have hne : ∀ tag, Kind.other tag ≠ n := by
    rintro tag rfl
    simp [named] at hn
  cases k with
  | other tag => simp only [untagged, hne]
  | _ => rfl

theorem Token.Alike.kind_eq_iff {t u : Token} (h : t.Alike u) {n : Kind}
    (hn : n ∈ Kind.named) : t.kind = n ↔ u.kind = n := by
  unfold Token.Alike at h
  rw [← Kind.untagged_eq_iff hn, h, Kind.untagged_eq_iff hn]

/-- Alike tokens pass the same test for a kind with a tag of its own. -/
theorem Token.Alike.kind_beq {t u : Token} (h : t.Alike u) {n : Kind}
    (hn : n ∈ Kind.named) : (t.kind == n) = (u.kind == n) := by
  rw [Bool.eq_iff_iff, beq_iff_eq, beq_iff_eq]
  exact h.kind_eq_iff hn

section
variable {R : Token → Token → Prop} {α β γ δ : Type} {S : α → β → Prop} {S' : γ → δ → Prop}

theorem Related.fault {t u : Token} (h : R t u) (cause : Cause) :
    Related R S (.error (t.fault cause)) (.error (u.fault cause)) :=
  .error h (t.fault_cites cause) (u.fault_cites cause)

theorem Related.bind {x : Except ParseError α} {y : Except ParseError β}
    {f : α → Except ParseError γ} {g : β → Except ParseError δ} (h : Related R S x y)
    (hf : ∀ a b, x = .ok a → S a b → Related R S' (f a) (g b)) :
    Related R S' (x >>= f) (y >>= g) := by
  cases h with
  | ok h => exact hf _ _ rfl h
  | error h he he' => exact .error h he he'

theorem Related.map {x : Except ParseError α} {y : Except ParseError β} {f : α → γ} {g : β → δ}
    (h : Related R S x y) (hf : ∀ a b, S a b → S' (f a) (g b)) :
    Related R S' (x.map f) (y.map g) := by
  cases h with
  | ok h => exact .ok (hf _ _ h)
  | error h he he' => exact .error h he he'

end

/-- What an at-rule or a statement takes of a sequence is never empty. -/
theorem Scan.take_ne_nil {ts : List Token} {size : Nat} (hne : ts ≠ [])
    (h : statementLength ts = .ok size) : ts.take size ≠ [] := by
  unfold statementLength at h
  split at h
  next hn =>
    cases h
    obtain ⟨hpos, hle⟩ := statementLength?_bounds hne hn
    rw [← List.length_pos_iff, List.length_take]
    omega
  next => cases h

namespace Alike

variable {R : Token → Token → Prop} (hR : ∀ t u, R t u → t.Alike u) {ts us : List Token}
include hR

theorem significant (h : List.Forall₂ R ts us) :
    List.Forall₂ R (Scan.significant ts) (Scan.significant us) := by
  refine List.rel_filter ?_ h
  intro t u htu
  have hkind : t.isDelimiter = u.isDelimiter := (hR t u htu).kind_beq (by decide)
  simp only [hkind]

/-- A kind that is missing from one sequence is missing from the other. -/
theorem free (h : List.Forall₂ R ts us) {n : Kind} (hn : n ∈ Kind.named)
    (hf : ∀ t ∈ ts, t.kind ≠ n) : ∀ u ∈ us, u.kind ≠ n := by
  induction h with
  | nil => exact hf
  | cons htu _ ih =>
    obtain ⟨ht, hts⟩ := List.forall_mem_cons.mp hf
    have hu := (not_congr ((hR _ _ htu).kind_eq_iff hn)).mp ht
    exact List.forall_mem_cons.mpr ⟨hu, ih hts⟩

theorem flat (h : List.Forall₂ R ts us) (hf : Flat ts) : Flat us := by
  have hfree : ∀ t ∈ ts, t.kind ≠ .braceOpen := fun t ht => beq_eq_false_iff_ne.mp (hf t ht)
  exact fun u hu => beq_eq_false_iff_ne.mpr (free hR h (by decide) hfree u hu)

omit hR in
/-- Where a token stands in one sequence, a related one stands in the other. -/
theorem exists_split {front back : List Token} {t : Token}
    (h : List.Forall₂ R (front ++ t :: back) us) :
    ∃ front' u back', us = front' ++ u :: back' ∧ List.Forall₂ R front front' ∧ R t u ∧
      List.Forall₂ R back back' := by
  induction front generalizing us with
  | nil =>
    cases h with
    | cons htu hback => exact ⟨[], _, _, rfl, .nil, htu, hback⟩
  | cons s front ih =>
    cases h with
    | cons hs hmore =>
      obtain ⟨front', u, back', rfl, hfront, htu, hback⟩ := ih hmore
      exact ⟨_ :: front', u, back', rfl, .cons hs hfront, htu, hback⟩

omit hR in
theorem atLast {α β : Type} {S : α → β → Prop} (cause : Cause) (h : List.Forall₂ R ts us)
    (hne : ts ≠ []) :
    Related R S (.error (ParseError.atLast cause ts)) (.error (ParseError.atLast cause us)) := by
  rcases List.eq_nil_or_concat' ts with rfl | ⟨front, last, rfl⟩
  · exact absurd rfl hne
  · obtain ⟨front', last', back, rfl, -, hlast, hback⟩ := exists_split h
    cases hback
    rw [ParseError.atLast_append, ParseError.atLast_append]
    exact .fault hlast cause

theorem closer? (h : List.Forall₂ R ts us) (opens : Nat) :
    Scan.closer? opens ts = Scan.closer? opens us := by
  induction h generalizing opens with
  | nil => rfl
  | @cons t u ts us htu _ ih =>
    have hopen : t.isBraceOpen = u.isBraceOpen := (hR t u htu).kind_beq (by decide)
    have hclose : t.isBraceClose = u.isBraceClose := (hR t u htu).kind_beq (by decide)
    unfold Scan.closer?
    simp only [hopen, hclose, ih]

theorem matchingBrace {front front' back back' : List Token} {brace brace' : Token}
    (hfront : List.Forall₂ R front front') (hbrace : R brace brace')
    (hback : List.Forall₂ R back back') :
    Related R Eq (Scan.matchingBrace (front ++ brace :: back) front.length)
      (Scan.matchingBrace (front' ++ brace' :: back') front'.length) := by
  have hall : List.Forall₂ R (front ++ brace :: back) (front' ++ brace' :: back') :=
    List.rel_append hfront (.cons hbrace hback)
  rw [Scan.matchingBrace, Scan.matchingBrace, drop_behind, drop_behind, closer? hR hback]
  cases Scan.closer? 0 back' with
  | none => exact atLast _ hall (by simp)
  | some n => exact .ok (by rw [hfront.length_eq])

theorem statementLength? (h : List.Forall₂ R ts us) :
    Scan.statementLength? ts = Scan.statementLength? us := by
  induction h with
  | nil => rfl
  | @cons t u ts us htu hmore ih =>
    have hsemicolon : t.isSemicolon = u.isSemicolon := (hR t u htu).kind_beq (by decide)
    unfold Scan.statementLength?
    cases hmore with
    | nil => simp only [hsemicolon]
    | @cons s v ss vs hsv _ =>
      have hopen : s.isBraceOpen = v.isBraceOpen := (hR s v hsv).kind_beq (by decide)
      simp only [hsemicolon, hopen, ih]

theorem statementLength (h : List.Forall₂ R ts us) (hne : ts ≠ []) :
    Related R Eq (Scan.statementLength ts) (Scan.statementLength us) := by
  rw [Scan.statementLength, Scan.statementLength, statementLength? hR h]
  cases Scan.statementLength? us with
  | none => exact atLast _ h hne
  | some n => exact .ok rfl

theorem requireWithin {whole whole' : List Token} (hwhole : List.Forall₂ R whole whole')
    (hne : whole ≠ []) {kinds : List Kind} (hkinds : ∀ k ∈ kinds, k ∈ Kind.named)
    (h : List.Forall₂ R ts us) :
    Related R Eq (Scan.requireWithin whole ts kinds) (Scan.requireWithin whole' us kinds) := by
  induction kinds generalizing ts us with
  | nil =>
    unfold Scan.requireWithin
    exact .ok rfl
  | cons k kinds ih =>
    obtain ⟨hk, hmore⟩ := List.forall_mem_cons.mp hkinds
    cases h with
    | nil => exact atLast _ hwhole hne
    | @cons t u ts us htu h =>
      have hkind : t.kind = k ↔ u.kind = k := (hR t u htu).kind_eq_iff hk
      unfold Scan.requireWithin
      simp only [hkind]
      split
      · exact ih hmore h
      · exact .fault htu _

theorem readAtRule (h : List.Forall₂ R ts us) (hne : ts ≠ []) :
    Related R (AtRule.Related R) (AtRule.read ts) (AtRule.read us) := by
  unfold AtRule.read
  refine (statementLength hR h hne).bind fun size size' hsize heq => ?_
  subst heq
  have htake : List.Forall₂ R (ts.take size) (us.take size) := List.forall₂_take size h
  have hsig := significant hR htake
  have hkinds : ∀ k ∈ [Kind.atSign, .word, .delimiter], k ∈ Kind.named := by decide
  dsimp only
  split
  · exact atLast _ htake (Scan.take_ne_nil hne hsize)
  · refine (requireWithin hR h hne hkinds h).bind fun _ _ _ _ => ?_
    have hvalue := List.forall₂_drop 2 hsig
    generalize (Scan.significant (ts.take size)).drop 2 = value at hvalue ⊢
    generalize (Scan.significant (us.take size)).drop 2 = value' at hvalue ⊢
    cases hvalue with
    | nil => exact atLast _ htake (Scan.take_ne_nil hne hsize)
    | @cons t u _ _ htu _ =>
      have hsemicolon : t.isSemicolon = u.isSemicolon := (hR t u htu).kind_beq (by decide)
      simp only [hsemicolon]
      split
      · exact .fault htu _
      · exact .ok ⟨rfl, hsig⟩

theorem dropTerminator (h : List.Forall₂ R ts us) :
    List.Forall₂ R (Statement.dropTerminator ts) (Statement.dropTerminator us) := by
  rcases List.eq_nil_or_concat' ts with rfl | ⟨front, last, rfl⟩
  · cases h
    exact .nil
  · obtain ⟨front', last', back, rfl, hfront, hlast, hback⟩ := exists_split h
    cases hback
    have hsemicolon : last.isSemicolon = last'.isSemicolon := (hR _ _ hlast).kind_beq (by decide)
    simp only [Statement.dropTerminator, List.getLast?_concat, Option.any_some, hsemicolon,
      List.dropLast_concat]
    split
    · exact hfront
    · exact h

theorem readStatement (h : List.Forall₂ R ts us) (hne : ts ≠ []) :
    Related R (Statement.Related R) (Statement.read ts) (Statement.read us) := by
  unfold Statement.read
  refine (statementLength hR h hne).bind fun size size' hsize heq => ?_
  subst heq
  have htake : List.Forall₂ R (ts.take size) (us.take size) := List.forall₂_take size h
  have hbody := dropTerminator hR (significant hR htake)
  generalize Statement.dropTerminator (Scan.significant (ts.take size)) = body at hbody ⊢
  generalize Statement.dropTerminator (Scan.significant (us.take size)) = body' at hbody ⊢
  cases hbody with
  | nil => exact atLast _ htake (Scan.take_ne_nil hne hsize)
  | cons hproperty hmore =>
    exact .ok ⟨rfl, ⟨_, _, hproperty, rfl, rfl⟩, List.forall₂_drop 1 hmore⟩

theorem countP_isComma (h : List.Forall₂ R ts us) :
    ts.countP Token.isComma = us.countP Token.isComma := by
  induction h with
  | nil => rfl
  | @cons t u ts us htu _ ih =>
    have hcomma : t.isComma = u.isComma := (hR t u htu).kind_beq (by decide)
    rw [List.countP_cons, List.countP_cons, ih, hcomma]

theorem readHeader (h : List.Forall₂ R ts us) :
    Related R (Header.Related R) (Header.read ts).result (Header.read us).result := by
  cases hk : Scan.firstIndex? .atSign ts with
  | none =>
    have hfree := free hR h (by decide) (Scan.firstIndex?_eq_none.mp hk)
    rw [(Header.read_result_selectors hk).1,
      (Header.read_result_selectors (Scan.firstIndex?_eq_none.mpr hfree)).1]
    refine .ok (.selectors ?_)
    rw [Selectors.length_collect, Selectors.length_collect, countP_isComma hR h]
  | some k =>
    obtain ⟨front, mark, back, rfl, -, hfree, hmark⟩ := Scan.exists_of_firstIndex? hk
    obtain ⟨front', mark', back', rfl, hfront, hmm, hback⟩ := exists_split h
    have hmark' : mark'.kind = .atSign := ((hR _ _ hmm).kind_eq_iff (by decide)).mp hmark
    rw [Header.read_result_atSign hfree hmark,
      Header.read_result_atSign (free hR hfront (by decide) hfree) hmark']
    cases hback with
    | nil => exact .fault hmm _
    | cons hname _ => exact .ok (.atRule hname)

theorem begins (h : List.Forall₂ R ts us) : AtRule.begins ts = AtRule.begins us := by
  cases h with
  | nil => rfl
  | @cons mark mark' _ _ hmark hmore =>
    cases hmore with
    | nil => rfl
    | @cons name name' _ _ hname _ =>
      have hm : mark.isAtSign = mark'.isAtSign := (hR _ _ hmark).kind_beq (by decide)
      have hw : name.isWord = name'.isWord := (hR _ _ hname).kind_beq (by decide)
      simp only [AtRule.begins, hm, hw]

omit ts us in
theorem beginsWith {t u : Token} (htu : R t u) :
    Statement.beginsWith t = Statement.beginsWith u := by
  have hmark : t.isAtSign = u.isAtSign := (hR t u htu).kind_beq (by decide)
  have hopen : t.isBraceOpen = u.isBraceOpen := (hR t u htu).kind_beq (by decide)
  have hclose : t.isBraceClose = u.isBraceClose := (hR t u htu).kind_beq (by decide)
  simp only [Statement.beginsWith, hmark, hopen, hclose]

/-- Whether a token is a delimiter with nothing behind it. -/
theorem trailing_iff {t u : Token} (htu : R t u) (h : List.Forall₂ R ts us) :
    us = [] ∧ u.isDelimiter ↔ ts = [] ∧ t.isDelimiter := by
  have hdelimiter : t.isDelimiter = u.isDelimiter := (hR t u htu).kind_beq (by decide)
  rw [hdelimiter, ← List.length_eq_zero_iff, ← List.length_eq_zero_iff, h.length_eq]

end Alike

namespace Parser

variable {R : Token → Token → Prop} (hR : ∀ t u, R t u → t.Alike u) {inner inner' : Inner}
  {w w' : Window}
include hR

theorem passes_related
    (hi : ∀ brace brace' around around' v v', R brace brace' → v.position = v'.position →
      List.Forall₂ R v.rest v'.rest →
        Related R (Node.Related R) (inner brace around v).result (inner' brace' around' v').result)
    (hp : w.position = w'.position) (hr : List.Forall₂ R w.rest w'.rest) :
    Related R (Node.Related R) (passes inner w).result (passes inner' w').result := by
  -- on the tokens that are left: both ranges read a node of the same shape and size
  induction hn : w.rest.length using Nat.strong_induction_on generalizing w w' with
  | _ n ih =>
    have hspan (m : Nat) : w.span m = w'.span m := by simp only [Window.span, hp]
    have hmore {m : Nat} (hm : 0 < m) (hne : w.rest ≠ []) :
        Related R (Node.Related R) (passes inner (w.advance m)).result
          (passes inner' (w'.advance m)).result := by
      refine ih _ ?_ ?_ (List.forall₂_drop m hr) rfl
      · have := List.length_pos_iff.mpr hne
        simp only [Window.advance_rest, List.length_drop]
        omega
      · simp only [Window.advance_position, hp]
    cases next w.rest with
    | nothing hs =>
      rw [hs] at hr
      rw [passes_result_nil hs, passes_result_nil (List.forall₂_nil_left_iff.mp hr)]
      exact .ok .nil
    | trailing t hs ht =>
      rw [hs] at hr
      obtain ⟨u, us, htu, hus, hs'⟩ := List.forall₂_cons_left_iff.mp hr
      cases hus
      have hu : u.isDelimiter := ((hR t u htu).kind_beq (by decide)).symm.trans ht
      rw [passes_result_trailing hs ht, passes_result_trailing hs' hu]
      exact .ok .nil
    | block front brace back hs hf hb =>
      obtain ⟨front', brace', back', hs', hfront, hbrace, hback⟩ := Alike.exists_split (hs ▸ hr)
      have hb' : brace'.isBraceOpen := ((hR _ _ hbrace).kind_beq (by decide)).symm.trans hb
      rw [passes_result_split hs hf hb, passes_result_split hs' (Alike.flat hR hfront hf) hb']
      have hclose := Alike.matchingBrace hR hfront hbrace hback
      rw [← hs, ← hs'] at hclose
      refine hclose.bind fun close _ _ heq => ?_
      subst heq
      have hinside := List.forall₂_drop (front.length + 1) (List.forall₂_take close hr)
      refine (hi _ _ _ _ _ _ hbrace ?_ ?_).bind fun content content' _ hcontent => ?_
      · simp only [Window.inside, hp, hfront.length_eq]
      · simpa only [Window.inside, hfront.length_eq] using hinside
      refine (Alike.readHeader hR hfront).bind fun header header' _ hheader => ?_
      refine (hmore (Nat.succ_pos close) (by simp [hs])).map fun nodes nodes' hnodes => ?_
      rw [hspan]
      exact .block hheader hcontent hnodes
    | atRule hf hb =>
      have hne : w.rest ≠ [] := by
        intro hs
        simp [hs, AtRule.begins] at hb
      rw [passes_result_atRule hf hb,
        passes_result_atRule (Alike.flat hR hr hf) (Alike.begins hR hr ▸ hb)]
      refine (Alike.readAtRule hR hr hne).bind fun rule rule' hrule hrules => ?_
      obtain ⟨body, last, rest, -, -, -, hsize⟩ := AtRule.exists_of_read hf hrule
      have hpos : 0 < rule.size := by
        rw [hsize]
        exact Nat.succ_pos _
      rw [← hrules.size, ← hspan]
      exact (hmore hpos hne).map fun nodes nodes' hnodes => .atRule hrules.tokens hnodes
    | statement front more hf hs hl hb =>
      obtain ⟨front', more', hfront, hrest, hs'⟩ := List.forall₂_cons_left_iff.mp (hs ▸ hr)
      have hl' := mt (Alike.trailing_iff hR hfront hrest).mp hl
      rw [passes_result_statement hf hs hl hb, passes_result_statement (Alike.flat hR hr hf) hs' hl'
        (Alike.beginsWith hR hfront ▸ hb)]
      have hne : w.rest ≠ [] := by simp [hs]
      refine (Alike.readStatement hR hr hne).bind fun s s' hread hstatements => ?_
      obtain ⟨body, last, rest, property, value, -, -, -, hsize⟩ :=
        Statement.exists_of_read hf hread
      obtain ⟨t, u, htu, ht, hu⟩ := hstatements.property
      have hpos : 0 < s.size := by
        rw [hsize]
        exact Nat.succ_pos _
      rw [← hstatements.size, ← hspan, ht, hu]
      exact (hmore hpos hne).map fun nodes nodes' hnodes => .statement htu hstatements.value hnodes
    | unknown front more hf hs hl ha hb =>
      obtain ⟨front', more', hfront, hrest, hs'⟩ := List.forall₂_cons_left_iff.mp (hs ▸ hr)
      have hl' := mt (Alike.trailing_iff hR hfront hrest).mp hl
      rw [passes_result_unknown hf hs hl ha hb, passes_result_unknown (Alike.flat hR hr hf) hs' hl'
        (Alike.begins hR hr ▸ ha) (Alike.beginsWith hR hfront ▸ hb)]
      exact .fault hfront _

theorem range_related (room depth depth' : Nat) (outer outer' : Option Window)
    (hp : w.position = w'.position) (hr : List.Forall₂ R w.rest w'.rest) :
    Related R (Node.Related R) (range room depth outer w).result
      (range room depth' outer' w').result := by
  induction room generalizing depth depth' outer outer' w w' with
  | zero =>
    rw [range_result_zero, range_result_zero]
    refine passes_related hR ?_ hp hr
    intro brace brace' _ _ _ _ hbrace _ _
    exact .fault hbrace _
  | succ room ih =>
    rw [range_result_succ, range_result_succ]
    refine passes_related hR ?_ hp hr
    intro _ _ around around' v v' _ hp hr
    exact ih _ _ _ _ hp hr

end Parser

/-- Related tokens give related results, whatever the relation is, if it only holds of tokens whose
kinds cannot be told apart. -/
theorem parse_related {R : Token → Token → Prop} (hR : ∀ t u, R t u → t.Alike u) (config : Config)
    {ts us : List Token} (h : List.Forall₂ R ts us) :
    Related R (Node.Related R) (parse config ts).result (parse config us).result := by
  rw [parse_result, parse_result]
  exact Parser.range_related hR _ _ _ _ _ rfl h

/-- Only the kinds of tokens decide what a parse gives. Two sequences of alike kinds both parse, to
trees of the same shape and spans with the payloads taken from the same positions, or both fail for
the same cause at the same position. -/
theorem parse_alike (config : Config) (ts us : List Token) (h : List.Forall₂ Token.Alike ts us) :
    Related (Facing ts us) (Node.Related (Facing ts us)) (parse config ts).result
      (parse config us).result := by
  obtain ⟨hlength, hget⟩ := List.forall₂_iff_get.mp h
  apply parse_related
  · rintro t u ⟨p, ht, hu⟩
    obtain ⟨hp, rfl⟩ := List.getElem?_eq_some_iff.mp ht
    obtain ⟨hp', rfl⟩ := List.getElem?_eq_some_iff.mp hu
    exact hget p hp hp'
  · refine List.forall₂_iff_get.mpr ⟨hlength, fun p hp hp' => ⟨p, ?_, ?_⟩⟩
    · exact List.getElem?_eq_getElem hp
    · exact List.getElem?_eq_getElem hp'

theorem parse_alike_renamed :
    let ts : List Token := [⟨.other "tilde", "~", 0, ⟨none, "~"⟩⟩, ⟨.braceOpen, "\x7b", 1, ⟨none, ""⟩⟩,
      ⟨.word, "a", 2, ⟨none, ""⟩⟩, ⟨.semicolon, ";", 3, ⟨none, ""⟩⟩,
      ⟨.braceClose, "\x7d", 4, ⟨none, ""⟩⟩]
    let us : List Token := [⟨.other "hash", ", @", 9, ⟨none, ""⟩⟩, ⟨.braceOpen, "(", 7, ⟨none, ""⟩⟩,
      ⟨.word, ";", 5, ⟨none, "x"⟩⟩, ⟨.semicolon, "", 3, ⟨none, ""⟩⟩,
      ⟨.braceClose, ")", 1, ⟨none, ""⟩⟩]
    List.Forall₂ Token.Alike ts us ∧
      (parse {} ts).result =
        .ok [.block (.selectors ["~"]) [.statement "a" [] ⟨2, 4⟩] ⟨0, 5⟩] ∧
      (parse {} us).result =
        .ok [.block (.selectors [", @"]) [.statement ";" [] ⟨2, 4⟩] ⟨0, 5⟩] ∧
      Node.Related (Facing ts us) [.block (.selectors ["~"]) [.statement "a" [] ⟨2, 4⟩] ⟨0, 5⟩]
        [.block (.selectors [", @"]) [.statement ";" [] ⟨2, 4⟩] ⟨0, 5⟩] := by
  intro ts us
  have hkinds : List.Forall₂ Token.Alike ts us := by
    repeat' constructor
  have hts : (parse {} ts).result =
      .ok [.block (.selectors ["~"]) [.statement "a" [] ⟨2, 4⟩] ⟨0, 5⟩] := by cbv
  have hus : (parse {} us).result =
      .ok [.block (.selectors [", @"]) [.statement ";" [] ⟨2, 4⟩] ⟨0, 5⟩] := by cbv
  have h := parse_alike {} ts us hkinds
  rw [hts, hus] at h
  cases h with
  | ok h => exact ⟨hkinds, hts, hus, h⟩

end RuleTree
