import Mathlib
import RuleTree.Proofs.Height
import RuleTree.Proofs.Spelling
import RuleTree.Token.Lexer

/-! Delimiters left out. Among balanced tokens without an at-sign a delimiter neither parts nor joins
anything: without them the tokens parse to the same tree, in which spans count the tokens that are
left and selectors have lost some white space. -/
namespace RuleTree
open Braces

namespace Text

/-- The text without its white space. -/
def unspaced (s : String) : String := String.ofList (s.toList.filter fun c => !isBlank c)

theorem filter_dropWhile_isBlank (cs : List Char) :
    (cs.dropWhile isBlank).filter (fun c => !isBlank c) = cs.filter fun c => !isBlank c := by
  induction cs with
  | nil => rfl
  | cons c cs ih =>
    cases hc : isBlank c with
    | true => simpa [hc] using ih
    | false => simp [hc]

/-- Only white space is trimmed. -/
theorem unspaced_trim (cs : List Char) :
    unspaced (String.ofList (trim cs)) = unspaced (String.ofList cs) := by
  have htrim : (trim cs).filter (fun c => !isBlank c) = cs.filter fun c => !isBlank c := by
    rw [trim, trimEnd, trimStart, List.filter_reverse, filter_dropWhile_isBlank, List.filter_reverse,
      List.reverse_reverse, filter_dropWhile_isBlank]
  simp only [unspaced, String.toList_ofList, htrim]

theorem unspaced_append (cs ds : List Char) : unspaced (String.ofList (cs ++ ds)) =
    unspaced (String.ofList cs) ++ unspaced (String.ofList ds) := by
  rw [unspaced, String.toList_ofList, List.filter_append, String.ofList_append]
  simp only [unspaced, String.toList_ofList]

theorem unspaced_append_space (cs : List Char) :
    unspaced (String.ofList (cs ++ [' '])) = unspaced (String.ofList cs) := by
  have hspace : unspaced (String.ofList [' ']) = "" := rfl
  rw [unspaced_append, hspace, String.append_empty]

end Text

def Span.renumber (f : Nat → Nat) (s : Span) : Span := ⟨f s.start, f s.stop⟩

/-- The header with its selectors written without white space. -/
def Header.unspaced : Header → Header
  | .atRule name => .atRule name
  | .selectors list => .selectors (list.map Text.unspaced)

namespace Node

mutual

/-- The node with every position in its spans put where `f` says. -/
def renumber (f : Nat → Nat) : Node → Node
  | .block header content span => .block header (renumberAll f content) (span.renumber f)
  | .atRule tokens span => .atRule tokens (span.renumber f)
  | .statement property value span => .statement property value (span.renumber f)

def renumberAll (f : Nat → Nat) : List Node → List Node
  | [] => []
  | n :: ns => n.renumber f :: renumberAll f ns

end

mutual

/-- The node with all selectors in it written without white space. -/
def unspaced : Node → Node
  | .block header content span => .block header.unspaced (unspacedAll content) span
  | .atRule tokens span => .atRule tokens span
  | .statement property value span => .statement property value span

def unspacedAll : List Node → List Node
  | [] => []
  | n :: ns => n.unspaced :: unspacedAll ns

end

end Node

namespace Scan

/-- How many tokens in front of position `i` are no delimiters. -/
def countBefore (ts : List Token) (i : Nat) : Nat :=
  (ts.take i).countP fun t => t.kind ≠ .delimiter

/-- So many tokens are left in front of the position without the delimiters. -/
theorem countBefore_eq_length (ts : List Token) (i : Nat) :
    countBefore ts i = (significant (ts.take i)).length := by
  rw [countBefore, significant_eq_filter, List.countP_eq_length_filter]

theorem significant_cons_of {t : Token} (ts : List Token) (ht : t.isDelimiter = false) :
    significant (t :: ts) = t :: significant ts := by
  simp [significant, ht]

theorem significant_significant (ts : List Token) :
    significant (significant ts) = significant ts := by
  simp [significant]

theorem significant_append_cons (front : List Token) {t : Token} (back : List Token)
    (ht : t.isDelimiter = false) :
    significant (front ++ t :: back) = significant front ++ t :: significant back := by
  rw [significant_append, significant_cons_of back ht]

/-- Where the tokens stand from `p` on, `f` numbers those that are no delimiters from `q` on. -/
def Numbers (f : Nat → Nat) (p q : Nat) (ts : List Token) : Prop :=
  ∀ i, i ≤ ts.length → f (p + i) = q + countBefore ts i

section
variable {f : Nat → Nat} {p q : Nat} {front back : List Token} {t : Token}

theorem Numbers.start (h : Numbers f p q front) : f p = q := h 0 (Nat.zero_le _)

theorem Numbers.left (h : Numbers f p q (front ++ back)) : Numbers f p q front := by
  intro i hi
  have hle : i ≤ (front ++ back).length := by
    rw [List.length_append]
    exact Nat.le_add_right_of_le hi
  rw [h i hle, countBefore, countBefore, List.take_append_of_le_length hi]

theorem Numbers.behind (h : Numbers f p q (front ++ t :: back)) (ht : t.isDelimiter = false) :
    Numbers f (p + (front.length + 1)) (q + ((significant front).length + 1)) back := by
  intro i hi
  have hle : front.length + (i + 1) ≤ (front ++ t :: back).length := by
    rw [List.length_append, List.length_cons]
    omega
  have hcount : countBefore (front ++ t :: back) (front.length + (i + 1)) =
      (significant front).length + 1 + countBefore back i := by
    rw [countBefore_eq_length, List.take_length_add_append, List.take_succ_cons,
      significant_append_cons _ _ ht, List.length_append, List.length_cons,
      countBefore_eq_length]
    omega
  have hpos : p + (front.length + 1) + i = p + (front.length + (i + 1)) := by omega
  rw [hpos, h _ hle, hcount, Nat.add_assoc q]

end

end Scan

/-- Without delimiters the selectors stay as they are but for their white space. -/
theorem Selectors.collect_significant (ts : List Token) {current thin : List Char}
    (h : Text.unspaced (String.ofList thin) = Text.unspaced (String.ofList current)) :
    (collect thin (Scan.significant ts)).map Text.unspaced =
      (collect current ts).map Text.unspaced := by
  induction ts generalizing current thin with
  | nil => simp only [Scan.significant, List.filter_nil, collect, List.map_cons, List.map_nil,
      Text.unspaced_trim, h]
  | cons t ts ih =>
    cases ht : t.isDelimiter with
    | true =>
      have hcomma : t.isComma = false := Token.kind_beq_of_ne ht (by decide)
      have hthin : Scan.significant (t :: ts) = Scan.significant ts := by simp [Scan.significant, ht]
      rw [hthin, collect, if_neg (by simp [hcomma]), piece, if_pos ht]
      -- a delimiter adds one space, which does not count
      exact ih (h.trans (Text.unspaced_append_space current).symm)
    | false =>
      rw [Scan.significant_cons_of ts ht, collect, collect]
      split
      · simp only [List.map_cons, Text.unspaced_trim, h, ih rfl]
      · apply ih
        rw [Text.unspaced_append, Text.unspaced_append, h]

section
variable {room p : Nat} {ts : List Token} {nodes : List Node}

theorem Header.Matches.thin {header : Header} (h : header.Matches ts)
    (hmark : ∀ t ∈ ts, t.isAtSign = false) :
    ∃ thin : Header, thin.Matches (Scan.significant ts) ∧ thin.unspaced = header.unspaced := by
  have hfree : Scan.firstIndex? .atSign ts = none := by
    rw [Scan.firstIndex?_eq_none]
    exact fun t ht => beq_eq_false_iff_ne.mp (hmark t ht)
  have hthin : Scan.firstIndex? .atSign (Scan.significant ts) = none := by
    rw [Scan.firstIndex?_eq_none] at hfree ⊢
    exact fun t ht => hfree t (List.mem_of_mem_filter ht)
  refine ⟨.selectors (Selectors.collect [] (Scan.significant ts)),
    ⟨hthin, (read_result_selectors hthin).2⟩, ?_⟩
  have hread := (read_result_selectors hfree).1.symm.trans (read_result_iff.mpr h)
  cases hread
  exact congrArg Header.selectors (Selectors.collect_significant ts rfl)

end

namespace Braces

variable {ts us : List Token}

theorem Flat.significant (hf : Flat ts) : Flat (Scan.significant ts) :=
  fun t ht => hf t (List.mem_of_mem_filter ht)

theorem Settles.significant {before : Nat} (h : Settles before ts) :
    Settles before (Scan.significant ts) := by
  induction ts generalizing before with
  | nil => exact h
  | cons t ts ih =>
    rcases close_or_turns before t with ⟨rfl, ht⟩ | ⟨after, ht⟩
    · exact absurd h (not_settles_zero_cons ht)
    · have hmore := ih ((settles_cons ht).mp h)
      cases hd : t.isDelimiter with
      | true =>
        have hopen : t.isBraceOpen = false := Token.kind_beq_of_ne hd (by decide)
        have hclose : t.isBraceClose = false := Token.kind_beq_of_ne hd (by decide)
        have hskip : after = before := by simpa [Turns, hopen, hclose] using ht.symm
        simpa [Scan.significant, hd, hskip] using hmore
      | false =>
        rw [Scan.significant_cons_of ts hd]
        exact (settles_cons ht).mpr hmore

theorem Balanced.significant (h : Balanced ts) : Balanced (Scan.significant ts) :=
  settles_zero.mp (settles_zero.mpr h).significant

/-- Behind tokens in which nothing stays open or is closed too much, the rest is balanced. -/
theorem Balanced.of_append (h : Balanced (ts ++ us)) (hlevel : closes ts = opens ts) :
    Balanced us where
  covered front hf := by
    have := h.covered (ts ++ front) ((List.prefix_append_right_inj ts).mpr hf)
    rw [opens_append, closes_append] at this
    omega
  level := by
    have := h.level
    rw [opens_append, closes_append] at this
    omega

theorem Flat.opens_eq_zero (hf : Flat ts) : opens ts = 0 :=
  List.countP_eq_zero.mpr fun t ht => by simp [hf t ht]

theorem Balanced.closes_eq_zero (h : Balanced (ts ++ us)) (hf : Flat ts) : closes ts = 0 := by
  have := h.covered ts (List.prefix_append ts us)
  rw [hf.opens_eq_zero] at this
  omega

/-- Behind a flat beginning, and behind a block, balanced tokens are balanced again. -/
theorem Balanced.behind_flat (h : Balanced (ts ++ us)) (hf : Flat ts) : Balanced us :=
  h.of_append (by rw [h.closes_eq_zero hf, hf.opens_eq_zero])

theorem Balanced.behind_block {front inner rest : List Token} {brace close : Token}
    (h : Balanced (front ++ brace :: (inner ++ close :: rest))) (hf : Flat front)
    (ho : brace.isBraceOpen) (hi : Balanced inner) (hc : close.isBraceClose) : Balanced rest := by
  have hmore : Balanced (brace :: (inner ++ close :: rest)) := h.behind_flat hf
  have hblock : Balanced (brace :: (inner ++ [close])) := hi.wrap ho hc
  have hsplit : brace :: (inner ++ close :: rest) = brace :: (inner ++ [close]) ++ rest := by simp
  rw [hsplit] at hmore
  exact hmore.of_append hblock.level

end Braces

namespace Statement

variable {body : List Token}

/-- Among balanced tokens without an at-sign all that a statement needs is a token that counts. -/
theorem Body.significant (hb : Body body) (hmark : ∀ t ∈ body, t.isAtSign = false)
    (hclose : ∀ t ∈ body, t.isBraceClose = false) : Body (Scan.significant body) where
  front t ht := by
    have hmem : t ∈ body := List.mem_of_mem_filter (List.mem_of_mem_head? ht)
    exact ⟨hmark t hmem, hclose t hmem⟩
  content := by
    obtain ⟨t, ht, hd⟩ := hb.content
    exact ⟨t, List.mem_filter.mpr ⟨ht, by simp [hd]⟩, hd⟩

end Statement

theorem Ends.significant {body : List Token} {last : Token} (he : Ends body last) :
    Ends (Scan.significant body) last where
  free t ht := he.free t (List.mem_of_mem_filter ht)
  last := he.last

/-- Nodes that balanced tokens without an at-sign spell are spelled without the delimiters too, with
spans that count the other tokens. -/
theorem Spells.thin {room p : Nat} {ts : List Token} {nodes : List Node} (h : Spells room p ts nodes)
    (hmark : ∀ t ∈ ts, t.isAtSign = false) (hb : Balanced ts) {f : Nat → Nat} {q : Nat}
    (hn : Scan.Numbers f p q ts) :
    ∃ thin, Spells room q (Scan.significant ts) thin ∧
      Node.unspacedAll thin = Node.unspacedAll (Node.renumberAll f nodes) := by
  induction h generalizing q with
  | nothing => exact ⟨[], .nothing, rfl⟩
  | @trailing room p t ht =>
    have hnone : Scan.significant [t] = [] := by simp [Scan.significant, ht]
    rw [hnone]
    exact ⟨[], .nothing, rfl⟩
  | @atRule room p body rest last nodes hf he hbody more ih =>
    obtain ⟨hat, -, -, -⟩ := hbody
    simp [hmark _ (List.mem_append_left _ List.mem_cons_self)] at hat
  | @statement room p body value rest property last nodes hf he hbody hs more ih =>
    have hlast : last.isDelimiter = false := Token.kind_beq_of_ne he.last (by decide)
    have hsplit := List.append_cons body last rest
    have hfb := (flat_append.mp hf).1
    -- nothing is closed in the segment, so behind it the tokens are balanced again
    have hclose : ∀ t ∈ body, t.isBraceClose = false := by
      simpa using List.countP_eq_zero.mp (hb.closes_eq_zero hfb)
    have hrest : Balanced rest := by
      rw [hsplit] at hb hf
      exact hb.behind_flat (flat_append.mp hf).1
    have hbehind := hn.behind hlast
    obtain ⟨thin, hthin, heq⟩ := ih (fun t ht => hmark t (by simp [ht])) hrest hbehind
    have hsig := Scan.significant_append_cons body rest hlast
    have hbody := hbody.significant (fun t ht => hmark t (by simp [ht])) hclose
    have htwice : Scan.significant (Scan.significant body) = property :: value := by
      rw [Scan.significant_significant, hs]
    have hflat := hf.significant
    rw [hsig] at hflat ⊢
    refine ⟨_, .statement hflat he.significant hbody htwice hthin, ?_⟩
    simp only [Node.renumberAll, Node.renumber, Node.unspacedAll, Node.unspaced, Span.renumber,
      hn.start, hbehind.start, heq]
  | @block room p front inner rest brace close header content nodes hf ho hi hc hh body more ihb
      ihm =>
    have hbrace : brace.isDelimiter = false := Token.kind_beq_of_ne ho (by decide)
    have hclose : close.isDelimiter = false := Token.kind_beq_of_ne hc (by decide)
    have hinside := hn.behind hbrace
    have hbehind : Scan.Numbers f (p + (front.length + 1 + inner.length + 1))
        (q + ((Scan.significant front).length + 1 + (Scan.significant inner).length + 1)) rest := by
      have h := hinside.behind hclose
      rw [Nat.add_assoc p, Nat.add_assoc q] at h
      exact h
    obtain ⟨header', hheader, hunspaced⟩ := hh.thin fun t ht => hmark t (by simp [ht])
    obtain ⟨content', hcontent, heqb⟩ := ihb (fun t ht => hmark t (by simp [ht])) hi hinside.left
    obtain ⟨nodes', hnodes, heqm⟩ := ihm (fun t ht => hmark t (by simp [ht]))
      (hb.behind_block hf ho hi hc) hbehind
    rw [Scan.significant_append_cons _ _ hbrace, Scan.significant_append_cons _ _ hclose]
    refine ⟨_, .block hf.significant ho hi.significant hc hheader hcontent hnodes, ?_⟩
    simp only [Node.renumberAll, Node.renumber, Node.unspacedAll, Node.unspaced, Span.renumber,
      hn.start, hbehind.start, hunspaced, heqb, heqm]

/-- Balanced tokens without an at-sign parse without their delimiters too, to the same nodes around
the same tokens. Spans then count what is left, and selectors differ by white space at most. -/
theorem parse_significant (config : Config) (ts : List Token) (nodes : List Node)
    (hmark : ∀ t ∈ ts, t.isAtSign = false) (hb : Balanced ts)
    (h : (parse config ts).result = .ok nodes) :
    ∃ thin, (parse config (Scan.significant ts)).result = .ok thin ∧
      Node.unspacedAll thin =
        Node.unspacedAll (Node.renumberAll (Scan.countBefore ts) nodes) := by
  have hn : Scan.Numbers (Scan.countBefore ts) 0 0 ts := by
    intro i hi
    rw [Nat.zero_add, Nat.zero_add]
  obtain ⟨thin, hthin, heq⟩ := (parse_ok_iff.mp h).thin hmark hb hn
  exact ⟨thin, parse_ok_iff.mpr hthin, heq⟩

theorem parse_significant_spaced :
    let ts : List Token := [⟨.delimiter, " ", 0, ⟨none, ""⟩⟩, ⟨.word, "a", 1, ⟨none, ""⟩⟩,
      ⟨.delimiter, " ", 2, ⟨none, ""⟩⟩, ⟨.word, "b", 3, ⟨none, ""⟩⟩,
      ⟨.braceOpen, "\x7b", 4, ⟨none, ""⟩⟩, ⟨.delimiter, " ", 5, ⟨none, ""⟩⟩,
      ⟨.braceClose, "\x7d", 6, ⟨none, ""⟩⟩, ⟨.delimiter, " ", 7, ⟨none, ""⟩⟩,
      ⟨.word, "c", 8, ⟨none, ""⟩⟩, ⟨.semicolon, ";", 9, ⟨none, ""⟩⟩]
    let nodes : List Node := [.block (.selectors ["a b"]) [] ⟨0, 7⟩, .statement "c" [] ⟨7, 10⟩]
    (∀ t ∈ ts, t.isAtSign = false) ∧ Balanced ts ∧ (parse {} ts).result = .ok nodes ∧
      ∃ thin, (parse {} (Scan.significant ts)).result = .ok thin ∧
        Node.unspacedAll thin = Node.unspacedAll (Node.renumberAll (Scan.countBefore ts) nodes) := by
  intro ts nodes
  have hmark : ∀ t ∈ ts, t.isAtSign = false := by decide
  have hb : Balanced ts := by decide
  have h : (parse {} ts).result = .ok nodes := by cbv
  exact ⟨hmark, hb, h, parse_significant {} ts nodes hmark hb h⟩

end RuleTree
