import Mathlib
import RuleTree.Proofs.Depth
import RuleTree.Proofs.Failure
import RuleTree.Proofs.Faults
import RuleTree.Token.Lexer

/-! The limit on nested blocks. Of two parses under different limits the lower one gives the same
result or stops at the brace that exceeds its limit, which is found on the tokens alone. -/
namespace RuleTree
open Braces

/-- The tokens were refused for the limit on nested blocks. -/
def TooDeep {α : Type} (r : Except ParseError α) : Prop :=
  ∃ e, r = .error e ∧ e.cause = .nestingTooDeep

/-- The brace at `p` is the first opening one that raises the height from `limit`. -/
structure Braces.Exceeds (limit : Nat) (ts : List Token) (p : Nat) : Prop where
  openAt : OpenAt ts p
  height : height (ts.take p) = limit
  first : ∀ q < p, OpenAt ts q → Braces.height (ts.take q) ≠ limit

theorem Braces.exceeds_append {limit : Nat} {front : List Token} {brace : Token}
    (back : List Token) (hb : brace.isBraceOpen) (hheight : height front = limit)
    (hpeak : peak front ≤ limit) : Exceeds limit (front ++ brace :: back) front.length where
  openAt := openAt_append front back hb
  height := by rwa [List.take_left]
  first := by
    intro q hq hopen heq
    obtain ⟨t, hget, ht⟩ := hopen
    rw [List.getElem?_append_left hq] at hget
    obtain ⟨before, brace', after, rfl, rfl, hb'⟩ := exists_of_openAt ⟨t, hget, ht⟩
    rw [List.append_assoc, List.take_left] at heq
    -- the brace in front would already lead above the limit
    have hstep : Braces.height (before ++ [brace']) = limit + 1 := by
      rw [Braces.height, heightFrom_append, heightFrom_cons, turn_open _ hb', heightFrom_nil,
        ← heq, Braces.height]
    have hle : Braces.height (before ++ [brace']) ≤ peak (before ++ brace' :: after) :=
      heightFrom_le_peakFrom 0 ⟨after, by simp⟩
    omega

section
variable {room room' p : Nat} {ts : List Token}

theorem exists_succ_of_lt (h : room + 1 ≤ room') : ∃ deeper, room' = deeper + 1 ∧ room ≤ deeper :=
  ⟨room' - 1, by omega, by omega⟩

theorem Sheet.mono (h : Sheet room ts) (hle : room ≤ room') : Sheet room' ts := by
  induction h generalizing room' with
  | tail ht => exact .tail ht
  | block hopen hclose hheader body rest ihb ihr =>
    obtain ⟨deeper, rfl, hdeeper⟩ := exists_succ_of_lt hle
    exact .block hopen hclose hheader (ihb hdeeper) (ihr hle)

theorem Spells.mono {nodes : List Node} (h : Spells room p ts nodes) (hle : room ≤ room') :
    Spells room' p ts nodes := by
  induction h generalizing room' with
  | nothing => exact .nothing
  | trailing ht => exact .trailing ht
  | atRule hf he hb more ih => exact .atRule hf he hb (ih hle)
  | statement hf he hb hs more ih => exact .statement hf he hb hs (ih hle)
  | block hf hb hi hc hh body more ihb ihm =>
    obtain ⟨deeper, rfl, hdeeper⟩ := exists_succ_of_lt hle
    exact .block hf hb hi hc hh (ihb hdeeper) (ihm hle)

namespace Fails

variable {e : ParseError}

/-- A higher limit leaves every error as it is, other than that of a limit exceeded. -/
theorem mono (h : Fails room ts e) (hcause : e.cause ≠ .nestingTooDeep) (hle : room ≤ room') :
    Fails room' ts e := by
  induction h generalizing room' with
  | unmatched hf hb hm => exact .unmatched hf hb hm
  | tooDeep hf hb hi hc => exact absurd rfl hcause
  | content hf hb hi hc body ih =>
    obtain ⟨deeper, rfl, hdeeper⟩ := exists_succ_of_lt hle
    exact .content hf hb hi hc (ih hcause hdeeper)
  | header hf hb hi hc body hh =>
    obtain ⟨deeper, rfl, hdeeper⟩ := exists_succ_of_lt hle
    exact .header hf hb hi hc (body.mono hdeeper) hh
  | behindBlock hf hb hi hc body hn more ih =>
    obtain ⟨deeper, rfl, hdeeper⟩ := exists_succ_of_lt hle
    exact .behindBlock hf hb hi hc (body.mono hdeeper) hn (ih hcause hle)
  | atRule hf hb hr => exact .atRule hf hb hr
  | statement hf hl hb hr => exact .statement hf hl hb hr
  | behindSegment hf hs more ih => exact .behindSegment hf hs (ih hcause hle)
  | unknown hf hl ha hb => exact .unknown hf hl ha hb

/-- A limit exceeded is found at a brace in front of which no height is above the limit. -/
theorem exists_exceeding (h : Fails room ts e) (hcause : e.cause = .nestingTooDeep) :
    ∃ front brace back, ts = front ++ brace :: back ∧ brace.isBraceOpen ∧ height front = room ∧
      peak front ≤ room ∧ e.Cites .nestingTooDeep brace := by
  induction h with
  | unmatched hf hb hm =>
    obtain ⟨-, rfl⟩ := Scan.error_of_matchingBrace hm
    rw [ParseError.atLast] at hcause
    split at hcause <;> cases hcause
  | tooDeep hf hb hi hc =>
    exact ⟨_, _, _, rfl, hb, hf.heightFrom_zero.1, hf.heightFrom_zero.2.le, Token.fault_cites _ _⟩
  | @content room front inner rest brace close e hf hb hi hc body ih =>
    obtain ⟨before, brace', after, rfl, hb', hheight, hpeak, he⟩ := ih hcause
    obtain ⟨hup, hpeakup⟩ := height_inside hf hb hi
    refine ⟨front ++ brace :: before, brace', after ++ close :: rest, by simp, hb', ?_, ?_, he⟩
    · omega
    · omega
  | header hf hb hi hc body hh =>
    obtain ⟨front, mark, -, -, rfl⟩ := Header.exists_of_read_error hh
    cases hcause
  | @behindBlock room front inner rest brace close e hf hb hi hc body hn more ih =>
    obtain ⟨before, brace', after, rfl, hb', hheight, hpeak, he⟩ := ih hcause
    obtain ⟨nodes, hspells⟩ := body.spells 0
    have hinner : peak inner ≤ room := hspells.peak_le
    refine ⟨front ++ brace :: (inner ++ close :: before), brace', after, by simp, hb', ?_, ?_, he⟩
    · rwa [height_block hf hb hi hc]
    · rw [peak_block hf hb hi hc]
      omega
  | atRule hf hb hr => exact absurd hcause (AtRule.fault_of_read hf hb hr).cause_ne
  | statement hf hl hb hr =>
    exact absurd hcause (Statement.fault_of_read hf (List.cons_ne_nil _ _) hr).cause_ne
  | @behindSegment room segment rest e hf hs more ih =>
    obtain ⟨before, brace', after, rfl, hb', hheight, hpeak, he⟩ := ih hcause
    have hsegment := (flat_append.mp hf).1
    refine ⟨segment ++ before, brace', after, by simp, hb', ?_, ?_, he⟩
    · rwa [hsegment.height_append]
    · rwa [hsegment.peak_append]
  | unknown => cases hcause

end Fails
end

/-- A limit on nested blocks changes nothing but where it is exceeded. What a parse gives without
exceeding its limit, it gives under any higher limit. A limit is exceeded at the first opening
brace that raises the height above it; this does not happen where no height is above the limit,
and where one is, no parse succeeds. -/
theorem parse_limit (config config' : Config) (ts : List Token)
    (hle : config.maxDepth ≤ config'.maxDepth) :
    (¬ TooDeep (parse config ts).result → (parse config' ts).result = (parse config ts).result) ∧
      (∀ e, (parse config ts).result = .error e → e.cause = .nestingTooDeep →
        ∃ p brace, Exceeds config.maxDepth ts p ∧ ts[p]? = some brace ∧
          e.Cites .nestingTooDeep brace) ∧
      ((∀ front, front <+: ts → height front ≤ config.maxDepth) →
        ¬ TooDeep (parse config ts).result) ∧
      ((∃ front, front <+: ts ∧ config.maxDepth < height front) →
        ∀ nodes, (parse config ts).result ≠ .ok nodes) := by
  refine ⟨?_, ?_, ?_, ?_⟩
  · intro hnot
    cases hr : (parse config ts).result with
    | ok nodes => exact parse_ok_iff.mpr ((parse_ok_iff.mp hr).mono hle)
    | error e =>
      have hcause : e.cause ≠ .nestingTooDeep := fun hc => hnot ⟨e, hr, hc⟩
      exact parse_error_iff.mpr ((parse_error_iff.mp hr).mono hcause hle)
  · intro e hr hcause
    obtain ⟨front, brace, back, rfl, hb, hheight, hpeak, he⟩ :=
      (parse_error_iff.mp hr).exists_exceeding hcause
    exact ⟨front.length, brace, exceeds_append back hb hheight hpeak, by simp, he⟩
  · rintro hall ⟨e, hr, hcause⟩
    obtain ⟨front, brace, back, rfl, hb, hheight, -, -⟩ :=
      (parse_error_iff.mp hr).exists_exceeding hcause
    have habove := hall (front ++ [brace]) ⟨back, by simp⟩
    rw [height, heightFrom_append, heightFrom_cons, turn_open _ hb, heightFrom_nil] at habove
    rw [height] at hheight
    omega
  · rintro ⟨front, hf, hlt⟩ nodes hr
    have hpeak : peak ts ≤ config.maxDepth := (parse_ok_iff.mp hr).peak_le
    have hfront : height front ≤ peak ts := heightFrom_le_peakFrom 0 hf
    omega

theorem parse_limit_nested :
    (1 : Nat) ≤ 2 ∧
      (∃ p brace e, Exceeds 1 (Source.tokens ⟨none, "\x7da\x7bb\x7b\x7d\x7d"⟩) p ∧
        (Source.tokens ⟨none, "\x7da\x7bb\x7b\x7d\x7d"⟩)[p]? = some brace ∧
        (parse ⟨none, 1⟩ (Source.tokens ⟨none, "\x7da\x7bb\x7b\x7d\x7d"⟩)).result = .error e ∧
        e.Cites .nestingTooDeep brace) ∧
      (2 : Nat) ≤ 5 ∧
      (parse ⟨none, 5⟩ (Source.tokens ⟨none, "\x7da\x7bb\x7b\x7d\x7d"⟩)).result =
        .ok [.block (.selectors ["\x7da"]) [.block (.selectors ["b"]) [] ⟨3, 6⟩] ⟨0, 7⟩] := by
  have hlow : (parse ⟨none, 1⟩ (Source.tokens ⟨none, "\x7da\x7bb\x7b\x7d\x7d"⟩)).result =
      .error (Token.fault ⟨.braceOpen, "\x7b", 4, ⟨none, "\x7da\x7bb\x7b\x7d\x7d"⟩⟩
        .nestingTooDeep) := by cbv
  have hhigh : (parse ⟨none, 2⟩ (Source.tokens ⟨none, "\x7da\x7bb\x7b\x7d\x7d"⟩)).result =
      .ok [.block (.selectors ["\x7da"]) [.block (.selectors ["b"]) [] ⟨3, 6⟩] ⟨0, 7⟩] := by cbv
  refine ⟨by decide, ?_, by decide, ?_⟩
  · obtain ⟨p, brace, hexceeds, hget, he⟩ :=
      (parse_limit ⟨none, 1⟩ ⟨none, 2⟩ _ (by decide)).2.1 _ hlow rfl
    exact ⟨p, brace, _, hexceeds, hget, hlow, he⟩
  · have hnot : ¬ TooDeep (parse ⟨none, 2⟩
        (Source.tokens ⟨none, "\x7da\x7bb\x7b\x7d\x7d"⟩)).result := by
      rintro ⟨e, he, -⟩
      cases hhigh.symm.trans he
    exact ((parse_limit ⟨none, 2⟩ ⟨none, 5⟩ _ (by decide)).1 hnot).trans hhigh

end RuleTree
