import Mathlib
import RuleTree.Proofs.TokenList

/-! The exchange of tokens. Whoever lists tokens in JSON gets them read as they are, and tokens that
are listed again keep their tags, texts and offsets. -/
namespace RuleTree
open Json

/-- The tags that stand for kinds of their own. -/
def Kind.tags : List (String × Kind) :=
  [("word", .word), ("delimiter", .delimiter), ("semicolon", .semicolon), ("colon", .colon),
   ("comma", .comma), ("at", .atSign), ("braceOpen", .braceOpen), ("braceClose", .braceClose),
   ("parenthesisOpen", .parenOpen), ("parenthesisClose", .parenClose), ("string", .quoted)]

namespace RawToken

section
variable (e : RawToken)

/-- The token as a JSON value. -/
def json : Json :=
  .record [("type", .text e.tag), ("source", .text e.text), ("index", .number e.index)]

/-- The token `t` is the one exchanged, as a piece of `s`. A tag without a kind of its own is
kept. -/
structure Carried (s : Source) (t : Token) : Prop where
  known : ∀ k, (e.tag, k) ∈ Kind.tags → t.kind = k
  other : (∀ k, (e.tag, k) ∉ Kind.tags) → t.kind = .other e.tag
  text : t.text = e.text
  index : t.index = e.index
  origin : t.origin = s

end

end RawToken

/-! ### Kinds and their tags -/

theorem Kind.mem_tags_iff {tag : String} {k : Kind} :
    (tag, k) ∈ Kind.tags ↔ k ∈ Kind.named ∧ k.tag = tag := by
  have htags : Kind.tags = Kind.named.map fun k => (k.tag, k) := rfl
  simp only [htags, List.mem_map, Prod.mk.injEq]
  constructor
  · rintro ⟨k, hk, rfl, rfl⟩
    exact ⟨hk, rfl⟩
  · rintro ⟨hk, rfl⟩
    exact ⟨k, hk, rfl, rfl⟩

theorem Kind.ofTag_of_mem_tags {tag : String} {k : Kind} (h : (tag, k) ∈ Kind.tags) :
    Kind.ofTag tag = k := by
  obtain ⟨hk, rfl⟩ := mem_tags_iff.mp h
  exact ofTag_tag hk

theorem Kind.ofTag_of_notMem_tags {tag : String} (h : ∀ k, (tag, k) ∉ Kind.tags) :
    Kind.ofTag tag = .other tag := by
  have hnone : named? tag = none := by
    refine List.find?_eq_none.mpr fun k hk htag => ?_
    exact h k (mem_tags_iff.mpr ⟨hk, eq_of_beq htag⟩)
  rw [ofTag, hnone, Option.getD_none]

/-- A kind is what its tag stands for, unless it is kept under the tag of another. -/
theorem Kind.ofTag_tag_of_other {k : Kind}
    (h : ∀ tag, k = .other tag → ∀ k', (tag, k') ∉ Kind.tags) : Kind.ofTag k.tag = k := by
  cases k with
  | other tag => exact ofTag_of_notMem_tags (h tag rfl)
  | _ => exact ofTag_tag (by decide)

namespace RawToken

theorem carried_token (e : RawToken) (s : Source) : e.Carried s (e.token s) where
  known _ h := Kind.ofTag_of_mem_tags h
  other h := Kind.ofTag_of_notMem_tags h
  text := rfl
  index := rfl
  origin := rfl

theorem json_token (e : RawToken) (s : Source) : (e.token s).json = e.json := by
  rw [Token.json, token, json, Kind.tag_ofTag]

theorem received_token (e : RawToken) (s : Source) : (e.token s).received s = e.token s := by
  rw [Token.received, token, Kind.tag_ofTag]

end RawToken

theorem Source.tokensOfJson_compact {ts : List Token}
    (hindex : ∀ t ∈ ts, t.index < Text.wordBound) (s : Source) :
    s.tokensOfJson (Token.listJson ts).compact = .ok (ts.map (Token.received s)) :=
  tokensOfJson_render Layout.compact_blank s hindex

/-- Tokens that are listed in any way JSON allows are read as they are, for the source at hand: with
the kinds that their tags stand for, the tag itself being kept where it stands for none. Listing
them again gives the same tags, texts and offsets, and any list of tokens outlasts being written and
read, if no tag is kept that stands for another kind. -/
theorem Source.tokensOfJson_exchange (s : Source) :
    (∀ (es : List RawToken) (json : String), (∀ e ∈ es, e.index < Text.wordBound) →
      Padded (RawToken.Listing es) json.toList →
      ∃ ts, s.tokensOfJson json = .ok ts ∧ List.Forall₂ (fun e t => e.Carried s t) es ts ∧
        Token.listJson ts = .list (es.map RawToken.json) ∧
        s.tokensOfJson (Token.listJson ts).compact = .ok ts) ∧
    ∀ ts : List Token, (∀ t ∈ ts, t.index < Text.wordBound) →
      (∀ t ∈ ts, ∀ tag, t.kind = .other tag → ∀ k, (tag, k) ∉ Kind.tags) →
      s.tokensOfJson (Token.listJson ts).compact =
        .ok (ts.map fun t => { t with origin := s }) := by
  constructor
  · intro es json hindex hjson
    refine ⟨es.map fun e => e.token s, tokensOfJson_listed hindex hjson s, ?_, ?_, ?_⟩
    · refine List.forall₂_map_right_iff.mpr (List.forall₂_same.mpr fun e _ => ?_)
      exact RawToken.carried_token e s
    · rw [Token.listJson, List.map_map]
      exact congrArg Json.list (List.map_congr_left fun e _ => RawToken.json_token e s)
    · have hall : ∀ t ∈ es.map fun e => e.token s, t.index < Text.wordBound :=
        List.forall_mem_map.mpr hindex
      rw [tokensOfJson_compact hall, List.map_map]
      exact congrArg Except.ok (List.map_congr_left fun e _ => RawToken.received_token e s)
  · intro ts hindex hother
    have hkeep : ∀ t ∈ ts, t.received s = { t with origin := s } := by
      intro t ht
      rw [Token.received, Kind.ofTag_tag_of_other (hother t ht)]
    rw [tokensOfJson_compact hindex, List.map_congr_left hkeep]

theorem Source.tokensOfJson_exchange_escaped :
    let s : Source := ⟨none, ""⟩
    let es : List RawToken := [⟨"string", "😀", 7⟩, ⟨"new", "", 18446744073709551615⟩]
    let json := " [ \x7b\"index\" : 7 ,\"x\":[-1.5e2,\"\\ud800\"],\"\\u0073ource\":" ++
      "\"\\uD83d\\ude00\",\"type\":\"string\"\x7d,[\"new\",\"\",18446744073709551615]]\n"
    let ts : List Token := [⟨.atSign, "@", 0, ⟨some "a.css", "@"⟩⟩, ⟨.other "At", "\"\\", 1, s⟩]
    (∀ e ∈ es, e.index < Text.wordBound) ∧ Padded (RawToken.Listing es) json.toList ∧
      (∃ ts, s.tokensOfJson json = .ok ts ∧ List.Forall₂ (fun e t => e.Carried s t) es ts ∧
        Token.listJson ts = .list (es.map RawToken.json) ∧
        s.tokensOfJson (Token.listJson ts).compact = .ok ts) ∧
      (∀ t ∈ ts, t.index < Text.wordBound) ∧
      (∀ t ∈ ts, ∀ tag, t.kind = .other tag → ∀ k, (tag, k) ∉ Kind.tags) ∧
      s.tokensOfJson (Token.listJson ts).compact =
        .ok (ts.map fun t => { t with origin := s }) := by
  -- the parts of the text from the inside out, each with the rule that allows it
  have hnil : Gap [] := by decide
  have hblank : Gap [' '] := by decide
  have hdigits (d : Char) (h : d.isDigit) : Digits [d] := ⟨by simp, by simpa using h⟩
  have hnumber : IsNumber ['-', '1', '.', '5', 'e', '2'] :=
    @IsNumber.intro ['-'] ['1'] ['.', '5'] ['e', '2'] (by decide) ⟨hdigits '1' rfl, by decide⟩
      (.digits (hdigits '5' rfl)) (.digits (.inl rfl) (by decide : [] ∈ _) (hdigits '2' rfl))
  have hlone : InQuotes ['\\', 'u', 'd', '8', '0', '0'] :=
    @InQuotes.code 0xD800 ['d', '8', '0', '0'] [] ⟨by decide, by decide⟩ .nil
  have hvalue : WellFormed .value (Bracket.list.enclose
      [['-', '1', '.', '5', 'e', '2'], ['"', '\\', 'u', 'd', '8', '0', '0', '"']]) := by
    refine .enclosed .list (List.cons_ne_nil _ _) fun text h => ?_
    simp only [List.mem_cons, List.not_mem_nil, or_false] at h
    rcases h with rfl | rfl
    · exact .item hnil (.number hnumber) hnil
    · exact .item hnil (.text hlone) hnil
  have hkey : Quotes "source" ['"', '\\', 'u', '0', '0', '7', '3', 'o', 'u', 'r', 'c', 'e', '"'] :=
    @Quotes.intro _ ['\\', 'u', '0', '0', '7', '3', 'o', 'u', 'r', 'c', 'e']
      (@Escapes.code 's' ['0', '0', '7', '3'] ['o', 'u', 'r', 'c', 'e'] _
        ⟨by decide, by decide⟩ (escapes_flatMap ['o', 'u', 'r', 'c', 'e']))
  have hpair : Quotes "😀"
      ['"', '\\', 'u', 'D', '8', '3', 'd', '\\', 'u', 'd', 'e', '0', '0', '"'] :=
    @Quotes.intro _ ['\\', 'u', 'D', '8', '3', 'd', '\\', 'u', 'd', 'e', '0', '0']
      (@Escapes.pair '😀' 0x3D 0x200 ['D', '8', '3', 'd'] ['d', 'e', '0', '0'] [] []
        (by decide) (by decide) rfl ⟨by decide, by decide⟩ ⟨by decide, by decide⟩ .nil)
  have hrecord : RawToken.Written ⟨"string", "😀", 7⟩ _ := .record (by decide)
    (.cons (.field .index hnil (quotes_quote _) hblank
        (@Padded.intro _ _ ['7'] _ hblank rfl hblank))
      (.cons (.other (fun f => by cases f <;> decide) hnil (quotes_quote "x") hnil
          (.item hnil hvalue hnil))
        (.cons (.field .source hnil hkey hnil (.intro hnil hpair hnil))
          (.cons (.field .type hnil (quotes_quote _) hnil
            (.intro hnil (quotes_quote "string") hnil)) .nil))))
  have hlist : RawToken.Written ⟨"new", "", 18446744073709551615⟩ _ := .list
    (.cons (.intro hnil (quotes_quote _) hnil) (.cons (.intro hnil (quotes_quote _) hnil)
      (.cons (@Padded.intro _ _ (Nat.toDigits 10 18446744073709551615) _ hnil rfl hnil) .nil)))
  have hlisting : Padded (RawToken.Listing
      [⟨"string", "😀", 7⟩, ⟨"new", "", 18446744073709551615⟩]) _ :=
    .intro hblank (.tokens (List.cons_ne_nil _ _)
      (.cons (.intro hblank hrecord hnil) (.cons (.intro hnil hlist hnil) .nil)))
      (by decide : Gap ['\n'])
  intro s es json ts
  have hjson : Padded (RawToken.Listing es) json.toList := by
    refine Eq.mp (congrArg (Padded (RawToken.Listing es)) ?_) hlisting
    decide +kernel
  have hindex : ∀ e ∈ es, e.index < Text.wordBound := by decide
  have hbound : ∀ t ∈ ts, t.index < Text.wordBound := by decide
  have hother : ∀ t ∈ ts, ∀ tag, t.kind = .other tag → ∀ k, (tag, k) ∉ Kind.tags := by
    intro t ht tag htag k
    simp only [ts, List.mem_cons, List.not_mem_nil, or_false] at ht
    rcases ht with rfl | rfl
    · cases htag
    · cases htag
      simp [Kind.tags]
  obtain ⟨hreads, hkeeps⟩ := tokensOfJson_exchange s
  exact ⟨hindex, hjson, hreads es json hindex hjson, hbound, hother, hkeeps ts hbound hother⟩

end RuleTree
