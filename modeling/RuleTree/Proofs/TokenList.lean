import Mathlib.Tactic
import RuleTree.Node.Json
import RuleTree.Proofs.Lexing
import RuleTree.Proofs.TokenTexts

/-! Lists of tokens, written and read. In whatever layout a list is written, that is one of the
texts that list its tokens, so nothing but their sources is lost between writing and reading. -/
namespace RuleTree
open Json

/-- A list of tokens as it is exchanged. -/
def Token.listJson (ts : List Token) : Json := .list (ts.map Token.json)

/-- The token as a piece of `s`, its kind being what its tag stands for. -/
def Token.received (s : Source) (t : Token) : Token := ⟨Kind.ofTag t.kind.tag, t.text, t.index, s⟩

theorem Token.received_eq {s : Source} {t : Token} (hkind : t.kind ∈ Kind.named)
    (horigin : t.origin = s) : t.received s = t := by
  rw [received, Kind.ofTag_tag hkind, ← horigin]

namespace Token

/-- What is exchanged of a token. -/
def raw (t : Token) : RawToken := ⟨t.kind.tag, t.text, t.index⟩

section
variable {l : Layout}

/-- A written field is an entry of the token's record. -/
theorem member_of_written (hl : l.Blank) {t : Token} (f : RawToken.Field) {value entry : List Char}
    (hvalue : t.raw.Value f value)
    (h : Padded (· = quote f.key ++ [':'] ++ l.gap ++ value) entry) :
    t.raw.Member (some f) entry := by
  obtain @⟨front, text, back, hfront, rfl, hback⟩ := h
  have hnil : Gap [] := by decide
  have hentry : front ++ (quote f.key ++ [':'] ++ l.gap ++ value ++ back) =
      front ++ (quote f.key ++ ([] ++ ':' :: (l.gap ++ (value ++ back)))) := by simp
  rw [hentry]
  exact .field f hfront (quotes_quote _) hnil (.intro hl.gap hvalue hback)

theorem written_json (hl : l.Blank) (level : Nat) (t : Token) :
    t.raw.Written (write l level t.json) := by
  have hne : [quote "type" ++ [':'] ++ l.gap ++ quote t.kind.tag,
      quote "source" ++ [':'] ++ l.gap ++ quote t.text,
      quote "index" ++ [':'] ++ l.gap ++ Nat.toDigits 10 t.index] ≠ [] := List.cons_ne_nil _ _
  obtain ⟨entries, heq, hentries⟩ := hl.exists_enclose level .record hne
  obtain _ | ⟨htype, _ | ⟨hsource, _ | ⟨hindex, _ | _⟩⟩⟩ := hentries
  have hmembers := List.Forall₂.cons (member_of_written hl .type (quotes_quote t.raw.tag) htype)
    (.cons (member_of_written hl .source (quotes_quote _) hsource)
      (.cons (member_of_written hl .index rfl hindex) .nil))
  have hwritten : t.raw.Written _ := .record (.refl _) hmembers
  rw [← heq] at hwritten
  exact hwritten

theorem written_entries (hl : l.Blank) (level : Nat) {ts : List Token}
    {entries : List (List Char)}
    (h : List.Forall₂ (fun item => Padded (· = item)) (writeItems l level (ts.map Token.json))
      entries) : List.Forall₂ (fun e => Padded e.Written) (ts.map raw) entries := by
  induction ts generalizing entries with
  | nil =>
    cases h
    exact .nil
  | cons t ts ih =>
    obtain _ | ⟨hentry, hmore⟩ := h
    obtain @⟨front, text, back, hfront, rfl, hback⟩ := hentry
    exact .cons (.intro hfront (written_json hl level t) hback) (ih hmore)

end
end Token

/-- Tokens in any layout are one of the texts that list them. -/
theorem Token.listing_listJson {l : Layout} (hl : l.Blank) (ts : List Token) :
    RawToken.Listing (ts.map raw) (write l 0 (listJson ts)) := by
  have hwrite : write l 0 (listJson ts) =
      l.enclose 0 '[' ']' (writeItems l 1 (ts.map Token.json)) := rfl
  rw [hwrite]
  cases ts with
  | nil =>
    have hempty : Gap [] := by decide
    exact .empty hempty
  | cons t ts =>
    obtain ⟨entries, heq, hentries⟩ := hl.exists_enclose 0 .list (List.cons_ne_nil _ _)
    exact heq ▸ .tokens (List.cons_ne_nil _ _) (written_entries hl 1 hentries)

/-- A written list of tokens is read as these tokens, as pieces of the source at hand. -/
theorem Source.tokensOfJson_render {l : Layout} (hl : l.Blank) (s : Source) {ts : List Token}
    (hindex : ∀ t ∈ ts, t.index < Text.wordBound) :
    s.tokensOfJson (render l (Token.listJson ts)) = .ok (ts.map (Token.received s)) := by
  have hbound : ∀ e ∈ ts.map Token.raw, e.index < Text.wordBound := List.forall_mem_map.mpr hindex
  have hlisting : Padded (RawToken.Listing (ts.map Token.raw))
      (render l (Token.listJson ts)).toList := by
    rw [render, String.toList_ofList]
    exact .of (Token.listing_listJson hl ts)
  rw [tokensOfJson_listed hbound hlisting, List.map_map]
  rfl

/-- The written tokens of a text are its tokens, whatever name it had when they were written. -/
theorem Source.tokensOfJson_tokens {l : Layout} (hl : l.Blank) {s s' : Source}
    (htext : s'.text = s.text) (hlength : s.text.length ≤ Text.wordBound) :
    s.tokensOfJson (render l (Token.listJson s'.tokens)) = .ok s.tokens := by
  have hindex : ∀ t ∈ s.tokens, t.index < Text.wordBound := fun t ht =>
    Nat.lt_of_lt_of_le (index_lt_of_mem_tokens ht) hlength
  have hsame : s.tokens.map (Token.received s) = s.tokens :=
    (List.map_congr_left fun t ht =>
      Token.received_eq (named_of_mem_tokens ht) (origin_of_mem_tokens ht)).trans (List.map_id _)
  rw [Token.listJson, tokens_json htext, ← Token.listJson, tokensOfJson_render hl s hindex, hsame]

end RuleTree
