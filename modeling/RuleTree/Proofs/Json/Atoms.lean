import Mathlib.Tactic
import RuleTree.Json.Escape
import RuleTree.Json.Numeral
import RuleTree.Proofs.Json.Grammar

/-! Texts in quotes and numbers, read in front of anything that cannot belong to them. -/
namespace RuleTree.Json

section
variable {exact : Bool} {c d : Char} {cs text digits rest : List Char} {n : Nat}

theorem readQuoted_end : readQuoted exact ('"' :: rest) = .ok ([], rest) := by
  rw [readQuoted]
  rfl

theorem readQuoted_plain (h : Plain c) :
    readQuoted exact (c :: cs) = (readQuoted exact cs).map fun r => (c :: r.1, r.2) := by
  have hcontrol : ¬ c.toNat < 0x20 := Nat.not_lt.mpr h.le_toNat
  rw [readQuoted]
  simp only [h.ne_quote, h.ne_slash, hcontrol, if_false]

theorem readQuoted_escape (h : readEscape exact cs = .ok (d, rest)) :
    readQuoted exact ('\\' :: cs) = (readQuoted exact rest).map fun r => (d :: r.1, r.2) := by
  rw [readQuoted]
  simp only [Char.reduceEq, if_false, if_true]
  split
  next hf => cases h.symm.trans hf
  next hd =>
    cases h.symm.trans hd
    rfl

theorem readEscape_short (h : (d, c) ∈ shortEscapes) :
    readEscape exact (d :: cs) = .ok (c, cs) := by
  simp only [shortEscapes, List.mem_cons, Prod.mk.injEq, List.not_mem_nil, or_false] at h
  rcases h with ⟨rfl, rfl⟩ | ⟨rfl, rfl⟩ | ⟨rfl, rfl⟩ | ⟨rfl, rfl⟩ | ⟨rfl, rfl⟩ | ⟨rfl, rfl⟩ |
    ⟨rfl, rfl⟩ | ⟨rfl, rfl⟩ <;> rfl

theorem hexValue?_of_hexDigit (hn : n < 0x10) (h : HexDigit n c) : hexValue? c = some n := by
  have hall : ∀ n < 0x10, hexValue? (Nat.digitChar n) = some n ∧
      hexValue? (Nat.digitChar n).toUpper = some n := by decide
  rcases h with rfl | rfl
  · exact (hall n hn).1
  · exact (hall n hn).2

theorem HexCode.readHex4 (h : HexCode n digits) (rest : List Char) :
    readHex4 (digits ++ rest) = .ok (n, rest) := by
  obtain ⟨hlt, _ | ⟨ha, _ | ⟨hb, _ | ⟨hc, _ | ⟨hd, _ | _⟩⟩⟩⟩⟩ := h
  have ha := hexValue?_of_hexDigit (by omega) ha
  have hb := hexValue?_of_hexDigit (by omega) hb
  have hc := hexValue?_of_hexDigit (by omega) hc
  have hd := hexValue?_of_hexDigit (by omega) hd
  have hvalue : ((n / 0x1000 * 16 + n / 0x100 % 0x10) * 16 + n / 0x10 % 0x10) * 16 + n % 0x10 =
      n := by omega
  simp only [List.cons_append, List.nil_append, Json.readHex4, hexValue4?, ha, hb, hc, hd,
    Option.bind_eq_bind, Option.bind_some, Option.pure_def, hvalue]

/-- The code of a character is none of a surrogate. -/
theorem readEscape_code (h : HexCode c.toNat digits) (rest : List Char) :
    readEscape true ('u' :: (digits ++ rest)) = .ok (c, rest) := by
  have hvalid : c.toNat < 0xD800 ∨ 0xDFFF < c.toNat := by
    rcases c.valid with hlow | hhigh
    · exact .inl hlow
    · exact .inr hhigh.1
  have hfirst : isHighSurrogate c.toNat = false := by
    simp only [isHighSurrogate, Bool.and_eq_false_iff, decide_eq_false_iff_not]
    omega
  have hsecond : isLowSurrogate c.toNat = false := by
    simp only [isLowSurrogate, Bool.and_eq_false_iff, decide_eq_false_iff_not]
    omega
  simp only [readEscape, readCode, h.readHex4, hfirst, hsecond, Bool.and_false, Bool.false_eq_true,
    if_true, if_false, Char.ofNat_toNat]

theorem readEscape_pair {high low : Nat} {digits' : List Char} (hhigh : high < 0x400)
    (hlow : low < 0x400) (hc : c.toNat = 0x10000 + 0x400 * high + low)
    (hd : HexCode (0xD800 + high) digits) (hd' : HexCode (0xDC00 + low) digits')
    (rest : List Char) :
    readEscape true ('u' :: (digits ++ '\\' :: 'u' :: (digits' ++ rest))) = .ok (c, rest) := by
  have hfirst : isHighSurrogate (0xD800 + high) = true := by
    simp only [isHighSurrogate, Bool.and_eq_true, decide_eq_true_eq]
    omega
  have hsecond : isLowSurrogate (0xDC00 + low) = true := by
    simp only [isLowSurrogate, Bool.and_eq_true, decide_eq_true_eq]
    omega
  have hvalue : ofSurrogates (0xD800 + high) (0xDC00 + low) = c := by
    have hcode : 0x10000 + (0xD800 + high - 0xD800) * 0x400 + (0xDC00 + low - 0xDC00) =
        c.toNat := by omega
    rw [ofSurrogates, hcode, Char.ofNat_toNat]
  simp only [readEscape, readCode, readLowSurrogate, hd.readHex4, hd'.readHex4, hfirst, hsecond,
    Bool.and_true, if_true, hvalue]

/-- Characters are read back however they are escaped, up to the closing quote. -/
theorem Escapes.readQuoted (h : Escapes text cs) (rest : List Char) :
    readQuoted true (text ++ '"' :: rest) = .ok (cs, rest) := by
  induction h with
  | nil => exact readQuoted_end
  | plain hc _ ih =>
    rw [List.cons_append, readQuoted_plain hc, ih]
    rfl
  | short hd _ ih =>
    rw [List.cons_append, List.cons_append, readQuoted_escape (readEscape_short hd), ih]
    rfl
  | code hc _ ih =>
    rw [List.cons_append, List.cons_append, List.append_assoc,
      readQuoted_escape (readEscape_code hc _), ih]
    rfl
  | pair hhigh hlow hc hd hd' _ ih =>
    rw [List.cons_append, List.cons_append, List.append_assoc, List.cons_append, List.cons_append,
      List.append_assoc, readQuoted_escape (readEscape_pair hhigh hlow hc hd hd' _), ih]
    rfl

theorem InQuotes.readQuoted (h : InQuotes text) (rest : List Char) :
    ∃ cs, readQuoted false (text ++ '"' :: rest) = .ok (cs, rest) := by
  induction h with
  | nil => exact ⟨[], readQuoted_end⟩
  | @plain c _ hc _ ih =>
    obtain ⟨cs, ih⟩ := ih
    refine ⟨c :: cs, ?_⟩
    rw [List.cons_append, readQuoted_plain hc, ih]
    rfl
  | @short _ c _ hd _ ih =>
    obtain ⟨cs, ih⟩ := ih
    refine ⟨c :: cs, ?_⟩
    rw [List.cons_append, List.cons_append, readQuoted_escape (readEscape_short hd), ih]
    rfl
  | @code n digits text hn _ ih =>
    obtain ⟨cs, ih⟩ := ih
    have hcode : readEscape false ('u' :: (digits ++ (text ++ '"' :: rest))) =
        .ok (Char.ofNat n, text ++ '"' :: rest) := by
      simp only [readEscape, readCode, hn.readHex4, Bool.false_and, Bool.false_eq_true, if_true,
        if_false]
    refine ⟨Char.ofNat n :: cs, ?_⟩
    rw [List.cons_append, List.cons_append, List.append_assoc, readQuoted_escape hcode, ih]
    rfl

theorem Escapes.inQuotes (h : Escapes text cs) : InQuotes text := by
  induction h with
  | nil => exact .nil
  | plain hc _ ih => exact .plain hc ih
  | short hd _ ih => exact .short hd ih
  | code hc _ ih => exact .code hc ih
  | pair _ _ _ hd hd' _ ih => exact .code hd (.code hd' ih)

end

/-- Nothing at the front of the text goes on with a number. -/
def Ended (rest : List Char) : Prop :=
  ∀ c ∈ rest.head?, c.isDigit = false ∧ c ≠ '.' ∧ c ≠ 'e' ∧ c ≠ 'E'

section
variable {c : Char} {digits text rest : List Char}

theorem Ended.nil : Ended [] := nofun

theorem readDigits_append (h : Digits digits) (hrest : ∀ c ∈ rest.head?, c.isDigit = false) :
    readDigits (digits ++ rest) = .ok (digits, rest) := by
  have htake : rest.takeWhile Char.isDigit = [] := by
    cases rest with
    | nil => rfl
    | cons c cs => simp [hrest c rfl]
  have hdrop : rest.dropWhile Char.isDigit = rest := by
    cases rest with
    | nil => rfl
    | cons c cs => simp [hrest c rfl]
  rw [readDigits, List.takeWhile_append_of_pos h.all, List.dropWhile_append_of_pos h.all, htake,
    hdrop, List.append_nil]
  cases digits with
  | nil => exact absurd rfl h.ne_nil
  | cons d ds => rfl

theorem readWhole_append (h : Whole digits) (hrest : ∀ c ∈ rest.head?, c.isDigit = false) :
    readWhole (digits ++ rest) = .ok (digits, rest) := by
  rw [readWhole, readDigits_append h.toDigits hrest]
  split
  next d ds _ heq =>
    simp only [Except.ok.injEq, Prod.mk.injEq] at heq
    have hzero : digits.head? = some '0' := heq.1 ▸ rfl
    cases heq.1.symm.trans (h.front hzero)
  next => rfl

theorem readFraction_of_ended (hrest : ∀ c ∈ rest.head?, c ≠ '.') :
    readFraction rest = .ok ([], rest) := by
  unfold readFraction
  split
  next => exact absurd rfl (hrest '.' rfl)
  next => rfl

theorem readExponent_of_ended (hrest : Ended rest) : readExponent rest = .ok (none, rest) := by
  cases rest with
  | nil => rfl
  | cons c cs =>
    obtain ⟨-, -, hlower, hupper⟩ := hrest c rfl
    simp only [readExponent, hlower, hupper, or_self, if_false]

theorem readSign_digits (h : Digits digits) (rest : List Char) :
    readSign (digits ++ rest) = (false, digits ++ rest) := by
  cases digits with
  | nil => exact absurd rfl h.ne_nil
  | cons d ds =>
    have hdigit : d.isDigit := h.all d List.mem_cons_self
    unfold readSign
    split
    next heq =>
      cases heq
      cases hdigit
    next heq =>
      cases heq
      cases hdigit
    next => rfl

theorem Exponent.read (h : Exponent text) (hrest : Ended rest) :
    ∃ e, readExponent (text ++ rest) = .ok (e, rest) := by
  cases h with
  | none => exact ⟨_, readExponent_of_ended hrest⟩
  | @digits mark sign text hmark hsign hdigits =>
    have hread := readDigits_append hdigits fun c hc => (hrest c hc).1
    have hskip : (readSign (sign ++ (text ++ rest))).2 = text ++ rest := by
      simp only [List.mem_cons, List.not_mem_nil, or_false] at hsign
      rcases hsign with rfl | rfl | rfl
      · rw [List.nil_append, readSign_digits hdigits]
      · rfl
      · rfl
    rw [List.cons_append, List.append_assoc, readExponent, if_pos hmark, hskip, hread]
    exact ⟨_, rfl⟩

/-- An exponent goes on neither with the digits in front of it nor with a point. -/
theorem Exponent.head (h : Exponent text) (hrest : Ended rest) :
    ∀ c ∈ (text ++ rest).head?, c.isDigit = false ∧ c ≠ '.' := by
  intro c hc
  cases h with
  | none => exact ⟨(hrest c hc).1, (hrest c hc).2.1⟩
  | digits hmark =>
    obtain rfl := Option.some.inj hc
    rcases hmark with rfl | rfl <;> decide

theorem Fraction.read (h : Fraction text)
    (hrest : ∀ c ∈ rest.head?, c.isDigit = false ∧ c ≠ '.') :
    ∃ ds, readFraction (text ++ rest) = .ok (ds, rest) := by
  cases h with
  | none => exact ⟨_, readFraction_of_ended fun c hc => (hrest c hc).2⟩
  | digits hdigits => exact ⟨_, readDigits_append hdigits fun c hc => (hrest c hc).1⟩

theorem Fraction.head (h : Fraction text)
    (hrest : ∀ c ∈ rest.head?, c.isDigit = false ∧ c ≠ '.') :
    ∀ c ∈ (text ++ rest).head?, c.isDigit = false := by
  intro c hc
  cases h with
  | none => exact (hrest c hc).1
  | digits =>
    obtain rfl := Option.some.inj hc
    rfl

theorem readNumeral_digits (h : Digits digits) (rest : List Char) :
    readNumeral (digits ++ rest) = readUnsigned false (digits ++ rest) := by
  cases digits with
  | nil => exact absurd rfl h.ne_nil
  | cons d ds =>
    have hdigit : d.isDigit := h.all d List.mem_cons_self
    unfold readNumeral
    split
    next heq =>
      cases heq
      cases hdigit
    next => rfl

theorem IsNumber.read (h : IsNumber text) (hrest : Ended rest) :
    ∃ n, readNumeral (text ++ rest) = .ok (n, rest) := by
  obtain ⟨hsign, hwhole, hfraction, hexponent⟩ := h
  rename_i sign whole fraction exponent
  obtain ⟨e, he⟩ := hexponent.read hrest
  obtain ⟨ds, hds⟩ := hfraction.read (hexponent.head hrest)
  have hw := readWhole_append hwhole (hfraction.head (hexponent.head hrest))
  have hunsigned (negative : Bool) :
      readUnsigned negative (whole ++ (fraction ++ (exponent ++ rest))) =
        .ok (⟨negative, whole, ds, e⟩, rest) := by
    simp only [readUnsigned, hw, hds, he]
    rfl
  simp only [List.append_assoc]
  simp only [List.mem_cons, List.not_mem_nil, or_false] at hsign
  rcases hsign with rfl | rfl
  · exact ⟨_, (readNumeral_digits hwhole.toDigits _).trans (hunsigned false)⟩
  · exact ⟨_, hunsigned true⟩

/-- The numeral that a natural number is written as. -/
def Numeral.ofNat (n : Nat) : Numeral := ⟨false, Nat.toDigits 10 n, [], none⟩

theorem readNumeral_toDigits (n : Nat) (hrest : Ended rest) :
    readNumeral (Nat.toDigits 10 n ++ rest) = .ok (.ofNat n, rest) := by
  have hwhole := readWhole_append (whole_toDigits n) fun c hc => (hrest c hc).1
  have hfraction := readFraction_of_ended fun c hc => (hrest c hc).2.1
  rw [readNumeral_digits (whole_toDigits n).toDigits]
  simp only [readUnsigned, hwhole, hfraction, readExponent_of_ended hrest]
  rfl

end

theorem Numeral.natural?_ofNat {n : Nat} (h : n < Text.wordBound) :
    (Numeral.ofNat n).natural? = some n := by
  have hdigits : (Nat.toDigits 10 n).all Char.isDigit = true :=
    List.all_eq_true.mpr (whole_toDigits n).all
  have hvalue : Nat.ofDigitChars 10 (Nat.toDigits 10 n) 0 = n :=
    Nat.ofDigitChars_toDigits (by decide) (by decide)
  simp only [natural?, ofNat, Text.word?, List.isEmpty_nil, List.isEmpty_eq_false_iff.mpr
    Nat.toDigits_ne_nil, hdigits, hvalue, h, Option.isSome_none, Bool.not_true, Bool.or_false,
    Bool.false_eq_true, if_false, if_true]

end RuleTree.Json
