import Mathlib.Data.List.TakeWhile
import PaperPairing.Proofs.Json.Text

/-!
# Strings and numbers as they may be written

The forms of strings and numbers, said without the scanner.  Strings are recognised
up to their closing quote and numbers up to a byte that cannot go on with them, and
nothing else is recognised as a string or a number.
-/

namespace PaperPairing
namespace Json

/-!
## Forms of strings
-/

def IsHexDigit (x : UInt8) : Prop :=
  (48 ≤ x.toNat ∧ x.toNat ≤ 57) ∨ (97 ≤ x.toNat ∧ x.toNat ≤ 102) ∨
    (65 ≤ x.toNat ∧ x.toNat ≤ 70)

/-- The letters that make an escape with a backslash before them, apart from `u`. -/
def escapeLetters : Bytes :=
  [0x22, 0x5C, 0x2F, 0x62, 0x66, 0x6E, 0x72, 0x74]

inductive IsTextBody : Bytes -> Prop where
  | nil : IsTextBody []
  | plain {x : UInt8} {raw : Bytes} (hx : IsPlain x) (hraw : IsTextBody raw) :
      IsTextBody (x :: raw)
  | short {letter : UInt8} {raw : Bytes} (hletter : letter ∈ escapeLetters)
      (hraw : IsTextBody raw) : IsTextBody (0x5C :: letter :: raw)
  | number {a b c d : UInt8} {raw : Bytes}
      (hdigits : forall x, x ∈ [a, b, c, d] -> IsHexDigit x) (hraw : IsTextBody raw) :
      IsTextBody (0x5C :: 0x75 :: a :: b :: c :: d :: raw)

theorem hexValue?_isSome_iff {x : UInt8} : (hexValue? x).isSome = true ↔ IsHexDigit x := by
  rw [hexValue?, IsHexDigit]
  repeat' split
  all_goals simp_all

theorem hex4?_isSome_iff {a b c d : UInt8} :
    (hex4? a b c d).isSome = true ↔ forall x, x ∈ [a, b, c, d] -> IsHexDigit x := by
  simp only [List.forall_mem_cons, ← hexValue?_isSome_iff, hex4?]
  cases hexValue? a <;> cases hexValue? b <;> cases hexValue? c <;> cases hexValue? d <;> simp

theorem shortEscape?_isSome_iff {letter : UInt8} :
    (shortEscape? letter).isSome = true ↔ letter ∈ escapeLetters := by
  rw [shortEscape?, escapeLetters]
  repeat' split
  all_goals simp_all

/-!
## Strings up to their closing quote
-/

theorem textBody?_of_isTextBody {raw : Bytes} (h : IsTextBody raw) (rest : Bytes) :
    textBody? (raw ++ 0x22 :: rest) = some raw := by
  induction h with
  | nil => rfl
  | @plain x raw hx _ ih =>
      have hone : forall y, y ∈ [x] -> IsPlain y := by
        intro y hy
        rwa [List.mem_singleton.mp hy]
      have hplain := textBody?_plain hone (raw ++ 0x22 :: rest)
      rwa [ih] at hplain
  | @short letter raw hletter _ ih =>
      rcases Option.isSome_iff_exists.mp (shortEscape?_isSome_iff.mpr hletter) with ⟨x, hx⟩
      rw [List.cons_append, List.cons_append,
        textBody?.eq_4 _ _ (fun _ _ _ _ _ h => absurd h (shortEscape?_ne_u hx)), hx, ih]
      rfl
  | @number a b c d raw hdigits _ ih =>
      rcases Option.isSome_iff_exists.mp (hex4?_isSome_iff.mpr hdigits) with ⟨n, hn⟩
      simp only [List.cons_append]
      rw [textBody?.eq_3, hn, ih]
      rfl

theorem isTextBody_of_textBody? {b raw : Bytes} (h : textBody? b = some raw) :
    IsTextBody raw ∧ exists rest, b = raw ++ 0x22 :: rest := by
  fun_induction textBody? b generalizing raw with
  | case1 => cases h
  | case2 rest =>
      cases h
      exact ⟨.nil, rest, rfl⟩
  | case3 a b c d rest n hn ih =>
      rcases Option.map_eq_some_iff.mp h with ⟨raw', hraw, rfl⟩
      rcases ih hraw with ⟨hbody, rest', rfl⟩
      have hdigits := hex4?_isSome_iff.mp (Option.isSome_iff_exists.mpr ⟨n, hn⟩)
      exact ⟨.number hdigits hbody, rest', rfl⟩
  | case4 => cases h
  | case5 letter rest _ x hx ih =>
      rcases Option.map_eq_some_iff.mp h with ⟨raw', hraw, rfl⟩
      rcases ih hraw with ⟨hbody, rest', rfl⟩
      have hletter := shortEscape?_isSome_iff.mp (Option.isSome_iff_exists.mpr ⟨x, hx⟩)
      exact ⟨.short hletter hbody, rest', rfl⟩
  | case6 => cases h
  | case7 => cases h
  | case8 x rest hquote _ _ hplain ih =>
      rcases Option.map_eq_some_iff.mp h with ⟨raw', hraw, rfl⟩
      rcases ih hraw with ⟨hbody, rest', rfl⟩
      rcases not_or.mp hplain with ⟨hlow, hslash⟩
      exact ⟨.plain ⟨hquote, hslash, hlow⟩ hbody, rest', rfl⟩

/-!
## Forms of numbers
-/

def IsDigits (ds : Bytes) : Prop :=
  ds ≠ [] ∧ forall x, x ∈ ds -> isDigit x = true

/-- Zero, or digits that do not begin with zero. -/
def IsInteger (whole : Bytes) : Prop :=
  whole = [0x30] ∨ (IsDigits whole ∧ whole.head? ≠ some 0x30)

/-- Nothing, or a point and digits. -/
def IsFraction (fraction : Bytes) : Prop :=
  fraction = [] ∨ exists ds, IsDigits ds ∧ fraction = 0x2E :: ds

/-- Nothing, or a letter, a sign or none, and digits. -/
def IsExponent (exponent : Bytes) : Prop :=
  exponent = [] ∨ exists letter sign ds, (letter = 0x65 ∨ letter = 0x45) ∧
    (sign = [] ∨ sign = [0x2B] ∨ sign = [0x2D]) ∧ IsDigits ds ∧
    exponent = letter :: (sign ++ ds)

def IsNumber (lexeme : Bytes) : Prop :=
  exists sign whole fraction exponent, (sign = [] ∨ sign = [0x2D]) ∧ IsInteger whole ∧
    IsFraction fraction ∧ IsExponent exponent ∧
    lexeme = sign ++ (whole ++ (fraction ++ exponent))

def EndsDigits (rest : Bytes) : Prop :=
  forall x, rest.head? = some x -> isDigit x = false

/-- Nothing comes next that a number could go on with. -/
def EndsNumber (rest : Bytes) : Prop :=
  forall x, rest.head? = some x ->
    isDigit x = false ∧ x ≠ 0x2E ∧ x ≠ 0x65 ∧ x ≠ 0x45

/-!
## Numbers up to their end
-/

theorem digits_append {ds rest : Bytes} (hds : forall x, x ∈ ds -> isDigit x = true)
    (hrest : EndsDigits rest) : digits (ds ++ rest) = ds := by
  have hnone : rest.takeWhile isDigit = [] := by
    cases rest with
    | nil => rfl
    | cons x rest => rw [List.takeWhile_cons, hrest x rfl]; rfl
  rw [digits, List.takeWhile_append_of_pos hds, hnone, List.append_nil]

theorem integerPart?_append {whole rest : Bytes} (h : IsInteger whole)
    (hrest : EndsDigits rest) : integerPart? (whole ++ rest) = some whole := by
  rcases h with rfl | ⟨⟨hne, hds⟩, hzero⟩
  · rfl
  · rw [integerPart?, digits_append hds hrest]
    split
    · exact absurd rfl hne
    · exact absurd rfl hzero
    · rfl

theorem fractionPart?_append {fraction rest : Bytes} (h : IsFraction fraction)
    (hrest : EndsDigits rest) (hpoint : rest.head? ≠ some 0x2E) :
    fractionPart? (fraction ++ rest) = some fraction := by
  rcases h with rfl | ⟨ds, ⟨hne, hds⟩, rfl⟩
  · rw [List.nil_append, fractionPart?.eq_2]
    rintro tail rfl
    exact hpoint rfl
  · rw [List.cons_append, fractionPart?, digits_append hds hrest, if_neg hne]

theorem exponentSign_append {sign ds : Bytes} (h : sign = [] ∨ sign = [0x2B] ∨ sign = [0x2D])
    (hds : IsDigits ds) (rest : Bytes) : exponentSign (sign ++ (ds ++ rest)) = sign := by
  rcases h with rfl | rfl | rfl
  · rcases hds with ⟨hne, hdigits⟩
    cases ds with
    | nil => exact absurd rfl hne
    | cons x ds =>
        have hx := hdigits x List.mem_cons_self
        have hsign : ¬ (x = 0x2B ∨ x = 0x2D) := by
          rintro (rfl | rfl) <;> exact absurd hx (by decide)
        rw [List.nil_append, List.cons_append, exponentSign, if_neg hsign]
  · rfl
  · rfl

theorem exponentPart?_append {exponent rest : Bytes} (h : IsExponent exponent)
    (hrest : EndsNumber rest) : exponentPart? (exponent ++ rest) = some exponent := by
  have hdigits : EndsDigits rest := fun x hx => (hrest x hx).1
  rcases h with rfl | ⟨letter, sign, ds, hletter, hsign, hds, rfl⟩
  · cases rest with
    | nil => rfl
    | cons x rest =>
        rcases hrest x rfl with ⟨-, -, hsmall, hcapital⟩
        have hletter : ¬ (x = 0x65 ∨ x = 0x45) := not_or.mpr ⟨hsmall, hcapital⟩
        rw [List.nil_append, exponentPart?, if_neg hletter]
  · rw [List.cons_append, List.append_assoc, exponentPart?, if_pos hletter]
    simp only [exponentSign_append hsign hds, List.drop_left, digits_append hds.2 hdigits,
      if_neg hds.1, List.cons_append]

theorem head_of_isInteger {whole : Bytes} (h : IsInteger whole) :
    exists x tail, whole = x :: tail ∧ isDigit x = true := by
  rcases h with rfl | ⟨⟨hne, hds⟩, -⟩
  · exact ⟨0x30, [], rfl, rfl⟩
  · cases whole with
    | nil => exact absurd rfl hne
    | cons x whole => exact ⟨x, whole, rfl, hds x List.mem_cons_self⟩

theorem minusPart_append {sign whole : Bytes} (hsign : sign = [] ∨ sign = [0x2D])
    (hwhole : IsInteger whole) (rest : Bytes) : minusPart (sign ++ (whole ++ rest)) = sign := by
  rcases hsign with rfl | rfl
  · rcases head_of_isInteger hwhole with ⟨x, tail, rfl, hx⟩
    rw [List.nil_append, List.cons_append, minusPart.eq_2]
    intro tail' htail
    cases htail
    exact absurd hx (by decide)
  · rfl

theorem endsDigits_exponent {exponent rest : Bytes} (h : IsExponent exponent)
    (hrest : EndsNumber rest) :
    EndsDigits (exponent ++ rest) ∧ (exponent ++ rest).head? ≠ some 0x2E := by
  rcases h with rfl | ⟨letter, sign, ds, hletter, -, -, rfl⟩
  · exact ⟨fun x hx => (hrest x hx).1, fun h => (hrest _ h).2.1 rfl⟩
  · have hhead : (letter :: (sign ++ ds) ++ rest).head? = some letter := rfl
    rw [EndsDigits, hhead]
    constructor
    · rintro x ⟨⟩
      rcases hletter with rfl | rfl <;> decide
    · rcases hletter with rfl | rfl <;> decide

theorem endsDigits_fraction {fraction rest : Bytes} (h : IsFraction fraction)
    (hrest : EndsDigits rest) : EndsDigits (fraction ++ rest) := by
  rcases h with rfl | ⟨ds, -, rfl⟩
  · exact hrest
  · rintro x ⟨⟩
    decide

theorem numberLexeme?_append {lexeme rest : Bytes} (h : IsNumber lexeme)
    (hrest : EndsNumber rest) : numberLexeme? (lexeme ++ rest) = some lexeme := by
  rcases h with ⟨sign, whole, fraction, exponent, hsign, hwhole, hfraction, hexponent, rfl⟩
  rcases endsDigits_exponent hexponent hrest with ⟨hdigits, hpoint⟩
  have hsplit : sign ++ (whole ++ (fraction ++ exponent)) ++ rest =
      sign ++ (whole ++ (fraction ++ (exponent ++ rest))) := by
    simp only [List.append_assoc]
  rw [hsplit, numberLexeme?]
  simp only [minusPart_append hsign hwhole, List.drop_left,
    integerPart?_append hwhole (endsDigits_fraction hfraction hdigits),
    fractionPart?_append hfraction hdigits hpoint, exponentPart?_append hexponent hrest,
    Option.bind_eq_bind, Option.bind_some, List.append_assoc]
  rfl

/-!
## What is recognised is a number
-/

theorem isDigits_digits {b : Bytes} (h : digits b ≠ []) : IsDigits (digits b) :=
  ⟨h, fun _ hx => List.mem_takeWhile_imp hx⟩

theorem isPrefix_digits (b : Bytes) : digits b <+: b :=
  List.takeWhile_prefix _

theorem append_prefix_of_drop {front part b : Bytes} (hfront : front <+: b)
    (hpart : part <+: b.drop front.length) : front ++ part <+: b := by
  rcases hfront with ⟨rest, rfl⟩
  rw [List.drop_left] at hpart
  exact (List.prefix_append_right_inj front).mpr hpart

theorem isInteger_of_integerPart? {b whole : Bytes} (h : integerPart? b = some whole) :
    IsInteger whole ∧ whole <+: b := by
  have hprefix := isPrefix_digits b
  rw [integerPart?] at h
  split at h
  · cases h
  · next ds hds =>
      cases h
      refine ⟨.inl rfl, List.IsPrefix.trans ?_ hprefix⟩
      rw [hds]
      exact ⟨ds, rfl⟩
  · next hne hzero =>
      cases h
      refine ⟨.inr ⟨isDigits_digits hne, ?_⟩, hprefix⟩
      intro hhead
      cases hds : digits b with
      | nil => exact hne hds
      | cons x ds =>
          rw [hds] at hhead
          cases hhead
          exact hzero ds hds

theorem isFraction_of_fractionPart? {b fraction : Bytes} (h : fractionPart? b = some fraction) :
    IsFraction fraction ∧ fraction <+: b := by
  unfold fractionPart? at h
  split at h
  · next rest =>
      split at h
      · cases h
      · next hne =>
          cases h
          exact ⟨.inr ⟨_, isDigits_digits hne, rfl⟩,
            (List.cons_prefix_cons).mpr ⟨rfl, isPrefix_digits rest⟩⟩
  · cases h
    exact ⟨.inl rfl, List.nil_prefix⟩

theorem exponentSign_cases (b : Bytes) :
    (exponentSign b = [] ∨ exponentSign b = [0x2B] ∨ exponentSign b = [0x2D]) ∧
      exponentSign b <+: b := by
  cases b with
  | nil => exact ⟨.inl rfl, List.nil_prefix⟩
  | cons x b =>
      rw [exponentSign]
      split
      · next hx =>
          refine ⟨.inr ?_, b, rfl⟩
          rcases hx with rfl | rfl
          · exact .inl rfl
          · exact .inr rfl
      · exact ⟨.inl rfl, List.nil_prefix⟩

theorem isExponent_of_exponentPart? {b exponent : Bytes} (h : exponentPart? b = some exponent) :
    IsExponent exponent ∧ exponent <+: b := by
  cases b with
  | nil =>
      cases h
      exact ⟨.inl rfl, List.nil_prefix⟩
  | cons x rest =>
      rw [exponentPart?] at h
      split at h
      · next hletter =>
          rcases exponentSign_cases rest with ⟨hsign, hprefix⟩
          simp only at h
          split at h
          · cases h
          · next hne =>
              cases h
              refine ⟨.inr ⟨x, _, _, hletter, hsign, isDigits_digits hne, rfl⟩, ?_⟩
              exact List.cons_prefix_cons.mpr
                ⟨rfl, append_prefix_of_drop hprefix (isPrefix_digits _)⟩
      · cases h
        exact ⟨.inl rfl, List.nil_prefix⟩

theorem minusPart_cases (b : Bytes) :
    (minusPart b = [] ∨ minusPart b = [0x2D]) ∧ minusPart b <+: b := by
  unfold minusPart
  split
  · next rest => exact ⟨.inr rfl, rest, rfl⟩
  · exact ⟨.inl rfl, List.nil_prefix⟩

theorem isNumber_of_numberLexeme? {b lexeme : Bytes} (h : numberLexeme? b = some lexeme) :
    IsNumber lexeme ∧ lexeme <+: b := by
  rw [numberLexeme?] at h
  simp only [Option.bind_eq_bind, Option.bind_eq_some_iff] at h
  rcases h with ⟨whole, hwhole, fraction, hfraction, exponent, hexponent, hlexeme⟩
  rcases minusPart_cases b with ⟨hsign, hb⟩
  rcases isInteger_of_integerPart? hwhole with ⟨hinteger, hb1⟩
  rcases isFraction_of_fractionPart? hfraction with ⟨hpoint, hb2⟩
  rcases isExponent_of_exponentPart? hexponent with ⟨hpower, hb3⟩
  cases hlexeme
  rw [List.append_assoc, List.append_assoc]
  refine ⟨⟨_, _, _, _, hsign, hinteger, hpoint, hpower, rfl⟩, ?_⟩
  exact append_prefix_of_drop hb
    (append_prefix_of_drop hb1 (append_prefix_of_drop hb2 hb3))

end Json
end PaperPairing
