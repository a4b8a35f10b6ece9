import PaperPairing.Json.Text
import PaperPairing.Proofs.Text.Utf8

/-!
# Written strings

A text that was written between quotes is found again by the scanner, up to its
closing quote, and undoing its escapes gives the bytes of the text.  Both walk
over the spelling of one character at a time, and a character is spelt in one
of three ways.
-/

namespace PaperPairing
namespace Json

/-!
## Spellings of a character
-/

def IsPlain (x : UInt8) : Prop :=
  x ≠ 0x22 ∧ x ≠ 0x5C ∧ ¬ x < 0x20

theorem isPlain_ofNat {n : Nat} (hn : n < 256) (hlow : 0x20 ≤ n) (hquote : n ≠ 0x22)
    (hslash : n ≠ 0x5C) : IsPlain (UInt8.ofNat n) := by
  simp only [IsPlain, ne_eq, Utf8.ofNat_eq_iff hn, Utf8.ofNat_lt_iff hn, UInt8.reduceToNat]
  omega

theorem isPlain_of_mem_encodeChar {c : Char} (hquote : c ≠ '"') (hslash : c ≠ '\\')
    (hlow : ¬ c.toNat < 32) {x : UInt8} (hx : x ∈ String.utf8EncodeChar c) : IsPlain x := by
  have hvalue : c.val.toNat = c.toNat := rfl
  have hquote' : c.toNat ≠ 34 := by
    intro h
    exact hquote (Char.toNat_inj.mp h)
  have hslash' : c.toNat ≠ 92 := by
    intro h
    exact hslash (Char.toNat_inj.mp h)
  revert hx
  fun_cases String.utf8EncodeChar c with
  | case1 v hone =>
      intro hx
      rw [List.mem_singleton.mp hx]
      exact isPlain_ofNat (by omega) (by omega) (by omega) (by omega)
  | case2 v hone htwo =>
      intro hx
      simp only [List.mem_cons, List.not_mem_nil, or_false] at hx
      rcases hx with hx | hx <;> rw [hx] <;>
        exact isPlain_ofNat (by omega) (by omega) (by omega) (by omega)
  | case3 v hone htwo hthree =>
      intro hx
      simp only [List.mem_cons, List.not_mem_nil, or_false] at hx
      rcases hx with hx | hx | hx <;> rw [hx] <;>
        exact isPlain_ofNat (by omega) (by omega) (by omega) (by omega)
  | case4 v hone htwo hthree =>
      intro hx
      simp only [List.mem_cons, List.not_mem_nil, or_false] at hx
      rcases hx with hx | hx | hx | hx <;> rw [hx] <;>
        exact isPlain_ofNat (by omega) (by omega) (by omega) (by omega)

theorem hexValue?_hexDigit {n : Nat} (hn : n < 16) : hexValue? (hexDigit n) = some n := by
  revert n
  decide

theorem hex4?_control {n : Nat} (hn : n < 32) :
    hex4? 0x30 0x30 (hexDigit (n / 16)) (hexDigit (n % 16)) = some n := by
  have hzero : hexValue? 0x30 = some 0 := rfl
  have hsum : 4096 * 0 + 256 * 0 + 16 * (n / 16) + n % 16 = n := by omega
  simp only [hex4?, hzero, hexValue?_hexDigit (show n / 16 < 16 by omega),
    hexValue?_hexDigit (show n % 16 < 16 by omega), Option.bind_eq_bind, Option.bind_some,
    hsum]
  rfl

/-- How a character is spelt: by a short escape, by its number, or by its own
bytes. -/
theorem escapeChar_cases (c : Char) :
    (exists letter x, shortEscape? letter = some x ∧ escapeChar c = [0x5C, letter] ∧
      String.utf8EncodeChar c = [x]) ∨
    (exists high low, hex4? 0x30 0x30 high low = some c.toNat ∧ c.toNat < 32 ∧
      escapeChar c = [0x5C, 0x75, 0x30, 0x30, high, low]) ∨
    (escapeChar c = String.utf8EncodeChar c ∧
      forall x, x ∈ String.utf8EncodeChar c -> IsPlain x) := by
  have hshort : forall {n : Nat} (letter : UInt8), n ≤ 0x7f -> c.toNat = n ->
      shortEscape? letter = some (UInt8.ofNat n) -> escapeChar c = [0x5C, letter] ->
      exists letter x, shortEscape? letter = some x ∧ escapeChar c = [0x5C, letter] ∧
        String.utf8EncodeChar c = [x] := by
    intro n letter hn hc hletter hescape
    refine ⟨letter, UInt8.ofNat n, hletter, hescape, ?_⟩
    have hv : c.val.toNat = n := hc
    rw [String.utf8EncodeChar, hv, if_pos hn]
  by_cases hquote : c = '"'
  · subst hquote
    exact Or.inl (hshort 0x22 (by decide) rfl rfl rfl)
  by_cases hslash : c = '\\'
  · subst hslash
    exact Or.inl (hshort 0x5C (by decide) rfl rfl rfl)
  by_cases hbackspace : c.toNat = 8
  · exact Or.inl (hshort 0x62 (by decide) hbackspace rfl
      (by simp [escapeChar, hquote, hslash, hbackspace]))
  by_cases hformFeed : c.toNat = 12
  · exact Or.inl (hshort 0x66 (by decide) hformFeed rfl
      (by simp [escapeChar, hquote, hslash, hformFeed]))
  by_cases hlineFeed : c.toNat = 10
  · exact Or.inl (hshort 0x6E (by decide) hlineFeed rfl
      (by simp [escapeChar, hquote, hslash, hlineFeed]))
  by_cases hreturn : c.toNat = 13
  · exact Or.inl (hshort 0x72 (by decide) hreturn rfl
      (by simp [escapeChar, hquote, hslash, hreturn]))
  by_cases htab : c.toNat = 9
  · exact Or.inl (hshort 0x74 (by decide) htab rfl
      (by simp [escapeChar, hquote, hslash, htab]))
  by_cases hlow : c.toNat < 32
  · exact Or.inr (Or.inl ⟨_, _, hex4?_control hlow, hlow,
      by simp [escapeChar, hquote, hslash, hbackspace, hformFeed, hlineFeed, hreturn, htab,
        hlow]⟩)
  · refine Or.inr (Or.inr ⟨?_, ?_⟩)
    · simp [escapeChar, hquote, hslash, hbackspace, hformFeed, hlineFeed, hreturn, htab, hlow]
    · intro x hx
      exact isPlain_of_mem_encodeChar hquote hslash hlow hx

/-!
## Scanning
-/

theorem textBody?_plain {b : Bytes} (hb : forall x, x ∈ b -> IsPlain x) (rest : Bytes) :
    textBody? (b ++ rest) = (textBody? rest).map (b ++ ·) := by
  induction b with
  | nil => simp
  | cons x b ih =>
      rcases hb x List.mem_cons_self with ⟨hquote, hslash, hlow⟩
      have htail := ih (fun y hy => hb y (List.mem_cons_of_mem x hy))
      rw [List.cons_append, textBody?.eq_5 _ _ hquote
        (fun _ _ _ _ _ h => absurd h hslash) (fun _ _ h => absurd h hslash),
        if_neg (by simp [hslash, hlow]), htail]
      cases textBody? rest <;> rfl

theorem shortEscape?_ne_u {letter x : UInt8} (h : shortEscape? letter = some x) :
    letter ≠ 0x75 := by
  intro hu
  rw [hu] at h
  exact absurd h (by simp [shortEscape?])

theorem textBody?_escapeChar (c : Char) (rest : Bytes) :
    textBody? (escapeChar c ++ rest) = (textBody? rest).map (escapeChar c ++ ·) := by
  rcases escapeChar_cases c with
    ⟨letter, x, hletter, hescape, _⟩ | ⟨high, low, hnumber, _, hescape⟩ | ⟨hescape, hplain⟩
  · rw [hescape, List.cons_append, List.cons_append, List.nil_append,
      textBody?.eq_4 _ _ (fun _ _ _ _ _ h => absurd h (shortEscape?_ne_u hletter)), hletter]
  · rw [hescape]
    simp only [List.cons_append, List.nil_append]
    rw [textBody?.eq_3, hnumber]
    rfl
  · rw [hescape, textBody?_plain hplain]

theorem textBody?_escapeChars (cs : List Char) (rest : Bytes) :
    textBody? (cs.flatMap escapeChar ++ 0x22 :: rest) = some (cs.flatMap escapeChar) := by
  induction cs with
  | nil => rfl
  | cons c cs ih =>
      rw [List.flatMap_cons, List.append_assoc, textBody?_escapeChar, ih]
      rfl

theorem textBody?_escape (s : String) (rest : Bytes) :
    textBody? (escape s ++ 0x22 :: rest) = some (escape s) :=
  textBody?_escapeChars s.toList rest

/-!
## Unescaping
-/

theorem unescape?_plain {b : Bytes} (hb : forall x, x ∈ b -> IsPlain x) (rest : Bytes) :
    unescape? (b ++ rest) = (unescape? rest).map (b ++ ·) := by
  induction b with
  | nil => simp
  | cons x b ih =>
      rcases hb x List.mem_cons_self with ⟨_, hslash, _⟩
      have htail := ih (fun y hy => hb y (List.mem_cons_of_mem x hy))
      rw [List.cons_append, unescape?.eq_4 _ _
        (fun _ _ _ _ _ h => absurd h hslash) (fun _ _ h => absurd h hslash), htail]
      cases unescape? rest <;> rfl

theorem unescape?_escapeChar (c : Char) (rest : Bytes) :
    unescape? (escapeChar c ++ rest) =
      (unescape? rest).map (String.utf8EncodeChar c ++ ·) := by
  rcases escapeChar_cases c with
    ⟨letter, x, hletter, hescape, hbytes⟩ | ⟨high, low, hnumber, hlow, hescape⟩ |
      ⟨hescape, hplain⟩
  · rw [hescape, hbytes, List.cons_append, List.cons_append, List.nil_append,
      unescape?.eq_3 _ _ (fun _ _ _ _ _ h => absurd h (shortEscape?_ne_u hletter)), hletter]
    rfl
  · have hhigh : isHighSurrogate c.toNat = false := by
      simp only [isHighSurrogate, Bool.and_eq_false_iff, decide_eq_false_iff_not]
      omega
    have hlow' : isLowSurrogate c.toNat = false := by
      simp only [isLowSurrogate, Bool.and_eq_false_iff, decide_eq_false_iff_not]
      omega
    rw [hescape]
    simp only [List.cons_append, List.nil_append]
    rw [unescape?.eq_2, hnumber]
    simp [hhigh, hlow']
  · rw [hescape, unescape?_plain hplain]

theorem unescape?_escapeChars (cs : List Char) :
    unescape? (cs.flatMap escapeChar) = some (Utf8.encodeChars cs) := by
  induction cs with
  | nil => rfl
  | cons c cs ih =>
      rw [List.flatMap_cons, unescape?_escapeChar, ih]
      rfl

theorem readText?_escape (s : String) : readText? (escape s) = some s := by
  rw [readText?, escape, unescape?_escapeChars]
  exact Utf8.decode?_encode s

end Json
end PaperPairing
