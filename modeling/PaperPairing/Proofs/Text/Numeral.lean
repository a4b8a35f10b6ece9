import PaperPairing.Bytes.Hex
import PaperPairing.Proofs.Text.Lossy
import PaperPairing.Text.Blank
import PaperPairing.Text.Numeral

/-!
# Hexadecimal numerals

A number written in base sixteen is read as itself, whatever the case of its digits is
and however many zeros stand in front of it, as long as it is below the bound.
-/

namespace PaperPairing

namespace Text

theorem isBlank_ofNat : forall n, n < 0x7F -> 0x21 ≤ n -> isBlank (Char.ofNat n) = false := by
  decide

theorem isBlank_of_printable {c : Char} (h : 0x21 ≤ c.toNat ∧ c.toNat < 0x7F) :
    isBlank c = false := by
  have hblank := isBlank_ofNat c.toNat h.2 h.1
  rwa [Char.ofNat_toNat] at hblank

end Text

namespace Numeral

/-!
## Digits
-/

theorem digits?_append (base n : Nat) (cs rest : List Char) :
    digits? base n (cs ++ rest) = (digits? base n cs).bind (fun m => digits? base m rest) := by
  induction cs generalizing n with
  | nil => rfl
  | cons c cs ih =>
      rw [List.cons_append, digits?, digits?]
      cases digit? base c with
      | none => rfl
      | some d => exact ih _

theorem digit?_toLower_ofNat : forall n, n < 128 ->
    digit? 16 (Char.ofNat n).toLower = digit? 16 (Char.ofNat n) := by
  decide

theorem digit?_toLower (c : Char) : digit? 16 c.toLower = digit? 16 c := by
  by_cases hc : c.toNat < 128
  · have hlower := digit?_toLower_ofNat c.toNat hc
    rwa [Char.ofNat_toNat] at hlower
  · rw [Utf8.toLower_of_not_lt hc]

theorem digits?_toLower (n : Nat) (cs : List Char) :
    digits? 16 n (cs.map Char.toLower) = digits? 16 n cs := by
  induction cs generalizing n with
  | nil => rfl
  | cons c cs ih =>
      rw [List.map_cons, digits?, digits?, digit?_toLower]
      cases digit? 16 c with
      | none => rfl
      | some d => exact ih _

theorem toNat_of_digit? {c : Char} {d : Nat} (h : digit? 16 c = some d) :
    48 ≤ c.toNat ∧ c.toNat ≤ 57 ∨ 97 ≤ c.toNat ∧ c.toNat ≤ 102 ∨
      65 ≤ c.toNat ∧ c.toNat ≤ 70 := by
  simp only [digit?] at h
  grind

theorem isDigit_of_digits? {cs : List Char} {n m : Nat} (h : digits? 16 n cs = some m) {c : Char}
    (hc : c ∈ cs) : exists d, digit? 16 c = some d := by
  induction cs generalizing n with
  | nil => cases hc
  | cons b cs ih =>
      rw [digits?] at h
      cases hdigit : digit? 16 b with
      | none =>
          rw [hdigit] at h
          cases h
      | some d =>
          rw [hdigit] at h
          rcases List.mem_cons.mp hc with rfl | hc
          · exact ⟨d, hdigit⟩
          · exact ih h hc

/-!
## Written numbers
-/

theorem digit?_digitChar : forall d, d < 16 -> digit? 16 (Nat.digitChar d) = some d := by
  decide

theorem digits?_ofNumber (n : Nat) : digits? 16 0 (Hex.ofNumber n) = some n := by
  rw [Hex.ofNumber]
  induction n using Nat.base_induction 16 (by decide) with
  | single d hd =>
      rw [Nat.toDigits_of_lt_base hd, digits?, digit?_digitChar d hd]
      simp [digits?]
  | digit n d hd hn ih =>
      rw [← Nat.toDigits_append_toDigits (by decide) hn hd, digits?_append, ih,
        Nat.toDigits_of_lt_base hd, Option.bind_some, digits?, digit?_digitChar d hd]
      simp [digits?, Nat.mul_comm]

theorem digits?_zeros (zeros : Nat) : digits? 16 0 (List.replicate zeros '0') = some 0 := by
  induction zeros with
  | zero => rfl
  | succ zeros ih =>
      have hzero : digit? 16 '0' = some 0 := rfl
      rw [List.replicate_succ, digits?, hzero]
      exact ih

/-- The text is the number in base sixteen, behind any zeros and in any case. -/
def SpellsHex (text : Bytes) (n : Nat) : Prop :=
  exists zeros, text.map Utf8.lower =
    Utf8.encodeChars (List.replicate zeros '0' ++ Hex.ofNumber n)

namespace SpellsHex

variable {text : Bytes} {n : Nat} (h : SpellsHex text n)

include h

theorem digits?_lower : exists cs, text.map Utf8.lower = Utf8.encodeChars cs ∧ cs ≠ [] ∧
    digits? 16 0 cs = some n := by
  rcases h with ⟨zeros, hspells⟩
  refine ⟨_, hspells, ?_, ?_⟩
  · simp [Hex.ofNumber]
  · rw [digits?_append, digits?_zeros, Option.bind_some, digits?_ofNumber]

theorem isAscii : forall x, x ∈ text -> x < 0x80 := by
  rcases h.digits?_lower with ⟨cs, hspells, -, hdigits⟩
  intro x hx
  have hascii : forall c, c ∈ cs -> c.toNat < 128 := by
    intro c hc
    rcases isDigit_of_digits? hdigits hc with ⟨d, hd⟩
    have hrange := toNat_of_digit? hd
    omega
  rw [← Utf8.lower_lt_iff]
  refine Utf8.lt_of_mem_encodeChars hascii ?_
  rw [← hspells]
  exact List.mem_map_of_mem hx

theorem digits?_eq :
    Utf8.decodeLossy text ≠ [] ∧ digits? 16 0 (Utf8.decodeLossy text) = some n := by
  rcases h.digits?_lower with ⟨cs, hspells, hne, hdigits⟩
  have hlower : (Utf8.decodeLossy text).map Char.toLower = cs := by
    rw [Utf8.map_toLower_decodeLossy h.isAscii, hspells, Utf8.decodeLossy_encodeChars]
  constructor
  · intro hnil
    rw [hnil, List.map_nil] at hlower
    exact hne hlower.symm
  · rw [← digits?_toLower, hlower, hdigits]

theorem isPlain {c : Char} (hc : c ∈ Utf8.decodeLossy text) :
    c ≠ '+' ∧ c ≠ ';' ∧ Text.isBlank c = false := by
  rcases isDigit_of_digits? h.digits?_eq.2 hc with ⟨d, hd⟩
  have hrange := toNat_of_digit? hd
  refine ⟨?_, ?_, ?_⟩
  · rintro rfl
    exact absurd hrange (by decide)
  · rintro rfl
    exact absurd hrange (by decide)
  · exact Text.isBlank_of_printable (by omega)

theorem read?_eq (hn : n < UInt64.size) :
    read? 16 UInt64.size (Utf8.decodeLossy text) = some n := by
  rcases h.digits?_eq with ⟨hne, hdigits⟩
  have hunsigned : unsigned (Utf8.decodeLossy text) = Utf8.decodeLossy text := by
    unfold unsigned
    split
    next rest heq =>
      have hplus := h.isPlain (c := '+') (heq ▸ List.mem_cons_self)
      exact absurd rfl hplus.1
    · rfl
  rw [read?, hunsigned, if_neg hne, hdigits]
  exact if_pos hn

end SpellsHex

end Numeral
end PaperPairing
