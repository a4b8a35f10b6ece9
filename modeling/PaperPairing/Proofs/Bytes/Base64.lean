import PaperPairing.Bytes.Base64

/-!
# Base64 round trip

What is written reads back, and what is read was written: every byte string has
one text.  A group of three bytes is a number below `2 ^ 24`, cut into four
six-bit values on writing; reading puts the bytes together again from the values.
-/

namespace PaperPairing
namespace Base64

/-!
## Bytes from six-bit values
-/

theorem firstByte_eq (n : Nat) :
    UInt8.ofNat (n / 262144 * 4 + n / 4096 % 64 / 16) = UInt8.ofNat (n / 65536) := by
  congr 1
  omega

theorem secondByte_eq (n : Nat) :
    UInt8.ofNat (n / 4096 % 64 * 16 + n / 64 % 64 / 4) = UInt8.ofNat (n / 256) := by
  apply UInt8.toNat.inj
  rw [UInt8.toNat_ofNat', UInt8.toNat_ofNat']
  omega

theorem thirdByte_eq (n : Nat) :
    UInt8.ofNat (n / 64 % 64 * 64 + n % 64) = UInt8.ofNat n := by
  apply UInt8.toNat.inj
  rw [UInt8.toNat_ofNat', UInt8.toNat_ofNat']
  omega

theorem ofNat_div_of_group {a b c : UInt8} {n : Nat}
    (hn : n = a.toNat * 65536 + b.toNat * 256 + c.toNat) :
    UInt8.ofNat (n / 65536) = a ∧ UInt8.ofNat (n / 256) = b ∧ UInt8.ofNat n = c := by
  have ha := a.toNat_lt
  have hb := b.toNat_lt
  have hc := c.toNat_lt
  refine ⟨?_, ?_, ?_⟩
  all_goals
    apply UInt8.toNat.inj
    rw [UInt8.toNat_ofNat']
    omega

/-!
## Groups
-/

theorem decode?_symbols {w x y z : Nat} (rest : List Char)
    (hw : w < 64) (hx : x < 64) (hy : y < 64) (hz : z < 64) :
    decode? (symbol w :: symbol x :: symbol y :: symbol z :: rest) =
      (decode? rest).map (fun tail => UInt8.ofNat (w * 4 + x / 16) ::
        UInt8.ofNat (x * 16 + y / 4) :: UInt8.ofNat (y * 64 + z) :: tail) := by
  cases rest with
  | nil =>
      simp [decode?, decodeLast?, value?_symbol, symbol_ne_pad, hw, hx, hy, hz]
  | cons c rest =>
      simp only [decode?, value?_symbol, hw, hx, hy, hz]
      cases decode? (c :: rest) <;> rfl

theorem decode?_twoBytes {w x y : Nat} (hw : w < 64) (hx : x < 64) (hy : y < 64)
    (hunused : y % 4 = 0) :
    decode? [symbol w, symbol x, symbol y, '='] =
      some [UInt8.ofNat (w * 4 + x / 16), UInt8.ofNat (x * 16 + y / 4)] := by
  simp [decode?, decodeLast?, value?_symbol, symbol_ne_pad, hw, hx, hy, hunused]

theorem decode?_oneByte {w x : Nat} (hw : w < 64) (hx : x < 64) (hunused : x % 16 = 0) :
    decode? [symbol w, symbol x, '=', '='] = some [UInt8.ofNat (w * 4 + x / 16)] := by
  simp [decode?, decodeLast?, value?_symbol, hw, hx, hunused]

/-!
## Texts
-/

theorem decode?_encode (b : Bytes) : decode? (encode b) = some b := by
  fun_induction encode b with
  | case1 => rfl
  | case2 a n =>
      have ha := a.toNat_lt
      have hn : n = a.toNat * 65536 + (0 : UInt8).toNat * 256 + (0 : UInt8).toNat := by
        simp [n]
      rw [decode?_oneByte (by omega) (by omega) (by omega),
        firstByte_eq, (ofNat_div_of_group hn).1]
  | case3 a b n =>
      have ha := a.toNat_lt
      have hb := b.toNat_lt
      have hn : n = a.toNat * 65536 + b.toNat * 256 + (0 : UInt8).toNat := by
        simp [n]
      rw [decode?_twoBytes (by omega) (by omega) (by omega) (by omega),
        firstByte_eq, secondByte_eq, (ofNat_div_of_group hn).1,
        (ofNat_div_of_group hn).2.1]
  | case4 a b c rest n ih =>
      have ha := a.toNat_lt
      have hb := b.toNat_lt
      have hc := c.toNat_lt
      have hn : n = a.toNat * 65536 + b.toNat * 256 + c.toNat := rfl
      rw [decode?_symbols _ (by omega) (by omega) (by omega) (by omega), ih,
        firstByte_eq, secondByte_eq, thirdByte_eq]
      rcases ofNat_div_of_group hn with ⟨hfirst, hsecond, hthird⟩
      rw [hfirst, hsecond, hthird]
      rfl

/-!
## What is read was written
-/

theorem symbol_of_value? {c : Char} {n : Nat} (h : value? c = some n) :
    n < 64 ∧ c = symbol n := by
  have hc := Char.ofNat_toNat c
  simp only [value?] at h
  split at h
  · cases h
    refine ⟨by omega, ?_⟩
    rw [symbol, if_pos (by omega), show 65 + (c.toNat - 65) = c.toNat by omega, hc]
  split at h
  · cases h
    refine ⟨by omega, ?_⟩
    rw [symbol, if_neg (by omega), if_pos (by omega),
      show 71 + (c.toNat - 71) = c.toNat by omega, hc]
  split at h
  · cases h
    refine ⟨by omega, ?_⟩
    rw [symbol, if_neg (by omega), if_neg (by omega), if_pos (by omega),
      show c.toNat + 4 - 4 = c.toNat by omega, hc]
  split at h
  next hplus =>
    cases h
    rw [← hc, hplus]
    exact ⟨by decide, by decide⟩
  split at h
  next hslash =>
    cases h
    rw [← hc, hslash]
    exact ⟨by decide, by decide⟩
  · cases h

theorem toNat_firstByte {x y : Nat} (hx : x < 64) (hy : y < 64) :
    (UInt8.ofNat (x * 4 + y / 16)).toNat = x * 4 + y / 16 := by
  rw [UInt8.toNat_ofNat']
  omega

theorem toNat_secondByte {y z : Nat} (hz : z < 64) :
    (UInt8.ofNat (y * 16 + z / 4)).toNat = y % 16 * 16 + z / 4 := by
  rw [UInt8.toNat_ofNat']
  omega

theorem toNat_thirdByte {z w : Nat} (hw : w < 64) :
    (UInt8.ofNat (z * 64 + w)).toNat = z % 4 * 64 + w := by
  rw [UInt8.toNat_ofNat']
  omega

theorem digits_of_group {x y z w n : Nat} (hy : y < 64) (hz : z < 64) (hw : w < 64)
    (hn : n = x * 262144 + y * 4096 + z * 64 + w) :
    n / 262144 = x ∧ n / 4096 % 64 = y ∧ n / 64 % 64 = z ∧ n % 64 = w := by
  omega

theorem encode_threeBytes {x y z w : Nat} (rest : Bytes) (hx : x < 64) (hy : y < 64)
    (hz : z < 64) (hw : w < 64) :
    encode (UInt8.ofNat (x * 4 + y / 16) :: UInt8.ofNat (y * 16 + z / 4) ::
        UInt8.ofNat (z * 64 + w) :: rest) =
      symbol x :: symbol y :: symbol z :: symbol w :: encode rest := by
  rw [encode, toNat_firstByte hx hy, toNat_secondByte hz, toNat_thirdByte hw]
  have hn : (x * 4 + y / 16) * 65536 + (y % 16 * 16 + z / 4) * 256 + (z % 4 * 64 + w) =
      x * 262144 + y * 4096 + z * 64 + w := by
    omega
  rcases digits_of_group hy hz hw hn with ⟨h1, h2, h3, h4⟩
  simp only [h1, h2, h3, h4]

theorem encode_twoBytes {x y z : Nat} (hx : x < 64) (hy : y < 64) (hz : z < 64)
    (hunused : z % 4 = 0) :
    encode [UInt8.ofNat (x * 4 + y / 16), UInt8.ofNat (y * 16 + z / 4)] =
      [symbol x, symbol y, symbol z, '='] := by
  rw [encode, toNat_firstByte hx hy, toNat_secondByte hz]
  have hn : (x * 4 + y / 16) * 65536 + (y % 16 * 16 + z / 4) * 256 =
      x * 262144 + y * 4096 + z * 64 + 0 := by
    omega
  rcases digits_of_group hy hz (by decide) hn with ⟨h1, h2, h3, -⟩
  simp only [h1, h2, h3]

theorem encode_oneByte {x y : Nat} (hx : x < 64) (hy : y < 64) (hunused : y % 16 = 0) :
    encode [UInt8.ofNat (x * 4 + y / 16)] = [symbol x, symbol y, '=', '='] := by
  rw [encode, toNat_firstByte hx hy]
  have hn : (x * 4 + y / 16) * 65536 = x * 262144 + y * 4096 + 0 * 64 + 0 := by
    omega
  rcases digits_of_group hy (by decide) (by decide) hn with ⟨h1, h2, -, -⟩
  simp only [h1, h2]

theorem eq_encode_of_decodeLast? {a b c d : Char} {bytes : Bytes}
    (h : decodeLast? a b c d = some bytes) : [a, b, c, d] = encode bytes := by
  simp only [decodeLast?, Option.bind_eq_bind, Option.bind_eq_some_iff] at h
  rcases h with ⟨x, hvx, y, hvy, h⟩
  rcases symbol_of_value? hvx with ⟨hx, rfl⟩
  rcases symbol_of_value? hvy with ⟨hy, rfl⟩
  split at h
  next hd =>
    split at h
    next hc =>
      split at h
      next hunused =>
        cases h
        rw [hc, hd, encode_oneByte hx hy hunused]
      · cases h
    · rcases Option.bind_eq_some_iff.mp h with ⟨z, hvz, hrest⟩
      rcases symbol_of_value? hvz with ⟨hz, rfl⟩
      split at hrest
      next hunused =>
        cases hrest
        rw [hd, encode_twoBytes hx hy hz hunused]
      · cases hrest
  · rcases Option.bind_eq_some_iff.mp h with ⟨z, hvz, hrest⟩
    rcases Option.bind_eq_some_iff.mp hrest with ⟨w, hvw, hend⟩
    rcases symbol_of_value? hvz with ⟨hz, rfl⟩
    rcases symbol_of_value? hvw with ⟨hw, rfl⟩
    cases hend
    rw [encode_threeBytes [] hx hy hz hw, encode]

/-- Every text that is read is the one written form of its bytes. -/
theorem eq_encode_of_decode? {t : List Char} {b : Bytes} (h : decode? t = some b) :
    t = encode b := by
  fun_induction decode? t generalizing b with
  | case1 =>
      cases h
      rfl
  | case2 a b c d => exact eq_encode_of_decodeLast? h
  | case3 a b c d rest hrest ih =>
      simp only [Option.bind_eq_bind, Option.bind_eq_some_iff] at h
      rcases h with ⟨x, hvx, y, hvy, z, hvz, w, hvw, tail, htail, h⟩
      rcases symbol_of_value? hvx with ⟨hx, rfl⟩
      rcases symbol_of_value? hvy with ⟨hy, rfl⟩
      rcases symbol_of_value? hvz with ⟨hz, rfl⟩
      rcases symbol_of_value? hvw with ⟨hw, rfl⟩
      cases h
      rw [encode_threeBytes tail hx hy hz hw, ← ih htail]
  | case4 => cases h

theorem decode?_eq_some_iff {t : List Char} {b : Bytes} :
    decode? t = some b ↔ t = encode b := by
  constructor
  · exact eq_encode_of_decode?
  · intro h
    rw [h, decode?_encode]

end Base64
end PaperPairing
