import PaperPairing.Text.Utf8

/-!
# UTF-8 round trip

The bytes of a character are one unit, and the unit is that character.  So the
units of a written text are its characters, whatever the characters are.  A unit
that is a character consists of the bytes of that character, so a byte string that
reads as a text is the written form of it.
-/

namespace PaperPairing
namespace Utf8

/-!
## Bytes of a given value
-/

theorem toNat_ofNat_of_lt {n : Nat} (hn : n < 256) : (UInt8.ofNat n).toNat = n := by
  rw [UInt8.toNat_ofNat']
  exact Nat.mod_eq_of_lt hn

theorem ofNat_lt_iff {n : Nat} (hn : n < 256) (x : UInt8) :
    UInt8.ofNat n < x ↔ n < x.toNat := by
  rw [UInt8.lt_iff_toNat_lt, toNat_ofNat_of_lt hn]

theorem ofNat_eq_iff {n : Nat} (hn : n < 256) (x : UInt8) :
    UInt8.ofNat n = x ↔ n = x.toNat := by
  rw [← UInt8.toNat_inj, toNat_ofNat_of_lt hn]

theorem between_iff {x : UInt8} (low high : UInt8) :
    (decide (low ≤ x) && decide (x ≤ high)) = true ↔
      low.toNat ≤ x.toNat ∧ x.toNat ≤ high.toNat := by
  rw [Bool.and_eq_true, decide_eq_true_eq, decide_eq_true_eq, UInt8.le_iff_toNat_le,
    UInt8.le_iff_toNat_le]

theorem between_ofNat_iff {n : Nat} (hn : n < 256) (low high : UInt8) :
    (decide (low ≤ UInt8.ofNat n) && decide (UInt8.ofNat n ≤ high)) = true ↔
      low.toNat ≤ n ∧ n ≤ high.toNat := by
  rw [between_iff, toNat_ofNat_of_lt hn]

theorem isTail_ofNat {n : Nat} (hn : n < 64) : isTail (UInt8.ofNat (n + 0x80)) = true := by
  rw [isTail, between_ofNat_iff (by omega)]
  simp
  omega

theorem tailBits_ofNat {n : Nat} (hn : n < 64) : tailBits (UInt8.ofNat (n + 0x80)) = n := by
  rw [tailBits, toNat_ofNat_of_lt (by omega)]
  omega

/-!
## The units of characters
-/

theorem unit_one {v : Nat} (hv : v ≤ 0x7f) (rest : Bytes) :
    unit (UInt8.ofNat v) rest = (some (Char.ofNat v), 0) := by
  have hascii : UInt8.ofNat v < 0x80 := by
    rw [ofNat_lt_iff (by omega)]
    simp
    omega
  simp only [unit, if_pos hascii, toNat_ofNat_of_lt (show v < 256 by omega)]

theorem not_ascii_ofNat {n : Nat} (hn : n < 256) (hlow : 0x80 ≤ n) :
    ¬ UInt8.ofNat n < 0x80 := by
  rw [ofNat_lt_iff hn]
  simp
  omega

theorem unit_two {v : Nat} (hlow : 0x7f < v) (hhigh : v ≤ 0x7ff) (rest : Bytes) :
    unit (UInt8.ofNat (v / 64 % 32 + 0xc0)) (UInt8.ofNat (v % 64 + 0x80) :: rest) =
      (some (Char.ofNat v), 1) := by
  have hlead : v / 64 % 32 + 0xc0 < 256 := by omega
  have hvalue : (v / 64 % 32 + 0xc0) % 32 * 64 + v % 64 = v := by omega
  have htwo : (decide (0xC2 ≤ UInt8.ofNat (v / 64 % 32 + 0xc0)) &&
      decide (UInt8.ofNat (v / 64 % 32 + 0xc0) ≤ 0xDF)) = true := by
    rw [between_ofNat_iff hlead]
    simp
    omega
  simp only [unit, if_neg (not_ascii_ofNat hlead (by omega)), if_pos htwo,
    isTail_ofNat (Nat.mod_lt v (by decide)), if_true,
    tailBits_ofNat (Nat.mod_lt v (by decide)), toNat_ofNat_of_lt hlead, hvalue]

/-- The second byte of a character of three bytes is never one that would make
the form overlong or the character a surrogate. -/
theorem isSecond_three {v : Nat} (hlow : 0x7ff < v) (hhigh : v ≤ 0xffff)
    (hvalid : v < 0xd800 ∨ 0xdfff < v) :
    isSecond (UInt8.ofNat (v / 4096 % 16 + 0xe0)) (UInt8.ofNat (v / 64 % 64 + 0x80)) = true := by
  have hlead : v / 4096 % 16 + 0xe0 < 256 := by omega
  have hsecond : v / 64 % 64 + 0x80 < 256 := by omega
  simp only [isSecond, isTail_ofNat (Nat.mod_lt (v / 64) (by decide)), ofNat_eq_iff hlead,
    UInt8.reduceToNat]
  split
  · rw [between_ofNat_iff hsecond]
    simp only [UInt8.reduceToNat]
    omega
  · split
    · rw [between_ofNat_iff hsecond]
      simp only [UInt8.reduceToNat]
      omega
    · rw [if_neg (by omega), if_neg (by omega)]

theorem unit_three {v : Nat} (hlow : 0x7ff < v) (hhigh : v ≤ 0xffff)
    (hvalid : v < 0xd800 ∨ 0xdfff < v) (rest : Bytes) :
    unit (UInt8.ofNat (v / 4096 % 16 + 0xe0))
        (UInt8.ofNat (v / 64 % 64 + 0x80) :: UInt8.ofNat (v % 64 + 0x80) :: rest) =
      (some (Char.ofNat v), 2) := by
  have hlead : v / 4096 % 16 + 0xe0 < 256 := by omega
  have hvalue : (v / 4096 % 16 + 0xe0) % 16 * 4096 + v / 64 % 64 * 64 + v % 64 = v := by
    omega
  simp only [unit, if_neg (not_ascii_ofNat hlead (by omega)), between_ofNat_iff hlead,
    UInt8.reduceToNat]
  rw [if_neg (by omega), if_pos (by omega)]
  simp only [isSecond_three hlow hhigh hvalid, if_true,
    isTail_ofNat (Nat.mod_lt v (by decide)), tailBits_ofNat (Nat.mod_lt v (by decide)),
    tailBits_ofNat (Nat.mod_lt (v / 64) (by decide)), toNat_ofNat_of_lt hlead, hvalue]

/-- The second byte of a character of four bytes keeps it above `U+FFFF` and
below `U+110000`. -/
theorem isSecond_four {v : Nat} (hlow : 0xffff < v) (hhigh : v < 0x110000) :
    isSecond (UInt8.ofNat (v / 262144 % 8 + 0xf0)) (UInt8.ofNat (v / 4096 % 64 + 0x80)) =
      true := by
  have hlead : v / 262144 % 8 + 0xf0 < 256 := by omega
  have hsecond : v / 4096 % 64 + 0x80 < 256 := by omega
  simp only [isSecond, isTail_ofNat (Nat.mod_lt (v / 4096) (by decide)), ofNat_eq_iff hlead,
    UInt8.reduceToNat]
  rw [if_neg (by omega), if_neg (by omega)]
  split
  · rw [between_ofNat_iff hsecond]
    simp only [UInt8.reduceToNat]
    omega
  · split
    · rw [between_ofNat_iff hsecond]
      simp only [UInt8.reduceToNat]
      omega
    · rfl

theorem unit_four {v : Nat} (hlow : 0xffff < v) (hhigh : v < 0x110000) (rest : Bytes) :
    unit (UInt8.ofNat (v / 262144 % 8 + 0xf0))
        (UInt8.ofNat (v / 4096 % 64 + 0x80) :: UInt8.ofNat (v / 64 % 64 + 0x80) ::
          UInt8.ofNat (v % 64 + 0x80) :: rest) =
      (some (Char.ofNat v), 3) := by
  have hlead : v / 262144 % 8 + 0xf0 < 256 := by omega
  have hvalue : (v / 262144 % 8 + 0xf0) % 8 * 262144 + v / 4096 % 64 * 4096 +
      v / 64 % 64 * 64 + v % 64 = v := by
    omega
  simp only [unit, if_neg (not_ascii_ofNat hlead (by omega)), between_ofNat_iff hlead,
    UInt8.reduceToNat]
  rw [if_neg (by omega), if_neg (by omega), if_pos (by omega)]
  simp only [isSecond_four hlow hhigh, if_true,
    isTail_ofNat (Nat.mod_lt v (by decide)), isTail_ofNat (Nat.mod_lt (v / 64) (by decide)),
    tailBits_ofNat (Nat.mod_lt v (by decide)),
    tailBits_ofNat (Nat.mod_lt (v / 64) (by decide)),
    tailBits_ofNat (Nat.mod_lt (v / 4096) (by decide)), toNat_ofNat_of_lt hlead, hvalue]

/-- The bytes of a character, whatever follows them, are one unit. -/
theorem unit_encodeChar (c : Char) (rest : Bytes) :
    exists first tail, String.utf8EncodeChar c = first :: tail ∧
      unit first (tail ++ rest) = (some c, tail.length) := by
  have hvalid : c.val.toNat < 0xd800 ∨ 0xdfff < c.val.toNat ∧ c.val.toNat < 0x110000 :=
    c.valid
  have hchar : Char.ofNat c.val.toNat = c := Char.ofNat_toNat c
  fun_cases String.utf8EncodeChar c with
  | case1 v hone =>
      refine ⟨_, _, rfl, ?_⟩
      rw [List.nil_append, unit_one hone, hchar]
      rfl
  | case2 v hone htwo =>
      refine ⟨_, _, rfl, ?_⟩
      rw [List.cons_append, List.nil_append, unit_two (by omega) htwo, hchar]
      rfl
  | case3 v hone htwo hthree =>
      refine ⟨_, _, rfl, ?_⟩
      rw [List.cons_append, List.cons_append, List.nil_append,
        unit_three (by omega) hthree (by omega), hchar]
      rfl
  | case4 v hone htwo hthree =>
      refine ⟨_, _, rfl, ?_⟩
      rw [List.cons_append, List.cons_append, List.cons_append, List.nil_append,
        unit_four (by omega) (by omega), hchar]
      rfl

/-!
## Texts
-/

theorem units_encodeChars (cs : List Char) : units (encodeChars cs) = cs.map some := by
  induction cs with
  | nil =>
      rw [encodeChars, List.flatMap_nil, units]
      rfl
  | cons c cs ih =>
      rcases unit_encodeChar c (encodeChars cs) with ⟨first, tail, hbytes, hunit⟩
      have hsplit : encodeChars (c :: cs) = first :: (tail ++ encodeChars cs) := by
        rw [encodeChars, List.flatMap_cons, hbytes, List.cons_append]
        rfl
      rw [hsplit, units, hunit, List.drop_left, ih]
      rfl

theorem decodeChars?_encodeChars (cs : List Char) :
    decodeChars? (encodeChars cs) = some cs := by
  rw [decodeChars?, units_encodeChars]
  induction cs with
  | nil => rfl
  | cons c cs ih => simp [ih]

theorem decode?_encode (s : String) : decode? (encode s) = some s := by
  rw [decode?, encode, decodeChars?_encodeChars]
  simp

theorem eq_of_encode_eq {s t : String} (h : encode s = encode t) : s = t := by
  have hdecode := congrArg decode? h
  rw [decode?_encode, decode?_encode] at hdecode
  exact Option.some.inj hdecode

/-!
## What is read was written
-/

theorem val_ofNat {v : Nat} (hv : v < 0xd800 ∨ 0xdfff < v ∧ v < 0x110000) :
    (Char.ofNat v).val.toNat = v := by
  rw [Char.ofNat, dif_pos hv]
  rfl

theorem eq_of_toNat_eq {n : Nat} {x : UInt8} (h : n = x.toNat) : UInt8.ofNat n = x := by
  rw [h, UInt8.ofNat_toNat]

theorem toNat_of_isTail {x : UInt8} (h : isTail x = true) : x.toNat = tailBits x + 0x80 := by
  have hrange := (between_iff 0x80 0xBF).mp h
  simp only [UInt8.reduceToNat] at hrange
  rw [tailBits]
  omega

theorem tailBits_lt (x : UInt8) : tailBits x < 64 :=
  Nat.mod_lt _ (by decide)

theorem toNat_of_isSecond {a b : UInt8} (h : isSecond a b = true) :
    b.toNat = tailBits b + 0x80 ∧ (a.toNat = 0xE0 -> 0xA0 ≤ b.toNat) ∧
      (a.toNat = 0xED -> b.toNat ≤ 0x9F) ∧ (a.toNat = 0xF0 -> 0x90 ≤ b.toNat) ∧
      (a.toNat = 0xF4 -> b.toNat ≤ 0x8F) := by
  have hlt := b.toNat_lt
  rw [isSecond] at h
  repeat' split at h
  all_goals
    simp only [isTail, between_iff, ← UInt8.toNat_inj, UInt8.reduceToNat] at *
    rw [tailBits]
    omega

theorem encodeChar_one {a : UInt8} (ha : a < 0x80) :
    String.utf8EncodeChar (Char.ofNat a.toNat) = [a] := by
  rw [UInt8.lt_iff_toNat_lt] at ha
  simp only [UInt8.reduceToNat] at ha
  rw [String.utf8EncodeChar, val_ofNat (by omega), if_pos (by omega), UInt8.ofNat_toNat]

theorem encodeChar_two {a b : UInt8} (ha : 0xC2 ≤ a.toNat ∧ a.toNat ≤ 0xDF)
    (hb : isTail b = true) :
    String.utf8EncodeChar (Char.ofNat (a.toNat % 32 * 64 + tailBits b)) = [a, b] := by
  have hbits := tailBits_lt b
  have htail := toNat_of_isTail hb
  generalize hv : a.toNat % 32 * 64 + tailBits b = v
  rw [String.utf8EncodeChar, val_ofNat (by omega), if_neg (by omega), if_pos (by omega),
    eq_of_toNat_eq (x := a) (by omega), eq_of_toNat_eq (x := b) (by omega)]

theorem encodeChar_three {a b c : UInt8} (ha : 0xE0 ≤ a.toNat ∧ a.toNat ≤ 0xEF)
    (hb : isSecond a b = true) (hc : isTail c = true) :
    String.utf8EncodeChar
        (Char.ofNat (a.toNat % 16 * 4096 + tailBits b * 64 + tailBits c)) = [a, b, c] := by
  have hbits := tailBits_lt b
  have hbits' := tailBits_lt c
  have htail := toNat_of_isTail hc
  rcases toNat_of_isSecond hb with ⟨hsecond, he0, hed, -, -⟩
  generalize hv : a.toNat % 16 * 4096 + tailBits b * 64 + tailBits c = v
  rw [String.utf8EncodeChar, val_ofNat (by omega), if_neg (by omega), if_neg (by omega),
    if_pos (by omega), eq_of_toNat_eq (x := a) (by omega), eq_of_toNat_eq (x := b) (by omega),
    eq_of_toNat_eq (x := c) (by omega)]

theorem encodeChar_four {a b c d : UInt8} (ha : 0xF0 ≤ a.toNat ∧ a.toNat ≤ 0xF4)
    (hb : isSecond a b = true) (hc : isTail c = true) (hd : isTail d = true) :
    String.utf8EncodeChar
        (Char.ofNat (a.toNat % 8 * 262144 + tailBits b * 4096 + tailBits c * 64 + tailBits d)) =
      [a, b, c, d] := by
  have hbits := tailBits_lt b
  have hbits' := tailBits_lt c
  have hbits'' := tailBits_lt d
  have htail := toNat_of_isTail hc
  have htail' := toNat_of_isTail hd
  rcases toNat_of_isSecond hb with ⟨hsecond, -, -, hf0, hf4⟩
  generalize hv : a.toNat % 8 * 262144 + tailBits b * 4096 + tailBits c * 64 + tailBits d = v
  rw [String.utf8EncodeChar, val_ofNat (by omega), if_neg (by omega), if_neg (by omega),
    if_neg (by omega), eq_of_toNat_eq (x := a) (by omega), eq_of_toNat_eq (x := b) (by omega),
    eq_of_toNat_eq (x := c) (by omega), eq_of_toNat_eq (x := d) (by omega)]

/-- A unit that is a character consists of its bytes. -/
theorem encodeChar_of_unit {a : UInt8} {rest : Bytes} {c : Char} {n : Nat}
    (h : unit a rest = (some c, n)) : String.utf8EncodeChar c = a :: rest.take n := by
  revert h
  fun_cases unit a rest <;> intro h <;> cases h
  case case1 ha => exact encodeChar_one ha
  case case2 _ ha b more hb => exact encodeChar_two ((between_iff 0xC2 0xDF).mp ha) hb
  case case5 _ _ ha b hb c more hc => exact encodeChar_three ((between_iff 0xE0 0xEF).mp ha) hb hc
  case case10 _ _ _ ha b hb c hc d more hd =>
      exact encodeChar_four ((between_iff 0xF0 0xF4).mp ha) hb hc hd

theorem encodeChars_of_units {b : Bytes} {cs : List Char} (h : units b = cs.map some) :
    encodeChars cs = b := by
  fun_induction units b generalizing cs with
  | case1 =>
      cases cs with
      | nil => rfl
      | cons c cs => cases h
  | case2 a rest ih =>
      cases cs with
      | nil => cases h
      | cons c cs =>
          rw [List.map_cons, List.cons.injEq] at h
          have hunit : unit a rest = (some c, (unit a rest).2) := Prod.ext h.1 rfl
          rw [encodeChars, List.flatMap_cons, encodeChar_of_unit hunit]
          have htail := ih h.2
          rw [encodeChars] at htail
          rw [htail, List.cons_append, List.take_append_drop]

theorem eq_map_some_of_mapM {us : List (Option Char)} {cs : List Char}
    (h : us.mapM id = some cs) : us = cs.map some := by
  induction us generalizing cs with
  | nil =>
      cases h
      rfl
  | cons u us ih =>
      rw [List.mapM_cons] at h
      rcases Option.bind_eq_some_iff.mp h with ⟨c, hc, htail⟩
      rcases Option.bind_eq_some_iff.mp htail with ⟨cs', hcs, hpure⟩
      cases hpure
      rw [List.map_cons, ← ih hcs]
      exact congrArg (· :: us) hc

theorem encode_of_decode? {b : Bytes} {s : String} (h : decode? b = some s) : encode s = b := by
  rcases Option.map_eq_some_iff.mp h with ⟨cs, hcs, rfl⟩
  rw [encode, String.toList_ofList]
  exact encodeChars_of_units (eq_map_some_of_mapM hcs)

theorem decode?_eq_some_iff {b : Bytes} {s : String} : decode? b = some s ↔ b = encode s := by
  constructor
  · intro h
    exact (encode_of_decode? h).symm
  · rintro rfl
    exact decode?_encode s

end Utf8
end PaperPairing
