import Mathlib.Data.List.Infix
import PaperPairing.Proofs.Text.Utf8

/-!
# Lossy reading keeps ASCII apart

A byte below 128 is always a unit of its own, whatever stands in front of it, and no
other unit is an ASCII character.  So a byte string can be cut at such bytes before it is
read, and an ASCII word stands in the text just where its bytes stand.
-/

namespace PaperPairing
namespace Utf8

/-!
## Units end in front of ASCII
-/

theorem isTail_of_lt {x : UInt8} (hx : x < 0x80) : isTail x = false := by
  rw [Bool.eq_false_iff]
  intro h
  have hvalue := toNat_of_isTail h
  rw [UInt8.lt_iff_toNat_lt] at hx
  simp only [UInt8.reduceToNat] at hx
  omega

theorem isSecond_of_lt {x : UInt8} (hx : x < 0x80) (a : UInt8) : isSecond a x = false := by
  rw [Bool.eq_false_iff]
  intro h
  have hvalue := (toNat_of_isSecond h).1
  rw [UInt8.lt_iff_toNat_lt] at hx
  simp only [UInt8.reduceToNat] at hx
  omega

theorem unit_of_lt {x : UInt8} (hx : x < 0x80) (rest : Bytes) :
    unit x rest = (some (Char.ofNat x.toNat), 0) := by
  simp only [unit, if_pos hx]

theorem unit_append {x : UInt8} (hx : x < 0x80) (a : UInt8) (rest more : Bytes) :
    unit a (rest ++ x :: more) = unit a rest := by
  have htail := isTail_of_lt hx
  have hsecond := isSecond_of_lt hx a
  rcases rest with _ | ⟨b, _ | ⟨c, _ | ⟨d, rest⟩⟩⟩
  all_goals
    simp only [unit, List.nil_append, List.cons_append, htail, hsecond]
    try rfl

theorem later_of_unit (a : UInt8) (rest : Bytes) :
    (unit a rest).2 ≤ rest.length ∧
      forall x, x ∈ rest.take (unit a rest).2 -> ¬ x < 0x80 := by
  have htail {x : UInt8} (h : isTail x = true) : ¬ x < 0x80 := by
    intro hx
    rw [isTail_of_lt hx] at h
    cases h
  have hsecond {x : UInt8} (h : isSecond a x = true) : ¬ x < 0x80 := by
    intro hx
    rw [isSecond_of_lt hx] at h
    cases h
  fun_cases unit a rest
  all_goals simp_all

theorem units_append {x : UInt8} (hx : x < 0x80) (b more : Bytes) :
    units (b ++ x :: more) = units b ++ some (Char.ofNat x.toNat) :: units more := by
  fun_induction units b with
  | case1 => rw [List.nil_append, units, unit_of_lt hx, List.drop_zero, List.nil_append]
  | case2 a rest ih =>
      have hlater := (later_of_unit a rest).1
      rw [List.cons_append, units, unit_append hx, List.drop_append_of_le_length hlater, ih,
        List.cons_append]

/-!
## Characters
-/

theorem decodeLossy_nil : decodeLossy [] = [] := by
  rw [decodeLossy, units, List.map_nil]

theorem decodeLossy_append {x : UInt8} (hx : x < 0x80) (b more : Bytes) :
    decodeLossy (b ++ x :: more) =
      decodeLossy b ++ Char.ofNat x.toNat :: decodeLossy more := by
  rw [decodeLossy, units_append hx, List.map_append, List.map_cons]
  rfl

theorem decodeLossy_cons_of_lt {x : UInt8} (hx : x < 0x80) (more : Bytes) :
    decodeLossy (x :: more) = Char.ofNat x.toNat :: decodeLossy more := by
  have hsplit := decodeLossy_append hx [] more
  rwa [decodeLossy_nil, List.nil_append, List.nil_append] at hsplit

theorem decodeLossy_of_lt {b : Bytes} (hb : forall x, x ∈ b -> x < 0x80) :
    decodeLossy b = b.map (fun x => Char.ofNat x.toNat) := by
  induction b with
  | nil => exact decodeLossy_nil
  | cons x b ih =>
      rw [decodeLossy_cons_of_lt (hb x List.mem_cons_self), List.map_cons,
        ih (fun y hy => hb y (List.mem_cons_of_mem x hy))]

theorem decodeLossy_encodeChars (cs : List Char) : decodeLossy (encodeChars cs) = cs := by
  rw [decodeLossy, units_encodeChars, List.map_map]
  exact List.map_id cs

/-- Behind a byte that is not ASCII the text goes on behind its unit. -/
theorem decodeLossy_cons (a : UInt8) (rest : Bytes) :
    decodeLossy (a :: rest) =
      (unit a rest).1.getD '\uFFFD' :: decodeLossy (rest.drop (unit a rest).2) := by
  rw [decodeLossy, units, List.map_cons]
  rfl

theorem encodeChar_of_lt {c : Char} (hc : c.toNat < 128) :
    String.utf8EncodeChar c = [UInt8.ofNat c.toNat] := by
  have hbyte : UInt8.ofNat c.toNat < 0x80 := by
    rw [ofNat_lt_iff (by omega)]
    exact hc
  have hone := encodeChar_one hbyte
  rwa [toNat_ofNat_of_lt (by omega), Char.ofNat_toNat] at hone

theorem eq_ofNat_of_unit {a : UInt8} {rest : Bytes} {c : Char} (hc : c.toNat < 128)
    (h : (unit a rest).1.getD '\uFFFD' = c) : a = UInt8.ofNat c.toNat := by
  cases hunit : (unit a rest).1 with
  | none =>
      rw [hunit, Option.getD_none] at h
      rw [← h] at hc
      exact absurd hc (by decide)
  | some d =>
      rw [hunit, Option.getD_some] at h
      have hbytes := encodeChar_of_unit (Prod.ext hunit rfl : unit a rest = (some d, _))
      rw [h, encodeChar_of_lt hc] at hbytes
      exact (List.cons.inj hbytes).1.symm

theorem mem_of_mem_decodeLossy {b : Bytes} {c : Char} (hc : c.toNat < 128)
    (h : c ∈ decodeLossy b) : UInt8.ofNat c.toNat ∈ b := by
  rw [decodeLossy] at h
  fun_induction units b with
  | case1 => cases h
  | case2 a rest ih =>
      rw [List.map_cons, List.mem_cons] at h
      rcases h with hfirst | h
      · rw [eq_ofNat_of_unit hc hfirst.symm]
        exact List.mem_cons_self
      · exact List.mem_cons_of_mem a (List.mem_of_mem_drop (ih h))

theorem decodeLossy_ne_nil {b : Bytes} (hb : b ≠ []) : decodeLossy b ≠ [] := by
  cases b with
  | nil => exact absurd rfl hb
  | cons a rest =>
      rw [decodeLossy_cons]
      exact List.cons_ne_nil _ _

/-!
## Words in any case of letters
-/

def lower (x : UInt8) : UInt8 :=
  if 0x41 ≤ x ∧ x ≤ 0x5A then x + 0x20 else x

theorem toLower_ofNat : forall n, n < 128 ->
    (Char.ofNat n).toLower = Char.ofNat (lower (UInt8.ofNat n)).toNat := by
  decide

theorem lower_ofNat_lt_iff : forall n, n < 256 ->
    (lower (UInt8.ofNat n) < 0x80 ↔ n < 128) := by
  decide +kernel

theorem lower_lt_iff (x : UInt8) : lower x < 0x80 ↔ x < 0x80 := by
  have hvalue := lower_ofNat_lt_iff x.toNat x.toNat_lt
  rw [UInt8.ofNat_toNat] at hvalue
  rw [hvalue, UInt8.lt_iff_toNat_lt]
  rfl

theorem map_toLower_decodeLossy {b : Bytes} (hb : forall x, x ∈ b -> x < 0x80) :
    (decodeLossy b).map Char.toLower = decodeLossy (b.map lower) := by
  have hlower : forall x, x ∈ b.map lower -> x < 0x80 := by
    intro x hx
    rcases List.mem_map.mp hx with ⟨y, hy, rfl⟩
    exact (lower_lt_iff y).mpr (hb y hy)
  rw [decodeLossy_of_lt hb, decodeLossy_of_lt hlower, List.map_map, List.map_map]
  refine List.map_congr_left ?_
  intro x hx
  have hchar := toLower_ofNat x.toNat (UInt8.lt_iff_toNat_lt.mp (hb x hx))
  rwa [UInt8.ofNat_toNat] at hchar

theorem toLower_of_not_lt {c : Char} (hc : ¬ c.toNat < 128) : c.toLower = c := by
  have hupper : ¬ (c.val ≥ 'A'.val ∧ c.val ≤ 'Z'.val) := by
    rintro ⟨-, hle⟩
    have hvalue : c.toNat ≤ 90 := hle
    omega
  exact dif_neg hupper

theorem toLower_first_iff {x : UInt8} {rest : Bytes} {c : Char} (hc : c.toNat < 128) :
    c = ((unit x rest).1.getD '\uFFFD').toLower ↔ UInt8.ofNat c.toNat = lower x := by
  have hchar : (UInt8.ofNat c.toNat).toNat = c.toNat := toNat_ofNat_of_lt (by omega)
  by_cases hx : x < 0x80
  · have hlower := toLower_ofNat x.toNat (by rwa [UInt8.lt_iff_toNat_lt] at hx)
    rw [UInt8.ofNat_toNat] at hlower
    have hvalue : (lower x).toNat < 128 := by
      have hlt := (lower_lt_iff x).mpr hx
      rwa [UInt8.lt_iff_toNat_lt] at hlt
    rw [unit_of_lt hx, Option.getD_some, hlower]
    constructor
    · rintro rfl
      rw [Char.toNat, val_ofNat (by omega), UInt8.ofNat_toNat]
    · intro h
      rw [← h, hchar, Char.ofNat_toNat]
  · have hfirst : ¬ ((unit x rest).1.getD '\uFFFD').toNat < 128 := by
      intro hlt
      rw [eq_ofNat_of_unit hlt rfl, ofNat_lt_iff (by omega)] at hx
      exact hx hlt
    rw [toLower_of_not_lt hfirst]
    constructor
    · rintro rfl
      exact absurd hc hfirst
    · intro h
      have hlt : UInt8.ofNat c.toNat < 0x80 := (ofNat_lt_iff (by omega) _).mpr hc
      rw [h, lower_lt_iff] at hlt
      exact absurd hlt hx

theorem encodeChars_cons {c : Char} (hc : c.toNat < 128) (cs : List Char) :
    encodeChars (c :: cs) = UInt8.ofNat c.toNat :: encodeChars cs := by
  rw [encodeChars, List.flatMap_cons, encodeChar_of_lt hc]
  rfl

theorem prefix_toLower_iff {word : List Char} (hword : forall c, c ∈ word -> c.toNat < 128)
    (b : Bytes) :
    word <+: (decodeLossy b).map Char.toLower ↔ encodeChars word <+: b.map lower := by
  induction word generalizing b with
  | nil => exact ⟨fun _ => List.nil_prefix, fun _ => List.nil_prefix⟩
  | cons c word ih =>
      have hc := hword c List.mem_cons_self
      cases b with
      | nil => simp [decodeLossy_nil, encodeChars_cons hc]
      | cons x rest =>
          rw [encodeChars_cons hc, decodeLossy_cons, List.map_cons, List.map_cons,
            List.cons_prefix_cons, List.cons_prefix_cons, toLower_first_iff hc]
          refine and_congr_right ?_
          intro hfirst
          have hx : x < 0x80 := by
            rw [← lower_lt_iff, ← hfirst, ofNat_lt_iff (by omega)]
            exact hc
          rw [unit_of_lt hx, List.drop_zero]
          exact ih (fun d hd => hword d (List.mem_cons_of_mem c hd)) rest

theorem lt_of_mem_encodeChars {word : List Char} (hword : forall c, c ∈ word -> c.toNat < 128)
    {x : UInt8} (hx : x ∈ encodeChars word) : x < 0x80 := by
  rcases List.mem_flatMap.mp hx with ⟨c, hmem, hbyte⟩
  have hc := hword c hmem
  rw [encodeChar_of_lt hc, List.mem_singleton] at hbyte
  rw [hbyte, ofNat_lt_iff (by omega)]
  exact hc

theorem infix_append_iff {word front rest : Bytes} (hne : word ≠ [])
    (hword : forall x, x ∈ word -> x < 0x80) (hfront : forall x, x ∈ front -> ¬ x < 0x80) :
    word <:+: front ++ rest ↔ word <:+: rest := by
  induction front with
  | nil => rfl
  | cons y front ih =>
      have hprefix : ¬ word <+: y :: (front ++ rest) := by
        cases word with
        | nil => exact absurd rfl hne
        | cons x word =>
            intro h
            have hy := (List.cons_prefix_cons.mp h).1
            exact hfront y List.mem_cons_self (hy ▸ hword x List.mem_cons_self)
      rw [List.cons_append, List.infix_cons_iff, or_iff_right hprefix]
      exact ih (fun x hx => hfront x (List.mem_cons_of_mem y hx))

/-- A word stands in the text, in any case of letters, where its bytes stand. -/
theorem infix_toLower_iff {word : List Char} (hne : word ≠ [])
    (hword : forall c, c ∈ word -> c.toNat < 128) (b : Bytes) :
    word <:+: (decodeLossy b).map Char.toLower ↔ encodeChars word <:+: b.map lower := by
  have hbytes : encodeChars word ≠ [] := by
    cases word with
    | nil => exact absurd rfl hne
    | cons c word =>
        rw [encodeChars_cons (hword c List.mem_cons_self)]
        exact List.cons_ne_nil _ _
  -- along the units of the bytes: a word may begin at the first byte of one only
  induction b using units.induct with
  | case1 =>
      rw [decodeLossy_nil, List.map_nil, List.map_nil, List.infix_nil, List.infix_nil]
      exact iff_of_false hne hbytes
  | case2 a rest ih =>
      have hprefix := prefix_toLower_iff hword (a :: rest)
      have htail : word <:+: (decodeLossy (rest.drop (unit a rest).2)).map Char.toLower ↔
          encodeChars word <:+: (rest.drop (unit a rest).2).map lower := ih
      have hlater : forall x, x ∈ (rest.take (unit a rest).2).map lower -> ¬ x < 0x80 := by
        intro x hx
        rcases List.mem_map.mp hx with ⟨y, hy, rfl⟩
        rw [lower_lt_iff]
        exact (later_of_unit a rest).2 y hy
      have hsplit : rest.map lower =
          (rest.take (unit a rest).2).map lower ++ (rest.drop (unit a rest).2).map lower := by
        rw [← List.map_append, List.take_append_drop]
      rw [decodeLossy_cons, List.map_cons, List.map_cons] at hprefix
      rw [decodeLossy_cons, List.map_cons, List.map_cons, List.infix_cons_iff,
        List.infix_cons_iff, hprefix, htail, hsplit,
        infix_append_iff hbytes (fun x => lt_of_mem_encodeChars hword) hlater]

end Utf8
end PaperPairing
