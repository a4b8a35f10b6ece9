import Mathlib.Data.Bool.AllAny
import Mathlib.Data.Nat.Bitwise
import PaperPairing.ClientId
import PaperPairing.Proofs.Registration.HonestRun

/-!
# Client identifiers have one width

An identifier has 36 characters, hyphens at four fixed places and the digits of the
marked draw elsewhere, so that it keeps exactly the bits of the draw that the version
and the variant leave alone.  The fixed width is what lets the device cut it off the
public key that follows it without any mark in between.
-/

namespace PaperPairing

open Registration

namespace Hex

theorem encode_append (a b : Bytes) : encode (a ++ b) = encode a ++ encode b := by
  induction a with
  | nil => rfl
  | cons x a ih => simp [encode, ih]

theorem encode_injective {a b : Bytes} (h : encode a = encode b) : a = b := by
  have hdecode := congrArg decode? h
  rw [decode?_encode, decode?_encode] at hdecode
  exact Option.some.inj hdecode

def digits : List Char :=
  "0123456789abcdef".toList

theorem digit_mem_digits : forall n, n < 16 -> digit n ∈ digits := by
  decide

theorem mem_digits_of_mem_encode {b : Bytes} {c : Char} (h : c ∈ encode b) : c ∈ digits := by
  induction b with
  | nil => cases h
  | cons x b ih =>
      have hx := x.toNat_lt
      simp only [encode, List.mem_cons] at h
      rcases h with rfl | rfl | h
      · exact digit_mem_digits _ (by omega)
      · exact digit_mem_digits _ (by omega)
      · exact ih h

end Hex

namespace ClientId

/-!
## The form
-/

def hyphens : List Nat :=
  [8, 13, 18, 23]

/-- A UUID of version 4 and of the usual variant, in lowercase. -/
structure IsVersion4 (id : List Char) : Prop where
  length_eq : id.length = 36
  ascii : forall c, c ∈ id -> c.toNat < 128
  hyphen : forall i, i ∈ hyphens -> id[i]? = some '-'
  digit : forall i c, i ∉ hyphens -> id[i]? = some c -> c ∈ Hex.digits
  version : id[14]? = some '4'
  variant : exists c, id[19]? = some c ∧ c ∈ "89ab".toList

theorem getElem?_hyphen (front rest : List Char) (i : Nat) :
    (front ++ '-' :: rest)[i]? =
      if i < front.length then front[i]?
      else if i = front.length then some '-' else rest[i - (front.length + 1)]? := by
  rw [List.getElem?_append]
  split
  · rfl
  · split
    next heq => rw [heq, Nat.sub_self, List.getElem?_cons_zero]
    next hne =>
      rw [show i - front.length = i - (front.length + 1) + 1 by omega, List.getElem?_cons_succ]

theorem toList_ofRandom (r : Fixed 16) :
    (ofRandom r).toList = ['-'].intercalate (groups (mark r.bytes.reverse)) :=
  String.toList_ofList

@[simp] theorem length_mark (b : Bytes) : (mark b).length = b.length := by
  simp [mark]

theorem intercalate_groups (b : Bytes) :
    ['-'].intercalate (groups b) =
      Hex.encode (b.take 4) ++ '-' :: (Hex.encode ((b.drop 4).take 2) ++
        '-' :: (Hex.encode ((b.drop 6).take 2) ++
          '-' :: (Hex.encode ((b.drop 8).take 2) ++ '-' :: Hex.encode (b.drop 10)))) := by
  simp [groups, List.intercalate, List.intersperse]

/-- A row of characters with a hyphen behind the first `width` of them: elsewhere there
is what is in front of the hyphen or behind it. -/
theorem mem_digits_of_getElem? {front rest : List Char} {i : Nat} {c : Char}
    (hfront : forall x, x ∈ front -> x ∈ Hex.digits) (h : (front ++ '-' :: rest)[i]? = some c)
    (hi : i ≠ front.length) :
    c ∈ Hex.digits ∨
      (front.length < i ∧ rest[i - (front.length + 1)]? = some c) := by
  rw [getElem?_hyphen, if_neg hi] at h
  split at h
  · exact .inl (hfront c (List.mem_of_getElem? h))
  · exact .inr ⟨by omega, h⟩

section

variable {b : Bytes} (hb : b.length = 16)

include hb

theorem digit_intercalate_groups {i : Nat} {c : Char} (hi : i ∉ hyphens)
    (h : (['-'].intercalate (groups b))[i]? = some c) : c ∈ Hex.digits := by
  have hdigits (piece : Bytes) : forall x, x ∈ Hex.encode piece -> x ∈ Hex.digits :=
    fun _ => Hex.mem_digits_of_mem_encode
  simp only [hyphens, List.mem_cons, List.not_mem_nil, or_false, not_or] at hi
  rw [intercalate_groups] at h
  have hlengths : (Hex.encode (b.take 4)).length = 8 ∧
      (Hex.encode ((b.drop 4).take 2)).length = 4 ∧
      (Hex.encode ((b.drop 6).take 2)).length = 4 ∧
      (Hex.encode ((b.drop 8).take 2)).length = 4 := by
    simp [hb]
  rcases hlengths with ⟨h1, h2, h3, h4⟩
  rcases mem_digits_of_getElem? (hdigits _) h (by omega) with h | ⟨hlt1, h⟩
  · exact h
  rcases mem_digits_of_getElem? (hdigits _) h (by omega) with h | ⟨hlt2, h⟩
  · exact h
  rcases mem_digits_of_getElem? (hdigits _) h (by omega) with h | ⟨hlt3, h⟩
  · exact h
  rcases mem_digits_of_getElem? (hdigits _) h (by omega) with h | ⟨-, h⟩
  · exact h
  · exact hdigits _ c (List.mem_of_getElem? h)

theorem hyphen_intercalate_groups {i : Nat} (hi : i ∈ hyphens) :
    (['-'].intercalate (groups b))[i]? = some '-' := by
  simp only [hyphens, List.mem_cons, List.not_mem_nil, or_false] at hi
  rcases hi with rfl | rfl | rfl | rfl
  all_goals
    simp [intercalate_groups, hb]

theorem length_intercalate_groups : (['-'].intercalate (groups b)).length = 36 := by
  simp [intercalate_groups, hb]

theorem getElem?_version {x : UInt8} (hx : b[6]? = some x) :
    (['-'].intercalate (groups b))[14]? = some (Hex.digit (x.toNat / 16)) := by
  rcases List.getElem?_eq_some_iff.mp hx with ⟨hlt, rfl⟩
  have hgroup : (b.drop 6).take 2 = b[6] :: (b.drop 7).take 1 := by
    rw [List.drop_eq_getElem_cons hlt]
    rfl
  simp [intercalate_groups, hgroup, Hex.encode, hb]

theorem getElem?_variant {x : UInt8} (hx : b[8]? = some x) :
    (['-'].intercalate (groups b))[19]? = some (Hex.digit (x.toNat / 16)) := by
  rcases List.getElem?_eq_some_iff.mp hx with ⟨hlt, rfl⟩
  have hgroup : (b.drop 8).take 2 = b[8] :: (b.drop 9).take 1 := by
    rw [List.drop_eq_getElem_cons hlt]
    rfl
  simp [intercalate_groups, hgroup, Hex.encode, hb]

end

theorem filter_intercalate_groups (b : Bytes) :
    (['-'].intercalate (groups b)).filter (· ≠ '-') = Hex.encode b := by
  have hkeep (piece : Bytes) :
      (Hex.encode piece).filter (· ≠ '-') = Hex.encode piece := by
    rw [List.filter_eq_self]
    intro c hc
    have hdigit := Hex.mem_digits_of_mem_encode hc
    rw [decide_eq_true_eq]
    rintro rfl
    exact absurd hdigit (by decide)
  have h10 : b.drop 10 = (b.drop 8).drop 2 := by rw [List.drop_drop]
  have h8 : b.drop 8 = (b.drop 6).drop 2 := by rw [List.drop_drop]
  have h6 : b.drop 6 = (b.drop 4).drop 2 := by rw [List.drop_drop]
  have hhyphen (text : List Char) :
      ('-' :: text).filter (· ≠ '-') = text.filter (· ≠ '-') := rfl
  rw [intercalate_groups]
  simp only [List.filter_append, hhyphen, hkeep, ← Hex.encode_append]
  rw [h10, List.take_append_drop, h8, List.take_append_drop, h6, List.take_append_drop,
    List.take_append_drop]

/-!
## What the marks leave
-/

def markedByte (i : Nat) (x : UInt8) : UInt8 :=
  if i = 6 then (x &&& 0x0F) ||| 0x40 else if i = 8 then (x &&& 0x3F) ||| 0x80 else x

theorem getElem?_mark (b : Bytes) (i : Nat) : (mark b)[i]? = b[i]?.map (markedByte i) := by
  rw [mark, List.getElem?_modify, List.getElem?_modify, Option.map_eq_map, Option.map_eq_map,
    Option.map_map]
  congr 1
  funext x
  simp only [Function.comp_apply, markedByte]
  grind

/-- How many low bits of a byte an identifier keeps. -/
def keptBits (i : Nat) : Nat :=
  if i = 6 then 4 else if i = 8 then 6 else 8

theorem toNat_version : forall n, n < 256 ->
    ((UInt8.ofNat n &&& 0x0F) ||| 0x40).toNat = 64 + n % 16 := by
  decide +kernel

theorem toNat_variant : forall n, n < 256 ->
    ((UInt8.ofNat n &&& 0x3F) ||| 0x80).toNat = 128 + n % 64 := by
  decide +kernel

theorem toNat_markedByte (i : Nat) (x : UInt8) :
    (markedByte i x).toNat =
      (if i = 6 then 64 else if i = 8 then 128 else 0) + x.toNat % 2 ^ keptBits i := by
  have hx := x.toNat_lt
  have hversion := toNat_version x.toNat hx
  have hvariant := toNat_variant x.toNat hx
  rw [UInt8.ofNat_toNat] at hversion hvariant
  rw [markedByte, keptBits]
  split
  · exact hversion
  · split
    · exact hvariant
    · omega

theorem mod_two_pow_eq_iff {m n k : Nat} :
    m % 2 ^ k = n % 2 ^ k ↔ forall place, place < k -> m.testBit place = n.testBit place := by
  constructor
  · intro h place hplace
    have hbit := congrArg (Nat.testBit · place) h
    simpa [Nat.testBit_mod_two_pow, hplace] using hbit
  · intro h
    apply Nat.eq_of_testBit_eq
    intro place
    rw [Nat.testBit_mod_two_pow, Nat.testBit_mod_two_pow]
    by_cases hplace : place < k
    · rw [h place hplace]
    · simp [hplace]

theorem markedByte_eq_iff {i : Nat} {x y : UInt8} :
    markedByte i x = markedByte i y ↔
      forall place, place < keptBits i -> x.toNat.testBit place = y.toNat.testBit place := by
  rw [← mod_two_pow_eq_iff, ← UInt8.toNat_inj, toNat_markedByte, toNat_markedByte]
  omega

/-!
## Draws
-/

/-- A bit of a draw: the place is counted from the lowest bit of the byte. -/
def bit (r : Fixed 16) (byte place : Nat) : Bool :=
  (r.bytes.getD byte 0).toNat.testBit place

/-- The bits that the version and the variant take the place of.  A draw is written
from its last byte on, so the seventh and the ninth byte written are the tenth and the
eighth of the draw. -/
def overwritten : List (Nat × Nat) :=
  [(9, 4), (9, 5), (9, 6), (9, 7), (7, 6), (7, 7)]

def AgreeElsewhere (r s : Fixed 16) : Prop :=
  forall byte place, byte < 16 -> place < 8 -> (byte, place) ∉ overwritten ->
    bit r byte place = bit s byte place

theorem not_mem_overwritten_iff : forall i, i < 16 -> forall place, place < 8 ->
    ((15 - i, place) ∉ overwritten ↔ place < keptBits i) := by
  decide

theorem keptBits_le (i : Nat) : keptBits i ≤ 8 := by
  rw [keptBits]
  grind

theorem getElem?_reverse (r : Fixed 16) {i : Nat} (hi : i < 16) :
    r.bytes.reverse[i]? = some (r.bytes.getD (15 - i) 0) := by
  have hlength := r.length_bytes
  rw [List.getElem?_reverse (by omega), hlength, List.getD_eq_getElem?_getD,
    List.getElem?_eq_getElem (by omega)]
  rfl

theorem mark_eq_iff (r s : Fixed 16) :
    mark r.bytes.reverse = mark s.bytes.reverse ↔ AgreeElsewhere r s := by
  constructor
  · intro h byte place hbyte hplace hkept
    have hi : 15 - byte < 16 := by omega
    have hback : 15 - (15 - byte) = byte := by omega
    have hequal := congrArg (·[15 - byte]?) h
    simp only [getElem?_mark, getElem?_reverse _ hi, hback, Option.map_some,
      Option.some.injEq] at hequal
    exact markedByte_eq_iff.mp hequal place
      ((not_mem_overwritten_iff _ hi _ hplace).mp (by rwa [hback]))
  · intro h
    apply List.ext_getElem?
    intro i
    rw [getElem?_mark, getElem?_mark]
    by_cases hi : i < 16
    · rw [getElem?_reverse r hi, getElem?_reverse s hi, Option.map_some, Option.map_some]
      congr 1
      apply markedByte_eq_iff.mpr
      intro place hplace
      have hwidth := Nat.lt_of_lt_of_le hplace (keptBits_le i)
      exact h _ _ (by omega) hwidth ((not_mem_overwritten_iff i hi place hwidth).mpr hplace)
    · have hr := r.length_bytes
      have hs := s.length_bytes
      rw [List.getElem?_eq_none (by simp; omega), List.getElem?_eq_none (by simp; omega)]

/-!
## Identifiers
-/

theorem digit_variant_mem : forall v, v < 4 -> Hex.digit (8 + v) ∈ "89ab".toList := by
  decide

theorem toNat_lt_of_mem_digits {c : Char} (h : c ∈ Hex.digits) : c.toNat < 128 :=
  List.all_iff_forall_prop.mp (by decide : Hex.digits.all (fun c => c.toNat < 128) = true) c h

theorem isVersion4_ofRandom (r : Fixed 16) : IsVersion4 (ofRandom r).toList := by
  have hb : (mark r.bytes.reverse).length = 16 := by simp [r.length_bytes]
  have hmarked {i : Nat} (hi : i < 16) :
      (mark r.bytes.reverse)[i]? = some (markedByte i (r.bytes.getD (15 - i) 0)) := by
    rw [getElem?_mark, getElem?_reverse r hi]
    rfl
  rw [toList_ofRandom]
  refine ⟨length_intercalate_groups hb, ?_, fun _ => hyphen_intercalate_groups hb,
    fun _ _ => digit_intercalate_groups hb, ?_, ?_⟩
  · intro c hc
    rcases List.getElem?_of_mem hc with ⟨i, hi⟩
    by_cases hplace : i ∈ hyphens
    · rw [hyphen_intercalate_groups hb hplace] at hi
      cases hi
      decide
    · exact toNat_lt_of_mem_digits (digit_intercalate_groups hb hplace hi)
  · have hdigit : (64 + (r.bytes.getD 9 0).toNat % 2 ^ 4) / 16 = 4 := by omega
    rw [getElem?_version hb (hmarked (by decide)), toNat_markedByte]
    exact congrArg (fun n => some (Hex.digit n)) hdigit
  · have hdigit : (128 + (r.bytes.getD 7 0).toNat % 2 ^ 6) / 16 =
        8 + (r.bytes.getD 7 0).toNat % 2 ^ 6 / 16 := by
      omega
    refine ⟨_, getElem?_variant hb (hmarked (by decide)), ?_⟩
    rw [toNat_markedByte]
    show Hex.digit ((128 + (r.bytes.getD 7 0).toNat % 2 ^ 6) / 16) ∈ _
    rw [hdigit]
    exact digit_variant_mem _ (by omega)

theorem ofRandom_eq_iff (r s : Fixed 16) : ofRandom r = ofRandom s ↔ AgreeElsewhere r s := by
  rw [← mark_eq_iff]
  constructor
  · intro h
    have hdigits := congrArg (fun id => id.toList.filter (· ≠ '-')) h
    simp only [toList_ofRandom, filter_intercalate_groups] at hdigits
    exact Hex.encode_injective hdigits
  · intro h
    rw [ofRandom, ofRandom, h]

end ClientId

/-!
## Cutting at a byte
-/

namespace Text

/-- Cut a text behind a number of bytes of its written form; none if that is inside a
character or behind the end. -/
def cutAtByte? : Nat -> List Char -> Option (List Char × List Char)
  | 0, cs => some ([], cs)
  | _ + 1, [] => none
  | n + 1, c :: cs =>
      if c.utf8Size ≤ n + 1 then
        (cutAtByte? (n + 1 - c.utf8Size) cs).map (fun parts => (c :: parts.1, parts.2))
      else none

theorem utf8Size_of_lt {c : Char} (h : c.toNat < 128) : c.utf8Size = 1 := by
  rw [Char.utf8Size_eq_one_iff, UInt32.le_iff_toNat_le]
  exact Nat.le_of_lt_succ h

theorem cutAtByte?_append {front : List Char} (hfront : forall c, c ∈ front -> c.toNat < 128)
    (rest : List Char) : cutAtByte? front.length (front ++ rest) = some (front, rest) := by
  induction front with
  | nil => rw [List.length_nil, cutAtByte?, List.nil_append]
  | cons c front ih =>
      have hone := utf8Size_of_lt (hfront c List.mem_cons_self)
      have htail := ih (fun d hd => hfront d (List.mem_cons_of_mem c hd))
      rw [List.length_cons, List.cons_append, cutAtByte?, hone, if_pos (Nat.le_add_left 1 _),
        Nat.add_sub_cancel, htail]
      rfl

end Text

/-!
## On the device
-/

namespace Device

/-- What the device takes out of a registration request: the identifier is cut off the
text at a fixed byte, and the rest is the public key. -/
def register (d : Device) (l : Link) (sent : CaResponse) (body : Bytes) :
    Option (String × String) := do
  let text ← Utf8.decode? (← d.acceptRegistration l sent body)
  let (clientId, publicKey) ← Text.cutAtByte? 36 text.toList
  return (String.ofList clientId, String.ofList publicKey)

theorem register_registrationRequest (d : Device) (x : Exchange)
    (hx : x.nonce1 = d.nonce1) (p : ClientProof) {clientId : String}
    (hlength : clientId.toList.length = 36)
    (hascii : forall c, c ∈ clientId.toList -> c.toNat < 128) (identity : Identity)
    (iv iv' : Fixed 16) :
    d.register (d.link x) (d.caResponse x p iv')
        (Message.toBody
          (Stage.registrationRequest x (d.reply x p iv') clientId identity iv)) =
      some (clientId, identity.publicText) := by
  have htext : Utf8.encode clientId ++ Utf8.encode identity.publicText =
      Utf8.encode (clientId ++ identity.publicText) := by
    rw [Utf8.encode, Utf8.encode, Utf8.encode, String.toList_append]
    exact List.flatMap_append.symm
  have hcut := Text.cutAtByte?_append hascii identity.publicText.toList
  rw [register, acceptRegistration_registrationRequest d x hx, htext]
  simp only [Option.bind_eq_bind, Option.bind_some, Utf8.decode?_encode, String.toList_append,
    ← hlength, hcut]
  simp

end Device

namespace ClientId

/-- Every identifier is a UUID of version 4 in its usual form, of 36 characters; two draws
give the same one just if they agree outside the six bits that are overwritten; and a
device that cuts what was registered under one at its 36th byte has the identifier and
the public key, whatever the keys of the session, the identity and the draws are. -/
theorem client_ids_are_separable :
    (forall r, IsVersion4 (ofRandom r).toList) ∧
    (forall r s, ofRandom r = ofRandom s ↔ AgreeElsewhere r s) ∧
    (forall (d : Device) (x : Exchange) (c : Commitment) (p : ClientProof)
      (certificate : String) (identity : Identity) (r iv iv' : Fixed 16),
      let shared := { x with nonce1 := d.nonce1 }
      exists body next,
        Stage.requestRegistration (ofRandom r) identity iv
          (.caVerified shared c p (d.reply shared p iv') certificate) = .ok (body, next) ∧
        d.register (d.link shared) (d.caResponse shared p iv') body =
          some (ofRandom r, identity.publicText)) := by
  refine ⟨isVersion4_ofRandom, ofRandom_eq_iff, ?_⟩
  intro d x c p certificate identity r iv iv' shared
  have hid := isVersion4_ofRandom r
  exact ⟨_, _, rfl, d.register_registrationRequest shared rfl p hid.length_eq hid.ascii identity
    iv iv'⟩

end ClientId
end PaperPairing
