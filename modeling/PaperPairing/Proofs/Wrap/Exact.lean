import PaperPairing.Error
import PaperPairing.Proofs.Cipher.Bijection
import PaperPairing.Proofs.Wrap
import PaperPairing.Text.Utf8

/-!
# The wrap is an exact code

A blob opens to some data if and only if it is the wrap of that data under the
initialisation vector at its own end.  So no second blob opens to the same data
under the same vector, and a blob that was changed in its ciphertext only, or in
its vector only, never opens to what it was made from.
-/

namespace PaperPairing
namespace Wrap

/-!
## The text under a blob
-/

def text? (keys : SessionKeys) (blob : Bytes) : Option Bytes := do
  let iv ← Fixed.ofBytes? 16 (blob.drop (blob.length - 16))
  Cbc.decrypt? keys.wrapKey iv (blob.take (blob.length - 16))

def tagged? (keys : SessionKeys) (text : Bytes) : Option Bytes :=
  if text.length < tagLength then none
  else
    let data := text.take (text.length - tagLength)
    if text.drop (text.length - tagLength) = check keys data then some data else none

theorem unwrap?_eq_bind (keys : SessionKeys) (blob : Bytes) :
    unwrap? keys blob = (text? keys blob).bind (tagged? keys) := by
  rw [unwrap?, text?]
  cases Fixed.ofBytes? 16 (blob.drop (blob.length - 16)) with
  | none => rfl
  | some iv => rfl

theorem tagged?_eq_some_iff {keys : SessionKeys} {text data : Bytes} :
    tagged? keys text = some data ↔ text = data ++ check keys data := by
  constructor
  · intro h
    rw [tagged?] at h
    split at h
    · cases h
    · rcases Option.ite_none_right_eq_some.mp h with ⟨htag, hdata⟩
      rw [← Option.some.inj hdata, ← htag, List.take_append_drop]
  · rintro rfl
    have hlength : (data ++ check keys data).length = data.length + tagLength := by
      rw [List.length_append, length_check, tagLength]
    rw [tagged?, hlength, Nat.add_sub_cancel, List.take_left, List.drop_left,
      if_neg (Nat.not_lt_of_le (Nat.le_add_left _ _)), if_pos rfl]

theorem text?_eq_some_iff {keys : SessionKeys} {blob text : Bytes} :
    text? keys blob = some text ↔
      exists iv : Fixed 16, iv.bytes = blob.drop (blob.length - 16) ∧
        blob.take (blob.length - 16) = Cbc.encrypt keys.wrapKey iv text := by
  rw [text?, Option.bind_eq_bind, Option.bind_eq_some_iff]
  simp only [Fixed.ofBytes?_eq_some_iff, Cbc.decrypt?_eq_some_iff]

theorem unwrap?_eq_some_iff_text? {keys : SessionKeys} {blob data : Bytes} :
    unwrap? keys blob = some data ↔ text? keys blob = some (data ++ check keys data) := by
  rw [unwrap?_eq_bind, Option.bind_eq_some_iff]
  simp only [tagged?_eq_some_iff, exists_eq_right]

/-!
## Exactness
-/

/-- The blob is the wrap of the data under its own last sixteen bytes. -/
def IsWrapOf (keys : SessionKeys) (data blob : Bytes) : Prop :=
  16 ≤ blob.length ∧ exists iv : Fixed 16,
    iv.bytes = blob.drop (blob.length - 16) ∧ blob = wrap keys iv data

theorem length_of_eq_drop {blob : Bytes} {iv : Fixed 16}
    (h : iv.bytes = blob.drop (blob.length - 16)) : 16 ≤ blob.length := by
  have hlength := iv.length_bytes
  rw [h, List.length_drop] at hlength
  omega

theorem take_drop_wrap (keys : SessionKeys) (iv : Fixed 16) (data : Bytes) :
    (wrap keys iv data).take ((wrap keys iv data).length - 16) =
        Cbc.encrypt keys.wrapKey iv (data ++ check keys data) ∧
      (wrap keys iv data).drop ((wrap keys iv data).length - 16) = iv.bytes := by
  have hcut : (wrap keys iv data).length - 16 =
      (Cbc.encrypt keys.wrapKey iv (data ++ check keys data)).length := by
    rw [wrap, List.length_append, iv.length_bytes, Nat.add_sub_cancel]
  rw [hcut, wrap, List.take_left, List.drop_left]
  exact ⟨rfl, rfl⟩

theorem unwrap?_eq_some_iff {keys : SessionKeys} {blob data : Bytes} :
    unwrap? keys blob = some data ↔ IsWrapOf keys data blob := by
  rw [unwrap?_eq_some_iff_text?, text?_eq_some_iff]
  constructor
  · rintro ⟨iv, hiv, htext⟩
    refine ⟨length_of_eq_drop hiv, iv, hiv, ?_⟩
    rw [wrap, ← htext, hiv, List.take_append_drop]
  · rintro ⟨-, iv, hiv, hblob⟩
    refine ⟨iv, hiv, ?_⟩
    rw [hblob]
    exact (take_drop_wrap keys iv data).1

/-!
## Slices in range

The same procedure, where the length of a blob is looked at first, every slice
could reach beyond its string, and the cipher could refuse its key.
-/

inductive Opening where
  | opened (data : Bytes)
  | refused (e : Error)
  | outOfRange
deriving DecidableEq

def cutLast? (n : Nat) (b : Bytes) : Option (Bytes × Bytes) :=
  if n ≤ b.length then some (b.take (b.length - n), b.drop (b.length - n)) else none

theorem cutLast?_of_le {n : Nat} {b : Bytes} (h : n ≤ b.length) :
    cutLast? n b = some (b.take (b.length - n), b.drop (b.length - n)) :=
  if_pos h

def openBlob (keys : SessionKeys) (blob : Bytes) : Opening :=
  if blob.length < 32 ∨ blob.length % 16 ≠ 0 then .refused .integrityCheckFailed
  else
    match cutLast? 16 blob with
    | none => .outOfRange
    | some (ciphertext, last) =>
        match Fixed.ofBytes? 16 keys.wrapKey.bytes, Fixed.ofBytes? 16 last with
        | some key, some iv =>
            match Cbc.decrypt? key iv ciphertext with
            | none => .refused .integrityCheckFailed
            | some text =>
                if text.length < tagLength then .refused .integrityCheckFailed
                else
                  match cutLast? tagLength text with
                  | none => .outOfRange
                  | some (data, tag) =>
                      if tag = check keys data then .opened data
                      else .refused .integrityCheckFailed
        | _, _ => .refused (.crypto (.encryption "Invalid key or IV: Invalid Length"))

def Opening.ofOption : Option Bytes -> Opening
  | some data => .opened data
  | none => .refused .integrityCheckFailed

theorem unwrap?_of_bad_length {keys : SessionKeys} {blob : Bytes}
    (h : blob.length < 32 ∨ blob.length % 16 ≠ 0) : unwrap? keys blob = none := by
  cases hopen : unwrap? keys blob with
  | none => rfl
  | some data =>
      rcases unwrap?_eq_some_iff.mp hopen with ⟨-, iv, -, hblob⟩
      have hlength := length_wrap keys iv data
      rw [← hblob] at hlength
      omega

theorem openBlob_eq (keys : SessionKeys) (blob : Bytes) :
    openBlob keys blob = .ofOption (unwrap? keys blob) := by
  rw [openBlob]
  split
  next hbad =>
    rw [unwrap?_of_bad_length hbad]
    rfl
  next hgood =>
    have hlong : 16 ≤ blob.length := by omega
    have hlast : (blob.drop (blob.length - 16)).length = 16 := by
      rw [List.length_drop]
      omega
    have hiv : Fixed.ofBytes? 16 (blob.drop (blob.length - 16)) =
        some ⟨blob.drop (blob.length - 16), hlast⟩ :=
      Fixed.ofBytes?_eq_some_iff.mpr rfl
    simp only [cutLast?_of_le hlong, Fixed.ofBytes?_bytes, hiv, unwrap?_eq_bind, text?,
      Option.bind_eq_bind, Option.bind_some]
    cases Cbc.decrypt? keys.wrapKey ⟨blob.drop (blob.length - 16), hlast⟩
        (blob.take (blob.length - 16)) with
    | none => rfl
    | some text =>
        rw [Option.bind_some, tagged?]
        by_cases hshort : text.length < tagLength
        · simp only [if_pos hshort]
          rfl
        · simp only [if_neg hshort, cutLast?_of_le (Nat.le_of_not_lt hshort)]
          by_cases htag : text.drop (text.length - tagLength) =
              check keys (text.take (text.length - tagLength))
          · rw [if_pos htag, if_pos htag]
            rfl
          · rw [if_neg htag, if_neg htag]
            rfl

/-!
## Tampering
-/

/-- Another string of the same length that agrees in front of the last sixteen
bytes, or in them. -/
structure DiffersInOnePart (blob other : Bytes) : Prop where
  ne : other ≠ blob
  length_eq : other.length = blob.length
  agrees : other.take (blob.length - 16) = blob.take (blob.length - 16) ∨
    other.drop (blob.length - 16) = blob.drop (blob.length - 16)

def flipBit (place bit : Nat) (b : Bytes) : Bytes :=
  b.modify place (· ^^^ (1 <<< UInt8.ofNat bit))

theorem xor_bit_ne (x : UInt8) {bit : Nat} (h : bit < 8) :
    x ^^^ (1 <<< UInt8.ofNat bit) ≠ x := by
  have hbit : forall n : Fin 8, (1 : UInt8) <<< UInt8.ofNat n.val ≠ 0 := by decide
  intro heq
  have hzero : x ^^^ (1 <<< UInt8.ofNat bit) = x ^^^ 0 := by rw [heq, UInt8.xor_zero]
  exact hbit ⟨bit, h⟩ ((UInt8.xor_right_inj x).mp hzero)

theorem differsInOnePart_flipBit {blob : Bytes} {place bit : Nat}
    (hplace : place < blob.length) (hbit : bit < 8) :
    DiffersInOnePart blob (flipBit place bit blob) := by
  constructor
  · intro h
    have hbyte := congrArg (fun b => b[place]?) h
    simp only [flipBit, List.getElem?_modify_eq, List.getElem?_eq_getElem hplace] at hbyte
    exact xor_bit_ne _ hbit (Option.some.inj hbyte)
  · rw [flipBit, List.length_modify]
  · by_cases hfront : place < blob.length - 16
    · exact .inr (List.drop_modify_of_lt _ _ _ _ hfront)
    · refine .inl ?_
      have hshort : (blob.take (blob.length - 16)).length ≤ place := by
        rw [List.length_take]
        omega
      rw [flipBit, List.take_modify, List.modify_eq_self hshort]

theorem eq_wrap_of_agrees {keys : SessionKeys} {iv : Fixed 16} {data other : Bytes}
    (hopen : unwrap? keys other = some data)
    (hlength : other.length = (wrap keys iv data).length)
    (hagrees : other.take ((wrap keys iv data).length - 16) =
        (wrap keys iv data).take ((wrap keys iv data).length - 16) ∨
      other.drop ((wrap keys iv data).length - 16) =
        (wrap keys iv data).drop ((wrap keys iv data).length - 16)) :
    other = wrap keys iv data := by
  rcases unwrap?_eq_some_iff.mp hopen with ⟨-, iv', -, hother⟩
  rcases take_drop_wrap keys iv data with ⟨hfront, hback⟩
  rcases take_drop_wrap keys iv' data with ⟨hfront', hback'⟩
  rw [← hother, hlength] at hfront' hback'
  rw [hfront, hback, hfront', hback'] at hagrees
  have hiv : iv' = iv := by
    rcases hagrees with hcipher | hlast
    · exact Cbc.iv_eq_of_encrypt_eq hcipher
    · exact Fixed.eq_of_bytes_eq hlast
  rw [hother, hiv]

theorem unwrap?_of_differsInOnePart {keys : SessionKeys} {iv : Fixed 16} {data other : Bytes}
    (h : DiffersInOnePart (wrap keys iv data) other) :
    unwrap? keys other = none ∨ exists data', data' ≠ data ∧ unwrap? keys other = some data' ∧
      text? keys other = some (data' ++ check keys data') := by
  cases hopen : unwrap? keys other with
  | none => exact .inl rfl
  | some data' =>
      refine .inr ⟨data', ?_, rfl, unwrap?_eq_some_iff_text?.mp hopen⟩
      rintro rfl
      exact h.ne (eq_wrap_of_agrees hopen h.length_eq h.agrees)

theorem openBlob_eq_opened_iff {keys : SessionKeys} {blob data : Bytes} :
    openBlob keys blob = .opened data ↔ unwrap? keys blob = some data := by
  rw [openBlob_eq]
  cases unwrap? keys blob with
  | none =>
      constructor
      · intro h
        cases h
      · intro h
        cases h
  | some data' => rw [Opening.ofOption, Opening.opened.injEq, Option.some.injEq]

theorem openBlob_eq_refused {keys : SessionKeys} {blob : Bytes} (h : unwrap? keys blob = none) :
    openBlob keys blob = .refused .integrityCheckFailed := by
  rw [openBlob_eq, h]
  rfl

/-- Whatever the keys are: exactly the wraps open, everything else fails the
check of integrity and nothing else; a wrap opens to its data, its length is that
of the padded text and the vector, and it ends with its vector; and what differs
from a wrap in its ciphertext only or in its vector only, by one bit or by more,
never opens to the same data. -/
theorem wrap_is_exact (keys : SessionKeys) :
    (forall blob, openBlob keys blob = .ofOption (unwrap? keys blob)) ∧
    (forall blob data, openBlob keys blob = .opened data ↔ IsWrapOf keys data blob) ∧
    (forall blob, (forall data, ¬ IsWrapOf keys data blob) ->
      openBlob keys blob = .refused .integrityCheckFailed) ∧
    (forall iv data,
      openBlob keys (wrap keys iv data) = .opened data ∧
      (wrap keys iv data).length = 16 * ((data.length + 8) / 16) + 32 ∧
      iv.bytes <:+ wrap keys iv data) ∧
    (forall iv data other, DiffersInOnePart (wrap keys iv data) other ->
      openBlob keys other ≠ .opened data ∧
      (openBlob keys other = .refused .integrityCheckFailed ∨
        exists data', data' ≠ data ∧ openBlob keys other = .opened data' ∧
          text? keys other = some (data' ++ check keys data'))) ∧
    (forall iv data place bit, place < (wrap keys iv data).length -> bit < 8 ->
      DiffersInOnePart (wrap keys iv data) (flipBit place bit (wrap keys iv data))) := by
  refine ⟨openBlob_eq keys, ?_, ?_, ?_, ?_, ?_⟩
  · intro blob data
    rw [openBlob_eq_opened_iff, unwrap?_eq_some_iff]
  · intro blob hnone
    apply openBlob_eq_refused
    cases hopen : unwrap? keys blob with
    | none => rfl
    | some data => exact (hnone data (unwrap?_eq_some_iff.mp hopen)).elim
  · intro iv data
    refine ⟨openBlob_eq_opened_iff.mpr (unwrap?_wrap keys iv data), length_wrap keys iv data, ?_⟩
    exact ⟨_, rfl⟩
  · intro iv data other hdiffers
    rcases unwrap?_of_differsInOnePart hdiffers with hnone | ⟨data', hne, hopen, htext⟩
    · have hrefused := openBlob_eq_refused hnone
      exact ⟨by rw [hrefused]; exact Opening.noConfusion, .inl hrefused⟩
    · have hopened := openBlob_eq_opened_iff.mpr hopen
      refine ⟨?_, .inr ⟨data', hne, hopened, htext⟩⟩
      rw [hopened]
      intro h
      exact hne (Opening.opened.inj h)
  · intro iv data place bit hplace hbit
    exact differsInOnePart_flipBit hplace hbit

def sampleKeys : SessionKeys :=
  ⟨⟨(List.range 32).map UInt8.ofNat, rfl⟩,
    ⟨(List.range 16).map (fun n => UInt8.ofNat (0x40 + n)), rfl⟩⟩

def sampleVector : Fixed 16 :=
  ⟨List.replicate 16 0x11, rfl⟩

/-- A client identifier, which fills two blocks and a part of a third. -/
def sampleData : Bytes :=
  Utf8.encode "0f4e8c1a-2b3d-4e5f-8a9b-0c1d2e3f4a5b"

def sampleBlob : Bytes :=
  wrap sampleKeys sampleVector sampleData

/-- The wrap of an identifier, which carries the head of its tag; the same with the first
bit of its ciphertext flipped, and with the last bit of its vector flipped; and no blob
at all. -/
theorem wrap_is_exact_on_samples :
    check sampleKeys sampleData = [0x42, 0x73, 0xE2, 0x57, 0xEF, 0x45, 0x4F, 0x25] ∧
      sampleBlob.length = 64 ∧
      openBlob sampleKeys sampleBlob = .opened sampleData ∧
      openBlob sampleKeys (flipBit 0 7 sampleBlob) ≠ .opened sampleData ∧
      openBlob sampleKeys (flipBit 63 0 sampleBlob) ≠ .opened sampleData ∧
      openBlob sampleKeys [] = .refused .integrityCheckFailed := by
  rcases wrap_is_exact sampleKeys with ⟨-, -, hother, hwrap, hpart, hflip⟩
  have hdata : sampleData.length = 36 := by decide +kernel
  have hlength : (wrap sampleKeys sampleVector sampleData).length = 64 := by
    rw [(hwrap _ _).2.1, hdata]
  refine ⟨by decide +kernel, hlength, (hwrap _ _).1, ?_, ?_, ?_⟩
  · refine (hpart _ _ _ (hflip sampleVector sampleData 0 7 ?_ (by decide))).1
    rw [hlength]
    decide
  · refine (hpart _ _ _ (hflip sampleVector sampleData 63 0 ?_ (by decide))).1
    rw [hlength]
    decide
  · apply hother
    rintro data ⟨hlong, -⟩
    exact absurd hlong (by decide)

end Wrap
end PaperPairing
