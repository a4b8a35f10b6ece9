import PaperPairing.Transcript

/-!
# Tags pin down a transcript

Tags are over fields that are joined without separators.  All fields of a tag
but one have a fixed length, so a joined message splits in one way only, and
two sides with one tag have the same fields, unless their messages collide.  No
assumption is made on the keyed hash: a collision is named by its two messages.
-/

namespace PaperPairing

/-!
## Collisions
-/

/-- Two different messages with one tag. -/
def Hmac.Collide (key a b : Bytes) : Prop :=
  a ≠ b ∧ Hmac.tag key a = Hmac.tag key b

theorem Hmac.eq_or_collide {key a b : Bytes} (h : tag key a = tag key b) :
    a = b ∨ Collide key a b := by
  by_cases heq : a = b
  · exact .inl heq
  · exact .inr ⟨heq, h⟩

namespace Transcript

/-!
## Views

What one side has sent and received up to the certificate response.
-/

@[ext] structure View where
  nonce1 : Nonce
  mac : Bytes
  yb : Fixed 256
  nonce2 : Nonce
  ya : Fixed 257
  eHash : Tag
  rHash : Tag
  wrappedSecret : Fixed 48
  wrappedCertificate : Bytes
deriving DecidableEq

/-- The tags of a view, each but the first over the one before it. -/
inductive Knot where
  | h2
  | m3
  | m4
  | m5
deriving DecidableEq

namespace View

def h2 (key : Bytes) (v : View) : Tag :=
  Transcript.h2 key v.nonce1.bytes v.mac v.yb.bytes v.nonce2.bytes v.ya.bytes

def m3 (key : Bytes) (v : View) : Tag :=
  Transcript.m3 key v.nonce1.bytes v.nonce2.bytes v.mac v.ya.bytes (v.h2 key).bytes
    v.eHash.bytes

def m4 (key : Bytes) (v : View) : Tag :=
  Transcript.m4 key v.nonce2.bytes v.eHash.bytes (v.m3 key).bytes v.nonce1.bytes
    v.rHash.bytes v.wrappedSecret.bytes

def m5 (key : Bytes) (v : View) : Tag :=
  Transcript.m5 key v.nonce1.bytes v.rHash.bytes v.wrappedSecret.bytes (v.m4 key).bytes
    v.nonce2.bytes v.wrappedCertificate

def tag (key : Bytes) (v : View) : Knot -> Tag
  | .h2 => v.h2 key
  | .m3 => v.m3 key
  | .m4 => v.m4 key
  | .m5 => v.m5 key

def fields (key : Bytes) (v : View) : Knot -> List Bytes
  | .h2 => [v.nonce1.bytes, v.mac, v.yb.bytes, v.nonce1.bytes, v.nonce2.bytes, v.mac,
      v.ya.bytes]
  | .m3 => [v.nonce1.bytes, v.nonce2.bytes, v.mac, v.ya.bytes, (v.h2 key).bytes,
      v.nonce2.bytes, v.eHash.bytes]
  | .m4 => [v.nonce2.bytes, v.eHash.bytes, (v.m3 key).bytes, v.nonce1.bytes, v.rHash.bytes,
      v.wrappedSecret.bytes]
  | .m5 => [v.nonce1.bytes, v.rHash.bytes, v.wrappedSecret.bytes, (v.m4 key).bytes,
      v.nonce2.bytes, v.wrappedCertificate]

def message (key : Bytes) (v : View) (k : Knot) : Bytes :=
  (v.fields key k).flatten

theorem tag_eq (key : Bytes) (v : View) (k : Knot) :
    v.tag key k = Hmac.tag key (v.message key k) := by
  cases k <;> rfl

/-!
## Messages split in one way
-/

variable {key : Bytes} {v w : View}

/-- The lengths of the fields follow from the length of the message, since at
most one of them varies. -/
theorem lengths_eq_of_message_eq {k : Knot} (h : v.message key k = w.message key k) :
    (v.fields key k).map List.length = (w.fields key k).map List.length := by
  have hlength := congrArg List.length h
  cases k <;>
    simp only [message, fields, List.flatten_cons, List.flatten_nil, List.length_append,
      List.length_nil, List.map_cons, List.map_nil, Fixed.length_bytes] at hlength ⊢
  · have hmac : v.mac.length = w.mac.length := by omega
    rw [hmac]
  · have hmac : v.mac.length = w.mac.length := by omega
    rw [hmac]
  · have hlast : v.wrappedCertificate.length = w.wrappedCertificate.length := by omega
    rw [hlast]

theorem fields_eq_of_message_eq {k : Knot} (h : v.message key k = w.message key k) :
    v.fields key k = w.fields key k :=
  List.eq_iff_flatten_eq.mpr ⟨h, lengths_eq_of_message_eq h⟩

theorem fields_eq_or_collide {k : Knot} (h : v.tag key k = w.tag key k) :
    v.fields key k = w.fields key k ∨
      Hmac.Collide key (v.message key k) (w.message key k) := by
  rw [tag_eq, tag_eq] at h
  rcases Hmac.eq_or_collide h with hmessage | hcollide
  · exact .inl (fields_eq_of_message_eq hmessage)
  · exact .inr hcollide

/-!
## The chain

Each tag is a field of the next one, so equality is carried back from the last
tag to the first.
-/

theorem agree_of_m5 (h : v.fields key .m5 = w.fields key .m5) :
    v.nonce1 = w.nonce1 ∧ v.rHash = w.rHash ∧ v.wrappedSecret = w.wrappedSecret ∧
      v.m4 key = w.m4 key ∧ v.nonce2 = w.nonce2 ∧
      v.wrappedCertificate = w.wrappedCertificate := by
  simp only [fields, List.cons.injEq, and_true] at h
  rcases h with ⟨hnonce1, hrHash, hsecret, hm4, hnonce2, hcertificate⟩
  exact ⟨Fixed.eq_of_bytes_eq hnonce1, Fixed.eq_of_bytes_eq hrHash,
    Fixed.eq_of_bytes_eq hsecret, Fixed.eq_of_bytes_eq hm4, Fixed.eq_of_bytes_eq hnonce2,
    hcertificate⟩

theorem agree_of_m4 (h : v.fields key .m4 = w.fields key .m4) :
    v.eHash = w.eHash ∧ v.m3 key = w.m3 key := by
  simp only [fields, List.cons.injEq] at h
  rcases h with ⟨-, heHash, hm3, -⟩
  exact ⟨Fixed.eq_of_bytes_eq heHash, Fixed.eq_of_bytes_eq hm3⟩

theorem agree_of_m3 (h : v.fields key .m3 = w.fields key .m3) :
    v.mac = w.mac ∧ v.ya = w.ya ∧ v.h2 key = w.h2 key := by
  simp only [fields, List.cons.injEq] at h
  rcases h with ⟨-, -, hmac, hya, hh2, -⟩
  exact ⟨hmac, Fixed.eq_of_bytes_eq hya, Fixed.eq_of_bytes_eq hh2⟩

theorem agree_of_h2 (h : v.fields key .h2 = w.fields key .h2) : v.yb = w.yb := by
  simp only [fields, List.cons.injEq] at h
  exact Fixed.eq_of_bytes_eq h.2.2.1

/-- Two views with the same last tag are the same, or two messages on the way
collide. -/
theorem eq_or_collide (h : v.m5 key = w.m5 key) :
    v = w ∨ exists k, Hmac.Collide key (v.message key k) (w.message key k) := by
  by_cases hcollide : exists k, Hmac.Collide key (v.message key k) (w.message key k)
  · exact .inr hcollide
  · refine .inl ?_
    have hfields : forall k, v.tag key k = w.tag key k -> v.fields key k = w.fields key k := by
      intro k htag
      exact (fields_eq_or_collide htag).resolve_right (fun hk => hcollide ⟨k, hk⟩)
    rcases agree_of_m5 (hfields .m5 h) with
      ⟨hnonce1, hrHash, hsecret, hm4, hnonce2, hcertificate⟩
    rcases agree_of_m4 (hfields .m4 hm4) with ⟨heHash, hm3⟩
    rcases agree_of_m3 (hfields .m3 hm3) with ⟨hmac, hya, hh2⟩
    have hyb := agree_of_h2 (hfields .h2 hh2)
    exact View.ext hnonce1 hmac hyb hnonce2 hya heHash hrHash hsecret hcertificate

end View
end Transcript
end PaperPairing
