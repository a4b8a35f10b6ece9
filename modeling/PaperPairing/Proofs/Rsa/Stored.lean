import PaperPairing.Proofs.Der.Elements
import PaperPairing.Rsa.Key

/-!
# Stored keys read back

A sound key is read from any of its stored forms: whatever numbers stand in the places of
the values for faster arithmetic, and whatever fields follow that may follow a key.  The
form that is written is one of them.
-/

namespace PaperPairing
namespace Rsa

/-- The values stored for faster arithmetic: an exponent for each factor, and the
inverse of the second factor. -/
structure Shortcuts where
  exponent1 : Nat
  exponent2 : Nat
  coefficient : Nat

namespace Key

def shortcuts (k : Key) (coefficient : Nat) : Shortcuts :=
  ⟨k.privateExponent % (k.prime1 - 1), k.privateExponent % (k.prime2 - 1), coefficient⟩

def storedContent (k : Key) (c : Shortcuts) : Bytes :=
  [0, k.modulus, k.publicExponent, k.privateExponent, k.prime1, k.prime2,
    c.exponent1, c.exponent2, c.coefficient].flatMap Der.integer

def storedInfo (k : Key) (c : Shortcuts) (version : Nat) (tail : Bytes) : Bytes :=
  Der.element Der.sequenceTag
    (Der.integer version ++ (algorithm ++ (Der.element Der.octetStringTag
      (Der.element Der.sequenceTag (k.storedContent c)) ++ tail)))

/-!
## Reading
-/

variable {k : Key} {c : Shortcuts}

theorem readPrivateKey?_storedContent (hsound : k.isSound = true)
    (hlength : (k.storedContent c).length ≤ Der.maxLength) :
    readPrivateKey? (Der.element Der.sequenceTag (k.storedContent c)) = some k := by
  have hnumbers := Der.readIntegers?_integers hlength
  rw [readPrivateKey?, Der.only?_element (by decide) hlength, Option.bind_eq_bind,
    Option.bind_some, storedContent]
  simp only [List.length_cons, List.length_nil, Nat.zero_add, Nat.reduceAdd] at hnumbers
  rw [hnumbers, Option.bind_eq_bind, Option.bind_some]
  exact if_pos hsound

theorem readPrivateInfo?_storedInfo {version : Nat} {tail : Bytes}
    (hsound : k.isSound = true) (htail : isTail version tail = true)
    (hlength : (k.storedInfo c version tail).length ≤ Der.maxLength) :
    readPrivateInfo? (k.storedInfo c version tail) = some k := by
  have hwhole := Nat.le_trans (Der.length_le_length_element _ _) hlength
  have hparts := hwhole
  simp only [List.length_append] at hparts
  have hversion : (Der.integer version).length ≤ Der.maxLength := by omega
  have halgorithm : algorithmContent.length ≤ Der.maxLength := by decide
  have hinner : (Der.element Der.sequenceTag (k.storedContent c)).length ≤ Der.maxLength :=
    Nat.le_trans (Der.length_le_length_element Der.octetStringTag _) (by omega)
  have hcontent := Nat.le_trans (Der.length_le_length_element _ _) hinner
  rw [readPrivateInfo?, Der.document?, if_pos hlength, storedInfo]
  simp only [Option.bind_eq_bind, Option.bind_some]
  rw [Der.only?_element (by decide) hwhole, Option.bind_some,
    Der.readInteger?_integer hversion, Option.bind_some, algorithm,
    Der.expect?_element (by decide) halgorithm, Option.bind_some,
    Der.expect?_element (by decide) hinner, Option.bind_some]
  simp only [decide_true, htail, Bool.and_self, if_true]
  exact readPrivateKey?_storedContent hsound hcontent

/-!
## Writing
-/

theorem length_tail_le_length_storedInfo (k : Key) (c : Shortcuts) (version : Nat)
    (tail : Bytes) : tail.length ≤ (k.storedInfo c version tail).length := by
  refine Nat.le_trans ?_ (Der.length_le_length_element _ _)
  simp only [List.length_append]
  omega

/-- A written key has the values that belong to it, no further fields and the length of
a document at most. -/
theorem eq_storedInfo_of_privateInfo? {info : Bytes} (h : k.privateInfo? = some info) :
    exists coefficient, inverse? k.prime2 k.prime1 = some coefficient ∧
      info = k.storedInfo (k.shortcuts coefficient) 0 [] ∧ info.length ≤ Der.maxLength := by
  rcases Option.bind_eq_some_iff.mp h with ⟨coefficient, hcoefficient, hdocument⟩
  rw [Der.document?, Option.ite_none_right_eq_some] at hdocument
  rcases hdocument with ⟨hlength, hinfo⟩
  have hform : info = k.storedInfo (k.shortcuts coefficient) 0 [] := by
    rw [← Option.some.inj hinfo, storedInfo, List.append_nil, List.append_assoc]
    rfl
  exact ⟨coefficient, hcoefficient, hform, by rwa [← Option.some.inj hinfo]⟩

theorem readPrivateInfo?_of_privateInfo? {info : Bytes} (hsound : k.isSound = true)
    (h : k.privateInfo? = some info) : readPrivateInfo? info = some k := by
  rcases eq_storedInfo_of_privateInfo? h with ⟨_, -, rfl, hlength⟩
  have htail : isTail 0 [] = true := by
    simp [isTail, skipAttributes?, areExtensions]
  exact readPrivateInfo?_storedInfo hsound htail hlength

end Key

/-!
## Attributes
-/

def attributes (content : Bytes) : Bytes :=
  Der.element 0xA0 content

theorem skipAttributes?_attributes {contents : List Bytes}
    (h : (contents.flatMap attributes).length ≤ Der.maxLength) :
    skipAttributes? (contents.flatMap attributes) = some [] := by
  induction contents with
  | nil => simp [skipAttributes?]
  | cons content contents ih =>
      rw [List.flatMap_cons, List.length_append] at h
      have hcontent : content.length ≤ Der.maxLength :=
        Nat.le_trans (Der.length_le_length_element 0xA0 content)
          (Nat.le_trans (Nat.le_add_right _ _) h)
      have hread := Der.readElement?_element (by decide : Der.isTag 0xA0 = true) hcontent
        (contents.flatMap attributes)
      have hrest := ih (Nat.le_trans (Nat.le_add_left _ _) h)
      rw [List.flatMap_cons, attributes, skipAttributes?, if_pos (.inr rfl)]
      split
      next found =>
        rw [hread] at found
        cases found
        exact hrest
      next found =>
        rw [hread] at found
        cases found

theorem isTail_attributes {contents : List Bytes}
    (h : (contents.flatMap attributes).length ≤ Der.maxLength) :
    isTail 0 (contents.flatMap attributes) = true := by
  rw [isTail, skipAttributes?_attributes h]
  simp [areExtensions]

end Rsa
end PaperPairing
