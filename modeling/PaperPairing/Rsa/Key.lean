import PaperPairing.Der.Basic
import PaperPairing.Rsa.Inverse

/-!
# RSA keys

Private keys with two prime factors and their PKCS#8 form.  A key that is read
has to be consistent; that its factors are prime is not checked, and the values
stored for faster arithmetic are read over and computed anew on writing.
-/

namespace PaperPairing
namespace Rsa

structure Key where
  modulus : Nat
  publicExponent : Nat
  privateExponent : Nat
  prime1 : Nat
  prime2 : Nat
deriving DecidableEq

namespace Key

/-- The numbers of a key fit together: the modulus is the product of the
factors, the exponents undo each other modulo each factor, and the public
exponent is odd and has at most 33 bits. -/
def isSound (k : Key) : Bool :=
  k.publicExponent < k.modulus && k.modulus % 2 = 1 && k.publicExponent % 2 = 1 &&
    2 ≤ k.publicExponent && k.publicExponent < 0x200000000 &&
    1 < k.prime1 && 1 < k.prime2 && k.prime1 * k.prime2 = k.modulus &&
    k.publicExponent * k.privateExponent % (k.prime1 - 1) = 1 &&
    k.publicExponent * k.privateExponent % (k.prime2 - 1) = 1

end Key

/-!
## Writing
-/

/-- The content of the algorithm identifier: the object identifier of RSA
encryption and null parameters. -/
def algorithmContent : Bytes :=
  Der.element Der.objectIdentifierTag [0x2A, 0x86, 0x48, 0x86, 0xF7, 0x0D, 0x01, 0x01, 0x01] ++
    Der.element Der.nullTag []

def algorithm : Bytes :=
  Der.element Der.sequenceTag algorithmContent

namespace Key

def publicInfo (k : Key) : Bytes :=
  Der.element Der.sequenceTag
    (algorithm ++ Der.element Der.bitStringTag
      (0 :: Der.element Der.sequenceTag
        (Der.integer k.modulus ++ Der.integer k.publicExponent)))

/-- The private key of RFC 8017, given the inverse of the second factor modulo
the first. -/
def privateContent (k : Key) (coefficient : Nat) : Bytes :=
  [0, k.modulus, k.publicExponent, k.privateExponent, k.prime1, k.prime2,
    k.privateExponent % (k.prime1 - 1), k.privateExponent % (k.prime2 - 1),
    coefficient].flatMap Der.integer

/-- The PKCS#8 form; none if the second factor has no inverse modulo the first, or if
the form is too long for a document. -/
def privateInfo? (k : Key) : Option Bytes :=
  (inverse? k.prime2 k.prime1).bind (fun coefficient =>
    Der.document? (Der.element Der.sequenceTag
      (Der.integer 0 ++ algorithm ++ Der.element Der.octetStringTag
        (Der.element Der.sequenceTag (k.privateContent coefficient)))))

end Key

/-!
## Reading
-/

/-- The private key of RFC 8017: version 0 and eight numbers. -/
def readPrivateKey? (b : Bytes) : Option Key := do
  match ← Der.readIntegers? 9 (← Der.only? Der.sequenceTag b) with
  | [0, n, e, d, p, q, _, _, _] =>
      let k : Key := ⟨n, e, d, p, q⟩
      if k.isSound then some k else none
  | _ => none

/-- Skip fields with the context-specific number zero. -/
def skipAttributes? (b : Bytes) : Option Bytes :=
  if b.head? = some 0x80 ∨ b.head? = some 0xA0 then
    match _h : Der.readElement? b with
    | some (_, _, rest) => skipAttributes? rest
    | none => none
  else
    some b
termination_by b.length
decreasing_by exact Der.length_lt_of_readElement? _h

/-- A bit string of whole bytes: no bit of its last byte is unused. -/
def isWholeBitString (content : Bytes) : Bool :=
  content.head? = some 0

def isElement (b : Bytes) : Bool :=
  match Der.readElement? b with
  | some (_, _, []) => true
  | _ => false

/-- Context-specific fields that hold one element each. -/
def areExtensions (b : Bytes) : Bool :=
  if b = [] then true
  else
    match _h : Der.readElement? b with
    | some (tag, content, rest) =>
        Der.isContextTag tag && Der.isConstructed tag && isElement content &&
          areExtensions rest
    | none => false
termination_by b.length
decreasing_by exact Der.length_lt_of_readElement? _h

/-- The fields that may follow a private key: attributes, a public key exactly
if the version is 1, and extensions. -/
def isTail (version : Nat) (b : Bytes) : Bool :=
  match skipAttributes? b with
  | none => false
  | some rest =>
      if rest.head? = some 0x81 then
        match Der.expect? 0x81 rest with
        | some (content, more) => isWholeBitString content && version = 1 && areExtensions more
        | none => false
      else
        version = 0 && rest.head? ≠ some 0xA1 && areExtensions rest

def readPrivateInfo? (b : Bytes) : Option Key := do
  let content ← Der.only? Der.sequenceTag (← Der.document? b)
  let (version, rest) ← Der.readInteger? content
  let (algorithmGiven, rest) ← Der.expect? Der.sequenceTag rest
  let (inner, tail) ← Der.expect? Der.octetStringTag rest
  if algorithmGiven = algorithmContent && isTail version tail then readPrivateKey? inner
  else none

end Rsa
end PaperPairing
