import PaperPairing.Bytes.Basic

/-!
# DER elements

An element is a tag, the length of its content and the content.  Each reader
accepts only the form that the writer gives, so an element has one spelling.
-/

namespace PaperPairing
namespace Der

/-!
## Tags
-/

def integerTag : UInt8 := 0x02
def bitStringTag : UInt8 := 0x03
def octetStringTag : UInt8 := 0x04
def nullTag : UInt8 := 0x05
def objectIdentifierTag : UInt8 := 0x06
def sequenceTag : UInt8 := 0x30

def universalTags : List UInt8 :=
  [0x01, 0x02, 0x03, 0x04, 0x05, 0x06, 0x09, 0x0A, 0x0C, 0x12, 0x13, 0x14, 0x15, 0x16,
   0x17, 0x18, 0x1A, 0x1E, 0x30, 0x31]

/-- Tags of one byte: a universal one, or a number below 31 in another class. -/
def isTag (t : UInt8) : Bool :=
  if t < 0x40 then universalTags.contains t else t % 32 ≠ 31

def isContextTag (t : UInt8) : Bool :=
  0x80 ≤ t && t < 0xC0 && isTag t

def isConstructed (t : UInt8) : Bool :=
  t &&& 0x20 ≠ 0

/-!
## Lengths
-/

/-- Lengths up to 127 are one byte; longer ones are led by the number of their
bytes. -/
def encodeLength (n : Nat) : Bytes :=
  if n < 128 then [UInt8.ofNat n]
  else UInt8.ofNat (128 + (Bytes.minimal n).length) :: Bytes.minimal n

def readLength? : Bytes -> Option (Nat × Bytes)
  | [] => none
  | x :: rest =>
      if x < 0x80 then some (x.toNat, rest)
      else
        let digits := rest.take (x.toNat - 128)
        let n := Bytes.toNat digits
        if encodeLength n = x :: digits then some (n, rest.drop (x.toNat - 128)) else none

/-!
## Elements
-/

def element (tag : UInt8) (content : Bytes) : Bytes :=
  tag :: encodeLength content.length ++ content

def readElement? : Bytes -> Option (UInt8 × Bytes × Bytes)
  | [] => none
  | tag :: rest =>
      match readLength? rest with
      | none => none
      | some (n, body) =>
          if isTag tag && n ≤ body.length then some (tag, body.take n, body.drop n) else none

theorem length_lt_of_readLength? {b rest : Bytes} {n : Nat}
    (h : readLength? b = some (n, rest)) : rest.length < b.length := by
  unfold readLength? at h
  split at h
  · cases h
  · next x tail =>
      split at h
      · rcases Prod.mk.inj (Option.some.inj h) with ⟨_, hrest⟩
        rw [← hrest]
        exact Nat.lt_succ_self _
      · simp only at h
        split at h
        · rcases Prod.mk.inj (Option.some.inj h) with ⟨_, hrest⟩
          rw [← hrest, List.length_drop, List.length_cons]
          omega
        · cases h

theorem length_lt_of_readElement? {b content rest : Bytes} {tag : UInt8}
    (h : readElement? b = some (tag, content, rest)) : rest.length < b.length := by
  unfold readElement? at h
  split at h
  · cases h
  · next t tail =>
      split at h
      · cases h
      · next n body hlength =>
          have hshorter := length_lt_of_readLength? hlength
          split at h
          · cases h
            rw [List.length_drop, List.length_cons]
            omega
          · cases h

def expect? (tag : UInt8) (b : Bytes) : Option (Bytes × Bytes) :=
  match readElement? b with
  | some (t, content, rest) => if t = tag then some (content, rest) else none
  | none => none

def only? (tag : UInt8) (b : Bytes) : Option Bytes :=
  match expect? tag b with
  | some (content, []) => some content
  | _ => none

/-!
## Documents
-/

/-- The most bytes that a document may have as a whole: a length field holds no more. -/
def maxLength : Nat := 0xFFFFFFF

def document? (b : Bytes) : Option Bytes :=
  if b.length ≤ maxLength then some b else none

/-!
## Integers
-/

/-- The content of an integer that is not negative: a zero byte keeps the top
bit clear. -/
def unsignedContent (n : Nat) : Bytes :=
  match Bytes.minimal n with
  | [] => [0]
  | x :: rest => if x < 0x80 then x :: rest else 0 :: x :: rest

def integer (n : Nat) : Bytes :=
  element integerTag (unsignedContent n)

def readInteger? (b : Bytes) : Option (Nat × Bytes) := do
  let (content, rest) ← expect? integerTag b
  if unsignedContent (Bytes.toNat content) = content then
    some (Bytes.toNat content, rest)
  else
    none

def readIntegers? : (count : Nat) -> Bytes -> Option (List Nat)
  | 0, [] => some []
  | 0, _ :: _ => none
  | count + 1, b => do
      let (n, rest) ← readInteger? b
      return n :: (← readIntegers? count rest)

end Der
end PaperPairing
