import PaperPairing.Bytes.Basic

/-!
# AES with 128-bit keys

The block cipher of FIPS 197.  A block is four columns of four bytes.  Every
layer of a round is an explicit map of columns with an explicit inverse, and
deciphering walks the same round keys from the last to the first.
-/

namespace PaperPairing
namespace Aes128

/-- Four bytes, from the top row down. -/
structure Column where
  (b0 b1 b2 b3 : UInt8)
deriving DecidableEq

/-- Four columns, from left to right. -/
structure Block where
  (c0 c1 c2 c3 : Column)
deriving DecidableEq

namespace Column

def map (f : UInt8 -> UInt8) (c : Column) : Column :=
  ⟨f c.b0, f c.b1, f c.b2, f c.b3⟩

def xor (c d : Column) : Column :=
  ⟨c.b0 ^^^ d.b0, c.b1 ^^^ d.b1, c.b2 ^^^ d.b2, c.b3 ^^^ d.b3⟩

end Column

namespace Block

def map (f : UInt8 -> UInt8) (s : Block) : Block :=
  ⟨s.c0.map f, s.c1.map f, s.c2.map f, s.c3.map f⟩

def mapColumns (f : Column -> Column) (s : Block) : Block :=
  ⟨f s.c0, f s.c1, f s.c2, f s.c3⟩

def xor (s t : Block) : Block :=
  ⟨s.c0.xor t.c0, s.c1.xor t.c1, s.c2.xor t.c2, s.c3.xor t.c3⟩

def toBytes (s : Block) : Bytes :=
  [s.c0.b0, s.c0.b1, s.c0.b2, s.c0.b3, s.c1.b0, s.c1.b1, s.c1.b2, s.c1.b3,
   s.c2.b0, s.c2.b1, s.c2.b2, s.c2.b3, s.c3.b0, s.c3.b1, s.c3.b2, s.c3.b3]

/-- The block that the first sixteen bytes of a string make up, and the rest. -/
def split? : Bytes -> Option (Block × Bytes)
  | a0 :: a1 :: a2 :: a3 :: b0 :: b1 :: b2 :: b3 ::
      c0 :: c1 :: c2 :: c3 :: d0 :: d1 :: d2 :: d3 :: rest =>
      some (⟨⟨a0, a1, a2, a3⟩, ⟨b0, b1, b2, b3⟩, ⟨c0, c1, c2, c3⟩, ⟨d0, d1, d2, d3⟩⟩, rest)
  | _ => none

def zero : Block :=
  ⟨⟨0, 0, 0, 0⟩, ⟨0, 0, 0, 0⟩, ⟨0, 0, 0, 0⟩, ⟨0, 0, 0, 0⟩⟩

def ofFixed (b : Fixed 16) : Block :=
  match split? b.bytes with
  | some (s, _) => s
  | none => zero

@[simp] theorem length_toBytes (s : Block) : s.toBytes.length = 16 := rfl

@[simp] theorem split?_toBytes (s : Block) (rest : Bytes) :
    split? (s.toBytes ++ rest) = some (s, rest) := rfl

theorem eq_of_split? {b rest : Bytes} {s : Block} (h : split? b = some (s, rest)) :
    b = s.toBytes ++ rest := by
  unfold split? at h
  split at h
  · cases h
    rfl
  · cases h

theorem length_of_split? {b rest : Bytes} {s : Block} (h : split? b = some (s, rest)) :
    b.length = 16 + rest.length := by
  rw [eq_of_split? h, List.length_append, length_toBytes]

end Block

/-!
## The substitution
-/

def substitutionTable : Array UInt8 :=
  #[0x63, 0x7c, 0x77, 0x7b, 0xf2, 0x6b, 0x6f, 0xc5, 0x30, 0x01, 0x67, 0x2b,
    0xfe, 0xd7, 0xab, 0x76, 0xca, 0x82, 0xc9, 0x7d, 0xfa, 0x59, 0x47, 0xf0,
    0xad, 0xd4, 0xa2, 0xaf, 0x9c, 0xa4, 0x72, 0xc0, 0xb7, 0xfd, 0x93, 0x26,
    0x36, 0x3f, 0xf7, 0xcc, 0x34, 0xa5, 0xe5, 0xf1, 0x71, 0xd8, 0x31, 0x15,
    0x04, 0xc7, 0x23, 0xc3, 0x18, 0x96, 0x05, 0x9a, 0x07, 0x12, 0x80, 0xe2,
    0xeb, 0x27, 0xb2, 0x75, 0x09, 0x83, 0x2c, 0x1a, 0x1b, 0x6e, 0x5a, 0xa0,
    0x52, 0x3b, 0xd6, 0xb3, 0x29, 0xe3, 0x2f, 0x84, 0x53, 0xd1, 0x00, 0xed,
    0x20, 0xfc, 0xb1, 0x5b, 0x6a, 0xcb, 0xbe, 0x39, 0x4a, 0x4c, 0x58, 0xcf,
    0xd0, 0xef, 0xaa, 0xfb, 0x43, 0x4d, 0x33, 0x85, 0x45, 0xf9, 0x02, 0x7f,
    0x50, 0x3c, 0x9f, 0xa8, 0x51, 0xa3, 0x40, 0x8f, 0x92, 0x9d, 0x38, 0xf5,
    0xbc, 0xb6, 0xda, 0x21, 0x10, 0xff, 0xf3, 0xd2, 0xcd, 0x0c, 0x13, 0xec,
    0x5f, 0x97, 0x44, 0x17, 0xc4, 0xa7, 0x7e, 0x3d, 0x64, 0x5d, 0x19, 0x73,
    0x60, 0x81, 0x4f, 0xdc, 0x22, 0x2a, 0x90, 0x88, 0x46, 0xee, 0xb8, 0x14,
    0xde, 0x5e, 0x0b, 0xdb, 0xe0, 0x32, 0x3a, 0x0a, 0x49, 0x06, 0x24, 0x5c,
    0xc2, 0xd3, 0xac, 0x62, 0x91, 0x95, 0xe4, 0x79, 0xe7, 0xc8, 0x37, 0x6d,
    0x8d, 0xd5, 0x4e, 0xa9, 0x6c, 0x56, 0xf4, 0xea, 0x65, 0x7a, 0xae, 0x08,
    0xba, 0x78, 0x25, 0x2e, 0x1c, 0xa6, 0xb4, 0xc6, 0xe8, 0xdd, 0x74, 0x1f,
    0x4b, 0xbd, 0x8b, 0x8a, 0x70, 0x3e, 0xb5, 0x66, 0x48, 0x03, 0xf6, 0x0e,
    0x61, 0x35, 0x57, 0xb9, 0x86, 0xc1, 0x1d, 0x9e, 0xe1, 0xf8, 0x98, 0x11,
    0x69, 0xd9, 0x8e, 0x94, 0x9b, 0x1e, 0x87, 0xe9, 0xce, 0x55, 0x28, 0xdf,
    0x8c, 0xa1, 0x89, 0x0d, 0xbf, 0xe6, 0x42, 0x68, 0x41, 0x99, 0x2d, 0x0f,
    0xb0, 0x54, 0xbb, 0x16]

def inverseTable : Array UInt8 :=
  #[0x52, 0x09, 0x6a, 0xd5, 0x30, 0x36, 0xa5, 0x38, 0xbf, 0x40, 0xa3, 0x9e,
    0x81, 0xf3, 0xd7, 0xfb, 0x7c, 0xe3, 0x39, 0x82, 0x9b, 0x2f, 0xff, 0x87,
    0x34, 0x8e, 0x43, 0x44, 0xc4, 0xde, 0xe9, 0xcb, 0x54, 0x7b, 0x94, 0x32,
    0xa6, 0xc2, 0x23, 0x3d, 0xee, 0x4c, 0x95, 0x0b, 0x42, 0xfa, 0xc3, 0x4e,
    0x08, 0x2e, 0xa1, 0x66, 0x28, 0xd9, 0x24, 0xb2, 0x76, 0x5b, 0xa2, 0x49,
    0x6d, 0x8b, 0xd1, 0x25, 0x72, 0xf8, 0xf6, 0x64, 0x86, 0x68, 0x98, 0x16,
    0xd4, 0xa4, 0x5c, 0xcc, 0x5d, 0x65, 0xb6, 0x92, 0x6c, 0x70, 0x48, 0x50,
    0xfd, 0xed, 0xb9, 0xda, 0x5e, 0x15, 0x46, 0x57, 0xa7, 0x8d, 0x9d, 0x84,
    0x90, 0xd8, 0xab, 0x00, 0x8c, 0xbc, 0xd3, 0x0a, 0xf7, 0xe4, 0x58, 0x05,
    0xb8, 0xb3, 0x45, 0x06, 0xd0, 0x2c, 0x1e, 0x8f, 0xca, 0x3f, 0x0f, 0x02,
    0xc1, 0xaf, 0xbd, 0x03, 0x01, 0x13, 0x8a, 0x6b, 0x3a, 0x91, 0x11, 0x41,
    0x4f, 0x67, 0xdc, 0xea, 0x97, 0xf2, 0xcf, 0xce, 0xf0, 0xb4, 0xe6, 0x73,
    0x96, 0xac, 0x74, 0x22, 0xe7, 0xad, 0x35, 0x85, 0xe2, 0xf9, 0x37, 0xe8,
    0x1c, 0x75, 0xdf, 0x6e, 0x47, 0xf1, 0x1a, 0x71, 0x1d, 0x29, 0xc5, 0x89,
    0x6f, 0xb7, 0x62, 0x0e, 0xaa, 0x18, 0xbe, 0x1b, 0xfc, 0x56, 0x3e, 0x4b,
    0xc6, 0xd2, 0x79, 0x20, 0x9a, 0xdb, 0xc0, 0xfe, 0x78, 0xcd, 0x5a, 0xf4,
    0x1f, 0xdd, 0xa8, 0x33, 0x88, 0x07, 0xc7, 0x31, 0xb1, 0x12, 0x10, 0x59,
    0x27, 0x80, 0xec, 0x5f, 0x60, 0x51, 0x7f, 0xa9, 0x19, 0xb5, 0x4a, 0x0d,
    0x2d, 0xe5, 0x7a, 0x9f, 0x93, 0xc9, 0x9c, 0xef, 0xa0, 0xe0, 0x3b, 0x4d,
    0xae, 0x2a, 0xf5, 0xb0, 0xc8, 0xeb, 0xbb, 0x3c, 0x83, 0x53, 0x99, 0x61,
    0x17, 0x2b, 0x04, 0x7e, 0xba, 0x77, 0xd6, 0x26, 0xe1, 0x69, 0x14, 0x63,
    0x55, 0x21, 0x0c, 0x7d]

def substitute (x : UInt8) : UInt8 :=
  substitutionTable.getD x.toNat 0

def invSubstitute (x : UInt8) : UInt8 :=
  inverseTable.getD x.toNat 0

/-!
## Rows and columns
-/

/-- Row `i` moves `i` places to the left. -/
def shiftRows (s : Block) : Block :=
  ⟨⟨s.c0.b0, s.c1.b1, s.c2.b2, s.c3.b3⟩, ⟨s.c1.b0, s.c2.b1, s.c3.b2, s.c0.b3⟩,
   ⟨s.c2.b0, s.c3.b1, s.c0.b2, s.c1.b3⟩, ⟨s.c3.b0, s.c0.b1, s.c1.b2, s.c2.b3⟩⟩

/-- Row `i` moves `i` places to the right. -/
def invShiftRows (s : Block) : Block :=
  ⟨⟨s.c0.b0, s.c3.b1, s.c2.b2, s.c1.b3⟩, ⟨s.c1.b0, s.c0.b1, s.c3.b2, s.c2.b3⟩,
   ⟨s.c2.b0, s.c1.b1, s.c0.b2, s.c3.b3⟩, ⟨s.c3.b0, s.c2.b1, s.c1.b2, s.c0.b3⟩⟩

@[simp] theorem invShiftRows_shiftRows (s : Block) : invShiftRows (shiftRows s) = s := rfl

@[simp] theorem shiftRows_invShiftRows (s : Block) : shiftRows (invShiftRows s) = s := rfl

/-- Multiplication by two in the field of 256 elements, reduced by
`x ^ 8 + x ^ 4 + x ^ 3 + x + 1`. -/
def double (x : UInt8) : UInt8 :=
  (x <<< 1) ^^^ (if x < 0x80 then 0 else 0x1B)

def mixColumn (c : Column) : Column :=
  ⟨double c.b0 ^^^ (double c.b1 ^^^ c.b1) ^^^ c.b2 ^^^ c.b3,
   c.b0 ^^^ double c.b1 ^^^ (double c.b2 ^^^ c.b2) ^^^ c.b3,
   c.b0 ^^^ c.b1 ^^^ double c.b2 ^^^ (double c.b3 ^^^ c.b3),
   (double c.b0 ^^^ c.b0) ^^^ c.b1 ^^^ c.b2 ^^^ double c.b3⟩

def times9 (x : UInt8) : UInt8 :=
  double (double (double x)) ^^^ x

def times11 (x : UInt8) : UInt8 :=
  double (double (double x)) ^^^ double x ^^^ x

def times13 (x : UInt8) : UInt8 :=
  double (double (double x)) ^^^ double (double x) ^^^ x

def times14 (x : UInt8) : UInt8 :=
  double (double (double x)) ^^^ double (double x) ^^^ double x

def invMixColumn (c : Column) : Column :=
  ⟨times14 c.b0 ^^^ times11 c.b1 ^^^ times13 c.b2 ^^^ times9 c.b3,
   times9 c.b0 ^^^ times14 c.b1 ^^^ times11 c.b2 ^^^ times13 c.b3,
   times13 c.b0 ^^^ times9 c.b1 ^^^ times14 c.b2 ^^^ times11 c.b3,
   times11 c.b0 ^^^ times13 c.b1 ^^^ times9 c.b2 ^^^ times14 c.b3⟩

/-!
## Round keys
-/

def roundConstants : List UInt8 :=
  [0x01, 0x02, 0x04, 0x08, 0x10, 0x20, 0x40, 0x80, 0x1B, 0x36]

/-- The last column of a round key, turned by one byte, substituted and
marked with the constant of the round. -/
def keyCore (constant : UInt8) (c : Column) : Column :=
  ⟨substitute c.b1 ^^^ constant, substitute c.b2, substitute c.b3, substitute c.b0⟩

def nextRoundKey (constant : UInt8) (k : Block) : Block :=
  let c0 := k.c0.xor (keyCore constant k.c3)
  let c1 := k.c1.xor c0
  let c2 := k.c2.xor c1
  ⟨c0, c1, c2, k.c3.xor c2⟩

def roundKeysFrom (k : Block) : List UInt8 -> List Block
  | [] => [k]
  | constant :: rest => k :: roundKeysFrom (nextRoundKey constant k) rest

def roundKeys (key : Fixed 16) : List Block :=
  roundKeysFrom (Block.ofFixed key) roundConstants

/-!
## Blocks
-/

/-- The rounds that follow the first key: the last one leaves the columns
unmixed. -/
def encipherRounds : List Block -> Block -> Block
  | [], s => s
  | [k], s => (shiftRows (s.map substitute)).xor k
  | k :: rest, s =>
      encipherRounds rest (((shiftRows (s.map substitute)).mapColumns mixColumn).xor k)

/-- The inverse of the rounds, from the last key to the first. -/
def decipherRounds : List Block -> Block -> Block
  | [], s => s
  | [k], s => (invShiftRows (s.xor k)).map invSubstitute
  | k :: rest, s =>
      (invShiftRows (((decipherRounds rest s).xor k).mapColumns invMixColumn)).map
        invSubstitute

def encipher : List Block -> Block -> Block
  | [], s => s
  | k :: rest, s => encipherRounds rest (s.xor k)

def decipher : List Block -> Block -> Block
  | [], s => s
  | k :: rest, s => (decipherRounds rest s).xor k

end Aes128
end PaperPairing
