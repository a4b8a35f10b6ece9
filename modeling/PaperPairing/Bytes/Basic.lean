/-!
# Byte strings

Byte strings are lists of bytes.  This module collects what the formats and
ciphers need of them: the number a string spells, strings of a given width,
and strings whose length is part of the type.
-/

namespace PaperPairing

abbrev Bytes := List UInt8

namespace Bytes

/-!
## Big-endian numbers
-/

/-- The number a byte string spells, most significant byte first. -/
def toNat (b : Bytes) : Nat :=
  b.foldl (fun n x => n * 256 + x.toNat) 0

/-- The last `width` digits of a number in base 256, most significant first. -/
def ofNat : Nat -> Nat -> Bytes
  | 0, _ => []
  | width + 1, n => ofNat width (n / 256) ++ [UInt8.ofNat n]

/-- The digits of a number in base 256 without a leading zero; zero itself is
one zero byte. -/
def minimal (n : Nat) : Bytes :=
  ofNat (n.log2 / 8 + 1) n

@[simp] theorem toNat_nil : toNat [] = 0 := rfl

theorem toNat_append_singleton (b : Bytes) (x : UInt8) :
    toNat (b ++ [x]) = toNat b * 256 + x.toNat := by
  simp [toNat]

@[simp] theorem length_ofNat (width n : Nat) : (ofNat width n).length = width := by
  induction width generalizing n with
  | zero => rfl
  | succ width ih => simp [ofNat, ih]

/-!
## Widths
-/

/-- Fill a short string up to `width` with zero bytes in front. -/
def padLeft (width : Nat) (b : Bytes) : Bytes :=
  List.replicate (width - b.length) 0 ++ b

theorem length_padLeft {width : Nat} {b : Bytes} (h : b.length ≤ width) :
    (padLeft width b).length = width := by
  simp [padLeft]
  omega

def xor (a b : Bytes) : Bytes :=
  List.zipWith (· ^^^ ·) a b

end Bytes

/-!
## Strings of a fixed length
-/

structure Fixed (n : Nat) where
  bytes : Bytes
  length_bytes : bytes.length = n
deriving DecidableEq

namespace Fixed

def ofBytes? (n : Nat) (b : Bytes) : Option (Fixed n) :=
  if h : b.length = n then some ⟨b, h⟩ else none

/-- The first `n` bytes of a string, followed by zero bytes where it is short. -/
def resize (n : Nat) (b : Bytes) : Fixed n :=
  ⟨(b ++ List.replicate n 0).take n, by simp⟩

theorem eq_of_bytes_eq {n : Nat} {x y : Fixed n} (h : x.bytes = y.bytes) : x = y := by
  cases x
  cases y
  cases h
  rfl

@[simp] theorem ofBytes?_bytes {n : Nat} (x : Fixed n) : ofBytes? n x.bytes = some x := by
  cases x with
  | mk b h => simp [ofBytes?, h]

theorem ofBytes?_eq_some_iff {n : Nat} {b : Bytes} {x : Fixed n} :
    ofBytes? n b = some x ↔ x.bytes = b := by
  constructor
  · intro h
    unfold ofBytes? at h
    split at h
    · cases h
      rfl
    · cases h
  · intro h
    subst h
    exact ofBytes?_bytes x

theorem ofBytes?_eq_none_iff {n : Nat} {b : Bytes} :
    ofBytes? n b = none ↔ b.length ≠ n := by
  simp [ofBytes?]

theorem bytes_resize_of_length {n : Nat} {b : Bytes} (h : b.length = n) :
    (resize n b).bytes = b := by
  subst h
  simp [resize]

end Fixed

end PaperPairing
