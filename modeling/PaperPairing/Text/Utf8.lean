import PaperPairing.Bytes.Basic
import PaperPairing.Text.Chunks

/-!
# UTF-8

A byte string is cut into units: each is a character, or a maximal ill-formed
piece that no character starts with.  Strict reading refuses ill-formed
pieces; lossy reading replaces each of them by U+FFFD.
-/

namespace PaperPairing
namespace Utf8

/-!
## Writing
-/

def encodeChars (cs : List Char) : Bytes :=
  cs.flatMap String.utf8EncodeChar

def encode (s : String) : Bytes :=
  encodeChars s.toList

/-!
## Reading
-/

def isTail (b : UInt8) : Bool :=
  0x80 ≤ b && b ≤ 0xBF

/-- The second bytes that may follow a first byte of a longer character: they
exclude overlong forms, surrogates and numbers above U+10FFFF. -/
def isSecond (first second : UInt8) : Bool :=
  if first = 0xE0 then 0xA0 ≤ second && second ≤ 0xBF
  else if first = 0xED then 0x80 ≤ second && second ≤ 0x9F
  else if first = 0xF0 then 0x90 ≤ second && second ≤ 0xBF
  else if first = 0xF4 then 0x80 ≤ second && second ≤ 0x8F
  else isTail second

def tailBits (b : UInt8) : Nat :=
  b.toNat % 64

/-- What a first byte begins: a character or an ill-formed piece, and how many
of the bytes after it belong to that. -/
def unit (a : UInt8) (rest : Bytes) : Option Char × Nat :=
  if a < 0x80 then
    (some (Char.ofNat a.toNat), 0)
  else if 0xC2 ≤ a && a ≤ 0xDF then
    match rest with
    | b :: _ =>
        if isTail b then (some (Char.ofNat (a.toNat % 32 * 64 + tailBits b)), 1)
        else (none, 0)
    | [] => (none, 0)
  else if 0xE0 ≤ a && a ≤ 0xEF then
    match rest with
    | b :: more =>
        if isSecond a b then
          match more with
          | c :: _ =>
              if isTail c then
                (some (Char.ofNat (a.toNat % 16 * 4096 + tailBits b * 64 + tailBits c)), 2)
              else (none, 1)
          | [] => (none, 1)
        else (none, 0)
    | [] => (none, 0)
  else if 0xF0 ≤ a && a ≤ 0xF4 then
    match rest with
    | b :: more =>
        if isSecond a b then
          match more with
          | c :: more =>
              if isTail c then
                match more with
                | d :: _ =>
                    if isTail d then
                      (some (Char.ofNat (a.toNat % 8 * 262144 + tailBits b * 4096
                        + tailBits c * 64 + tailBits d)), 3)
                    else (none, 2)
                | [] => (none, 2)
              else (none, 1)
          | [] => (none, 1)
        else (none, 0)
    | [] => (none, 0)
  else
    (none, 0)

/-- The units of a byte string; an ill-formed piece is `none`. -/
def units : Bytes -> List (Option Char)
  | [] => []
  | a :: rest => (unit a rest).1 :: units (rest.drop (unit a rest).2)
termination_by b => b.length
decreasing_by exact Text.length_drop_lt a rest _

def decodeChars? (b : Bytes) : Option (List Char) :=
  (units b).mapM id

def decode? (b : Bytes) : Option String :=
  (decodeChars? b).map String.ofList

/-- The characters of any byte string, ill-formed pieces replaced. -/
def decodeLossy (b : Bytes) : List Char :=
  (units b).map (fun c => c.getD '\uFFFD')

end Utf8
end PaperPairing
