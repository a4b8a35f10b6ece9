import PaperPairing.Json.Value
import PaperPairing.Text.Utf8

/-!
# Strings in JSON

Between the quotes of a string stands an escaped text.  Writing escapes quotes,
backslashes and control characters, and nothing else; reading undoes every
escape, joins surrogate pairs and refuses what is no Unicode text.
-/

namespace PaperPairing
namespace Json

/-!
## Writing
-/

def hexDigit (n : Nat) : UInt8 :=
  UInt8.ofNat (if n < 10 then 48 + n else 87 + n)

def escapeChar (c : Char) : Bytes :=
  if c = '"' then [0x5C, 0x22]
  else if c = '\\' then [0x5C, 0x5C]
  else if c.toNat = 8 then [0x5C, 0x62]
  else if c.toNat = 12 then [0x5C, 0x66]
  else if c.toNat = 10 then [0x5C, 0x6E]
  else if c.toNat = 13 then [0x5C, 0x72]
  else if c.toNat = 9 then [0x5C, 0x74]
  else if c.toNat < 32 then
    [0x5C, 0x75, 0x30, 0x30, hexDigit (c.toNat / 16), hexDigit (c.toNat % 16)]
  else
    String.utf8EncodeChar c

def escape (s : String) : Bytes :=
  s.toList.flatMap escapeChar

def ofText (s : String) : Json :=
  text (escape s)

/-!
## Reading
-/

def isHighSurrogate (n : Nat) : Bool :=
  0xD800 ≤ n && n ≤ 0xDBFF

def isLowSurrogate (n : Nat) : Bool :=
  0xDC00 ≤ n && n ≤ 0xDFFF

def joinSurrogates (high low : Nat) : Char :=
  Char.ofNat (0x10000 + (high - 0xD800) * 1024 + (low - 0xDC00))

/-- The bytes that an escaped text stands for; a surrogate without its other
half is refused. -/
def unescape? : Bytes -> Option Bytes
  | [] => some []
  | 0x5C :: 0x75 :: a :: b :: c :: d :: rest =>
      match hex4? a b c d with
      | none => none
      | some n =>
          if isHighSurrogate n then
            match rest with
            | 0x5C :: 0x75 :: e :: f :: g :: h :: rest' =>
                match hex4? e f g h with
                | none => none
                | some m =>
                    if isLowSurrogate m then
                      (unescape? rest').map (String.utf8EncodeChar (joinSurrogates n m) ++ ·)
                    else
                      none
            | _ => none
          else if isLowSurrogate n then none
          else (unescape? rest).map (String.utf8EncodeChar (Char.ofNat n) ++ ·)
  | 0x5C :: letter :: rest =>
      match shortEscape? letter with
      | some x => (unescape? rest).map (x :: ·)
      | none => none
  | x :: rest => (unescape? rest).map (x :: ·)

def readText? (raw : Bytes) : Option String := do
  Utf8.decode? (← unescape? raw)

def toText? : Json -> Option String
  | text raw => readText? raw
  | _ => none

/-!
## Numbers
-/

def digitsValue (ds : Bytes) : Nat :=
  ds.foldl (fun n x => n * 10 + (x.toNat - 48)) 0

/-- The number below `bound` of a value spelt with digits alone. -/
def toNat? (bound : Nat) : Json -> Option Nat
  | number lexeme =>
      if lexeme.all isDigit && digitsValue lexeme < bound then some (digitsValue lexeme)
      else none
  | _ => none

def ofNat (n : Nat) : Json :=
  number ((Nat.toDigits 10 n).map Char.toUInt8)

def toBool? : Json -> Option Bool
  | bool value => some value
  | _ => none

end Json
end PaperPairing
