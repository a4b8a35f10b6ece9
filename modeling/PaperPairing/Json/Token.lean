import PaperPairing.Bytes.Basic
import PaperPairing.Text.Chunks

/-!
# JSON tokens

A text is cut into tokens before it is given any structure.  Strings and
numbers keep their spelling: whether a string is well-formed Unicode, or a
number in some range, is asked only where its value is used.
-/

namespace PaperPairing
namespace Json

/-- `text` and `number` hold what was written, for a text without its quotes. -/
inductive Token where
  | beginArray
  | endArray
  | beginObject
  | endObject
  | colon
  | comma
  | null
  | bool (value : Bool)
  | number (lexeme : Bytes)
  | text (raw : Bytes)
deriving DecidableEq

/-!
## Characters
-/

/-- Space, tab, line feed and carriage return. -/
def isBlank (x : UInt8) : Bool :=
  x = 0x20 || x = 0x09 || x = 0x0A || x = 0x0D

def isDigit (x : UInt8) : Bool :=
  0x30 ≤ x && x ≤ 0x39

def hexValue? (x : UInt8) : Option Nat :=
  let n := x.toNat
  if 48 ≤ n ∧ n ≤ 57 then some (n - 48)
  else if 97 ≤ n ∧ n ≤ 102 then some (n - 87)
  else if 65 ≤ n ∧ n ≤ 70 then some (n - 55)
  else none

def hex4? (a b c d : UInt8) : Option Nat := do
  let w ← hexValue? a
  let x ← hexValue? b
  let y ← hexValue? c
  let z ← hexValue? d
  return 4096 * w + 256 * x + 16 * y + z

def shortEscape? (letter : UInt8) : Option UInt8 :=
  if letter = 0x22 then some 0x22
  else if letter = 0x5C then some 0x5C
  else if letter = 0x2F then some 0x2F
  else if letter = 0x62 then some 0x08
  else if letter = 0x66 then some 0x0C
  else if letter = 0x6E then some 0x0A
  else if letter = 0x72 then some 0x0D
  else if letter = 0x74 then some 0x09
  else none

/-!
## Strings
-/

/-- What stands before the closing quote.  Escapes must be well-formed and
control characters are refused; all other bytes pass. -/
def textBody? : Bytes -> Option Bytes
  | [] => none
  | 0x22 :: _ => some []
  | 0x5C :: 0x75 :: a :: b :: c :: d :: rest =>
      match hex4? a b c d with
      | some _ => (textBody? rest).map ([0x5C, 0x75, a, b, c, d] ++ ·)
      | none => none
  | 0x5C :: letter :: rest =>
      match shortEscape? letter with
      | some _ => (textBody? rest).map ([0x5C, letter] ++ ·)
      | none => none
  | x :: rest =>
      if x < 0x20 ∨ x = 0x5C then none else (textBody? rest).map (x :: ·)

/-!
## Numbers

A number is a minus sign or none, an integer without a superfluous zero, a
fraction or none, and an exponent or none.
-/

def digits (b : Bytes) : Bytes :=
  b.takeWhile isDigit

def integerPart? (b : Bytes) : Option Bytes :=
  match digits b with
  | [] => none
  | 0x30 :: _ => some [0x30]
  | ds => some ds

/-- A point and at least one digit, if there is a point. -/
def fractionPart? : Bytes -> Option Bytes
  | 0x2E :: rest => if digits rest = [] then none else some (0x2E :: digits rest)
  | _ => some []

def exponentSign : Bytes -> Bytes
  | x :: _ => if x = 0x2B ∨ x = 0x2D then [x] else []
  | [] => []

/-- A letter, a sign or none, and at least one digit, if there is a letter. -/
def exponentPart? : Bytes -> Option Bytes
  | x :: rest =>
      if x = 0x65 ∨ x = 0x45 then
        let sign := exponentSign rest
        let ds := digits (rest.drop sign.length)
        if ds = [] then none else some (x :: sign ++ ds)
      else
        some []
  | [] => some []

def minusPart : Bytes -> Bytes
  | 0x2D :: _ => [0x2D]
  | _ => []

def numberLexeme? (b : Bytes) : Option Bytes := do
  let sign := minusPart b
  let b1 := b.drop sign.length
  let whole ← integerPart? b1
  let b2 := b1.drop whole.length
  let fraction ← fractionPart? b2
  let exponent ← exponentPart? (b2.drop fraction.length)
  return sign ++ whole ++ fraction ++ exponent

/-!
## The scanner
-/

/-- The token that begins with byte `x`, and how many of the bytes after `x`
belong to it. -/
def token? (x : UInt8) (rest : Bytes) : Option (Token × Nat) :=
  if x = 0x5B then some (.beginArray, 0)
  else if x = 0x5D then some (.endArray, 0)
  else if x = 0x7B then some (.beginObject, 0)
  else if x = 0x7D then some (.endObject, 0)
  else if x = 0x3A then some (.colon, 0)
  else if x = 0x2C then some (.comma, 0)
  else if x = 0x22 then (textBody? rest).map (fun raw => (.text raw, raw.length + 1))
  else if x = 0x6E then
    if rest.take 3 = [0x75, 0x6C, 0x6C] then some (.null, 3) else none
  else if x = 0x74 then
    if rest.take 3 = [0x72, 0x75, 0x65] then some (.bool true, 3) else none
  else if x = 0x66 then
    if rest.take 4 = [0x61, 0x6C, 0x73, 0x65] then some (.bool false, 4) else none
  else
    (numberLexeme? (x :: rest)).map (fun lexeme => (.number lexeme, lexeme.length - 1))

/-- The tokens of a text; blanks between them are dropped. -/
def scan? : Bytes -> Option (List Token)
  | [] => some []
  | x :: rest =>
      if isBlank x then scan? rest
      else
        match token? x rest with
        | some (t, n) => (scan? (rest.drop n)).map (t :: ·)
        | none => none
termination_by b => b.length
decreasing_by
  · exact Nat.lt_succ_self _
  · exact Text.length_drop_lt x rest n

/-!
## Spelling
-/

def Token.spell : Token -> Bytes
  | beginArray => [0x5B]
  | endArray => [0x5D]
  | beginObject => [0x7B]
  | endObject => [0x7D]
  | colon => [0x3A]
  | comma => [0x2C]
  | null => [0x6E, 0x75, 0x6C, 0x6C]
  | bool true => [0x74, 0x72, 0x75, 0x65]
  | bool false => [0x66, 0x61, 0x6C, 0x73, 0x65]
  | number lexeme => lexeme
  | text raw => 0x22 :: raw ++ [0x22]

def spell (tokens : List Token) : Bytes :=
  tokens.flatMap Token.spell

end Json
end PaperPairing
