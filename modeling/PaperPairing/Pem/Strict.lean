import PaperPairing.Pem.Block

/-!
# Strict PEM texts

The reading of RFC 7468 for keys.  Lines before the block are skipped, the
block has exactly the label asked for, every line of data but the last has 64
characters, and at most one line end follows the block.  An empty line between
the data and the last line of the block is let pass, and a second one if the
data ends with a full line without padding.
-/

namespace PaperPairing
namespace Pem

/-!
## Line ends

A line ends with a line feed, a carriage return or both in this order.
-/

def stripLineEnd? : List Char -> Option (List Char)
  | '\n' :: rest => some rest
  | '\r' :: '\n' :: rest => some rest
  | '\r' :: rest => some rest
  | _ => none

def stripFinalLineEnd? (text : List Char) : Option (List Char) :=
  match text.reverse with
  | '\n' :: '\r' :: rest => some rest.reverse
  | '\n' :: rest => some rest.reverse
  | '\r' :: rest => some rest.reverse
  | _ => none

def dropFinalLineEnd (text : List Char) : List Char :=
  (stripFinalLineEnd? text).getD text

/-!
## Parts of a text
-/

/-- The text from the first line on that begins a block.  Only a line feed ends
a line here, and no line before the block holds a zero character. -/
def skipPreambleFrom? : List Char -> Option (List Char)
  | [] => none
  | c :: rest =>
      if c.toNat = 0 then none
      else if c = '\n' ∧ (Text.stripStart? beginMarker rest).isSome then some rest
      else skipPreambleFrom? rest

def skipPreamble? (text : List Char) : Option (List Char) :=
  if (Text.stripStart? beginMarker text).isSome then some text else skipPreambleFrom? text

theorem length_lt_of_stripLineEnd? {text rest : List Char}
    (h : stripLineEnd? text = some rest) : rest.length < text.length := by
  unfold stripLineEnd? at h
  split at h <;> cases h <;> simp only [List.length_cons] <;> omega

def isEmptyLine (text : List Char) : Bool :=
  text ≠ [] && dropFinalLineEnd text = []

def isPadded (data : List Char) : Bool :=
  data.getLast? = some '='

/-- The data of a block without its line ends.  Lines of 64 characters are taken
off as long as more than that is left; the rest is the last line, which may
have a line end of its own.  Padding ends the data, so an empty line is no last
line behind it. -/
def joinLines? (text : List Char) : Option (List Char) :=
  if text.length ≤ 64 then some (dropFinalLineEnd text)
  else
    match _h : stripLineEnd? (text.drop 64) with
    | some rest =>
        if isEmptyLine rest && isPadded (text.take 64) then none
        else (joinLines? rest).map (text.take 64 ++ ·)
    | none => none
termination_by text.length
decreasing_by
  have hshorter := length_lt_of_stripLineEnd? _h
  rw [List.length_drop] at hshorter
  omega

def body? (label text : List Char) : Option (List Char) := do
  let start ← skipPreamble? text
  let afterFirst ← Text.stripStart? (beginMarker ++ label ++ dashes) start
  let rest ← stripLineEnd? afterFirst
  stripFinalLineEnd? (← Text.stripEnd? (endMarker ++ label ++ dashes) (dropFinalLineEnd rest))

def decodeStrict? (label text : List Char) : Option Bytes := do
  Base64.decode? (← joinLines? (← body? label text))

end Pem
end PaperPairing
