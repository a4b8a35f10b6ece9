import PaperPairing.Bytes.Base64
import PaperPairing.Text.Blank
import PaperPairing.Text.Chunks
import PaperPairing.Text.Lines
import PaperPairing.Text.Marker

/-!
# PEM blocks

The loose reading of a PEM text: the first block is taken wherever it stands,
with headers or without, and its data may be broken into lines at will.  Blocks
are written with 64 characters a line.
-/

namespace PaperPairing
namespace Pem

structure Block where
  label : List Char
  contents : Bytes
deriving DecidableEq

inductive Fault where
  | malformedFraming
  | missingBegin
  | missingEnd
  | mismatching (beginLabel endLabel : List Char)
  | invalidData
  | invalidHeader (line : List Char)
deriving DecidableEq

def Fault.message : Fault -> String
  | malformedFraming => "malformedframing"
  | missingBegin => "missing BEGIN tag"
  | missingEnd => "missing END tag"
  | mismatching beginLabel endLabel =>
      "mismatching BEGIN (\"" ++ String.ofList beginLabel ++ "\") and END (\"" ++
        String.ofList endLabel ++ "\") tags"
  | invalidData => "invalid data: not base64"
  | invalidHeader line => "invalid header: " ++ String.ofList line

/-!
## Markers
-/

def beginMarker : List Char := "-----BEGIN ".toList

def endMarker : List Char := "-----END ".toList

def dashes : List Char := "-----".toList

/-!
## Reading
-/

/-- The white space that may follow the first line. -/
def isGap (c : Char) : Bool :=
  c = ' ' || c = '\t' || c = '\r' || c = '\n'

/-- The labels of a block and the text between them. -/
def frame? (text : List Char) : Option (List Char × List Char × List Char) := do
  let (_, afterBegin) ← Text.cut? beginMarker text
  let (beginLabel, afterLabel) ← Text.cut? dashes afterBegin
  let (payload, afterEnd) ← Text.cut? endMarker (afterLabel.dropWhile isGap)
  let (endLabel, _) ← Text.cut? dashes afterEnd
  return (beginLabel, payload, endLabel)

/-- Headers end at the first empty line; without one there are none. -/
def splitHeaders (payload : List Char) : List Char × List Char :=
  match Text.cut? ['\n', '\n'] payload with
  | some parts => parts
  | none =>
      match Text.cut? ['\r', '\n', '\r', '\n'] payload with
      | some parts => parts
      | none => ([], payload)

def contents? (data : List Char) : Option Bytes :=
  Base64.decode? (data.filter (fun c => !Text.isBlank c))

def parse (text : List Char) : Except Fault Block :=
  match frame? text with
  | none => .error .malformedFraming
  | some (beginLabel, payload, endLabel) =>
      if beginLabel = [] then .error .missingBegin
      else if endLabel = [] then .error .missingEnd
      else if beginLabel ≠ endLabel then .error (.mismatching beginLabel endLabel)
      else
        let (headers, data) := splitHeaders payload
        match contents? data with
        | none => .error .invalidData
        | some contents =>
            match (Text.lines headers).find? (fun line => !line.contains ':') with
            | some line => .error (.invalidHeader line)
            | none => .ok ⟨beginLabel, contents⟩

/-!
## Writing
-/

def encode (lineEnd : List Char) (b : Block) : List Char :=
  beginMarker ++ b.label ++ dashes ++ lineEnd ++
    (Text.chunks 64 (Base64.encode b.contents)).flatMap (· ++ lineEnd) ++
    endMarker ++ b.label ++ dashes ++ lineEnd

end Pem
end PaperPairing
