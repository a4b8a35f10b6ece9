import PaperPairing.Pem.Block
import PaperPairing.Text.Utf8

/-!
# Certificates

A device may send its certificate as PEM text or as bare bytes.  Text is kept
as it is once it has been read as a certificate; everything else is armoured.
-/

namespace PaperPairing
namespace Certificate

inductive Fault where
  | empty
  | notUtf8
  | pem (cause : Pem.Fault)
  | unexpectedLabel (label : List Char)
deriving DecidableEq

def Fault.message : Fault -> String
  | empty => "empty certificate"
  | notUtf8 => "invalid utf-8 sequence"
  | pem cause => cause.message
  | unexpectedLabel label => "unexpected PEM label '" ++ String.ofList label ++ "'"

def label : List Char := "CERTIFICATE".toList

/-- Space, tab, line feed, form feed and carriage return. -/
def isAsciiBlank (x : UInt8) : Bool :=
  x = 0x20 || x = 0x09 || x = 0x0A || x = 0x0C || x = 0x0D

def beginBytes : Bytes :=
  Utf8.encode "-----BEGIN"

def looksLikePem (b : Bytes) : Bool :=
  beginBytes.isPrefixOf (b.dropWhile isAsciiBlank)

/-- Bare bytes as PEM text, with carriage returns and line feeds. -/
def armour (b : Bytes) : String :=
  String.ofList (Pem.encode ['\r', '\n'] ⟨label, b⟩)

def normalize (b : Bytes) : Except Fault String :=
  if b = [] then .error .empty
  else if looksLikePem b then
    match Utf8.decode? b with
    | none => .error .notUtf8
    | some text =>
        match Pem.parse text.toList with
        | .error cause => .error (.pem cause)
        | .ok block =>
            if block.label = label then .ok text
            else .error (.unexpectedLabel block.label)
  else .ok (armour b)

end Certificate
end PaperPairing
