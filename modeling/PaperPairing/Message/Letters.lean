import PaperPairing.Bytes.Base64
import PaperPairing.Error
import PaperPairing.Json.Record

/-!
# Letters

The body of a message is a record of up to five fields, named by letters, each
holding base64 text.  An absent field and a null one are the same.
-/

namespace PaperPairing

inductive Letter where
  | a
  | b
  | c
  | d
  | e
deriving DecidableEq

def Letter.name : Letter -> String
  | a => "a"
  | b => "b"
  | c => "c"
  | d => "d"
  | e => "e"

structure Letters where
  (a b c d e : Option String)
deriving DecidableEq

namespace Letters

def get (l : Letters) : Letter -> Option String
  | .a => l.a
  | .b => l.b
  | .c => l.c
  | .d => l.d
  | .e => l.e

/-!
## Bodies
-/

def fieldNames : List String := ["a", "b", "c", "d", "e"]

/-- A field is a text; null counts as absent. -/
def field? : Option Json -> Option (Option String)
  | none => some none
  | some .null => some none
  | some v => v.toText?.map some

def ofJson? (v : Json) : Option Letters := do
  match ← Json.fields? fieldNames v with
  | [a, b, c, d, e] =>
      return ⟨← field? a, ← field? b, ← field? c, ← field? d, ← field? e⟩
  | _ => none

def members (letter : Letter) : Option String -> List (Bytes × Json)
  | none => []
  | some text => [Json.member letter.name (Json.ofText text)]

def toJson (l : Letters) : Json :=
  .object (members .a l.a ++ members .b l.b ++ members .c l.c ++ members .d l.d ++
    members .e l.e)

def ofBody (body : Bytes) : Except Error Letters :=
  match (Json.parse? body).bind ofJson? with
  | some l => .ok l
  | none => .error (.parse (.json "no record of letters"))

def toBody (l : Letters) : Bytes :=
  l.toJson.render

/-!
## Fields
-/

def encode (b : Bytes) : Option String :=
  some (String.ofList (Base64.encode b))

def bytes (message : String) (l : Letters) (letter : Letter) : Except Error Bytes :=
  match l.get letter with
  | none => .error (.parse (.missingField letter.name message))
  | some text =>
      match Base64.decode? text.toList with
      | none => .error (.parse (.invalidBase64 letter.name))
      | some b => .ok b

def fixed (n : Nat) (message : String) (l : Letters) (letter : Letter) :
    Except Error (Fixed n) := do
  let b ← bytes message l letter
  match Fixed.ofBytes? n b with
  | some x => .ok x
  | none => .error (.parse (.invalidLength letter.name n b.length))

end Letters
end PaperPairing
