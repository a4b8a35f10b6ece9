import PaperPairing.Json.Token

/-!
# JSON values

Values are read by a machine with a stack, one token at a time, so nesting is
bounded by nothing but the text.  Members keep their order and repeated keys
stay.
-/

namespace PaperPairing

/-- Strings, keys and numbers are kept as they were spelt. -/
inductive Json where
  | null
  | bool (value : Bool)
  | number (lexeme : Bytes)
  | text (raw : Bytes)
  | array (items : List Json)
  | object (members : List (Bytes × Json))

namespace Json

/-!
## Writing
-/

mutual

def tokens : Json -> List Token
  | null => [.null]
  | bool value => [.bool value]
  | number lexeme => [.number lexeme]
  | text raw => [.text raw]
  | array items => .beginArray :: itemTokens items ++ [.endArray]
  | object members => .beginObject :: memberTokens members ++ [.endObject]

def itemTokens : List Json -> List Token
  | [] => []
  | [v] => tokens v
  | v :: w :: rest => tokens v ++ .comma :: itemTokens (w :: rest)

def memberTokens : List (Bytes × Json) -> List Token
  | [] => []
  | [(key, v)] => .text key :: .colon :: tokens v
  | (key, v) :: m :: rest => .text key :: .colon :: tokens v ++ .comma :: memberTokens (m :: rest)

end

def render (v : Json) : Bytes :=
  spell (tokens v)

/-!
## Reading
-/

/-- An array or object that a value is read for, with what came before it,
last item first. -/
inductive Frame where
  | array (done : List Json)
  | object (done : List (Bytes × Json)) (key : Bytes)

/-- What the machine waits for. -/
inductive Reader where
  | value (stack : List Frame)
  /-- The first item of an array, or its end. -/
  | firstItem (stack : List Frame)
  /-- The key of the next member; an object without members may end instead. -/
  | key (stack : List Frame) (done : List (Bytes × Json))
  | colon (stack : List Frame) (done : List (Bytes × Json)) (key : Bytes)
  | complete (stack : List Frame) (v : Json)

namespace Reader

def begin (stack : List Frame) : Token -> Option Reader
  | .null => some (complete stack .null)
  | .bool b => some (complete stack (.bool b))
  | .number lexeme => some (complete stack (.number lexeme))
  | .text raw => some (complete stack (.text raw))
  | .beginArray => some (firstItem stack)
  | .beginObject => some (key stack [])
  | _ => none

def step : Reader -> Token -> Option Reader
  | value stack, t => begin stack t
  | firstItem stack, .endArray => some (complete stack (.array []))
  | firstItem stack, t => begin (.array [] :: stack) t
  | key stack done, .text raw => some (colon stack done raw)
  | key stack [], .endObject => some (complete stack (.object []))
  | colon stack done k, .colon => some (value (.object done k :: stack))
  | complete (.array done :: stack) v, .comma => some (value (.array (v :: done) :: stack))
  | complete (.array done :: stack) v, .endArray =>
      some (complete stack (.array (v :: done).reverse))
  | complete (.object done k :: stack) v, .comma => some (key stack ((k, v) :: done))
  | complete (.object done k :: stack) v, .endObject =>
      some (complete stack (.object ((k, v) :: done).reverse))
  | _, _ => none

def run : Reader -> List Token -> Option Reader
  | r, [] => some r
  | r, t :: rest =>
      match step r t with
      | some next => run next rest
      | none => none

end Reader

def ofTokens? (ts : List Token) : Option Json :=
  match Reader.run (.value []) ts with
  | some (.complete [] v) => some v
  | _ => none

/-- The value of a text: one value, with blanks around its tokens. -/
def parse? (b : Bytes) : Option Json := do
  ofTokens? (← scan? b)

end Json
end PaperPairing
