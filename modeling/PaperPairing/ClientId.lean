import PaperPairing.Bytes.Hex

/-!
# Client identifiers

A client is identified by a random UUID of version 4 in its usual form: 32
lowercase digits in groups of 8, 4, 4, 4 and 12, with hyphens between them.
-/

namespace PaperPairing
namespace ClientId

/-- Set the version in the seventh byte and the variant in the ninth. -/
def mark (b : Bytes) : Bytes :=
  (b.modify 6 (fun x => (x &&& 0x0F) ||| 0x40)).modify 8 (fun x => (x &&& 0x3F) ||| 0x80)

def groups (b : Bytes) : List (List Char) :=
  [b.take 4, (b.drop 4).take 2, (b.drop 6).take 2, (b.drop 8).take 2, b.drop 10].map Hex.encode

/-- The identifier drawn from sixteen random bytes, the last one first. -/
def ofRandom (r : Fixed 16) : String :=
  String.ofList (['-'].intercalate (groups (mark r.bytes.reverse)))

end ClientId
end PaperPairing
