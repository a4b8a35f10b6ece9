import PaperPairing.Error
import PaperPairing.Text.Blank
import PaperPairing.Text.Lines
import PaperPairing.Text.Marker
import PaperPairing.Text.Numeral
import PaperPairing.Text.Utf8

/-!
# HTTP responses

The body of a response that has been received whole.  The head ends at the
first empty line; the body is taken as it is, or put together from its chunks
if the head asks for that.
-/

namespace PaperPairing
namespace Http

inductive Fault where
  | truncatedHead
  | malformedStatus
  | refused (code : UInt16)
  | badChunkHeader
  | badChunkSize
  | truncatedChunk
  /-- A chunk whose size and line end do not fit into 64 bits together. -/
  | sizeOverflow
deriving DecidableEq

/-- The transport's error for a fault; an overflow has none. -/
def Fault.error? : Fault -> Option TransportError
  | truncatedHead => some (.http "truncated HTTP response")
  | malformedStatus => some (.http "malformed status line")
  | refused code => some (.status code)
  | badChunkHeader => some (.http "bad chunk header")
  | badChunkSize => some (.http "bad chunk size")
  | truncatedChunk => some (.http "truncated chunk")
  | sizeOverflow => none

/-!
## Cutting
-/

def lineEnd : Bytes := [0x0D, 0x0A]

def cutAt? (mark : Bytes) : Bytes -> Option (Bytes × Bytes)
  | [] => if mark = [] then some ([], []) else none
  | x :: rest =>
      match Text.stripStart? mark (x :: rest) with
      | some after => some ([], after)
      | none => (cutAt? mark rest).map (fun parts => (x :: parts.1, parts.2))

theorem eq_of_cutAt? {mark b before after : Bytes} (h : cutAt? mark b = some (before, after)) :
    b = before ++ mark ++ after := by
  induction b generalizing before after with
  | nil =>
      simp only [cutAt?] at h
      split at h
      · next hmark =>
          cases h
          simp [hmark]
      · cases h
  | cons x rest ih =>
      simp only [cutAt?] at h
      split at h
      · next hstrip =>
          cases h
          simpa using Text.eq_append_of_stripStart? hstrip
      · rcases Option.map_eq_some_iff.mp h with ⟨⟨front, back⟩, hcut, hparts⟩
        cases hparts
        simp [ih hcut]

/-!
## Chunks
-/

/-- The size that a chunk header announces; a semicolon ends it. -/
def chunkSize? (header : Bytes) : Option UInt64 :=
  let text := Text.trim ((Utf8.decodeLossy header).takeWhile (· ≠ ';'))
  (Numeral.read? 16 UInt64.size text).map UInt64.ofNat

/-- The header and the data of a chunked body's first chunk, with what follows
its line end; none at the last chunk. -/
def firstChunk? (body : Bytes) : Except Fault (Option (Bytes × Bytes)) :=
  match cutAt? lineEnd body with
  | none => .error .badChunkHeader
  | some (header, rest) =>
      match chunkSize? header with
      | none => .error .badChunkSize
      | some size =>
          if size = 0 then .ok none
          else if UInt64.size ≤ size.toNat + 2 then .error .sizeOverflow
          else if rest.length < size.toNat + 2 then .error .truncatedChunk
          else .ok (some (rest.take size.toNat, rest.drop (size.toNat + 2)))

theorem length_lt_of_firstChunk? {body data rest : Bytes}
    (h : firstChunk? body = .ok (some (data, rest))) : rest.length < body.length := by
  unfold firstChunk? at h
  split at h
  · cases h
  · next header after hcut =>
      have hlength := congrArg List.length (eq_of_cutAt? hcut)
      simp only [List.length_append, lineEnd, List.length_cons, List.length_nil] at hlength
      split at h
      · cases h
      · split at h
        · cases h
        · split at h
          · cases h
          · split at h
            · cases h
            · cases h
              rw [List.length_drop]
              omega

def joinChunks (body : Bytes) : Except Fault Bytes :=
  match _h : firstChunk? body with
  | .error fault => .error fault
  | .ok none => .ok []
  | .ok (some (data, rest)) =>
      match joinChunks rest with
      | .error fault => .error fault
      | .ok more => .ok (data ++ more)
termination_by body.length
decreasing_by
  exact length_lt_of_firstChunk? _h

/-!
## Heads
-/

def status? (lines : List (List Char)) : Option UInt16 := do
  let first ← lines.head?
  let code ← (Text.words first)[1]?
  (Numeral.read? 10 UInt16.size code).map UInt16.ofNat

def encodingField : List Char := "transfer-encoding:".toList

def chunked : List Char := "chunked".toList

def occurs (word : List Char) : List Char -> Bool
  | [] => word = []
  | c :: rest => word.isPrefixOf (c :: rest) || occurs word rest

/-- A header line that asks for chunks, in any case of letters. -/
def asksForChunks (line : List Char) : Bool :=
  let line := line.map Char.toLower
  encodingField.isPrefixOf line && occurs chunked line

/-!
## Responses
-/

def body (raw : Bytes) : Except Fault Bytes :=
  match cutAt? (lineEnd ++ lineEnd) raw with
  | none => .error .truncatedHead
  | some (head, rest) =>
      let lines := Text.lines (Utf8.decodeLossy head)
      match status? lines with
      | none => .error .malformedStatus
      | some code =>
          if code < 200 ∨ 300 ≤ code then .error (.refused code)
          else if lines.tail.any asksForChunks then joinChunks rest
          else .ok rest

end Http
end PaperPairing
