import Mathlib.Data.List.TakeWhile
import PaperPairing.Proofs.Http.Head

/-!
# Framing is transparent

A body comes through as it was sent, raw or in chunks, whatever its bytes are: the
reader of chunks stays in step because each chunk is taken off by its announced length
and never searched.  A chunked response that is cut off before its last chunk is refused,
since no part of it short of that end looks like the whole.
-/

namespace PaperPairing
namespace Http

/-!
## Steps of the reader
-/

theorem joinChunks_of_error {b : Bytes} {fault : Fault} (h : firstChunk? b = .error fault) :
    joinChunks b = .error fault := by
  rw [joinChunks]
  split <;> simp_all

theorem joinChunks_of_last {b : Bytes} (h : firstChunk? b = .ok none) : joinChunks b = .ok [] := by
  rw [joinChunks]
  split <;> simp_all

theorem joinChunks_of_chunk {b data rest : Bytes}
    (h : firstChunk? b = .ok (some (data, rest))) :
    joinChunks b = (joinChunks rest).map (data ++ ·) := by
  rw [joinChunks]
  split
  · simp_all
  · simp_all
  next data' rest' heq =>
    rw [h] at heq
    cases heq
    cases joinChunks rest <;> rfl

/-!
## Chunks
-/

/-- A chunk as it may be sent: size, extension and data fit together, and the length of
the data and the line end behind it can be added up in 64 bits. -/
structure Chunk where
  size : Bytes
  extension : Option Bytes
  data : Bytes
  size_spells : Numeral.SpellsHex size data.length
  extension_free : forall e, e ∈ extension -> ¬ lineEnd <:+: e
  data_ne_nil : data ≠ []
  data_short : data.length < UInt64.size - 2

namespace Chunk

def extensionBytes (c : Chunk) : Bytes :=
  match c.extension with
  | none => []
  | some e => 0x3B :: e

def header (c : Chunk) : Bytes :=
  c.size ++ c.extensionBytes

def bytes (c : Chunk) : Bytes :=
  c.header ++ lineEnd ++ (c.data ++ lineEnd)

end Chunk

def lastHeader : Bytes :=
  [0x30]

def chunkedBytes (chunks : List Chunk) : Bytes :=
  chunks.flatMap Chunk.bytes ++ (lastHeader ++ lineEnd)

/-!
## Headers of chunks
-/

theorem cutAt?_of_free {front : Bytes} (hfront : ¬ lineEnd <:+: front) (rest : Bytes) :
    cutAt? lineEnd (front ++ (lineEnd ++ rest)) = some (front, rest) := by
  induction front with
  | nil => exact cutAt?_self [0x0A] rest
  | cons x front ih =>
      have htail : ¬ lineEnd <:+: front :=
        fun h => hfront (h.trans (List.suffix_cons x front).isInfix)
      have hstrip : Text.stripStart? lineEnd (x :: (front ++ (lineEnd ++ rest))) = none := by
        rw [Option.eq_none_iff_forall_ne_some]
        intro after hafter
        have hstart := Text.stripStart?_eq_some_iff.mp hafter
        cases front with
        | nil => simp [lineEnd] at hstart
        | cons y front =>
            simp only [lineEnd, List.cons_append, List.cons.injEq] at hstart
            rcases hstart with ⟨hx, hy, -⟩
            refine hfront ⟨[], front, ?_⟩
            rw [hx, hy]
            rfl
      rw [List.cons_append, cutAt?, hstrip, ih htail]
      rfl

theorem trim_of_plain {cs : List Char} (hcs : forall c, c ∈ cs -> Text.isBlank c = false) :
    Text.trim cs = cs := by
  have hleft {text : List Char} (htext : forall c, c ∈ text -> Text.isBlank c = false) :
      Text.trimLeft text = text := by
    cases text with
    | nil => rfl
    | cons c text =>
        have hc : ¬ Text.isBlank c = true := by simp [htext c List.mem_cons_self]
        exact List.dropWhile_cons_of_neg hc
  rw [Text.trim, hleft hcs, hleft (fun c hc => hcs c (List.mem_reverse.mp hc)),
    List.reverse_reverse]

namespace Chunk

variable (c : Chunk)

theorem return_not_mem_size : 0x0D ∉ c.size := by
  intro h
  have hchar : Char.ofNat (0x0D : UInt8).toNat ∈ Utf8.decodeLossy c.size := by
    rw [Utf8.decodeLossy_of_lt c.size_spells.isAscii]
    exact List.mem_map_of_mem h
  exact absurd (c.size_spells.isPlain hchar).2.2 (by decide)

theorem cutAt?_header (rest : Bytes) :
    cutAt? lineEnd (c.header ++ (lineEnd ++ rest)) = some (c.header, rest) := by
  have hskip {front : Bytes} (hfront : 0x0D ∉ front) (back : Bytes) :
      cutAt? lineEnd (front ++ back) =
        (cutAt? lineEnd back).map (fun parts => (front ++ parts.1, parts.2)) :=
    cutAt?_of_not_mem hfront back
  rw [header, extensionBytes, List.append_assoc, hskip c.return_not_mem_size]
  cases hextension : c.extension with
  | none =>
      have hself : cutAt? lineEnd (lineEnd ++ rest) = some ([], rest) := cutAt?_self [0x0A] rest
      simp only [List.nil_append, hself, Option.map_some]
  | some e =>
      have hsemicolon : (0x0D : UInt8) ∉ [0x3B] := by decide
      have hfree := c.extension_free e hextension
      have hcut := hskip hsemicolon (e ++ (lineEnd ++ rest))
      rw [cutAt?_of_free hfree, List.singleton_append] at hcut
      simp only [List.cons_append, hcut, Option.map_some]
      rfl

theorem takeWhile_header : (Utf8.decodeLossy c.header).takeWhile (· ≠ ';') =
    Utf8.decodeLossy c.size := by
  have hsize : forall d, d ∈ Utf8.decodeLossy c.size -> decide (d ≠ ';') = true :=
    fun d hd => decide_eq_true (c.size_spells.isPlain hd).2.1
  rw [header, extensionBytes]
  cases c.extension with
  | none =>
      rw [List.append_nil]
      exact List.takeWhile_eq_self_iff.mpr hsize
  | some e =>
      have hsemicolon : Char.ofNat (0x3B : UInt8).toNat = ';' := rfl
      simp only [Utf8.decodeLossy_append (by decide : (0x3B : UInt8) < 0x80), hsemicolon]
      rw [List.takeWhile_append_of_pos hsize, List.takeWhile_cons_of_neg (by decide),
        List.append_nil]

theorem length_lt : c.data.length + 2 < UInt64.size := by
  have hshort := c.data_short
  simp only [UInt64.size] at hshort ⊢
  omega

theorem toNat_length : (UInt64.ofNat c.data.length).toNat = c.data.length := by
  have hlt := c.length_lt
  rw [UInt64.toNat_ofNat']
  exact Nat.mod_eq_of_lt (by simp only [UInt64.size] at hlt; omega)

theorem length_ne_zero : UInt64.ofNat c.data.length ≠ 0 := by
  intro h
  have hzero := congrArg UInt64.toNat h
  rw [c.toNat_length] at hzero
  exact c.data_ne_nil (List.length_eq_zero_iff.mp hzero)

theorem chunkSize?_header : chunkSize? c.header = some (UInt64.ofNat c.data.length) := by
  rw [chunkSize?, c.takeWhile_header, trim_of_plain (fun d hd => (c.size_spells.isPlain hd).2.2),
    c.size_spells.read?_eq (by have := c.length_lt; omega)]
  rfl

theorem firstChunk?_header {b rest : Bytes} (hcut : cutAt? lineEnd b = some (c.header, rest)) :
    firstChunk? b =
      if rest.length < c.data.length + 2 then .error .truncatedChunk
      else .ok (some (rest.take c.data.length, rest.drop (c.data.length + 2))) := by
  have hfits : ¬ UInt64.size ≤ c.data.length + 2 := Nat.not_le.mpr c.length_lt
  rw [firstChunk?, hcut]
  simp only [c.chunkSize?_header, c.toNat_length, if_neg c.length_ne_zero, if_neg hfits]

theorem firstChunk?_bytes (rest : Bytes) :
    firstChunk? (c.bytes ++ rest) = .ok (some (c.data, rest)) := by
  have hcut := c.cutAt?_header (c.data ++ lineEnd ++ rest)
  have hlength : (c.data ++ lineEnd).length = c.data.length + 2 := List.length_append
  rw [bytes, List.append_assoc, List.append_assoc, c.firstChunk?_header hcut,
    if_neg (by rw [List.length_append, hlength]; omega), ← hlength, List.drop_left,
    List.append_assoc, List.take_left]

end Chunk

/-!
## Whole bodies
-/

theorem chunkSize?_lastHeader : chunkSize? lastHeader = some 0 := by
  have hzero : Utf8.decodeLossy lastHeader = ['0'] := Utf8.decodeLossy_encodeChars ['0']
  rw [chunkSize?, hzero]
  rfl

theorem cutAt?_lastHeader (rest : Bytes) :
    cutAt? lineEnd (lastHeader ++ lineEnd ++ rest) = some (lastHeader, rest) := by
  rw [List.append_assoc]
  exact cutAt?_of_free (by decide) rest

theorem firstChunk?_lastHeader (rest : Bytes) :
    firstChunk? (lastHeader ++ lineEnd ++ rest) = .ok none := by
  rw [firstChunk?, cutAt?_lastHeader]
  simp only [chunkSize?_lastHeader, if_true]

theorem chunkedBytes_cons (c : Chunk) (chunks : List Chunk) :
    chunkedBytes (c :: chunks) = c.bytes ++ chunkedBytes chunks := by
  rw [chunkedBytes, List.flatMap_cons, List.append_assoc, chunkedBytes]

theorem joinChunks_chunkedBytes (chunks : List Chunk) (trailing : Bytes) :
    joinChunks (chunkedBytes chunks ++ trailing) = .ok (chunks.flatMap Chunk.data) := by
  induction chunks with
  | nil => exact joinChunks_of_last (firstChunk?_lastHeader trailing)
  | cons c chunks ih =>
      rw [chunkedBytes_cons, List.append_assoc, joinChunks_of_chunk (c.firstChunk?_bytes _), ih]
      rfl

/-!
## Bodies cut off
-/

theorem joinChunks_of_no_lineEnd {b : Bytes} (h : cutAt? lineEnd b = none) :
    joinChunks b = .error .badChunkHeader := by
  refine joinChunks_of_error ?_
  rw [firstChunk?, h]

theorem joinChunks_of_cut (chunks : List Chunk) {b rest : Bytes} (hne : rest ≠ [])
    (hb : b ++ rest = chunkedBytes chunks) :
    joinChunks b = .error .badChunkHeader ∨ joinChunks b = .error .truncatedChunk := by
  induction chunks generalizing b with
  | nil =>
      have hwhole := cutAt?_lastHeader []
      rw [List.append_nil] at hwhole
      rw [chunkedBytes, List.flatMap_nil, List.nil_append] at hb
      rw [← hb] at hwhole
      exact .inl (joinChunks_of_no_lineEnd (cutAt?_of_cut_at_end hne hwhole))
  | cons c chunks ih =>
      cases hcut : cutAt? lineEnd b with
      | none => exact .inl (joinChunks_of_no_lineEnd hcut)
      | some parts =>
          rcases parts with ⟨header, after⟩
          -- the header is whole, so it is the one that was sent
          have hwhole := c.cutAt?_header (c.data ++ lineEnd ++ chunkedBytes chunks)
          have hsent : c.header ++ (lineEnd ++ (c.data ++ lineEnd ++ chunkedBytes chunks)) =
              b ++ rest := by
            rw [hb, chunkedBytes_cons, Chunk.bytes]
            simp only [List.append_assoc]
          rw [hsent, cutAt?_append hcut rest, Option.some.injEq, Prod.mk.injEq] at hwhole
          rcases hwhole with ⟨rfl, hafter⟩
          have hstep := c.firstChunk?_header hcut
          have hlength : (c.data ++ lineEnd).length = c.data.length + 2 := List.length_append
          split at hstep
          · exact .inr (joinChunks_of_error hstep)
          next hlong =>
            have hprefix : c.data ++ lineEnd <+: after :=
              List.prefix_of_prefix_length_le ⟨_, hafter.symm⟩ (List.prefix_append after rest)
                (by omega)
            rcases hprefix with ⟨more, rfl⟩
            rw [← hlength, List.drop_left, List.append_assoc, List.take_left] at hstep
            have hmore : more ++ rest = chunkedBytes chunks := by
              rw [List.append_assoc, List.append_cancel_left_eq] at hafter
              exact hafter
            rw [joinChunks_of_chunk hstep]
            rcases ih hmore with hfault | hfault
            · exact .inl (by rw [hfault]; rfl)
            · exact .inr (by rw [hfault]; rfl)

/-!
## Whole responses
-/

/-- A header line that does not ask for chunks. -/
structure PlainLine where
  bytes : Bytes
  isLine : IsLine bytes
  plain : ¬ NamesChunked bytes

/-- The header line that asks for chunks, in any case of letters. -/
structure CodingLine where
  bytes : Bytes
  spells : bytes.map Utf8.lower = Utf8.encode "transfer-encoding: chunked"

namespace CodingLine

variable (l : CodingLine)

theorem isLine : IsLine l.bytes := by
  have hfree {x : UInt8} (hx : Utf8.lower x ∉ Utf8.encode "transfer-encoding: chunked") :
      x ∉ l.bytes := by
    intro h
    rw [← l.spells] at hx
    exact hx (List.mem_map_of_mem h)
  refine ⟨?_, hfree (by decide), hfree (by decide)⟩
  intro hnil
  have hspells := l.spells
  rw [hnil] at hspells
  exact absurd hspells (by decide)

theorem namesChunked : NamesChunked l.bytes := by
  rw [NamesChunked, l.spells]
  decide

end CodingLine

def codedHead (s : StatusLine) (before after : List PlainLine) (l : CodingLine) : Bytes :=
  head s (before.map PlainLine.bytes ++ l.bytes :: after.map PlainLine.bytes)

theorem isLine_of_mem_plain {lines : List PlainLine} :
    forall h, h ∈ lines.map PlainLine.bytes -> IsLine h := by
  intro h hh
  rcases List.mem_map.mp hh with ⟨line, -, rfl⟩
  exact line.isLine

theorem body_plain (s : StatusLine) (lines : List PlainLine) (rest : Bytes) :
    body (head s (lines.map PlainLine.bytes) ++ rest) = .ok rest := by
  have hplain : ¬ ((lines.map PlainLine.bytes).map Utf8.decodeLossy).any asksForChunks = true := by
    rw [any_asksForChunks_iff]
    rintro ⟨h, hmem, hnames⟩
    rcases List.mem_map.mp hmem with ⟨line, -, rfl⟩
    exact line.plain hnames
  rw [body_head s isLine_of_mem_plain, if_neg hplain]

section

variable (s : StatusLine) (before after : List PlainLine) (l : CodingLine)

theorem isLine_of_mem_coded : forall h,
    h ∈ before.map PlainLine.bytes ++ l.bytes :: after.map PlainLine.bytes -> IsLine h := by
  intro h hh
  rcases List.mem_append.mp hh with hh | hh
  · exact isLine_of_mem_plain h hh
  · rcases List.mem_cons.mp hh with rfl | hh
    · exact l.isLine
    · exact isLine_of_mem_plain h hh

theorem body_coded (rest : Bytes) :
    body (codedHead s before after l ++ rest) = joinChunks rest := by
  have hcoded : ((before.map PlainLine.bytes ++ l.bytes :: after.map PlainLine.bytes).map
      Utf8.decodeLossy).any asksForChunks = true :=
    any_asksForChunks_iff.mpr ⟨l.bytes, by simp, l.namesChunked⟩
  rw [codedHead, body_head s (isLine_of_mem_coded before after l), if_pos hcoded]

/-- A chunked response cut off before the end of its last chunk's line is refused. -/
theorem body_of_cut (chunks : List Chunk) {raw rest : Bytes} (hne : rest ≠ [])
    (hraw : raw ++ rest = codedHead s before after l ++ chunkedBytes chunks) :
    exists fault, body raw = .error fault ∧
      fault ∈ [.truncatedHead, .badChunkHeader, .truncatedChunk] := by
  have hinside {more : Bytes} (hbody : more ++ rest = chunkedBytes chunks) :
      exists fault, joinChunks more = .error fault ∧
        fault ∈ [.truncatedHead, .badChunkHeader, .truncatedChunk] := by
    rcases joinChunks_of_cut chunks hne hbody with hfault | hfault
    · exact ⟨_, hfault, by decide⟩
    · exact ⟨_, hfault, by decide⟩
  rcases List.append_eq_append_iff.mp hraw with ⟨missing, hhead, hrest⟩ | ⟨more, hhead, hbody⟩
  · cases missing with
    | nil =>
        rw [List.append_nil] at hhead
        rw [List.nil_append] at hrest
        rw [← hhead, ← List.append_nil (codedHead s before after l), body_coded]
        exact hinside hrest
    | cons x missing =>
        exact ⟨_, body_of_cut_head s (isLine_of_mem_coded before after l)
          (List.cons_ne_nil x missing) hhead.symm, by decide⟩
  · rw [hhead, body_coded]
    exact hinside hbody.symm

end

/-- A body comes through unchanged, raw behind any head that does not ask for chunks, and
in any chunks behind one that does, whatever follows the last one.  A chunked response
that stops anywhere before the end of its last chunk's line is an error of the
transport. -/
theorem framing_is_transparent (s : StatusLine) :
    (forall (lines : List PlainLine) (sent : Bytes),
      body (head s (lines.map PlainLine.bytes) ++ sent) = .ok sent) ∧
    (forall (before after : List PlainLine) (l : CodingLine) (chunks : List Chunk)
      (trailing : Bytes),
      let response := codedHead s before after l ++ (chunkedBytes chunks ++ trailing)
      body response = .ok (chunks.flatMap Chunk.data) ∧
      forall n, n < (codedHead s before after l ++ chunkedBytes chunks).length ->
        exists fault e, body (response.take n) = .error fault ∧ fault.error? = some e) := by
  refine ⟨body_plain s, ?_⟩
  intro before after l chunks trailing response
  refine ⟨(body_coded s before after l _).trans (joinChunks_chunkedBytes chunks trailing), ?_⟩
  intro n hn
  have htake : response.take n =
      (codedHead s before after l ++ chunkedBytes chunks).take n := by
    have hassoc : response =
        codedHead s before after l ++ chunkedBytes chunks ++ trailing :=
      (List.append_assoc ..).symm
    rw [hassoc, List.take_append_of_le_length hn.le]
  have hrest : (codedHead s before after l ++ chunkedBytes chunks).drop n ≠ [] := by
    rw [ne_eq, List.drop_eq_nil_iff]
    omega
  rcases body_of_cut s before after l chunks hrest (List.take_append_drop n _) with
    ⟨fault, hfault, hmem⟩
  rw [htake]
  simp only [List.mem_cons, List.not_mem_nil, or_false] at hmem
  rcases hmem with rfl | rfl | rfl
  all_goals exact ⟨_, _, hfault, rfl⟩

/-!
## A chunked response

Its one chunk holds what looks like the end of a head and like a last chunk.
-/

def sampleStatus : StatusLine where
  version := Utf8.encode "HTTP/1.1"
  code := 200
  reason := Utf8.encode "OK"
  version_ne_nil := by decide
  version_printable := List.all_iff_forall_prop.mp (by decide)
  success := by decide
  reason_free := by decide

def samplePlain : PlainLine where
  bytes := Utf8.encode "Transfer-Encoding: gzip"
  isLine := by
    rw [IsLine]
    decide
  plain := by
    rw [NamesChunked]
    decide

def sampleCoding : CodingLine where
  bytes := Utf8.encode "TRANSFER-Encoding: Chunked"
  spells := by decide

def sampleChunk : Chunk where
  size := Utf8.encode "00A"
  extension := some (Utf8.encode "x=\r")
  data := Utf8.encode "\r\n0\r\n\r\nabc"
  size_spells := ⟨2, by decide⟩
  extension_free := by decide
  data_ne_nil := by decide
  data_short := by decide

def sampleResponse : Bytes :=
  Utf8.encode ("HTTP/1.1 200 OK\r\nTransfer-Encoding: gzip\r\nTRANSFER-Encoding: Chunked\r\n\r\n" ++
    "00A;x=\r\r\n\r\n0\r\n\r\nabc\r\n0\r\ntrailing")

theorem sampleResponse_eq : codedHead sampleStatus [samplePlain] [] sampleCoding ++
    (chunkedBytes [sampleChunk] ++ Utf8.encode "trailing") = sampleResponse := by
  decide +kernel

theorem framing_is_transparent_to_sample :
    body sampleResponse = .ok (Utf8.encode "\r\n0\r\n\r\nabc") ∧
    70 < (codedHead sampleStatus [samplePlain] [] sampleCoding ++
      chunkedBytes [sampleChunk]).length ∧
    exists fault e, body (sampleResponse.take 70) = .error fault ∧ fault.error? = some e := by
  have hlength : 70 < (codedHead sampleStatus [samplePlain] [] sampleCoding ++
      chunkedBytes [sampleChunk]).length := by
    decide +kernel
  rcases (framing_is_transparent sampleStatus).2 [samplePlain] [] sampleCoding [sampleChunk]
    (Utf8.encode "trailing") with ⟨hbody, hcut⟩
  simp only [sampleResponse_eq] at hbody hcut
  exact ⟨hbody, hlength, hcut 70 hlength⟩

end Http
end PaperPairing
