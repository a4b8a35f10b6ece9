import PaperPairing.Proofs.Http.Framing

/-!
# Sizes that overflow

The reader of chunks adds the size of the line end to the size that a chunk announces
before it compares the sum to what is left.  That sum overflows for the two largest sizes,
and there the reader ends without an error of the transport; every other response is
read or refused, each chunk is cut inside what is left, and each step leaves less.
-/

namespace PaperPairing
namespace Http

/-- Read, or refused with an error of the transport. -/
def IsAnswered (result : Except Fault Bytes) : Prop :=
  (exists b, result = .ok b) ∨ exists fault e, result = .error fault ∧ fault.error? = some e

theorem isAnswered_iff {result : Except Fault Bytes} :
    IsAnswered result ↔ result ≠ .error .sizeOverflow := by
  rw [IsAnswered]
  cases result with
  | ok b => simp
  | error fault => cases fault <;> simp [Fault.error?]

/-!
## One chunk
-/

/-- A chunk as it stands in a body: every piece is in place, and its size and the two
bytes behind the data add up in 64 bits. -/
structure IsCut (b data rest : Bytes) : Prop where
  split : exists header behind, b = header ++ lineEnd ++ (data ++ behind ++ rest) ∧
    behind.length = 2 ∧
    exists size, chunkSize? header = some size ∧ size.toNat = data.length
  fits : data.length + 2 < UInt64.size
  length_lt : rest.length < b.length

theorem isCut_of_firstChunk? {b data rest : Bytes}
    (h : firstChunk? b = .ok (some (data, rest))) : IsCut b data rest := by
  have hshorter := length_lt_of_firstChunk? h
  unfold firstChunk? at h
  split at h
  · cases h
  next header after hcut =>
    split at h
    · cases h
    next size hsize =>
      split at h
      · cases h
      · split at h
        · cases h
        next hfits =>
          split at h
          · cases h
          next hlong =>
            cases h
            have hdata : (after.take size.toNat).length = size.toNat := by
              rw [List.length_take]
              omega
            refine ⟨⟨header, (after.drop size.toNat).take 2, ?_, ?_, size, hsize, hdata.symm⟩,
              by omega, hshorter⟩
            · rw [eq_of_cutAt? hcut, List.append_assoc (after.take size.toNat),
                ← List.drop_drop, List.take_append_drop, List.take_append_drop]
            · rw [List.length_take, List.length_drop]
              omega

def IsOversized (b : Bytes) : Prop :=
  exists header rest size, cutAt? lineEnd b = some (header, rest) ∧
    chunkSize? header = some size ∧ UInt64.size ≤ size.toNat + 2

theorem firstChunk?_overflow_iff {b : Bytes} :
    firstChunk? b = .error .sizeOverflow ↔ IsOversized b := by
  constructor
  · intro h
    unfold firstChunk? at h
    split at h
    · cases h
    next header rest hcut =>
      split at h
      · cases h
      next size hsize =>
        split at h
        · cases h
        · split at h
          next hlarge => exact ⟨header, rest, size, hcut, hsize, hlarge⟩
          · split at h <;> cases h
  · rintro ⟨header, rest, size, hcut, hsize, hlarge⟩
    have hne : size ≠ 0 := by
      rintro rfl
      exact absurd hlarge (by decide)
    rw [firstChunk?, hcut]
    simp only [hsize, if_neg hne, if_pos hlarge]

/-!
## Whole bodies
-/

/-- What is left of a body behind some of its chunks. -/
inductive Leaves : Bytes -> Bytes -> Prop where
  | all (b : Bytes) : Leaves b b
  | behind {b data rest left : Bytes} (hchunk : firstChunk? b = .ok (some (data, rest)))
      (hrest : Leaves rest left) : Leaves b left

theorem joinChunks_of_leaves {b left : Bytes} (h : Leaves b left) {fault : Fault}
    (hleft : joinChunks left = .error fault) : joinChunks b = .error fault := by
  induction h with
  | all b => exact hleft
  | behind hchunk hrest ih =>
      rw [joinChunks_of_chunk hchunk, ih hleft]
      rfl

/-- A fault of a body is a fault of one chunk that the reader comes to. -/
theorem exists_leaves_of_joinChunks {b : Bytes} {fault : Fault}
    (h : joinChunks b = .error fault) :
    exists left, Leaves b left ∧ firstChunk? left = .error fault := by
  fun_induction joinChunks b with
  | case1 b cause hchunk =>
      cases h
      exact ⟨b, .all b, hchunk⟩
  | case2 => cases h
  | case3 b data rest hchunk cause hrest ih =>
      rcases ih (hrest.trans h) with ⟨left, hleaves, hfault⟩
      exact ⟨left, .behind hchunk hleaves, hfault⟩
  | case4 => cases h

theorem joinChunks_overflow_iff {b : Bytes} :
    joinChunks b = .error .sizeOverflow ↔ exists left, Leaves b left ∧ IsOversized left := by
  constructor
  · intro h
    rcases exists_leaves_of_joinChunks h with ⟨left, hleaves, hfault⟩
    exact ⟨left, hleaves, firstChunk?_overflow_iff.mp hfault⟩
  · rintro ⟨left, hleaves, hlarge⟩
    exact joinChunks_of_leaves hleaves
      (joinChunks_of_error (firstChunk?_overflow_iff.mpr hlarge))

/-!
## Whole responses
-/

def IsChunkedPart (raw part : Bytes) : Prop :=
  exists head code, cutAt? (lineEnd ++ lineEnd) raw = some (head, part) ∧
    status? (Text.lines (Utf8.decodeLossy head)) = some code ∧ 200 ≤ code ∧ code < 300 ∧
    (Text.lines (Utf8.decodeLossy head)).tail.any asksForChunks = true

theorem body_overflow_iff {raw : Bytes} :
    body raw = .error .sizeOverflow ↔
      exists part, IsChunkedPart raw part ∧ joinChunks part = .error .sizeOverflow := by
  constructor
  · intro h
    unfold body at h
    split at h
    · cases h
    next head part hcut =>
      simp only at h
      split at h
      · cases h
      next code hstatus =>
        split at h
        · cases h
        next hsuccess =>
          split at h
          next hchunked =>
            rw [not_or, UInt16.not_lt, UInt16.not_le] at hsuccess
            exact ⟨part, ⟨head, code, hcut, hstatus, hsuccess.1, hsuccess.2, hchunked⟩, h⟩
          · cases h
  · rintro ⟨part, ⟨head, code, hcut, hstatus, hlow, hhigh, hchunked⟩, hpart⟩
    have hsuccess : ¬ (code < 200 ∨ 300 ≤ code) := by
      rw [not_or, UInt16.not_lt, UInt16.not_le]
      exact ⟨hlow, hhigh⟩
    rw [body, hcut]
    simp only [hstatus, if_neg hsuccess, hchunked, if_true, hpart]

/-- A response is read or refused unless the reader comes to a chunk whose size cannot be
added to that of a line end, and so is a body of chunks; and a chunk that is taken off is
cut inside what is left, without an overflow, and leaves less. -/
theorem answered_unless_oversized (b : Bytes) :
    (IsAnswered (body b) ↔
      ¬ exists part left, IsChunkedPart b part ∧ Leaves part left ∧ IsOversized left) ∧
    (IsAnswered (joinChunks b) ↔ ¬ exists left, Leaves b left ∧ IsOversized left) ∧
    (forall data rest, firstChunk? b = .ok (some (data, rest)) -> IsCut b data rest) := by
  refine ⟨?_, ?_, fun data rest => isCut_of_firstChunk?⟩
  · rw [isAnswered_iff, ne_eq, body_overflow_iff]
    simp only [joinChunks_overflow_iff, exists_and_left]
  · rw [isAnswered_iff, ne_eq, joinChunks_overflow_iff]

theorem answered_unless_oversized_on_sample :
    firstChunk? (sampleChunk.bytes ++ lastHeader) = .ok (some (sampleChunk.data, lastHeader)) ∧
    IsCut (sampleChunk.bytes ++ lastHeader) sampleChunk.data lastHeader ∧
    ¬ exists part left, IsChunkedPart sampleResponse part ∧ Leaves part left ∧
      IsOversized left := by
  have hchunk := sampleChunk.firstChunk?_bytes lastHeader
  have hanswered : IsAnswered (body sampleResponse) := by
    rw [← sampleResponse_eq, body_coded, joinChunks_chunkedBytes]
    exact .inl ⟨_, rfl⟩
  exact ⟨hchunk, (answered_unless_oversized _).2.2 _ _ hchunk,
    (answered_unless_oversized sampleResponse).1.mp hanswered⟩

/-!
## The largest size
-/

def largestHeader : Bytes :=
  Utf8.encode "ffffffffffffffff"

theorem chunkSize?_largestHeader : chunkSize? largestHeader = some 0xFFFFFFFFFFFFFFFF := by
  have htext : Utf8.decodeLossy largestHeader = "ffffffffffffffff".toList :=
    Utf8.decodeLossy_encodeChars _
  rw [chunkSize?, htext]
  decide +kernel

theorem isOversized_largestHeader (rest : Bytes) :
    IsOversized (largestHeader ++ (lineEnd ++ rest)) :=
  ⟨_, _, _, cutAt?_of_free (by decide) rest, chunkSize?_largestHeader, by decide⟩

def oversizedResponse : Bytes :=
  Utf8.encode ("HTTP/1.1 200 OK\r\nTransfer-Encoding: chunked\r\n\r\n" ++
    "ffffffffffffffff\r\nab\r\n0\r\n\r\n")

theorem not_answered_oversizedResponse : ¬ IsAnswered (body oversizedResponse) := by
  have hsent : codedHead sampleStatus [] []
      ⟨Utf8.encode "Transfer-Encoding: chunked", by decide⟩ ++
        (largestHeader ++ (lineEnd ++ Utf8.encode "ab\r\n0\r\n\r\n")) = oversizedResponse := by
    decide +kernel
  rw [isAnswered_iff, ← hsent, body_coded, not_not, joinChunks_overflow_iff]
  exact ⟨_, .all _, isOversized_largestHeader _⟩

end Http
end PaperPairing
