import Mathlib.Data.List.Basic
import PaperPairing.Pem.Block
import PaperPairing.Proofs.Bytes.Base64

/-!
# Blocks read back

A written block is read as itself.  Neither the label nor the data holds a dash, so
the scan for markers, which never goes back, stops at the markers that were written;
and no line of data is empty, so nothing in the data looks like the end of headers.
-/

namespace PaperPairing

/-!
## Markers
-/

namespace Text

variable {α : Type} [DecidableEq α]

theorem endOfMarker?_self (marker pending rest : List α) :
    endOfMarker? marker pending (pending ++ rest) = some pending.length := by
  induction pending with
  | nil => cases rest <;> rfl
  | cons p pending ih =>
      rw [List.cons_append, endOfMarker?, if_pos rfl, ih]
      rfl

theorem cut?_append {m : α} {marker front : List α} (hfront : m ∉ front) (rest : List α) :
    cut? (m :: marker) (front ++ (m :: marker ++ rest)) = some (front, rest) := by
  have hend : endOfMarker? (m :: marker) (m :: marker) (front ++ (m :: marker ++ rest)) =
      some (front.length + (m :: marker).length) := by
    induction front with
    | nil => rw [List.nil_append, endOfMarker?_self, List.length_nil, Nat.zero_add]
    | cons c front ih =>
        have hc : c ≠ m := (List.ne_of_not_mem_cons hfront).symm
        rw [List.cons_append, endOfMarker?, if_neg hc, ih (List.not_mem_of_not_mem_cons hfront)]
        exact congrArg some (Nat.add_right_comm ..)
  have hdrop : (front ++ (m :: marker ++ rest)).drop (front.length + (m :: marker).length) =
      rest := by
    rw [← List.append_assoc, ← List.length_append, List.drop_left]
  rw [cut?, hend, Option.map_some, Nat.add_sub_cancel, List.take_left, hdrop]

/-- No marker ends in the text, however much of one stands before it. -/
def Lacks (marker text : List α) : Prop :=
  forall p pending, p :: pending <:+ marker -> endOfMarker? marker (p :: pending) text = none

theorem lacks_nil (marker : List α) : Lacks marker [] :=
  fun _ _ _ => rfl

theorem endOfMarker?_of_not_mem {marker pending rest : List α} {c m : α}
    (hc : c ∉ m :: marker) (hpending : pending <:+ m :: marker) (hne : pending ≠ [])
    (hrest : endOfMarker? (m :: marker) (m :: marker) rest = none) :
    endOfMarker? (m :: marker) pending (c :: rest) = none := by
  cases pending with
  | nil => exact absurd rfl hne
  | cons p pending =>
      have hcp : c ≠ p := by
        rintro rfl
        exact hc (hpending.mem List.mem_cons_self)
      rw [endOfMarker?, if_neg hcp, hrest]
      rfl

/-- A line without any element of the marker makes the scan start anew. -/
theorem lacks_line {m : α} {marker line rest : List α} (hne : line ≠ [])
    (hline : forall c, c ∈ line -> c ∉ m :: marker)
    (hrest : endOfMarker? (m :: marker) (m :: marker) rest = none) :
    Lacks (m :: marker) (line ++ rest) := by
  induction line with
  | nil => exact absurd rfl hne
  | cons c line ih =>
      intro p pending hsuffix
      have htail : endOfMarker? (m :: marker) (m :: marker) (line ++ rest) = none := by
        cases line with
        | nil => exact hrest
        | cons d line =>
            exact ih (List.cons_ne_nil d line) (fun e he => hline e (List.mem_cons_of_mem c he))
              m marker (List.suffix_refl _)
      exact endOfMarker?_of_not_mem (hline c List.mem_cons_self) hsuffix
        (List.cons_ne_nil p pending) htail

theorem lacks_lines {m : α} {marker lineEnd : List α} {lines : List (List α)}
    (hlines : forall line, line ∈ lines ->
      line ≠ [] ∧ forall c, c ∈ line -> c ∉ m :: marker)
    (hend : forall rest, Lacks (m :: marker) rest ->
      endOfMarker? (m :: marker) (m :: marker) (lineEnd ++ rest) = none) :
    Lacks (m :: marker) (lines.flatMap (· ++ lineEnd)) := by
  induction lines with
  | nil => exact lacks_nil _
  | cons line lines ih =>
      rcases hlines line List.mem_cons_self with ⟨hne, hline⟩
      have htail := ih (fun other hother => hlines other (List.mem_cons_of_mem line hother))
      rw [List.flatMap_cons, List.append_assoc]
      exact lacks_line hne hline (hend _ htail)

theorem cut?_of_lacks {m : α} {marker text : List α} (h : Lacks (m :: marker) text) :
    cut? (m :: marker) text = none := by
  rw [cut?, h m marker (List.suffix_refl _)]
  rfl

/-!
## Pieces
-/

theorem ne_nil_of_mem_chunks {α : Type} {width : Nat} {l piece : List α}
    (h : piece ∈ chunks width l) : piece ≠ [] := by
  fun_induction chunks width l with
  | case1 => cases h
  | case2 x rest ih =>
      rcases List.mem_cons.mp h with rfl | htail
      · exact List.cons_ne_nil _ _
      · exact ih htail

theorem mem_of_mem_chunks {α : Type} {width : Nat} {l piece : List α} {x : α}
    (h : piece ∈ chunks width l) (hx : x ∈ piece) : x ∈ l := by
  rw [← flatten_chunks width l]
  exact List.mem_flatten_of_mem h hx

end Text

/-!
## Data
-/

namespace Base64

theorem mem_encode {b : Bytes} {c : Char} (h : c ∈ encode b) :
    c = '=' ∨ exists n, n < 64 ∧ c = symbol n := by
  fun_induction encode b with
  | case1 => cases h
  | case2 a n =>
      have ha := a.toNat_lt
      simp only [List.mem_cons, List.not_mem_nil, or_false] at h
      rcases h with h | h | h | h
      · exact .inr ⟨_, by omega, h⟩
      · exact .inr ⟨_, by omega, h⟩
      · exact .inl h
      · exact .inl h
  | case3 a b n =>
      have ha := a.toNat_lt
      have hb := b.toNat_lt
      simp only [List.mem_cons, List.not_mem_nil, or_false] at h
      rcases h with h | h | h | h
      · exact .inr ⟨_, by omega, h⟩
      · exact .inr ⟨_, by omega, h⟩
      · exact .inr ⟨_, by omega, h⟩
      · exact .inl h
  | case4 a b c rest n ih =>
      have ha := a.toNat_lt
      have hb := b.toNat_lt
      have hc := c.toNat_lt
      simp only [List.mem_cons] at h
      rcases h with h | h | h | h | h
      · exact .inr ⟨_, by omega, h⟩
      · exact .inr ⟨_, by omega, h⟩
      · exact .inr ⟨_, by omega, h⟩
      · exact .inr ⟨_, by omega, h⟩
      · exact ih h

theorem isData_symbol {n : Nat} (h : n < 64) :
    symbol n ≠ '-' ∧ Text.isBlank (symbol n) = false := by
  revert n
  decide

theorem isData_of_mem_encode {b : Bytes} {c : Char} (h : c ∈ encode b) :
    c ≠ '-' ∧ Text.isBlank c = false := by
  rcases mem_encode h with rfl | ⟨n, hn, rfl⟩
  · decide
  · exact isData_symbol hn

end Base64

/-!
## Blocks
-/

namespace Pem

def crlf : List Char := ['\r', '\n']

def payload (b : Bytes) : List Char :=
  (Text.chunks 64 (Base64.encode b)).flatMap (· ++ crlf)

theorem encode_eq (b : Block) :
    encode crlf b = beginMarker ++ (b.label ++ (dashes ++
      (crlf ++ (payload b.contents ++ (endMarker ++ (b.label ++ (dashes ++ crlf))))))) := by
  simp only [encode, payload, List.append_assoc]

theorem isData_of_mem_line {b : Bytes} {line : List Char} {c : Char}
    (hline : line ∈ Text.chunks 64 (Base64.encode b)) (hc : c ∈ line) :
    c ≠ '-' ∧ Text.isBlank c = false :=
  Base64.isData_of_mem_encode (Text.mem_of_mem_chunks hline hc)

theorem mem_payload {b : Bytes} {c : Char} (h : c ∈ payload b) :
    c ∈ crlf ∨ (c ≠ '-' ∧ Text.isBlank c = false) := by
  rcases List.mem_flatMap.mp h with ⟨line, hline, hc⟩
  rcases List.mem_append.mp hc with hc | hc
  · exact .inr (isData_of_mem_line hline hc)
  · exact .inl hc

theorem dash_not_mem_payload (b : Bytes) : '-' ∉ payload b := by
  intro h
  rcases mem_payload h with hcrlf | ⟨hne, -⟩
  · exact absurd hcrlf (by decide)
  · exact hne rfl

theorem filter_line {b : Bytes} {line : List Char}
    (hline : line ∈ Text.chunks 64 (Base64.encode b)) :
    (line ++ crlf).filter (fun c => !Text.isBlank c) = line := by
  have hdata : line.filter (fun c => !Text.isBlank c) = line := by
    rw [List.filter_eq_self]
    intro c hc
    rw [(isData_of_mem_line hline hc).2]
    rfl
  have hend : crlf.filter (fun c => !Text.isBlank c) = [] := by decide
  rw [List.filter_append, hdata, hend, List.append_nil]

theorem filter_payload (b : Bytes) :
    (payload b).filter (fun c => !Text.isBlank c) = Base64.encode b := by
  rw [payload, List.filter_flatMap, List.flatMap_congr (fun line hline => filter_line hline),
    List.flatMap_id', Text.flatten_chunks]

theorem contents?_payload (b : Bytes) : contents? (payload b) = some b := by
  rw [contents?, filter_payload, Base64.decode?_encode]

theorem not_mem_of_mem_line {b : Bytes} {line marker : List Char}
    (hmarker : forall c, c ∈ marker -> Text.isBlank c = true)
    (hline : line ∈ Text.chunks 64 (Base64.encode b)) :
    line ≠ [] ∧ forall c, c ∈ line -> c ∉ marker := by
  refine ⟨Text.ne_nil_of_mem_chunks hline, ?_⟩
  intro c hc hmem
  have hblank := hmarker c hmem
  rw [(isData_of_mem_line hline hc).2] at hblank
  cases hblank

theorem splitHeaders_payload (b : Bytes) : splitHeaders (payload b) = ([], payload b) := by
  have hfeeds : Text.cut? ['\n', '\n'] (payload b) = none := by
    refine Text.cut?_of_lacks (Text.lacks_lines ?_ ?_)
    · intro line hline
      exact not_mem_of_mem_line (by simp [Text.isBlank]) hline
    · intro rest hrest
      have hpending := hrest '\n' [] (List.suffix_cons '\n' ['\n'])
      simp [crlf, Text.endOfMarker?, hpending]
  have hreturns : Text.cut? ['\r', '\n', '\r', '\n'] (payload b) = none := by
    refine Text.cut?_of_lacks (Text.lacks_lines ?_ ?_)
    · intro line hline
      exact not_mem_of_mem_line (by simp [Text.isBlank]) hline
    · intro rest hrest
      have hpending := hrest '\r' ['\n'] ⟨['\r', '\n'], rfl⟩
      simp [crlf, Text.endOfMarker?, hpending]
  rw [splitHeaders, hfeeds, hreturns]

theorem isGap_of_isBlank {c : Char} (h : Text.isBlank c = false) : isGap c = false := by
  rw [isGap, Bool.or_eq_false_iff, Bool.or_eq_false_iff, Bool.or_eq_false_iff]
  simp only [decide_eq_false_iff_not]
  refine ⟨⟨⟨?_, ?_⟩, ?_⟩, ?_⟩ <;> (rintro rfl; exact absurd h (by decide))

theorem dropWhile_isGap (b : Bytes) (rest : List Char) :
    (crlf ++ (payload b ++ (endMarker ++ rest))).dropWhile isGap =
      payload b ++ (endMarker ++ rest) := by
  have hcrlf : forall text : List Char, (crlf ++ text).dropWhile isGap = text.dropWhile isGap :=
    fun _ => rfl
  rw [hcrlf, payload]
  cases hlines : Text.chunks 64 (Base64.encode b) with
  | nil => rfl
  | cons line lines =>
      have hline : line ∈ Text.chunks 64 (Base64.encode b) := by
        rw [hlines]
        exact List.mem_cons_self
      cases line with
      | nil => exact absurd rfl (Text.ne_nil_of_mem_chunks hline)
      | cons c line =>
          have hdata := isGap_of_isBlank (isData_of_mem_line hline List.mem_cons_self).2
          rw [List.flatMap_cons, List.cons_append, List.cons_append, List.cons_append,
            List.dropWhile_cons_of_neg (by rw [hdata]; exact Bool.false_ne_true)]

theorem frame?_encode {b : Block} (hlabel : '-' ∉ b.label) :
    frame? (encode crlf b) = some (b.label, payload b.contents, b.label) := by
  have hbegin (rest : List Char) : Text.cut? beginMarker (beginMarker ++ rest) =
      some ([], rest) := Text.cut?_append List.not_mem_nil rest
  have hdashes (rest : List Char) : Text.cut? dashes (b.label ++ (dashes ++ rest)) =
      some (b.label, rest) := Text.cut?_append hlabel rest
  have hend (rest : List Char) :
      Text.cut? endMarker (payload b.contents ++ (endMarker ++ rest)) =
        some (payload b.contents, rest) := Text.cut?_append (dash_not_mem_payload _) rest
  rw [frame?, encode_eq]
  simp only [hbegin, hdashes, dropWhile_isGap, hend, Option.bind_eq_bind, Option.bind_some]
  rfl

theorem parse_encode {b : Block} (hne : b.label ≠ []) (hlabel : '-' ∉ b.label) :
    parse (encode crlf b) = .ok b := by
  rw [parse, frame?_encode hlabel]
  simp only [if_neg hne, splitHeaders_payload, contents?_payload]
  rw [if_neg (not_not_intro rfl)]
  rfl

end Pem
end PaperPairing
