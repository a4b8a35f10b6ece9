import PaperPairing.Pem.Strict
import PaperPairing.Proofs.Pem.Armour

/-!
# Written blocks read strictly

A written block with contents is read back from its text, behind any lines that do not
begin a block and with any of the three line ends.  What is between the markers are rows
of 64 characters: the rows begin and end with data, so a line end is taken off between
two of them and nowhere else.
-/

namespace PaperPairing

namespace Text

variable {α : Type} {l : List α} {n : Nat}

theorem chunks_eq_cons (hne : l ≠ []) :
    chunks (n + 1) l = l.take (n + 1) :: chunks (n + 1) (l.drop (n + 1)) := by
  cases l with
  | nil => exact absurd rfl hne
  | cons x rest => rw [chunks, Nat.add_sub_cancel, List.take_succ_cons, List.drop_succ_cons]

theorem chunks_ne_nil (hne : l ≠ []) : chunks (n + 1) l ≠ [] := by
  rw [chunks_eq_cons hne]
  exact List.cons_ne_nil _ _

end Text

theorem Base64.encode_ne_nil {b : Bytes} (h : b ≠ []) : encode b ≠ [] := by
  fun_cases encode b with
  | case1 => exact absurd rfl h
  | case2 => exact List.cons_ne_nil _ _
  | case3 => exact List.cons_ne_nil _ _
  | case4 => exact List.cons_ne_nil _ _

namespace Pem

/-!
## Line ends
-/

def lineEnds : List (List Char) :=
  [['\n'], crlf, ['\r']]

theorem length_pos_of_mem_lineEnds {lineEnd : List Char} (h : lineEnd ∈ lineEnds) :
    0 < lineEnd.length := by
  simp only [lineEnds, List.mem_cons, List.not_mem_nil, or_false] at h
  rcases h with rfl | rfl | rfl <;> decide

theorem stripLineEnd?_append {lineEnd rest : List Char} (h : lineEnd ∈ lineEnds)
    (hrest : rest.head? ≠ some '\n') : stripLineEnd? (lineEnd ++ rest) = some rest := by
  simp only [lineEnds, List.mem_cons, List.not_mem_nil, or_false] at h
  rcases h with rfl | rfl | rfl
  · rfl
  · rfl
  · cases rest with
    | nil => rfl
    | cons c rest =>
        have hc : c ≠ '\n' := fun hc => hrest (congrArg some hc)
        rw [List.singleton_append, stripLineEnd?]
        simpa using hc

theorem stripFinalLineEnd?_append {lineEnd text : List Char} (h : lineEnd ∈ lineEnds)
    (htext : text.getLast? ≠ some '\r') : stripFinalLineEnd? (text ++ lineEnd) = some text := by
  rw [← List.head?_reverse] at htext
  rw [stripFinalLineEnd?, List.reverse_append]
  simp only [lineEnds, List.mem_cons, List.not_mem_nil, or_false] at h
  rcases h with rfl | rfl | rfl
  · split
    next hreverse =>
      rw [List.reverse_singleton, List.singleton_append, List.cons.injEq] at hreverse
      exact absurd (by rw [hreverse.2]; rfl) htext
    next hreverse =>
      rw [List.reverse_singleton, List.singleton_append, List.cons.injEq] at hreverse
      rw [← hreverse.2, List.reverse_reverse]
    next hreverse => cases hreverse
    next hfeed _ => exact absurd rfl (hfeed text.reverse)
  · exact congrArg some text.reverse_reverse
  · exact congrArg some text.reverse_reverse

theorem dropFinalLineEnd_append {lineEnd text : List Char} (h : lineEnd ∈ lineEnds)
    (htext : text.getLast? ≠ some '\r') : dropFinalLineEnd (text ++ lineEnd) = text := by
  rw [dropFinalLineEnd, stripFinalLineEnd?_append h htext]
  rfl

theorem dropFinalLineEnd_eq_self {text : List Char} (hfeed : text.getLast? ≠ some '\n')
    (hreturn : text.getLast? ≠ some '\r') : dropFinalLineEnd text = text := by
  rw [← List.head?_reverse] at hfeed hreturn
  have hnone : stripFinalLineEnd? text = none := by
    rw [stripFinalLineEnd?]
    split
    next hreverse => exact absurd (by rw [hreverse]; rfl) hfeed
    next hreverse => exact absurd (by rw [hreverse]; rfl) hfeed
    next hreverse => exact absurd (by rw [hreverse]; rfl) hreturn
    · rfl
  rw [dropFinalLineEnd, hnone]
  rfl

/-!
## Lines before the block
-/

def IsSkipped (line : List Char) : Prop :=
  (forall c, c ∈ line -> c ≠ '\n' ∧ c.toNat ≠ 0) ∧ ¬ beginMarker <+: line

theorem skipPreamble?_of_begin (rest : List Char) :
    skipPreamble? (beginMarker ++ rest) = some (beginMarker ++ rest) := by
  rw [skipPreamble?, Text.stripStart?_append]
  rfl

theorem skipPreambleFrom?_line {line : List Char}
    (hline : forall c, c ∈ line -> c ≠ '\n' ∧ c.toNat ≠ 0) (rest : List Char) :
    skipPreambleFrom? (line ++ '\n' :: rest) = skipPreamble? rest := by
  induction line with
  | nil =>
      rw [List.nil_append, skipPreambleFrom?, if_neg (by decide), skipPreamble?]
      simp
  | cons c line ih =>
      rcases hline c List.mem_cons_self with ⟨hfeed, hzero⟩
      rw [List.cons_append, skipPreambleFrom?, if_neg hzero,
        if_neg (fun h => hfeed h.1),
        ih (fun d hd => hline d (List.mem_cons_of_mem c hd))]

theorem skipPreamble?_line {line : List Char} (h : IsSkipped line) (rest : List Char) :
    skipPreamble? (line ++ '\n' :: rest) = skipPreamble? rest := by
  have hfeed : '\n' ∉ beginMarker := by decide
  have hnone : ¬ (Text.stripStart? beginMarker (line ++ '\n' :: rest)).isSome := by
    intro hsome
    rcases Option.isSome_iff_exists.mp hsome with ⟨behind, hbehind⟩
    have hmarker : beginMarker <+: (line ++ ['\n']) ++ rest :=
      ⟨behind, by rw [List.append_assoc]; exact (Text.eq_append_of_stripStart? hbehind).symm⟩
    rcases List.prefix_or_prefix_of_prefix hmarker (List.prefix_append _ _) with hshort | hlong
    · rcases List.prefix_concat_iff.mp hshort with heq | hline
      · exact hfeed (by rw [heq]; simp)
      · exact h.2 hline
    · exact hfeed (hlong.mem (by simp))
  rw [skipPreamble?, if_neg hnone, skipPreambleFrom?_line h.1]

theorem skipPreamble?_lines {lines : List (List Char)}
    (h : forall line, line ∈ lines -> IsSkipped line) (rest : List Char) :
    skipPreamble? (lines.flatMap (· ++ ['\n']) ++ rest) = skipPreamble? rest := by
  induction lines with
  | nil => rfl
  | cons line lines ih =>
      rw [List.flatMap_cons, List.append_assoc, List.append_assoc, List.singleton_append,
        skipPreamble?_line (h line List.mem_cons_self),
        ih (fun other hother => h other (List.mem_cons_of_mem line hother))]

/-!
## Rows of data
-/

/-- Data in rows of 64 characters, with line ends between them. -/
def rows (lineEnd data : List Char) : List Char :=
  lineEnd.intercalate (Text.chunks 64 data)

section

variable (lineEnd : List Char) {data : List Char}

theorem rows_of_length_le (h : data.length ≤ 64) : rows lineEnd data = data := by
  by_cases hne : data = []
  · rw [hne]
    simp [rows, Text.chunks]
  · rw [rows, Text.chunks_eq_cons hne, List.take_of_length_le h, List.drop_of_length_le h]
    simp [Text.chunks]

theorem rows_of_lt_length (h : 64 < data.length) :
    rows lineEnd data = data.take 64 ++ (lineEnd ++ rows lineEnd (data.drop 64)) := by
  have hne : data ≠ [] := List.ne_nil_of_length_pos (by omega)
  have hrest : data.drop 64 ≠ [] := by
    rw [Ne, List.drop_eq_nil_iff]
    omega
  rw [rows, Text.chunks_eq_cons hne, List.intercalate_cons_of_ne_nil (Text.chunks_ne_nil hrest),
    List.append_assoc]
  rfl

/-- Data that does not fit in one row is longer than the data behind its first row. -/
theorem rows_induction {motive : List Char -> Prop}
    (short : forall data, data.length ≤ 64 -> motive data)
    (long : forall data, 64 < data.length -> motive (data.drop 64) -> motive data)
    (data : List Char) : motive data := by
  by_cases h : data.length ≤ 64
  · exact short data h
  · exact long data (Nat.lt_of_not_le h) (rows_induction short long (data.drop 64))
termination_by data.length
decreasing_by
  rw [List.length_drop]
  omega

theorem head?_rows : (rows lineEnd data).head? = data.head? := by
  by_cases h : data.length ≤ 64
  · rw [rows_of_length_le lineEnd h]
  · rw [rows_of_lt_length lineEnd (Nat.lt_of_not_le h)]
    cases data with
    | nil => exact absurd (Nat.zero_le 64) h
    | cons c data => rfl

theorem rows_ne_nil (hne : data ≠ []) : rows lineEnd data ≠ [] := by
  intro h
  have hhead : (rows lineEnd data).head? = data.head? := head?_rows lineEnd
  rw [h, List.head?_nil, eq_comm, List.head?_eq_none_iff] at hhead
  exact hne hhead

theorem getLast?_rows : (rows lineEnd data).getLast? = data.getLast? := by
  induction data using rows_induction with
  | short data h => rw [rows_of_length_le lineEnd h]
  | long data h ih =>
      have hne : data ≠ [] := List.ne_nil_of_length_pos (by omega)
      rw [rows_of_lt_length lineEnd h, List.getLast?_append, List.getLast?_append, ih,
        List.getLast?_drop, if_neg (Nat.not_le_of_lt h), List.getLast?_eq_some_getLast hne]
      rfl

theorem flatMap_chunks (hne : data ≠ []) :
    (Text.chunks 64 data).flatMap (· ++ lineEnd) = rows lineEnd data ++ lineEnd := by
  induction data using rows_induction with
  | short data h =>
      rw [rows_of_length_le lineEnd h, Text.chunks_eq_cons hne, List.take_of_length_le h,
        List.drop_of_length_le h]
      simp [Text.chunks]
  | long data h ih =>
      have hrest : data.drop 64 ≠ [] := by
        rw [Ne, List.drop_eq_nil_iff]
        omega
      rw [rows_of_lt_length lineEnd h, Text.chunks_eq_cons hne, List.flatMap_cons, ih hrest]
      simp only [List.append_assoc]

end

section

variable {lineEnd data : List Char}

theorem ne_of_isBlank {c : Char} (h : Text.isBlank c = false) : c ≠ '\n' ∧ c ≠ '\r' := by
  constructor <;> (rintro rfl; exact absurd h (by decide))

variable (hdata : forall c, c ∈ data -> Text.isBlank c = false)

include hdata

theorem head?_rows_ne : (rows lineEnd data).head? ≠ some '\n' := by
  rw [head?_rows]
  intro h
  exact (ne_of_isBlank (hdata _ (List.mem_of_mem_head? h))).1 rfl

theorem getLast?_rows_ne :
    (rows lineEnd data).getLast? ≠ some '\n' ∧ (rows lineEnd data).getLast? ≠ some '\r' := by
  rw [getLast?_rows]
  constructor
  · intro h
    exact (ne_of_isBlank (hdata _ (List.mem_of_getLast? h))).1 rfl
  · intro h
    exact (ne_of_isBlank (hdata _ (List.mem_of_getLast? h))).2 rfl

theorem dropFinalLineEnd_rows : dropFinalLineEnd (rows lineEnd data) = rows lineEnd data :=
  dropFinalLineEnd_eq_self (getLast?_rows_ne hdata).1 (getLast?_rows_ne hdata).2

theorem joinLines?_rows (hend : lineEnd ∈ lineEnds) :
    joinLines? (rows lineEnd data) = some data := by
  induction data using rows_induction with
  | short data h =>
      have hdrop : dropFinalLineEnd (rows lineEnd data) = rows lineEnd data :=
        dropFinalLineEnd_rows hdata
      rw [rows_of_length_le lineEnd h] at hdrop ⊢
      rw [joinLines?, if_pos h, hdrop]
  | long data h ih =>
      have hbehind : forall c, c ∈ data.drop 64 -> Text.isBlank c = false :=
        fun c hc => hdata c (List.mem_of_mem_drop hc)
      have hempty : isEmptyLine (rows lineEnd (data.drop 64)) = false := by
        rw [isEmptyLine, dropFinalLineEnd_rows hbehind]
        simp
      have htake : (data.take 64).length = 64 := by
        rw [List.length_take]
        omega
      have hlength : ¬ (rows lineEnd data).length ≤ 64 := by
        have hpositive := length_pos_of_mem_lineEnds hend
        rw [rows_of_lt_length lineEnd h, List.length_append, List.length_append, htake]
        omega
      have hstrip : stripLineEnd? ((rows lineEnd data).drop 64) =
          some (rows lineEnd (data.drop 64)) := by
        rw [rows_of_lt_length lineEnd h, List.drop_left' htake]
        exact stripLineEnd?_append hend (head?_rows_ne hbehind)
      have hfirst : (rows lineEnd data).take 64 = data.take 64 := by
        rw [rows_of_lt_length lineEnd h, List.take_left' htake]
      rw [joinLines?, if_neg hlength]
      split
      next rest found =>
        rw [hstrip] at found
        cases found
        rw [hempty, hfirst, ih hbehind]
        exact congrArg some (List.take_append_drop 64 data)
      next found =>
        rw [hstrip] at found
        cases found

end

/-!
## Blocks
-/

def firstLine (label : List Char) : List Char :=
  beginMarker ++ label ++ dashes

def lastLine (label : List Char) : List Char :=
  endMarker ++ label ++ dashes

theorem encode_eq_rows (lineEnd : List Char) {b : Block} (hne : b.contents ≠ []) :
    encode lineEnd b = firstLine b.label ++ (lineEnd ++
      ((rows lineEnd (Base64.encode b.contents) ++ lineEnd ++ lastLine b.label) ++ lineEnd)) := by
  rw [encode, flatMap_chunks lineEnd (Base64.encode_ne_nil hne)]
  simp only [firstLine, lastLine, List.append_assoc]

theorem getLast?_append_lastLine (text label : List Char) :
    (text ++ lastLine label).getLast? = some '-' := by
  rw [lastLine, ← List.append_assoc, List.getLast?_append]
  rfl

theorem body?_of_skipPreamble? {text lineEnd : List Char} {b : Block}
    (hend : lineEnd ∈ lineEnds) (hne : b.contents ≠ [])
    (htext : skipPreamble? text = some (encode lineEnd b)) :
    body? b.label text = some (rows lineEnd (Base64.encode b.contents)) := by
  have hdata (c : Char) (hc : c ∈ Base64.encode b.contents) : Text.isBlank c = false :=
    (Base64.isData_of_mem_encode hc).2
  have hhead : ((rows lineEnd (Base64.encode b.contents) ++ lineEnd ++ lastLine b.label) ++
      lineEnd).head? ≠ some '\n' := by
    have hrows := rows_ne_nil lineEnd (Base64.encode_ne_nil hne)
    rw [List.append_assoc, List.append_assoc, List.head?_append_of_ne_nil _ hrows]
    exact head?_rows_ne hdata
  have hlast : (rows lineEnd (Base64.encode b.contents) ++ lineEnd ++
      lastLine b.label).getLast? ≠ some '\r' := by
    rw [getLast?_append_lastLine]
    decide
  have hfirst (rest : List Char) :
      Text.stripStart? (beginMarker ++ b.label ++ dashes) (firstLine b.label ++ rest) =
        some rest := Text.stripStart?_append _ rest
  have hmarker (front : List Char) :
      Text.stripEnd? (endMarker ++ b.label ++ dashes) (front ++ lastLine b.label) =
        some front := Text.stripEnd?_append front _
  rw [body?, htext, encode_eq_rows lineEnd hne]
  simp only [Option.bind_eq_bind, Option.bind_some]
  rw [hfirst, Option.bind_some, stripLineEnd?_append hend hhead, Option.bind_some,
    dropFinalLineEnd_append hend hlast, hmarker, Option.bind_some]
  exact stripFinalLineEnd?_append hend (getLast?_rows_ne hdata).2

theorem decodeStrict?_encode {lines : List (List Char)} {lineEnd : List Char} {b : Block}
    (hlines : forall line, line ∈ lines -> IsSkipped line) (hend : lineEnd ∈ lineEnds)
    (hne : b.contents ≠ []) :
    decodeStrict? b.label (lines.flatMap (· ++ ['\n']) ++ encode lineEnd b) =
      some b.contents := by
  have hdata (c : Char) (hc : c ∈ Base64.encode b.contents) : Text.isBlank c = false :=
    (Base64.isData_of_mem_encode hc).2
  have hstart : skipPreamble? (lines.flatMap (· ++ ['\n']) ++ encode lineEnd b) =
      some (encode lineEnd b) := by
    rw [skipPreamble?_lines hlines, encode_eq_rows lineEnd hne, firstLine, List.append_assoc,
      List.append_assoc, skipPreamble?_of_begin]
  rw [decodeStrict?, body?_of_skipPreamble? hend hne hstart, Option.bind_eq_bind,
    Option.bind_some, joinLines?_rows hdata hend, Option.bind_some, Base64.decode?_encode]

end Pem
end PaperPairing
