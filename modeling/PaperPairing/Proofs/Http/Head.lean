import Mathlib.Data.Bool.AllAny
import PaperPairing.Http.Response
import PaperPairing.Proofs.Text.Numeral

/-!
# Heads of responses

The head of a response is a status line and header lines, each ended by a carriage
return and a line feed, and an empty line.  It is cut off at its end whatever follows
it, nothing shorter is taken for it, and its lines are read one by one.
-/

namespace PaperPairing

/-!
## Lines and words
-/

namespace Text

variable {α : Type} [DecidableEq α]

theorem stripStart?_eq_some_iff {marker text rest : List α} :
    stripStart? marker text = some rest ↔ text = marker ++ rest := by
  constructor
  · exact eq_append_of_stripStart?
  · rintro rfl
    exact stripStart?_append marker rest

theorem linesFrom_append {line : List Char} (hline : '\n' ∉ line) (current rest : List Char) :
    linesFrom current (line ++ '\n' :: rest) =
      dropReturn (current.reverse ++ line) :: linesFrom [] rest := by
  induction line generalizing current with
  | nil => rw [List.nil_append, linesFrom, if_pos rfl, List.append_nil]
  | cons c line ih =>
      have hc : c ≠ '\n' := (List.ne_of_not_mem_cons hline).symm
      rw [List.cons_append, linesFrom, if_neg hc, ih (List.not_mem_of_not_mem_cons hline),
        List.reverse_cons, List.append_assoc]
      rfl

theorem lines_append {line : List Char} (hline : '\n' ∉ line) (rest : List Char) :
    lines (line ++ '\r' :: '\n' :: rest) = line :: lines rest := by
  have hreturn : '\n' ∉ line ++ ['\r'] := by simp [hline]
  have hfirst := linesFrom_append hreturn [] rest
  rw [List.append_assoc] at hfirst
  rw [lines]
  refine hfirst.trans ?_
  simp [dropReturn, lines]

theorem linesFrom_self {line : List Char} (hline : '\n' ∉ line) (current : List Char) :
    linesFrom current line =
      if current.reverse ++ line = [] then [] else [current.reverse ++ line] := by
  induction line generalizing current with
  | nil => simp [linesFrom]
  | cons c line ih =>
      have hc : c ≠ '\n' := (List.ne_of_not_mem_cons hline).symm
      rw [linesFrom, if_neg hc, ih (List.not_mem_of_not_mem_cons hline)]
      simp

theorem lines_self {line : List Char} (hne : line ≠ []) (hline : '\n' ∉ line) :
    lines line = [line] := by
  rw [lines, linesFrom_self hline]
  simp [hne]

theorem wordsFrom_append {word : List Char} (hword : forall c, c ∈ word -> isBlank c = false)
    {blank : Char} (hblank : isBlank blank = true) (current rest : List Char)
    (hne : current.reverse ++ word ≠ []) :
    wordsFrom current (word ++ blank :: rest) =
      (current.reverse ++ word) :: wordsFrom [] rest := by
  induction word generalizing current with
  | nil =>
      have hcurrent : current ≠ [] := by
        rintro rfl
        exact hne rfl
      rw [List.nil_append, wordsFrom, if_pos hblank, if_neg hcurrent, List.append_nil]
  | cons c word ih =>
      have hc : ¬ isBlank c = true := by simp [hword c List.mem_cons_self]
      rw [List.cons_append, wordsFrom, if_neg hc,
        ih (fun d hd => hword d (List.mem_cons_of_mem c hd)) _ (by simp)]
      simp

theorem words_append {word : List Char} (hne : word ≠ [])
    (hword : forall c, c ∈ word -> isBlank c = false) (rest : List Char) :
    words (word ++ ' ' :: rest) = word :: words rest :=
  wordsFrom_append hword rfl [] rest hne

end Text

/-!
## Cutting at a mark
-/

namespace Http

theorem stripStart?_append_of_none {mark b : Bytes} (hlength : mark.length ≤ b.length)
    (h : Text.stripStart? mark b = none) (rest : Bytes) :
    Text.stripStart? mark (b ++ rest) = none := by
  rw [Option.eq_none_iff_forall_ne_some] at h ⊢
  intro after hafter
  have hmark : mark <+: b ++ rest := ⟨after, (Text.stripStart?_eq_some_iff.mp hafter).symm⟩
  rcases List.prefix_of_prefix_length_le hmark (List.prefix_append b rest) hlength with ⟨more, hb⟩
  exact h more (Text.stripStart?_eq_some_iff.mpr hb.symm)

/-- What follows does not move the first mark. -/
theorem cutAt?_append {mark b before after : Bytes} (h : cutAt? mark b = some (before, after))
    (rest : Bytes) : cutAt? mark (b ++ rest) = some (before, after ++ rest) := by
  induction b generalizing before with
  | nil =>
      rw [cutAt?] at h
      split at h
      next hmark =>
        cases h
        subst hmark
        cases rest <;> rfl
      · cases h
  | cons x b ih =>
      rw [cutAt?] at h
      split at h
      next found hfound =>
        cases h
        have hmore : Text.stripStart? mark (x :: b ++ rest) = some (after ++ rest) := by
          rw [Text.stripStart?_eq_some_iff, Text.stripStart?_eq_some_iff.mp hfound,
            List.append_assoc]
        rw [List.cons_append] at hmore
        rw [List.cons_append, cutAt?, hmore]
      next hnone =>
        rcases Option.map_eq_some_iff.mp h with ⟨⟨front, back⟩, hcut, hparts⟩
        cases hparts
        have hlength := congrArg List.length (eq_of_cutAt? hcut)
        simp only [List.length_append] at hlength
        have hmore := stripStart?_append_of_none (by simp only [List.length_cons]; omega) hnone rest
        rw [List.cons_append] at hmore
        rw [List.cons_append, cutAt?, hmore, ih hcut]
        rfl

/-- A proper part of what ends with its first mark has none. -/
theorem cutAt?_of_cut_at_end {mark b rest before : Bytes} (hne : rest ≠ [])
    (h : cutAt? mark (b ++ rest) = some (before, [])) : cutAt? mark b = none := by
  rw [Option.eq_none_iff_forall_ne_some]
  rintro ⟨front, after⟩ hcut
  rw [cutAt?_append hcut rest] at h
  have hnil := (Prod.mk.inj (Option.some.inj h)).2
  exact hne (List.append_eq_nil_iff.mp hnil).2

theorem cutAt?_of_not_mem {m : UInt8} {mark front : Bytes} (hfront : m ∉ front) (rest : Bytes) :
    cutAt? (m :: mark) (front ++ rest) =
      (cutAt? (m :: mark) rest).map (fun parts => (front ++ parts.1, parts.2)) := by
  induction front with
  | nil =>
      rw [List.nil_append]
      exact Option.map_id'.symm
  | cons x front ih =>
      have hx : x ≠ m := (List.ne_of_not_mem_cons hfront).symm
      rw [List.cons_append, cutAt?, Text.stripStart?, if_neg hx,
        ih (List.not_mem_of_not_mem_cons hfront), Option.map_map]
      rfl

theorem cutAt?_self {m : UInt8} (mark rest : Bytes) :
    cutAt? (m :: mark) (m :: mark ++ rest) = some ([], rest) := by
  have hfound := Text.stripStart?_append (m :: mark) rest
  rw [List.cons_append] at hfound ⊢
  rw [cutAt?, hfound]

/-!
## Written heads
-/

/-- A line with something in it and without any part of a line end. -/
def IsLine (b : Bytes) : Prop :=
  b ≠ [] ∧ 0x0D ∉ b ∧ 0x0A ∉ b

/-- The status line of a success: version, code and reason with a space between them. -/
structure StatusLine where
  version : Bytes
  code : Nat
  reason : Bytes
  version_ne_nil : version ≠ []
  version_printable : forall x, x ∈ version -> 0x21 ≤ x ∧ x ≤ 0x7E
  success : 200 ≤ code ∧ code < 300
  reason_free : 0x0D ∉ reason ∧ 0x0A ∉ reason

namespace StatusLine

def codeText (s : StatusLine) : List Char :=
  Nat.toDigits 10 s.code

def bytes (s : StatusLine) : Bytes :=
  s.version ++ 0x20 :: (Utf8.encodeChars s.codeText ++ 0x20 :: s.reason)

end StatusLine

/-- A header line that begins with the name of the transfer coding and has the word for
chunks in it, in any case of letters. -/
def NamesChunked (line : Bytes) : Prop :=
  Utf8.encode "transfer-encoding:" <+: line.map Utf8.lower ∧
    Utf8.encode "chunked" <:+: line.map Utf8.lower

def head (s : StatusLine) (headers : List Bytes) : Bytes :=
  (s.bytes :: headers).flatMap (· ++ lineEnd) ++ lineEnd

/-- A head without the line end of its last line and the empty line. -/
def headText (first : Bytes) (headers : List Bytes) : Bytes :=
  first ++ headers.flatMap (lineEnd ++ ·)

theorem head_eq (s : StatusLine) (headers : List Bytes) :
    head s headers = headText s.bytes headers ++ (lineEnd ++ lineEnd) := by
  have hshift (first : Bytes) : (first :: headers).flatMap (· ++ lineEnd) =
      headText first headers ++ lineEnd := by
    induction headers generalizing first with
    | nil => simp [headText]
    | cons line headers ih =>
        rw [List.flatMap_cons, ih]
        simp [headText]
  rw [head, hshift, List.append_assoc]

/-!
## Where a head ends
-/

theorem cutAt?_lineEnd_append {line : Bytes} (hline : IsLine line) (rest : Bytes) :
    cutAt? (lineEnd ++ lineEnd) (lineEnd ++ (line ++ rest)) =
      (cutAt? (lineEnd ++ lineEnd) (line ++ rest)).map
        (fun parts => (lineEnd ++ parts.1, parts.2)) := by
  rcases hline with ⟨hne, hreturn, -⟩
  have hstrip : Text.stripStart? (lineEnd ++ lineEnd) (lineEnd ++ (line ++ rest)) = none := by
    cases line with
    | nil => exact absurd rfl hne
    | cons y line =>
        have hy : y ≠ 0x0D := (List.ne_of_not_mem_cons hreturn).symm
        simp [lineEnd, Text.stripStart?, hy]
  have hfeed : (0x0D : UInt8) ∉ [0x0A] := by decide
  have hskip : cutAt? (lineEnd ++ lineEnd) ([0x0A] ++ (line ++ rest)) =
      (cutAt? (lineEnd ++ lineEnd) (line ++ rest)).map
        (fun parts => ([0x0A] ++ parts.1, parts.2)) :=
    cutAt?_of_not_mem hfeed (line ++ rest)
  simp only [lineEnd, List.cons_append, List.nil_append] at hstrip hskip ⊢
  rw [cutAt?, hstrip, hskip, Option.map_map]
  rfl

theorem cutAt?_headText {first : Bytes} (hfirst : 0x0D ∉ first) {headers : List Bytes}
    (hheaders : forall h, h ∈ headers -> IsLine h) (rest : Bytes) :
    cutAt? (lineEnd ++ lineEnd) (headText first headers ++ (lineEnd ++ lineEnd ++ rest)) =
      some (headText first headers, rest) := by
  have hself : cutAt? (lineEnd ++ lineEnd) (lineEnd ++ lineEnd ++ rest) = some ([], rest) :=
    cutAt?_self [0x0A, 0x0D, 0x0A] rest
  have hskip {front : Bytes} (hfront : 0x0D ∉ front) (back : Bytes) :
      cutAt? (lineEnd ++ lineEnd) (front ++ back) =
        (cutAt? (lineEnd ++ lineEnd) back).map (fun parts => (front ++ parts.1, parts.2)) :=
    cutAt?_of_not_mem hfront back
  induction headers generalizing first with
  | nil =>
      rw [headText, List.flatMap_nil, List.append_nil]
      rw [hskip hfirst, hself, Option.map_some, List.append_nil]
  | cons line headers ih =>
      have hline := hheaders line List.mem_cons_self
      have htail := ih hline.2.1 (fun h hh => hheaders h (List.mem_cons_of_mem line hh))
      have hsplit : headText first (line :: headers) =
          first ++ (lineEnd ++ headText line headers) := by
        simp [headText]
      rw [hsplit, List.append_assoc, List.append_assoc, hskip hfirst]
      rw [headText, List.append_assoc line] at htail ⊢
      rw [cutAt?_lineEnd_append hline, htail, Option.map_some, Option.map_some]

theorem toDigits_code : forall n, n < 100 ->
    Numeral.read? 10 UInt16.size (Nat.toDigits 10 (200 + n)) = some (200 + n) ∧
      Nat.toDigits 10 (200 + n) ≠ [] := by
  decide +kernel

namespace StatusLine

variable (s : StatusLine)

theorem read?_codeText : Numeral.read? 10 UInt16.size s.codeText = some s.code := by
  rcases Nat.exists_eq_add_of_le s.success.1 with ⟨n, hn⟩
  have hlt := s.success.2
  rw [codeText, hn]
  exact (toDigits_code n (by omega)).1

theorem codeText_ne_nil : s.codeText ≠ [] := by
  rcases Nat.exists_eq_add_of_le s.success.1 with ⟨n, hn⟩
  have hlt := s.success.2
  rw [codeText, hn]
  exact (toDigits_code n (by omega)).2

theorem isDigit_codeText {c : Char} (hc : c ∈ s.codeText) :
    0x30 ≤ c.toNat ∧ c.toNat ≤ 0x39 := by
  have hdigit := Nat.isDigit_of_mem_toDigits (by decide) (Nat.le_refl 10) hc
  rw [Char.isDigit, Bool.and_eq_true, decide_eq_true_iff, decide_eq_true_iff] at hdigit
  exact hdigit

theorem not_mem_bytes {x : UInt8} (hx : x < 0x20) (hreason : x ∉ s.reason) : x ∉ s.bytes := by
  have hspace : x ≠ 0x20 := UInt8.ne_of_lt hx
  have hversion : x ∉ s.version := by
    intro h
    have hprintable := (s.version_printable x h).1
    rw [UInt8.le_iff_toNat_le] at hprintable
    rw [UInt8.lt_iff_toNat_lt] at hx
    simp only [UInt8.reduceToNat] at hprintable hx
    omega
  have hcode : x ∉ Utf8.encodeChars s.codeText := by
    intro h
    rcases List.mem_flatMap.mp h with ⟨c, hc, hbyte⟩
    have hdigit := s.isDigit_codeText hc
    rw [Utf8.encodeChar_of_lt (by omega), List.mem_singleton] at hbyte
    rw [hbyte, Utf8.ofNat_lt_iff (by omega)] at hx
    simp only [UInt8.reduceToNat] at hx
    omega
  simp [bytes, hversion, hspace, hcode, hreason]

end StatusLine

theorem cutAt?_head (s : StatusLine) {headers : List Bytes}
    (hheaders : forall h, h ∈ headers -> IsLine h) (rest : Bytes) :
    cutAt? (lineEnd ++ lineEnd) (head s headers ++ rest) =
      some (headText s.bytes headers, rest) := by
  rw [head_eq, List.append_assoc]
  exact cutAt?_headText (s.not_mem_bytes (by decide) s.reason_free.1) hheaders rest

theorem body_of_cut_head (s : StatusLine) {headers : List Bytes}
    (hheaders : forall h, h ∈ headers -> IsLine h) {raw rest : Bytes} (hne : rest ≠ [])
    (hraw : raw ++ rest = head s headers) : body raw = .error .truncatedHead := by
  have hwhole := cutAt?_head s hheaders []
  rw [List.append_nil, ← hraw] at hwhole
  rw [body, cutAt?_of_cut_at_end hne hwhole]

/-!
## What a head says
-/

theorem lines_headText {first : Bytes} (hfirst : IsLine first) {headers : List Bytes}
    (hheaders : forall h, h ∈ headers -> IsLine h) :
    Text.lines (Utf8.decodeLossy (headText first headers)) =
      Utf8.decodeLossy first :: headers.map Utf8.decodeLossy := by
  have hfeed {line : Bytes} (hline : IsLine line) : '\n' ∉ Utf8.decodeLossy line :=
    fun h => hline.2.2 (Utf8.mem_of_mem_decodeLossy (by decide) h)
  induction headers generalizing first with
  | nil =>
      rw [headText, List.flatMap_nil, List.append_nil, List.map_nil]
      exact Text.lines_self (Utf8.decodeLossy_ne_nil hfirst.1) (hfeed hfirst)
  | cons line headers ih =>
      have htail := ih (hheaders line List.mem_cons_self)
        (fun h hh => hheaders h (List.mem_cons_of_mem line hh))
      have hsplit : headText first (line :: headers) =
          first ++ 0x0D :: ([] ++ 0x0A :: headText line headers) := by
        simp [headText, lineEnd]
      rw [hsplit, Utf8.decodeLossy_append (by decide), Utf8.decodeLossy_append (by decide),
        Utf8.decodeLossy_nil, List.nil_append]
      refine (Text.lines_append (hfeed hfirst) _).trans ?_
      rw [htail, List.map_cons]

namespace StatusLine

variable (s : StatusLine)

theorem isLine_bytes : IsLine s.bytes :=
  ⟨by simp [bytes], s.not_mem_bytes (by decide) s.reason_free.1,
    s.not_mem_bytes (by decide) s.reason_free.2⟩

theorem isBlank_version {c : Char} (hc : c ∈ Utf8.decodeLossy s.version) :
    Text.isBlank c = false := by
  have hrange : forall x, x ∈ s.version -> 0x21 ≤ x.toNat ∧ x.toNat < 0x7F := by
    intro x hx
    have hprintable := s.version_printable x hx
    simp only [UInt8.le_iff_toNat_le, UInt8.reduceToNat] at hprintable
    omega
  have hascii : forall x, x ∈ s.version -> x < 0x80 := by
    intro x hx
    have hlt := hrange x hx
    rw [UInt8.lt_iff_toNat_lt]
    simp only [UInt8.reduceToNat]
    omega
  rw [Utf8.decodeLossy_of_lt hascii] at hc
  rcases List.mem_map.mp hc with ⟨x, hx, rfl⟩
  have hbounds := hrange x hx
  have hvalue : (Char.ofNat x.toNat).toNat = x.toNat := Utf8.val_ofNat (by omega)
  exact Text.isBlank_of_printable (by rwa [hvalue])

theorem isBlank_codeText {c : Char} (hc : c ∈ s.codeText) : Text.isBlank c = false := by
  have hdigit := s.isDigit_codeText hc
  exact Text.isBlank_of_printable (by omega)

theorem words_bytes : (Text.words (Utf8.decodeLossy s.bytes))[1]? = some s.codeText := by
  have hspace : Char.ofNat (0x20 : UInt8).toNat = ' ' := rfl
  rw [bytes, Utf8.decodeLossy_append (by decide), Utf8.decodeLossy_append (by decide),
    Utf8.decodeLossy_encodeChars, hspace,
    Text.words_append (Utf8.decodeLossy_ne_nil s.version_ne_nil) (fun _ => s.isBlank_version),
    Text.words_append s.codeText_ne_nil (fun _ => s.isBlank_codeText)]
  rfl

theorem status?_bytes (headers : List (List Char)) :
    status? (Utf8.decodeLossy s.bytes :: headers) = some (UInt16.ofNat s.code) := by
  simp only [status?, List.head?_cons, Option.bind_eq_bind, Option.bind_some, s.words_bytes,
    s.read?_codeText, Option.map_some]

theorem not_refused : ¬ (UInt16.ofNat s.code < 200 ∨ 300 ≤ UInt16.ofNat s.code) := by
  have hsuccess := s.success
  have hvalue : (UInt16.ofNat s.code).toNat = s.code := by
    rw [UInt16.toNat_ofNat']
    omega
  rw [UInt16.lt_iff_toNat_lt, UInt16.le_iff_toNat_le, hvalue]
  simp only [UInt16.reduceToNat]
  omega

end StatusLine

theorem occurs_iff {word text : List Char} : occurs word text = true ↔ word <:+: text := by
  induction text with
  | nil => simp [occurs]
  | cons c rest ih =>
      rw [occurs, Bool.or_eq_true, ih, List.isPrefixOf_iff_prefix, List.infix_cons_iff]

/-- What is looked for in the text of a header line stands in its bytes. -/
theorem asksForChunks_iff (line : Bytes) :
    asksForChunks (Utf8.decodeLossy line) = true ↔ NamesChunked line := by
  have hname : forall c, c ∈ encodingField -> c.toNat < 128 :=
    List.all_iff_forall_prop.mp (by decide)
  have hword : forall c, c ∈ chunked -> c.toNat < 128 :=
    List.all_iff_forall_prop.mp (by decide)
  have hne : chunked ≠ [] := by decide
  rw [asksForChunks, Bool.and_eq_true, List.isPrefixOf_iff_prefix, occurs_iff,
    Utf8.prefix_toLower_iff hname, Utf8.infix_toLower_iff hne hword]
  rfl

theorem any_asksForChunks_iff {headers : List Bytes} :
    (headers.map Utf8.decodeLossy).any asksForChunks = true ↔
      exists h, h ∈ headers ∧ NamesChunked h := by
  simp only [List.any_map, List.any_eq_true, Function.comp_apply, asksForChunks_iff]

theorem body_head (s : StatusLine) {headers : List Bytes}
    (hheaders : forall h, h ∈ headers -> IsLine h) (rest : Bytes) :
    body (head s headers ++ rest) =
      if (headers.map Utf8.decodeLossy).any asksForChunks then joinChunks rest else .ok rest := by
  rw [body, cutAt?_head s hheaders]
  simp only [lines_headText s.isLine_bytes hheaders, s.status?_bytes, if_neg s.not_refused,
    List.tail_cons]

end Http
end PaperPairing
