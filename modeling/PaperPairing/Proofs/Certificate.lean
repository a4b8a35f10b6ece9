import Mathlib.Data.List.TakeWhile
import PaperPairing.Certificate
import PaperPairing.Error
import PaperPairing.Proofs.Pem.Armour
import PaperPairing.Proofs.Text.Utf8

/-!
# Certificates are kept or armoured

Bytes that begin like a PEM text are kept just if they are the text of a certificate;
all other bytes are armoured and read back from their armour.  Either way the result
is the text of a certificate, so that a second pass keeps it.
-/

namespace PaperPairing
namespace Certificate

/-- Blanks, and then what a PEM text begins with. -/
def BeginsAsPem (b : Bytes) : Prop :=
  exists blanks rest, (forall x, x ∈ blanks -> isAsciiBlank x = true) ∧
    b = blanks ++ (beginBytes ++ rest)

def IsCertificateText (s : String) : Prop :=
  exists contents, Pem.parse s.toList = .ok ⟨label, contents⟩

/-- Normalising as a caller sees it: a fault is an invalid certificate. -/
def reported (b : Bytes) : Except Error String :=
  (normalize b).mapError (fun fault => .parse (.invalidCertificate fault.message))

/-!
## What looks like PEM
-/

theorem dropWhile_blanks (rest : Bytes) :
    (beginBytes ++ rest).dropWhile isAsciiBlank = beginBytes ++ rest :=
  List.dropWhile_cons_of_neg (by decide)

theorem looksLikePem_iff {b : Bytes} : looksLikePem b = true ↔ BeginsAsPem b := by
  rw [looksLikePem, List.isPrefixOf_iff_prefix]
  constructor
  · rintro ⟨rest, hrest⟩
    refine ⟨b.takeWhile isAsciiBlank, rest, fun x hx => List.mem_takeWhile_imp hx, ?_⟩
    rw [hrest, List.takeWhile_append_dropWhile]
  · rintro ⟨blanks, rest, hblanks, rfl⟩
    rw [List.dropWhile_append_of_pos hblanks, dropWhile_blanks]
    exact List.prefix_append _ _

theorem reported_eq_ok_iff {b : Bytes} {s : String} :
    reported b = .ok s ↔ normalize b = .ok s := by
  rw [reported]
  cases normalize b <;> simp [Except.mapError]

/-!
## Kept texts
-/

theorem ne_nil_of_beginsAsPem {b : Bytes} (h : BeginsAsPem b) : b ≠ [] := by
  rcases h with ⟨blanks, rest, -, rfl⟩
  intro hnil
  have hbegin := (List.append_eq_nil_iff.mp (List.append_eq_nil_iff.mp hnil).2).1
  exact absurd hbegin (by decide)

theorem normalize_of_beginsAsPem {b : Bytes} (h : BeginsAsPem b) (s : String) :
    normalize b = .ok s ↔ b = Utf8.encode s ∧ IsCertificateText s := by
  rw [normalize, if_neg (ne_nil_of_beginsAsPem h), if_pos (looksLikePem_iff.mpr h)]
  constructor
  · intro hs
    cases hdecode : Utf8.decode? b with
    | none =>
        rw [hdecode] at hs
        cases hs
    | some text =>
        cases hparse : Pem.parse text.toList with
        | error cause =>
            simp only [hdecode, hparse] at hs
            cases hs
        | ok block =>
            simp only [hdecode, hparse] at hs
            split at hs
            next hlabel =>
              cases hs
              refine ⟨(Utf8.encode_of_decode? hdecode).symm, block.contents, ?_⟩
              rw [hparse, ← hlabel]
            · cases hs
  · rintro ⟨rfl, contents, hparse⟩
    simp only [Utf8.decode?_encode, hparse]
    rfl

/-!
## Armoured bytes
-/

theorem toList_armour (b : Bytes) : (armour b).toList = Pem.encode Pem.crlf ⟨label, b⟩ :=
  String.toList_ofList

theorem parse_armour (b : Bytes) : Pem.parse (armour b).toList = .ok ⟨label, b⟩ := by
  have hne : label ≠ [] := by decide
  have hdash : '-' ∉ label := by decide
  rw [toList_armour]
  exact Pem.parse_encode hne hdash

theorem beginsAsPem_armour (b : Bytes) : BeginsAsPem (Utf8.encode (armour b)) := by
  have hmarker : Pem.beginMarker = "-----BEGIN".toList ++ [' '] := by decide
  have hbytes : exists rest, Utf8.encode (armour b) = beginBytes ++ rest := by
    rw [Utf8.encode, toList_armour, Pem.encode_eq, hmarker, List.append_assoc]
    exact ⟨_, List.flatMap_append⟩
  rcases hbytes with ⟨rest, hrest⟩
  exact ⟨[], rest, by simp, hrest⟩

theorem normalize_of_not_beginsAsPem {b : Bytes} (hne : b ≠ []) (h : ¬ BeginsAsPem b) :
    normalize b = .ok (armour b) := by
  rw [normalize, if_neg hne, if_neg (mt looksLikePem_iff.mp h)]

theorem isCertificateText_of_normalize {b : Bytes} {s : String} (h : normalize b = .ok s) :
    BeginsAsPem (Utf8.encode s) ∧ IsCertificateText s := by
  by_cases hbegins : BeginsAsPem b
  · rcases (normalize_of_beginsAsPem hbegins s).mp h with ⟨hb, htext⟩
    exact ⟨hb ▸ hbegins, htext⟩
  · have hne : b ≠ [] := by
      rintro rfl
      cases h
    rw [normalize_of_not_beginsAsPem hne hbegins] at h
    cases h
    exact ⟨beginsAsPem_armour b, b, parse_armour b⟩

/-!
## Normal forms
-/

/-- Whatever comes out is the text of a certificate and is kept by a second pass.  Bytes
that do not begin like a PEM text always come back from their armour; bytes that do are
kept as they are, if they spell the text of a certificate, and refused otherwise; and a
refusal is always an invalid certificate. -/
theorem certificates_are_kept_or_armoured (b : Bytes) :
    (forall s, reported b = .ok s ->
      IsCertificateText s ∧ reported (Utf8.encode s) = .ok s) ∧
    (b ≠ [] -> ¬ BeginsAsPem b ->
      exists s, reported b = .ok s ∧ Pem.parse s.toList = .ok ⟨label, b⟩) ∧
    (BeginsAsPem b -> forall s,
      reported b = .ok s ↔ b = Utf8.encode s ∧ IsCertificateText s) ∧
    (forall e, reported b = .error e -> exists text, e = .parse (.invalidCertificate text)) := by
  simp only [reported_eq_ok_iff]
  refine ⟨?_, ?_, normalize_of_beginsAsPem, ?_⟩
  · intro s h
    rcases isCertificateText_of_normalize h with ⟨hbegins, htext⟩
    exact ⟨htext, (normalize_of_beginsAsPem hbegins s).mpr ⟨rfl, htext⟩⟩
  · intro hne hbegins
    exact ⟨armour b, normalize_of_not_beginsAsPem hne hbegins, parse_armour b⟩
  · intro e h
    rw [reported] at h
    cases hnormal : normalize b with
    | ok s =>
        rw [hnormal] at h
        cases h
    | error fault =>
        rw [hnormal] at h
        cases h
        exact ⟨fault.message, rfl⟩

theorem certificates_are_kept_or_armoured_on_samples :
    [0x20] ≠ ([] : Bytes) ∧ ¬ BeginsAsPem [0x20] ∧
    (exists s, reported [0x20] = .ok s ∧ Pem.parse s.toList = .ok ⟨label, [0x20]⟩ ∧
      reported (Utf8.encode s) = .ok s) ∧
    BeginsAsPem (Utf8.encode (armour [0x20])) ∧
    reported (Utf8.encode (armour [0x20])) = .ok (armour [0x20]) ∧
    (exists text, reported [] = .error (.parse (.invalidCertificate text))) := by
  have hblank : ¬ BeginsAsPem [0x20] := by
    rw [← looksLikePem_iff]
    decide
  have hbegins := beginsAsPem_armour [0x20]
  have hkept := ((certificates_are_kept_or_armoured _).2.2.1 hbegins (armour [0x20])).mpr
    ⟨rfl, _, parse_armour [0x20]⟩
  rcases certificates_are_kept_or_armoured [0x20] with ⟨hagain, hback, -, -⟩
  rcases hback (by decide) hblank with ⟨s, hs, hparse⟩
  rcases (certificates_are_kept_or_armoured []).2.2.2 _ rfl with ⟨text, htext⟩
  exact ⟨by decide, hblank, ⟨s, hs, hparse, (hagain s hs).2⟩, hbegins, hkept, text,
    congrArg Except.error htext⟩

end Certificate
end PaperPairing
