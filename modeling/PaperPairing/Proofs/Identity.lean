import Mathlib.Data.Bool.AllAny
import PaperPairing.Identity
import PaperPairing.Proofs.Pem.Strict
import PaperPairing.Proofs.Registration.HonestRun
import PaperPairing.Proofs.Rsa.Stored

/-!
# Stored identities

An identity is loaded from every text that it is stored as, and the text that it writes
is one of them.  So a text that was loaded and written once more is written the same way
ever after.
-/

namespace PaperPairing
namespace Identity

theorem ofKey?_key (i : Identity) : ofKey? i.key = some i := by
  rw [ofKey?, dif_pos i.sound]

theorem load_of_decodeStrict? {i : Identity} {text : List Char} {info : Bytes}
    (htext : Pem.decodeStrict? privateLabel text = some info)
    (hinfo : Rsa.readPrivateInfo? info = some i.key) : load (String.ofList text) = .ok i := by
  rw [load, ofPrivateText?, String.toList_ofList, htext, Option.bind_eq_bind, Option.bind_some,
    hinfo, Option.bind_eq_bind, Option.bind_some, ofKey?_key]

/-!
## Written texts
-/

theorem privateText_eq_ok {i : Identity} {s : String} (h : i.privateText = .ok s) :
    exists info, i.key.privateInfo? = some info ∧
      s = String.ofList (Pem.encode ['\n'] ⟨privateLabel, info⟩) := by
  unfold privateText at h
  split at h
  next info hinfo => exact ⟨info, hinfo, (Except.ok.inj h).symm⟩
  next => cases h

theorem load_privateText {i : Identity} {s : String} (h : i.privateText = .ok s) :
    load s = .ok i := by
  rcases privateText_eq_ok h with ⟨info, hinfo, rfl⟩
  rcases Rsa.Key.eq_storedInfo_of_privateInfo? hinfo with ⟨_, -, hform, -⟩
  have hne : info ≠ [] := by
    rw [hform]
    exact List.cons_ne_nil _ _
  have hdecode : Pem.decodeStrict? privateLabel (Pem.encode ['\n'] ⟨privateLabel, info⟩) =
      some info :=
    Pem.decodeStrict?_encode (fun _ h => absurd h List.not_mem_nil) (by decide) hne
  exact load_of_decodeStrict? hdecode (Rsa.Key.readPrivateInfo?_of_privateInfo? i.sound hinfo)

/-!
## Stored texts
-/

/-- How an identity is stored: the lines before the block, the line end within it, the
values for faster arithmetic, and the attributes behind the key. -/
structure StoredForm (i : Identity) where
  preamble : List (List Char)
  lineEnd : List Char
  shortcuts : Rsa.Shortcuts
  attributes : List Bytes
  preamble_skipped : forall line, line ∈ preamble -> Pem.IsSkipped line
  lineEnd_mem : lineEnd ∈ Pem.lineEnds
  length_le :
    (i.key.storedInfo shortcuts 0 (attributes.flatMap Rsa.attributes)).length ≤ Der.maxLength

namespace StoredForm

variable {i : Identity} (f : StoredForm i)

def info : Bytes :=
  i.key.storedInfo f.shortcuts 0 (f.attributes.flatMap Rsa.attributes)

def text : String :=
  String.ofList
    (f.preamble.flatMap (· ++ ['\n']) ++ Pem.encode f.lineEnd ⟨privateLabel, f.info⟩)

theorem readPrivateInfo?_info : Rsa.readPrivateInfo? f.info = some i.key :=
  Rsa.Key.readPrivateInfo?_storedInfo i.sound
    (Rsa.isTail_attributes
      (Nat.le_trans (Rsa.Key.length_tail_le_length_storedInfo _ _ _ _) f.length_le))
    f.length_le

theorem load_text : load f.text = .ok i := by
  have hne : f.info ≠ [] := List.cons_ne_nil _ _
  exact load_of_decodeStrict?
    (Pem.decodeStrict?_encode f.preamble_skipped f.lineEnd_mem hne) f.readPrivateInfo?_info

end StoredForm

/-- What is written for a loaded identity is loaded as the same identity, with the same
public text, and written the same way again; and however the identity was stored before,
it is loaded. -/
theorem stored_identity_reloads :
    (forall t i s, load t = .ok i -> i.privateText = .ok s ->
      exists j, load s = .ok j ∧ j.publicText = i.publicText ∧ j.privateText = .ok s) ∧
    (forall (i : Identity) (f : StoredForm i), load f.text = .ok i) := by
  refine ⟨?_, fun i f => f.load_text⟩
  intro t i s _ hwritten
  exact ⟨i, load_privateText hwritten, rfl, hwritten⟩

/-!
## A stored form

Its exponent for the second factor is not the one that belongs to the key.
-/

def sampleForm : StoredForm Registration.sampleIdentity where
  preamble := ["Bag Attributes\r".toList, "    friendlyName: paper\r".toList]
  lineEnd := Pem.crlf
  shortcuts := ⟨1, 1, 7⟩
  attributes := [[0x31, 0x00]]
  preamble_skipped := by
    intro line hline
    simp only [List.mem_cons, List.not_mem_nil, or_false] at hline
    rcases hline with rfl | rfl
    · exact ⟨List.all_iff_forall_prop.mp (by decide), by decide⟩
    · exact ⟨List.all_iff_forall_prop.mp (by decide), by decide⟩
  lineEnd_mem := by decide
  length_le := by decide

theorem stored_identity_reloads_sampleForm :
    exists s, load sampleForm.text = .ok Registration.sampleIdentity ∧
      Registration.sampleIdentity.privateText = .ok s ∧
      exists j, load s = .ok j ∧ j.publicText = Registration.sampleIdentity.publicText ∧
        j.privateText = .ok s := by
  rcases Registration.exists_privateText_sampleIdentity with ⟨s, hs⟩
  have hload := stored_identity_reloads.2 _ sampleForm
  exact ⟨s, hload, hs, stored_identity_reloads.1 _ _ _ hload hs⟩

end Identity
end PaperPairing
