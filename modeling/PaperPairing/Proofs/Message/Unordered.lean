import Mathlib
import PaperPairing.Proofs.Message.RoundTrip

/-!
# Bodies as unordered letters

A body is read for its letters alone.  The order of its members, the blanks between its
tokens and all members that are no letters make no difference to what becomes of it, and
an array is the object that gives its items to the letters in order.
-/

namespace PaperPairing

open Json (IsTextOf IsForeign)

namespace Letters

theorem ofJson?_of_fields? {v w : Json}
    (h : Json.fields? fieldNames v = Json.fields? fieldNames w) : ofJson? v = ofJson? w := by
  rw [ofJson?, h, ofJson?]

/-!
## Bodies that are texts of values
-/

section

variable {v w : Json} {text text' : Bytes}

theorem ofBody_of_isTextOf (h : IsTextOf v text) : ofBody text =
    match ofJson? v with
    | some l => .ok l
    | none => .error (.parse (.json "no record of letters")) := by
  rw [ofBody, Json.parse?_of_isTextOf h]
  rfl

theorem ofBody_eq_of_fields? (hv : IsTextOf v text) (hw : IsTextOf w text')
    (h : Json.fields? fieldNames v = Json.fields? fieldNames w) : ofBody text = ofBody text' := by
  rw [ofBody_of_isTextOf hv, ofBody_of_isTextOf hw, ofJson?_of_fields? h]

theorem ofBody_of_perm {l : Letters} {members extra : List (Bytes × Json)}
    (htext : IsTextOf (.object members) text)
    (hmembers : members.Perm (extra ++ Json.namedMembers l.allNamed))
    (hextra : forall m, m ∈ extra -> IsForeign fieldNames m) : ofBody text = .ok l := by
  have hjson : ofJson? (.object members) = some l := by
    rw [ofJson?_of_fields? (Json.fields?_eq_of_perm hmembers hextra), ← toJson_eq, ofJson?_toJson]
  rw [ofBody_of_isTextOf htext, hjson]

theorem ofBody_of_fields?_none (hv : IsTextOf v text) (h : Json.fields? fieldNames v = none) :
    exists reason, ofBody text = .error (.parse (.json reason)) := by
  have hnone : ofJson? v = none := by
    rw [ofJson?, h]
    rfl
  rw [ofBody_of_isTextOf hv, hnone]
  exact ⟨_, rfl⟩

end

/-- Letters are read from nothing but the texts of objects and of short arrays. -/
theorem isTextOf_of_ofBody {body : Bytes} {l : Letters} (h : ofBody body = .ok l) :
    (exists members, IsTextOf (.object members) body) ∨
      exists items, items.length ≤ 5 ∧ IsTextOf (.array items) body := by
  rw [ofBody] at h
  split at h
  · next l' hl =>
      rcases Option.bind_eq_some_iff.mp hl with ⟨v, hparse, hl⟩
      have htext := Json.isTextOf_of_parse? hparse
      rcases Option.bind_eq_some_iff.mp hl with ⟨fs, hfs, -⟩
      cases v with
      | object members => exact .inl ⟨members, htext⟩
      | array items =>
          rcases Option.ite_none_right_eq_some.mp hfs with ⟨hlength, -⟩
          exact .inr ⟨items, hlength, htext⟩
      | _ => cases hfs
  · cases h

end Letters

/-!
## Messages
-/

namespace Message

/-- The outcome is that of the letters of a body, and depends on nothing else in it.  A
letter that comes twice is refused, whatever it holds. -/
structure Unordered (α : Type) [Message α] : Prop where
  reads_letters {l : Letters} {members extra : List (Bytes × Json)} {text : Bytes}
    (htext : IsTextOf (.object members) text)
    (hmembers : members.Perm (extra ++ Json.namedMembers l.allNamed))
    (hextra : forall m, m ∈ extra -> IsForeign Letters.fieldNames m) :
    (ofBody text : Except Error α) = ofLetters l
  same_outcome {members members' common extra extra' : List (Bytes × Json)}
    {text text' : Bytes} (htext : IsTextOf (.object members) text)
    (htext' : IsTextOf (.object members') text') (hmembers : members.Perm (extra ++ common))
    (hmembers' : members'.Perm (extra' ++ common))
    (hextra : forall m, m ∈ extra -> IsForeign Letters.fieldNames m)
    (hextra' : forall m, m ∈ extra' -> IsForeign Letters.fieldNames m) :
    (ofBody text : Except Error α) = ofBody text'
  refuses_twice {members : List (Bytes × Json)} {m m' : Bytes × Json} {letter : Letter}
    {text : Bytes} (htext : IsTextOf (.object members) text)
    (htwice : [m, m'].Sublist members) (hm : Json.readText? m.1 = some letter.name)
    (hm' : Json.readText? m'.1 = some letter.name) :
    exists reason, (ofBody text : Except Error α) = .error (.parse (.json reason))
  array_as_object {items : List Json} {text text' : Bytes} (hlength : items.length ≤ 5)
    (htext : IsTextOf (.array items) text)
    (htext' : IsTextOf (.object (List.zipWith Json.member Letters.fieldNames items)) text') :
    (ofBody text : Except Error α) = ofBody text'

section

variable {α : Type} [Message α] {text text' : Bytes}

theorem ofBody_congr (h : Letters.ofBody text = Letters.ofBody text') :
    (ofBody text : Except Error α) = ofBody text' := by
  rw [ofBody, h, ofBody]

theorem ofBody_of_letters_error {e : Error} (h : Letters.ofBody text = .error e) :
    (ofBody text : Except Error α) = .error e := by
  rw [ofBody, h]
  rfl

end

theorem unordered (α : Type) [Message α] : Unordered α where
  reads_letters := by
    intro l members extra text htext hmembers hextra
    exact ofBody_of_letters (Letters.ofBody_of_perm htext hmembers hextra)
  same_outcome := by
    intro members members' common extra extra' text text' htext htext' hmembers hmembers'
      hextra hextra'
    apply ofBody_congr
    apply Letters.ofBody_eq_of_fields? htext htext'
    rw [Json.fields?_eq_of_perm hmembers hextra, Json.fields?_eq_of_perm hmembers' hextra']
  refuses_twice := by
    intro members m m' letter text htext htwice hm hm'
    have hnone := Json.fields?_of_twice (Letters.name_mem_fieldNames letter) htwice hm hm'
    rcases Letters.ofBody_of_fields?_none htext hnone with ⟨reason, hreason⟩
    exact ⟨reason, ofBody_of_letters_error hreason⟩
  array_as_object := by
    intro items text text' hlength htext htext'
    apply ofBody_congr
    apply Letters.ofBody_eq_of_fields? htext htext'
    exact (Json.fields?_zipWith (by decide) hlength).symm

theorem messages_are_unordered :
    Unordered PinChallenge ∧ Unordered HashRequest ∧ Unordered HashResponse ∧
      Unordered CaRequest ∧ Unordered CaResponse ∧ Unordered RegistrationRequest :=
  ⟨unordered _, unordered _, unordered _, unordered _, unordered _, unordered _⟩

theorem messages_are_unordered_on_samples :
    ((ofBody (Utf8.encode "\x7b \"c\" : \"\", \"x\":[\x7b\x7d, 1], \"a\":\"AA==\"\x7d") :
        Except Error PinChallenge) = ofLetters ⟨some "AA==", none, some "", none, none⟩ ∧
      (ofBody (Utf8.encode "\x7b \"c\" : \"\", \"x\":[\x7b\x7d, 1], \"a\":\"AA==\"\x7d") :
        Except Error PinChallenge) =
        ofBody (Utf8.encode "\x7b\"a\":\"AA==\",\"c\":\"\"\x7d")) ∧
      (exists reason, (ofBody (Utf8.encode "\x7b\"a\":\"AA==\",\"\\u0061\":null\x7d") :
        Except Error PinChallenge) = .error (.parse (.json reason))) ∧
      (ofBody (Utf8.encode "[\"AA==\",null]") : Except Error PinChallenge) =
        ofBody (Utf8.encode "\x7b\"a\":\"AA==\",\"b\":null\x7d") := by
  constructor
  · have htext : IsTextOf
        (.object [Json.member "c" (Json.ofText ""),
          Json.member "x" (.array [.object [], Json.ofNat 1]),
          Json.member "a" (Json.ofText "AA==")])
        (Utf8.encode "\x7b \"c\" : \"\", \"x\":[\x7b\x7d, 1], \"a\":\"AA==\"\x7d") :=
      Json.isTextOf_of_parse? (by cbv)
    have hletters : IsTextOf
        (.object [Json.member "a" (Json.ofText "AA=="), Json.member "c" (Json.ofText "")])
        (Utf8.encode "\x7b\"a\":\"AA==\",\"c\":\"\"\x7d") := Json.isTextOf_of_parse? (by cbv)
    have hforeign : forall m, m ∈ [Json.member "x" (.array [.object [], Json.ofNat 1])] ->
        IsForeign Letters.fieldNames m := by
      intro m hm
      rw [List.mem_singleton.mp hm]
      exact ⟨"x", Json.readText?_escape "x", by decide⟩
    have hperm := (List.Perm.swap (Json.member "x" (.array [.object [], Json.ofNat 1]))
      (Json.member "c" (Json.ofText "")) [Json.member "a" (Json.ofText "AA==")]).trans
      ((List.Perm.swap (Json.member "a" (Json.ofText "AA=="))
        (Json.member "c" (Json.ofText "")) []).cons _)
    exact ⟨messages_are_unordered.1.reads_letters htext hperm hforeign,
      messages_are_unordered.1.same_outcome htext hletters hperm (List.Perm.refl ([] ++ _))
        hforeign (by simp)⟩
  constructor
  · have htext : IsTextOf
        (.object [Json.member "a" (Json.ofText "AA=="),
          ([0x5C, 0x75, 0x30, 0x30, 0x36, 0x31], .null)])
        (Utf8.encode "\x7b\"a\":\"AA==\",\"\\u0061\":null\x7d") :=
      Json.isTextOf_of_parse? (by cbv)
    have hkey : Json.readText? (Json.escape "a") = some Letter.a.name := Json.readText?_escape "a"
    exact messages_are_unordered.1.refuses_twice htext (List.Sublist.refl _) hkey (by cbv)
  · have harray : IsTextOf (.array [Json.ofText "AA==", .null])
        (Utf8.encode "[\"AA==\",null]") := Json.isTextOf_of_parse? (by cbv)
    have hobject : IsTextOf
        (.object [Json.member "a" (Json.ofText "AA=="), Json.member "b" .null])
        (Utf8.encode "\x7b\"a\":\"AA==\",\"b\":null\x7d") := Json.isTextOf_of_parse? (by cbv)
    exact messages_are_unordered.1.array_as_object (by decide) harray hobject

end Message
end PaperPairing
