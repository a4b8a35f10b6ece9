import PaperPairing.Config
import PaperPairing.Credentials
import PaperPairing.Proofs.Json.Writing

/-!
# Stored credentials and configurations

Credentials and configurations read back from the text they are stored as.  A
configuration may be given by some of its fields, in any order and among members under
other names; the fields that are not given have their defaults.
-/

namespace PaperPairing

open Json (IsTextOf IsForeign IsWritable)

/-!
## Credentials
-/

namespace Credentials

def items (c : Credentials) : List Json :=
  [Json.ofText c.certificate, Json.ofText c.privateKey, Json.ofText c.clientId]

theorem nodup_fieldNames : fieldNames.Nodup := by
  decide

theorem toJson_eq (c : Credentials) :
    c.toJson = .object (List.zipWith Json.member fieldNames c.items) :=
  rfl

theorem ofJson?_toJson (c : Credentials) : ofJson? c.toJson = some c := by
  have hlength : c.items.length = fieldNames.length := rfl
  rw [toJson_eq, ofJson?, Json.fields?_of_length nodup_fieldNames hlength]
  simp [items, Json.toText?_ofText]

theorem isWritable_toJson (c : Credentials) : IsWritable c.toJson := by
  rw [toJson_eq]
  apply Json.isWritable_zipWith
  simp [items, Json.isWritable_ofText]

theorem ofText?_toText (c : Credentials) : ofText? c.toText = some c := by
  have hparse := Json.parse?_of_isTextOf (Json.isTextOf_render c.isWritable_toJson)
  rw [ofText?, toText, hparse]
  exact c.ofJson?_toJson

end Credentials

/-!
## Methods and endpoints
-/

namespace Method

theorem ofJson?_toJson (m : Method) : ofJson? m.toJson = some m := by
  rw [toJson, Json.ofText, ofJson?, Json.readText?_escape]
  exact ofName?_name m

end Method

namespace Endpoint

def items (e : Endpoint) : List Json :=
  [Json.ofText e.path, e.method.toJson]

theorem nodup_fieldNames : fieldNames.Nodup := by
  decide

theorem toJson_eq (e : Endpoint) :
    e.toJson = .object (List.zipWith Json.member fieldNames e.items) :=
  rfl

theorem ofJson?_toJson (e : Endpoint) : ofJson? e.toJson = some e := by
  have hlength : e.items.length = fieldNames.length := rfl
  rw [toJson_eq, ofJson?, Json.fields?_of_length nodup_fieldNames hlength]
  simp [items, Json.toText?_ofText, Method.ofJson?_toJson]

theorem isWritable_toJson (e : Endpoint) : IsWritable e.toJson := by
  rw [toJson_eq]
  apply Json.isWritable_zipWith
  simp [items, Method.toJson, Json.isWritable_ofText]

end Endpoint

namespace Endpoints

def items (e : Endpoints) : List Json :=
  [e.cleanup.toJson, e.pin.toJson, e.hash.toJson, e.ca.toJson, e.register.toJson]

theorem nodup_fieldNames : fieldNames.Nodup := by
  decide

theorem toJson_eq (e : Endpoints) :
    e.toJson = .object (List.zipWith Json.member fieldNames e.items) :=
  rfl

theorem ofJson?_toJson (e : Endpoints) : ofJson? e.toJson = some e := by
  have hlength : e.items.length = fieldNames.length := rfl
  rw [toJson_eq, ofJson?, Json.fields?_of_length nodup_fieldNames hlength]
  simp [items, Endpoint.ofJson?_toJson]

theorem isWritable_toJson (e : Endpoints) : IsWritable e.toJson := by
  rw [toJson_eq]
  apply Json.isWritable_zipWith
  simp [items, Endpoint.isWritable_toJson]

end Endpoints

/-!
## Configurations
-/

namespace Config

def items (c : Config) : List Json :=
  [Json.ofNat c.port.toNat, c.endpoints.toJson, Json.ofNat c.secretLength.toNat,
    .bool c.cleanupAfter]

def givenFields (c : Config) (given : String -> Bool) : List (String × Json) :=
  (fieldNames.zip c.items).filter (fun m => given m.1)

def onDefault (c : Config) (given : String -> Bool) : Config where
  port := if given "port" then c.port else default.port
  endpoints := if given "endpoints" then c.endpoints else default.endpoints
  secretLength := if given "es_len" then c.secretLength else default.secretLength
  cleanupAfter := if given "cleanup_after" then c.cleanupAfter else default.cleanupAfter

/-- The text is an object of exactly the given fields, beside members under other names. -/
def IsGivenBy (c : Config) (given : String -> Bool) (text : Bytes) : Prop :=
  exists members extra, IsTextOf (.object members) text ∧
    members.Perm (extra ++ Json.namedMembers (c.givenFields given)) ∧
    forall m, m ∈ extra -> IsForeign fieldNames m

theorem isWritable_items {c : Config} {v : Json} (h : v ∈ c.items) : IsWritable v := by
  have hall : forall v, v ∈ c.items -> IsWritable v := by
    simp [items, Json.isWritable_ofNat, Endpoints.isWritable_toJson, Json.isWritable_bool]
  exact hall v h

theorem fieldOr_given {α : Type} {fallback x : α} {read? : Json -> Option α} {v : Json}
    (h : read? v = some x) (b : Bool) :
    fieldOr fallback read? (if b then some v else none) = some (if b then x else fallback) := by
  cases b with
  | false => rfl
  | true => exact h

theorem nodup_fieldNames : fieldNames.Nodup := by
  decide

theorem fields?_givenFields (c : Config) (given : String -> Bool) :
    Json.fields? fieldNames (.object (Json.namedMembers (c.givenFields given))) =
      some [if given "port" then some (Json.ofNat c.port.toNat) else none,
        if given "endpoints" then some c.endpoints.toJson else none,
        if given "es_len" then some (Json.ofNat c.secretLength.toNat) else none,
        if given "cleanup_after" then some (.bool c.cleanupAfter) else none] := by
  have hknown : forall m, m ∈ c.givenFields given -> m.1 ∈ fieldNames := by
    intro m hm
    exact (List.of_mem_zip (List.mem_of_mem_filter hm)).1
  have hnodup : ((c.givenFields given).map Prod.fst).Nodup :=
    (List.filter_sublist.map Prod.fst).nodup (Json.nodup_map_fst_zip nodup_fieldNames c.items)
  rw [Json.fields?_namedMembers hknown hnodup]
  simp only [givenFields, Json.lookup_filter]
  rfl

theorem ofJson?_of_fields? {c : Config} {given : String -> Bool} {v : Json}
    (h : Json.fields? fieldNames v =
      Json.fields? fieldNames (.object (Json.namedMembers (c.givenFields given)))) :
    ofJson? v = some (c.onDefault given) := by
  have hport : ((Json.ofNat c.port.toNat).toNat? UInt16.size).map UInt16.ofNat = some c.port := by
    rw [Json.toNat?_ofNat c.port.toNat_lt, Option.map_some, UInt16.ofNat_toNat]
  have hlength : ((Json.ofNat c.secretLength.toNat).toNat? UInt64.size).map UInt64.ofNat =
      some c.secretLength := by
    rw [Json.toNat?_ofNat c.secretLength.toNat_lt, Option.map_some, UInt64.ofNat_toNat]
  rw [fields?_givenFields] at h
  rw [ofJson?, h]
  simp [fieldOr_given, hport, hlength, Endpoints.ofJson?_toJson, Json.toBool?, onDefault]

theorem ofText?_of_isGivenBy {c : Config} {given : String -> Bool} {text : Bytes}
    (h : c.IsGivenBy given text) : ofText? text = some (c.onDefault given) := by
  rcases h with ⟨members, extra, htext, hperm, hextra⟩
  rw [ofText?, Json.parse?_of_isTextOf htext]
  exact ofJson?_of_fields? (Json.fields?_eq_of_perm hperm hextra)

theorem isGivenBy_render (c : Config) (given : String -> Bool) :
    c.IsGivenBy given (Json.object (Json.namedMembers (c.givenFields given))).render := by
  have hwritable : IsWritable (.object (Json.namedMembers (c.givenFields given))) := by
    apply Json.isWritable_object
    intro m hm
    exact isWritable_items (List.of_mem_zip (List.mem_of_mem_filter hm)).2
  refine ⟨_, [], Json.isTextOf_render hwritable, List.Perm.refl _, ?_⟩
  intro m hm
  cases hm

theorem givenFields_all (c : Config) :
    Json.object (Json.namedMembers (c.givenFields (fun _ => true))) = c.toJson := by
  rw [givenFields, List.filter_true]
  rfl

theorem onDefault_all (c : Config) : c.onDefault (fun _ => true) = c :=
  rfl

theorem isGivenBy_toText (c : Config) : c.IsGivenBy (fun _ => true) c.toText := by
  have hgiven := c.isGivenBy_render (fun _ => true)
  rwa [givenFields_all] at hgiven

theorem ofText?_toText (c : Config) : ofText? c.toText = some c := by
  rw [ofText?_of_isGivenBy c.isGivenBy_toText, onDefault_all]

end Config

/-!
## Nothing is lost
-/

/-- Credentials read back from their text.  A configuration that is given by some of its
fields has these and defaults for the others, and its own text gives all of them. -/
theorem stored_forms_are_lossless :
    (forall c : Credentials, Credentials.ofText? c.toText = some c) ∧
      (forall (c : Config) (given : String -> Bool) (text : Bytes), c.IsGivenBy given text ->
        Config.ofText? text = some (c.onDefault given)) ∧
      forall c : Config, c.IsGivenBy (fun _ => true) c.toText ∧
        Config.ofText? c.toText = some c := by
  refine ⟨Credentials.ofText?_toText, ?_, ?_⟩
  · intro c given text h
    exact Config.ofText?_of_isGivenBy h
  · intro c
    exact ⟨c.isGivenBy_toText, c.ofText?_toText⟩

theorem stored_forms_are_lossless_on_samples :
    Credentials.ofText? (Credentials.toText ⟨"\"\\", "\n\x01", "é"⟩) =
        some ⟨"\"\\", "\n\x01", "é"⟩ ∧
      Config.ofText? (Utf8.encode "\x7b\"x\": [\"\x7d\"], \"cleanup_after\":false\x7d") =
        some { Config.default with cleanupAfter := false } := by
  constructor
  · exact stored_forms_are_lossless.1 _
  · have htext : IsTextOf
        (.object [Json.member "x" (.array [Json.ofText "\x7d"]),
          Json.member "cleanup_after" (.bool false)])
        (Utf8.encode "\x7b\"x\": [\"\x7d\"], \"cleanup_after\":false\x7d") :=
      Json.isTextOf_of_parse? (by cbv)
    have hforeign : forall m, m ∈ [Json.member "x" (.array [Json.ofText "\x7d"])] ->
        IsForeign Config.fieldNames m := by
      intro m hm
      rw [List.mem_singleton.mp hm]
      exact ⟨"x", Json.readText?_escape "x", by decide⟩
    have hgiven : Config.IsGivenBy { Config.default with cleanupAfter := false }
        (fun name => name == "cleanup_after")
        (Utf8.encode "\x7b\"x\": [\"\x7d\"], \"cleanup_after\":false\x7d") :=
      ⟨_, _, htext, List.Perm.refl _, hforeign⟩
    exact stored_forms_are_lossless.2.1 _ _ _ hgiven

end PaperPairing
