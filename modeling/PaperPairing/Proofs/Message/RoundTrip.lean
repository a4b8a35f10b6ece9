import PaperPairing.Message.Basic
import PaperPairing.Proofs.Bytes.Base64
import PaperPairing.Proofs.Json.Writing

/-!
# Messages round trip

A message that was written as a body is read back from it, field by field.
-/

namespace PaperPairing

namespace Letters

/-!
## Bodies
-/

def named (letter : Letter) : Option String -> List (String × Json)
  | none => []
  | some text => [(letter.name, Json.ofText text)]

theorem namedMembers_named (letter : Letter) (text : Option String) :
    Json.namedMembers (named letter text) = members letter text := by
  cases text <;> rfl

def allNamed (l : Letters) : List (String × Json) :=
  named .a l.a ++ named .b l.b ++ named .c l.c ++ named .d l.d ++ named .e l.e

theorem toJson_eq (l : Letters) : l.toJson = .object (Json.namedMembers l.allNamed) := by
  have hsplit : forall x y : List (String × Json),
      Json.namedMembers (x ++ y) = Json.namedMembers x ++ Json.namedMembers y := by
    intro x y
    exact List.map_append
  rw [allNamed, hsplit, hsplit, hsplit, hsplit]
  simp only [namedMembers_named]
  rfl

theorem exists_ofText_of_mem_named {letter : Letter} {text : Option String}
    {m : String × Json} (hm : m ∈ named letter text) :
    exists s, m = (letter.name, Json.ofText s) := by
  cases text with
  | none => cases hm
  | some s => exact ⟨s, List.mem_singleton.mp hm⟩

theorem exists_ofText_of_mem_allNamed {l : Letters} {m : String × Json}
    (hm : m ∈ l.allNamed) :
    exists letter s, m = (Letter.name letter, Json.ofText s) := by
  simp only [allNamed, List.mem_append] at hm
  rcases hm with (((hm | hm) | hm) | hm) | hm <;>
    exact ⟨_, exists_ofText_of_mem_named hm⟩

theorem name_mem_fieldNames (letter : Letter) : letter.name ∈ fieldNames := by
  cases letter <;> decide

theorem nodup_allNamed (l : Letters) : (l.allNamed.map Prod.fst).Nodup := by
  have hsub : (l.allNamed.map Prod.fst).Sublist fieldNames := by
    have hone : forall (letter : Letter) (text : Option String),
        ((named letter text).map Prod.fst).Sublist [letter.name] := by
      intro letter text
      cases text with
      | none => exact List.nil_sublist _
      | some s => exact List.Sublist.refl _
    simp only [allNamed, List.map_append]
    exact ((((hone .a l.a).append (hone .b l.b)).append (hone .c l.c)).append
      (hone .d l.d)).append (hone .e l.e)
  exact hsub.nodup (by decide)

theorem lookup_allNamed (l : Letters) :
    fieldNames.map (fun name => l.allNamed.lookup name) =
      [l.a, l.b, l.c, l.d, l.e].map (fun text => text.map Json.ofText) := by
  rcases l with ⟨a, b, c, d, e⟩
  cases a <;> cases b <;> cases c <;> cases d <;> cases e <;> rfl

theorem field?_ofText (text : Option String) :
    field? (text.map Json.ofText) = some text := by
  cases text with
  | none => rfl
  | some s =>
      show (Json.ofText s).toText?.map some = some (some s)
      rw [Json.toText?_ofText]
      rfl

theorem ofJson?_toJson (l : Letters) : ofJson? l.toJson = some l := by
  have hfields : Json.fields? fieldNames l.toJson =
      some ([l.a, l.b, l.c, l.d, l.e].map (fun text => text.map Json.ofText)) := by
    rw [toJson_eq, Json.fields?_namedMembers _ (nodup_allNamed l), lookup_allNamed]
    intro m hm
    rcases exists_ofText_of_mem_allNamed hm with ⟨letter, s, rfl⟩
    exact name_mem_fieldNames letter
  rw [ofJson?, hfields]
  simp [field?_ofText]

theorem ofBody_toBody (l : Letters) : ofBody l.toBody = .ok l := by
  have hwritable : Json.IsWritable l.toJson := by
    rw [toJson_eq]
    apply Json.isWritable_object
    intro m hm
    rcases exists_ofText_of_mem_allNamed hm with ⟨letter, s, rfl⟩
    exact Json.isWritable_ofText s
  have hparse : Json.parse? l.toBody = some l.toJson :=
    Json.parse?_of_isTextOf (Json.isTextOf_render hwritable)
  rw [ofBody, hparse, Option.bind_some, ofJson?_toJson]

/-!
## Fields
-/

theorem bytes_of_encode {message : String} {l : Letters} {letter : Letter} {b : Bytes}
    (h : l.get letter = encode b) : bytes message l letter = .ok b := by
  rw [bytes, h, encode]
  simp [Base64.decode?_encode]

theorem fixed_of_encode {message : String} {l : Letters} {letter : Letter} {n : Nat}
    {x : Fixed n} (h : l.get letter = encode x.bytes) :
    fixed n message l letter = .ok x := by
  rw [fixed, bytes_of_encode h]
  simp [bind, Except.bind]

end Letters

/-!
## Messages
-/

/-- A message whose fields are read back from the letters they are written to. -/
class LawfulMessage (α : Type) [Message α] : Prop where
  ofLetters_toLetters (m : α) : Message.ofLetters (Message.toLetters m) = .ok m

theorem Message.ofBody_of_letters {α : Type} [Message α] {body : Bytes} {l : Letters}
    (hl : Letters.ofBody body = .ok l) : (ofBody body : Except Error α) = ofLetters l := by
  rw [ofBody, hl]
  rfl

theorem Message.ofBody_toBody {α : Type} [Message α] [LawfulMessage α] (m : α) :
    Message.ofBody (Message.toBody m) = .ok m := by
  rw [toBody, ofBody_of_letters (Letters.ofBody_toBody _)]
  exact LawfulMessage.ofLetters_toLetters m

open Letters (bytes_of_encode fixed_of_encode)

instance : LawfulMessage PinChallenge where
  ofLetters_toLetters m := by
    simp only [Message.ofLetters, Message.toLetters]
    rw [fixed_of_encode rfl, bytes_of_encode rfl, bytes_of_encode rfl]
    rfl

instance : LawfulMessage HashRequest where
  ofLetters_toLetters m := by
    simp only [Message.ofLetters, Message.toLetters]
    rw [fixed_of_encode rfl, fixed_of_encode rfl, bytes_of_encode rfl, bytes_of_encode rfl,
      fixed_of_encode rfl]
    rfl

instance : LawfulMessage HashResponse where
  ofLetters_toLetters m := by
    simp only [Message.ofLetters, Message.toLetters]
    rw [fixed_of_encode rfl, fixed_of_encode rfl, fixed_of_encode rfl]
    rfl

instance : LawfulMessage CaRequest where
  ofLetters_toLetters m := by
    simp only [Message.ofLetters, Message.toLetters]
    rw [fixed_of_encode rfl, fixed_of_encode rfl, bytes_of_encode rfl, fixed_of_encode rfl]
    rfl

instance : LawfulMessage CaResponse where
  ofLetters_toLetters m := by
    simp only [Message.ofLetters, Message.toLetters]
    rw [fixed_of_encode rfl, bytes_of_encode rfl, fixed_of_encode rfl]
    rfl

instance : LawfulMessage RegistrationRequest where
  ofLetters_toLetters m := by
    simp only [Message.ofLetters, Message.toLetters]
    rw [fixed_of_encode rfl, bytes_of_encode rfl, fixed_of_encode rfl]
    rfl

end PaperPairing
