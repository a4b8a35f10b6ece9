import Mathlib.Data.List.Forall2
import PaperPairing.Proofs.Message.RoundTrip

/-!
# One text for every field

The letters of each message are listed with the lengths of what they spell.  A
body is accepted if every letter of the list is there, is the base64 text of
some bytes and has the right length; the first letter at fault decides the
error.  So the letters of an accepted body are those that writing produces.
-/

namespace PaperPairing

/-- A letter of a message, with the length of its bytes where that is fixed. -/
structure Field where
  letter : Letter
  width : Option Nat

namespace Field

def Spells (l : Letters) (f : Field) (b : Bytes) : Prop :=
  l.get f.letter = Letters.encode b ∧ forall n, f.width = some n -> b.length = n

inductive IsFault (message : String) (l : Letters) (f : Field) : ParseError -> Prop where
  | missing (habsent : l.get f.letter = none) :
      IsFault message l f (.missingField f.letter.name message)
  | notBase64 {text : String} (htext : l.get f.letter = some text)
      (hnone : forall b, some text ≠ Letters.encode b) :
      IsFault message l f (.invalidBase64 f.letter.name)
  | wrongLength {b : Bytes} {n : Nat} (htext : l.get f.letter = Letters.encode b)
      (hwidth : f.width = some n) (hlength : b.length ≠ n) :
      IsFault message l f (.invalidLength f.letter.name n b.length)

/-!
## Reading one letter
-/

def read (message : String) (l : Letters) (f : Field) : Except Error Bytes :=
  match f.width with
  | none => l.bytes message f.letter
  | some n => (l.fixed n message f.letter).map Fixed.bytes

section

variable {message : String} {l : Letters} {f : Field}

theorem bytes_of_missing {letter : Letter} (h : l.get letter = none) :
    l.bytes message letter = .error (.parse (.missingField letter.name message)) := by
  rw [Letters.bytes, h]

theorem bytes_of_notBase64 {letter : Letter} {text : String} (h : l.get letter = some text)
    (hnone : forall b, some text ≠ Letters.encode b) :
    l.bytes message letter = .error (.parse (.invalidBase64 letter.name)) := by
  have hdecode : Base64.decode? text.toList = none := by
    rw [Option.eq_none_iff_forall_ne_some]
    intro b hb
    apply hnone b
    rw [Letters.encode, ← Base64.eq_encode_of_decode? hb, String.ofList_toList]
  rw [Letters.bytes, h]
  simp only [hdecode]

theorem read_of_spells {b : Bytes} (h : Spells l f b) : read message l f = .ok b := by
  rcases f with ⟨letter, width⟩
  rcases h with ⟨htext, hlength⟩
  have hbytes : l.bytes message letter = .ok b := Letters.bytes_of_encode htext
  cases width with
  | none => exact hbytes
  | some n =>
      have hfixed : Fixed.ofBytes? n b = some ⟨b, hlength n rfl⟩ :=
        Fixed.ofBytes?_eq_some_iff.mpr rfl
      simp only [read, Letters.fixed, hbytes, bind, Except.bind, hfixed, Except.map]

theorem read_of_bytes_error {e : Error} (h : l.bytes message f.letter = .error e) :
    read message l f = .error e := by
  rcases f with ⟨letter, width⟩
  cases width with
  | none => exact h
  | some n => simp only [read, Letters.fixed, h, bind, Except.bind, Except.map]

theorem read_of_isFault {cause : ParseError} (h : IsFault message l f cause) :
    read message l f = .error (.parse cause) := by
  cases h with
  | missing habsent => exact read_of_bytes_error (bytes_of_missing habsent)
  | notBase64 htext hnone => exact read_of_bytes_error (bytes_of_notBase64 htext hnone)
  | @wrongLength b n htext hwidth hlength =>
      have hbytes : l.bytes message f.letter = .ok b := Letters.bytes_of_encode htext
      have hfixed : Fixed.ofBytes? n b = none := Fixed.ofBytes?_eq_none_iff.mpr hlength
      simp only [read, hwidth, Letters.fixed, hbytes, bind, Except.bind, hfixed, Except.map]

theorem spells_or_isFault (message : String) (l : Letters) (f : Field) :
    (exists b, Spells l f b) ∨ exists cause, IsFault message l f cause := by
  cases hget : l.get f.letter with
  | none => exact .inr ⟨_, .missing hget⟩
  | some text =>
      by_cases htext : exists b, some text = Letters.encode b
      · rcases htext with ⟨b, hb⟩
        rw [hb] at hget
        by_cases hlength : forall n, f.width = some n -> b.length = n
        · exact .inl ⟨b, hget, hlength⟩
        · rcases Classical.not_forall.mp hlength with ⟨n, hn⟩
          rcases Classical.not_imp.mp hn with ⟨hwidth, hne⟩
          exact .inr ⟨_, .wrongLength hget hwidth hne⟩
      · exact .inr ⟨_, .notBase64 hget (not_exists.mp htext)⟩

theorem read_eq_ok_iff {b : Bytes} : read message l f = .ok b ↔ Spells l f b := by
  constructor
  · intro h
    rcases spells_or_isFault message l f with ⟨b', hb'⟩ | ⟨cause, hcause⟩
    · rw [read_of_spells hb'] at h
      cases h
      exact hb'
    · rw [read_of_isFault hcause] at h
      cases h
  · exact read_of_spells

theorem read_eq_error_iff {e : Error} :
    read message l f = .error e ↔
      exists cause, IsFault message l f cause ∧ e = .parse cause := by
  constructor
  · intro h
    rcases spells_or_isFault message l f with ⟨b, hb⟩ | ⟨cause, hcause⟩
    · rw [read_of_spells hb] at h
      cases h
    · rw [read_of_isFault hcause] at h
      cases h
      exact ⟨cause, hcause, rfl⟩
  · rintro ⟨cause, hcause, rfl⟩
    exact read_of_isFault hcause

end

end Field

/-!
## Reading a row of letters
-/

section

variable {α β ε : Type} {f : α -> Except ε β}

theorem exists_of_forall₂_of_mem {R S : α -> β -> Prop} {xs : List α} {ys : List β}
    (hR : List.Forall₂ R xs ys) (hS : List.Forall₂ S xs ys) {x : α} (hx : x ∈ xs) :
    exists y, R x y ∧ S x y := by
  induction hR with
  | nil => cases hx
  | @cons z y xs ys hz _ ih =>
      rcases List.forall₂_cons.mp hS with ⟨hz', htail⟩
      rcases List.mem_cons.mp hx with rfl | hx
      · exact ⟨y, hz, hz'⟩
      · exact ih htail hx

theorem mapM_eq_ok_iff {xs : List α} {ys : List β} :
    xs.mapM f = .ok ys ↔ List.Forall₂ (fun x y => f x = .ok y) xs ys := by
  induction xs generalizing ys with
  | nil =>
      rw [List.mapM_nil, List.forall₂_nil_left_iff]
      exact ⟨fun h => (Except.ok.inj h).symm, fun h => congrArg Except.ok h.symm⟩
  | cons x xs ih =>
      rw [List.mapM_cons, List.forall₂_cons_left_iff]
      cases hx : f x with
      | error e => simp [bind, Except.bind]
      | ok y =>
          cases hxs : xs.mapM f with
          | error e => simp [bind, Except.bind, ← ih, hxs]
          | ok zs => simp [bind, Except.bind, pure, Except.pure, ← ih, hxs, eq_comm]

/-- A row that cannot be read has a first entry that cannot, and fails as that does. -/
theorem mapM_eq_error_iff {xs : List α} {e : ε} :
    xs.mapM f = .error e ↔ exists before x after, xs = before ++ x :: after ∧
      (forall y, y ∈ before -> exists b, f y = .ok b) ∧ f x = .error e := by
  induction xs with
  | nil => simp [pure, Except.pure]
  | cons x xs ih =>
      constructor
      · intro h
        rw [List.mapM_cons] at h
        cases hx : f x with
        | error e' =>
            rw [hx] at h
            cases h
            exact ⟨[], x, xs, rfl, by simp, hx⟩
        | ok y =>
            have htail : xs.mapM f = .error e := by
              cases hxs : xs.mapM f with
              | error e' =>
                  rw [hx, hxs] at h
                  cases h
                  rfl
              | ok ys =>
                  rw [hx, hxs] at h
                  cases h
            rcases ih.mp htail with ⟨before, z, after, rfl, hbefore, hz⟩
            refine ⟨x :: before, z, after, rfl, ?_, hz⟩
            intro w hw
            rcases List.mem_cons.mp hw with rfl | hw
            · exact ⟨y, hx⟩
            · exact hbefore w hw
      · rintro ⟨before, z, after, hxs, hbefore, hz⟩
        rw [List.mapM_cons]
        cases before with
        | nil =>
            cases hxs
            rw [hz]
            rfl
        | cons w before =>
            cases hxs
            rcases hbefore x List.mem_cons_self with ⟨y, hy⟩
            have htail := ih.mpr ⟨before, z, after, rfl,
              fun v hv => hbefore v (List.mem_cons_of_mem x hv), hz⟩
            rw [hy, htail]
            rfl

end

/-!
## The letters of the six messages
-/

namespace Message

/-- The letters of a message in the order of their fields, and what stands in them. -/
class Layout (α : Type) where
  fields : List Field
  contents : α -> List Bytes

instance : Layout PinChallenge where
  fields := [⟨.a, some 16⟩, ⟨.b, none⟩, ⟨.c, none⟩]
  contents m := [m.nonce1.bytes, m.mac, m.contribution]

instance : Layout HashRequest where
  fields := [⟨.a, some 16⟩, ⟨.b, some 16⟩, ⟨.c, none⟩, ⟨.d, none⟩, ⟨.e, some 32⟩]
  contents m := [m.nonce1.bytes, m.nonce2.bytes, m.mac, m.publicKey, m.h2.bytes]

instance : Layout HashResponse where
  fields := [⟨.a, some 16⟩, ⟨.b, some 32⟩, ⟨.e, some 32⟩]
  contents m := [m.nonce2.bytes, m.eHash.bytes, m.m3.bytes]

instance : Layout CaRequest where
  fields := [⟨.a, some 16⟩, ⟨.b, some 32⟩, ⟨.d, none⟩, ⟨.e, some 32⟩]
  contents m := [m.nonce1.bytes, m.rHash.bytes, m.wrappedSecret, m.m4.bytes]

instance : Layout CaResponse where
  fields := [⟨.a, some 16⟩, ⟨.d, none⟩, ⟨.e, some 32⟩]
  contents m := [m.nonce2.bytes, m.wrappedCertificate, m.m5.bytes]

instance : Layout RegistrationRequest where
  fields := [⟨.a, some 16⟩, ⟨.d, none⟩, ⟨.e, some 32⟩]
  contents m := [m.nonce1.bytes, m.wrapped, m.m6.bytes]

/-- Reading a message is reading the letters of its layout in order. -/
class LawfulLayout (α : Type) [Message α] [Layout α] : Prop where
  map_contents (l : Letters) : (ofLetters l : Except Error α).map Layout.contents =
    (Layout.fields α).mapM (Field.read (name α) l)

instance : LawfulLayout PinChallenge where
  map_contents l := by
    simp only [ofLetters, Layout.fields, List.mapM_cons, List.mapM_nil, Field.read, name]
    cases l.fixed 16 "PinChallenge" .a <;> cases l.bytes "PinChallenge" .b <;>
      cases l.bytes "PinChallenge" .c <;> rfl

instance : LawfulLayout HashRequest where
  map_contents l := by
    simp only [ofLetters, Layout.fields, List.mapM_cons, List.mapM_nil, Field.read, name]
    cases l.fixed 16 "HashRequest" .a <;> cases l.fixed 16 "HashRequest" .b <;>
      cases l.bytes "HashRequest" .c <;> cases l.bytes "HashRequest" .d <;>
      cases l.fixed 32 "HashRequest" .e <;> rfl

instance : LawfulLayout HashResponse where
  map_contents l := by
    simp only [ofLetters, Layout.fields, List.mapM_cons, List.mapM_nil, Field.read, name]
    cases l.fixed 16 "HashResponse" .a <;> cases l.fixed 32 "HashResponse" .b <;>
      cases l.fixed 32 "HashResponse" .e <;> rfl

instance : LawfulLayout CaRequest where
  map_contents l := by
    simp only [ofLetters, Layout.fields, List.mapM_cons, List.mapM_nil, Field.read, name]
    cases l.fixed 16 "CaRequest" .a <;> cases l.fixed 32 "CaRequest" .b <;>
      cases l.bytes "CaRequest" .d <;> cases l.fixed 32 "CaRequest" .e <;> rfl

instance : LawfulLayout CaResponse where
  map_contents l := by
    simp only [ofLetters, Layout.fields, List.mapM_cons, List.mapM_nil, Field.read, name]
    cases l.fixed 16 "CaResponse" .a <;> cases l.bytes "CaResponse" .d <;>
      cases l.fixed 32 "CaResponse" .e <;> rfl

instance : LawfulLayout RegistrationRequest where
  map_contents l := by
    simp only [ofLetters, Layout.fields, List.mapM_cons, List.mapM_nil, Field.read, name]
    cases l.fixed 16 "RegistrationRequest" .a <;>
      cases l.bytes "RegistrationRequest" .d <;>
      cases l.fixed 32 "RegistrationRequest" .e <;> rfl

/-!
## Canonical messages
-/

/-- A message and its letters determine each other, and the first letter at fault
decides how reading fails. -/
structure Canonical (α : Type) [Message α] [Layout α] : Prop where
  reads_back (m : α) : ofBody (toBody m) = .ok m
  spells_contents {body : Bytes} {m : α} (h : ofBody body = .ok m) :
    exists l, Letters.ofBody body = .ok l ∧
      List.Forall₂ (Field.Spells l) (Layout.fields α) (Layout.contents m)
  same_letters {body body' : Bytes} {m : α} {l l' : Letters} (h : ofBody body = .ok m)
    (h' : ofBody body' = .ok m) (hl : Letters.ofBody body = .ok l)
    (hl' : Letters.ofBody body' = .ok l') :
    forall f, f ∈ Layout.fields α -> l.get f.letter = l'.get f.letter
  accepted_iff {body : Bytes} {l : Letters} (hl : Letters.ofBody body = .ok l) :
    (exists m : α, ofBody body = .ok m) ↔
      forall f, f ∈ Layout.fields α -> exists b, f.Spells l b
  refused_iff {body : Bytes} {l : Letters} (hl : Letters.ofBody body = .ok l) (e : Error) :
    (ofBody body : Except Error α) = .error e ↔
      exists before f after cause, Layout.fields α = before ++ f :: after ∧
        (forall g, g ∈ before -> exists b, g.Spells l b) ∧
        f.IsFault (name α) l cause ∧ e = .parse cause

theorem exists_letters_of_ofBody {α : Type} [Message α] {body : Bytes} {m : α}
    (h : ofBody body = .ok m) : exists l, Letters.ofBody body = .ok l ∧ ofLetters l = .ok m := by
  cases hl : Letters.ofBody body with
  | error e =>
      rw [ofBody, hl] at h
      cases h
  | ok l =>
      rw [ofBody_of_letters hl] at h
      exact ⟨l, rfl, h⟩

section

variable {α : Type} [Message α] [Layout α] [LawfulLayout α] {l : Letters}

theorem spells_of_ofLetters {m : α} (h : ofLetters l = .ok m) :
    List.Forall₂ (Field.Spells l) (Layout.fields α) (Layout.contents m) := by
  have hmap := LawfulLayout.map_contents (α := α) l
  rw [h] at hmap
  exact (mapM_eq_ok_iff.mp hmap.symm).imp (fun _ _ => Field.read_eq_ok_iff.mp)

theorem ofLetters_eq_error_iff {e : Error} :
    (ofLetters l : Except Error α) = .error e ↔
      exists before f after cause, Layout.fields α = before ++ f :: after ∧
        (forall g, g ∈ before -> exists b, g.Spells l b) ∧
        f.IsFault (name α) l cause ∧ e = .parse cause := by
  have hmap : (ofLetters l : Except Error α) = .error e ↔
      (Layout.fields α).mapM (Field.read (name α) l) = .error e := by
    rw [← LawfulLayout.map_contents (α := α) l]
    cases (ofLetters l : Except Error α) <;> simp [Except.map]
  rw [hmap, mapM_eq_error_iff]
  simp only [Field.read_eq_ok_iff, Field.read_eq_error_iff]
  constructor
  · rintro ⟨before, f, after, hfields, hbefore, cause, hcause, he⟩
    exact ⟨before, f, after, cause, hfields, hbefore, hcause, he⟩
  · rintro ⟨before, f, after, cause, hfields, hbefore, hcause, he⟩
    exact ⟨before, f, after, hfields, hbefore, cause, hcause, he⟩

theorem ofLetters_eq_ok_iff :
    (exists m : α, ofLetters l = .ok m) ↔
      forall f, f ∈ Layout.fields α -> exists b, f.Spells l b := by
  constructor
  · rintro ⟨m, hm⟩ f hf
    have hspells := spells_of_ofLetters hm
    rcases exists_of_forall₂_of_mem hspells hspells hf with ⟨b, hb, -⟩
    exact ⟨b, hb⟩
  · intro hall
    cases hm : (ofLetters l : Except Error α) with
    | ok m => exact ⟨m, rfl⟩
    | error e =>
        rcases ofLetters_eq_error_iff.mp hm with ⟨before, f, after, cause, hfields, -, hcause, -⟩
        have hf : f ∈ Layout.fields α := by
          rw [hfields]
          exact List.mem_append_right before List.mem_cons_self
        rcases hall f hf with ⟨b, hb⟩
        have hread := Field.read_of_isFault hcause
        rw [Field.read_of_spells hb] at hread
        cases hread

theorem canonical (α : Type) [Message α] [Layout α] [LawfulMessage α] [LawfulLayout α] :
    Canonical α where
  reads_back := ofBody_toBody
  spells_contents := by
    intro body m h
    rcases exists_letters_of_ofBody h with ⟨l, hl, hm⟩
    exact ⟨l, hl, spells_of_ofLetters hm⟩
  same_letters := by
    intro body body' m l l' h h' hl hl' f hf
    rw [ofBody_of_letters hl] at h
    rw [ofBody_of_letters hl'] at h'
    rcases exists_of_forall₂_of_mem (spells_of_ofLetters h) (spells_of_ofLetters h') hf with
      ⟨b, hb, hb'⟩
    exact hb.1.trans hb'.1.symm
  accepted_iff hl := by
    rw [ofBody_of_letters hl]
    exact ofLetters_eq_ok_iff
  refused_iff hl e := by
    rw [ofBody_of_letters hl]
    exact ofLetters_eq_error_iff

end

/-- Every message reads back from its body, the letters of an accepted body are the
base64 texts of the fields, and a body is refused for its first letter at fault. -/
theorem messages_are_canonical :
    Canonical PinChallenge ∧ Canonical HashRequest ∧ Canonical HashResponse ∧
      Canonical CaRequest ∧ Canonical CaResponse ∧ Canonical RegistrationRequest :=
  ⟨canonical _, canonical _, canonical _, canonical _, canonical _, canonical _⟩

end Message

end PaperPairing
