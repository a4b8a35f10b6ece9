import PaperPairing.Proofs.Message.Canonical
import PaperPairing.Proofs.Registration.Advance

/-!
# The first failing check decides

A response goes through its checks in a fixed order, each of them over what the
registration holds from before.  For every registration and every body either all
checks pass or one of them is the first to fail, and it is the one reported.
-/

namespace PaperPairing

/-!
## Unreadable bodies
-/

namespace Letters

theorem cause_of_ofBody_error {body : Bytes} {e : Error} (h : ofBody body = .error e) :
    exists cause, e = .parse cause := by
  rw [ofBody] at h
  split at h
  · cases h
  · cases h
    exact ⟨_, rfl⟩

end Letters

theorem Message.cause_of_ofBody_error {α : Type} [Message α] [Layout α] [LawfulLayout α]
    {body : Bytes} {e : Error} (h : (ofBody body : Except Error α) = .error e) :
    exists cause, e = .parse cause := by
  cases hl : Letters.ofBody body with
  | error e' =>
      rw [ofBody, hl] at h
      cases h
      exact Letters.cause_of_ofBody_error hl
  | ok l =>
      rw [ofBody_of_letters hl] at h
      rcases ofLetters_eq_error_iff.mp h with ⟨_, _, _, cause, -, -, -, he⟩
      exact ⟨cause, he⟩

namespace Registration

/-!
## Results told by checks
-/

/-- A result is told by its checks: it is good if they pass, and an error exactly if
that is the error of the first one to fail. -/
structure ToldBy (passes : Prop) (fault : Error -> Prop) (result : Except Error Unit) :
    Prop where
  ok_iff : result = .ok () ↔ passes
  error_iff : forall e, result = .error e ↔ fault e

theorem toldBy_of_cases {passes : Prop} {fault : Error -> Prop}
    {result : Except Error Unit} (hpass : passes -> result = .ok ())
    (hfault : forall e, fault e -> result = .error e)
    (hcases : passes ∨ exists e, fault e) : ToldBy passes fault result := by
  rcases hcases with h | ⟨e', h⟩
  · have hok := hpass h
    refine ⟨iff_of_true hok h, fun e => ⟨fun he => ?_, hfault e⟩⟩
    rw [hok] at he
    cases he
  · have herror := hfault e' h
    refine ⟨⟨fun hok => ?_, hpass⟩, fun e => ⟨fun he => ?_, hfault e⟩⟩
    · rw [herror] at hok
      cases hok
    · rw [herror] at he
      cases he
      exact h

theorem result_of_step {step : Except Error (Unit × Stage)} (r : Registration) (t : Tape) :
    (r.apply t step).result = step.map Prod.fst := by
  cases step <;> rfl

theorem verify_bytes_eq_false {n : Nat} {expected received : Fixed n}
    (h : received ≠ expected) :
    Transcript.verify expected.bytes received.bytes = false :=
  Bool.eq_false_iff.mpr (fun hverify => h ((Transcript.verify_bytes_iff _ _).mp hverify))

theorem verify_bytes_eq_true {n : Nat} {expected received : Fixed n}
    (h : received = expected) :
    Transcript.verify expected.bytes received.bytes = true :=
  (Transcript.verify_bytes_iff _ _).mpr h

/-!
## Checks of a hash response
-/

structure AwaitsHash (r : Registration) (x : Exchange) : Prop where
  state_eq : r.state = .pinRequested
  exchange_eq : r.stage.exchange? = some x

abbrev Exchange.tagOfHash (x : Exchange) (response : HashResponse) : Tag :=
  Transcript.m3 x.keys.authKey.bytes x.nonce1.bytes x.nonce2.bytes x.mac x.ya x.h2.bytes
    response.eHash.bytes

inductive HashPasses (r : Registration) (body : Bytes) : Prop where
  | intro {x : Exchange} {response : HashResponse} (hawaits : r.AwaitsHash x)
      (hread : (Message.ofBody body : Except Error HashResponse) = .ok response)
      (hnonce : response.nonce2 = x.nonce2)
      (htag : response.m3 = x.tagOfHash response)

/-- The checks of a hash response in their order, each with what passed before it. -/
inductive HashFault (r : Registration) (body : Bytes) : Error -> Prop where
  | outOfTurn (hstate : r.state ≠ .pinRequested) :
      HashFault r body (Misuse.hashResponseOutOfTurn.error r.state)
  | unreadable {x : Exchange} {cause : ParseError} (hawaits : r.AwaitsHash x)
      (hread : (Message.ofBody body : Except Error HashResponse) = .error (.parse cause)) :
      HashFault r body (.parse cause)
  | nonce {x : Exchange} {response : HashResponse} (hawaits : r.AwaitsHash x)
      (hread : (Message.ofBody body : Except Error HashResponse) = .ok response)
      (hnonce : response.nonce2 ≠ x.nonce2) :
      HashFault r body (.protocolViolation (.nonceMismatch .hashExchange))
  | tag {x : Exchange} {response : HashResponse} (hawaits : r.AwaitsHash x)
      (hread : (Message.ofBody body : Except Error HashResponse) = .ok response)
      (hnonce : response.nonce2 = x.nonce2)
      (htag : response.m3 ≠ x.tagOfHash response) :
      HashFault r body (.protocolViolation (.tagMismatch .hashExchange))

section

variable {r : Registration} {body : Bytes}

theorem AwaitsHash.stage_eq {x : Exchange} (h : r.AwaitsHash x) :
    r.stage = .pinRequested x := by
  rcases r with ⟨n, s⟩
  cases s with
  | pinRequested y => exact congrArg _ (Option.some.inj h.exchange_eq)
  | _ => cases h.state_eq

theorem HashPasses.result_eq (h : HashPasses r body) (t : Tape) :
    (r.acceptHashResponse body t).result = .ok () := by
  cases h with
  | intro hawaits hread hnonce htag =>
      rw [acceptHashResponse, result_of_step, hawaits.stage_eq]
      simp only [Stage.acceptHashResponse, hread, bind, Except.bind, ne_eq, hnonce,
        not_true, if_false, Stage.expectedM3, verify_bytes_eq_true htag, Bool.not_true,
        Bool.false_eq_true]
      rfl

theorem HashFault.result_eq {e : Error} (h : HashFault r body e) (t : Tape) :
    (r.acceptHashResponse body t).result = .error e := by
  rw [acceptHashResponse, result_of_step]
  cases h with
  | outOfTurn hstate =>
      rcases r with ⟨n, s⟩
      cases s with
      | pinRequested x => exact (hstate rfl).elim
      | _ => rfl
  | unreadable hawaits hread =>
      rw [hawaits.stage_eq]
      simp only [Stage.acceptHashResponse, hread, bind, Except.bind]
      rfl
  | nonce hawaits hread hnonce =>
      rw [hawaits.stage_eq]
      simp only [Stage.acceptHashResponse, hread, bind, Except.bind, ne_eq, hnonce,
        not_false_eq_true, if_true]
      rfl
  | tag hawaits hread hnonce htag =>
      rw [hawaits.stage_eq]
      simp only [Stage.acceptHashResponse, hread, bind, Except.bind, ne_eq, hnonce,
        not_true, if_false, Stage.expectedM3, verify_bytes_eq_false htag, Bool.not_false,
        if_true]
      rfl

theorem hashPasses_or_hashFault (r : Registration) (body : Bytes) :
    HashPasses r body ∨ exists e, HashFault r body e := by
  by_cases hstate : r.state = .pinRequested
  · have hawaits : exists x, r.AwaitsHash x := by
      rcases r with ⟨n, s⟩
      cases s with
      | pinRequested x => exact ⟨x, rfl, rfl⟩
      | _ => cases hstate
    rcases hawaits with ⟨x, hawaits⟩
    cases hread : (Message.ofBody body : Except Error HashResponse) with
    | error e =>
        rcases Message.cause_of_ofBody_error hread with ⟨cause, rfl⟩
        exact .inr ⟨_, .unreadable hawaits hread⟩
    | ok response =>
        by_cases hnonce : response.nonce2 = x.nonce2
        · by_cases htag : response.m3 = x.tagOfHash response
          · exact .inl ⟨hawaits, hread, hnonce, htag⟩
          · exact .inr ⟨_, .tag hawaits hread hnonce htag⟩
        · exact .inr ⟨_, .nonce hawaits hread hnonce⟩
  · exact .inr ⟨_, .outOfTurn hstate⟩

end

/-!
## Checks of a certificate response
-/

structure Asked (r : Registration) (x : Exchange) (c : Commitment) (p : ClientProof) :
    Prop where
  state_eq : r.state = .keyExchanged
  exchange_eq : r.stage.exchange? = some x
  commitment_eq : r.stage.commitment? = some c
  proof_eq : r.stage.proof? = some p

abbrev ClientProof.tagOfCertificate (p : ClientProof) (x : Exchange)
    (response : CaResponse) : Tag :=
  Transcript.m5 x.keys.authKey.bytes x.nonce1.bytes p.rHash.bytes p.wrappedSecret p.m4.bytes
    x.nonce2.bytes response.wrappedCertificate

/-- What a device must have committed itself to if it knew the PIN. -/
abbrev ClientProof.commitmentTo (p : ClientProof) (x : Exchange) (secret : Bytes) : Tag :=
  Transcript.eHash x.keys.authKey.bytes secret p.psk.bytes x.yb x.ya

/-- The response was asked for, can be read and belongs to the transcript. -/
structure Tagged (r : Registration) (body : Bytes) (x : Exchange) (c : Commitment)
    (p : ClientProof) (response : CaResponse) : Prop extends r.Asked x c p where
  read_eq : (Message.ofBody body : Except Error CaResponse) = .ok response
  nonce2_eq : response.nonce2 = x.nonce2
  m5_eq : response.m5 = p.tagOfCertificate x response

/-- Its payload opens to a secret of the device and something behind it. -/
structure Opened (r : Registration) (body : Bytes) (x : Exchange) (c : Commitment)
    (p : ClientProof) (response : CaResponse) (secret certificate : Bytes) : Prop
    extends r.Tagged body x c p response where
  unwrap_eq : Wrap.unwrap? x.keys response.wrappedCertificate = some (secret ++ certificate)
  length_secret : secret.length = r.secretLength.toNat
  certificate_ne_nil : certificate ≠ []

inductive CertificatePasses (r : Registration) (body : Bytes) : Prop where
  | intro {x : Exchange} {c : Commitment} {p : ClientProof} {response : CaResponse}
      {secret certificate : Bytes} {text : String}
      (hopened : r.Opened body x c p response secret certificate)
      (hpin : c.eHash = p.commitmentTo x secret)
      (hnormal : Certificate.normalize certificate = .ok text)

/-- The checks of a certificate response in their order, each with what passed before
it.  The first two do not look at the body. -/
inductive CertificateFault (r : Registration) (body : Bytes) : Error -> Prop where
  | outOfTurn (hstate : r.state ≠ .keyExchanged) :
      CertificateFault r body (Misuse.caResponseOutOfTurn.error r.state)
  | unasked (hstate : r.state = .keyExchanged) (hproof : r.stage.proof? = none) :
      CertificateFault r body (Misuse.caResponseUnasked.error r.state)
  | unreadable {x : Exchange} {c : Commitment} {p : ClientProof} {cause : ParseError}
      (hasked : r.Asked x c p)
      (hread : (Message.ofBody body : Except Error CaResponse) = .error (.parse cause)) :
      CertificateFault r body (.parse cause)
  | nonce {x : Exchange} {c : Commitment} {p : ClientProof} {response : CaResponse}
      (hasked : r.Asked x c p)
      (hread : (Message.ofBody body : Except Error CaResponse) = .ok response)
      (hnonce : response.nonce2 ≠ x.nonce2) :
      CertificateFault r body (.protocolViolation (.nonceMismatch .caRegistration))
  | tag {x : Exchange} {c : Commitment} {p : ClientProof} {response : CaResponse}
      (hasked : r.Asked x c p)
      (hread : (Message.ofBody body : Except Error CaResponse) = .ok response)
      (hnonce : response.nonce2 = x.nonce2)
      (htag : response.m5 ≠ p.tagOfCertificate x response) :
      CertificateFault r body (.protocolViolation (.tagMismatch .caRegistration))
  | wrap {x : Exchange} {c : Commitment} {p : ClientProof} {response : CaResponse}
      (htagged : r.Tagged body x c p response)
      (hunwrap : Wrap.unwrap? x.keys response.wrappedCertificate = none) :
      CertificateFault r body .integrityCheckFailed
  | short {x : Exchange} {c : Commitment} {p : ClientProof} {response : CaResponse}
      {payload : Bytes} (htagged : r.Tagged body x c p response)
      (hunwrap : Wrap.unwrap? x.keys response.wrappedCertificate = some payload)
      (hshort : payload.length ≤ r.secretLength.toNat) :
      CertificateFault r body (.parse (.invalidCertificate
        (Stage.shortPayload payload.length r.secretLength.toNat)))
  | pin {x : Exchange} {c : Commitment} {p : ClientProof} {response : CaResponse}
      {secret certificate : Bytes} (hopened : r.Opened body x c p response secret certificate)
      (hpin : c.eHash ≠ p.commitmentTo x secret) :
      CertificateFault r body (.protocolViolation .pinProofFailed)
  | certificate {x : Exchange} {c : Commitment} {p : ClientProof} {response : CaResponse}
      {secret certificate : Bytes} {fault : Certificate.Fault}
      (hopened : r.Opened body x c p response secret certificate)
      (hpin : c.eHash = p.commitmentTo x secret)
      (hnormal : Certificate.normalize certificate = .error fault) :
      CertificateFault r body (.parse (.invalidCertificate fault.message))

section

variable {r : Registration} {body : Bytes} {x : Exchange} {c : Commitment} {p : ClientProof}
  {response : CaResponse}

theorem Asked.stage_eq (h : r.Asked x c p) : r.stage = .caRequested x c p := by
  rcases r with ⟨n, s⟩
  cases s with
  | caRequested y d q =>
      cases h.exchange_eq
      cases h.commitment_eq
      cases h.proof_eq
      rfl
  | keyExchanged y d => cases h.proof_eq
  | _ => cases h.state_eq

theorem Tagged.step_eq (h : r.Tagged body x c p response) (n : Nat) :
    r.stage.acceptCertificate n body =
      match Wrap.unwrap? x.keys response.wrappedCertificate with
      | none => .error .integrityCheckFailed
      | some payload =>
          if payload.length ≤ n then
            .error (.parse (.invalidCertificate (Stage.shortPayload payload.length n)))
          else if !Transcript.verify (p.commitmentTo x (payload.take n)).bytes
              c.eHash.bytes then
            .error (.protocolViolation .pinProofFailed)
          else
            match Certificate.normalize (payload.drop n) with
            | .error fault => .error (.parse (.invalidCertificate fault.message))
            | .ok certificate =>
                .ok ((), .caVerified x c p ⟨response.wrappedCertificate, response.m5⟩
                  certificate) := by
  rw [h.stage_eq]
  simp only [Stage.acceptCertificate, h.read_eq, bind, Except.bind, ne_eq, h.nonce2_eq,
    not_true, if_false, Stage.expectedM5, verify_bytes_eq_true h.m5_eq, Bool.not_true,
    Bool.false_eq_true]
  rfl

/-- Behind the payload the PIN comes first and the certificate last. -/
theorem Opened.step_eq {secret certificate : Bytes}
    (h : r.Opened body x c p response secret certificate) :
    r.stage.acceptCertificate r.secretLength.toNat body =
      if !Transcript.verify (p.commitmentTo x secret).bytes c.eHash.bytes then
        .error (.protocolViolation .pinProofFailed)
      else
        match Certificate.normalize certificate with
        | .error fault => .error (.parse (.invalidCertificate fault.message))
        | .ok text =>
            .ok ((), .caVerified x c p ⟨response.wrappedCertificate, response.m5⟩ text) := by
  have hlong : ¬ (secret ++ certificate).length ≤ secret.length := by
    rw [List.length_append, Nat.not_le]
    exact Nat.lt_add_of_pos_right (List.length_pos_iff.mpr h.certificate_ne_nil)
  rw [h.toTagged.step_eq, h.unwrap_eq, ← h.length_secret]
  simp only [if_neg hlong, List.take_left, List.drop_left]

theorem CertificatePasses.result_eq (h : CertificatePasses r body) (t : Tape) :
    (r.acceptCertificate body t).result = .ok () := by
  cases h with
  | intro hopened hpin hnormal =>
      rw [acceptCertificate, result_of_step, hopened.step_eq, verify_bytes_eq_true hpin,
        hnormal]
      rfl

theorem CertificateFault.result_eq {e : Error} (h : CertificateFault r body e) (t : Tape) :
    (r.acceptCertificate body t).result = .error e := by
  rw [acceptCertificate, result_of_step]
  -- Up to the tag each fault stops the step itself, from then on what is left of it.
  cases h with
  | outOfTurn hstate =>
      rcases r with ⟨n, s⟩
      cases s with
      | keyExchanged y d => exact (hstate rfl).elim
      | caRequested y d q => exact (hstate rfl).elim
      | _ => rfl
  | unasked hstate hproof =>
      rcases r with ⟨n, s⟩
      cases s with
      | keyExchanged y d => rfl
      | caRequested y d q => cases hproof
      | _ => cases hstate
  | unreadable hasked hread =>
      rw [hasked.stage_eq]
      simp only [Stage.acceptCertificate, hread, bind, Except.bind]
      rfl
  | nonce hasked hread hnonce =>
      rw [hasked.stage_eq]
      simp only [Stage.acceptCertificate, hread, bind, Except.bind, ne_eq, hnonce,
        not_false_eq_true, if_true]
      rfl
  | tag hasked hread hnonce htag =>
      rw [hasked.stage_eq]
      simp only [Stage.acceptCertificate, hread, bind, Except.bind, ne_eq, hnonce,
        not_true, if_false, Stage.expectedM5, verify_bytes_eq_false htag, Bool.not_false,
        if_true]
      rfl
  | wrap htagged hunwrap =>
      rw [htagged.step_eq, hunwrap]
      rfl
  | short htagged hunwrap hshort =>
      rw [htagged.step_eq, hunwrap]
      simp only [if_pos hshort]
      rfl
  | pin hopened hpin =>
      rw [hopened.step_eq, verify_bytes_eq_false hpin]
      rfl
  | certificate hopened hpin hnormal =>
      rw [hopened.step_eq, verify_bytes_eq_true hpin, hnormal]
      rfl

theorem Tagged.opened {payload : Bytes} (h : r.Tagged body x c p response)
    (hunwrap : Wrap.unwrap? x.keys response.wrappedCertificate = some payload)
    (hlong : r.secretLength.toNat < payload.length) :
    r.Opened body x c p response (payload.take r.secretLength.toNat)
      (payload.drop r.secretLength.toNat) where
  toTagged := h
  unwrap_eq := by rw [hunwrap, List.take_append_drop]
  length_secret := List.length_take_of_le (Nat.le_of_lt hlong)
  certificate_ne_nil := by
    rw [ne_eq, List.drop_eq_nil_iff]
    exact Nat.not_le_of_lt hlong

theorem Tagged.passes_or_fault (h : r.Tagged body x c p response) :
    CertificatePasses r body ∨ exists e, CertificateFault r body e := by
  cases hunwrap : Wrap.unwrap? x.keys response.wrappedCertificate with
  | none => exact .inr ⟨_, .wrap h hunwrap⟩
  | some payload =>
      rcases Nat.lt_or_ge r.secretLength.toNat payload.length with hlong | hshort
      · have hopened := h.opened hunwrap hlong
        by_cases hpin : c.eHash = p.commitmentTo x (payload.take r.secretLength.toNat)
        · cases hnormal : Certificate.normalize (payload.drop r.secretLength.toNat) with
          | ok text => exact .inl ⟨hopened, hpin, hnormal⟩
          | error fault => exact .inr ⟨_, .certificate hopened hpin hnormal⟩
        · exact .inr ⟨_, .pin hopened hpin⟩
      · exact .inr ⟨_, .short h hunwrap hshort⟩

theorem Asked.passes_or_fault (h : r.Asked x c p) (body : Bytes) :
    CertificatePasses r body ∨ exists e, CertificateFault r body e := by
  cases hread : (Message.ofBody body : Except Error CaResponse) with
  | error e =>
      rcases Message.cause_of_ofBody_error hread with ⟨cause, rfl⟩
      exact .inr ⟨_, .unreadable h hread⟩
  | ok response =>
      by_cases hnonce : response.nonce2 = x.nonce2
      · by_cases htag : response.m5 = p.tagOfCertificate x response
        · exact Tagged.passes_or_fault ⟨h, hread, hnonce, htag⟩
        · exact .inr ⟨_, .tag h hread hnonce htag⟩
      · exact .inr ⟨_, .nonce h hread hnonce⟩

theorem certificatePasses_or_certificateFault (r : Registration) (body : Bytes) :
    CertificatePasses r body ∨ exists e, CertificateFault r body e := by
  by_cases hstate : r.state = .keyExchanged
  · cases hproof : r.stage.proof? with
    | none => exact .inr ⟨_, .unasked hstate hproof⟩
    | some p =>
        have hasked : exists x c, r.Asked x c p := by
          rcases r with ⟨n, s⟩
          cases s with
          | caRequested x c q => exact ⟨x, c, rfl, rfl, rfl, hproof⟩
          | keyExchanged x c => cases hproof
          | _ => cases hstate
        rcases hasked with ⟨x, c, hasked⟩
        exact hasked.passes_or_fault body
  · exact .inr ⟨_, .outOfTurn hstate⟩

end

/-- Both responses of a device, at any time and with any body: all checks pass and the
response is accepted, or one check is the first to fail and its error is reported. -/
theorem first_failing_check_decides (r : Registration) (body : Bytes) (t : Tape) :
    ToldBy (HashPasses r body) (HashFault r body) (r.acceptHashResponse body t).result ∧
      ToldBy (CertificatePasses r body) (CertificateFault r body)
        (r.acceptCertificate body t).result :=
  ⟨toldBy_of_cases (·.result_eq t) (fun _ h => h.result_eq t) (hashPasses_or_hashFault r body),
    toldBy_of_cases (·.result_eq t) (fun _ h => h.result_eq t)
      (certificatePasses_or_certificateFault r body)⟩

end Registration
end PaperPairing
