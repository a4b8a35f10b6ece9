import PaperPairing.Proofs.Registration.Checks
import PaperPairing.Proofs.Registration.Order
import PaperPairing.Proofs.Registration.Verified

/-!
# The PIN decides the last check only

A device may answer without looking at the PIN a request is bound to.  Then a
client that was told another PIN finds every tag, nonce, wrap and length in
order; it is the comparison with the commitment alone that tells the PINs apart,
and the certificate is read only behind it.
-/

namespace PaperPairing

/-!
## A device that leaves the PIN to the client
-/

namespace Device

/-- Answer whatever PIN the request is bound to: its tag and the length of the
secret in it are checked, but the commitment is not opened. -/
def answerAnyPin (d : Device) (l : Link) (iv : Fixed 16) (body : Bytes) :
    Option CaResponse := do
  let request ← (Message.ofBody body : Except Error CaRequest).toOption
  let key := l.keys.authKey.bytes
  guard (request.m4 = Transcript.m4 key l.nonce2.bytes l.eHash.bytes l.m3.bytes
    d.nonce1.bytes request.rHash.bytes request.wrappedSecret)
  let secret ← Wrap.unwrap? l.keys request.wrappedSecret
  guard (secret.length = 16)
  let wrapped := Wrap.wrap l.keys iv (d.secret ++ d.certificate)
  return ⟨l.nonce2, wrapped, Transcript.m5 key d.nonce1.bytes request.rHash.bytes
    request.wrappedSecret request.m4.bytes l.nonce2.bytes wrapped⟩

theorem answerAnyPin_caRequest (d : Device) (x : Registration.Exchange)
    (hx : x.nonce1 = d.nonce1) (pin : String) (secret iv iv' : Fixed 16) :
    d.answerAnyPin (d.link x) iv'
        (Message.toBody (Registration.Stage.caRequest x
          (Registration.Stage.proofOf x (d.commitment x) pin secret iv))) =
      some (d.caResponse x
        (Registration.Stage.proofOf x (d.commitment x) pin secret iv) iv') := by
  have hread := Message.ofBody_toBody (Registration.Stage.caRequest x
    (Registration.Stage.proofOf x (d.commitment x) pin secret iv))
  have hopen : Wrap.unwrap? (d.link x).keys (Registration.Stage.caRequest x
      (Registration.Stage.proofOf x (d.commitment x) pin secret iv)).wrappedSecret =
      some secret.bytes :=
    Wrap.unwrap?_wrap x.keys iv secret.bytes
  rw [answerAnyPin, ← hx]
  refine (bind_toOption hread _).trans ((bind_guard rfl _).trans ?_)
  rw [hopen]
  exact bind_guard secret.length_bytes _

end Device

namespace Registration

/-!
## What a commitment is over
-/

def Exchange.committed (x : Exchange) (secret : Bytes) (pin : String) : Bytes :=
  secret ++ (Transcript.psk x.keys.authKey.bytes pin).bytes ++ x.yb ++ x.ya

theorem expectedEHash_proofOf (x : Exchange) (c : Commitment) (pin : String)
    (secret iv : Fixed 16) (es : Bytes) :
    Stage.expectedEHash x (Stage.proofOf x c pin secret iv) es =
      Hmac.tag x.keys.authKey.bytes (x.committed es pin) :=
  tag_eHash _ _ _ _ _

theorem eHash_commitment (d : Device) (x : Exchange) (hyb : x.yb = d.contribution) :
    (d.commitment x).eHash = Hmac.tag x.keys.authKey.bytes (x.committed d.secret d.pin) := by
  rw [Exchange.committed, hyb, ← tag_eHash]
  rfl

/-!
## The last two checks
-/

/-- What comes of a response once only the PIN and the certificate are left. -/
def verdict (proven : Bool) (certificate : Bytes) : Except Error Product :=
  if proven then
    match Certificate.normalize certificate with
    | .error fault => .error (.parse (.invalidCertificate fault.message))
    | .ok _ => .ok .nothing
  else .error (.protocolViolation .pinProofFailed)

theorem eq_pinProofFailed_iff_not {result : Except Error Product} {proven : Prop}
    [Decidable proven] {certificate : Bytes}
    (h : result = verdict (decide proven) certificate) :
    result = .error (.protocolViolation .pinProofFailed) ↔ ¬ proven := by
  rw [h]
  by_cases hproven : proven
  · rw [decide_eq_true hproven, verdict, if_pos rfl]
    cases Certificate.normalize certificate <;> simp [hproven]
  · rw [decide_eq_false hproven]
    exact ⟨fun _ => hproven, fun _ => rfl⟩

theorem verdict_true_eq_ok_iff {certificate : Bytes} :
    verdict true certificate = .ok .nothing ↔
      exists text, Certificate.normalize certificate = .ok text := by
  rw [verdict, if_pos rfl]
  cases Certificate.normalize certificate <;> simp

inductive PrecedesPin : Error -> Prop where
  | json (text : String) : PrecedesPin (.parse (.json text))
  | missingField (field message : String) :
      PrecedesPin (.parse (.missingField field message))
  | invalidBase64 (field : String) : PrecedesPin (.parse (.invalidBase64 field))
  | invalidLength (field : String) (expected actual : Nat) :
      PrecedesPin (.parse (.invalidLength field expected actual))
  | nonceMismatch (step : Step) : PrecedesPin (.protocolViolation (.nonceMismatch step))
  | tagMismatch (step : Step) : PrecedesPin (.protocolViolation (.tagMismatch step))
  | integrityCheckFailed : PrecedesPin .integrityCheckFailed
  | shortPayload (length secretLength : Nat) :
      PrecedesPin (.parse (.invalidCertificate (Stage.shortPayload length secretLength)))

theorem head?_append {a : String} {first : Char} (h : a.toList.head? = some first)
    (b : String) : (a ++ b).toList.head? = some first := by
  rw [String.toList_append, List.head?_append, h, Option.some_or]

theorem head?_message (fault : Certificate.Fault) :
    exists first, fault.message.toList.head? = some first ∧ first ≠ 'C' := by
  cases fault with
  | empty => exact ⟨'e', rfl, by decide⟩
  | notUtf8 => exact ⟨'i', rfl, by decide⟩
  | unexpectedLabel label => exact ⟨'u', head?_append (head?_append rfl _) _, by decide⟩
  | pem cause =>
      cases cause with
      | malformedFraming | missingBegin | missingEnd => exact ⟨'m', rfl, by decide⟩
      | invalidData => exact ⟨'i', rfl, by decide⟩
      | invalidHeader line => exact ⟨'i', head?_append rfl _, by decide⟩
      | mismatching beginLabel endLabel =>
          exact ⟨'m', head?_append (head?_append (head?_append (head?_append rfl _) _) _) _,
            by decide⟩

theorem head?_shortPayload (length secretLength : Nat) :
    (Stage.shortPayload length secretLength).toList.head? = some 'C' :=
  head?_append (head?_append (head?_append (head?_append rfl _) _) _) _

theorem message_ne_shortPayload (fault : Certificate.Fault) (length secretLength : Nat) :
    fault.message ≠ Stage.shortPayload length secretLength := by
  intro h
  rcases head?_message fault with ⟨first, hhead, hne⟩
  rw [h, head?_shortPayload] at hhead
  exact hne (Option.some.inj hhead).symm

theorem not_precedesPin_verdict {proven : Bool} {certificate : Bytes} {e : Error}
    (h : verdict proven certificate = .error e) : ¬ PrecedesPin e := by
  intro hbefore
  cases proven with
  | false =>
      cases h
      cases hbefore
  | true =>
      rw [verdict, if_pos rfl] at h
      cases hnormal : Certificate.normalize certificate with
      | ok text =>
          rw [hnormal] at h
          cases h
      | error fault =>
          rw [hnormal] at h
          cases h
          generalize htext : fault.message = text at hbefore
          cases hbefore with
          | shortPayload length secretLength =>
              exact message_ne_shortPayload fault length secretLength htext

/-!
## The response of an honest device
-/

section

variable {d : Device} {r : Registration} {x : Exchange} {c : Commitment} {p : ClientProof}

theorem result_of_caResponse (hr : r.stage = .caRequested x c p)
    (hsecret : d.secret.length = r.secretLength.toNat) (hcertificate : d.certificate ≠ [])
    (iv : Fixed 16) (t : Tape) :
    (Call.outcome ⟨.acceptCertificate (Message.toBody (d.caResponse x p iv)), t⟩ r).result =
      verdict (decide (c.eHash = Stage.expectedEHash x p d.secret)) d.certificate := by
  have hopened : r.Opened (Message.toBody (d.caResponse x p iv)) x c p (d.caResponse x p iv)
      d.secret d.certificate := {
    state_eq := congrArg Stage.state hr
    exchange_eq := congrArg Stage.exchange? hr
    commitment_eq := congrArg Stage.commitment? hr
    proof_eq := congrArg Stage.proof? hr
    read_eq := Message.ofBody_toBody _
    nonce2_eq := rfl
    m5_eq := rfl
    unwrap_eq := Wrap.unwrap?_wrap _ _ _
    length_secret := hsecret
    certificate_ne_nil := hcertificate }
  rw [result_outcome]
  simp only [Call.step, hopened.step_eq]
  change _ = verdict (decide (c.eHash = p.commitmentTo x d.secret)) d.certificate
  by_cases hpin : c.eHash = p.commitmentTo x d.secret
  · rw [verify_bytes_eq_true hpin, decide_eq_true hpin, verdict, if_pos rfl]
    cases Certificate.normalize d.certificate <;> rfl
  · rw [verify_bytes_eq_false hpin, decide_eq_false hpin]
    rfl

end

/-!
## The run
-/

section

variable (d : Device) (pin : String) (iv : Fixed 16) (t : Fin 4 -> Tape)

def exchangeWith : Exchange :=
  d.exchange (t 0).first (t 0).pair

def proofWith : ClientProof :=
  Stage.proofOf (exchangeWith d t) (d.commitment (exchangeWith d t)) pin
    (t 2).first (t 2).second

def callsToCommitment : List Call :=
  [⟨.start (Message.toBody d.challenge), t 0⟩,
    ⟨.acceptHashResponse (Message.toBody (d.link (exchangeWith d t)).response), t 1⟩]

theorem marches_to_commitment (n : Nat)
    (hdevice : Modp2048.validate d.pair.publicKey.toNat = .ok ()) :
    Marches n .init (callsToCommitment d t)
      [.request (Message.toBody (Stage.hashRequest (exchangeWith d t))), .nothing]
      (.keyExchanged (exchangeWith d t) (d.commitment (exchangeWith d t))) := by
  refine .cons (.start (Message.ofBody_toBody _) (d.exchangeOf_challenge _ _ hdevice)) ?_
  exact .cons (.acceptHashResponse (Message.ofBody_toBody _) rfl rfl) .nil

theorem marches_to_request (n : Nat)
    (hdevice : Modp2048.validate d.pair.publicKey.toNat = .ok ()) :
    Marches n .init (callsToCommitment d t ++ [⟨.requestCertificate pin, t 2⟩])
      ([.request (Message.toBody (Stage.hashRequest (exchangeWith d t))), .nothing] ++
        [.request (Message.toBody (Stage.caRequest (exchangeWith d t) (proofWith d pin t)))])
      (.caRequested (exchangeWith d t) (d.commitment (exchangeWith d t))
        (proofWith d pin t)) :=
  (marches_to_commitment d t n hdevice).append (.cons .requestCertificate .nil)

end

/-- The first three calls succeed with the replies of the device as bodies, and the
device answers.  What becomes of its answer is decided by the two commitments
first and by the certificate after them; nothing that precedes them fails, the PIN
on the screen is never refused, and once a PIN was refused nothing is registered. -/
def PinDecides (config : Config) (d : Device) (pin : String) (iv : Fixed 16)
    (t : Fin 4 -> Tape) : Prop :=
  exists (hashRequest caRequest : Bytes) (x : Exchange) (link : Device.Link)
      (caResponse : CaResponse),
    let calls : List Call :=
      [⟨.start (Message.toBody d.challenge), t 0⟩,
        ⟨.acceptHashResponse (Message.toBody link.response), t 1⟩,
        ⟨.requestCertificate pin, t 2⟩]
    let last : Call := ⟨.acceptCertificate (Message.toBody caResponse), t 3⟩
    let result := (last.outcome (after (new config) calls)).result
    let tag := fun pin => Hmac.tag x.keys.authKey.bytes (x.committed d.secret pin)
    results (new config) calls =
      [.ok (.request hashRequest), .ok .nothing, .ok (.request caRequest)] ∧
    (after (new config) calls).stage.exchange? = some x ∧ link.keys = x.keys ∧
    d.answerHash hashRequest = some link ∧
    d.answerAnyPin link iv caRequest = some caResponse ∧
    (forall e, result = .error e -> ¬ PrecedesPin e) ∧
    (result = .error (.protocolViolation .pinProofFailed) ↔ tag pin ≠ tag d.pin) ∧
    (tag pin = tag d.pin ->
      (result = .ok .nothing ↔
        exists text, Certificate.normalize d.certificate = .ok text)) ∧
    (pin = d.pin -> result ≠ .error (.protocolViolation .pinProofFailed)) ∧
    (result = .error (.protocolViolation .pinProofFailed) ->
      forall (more : List Call) (k : Call), k.kind = .requestRegistration ->
        exists e, (k.outcome (after (new config) (calls ++ last :: more))).result = .error e)

/-- A client that was told any PIN and a device that leaves the PIN to the client:
the PIN decides the last check and no other, whatever both sides draw and whatever
the device sends as its certificate. -/
theorem pin_decides_last_check (config : Config) (d : Device) (pin : String)
    (iv : Fixed 16) (t : Fin 4 -> Tape)
    (hsecret : d.secret.length = config.secretLength.toNat)
    (hcertificate : d.certificate ≠ [])
    (hclient : Modp2048.validate (t 0).pair.publicKey.toNat = .ok ())
    (hdevice : Modp2048.validate d.pair.publicKey.toNat = .ok ()) :
    PinDecides config d pin iv t := by
  have hrun := run_of_marches (marches_to_request d pin t _ hdevice) (r := new config) rfl rfl
  have hstage := congrArg Registration.stage hrun.2
  have hlength := congrArg Registration.secretLength hrun.2
  have hresult := result_of_caResponse hstage (hsecret.trans (by rw [hlength]; rfl))
    hcertificate iv (t 3)
  rw [eHash_commitment d (exchangeWith d t) rfl, proofWith, expectedEHash_proofOf] at hresult
  have hrefused := eq_pinProofFailed_iff_not hresult
  refine ⟨_, _, exchangeWith d t, d.link (exchangeWith d t),
    d.caResponse (exchangeWith d t) (proofWith d pin t) iv, hrun.1, ?_, rfl, ?_, ?_, ?_, ?_,
    ?_, ?_, ?_⟩
  · exact congrArg Stage.exchange? hstage
  · exact d.answerHash_hashRequest _ _ hclient
  · exact d.answerAnyPin_caRequest (exchangeWith d t) rfl pin _ _ iv
  · intro e he
    exact not_precedesPin_verdict (hresult.symm.trans he)
  · exact hrefused.trans ne_comm
  · intro heq
    rw [decide_eq_true heq.symm] at hresult
    rw [← verdict_true_eq_ok_iff, ← hresult]
    rfl
  · intro hpin he
    exact hrefused.mp he (by rw [hpin])
  · intro he more k hk
    exact result_behind_error he (by rw [hk]; decide)

theorem pin_decides_last_check_of_sample :
    sampleDevice.secret.length = Config.default.secretLength.toNat ∧
      sampleDevice.certificate ≠ [] ∧ sampleDevice.pin ≠ "0000" ∧
      PinDecides Config.default sampleDevice "0000" (Fixed.resize 16 [])
        (fun _ => sampleTape) :=
  ⟨rfl, by decide, by decide, pin_decides_last_check _ _ _ _ _ rfl (by decide)
    (validate_publicKey_of_exponent_eq_one rfl) (validate_publicKey_of_exponent_eq_one rfl)⟩

end Registration
end PaperPairing
