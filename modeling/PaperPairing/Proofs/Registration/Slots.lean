import PaperPairing.Proofs.Registration.Advance

/-!
# Registrations as slots

The same registration as a row of slots that are filled and emptied one by one,
each of which could be empty when it is needed.  An operation here looks at the
state only, asks for every slot it needs, and keeps what it has changed so far
when it fails.  It is shown that no operation notices the difference.
-/

namespace PaperPairing
namespace Registration

/-- The data of an exchange, with what was added to it later. -/
structure HeldExchange where
  exchange : Exchange
  commitment : Option Commitment
  proof : Option ClientProof
  device : Option DeviceReply

structure Slots where
  state : State
  secretLength : UInt64
  exchange : Option HeldExchange
  certificate : Option String
  clientId : Option String
  identity : Option Identity

namespace Slots

def new (c : Config) : Slots :=
  ⟨.init, c.secretLength, none, none, none, none⟩

/-- Fail, unless this is the end already, and drop the secrets in any case. -/
def abort (s : Slots) (reason : Failure) : Slots :=
  { s with
    state := if s.state.isTerminal then s.state else .failed reason
    exchange := none
    identity := none }

/-!
## Actions
-/

/-- An action that fails keeps the slots it has reached. -/
abbrev Action := ExceptT Error (StateM Slots)

def missing : Error :=
  .invalidState "registration data missing for current state"

def found {α : Type} : Option α -> Action α
  | some a => pure a
  | none => throw missing

def require (expected : State) (m : Misuse) : Action Unit := do
  let s ← get
  if s.state ≠ expected then throw (m.error s.state)

/-- Refuse if there is something already, or nothing yet. -/
def refuseIf (occupied : Bool) (m : Misuse) : Action Unit := do
  let s ← get
  if occupied then throw (m.error s.state)

def keyExchange (body : Bytes) (nonce2 : Nonce) (pair : Modp2048.KeyPair) :
    Action Bytes := do
  require .init .challengeOutOfTurn
  let challenge ← (Message.ofBody body : Except Error PinChallenge)
  let x ← Stage.exchangeOf challenge nonce2 pair
  modify fun s => { s with
    exchange := some ⟨x, none, none, none⟩
    state := .pinRequested }
  return Message.toBody (Stage.hashRequest x)

def checkHashResponse (x : Exchange) (response : HashResponse) : Except Error Commitment :=
  if response.nonce2 ≠ x.nonce2 then
    .error (.protocolViolation (.nonceMismatch .hashExchange))
  else if !Transcript.verify (Stage.expectedM3 x response.eHash).bytes response.m3.bytes then
    .error (.protocolViolation (.tagMismatch .hashExchange))
  else
    .ok ⟨response.eHash, response.m3⟩

def hashResponse (body : Bytes) : Action Unit := do
  require .pinRequested .hashResponseOutOfTurn
  let response ← (Message.ofBody body : Except Error HashResponse)
  let held ← found (← get).exchange
  let c ← checkHashResponse held.exchange response
  modify fun s => { s with
    exchange := some { held with commitment := some c }
    state := .keyExchanged }

def caRequest (pin : String) (secret iv : Fixed 16) : Action Bytes := do
  require .keyExchanged .caRequestOutOfTurn
  let held ← found (← get).exchange
  refuseIf held.proof.isSome .caRequestTwice
  let c ← found held.commitment
  let p := Stage.proofOf held.exchange c pin secret iv
  modify fun s => { s with exchange := some { held with proof := some p } }
  return Message.toBody (Stage.caRequest held.exchange p)

def checkCaResponse (n : Nat) (x : Exchange) (c : Commitment) (p : ClientProof)
    (response : CaResponse) : Except Error (DeviceReply × String) :=
  if response.nonce2 ≠ x.nonce2 then
    .error (.protocolViolation (.nonceMismatch .caRegistration))
  else if !Transcript.verify (Stage.expectedM5 x p response.wrappedCertificate).bytes
      response.m5.bytes then
    .error (.protocolViolation (.tagMismatch .caRegistration))
  else
    match Wrap.unwrap? x.keys response.wrappedCertificate with
    | none => .error .integrityCheckFailed
    | some payload =>
        if payload.length ≤ n then
          .error (.parse (.invalidCertificate (Stage.shortPayload payload.length n)))
        else if !Transcript.verify (Stage.expectedEHash x p (payload.take n)).bytes
            c.eHash.bytes then
          .error (.protocolViolation .pinProofFailed)
        else
          match Certificate.normalize (payload.drop n) with
          | .error fault => .error (.parse (.invalidCertificate fault.message))
          | .ok certificate => .ok (⟨response.wrappedCertificate, response.m5⟩, certificate)

def caResponse (body : Bytes) : Action Unit := do
  require .keyExchanged .caResponseOutOfTurn
  let n := (← get).secretLength.toNat
  let held ← found (← get).exchange
  let c ← found held.commitment
  refuseIf held.proof.isNone .caResponseUnasked
  let p ← found held.proof
  let response ← (Message.ofBody body : Except Error CaResponse)
  let (reply, certificate) ← checkCaResponse n held.exchange c p response
  modify fun s => { s with exchange := some { held with device := some reply } }
  modify fun s => { s with certificate := some certificate }
  modify fun s => { s with state := .caVerified }

def registrationRequest (clientId : String) (identity : Identity) (iv : Fixed 16) :
    Action Bytes := do
  require .caVerified .registrationOutOfTurn
  refuseIf (← get).identity.isSome .registrationTwice
  let held ← found (← get).exchange
  let reply ← found held.device
  let request := Stage.registrationRequest held.exchange reply clientId identity iv
  modify fun s => { s with clientId := some clientId }
  modify fun s => { s with identity := some identity }
  return Message.toBody request

def registrationConfirmed : Action Unit := do
  require .caVerified .confirmationOutOfTurn
  refuseIf (← get).identity.isNone .confirmationUnasked
  modify fun s => { s with exchange := none }
  modify fun s => { s with state := .deviceRegistered }

/-- The slots are emptied one by one; the key may fail in between. -/
def finished : Action Credentials := do
  require .deviceRegistered .resultOutOfTurn
  let taken := (← get).identity
  modify fun s => { s with identity := none }
  let identity ← found taken
  let privateKey ← identity.privateText
  let taken := (← get).certificate
  modify fun s => { s with certificate := none }
  let certificate ← found taken
  let taken := (← get).clientId
  modify fun s => { s with clientId := none }
  let clientId ← found taken
  modify fun s => { s with state := .done }
  return ⟨certificate, privateKey, clientId⟩

/-!
## Calls
-/

def action (k : Call) : Action Product :=
  match k.operation with
  | .start body => do
      return .request (← keyExchange body k.tape.first k.tape.pair)
  | .acceptHashResponse body => do
      hashResponse body
      return .nothing
  | .requestCertificate pin => do
      return .request (← caRequest pin k.tape.first k.tape.second)
  | .acceptCertificate body => do
      caResponse body
      return .nothing
  | .requestRegistration clientId identity => do
      return .request (← registrationRequest clientId identity k.tape.first)
  | .confirm => do
      registrationConfirmed
      return .nothing
  | .finish => do
      return .credentials (← finished)
  | .abort reason => do
      modify fun s => s.abort reason
      return .nothing

def tracked {α : Type} : Except Error α × Slots -> Except Error α × Slots
  | (.ok a, s) => (.ok a, s)
  | (.error e, s) => (.error e, s.abort (Failure.ofError e))

def perform (s : Slots) (k : Call) : Except Error Product × Slots :=
  tracked ((action k).run.run s)

def after (s : Slots) : List Call -> Slots
  | [] => s
  | k :: calls => after (s.perform k).2 calls

def results (s : Slots) : List Call -> List (Except Error Product)
  | [] => []
  | k :: calls => (s.perform k).1 :: results (s.perform k).2 calls

/-!
## Slots that hold what a stage holds
-/

def held? : Stage -> Option HeldExchange
  | .pinRequested x => some ⟨x, none, none, none⟩
  | .keyExchanged x c => some ⟨x, some c, none, none⟩
  | .caRequested x c p => some ⟨x, some c, some p, none⟩
  | .caVerified x c p r _ | .registrationRequested x c p r _ _ _ =>
      some ⟨x, some c, some p, some r⟩
  | .init | .deviceRegistered _ _ _ | .done | .failed _ => none

/-- The slots of a registration.  One that gave up may leave a certificate and
an identifier behind, which are no secrets. -/
structure Holds (s : Slots) (r : Registration) : Prop where
  state_eq : s.state = r.state
  secretLength_eq : s.secretLength = r.secretLength
  exchange_eq : s.exchange = held? r.stage
  identity_eq : s.identity = r.stage.identity?
  certificate_eq : r.state.isTerminal = false -> s.certificate = r.stage.certificate?
  clientId_eq : r.state.isTerminal = false -> s.clientId = r.stage.clientId?

theorem holds_new (c : Config) : Holds (new c) (Registration.new c) :=
  ⟨rfl, rfl, rfl, rfl, fun _ => rfl, fun _ => rfl⟩

theorem held?_of_isTerminal {stage : Stage} (h : stage.state.isTerminal = true) :
    held? stage = none := by
  cases stage with
  | done | failed => rfl
  | _ => cases h

theorem identity?_of_isTerminal {stage : Stage} (h : stage.state.isTerminal = true) :
    stage.identity? = none := by
  cases stage with
  | done | failed => rfl
  | _ => cases h

theorem holds_abort {s : Slots} {r : Registration} (hstate : s.state = r.state)
    (hlength : s.secretLength = r.secretLength) (reason : Failure) :
    Holds (s.abort reason) (r.abort reason) := by
  have hterminal : (r.abort reason).stage.state.isTerminal = true :=
    isTerminal_stage_abort r reason
  constructor
  · rw [abort, hstate, Registration.state, Registration.state, Registration.abort,
      Stage.abort]
    by_cases h : r.stage.state.isTerminal = true
    · rw [if_pos h, if_pos h]
    · rw [if_neg h, if_neg h]
      rfl
  · exact hlength
  · exact (held?_of_isTerminal hterminal).symm
  · exact (identity?_of_isTerminal hterminal).symm
  · intro h
    rw [Registration.state, hterminal] at h
    cases h
  · intro h
    rw [Registration.state, hterminal] at h
    cases h

/-!
## Running actions
-/

theorem run_bind {α β : Type} (act : Action α) (f : α -> Action β) (s : Slots) :
    (act >>= f).run.run s =
      match act.run.run s with
      | (.ok a, s') => (f a).run.run s'
      | (.error e, s') => (.error e, s') := by
  show (match act s with | (e, s') => ExceptT.bindCont f e s') = match act s with
    | (.ok a, s') => (f a).run.run s'
    | (.error e, s') => (.error e, s')
  rcases act s with ⟨e, s'⟩
  cases e <;> rfl

theorem run_of_run {α β : Type} {act : Action α} {a : α} {s s' : Slots}
    (h : act.run.run s = (.ok a, s')) (f : α -> Action β) :
    (act >>= f).run.run s = (f a).run.run s' := by
  rw [run_bind, h]

theorem run_of_run_error {α β : Type} {act : Action α} {e : Error} {s s' : Slots}
    (h : act.run.run s = (.error e, s')) (f : α -> Action β) :
    (act >>= f).run.run s = (.error e, s') := by
  rw [run_bind, h]

theorem run_get {α : Type} (s : Slots) (f : Slots -> Action α) :
    (get >>= f).run.run s = (f s).run.run s :=
  run_of_run rfl f

theorem run_modify {α : Type} (s : Slots) (g : Slots -> Slots) (f : Unit -> Action α) :
    (modify g >>= f).run.run s = (f ()).run.run (g s) :=
  run_of_run rfl f

theorem run_found_some {α β : Type} (s : Slots) (a : α) (f : α -> Action β) :
    (found (some a) >>= f).run.run s = (f a).run.run s :=
  run_of_run rfl f

theorem run_throw {α : Type} (s : Slots) (e : Error) :
    (throw e : Action α).run.run s = (.error e, s) := rfl

theorem run_pure {α : Type} (s : Slots) (a : α) :
    (pure a : Action α).run.run s = (.ok a, s) := rfl

theorem run_require_of_eq {α : Type} {s : Slots} {expected : State} (m : Misuse)
    (h : s.state = expected) (f : Unit -> Action α) :
    (require expected m >>= f).run.run s = (f ()).run.run s := by
  apply run_of_run
  rw [require, run_get, if_neg (not_not_intro h), run_pure]

theorem run_require_of_ne {α : Type} {s : Slots} {expected : State} (m : Misuse)
    (h : s.state ≠ expected) (f : Unit -> Action α) :
    (require expected m >>= f).run.run s = (.error (m.error s.state), s) := by
  apply run_of_run_error
  rw [require, run_get, if_pos h, run_throw]

theorem run_refuseIf_false {α : Type} (s : Slots) (m : Misuse) (f : Unit -> Action α) :
    (refuseIf false m >>= f).run.run s = (f ()).run.run s := by
  apply run_of_run
  rw [refuseIf, run_get, if_neg Bool.false_ne_true, run_pure]

theorem run_refuseIf_true {α : Type} (s : Slots) (m : Misuse) (f : Unit -> Action α) :
    (refuseIf true m >>= f).run.run s = (.error (m.error s.state), s) := by
  apply run_of_run_error
  rw [refuseIf, run_get, if_pos rfl, run_throw]

/-- What an action makes of the slots is what a step makes of the stage. -/
inductive Agrees {α : Type} (r : Registration) :
    Except Error α × Slots -> Except Error (α × Stage) -> Prop where
  | ok {a : α} {s : Slots} {next : Stage} (hholds : Holds s { r with stage := next }) :
      Agrees r (.ok a, s) (.ok (a, next))
  | error {e : Error} {s : Slots} (hstate : s.state = r.state)
      (hlength : s.secretLength = r.secretLength) : Agrees r (.error e, s) (.error e)

theorem agrees_map {α β : Type} {act : Action α} {s : Slots} {r : Registration}
    {step : Except Error (α × Stage)} (f : α -> β) (h : Agrees r (act.run.run s) step) :
    Agrees r ((act >>= fun a => pure (f a)).run.run s) (step.map (Prod.map f id)) := by
  rw [run_bind]
  generalize act.run.run s = ran at h
  cases h with
  | ok hholds => exact .ok hholds
  | error hstate hlength => exact .error hstate hlength

theorem holds_tracked {α : Type} {ran : Except Error α × Slots} {r : Registration}
    {step : Except Error (α × Stage)} (h : Agrees r ran step) :
    (tracked ran).1 = (r.settle step).1 ∧ Holds (tracked ran).2 (r.settle step).2 := by
  cases h with
  | ok hholds => exact ⟨rfl, hholds⟩
  | error hstate hlength => exact ⟨rfl, holds_abort hstate hlength _⟩

theorem agrees_check {α β : Type} {s : Slots} {r : Registration}
    (hstate : s.state = r.state) (hlength : s.secretLength = r.secretLength)
    {check : Except Error α} {f : α -> Action β} {g : α -> Except Error (β × Stage)}
    (h : forall a, Agrees r ((f a).run.run s) (g a)) :
    Agrees r (((liftM check : Action α) >>= f).run.run s) (check >>= g) := by
  cases check with
  | error e => exact .error hstate hlength
  | ok a => exact h a

theorem agrees_refuse {α : Type} {s : Slots} {r : Registration} (h : Holds s r)
    {expected : State} (m : Misuse) (hne : r.state ≠ expected) (f : Unit -> Action α) :
    Agrees r ((require expected m >>= f).run.run s) (Stage.refuse m r.stage) := by
  rw [run_require_of_ne m (by rw [h.state_eq]; exact hne), h.state_eq]
  exact .error h.state_eq h.secretLength_eq

/-!
## Each action follows its step
-/

theorem acceptHashResponse_eq (x : Exchange) (body : Bytes) :
    (Stage.pinRequested x).acceptHashResponse body =
      ((Message.ofBody body : Except Error HashResponse) >>= fun response =>
        checkHashResponse x response >>= fun c => .ok ((), .keyExchanged x c)) := by
  rw [Stage.acceptHashResponse]
  congr 1
  funext response
  rw [checkHashResponse]
  split
  · rfl
  · split <;> rfl

theorem acceptCertificate_eq (n : Nat) (x : Exchange) (c : Commitment) (p : ClientProof)
    (body : Bytes) :
    (Stage.caRequested x c p).acceptCertificate n body =
      ((Message.ofBody body : Except Error CaResponse) >>= fun response =>
        checkCaResponse n x c p response >>= fun checked =>
          .ok ((), .caVerified x c p checked.1 checked.2)) := by
  rw [Stage.acceptCertificate]
  congr 1
  funext response
  rw [checkCaResponse]
  split
  · rfl
  · split
    · rfl
    · cases Wrap.unwrap? x.keys response.wrappedCertificate with
      | none => rfl
      | some payload =>
          simp only
          split
          · rfl
          · split
            · rfl
            · cases Certificate.normalize (payload.drop n) <;> rfl

section

variable {s : Slots} {n : UInt64} {stage : Stage}

theorem agrees_keyExchange (h : Holds s ⟨n, stage⟩) (body : Bytes) (nonce2 : Nonce)
    (pair : Modp2048.KeyPair) :
    Agrees ⟨n, stage⟩ ((keyExchange body nonce2 pair).run.run s)
      (stage.start body nonce2 pair) := by
  cases stage with
  | init =>
      have hstate : s.state = .init := h.state_eq
      rw [keyExchange, run_require_of_eq _ hstate, Stage.start]
      refine agrees_check h.state_eq h.secretLength_eq ?_
      intro challenge
      apply agrees_check h.state_eq h.secretLength_eq
      intro x
      rw [run_modify]
      exact .ok ⟨rfl, h.secretLength_eq, rfl, h.identity_eq, fun _ => h.certificate_eq rfl,
        fun _ => h.clientId_eq rfl⟩
  | _ => exact agrees_refuse h _ State.noConfusion _

theorem agrees_hashResponse (h : Holds s ⟨n, stage⟩) (body : Bytes) :
    Agrees ⟨n, stage⟩ ((hashResponse body).run.run s) (stage.acceptHashResponse body) := by
  cases stage with
  | pinRequested x =>
      have hstate : s.state = .pinRequested := h.state_eq
      have hheld : s.exchange = some ⟨x, none, none, none⟩ := h.exchange_eq
      rw [hashResponse, run_require_of_eq _ hstate, acceptHashResponse_eq]
      refine agrees_check h.state_eq h.secretLength_eq ?_
      intro response
      rw [run_get, hheld, run_found_some]
      refine agrees_check h.state_eq h.secretLength_eq ?_
      intro c
      exact .ok ⟨rfl, h.secretLength_eq, rfl, h.identity_eq, fun _ => h.certificate_eq rfl,
        fun _ => h.clientId_eq rfl⟩
  | _ => exact agrees_refuse h _ State.noConfusion _

theorem agrees_caRequest (h : Holds s ⟨n, stage⟩) (pin : String) (secret iv : Fixed 16) :
    Agrees ⟨n, stage⟩ ((caRequest pin secret iv).run.run s)
      (stage.requestCertificate pin secret iv) := by
  cases stage with
  | keyExchanged x c =>
      have hstate : s.state = .keyExchanged := h.state_eq
      have hheld : s.exchange = some ⟨x, some c, none, none⟩ := h.exchange_eq
      rw [caRequest, run_require_of_eq _ hstate, run_get, hheld, run_found_some,
        Option.isSome_none, run_refuseIf_false, run_found_some]
      exact .ok ⟨h.state_eq, h.secretLength_eq, rfl, h.identity_eq,
        fun _ => h.certificate_eq rfl, fun _ => h.clientId_eq rfl⟩
  | caRequested x c p =>
      have hstate : s.state = .keyExchanged := h.state_eq
      have hheld : s.exchange = some ⟨x, some c, some p, none⟩ := h.exchange_eq
      rw [caRequest, run_require_of_eq _ hstate, run_get, hheld, run_found_some,
        Option.isSome_some, run_refuseIf_true, hstate]
      exact .error h.state_eq h.secretLength_eq
  | _ => exact agrees_refuse h _ State.noConfusion _

theorem agrees_caResponse (h : Holds s ⟨n, stage⟩) (body : Bytes) :
    Agrees ⟨n, stage⟩ ((caResponse body).run.run s)
      (stage.acceptCertificate n.toNat body) := by
  cases stage with
  | keyExchanged x c =>
      have hstate : s.state = .keyExchanged := h.state_eq
      have hheld : s.exchange = some ⟨x, some c, none, none⟩ := h.exchange_eq
      rw [caResponse, run_require_of_eq _ hstate, run_get, run_get, hheld, run_found_some,
        run_found_some, Option.isNone_none, run_refuseIf_true, hstate]
      exact .error h.state_eq h.secretLength_eq
  | caRequested x c p =>
      have hstate : s.state = .keyExchanged := h.state_eq
      have hheld : s.exchange = some ⟨x, some c, some p, none⟩ := h.exchange_eq
      have hlength : s.secretLength = n := h.secretLength_eq
      rw [caResponse, run_require_of_eq _ hstate, run_get, run_get, hheld, run_found_some,
        run_found_some, Option.isNone_some, run_refuseIf_false, run_found_some,
        acceptCertificate_eq, hlength]
      refine agrees_check h.state_eq h.secretLength_eq ?_
      intro response
      refine agrees_check h.state_eq h.secretLength_eq ?_
      intro checked
      exact .ok ⟨rfl, h.secretLength_eq, rfl, h.identity_eq, fun _ => rfl,
        fun _ => h.clientId_eq rfl⟩
  | _ => exact agrees_refuse h _ State.noConfusion _

theorem agrees_registrationRequest (h : Holds s ⟨n, stage⟩) (clientId : String)
    (identity : Identity) (iv : Fixed 16) :
    Agrees ⟨n, stage⟩ ((registrationRequest clientId identity iv).run.run s)
      (stage.requestRegistration clientId identity iv) := by
  cases stage with
  | caVerified x c p reply certificate =>
      have hstate : s.state = .caVerified := h.state_eq
      have hheld : s.exchange = some ⟨x, some c, some p, some reply⟩ := h.exchange_eq
      have hidentity : s.identity = none := h.identity_eq
      rw [registrationRequest, run_require_of_eq _ hstate, run_get, hidentity,
        Option.isSome_none, run_refuseIf_false, run_get, hheld, run_found_some,
        run_found_some]
      exact .ok ⟨h.state_eq, h.secretLength_eq, h.exchange_eq, rfl,
        fun _ => h.certificate_eq rfl, fun _ => rfl⟩
  | registrationRequested x c p reply certificate clientId' identity' =>
      have hstate : s.state = .caVerified := h.state_eq
      have hidentity : s.identity = some identity' := h.identity_eq
      rw [registrationRequest, run_require_of_eq _ hstate, run_get, hidentity,
        Option.isSome_some, run_refuseIf_true, hstate]
      exact .error h.state_eq h.secretLength_eq
  | _ => exact agrees_refuse h _ State.noConfusion _

theorem agrees_registrationConfirmed (h : Holds s ⟨n, stage⟩) :
    Agrees ⟨n, stage⟩ (registrationConfirmed.run.run s) stage.confirm := by
  cases stage with
  | caVerified x c p reply certificate =>
      have hstate : s.state = .caVerified := h.state_eq
      have hidentity : s.identity = none := h.identity_eq
      rw [registrationConfirmed, run_require_of_eq _ hstate, run_get, hidentity,
        Option.isNone_none, run_refuseIf_true, hstate]
      exact .error h.state_eq h.secretLength_eq
  | registrationRequested x c p reply certificate clientId identity =>
      have hstate : s.state = .caVerified := h.state_eq
      have hidentity : s.identity = some identity := h.identity_eq
      rw [registrationConfirmed, run_require_of_eq _ hstate, run_get, hidentity,
        Option.isNone_some, run_refuseIf_false]
      exact .ok ⟨rfl, h.secretLength_eq, rfl, h.identity_eq, fun _ => h.certificate_eq rfl,
        fun _ => h.clientId_eq rfl⟩
  | _ => exact agrees_refuse h _ State.noConfusion _

/-- The one action that changes slots before it may fail. -/
theorem agrees_finished (h : Holds s ⟨n, stage⟩) :
    Agrees ⟨n, stage⟩ (finished.run.run s) stage.finish := by
  cases stage with
  | deviceRegistered certificate clientId identity =>
      have hstate : s.state = .deviceRegistered := h.state_eq
      have hidentity : s.identity = some identity := h.identity_eq
      have hcertificate : s.certificate = some certificate := h.certificate_eq rfl
      have hclientId : s.clientId = some clientId := h.clientId_eq rfl
      rw [finished, run_require_of_eq _ hstate, run_get, hidentity, run_modify,
        run_found_some, Stage.finish]
      apply agrees_check
      · exact h.state_eq
      · exact h.secretLength_eq
      intro key
      rw [run_get, hcertificate, run_modify, run_found_some, run_get, hclientId, run_modify,
        run_found_some]
      exact .ok ⟨rfl, h.secretLength_eq, h.exchange_eq, rfl, fun _ => rfl, fun _ => rfl⟩
  | _ => exact agrees_refuse h _ State.noConfusion _

end

/-!
## Calls and runs
-/

theorem agrees_action {s : Slots} {r : Registration} (h : Holds s r) (k : Call) :
    Agrees r ((action k).run.run s) (k.step r.secretLength.toNat r.stage) := by
  rcases r with ⟨n, stage⟩
  rcases k with ⟨operation, t⟩
  cases operation with
  | start body => exact agrees_map _ (agrees_keyExchange h body t.first t.pair)
  | acceptHashResponse body => exact agrees_map _ (agrees_hashResponse h body)
  | requestCertificate pin => exact agrees_map _ (agrees_caRequest h pin t.first t.second)
  | acceptCertificate body => exact agrees_map _ (agrees_caResponse h body)
  | requestRegistration clientId identity =>
      exact agrees_map _ (agrees_registrationRequest h clientId identity t.first)
  | confirm => exact agrees_map _ (agrees_registrationConfirmed h)
  | finish => exact agrees_map _ (agrees_finished h)
  | abort reason => exact .ok (holds_abort h.state_eq h.secretLength_eq reason)

theorem holds_perform {s : Slots} {r : Registration} (h : Holds s r) (k : Call) :
    (s.perform k).1 = (k.outcome r).result ∧
      Holds (s.perform k).2 (k.outcome r).registration := by
  have hsettle := Prod.mk.inj (outcome_eq_settle k r)
  rw [hsettle.1, hsettle.2]
  exact holds_tracked (agrees_action h k)

theorem holds_after {s : Slots} {r : Registration} (h : Holds s r) (calls : List Call) :
    Holds (s.after calls) (r.after calls) := by
  induction calls generalizing s r with
  | nil => exact h
  | cons k calls ih => exact ih (holds_perform h k).2

theorem results_of_holds {s : Slots} {r : Registration} (h : Holds s r)
    (calls : List Call) : s.results calls = r.results calls := by
  induction calls generalizing s r with
  | nil => rfl
  | cons k calls ih =>
      rcases holds_perform h k with ⟨hresult, hnext⟩
      rw [results, Registration.results, hresult, ih hnext]

end Slots
end Registration
end PaperPairing
