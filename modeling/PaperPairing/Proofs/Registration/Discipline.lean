import PaperPairing.Proofs.Registration.Order
import PaperPairing.Proofs.Registration.Slots

/-!
# Data and state correspond

Which slots are filled is decided by the state alone, after every run.  So no
operation ever misses a slot, and every error is either a check that failed or
an operation that came at the wrong time.
-/

namespace PaperPairing

/-!
## Checks do not complain about the state
-/

/-- A check whose errors say nothing about the state. -/
def IsCheck {α : Type} (check : Except Error α) : Prop :=
  forall text, check ≠ .error (.invalidState text)

namespace IsCheck

theorem ok {α : Type} (a : α) : IsCheck (.ok a) := by
  intro text h
  cases h

theorem parse {α : Type} (cause : ParseError) :
    IsCheck (.error (.parse cause) : Except Error α) := by
  intro text h
  cases h

theorem violation {α : Type} (cause : Violation) :
    IsCheck (.error (.protocolViolation cause) : Except Error α) := by
  intro text h
  cases h

theorem bind {α β : Type} {check : Except Error α} {f : α -> Except Error β}
    (hcheck : IsCheck check) (hf : forall a, IsCheck (f a)) : IsCheck (check >>= f) := by
  cases check with
  | error e =>
      intro text h
      cases h
      exact hcheck text rfl
  | ok a => exact hf a

theorem map {α β : Type} {check : Except Error α} (hcheck : IsCheck check) (f : α -> β) :
    IsCheck (check.map f) := by
  cases check with
  | error e =>
      intro text h
      cases h
      exact hcheck text rfl
  | ok a => exact ok (f a)

end IsCheck

namespace Letters

theorem isCheck_ofBody (body : Bytes) : IsCheck (ofBody body) := by
  rw [ofBody]
  cases (Json.parse? body).bind ofJson? with
  | none => exact .parse _
  | some l => exact .ok l

theorem isCheck_bytes (message : String) (l : Letters) (letter : Letter) :
    IsCheck (bytes message l letter) := by
  rw [bytes]
  split
  · exact .parse _
  · split
    · exact .parse _
    · exact .ok _

theorem isCheck_fixed (n : Nat) (message : String) (l : Letters) (letter : Letter) :
    IsCheck (fixed n message l letter) := by
  refine .bind (isCheck_bytes message l letter) ?_
  intro b
  cases Fixed.ofBytes? n b with
  | none => exact .parse _
  | some x => exact .ok x

end Letters

namespace Message

open Letters (isCheck_ofBody isCheck_bytes isCheck_fixed)

theorem isCheck_pinChallenge (body : Bytes) :
    IsCheck (ofBody body : Except Error PinChallenge) := by
  refine .bind (isCheck_ofBody body) ?_
  intro l
  refine .bind (isCheck_fixed 16 _ l .a) ?_
  intro nonce1
  refine .bind (isCheck_bytes _ l .b) ?_
  intro mac
  refine .bind (isCheck_bytes _ l .c) ?_
  intro contribution
  exact .ok _

theorem isCheck_hashResponse (body : Bytes) :
    IsCheck (ofBody body : Except Error HashResponse) := by
  refine .bind (isCheck_ofBody body) ?_
  intro l
  refine .bind (isCheck_fixed 16 _ l .a) ?_
  intro nonce2
  refine .bind (isCheck_fixed 32 _ l .b) ?_
  intro eHash
  refine .bind (isCheck_fixed 32 _ l .e) ?_
  intro m3
  exact .ok _

theorem isCheck_caResponse (body : Bytes) :
    IsCheck (ofBody body : Except Error CaResponse) := by
  refine .bind (isCheck_ofBody body) ?_
  intro l
  refine .bind (isCheck_fixed 16 _ l .a) ?_
  intro nonce2
  refine .bind (isCheck_bytes _ l .d) ?_
  intro wrapped
  refine .bind (isCheck_fixed 32 _ l .e) ?_
  intro m5
  exact .ok _

end Message

namespace Registration

theorem isCheck_peerKey {α : Type} (e : Except Modp2048.Fault α) :
    IsCheck (Stage.peerKey e) := by
  cases e with
  | ok a => exact .ok a
  | error fault =>
      intro text h
      cases h

theorem isCheck_exchangeOf (challenge : PinChallenge) (nonce2 : Nonce)
    (pair : Modp2048.KeyPair) : IsCheck (Stage.exchangeOf challenge nonce2 pair) := by
  refine .bind (isCheck_peerKey _) ?_
  intro yb
  refine .bind (isCheck_peerKey _) ?_
  intro secret
  exact .ok _

theorem isCheck_checkHashResponse (x : Exchange) (response : HashResponse) :
    IsCheck (Slots.checkHashResponse x response) := by
  rw [Slots.checkHashResponse]
  split
  · exact .violation _
  · split
    · exact .violation _
    · exact .ok _

theorem isCheck_checkCaResponse (n : Nat) (x : Exchange) (c : Commitment)
    (p : ClientProof) (response : CaResponse) :
    IsCheck (Slots.checkCaResponse n x c p response) := by
  rw [Slots.checkCaResponse]
  split
  · exact .violation _
  split
  · exact .violation _
  split
  · intro text h
    cases h
  split
  · exact .parse _
  split
  · exact .violation _
  split
  · exact .parse _
  · exact .ok _

theorem isCheck_privateText (identity : Identity) : IsCheck identity.privateText := by
  rw [Identity.privateText]
  cases identity.key.privateInfo? with
  | none =>
      intro text h
      cases h
  | some info => exact .ok _

theorem isCheck_start (body : Bytes) (nonce2 : Nonce) (pair : Modp2048.KeyPair) :
    IsCheck (Stage.init.start body nonce2 pair) := by
  refine .bind (Message.isCheck_pinChallenge body) ?_
  intro challenge
  refine .bind (isCheck_exchangeOf challenge nonce2 pair) ?_
  intro x
  exact .ok _

theorem isCheck_acceptHashResponse (x : Exchange) (body : Bytes) :
    IsCheck ((Stage.pinRequested x).acceptHashResponse body) := by
  rw [Slots.acceptHashResponse_eq]
  refine .bind (Message.isCheck_hashResponse body) ?_
  intro response
  refine .bind (isCheck_checkHashResponse x response) ?_
  intro c
  exact .ok _

theorem isCheck_acceptCertificate (n : Nat) (x : Exchange) (c : Commitment)
    (p : ClientProof) (body : Bytes) :
    IsCheck ((Stage.caRequested x c p).acceptCertificate n body) := by
  rw [Slots.acceptCertificate_eq]
  refine .bind (Message.isCheck_caResponse body) ?_
  intro response
  refine .bind (isCheck_checkCaResponse n x c p response) ?_
  intro checked
  exact .ok _

/-- Every step makes its checks, or refuses because it is not its turn. -/
theorem isCheck_or_misuse (n : Nat) (k : Call) (s : Stage) :
    IsCheck (k.step n s) ∨ exists m : Misuse, k.step n s = .error (m.error s.state) := by
  rcases k with ⟨operation, t⟩
  cases operation with
  | start body =>
      cases s with
      | init => exact .inl (.map (isCheck_start body t.first t.pair) _)
      | _ => exact .inr ⟨.challengeOutOfTurn, rfl⟩
  | acceptHashResponse body =>
      cases s with
      | pinRequested x => exact .inl (.map (isCheck_acceptHashResponse x body) _)
      | _ => exact .inr ⟨.hashResponseOutOfTurn, rfl⟩
  | requestCertificate pin =>
      cases s with
      | keyExchanged x c => exact .inl (.ok _)
      | caRequested x c p => exact .inr ⟨.caRequestTwice, rfl⟩
      | _ => exact .inr ⟨.caRequestOutOfTurn, rfl⟩
  | acceptCertificate body =>
      cases s with
      | caRequested x c p => exact .inl (.map (isCheck_acceptCertificate n x c p body) _)
      | keyExchanged x c => exact .inr ⟨.caResponseUnasked, rfl⟩
      | _ => exact .inr ⟨.caResponseOutOfTurn, rfl⟩
  | requestRegistration clientId identity =>
      cases s with
      | caVerified x c p r certificate => exact .inl (.ok _)
      | registrationRequested x c p r certificate clientId identity =>
          exact .inr ⟨.registrationTwice, rfl⟩
      | _ => exact .inr ⟨.registrationOutOfTurn, rfl⟩
  | confirm =>
      cases s with
      | registrationRequested x c p r certificate clientId identity => exact .inl (.ok _)
      | caVerified x c p r certificate => exact .inr ⟨.confirmationUnasked, rfl⟩
      | _ => exact .inr ⟨.confirmationOutOfTurn, rfl⟩
  | finish =>
      cases s with
      | deviceRegistered certificate clientId identity =>
          exact .inl (.map (.bind (isCheck_privateText identity) (fun key => .ok _)) _)
      | _ => exact .inr ⟨.resultOutOfTurn, rfl⟩
  | abort reason => exact .inl (.ok _)

theorem misuse_of_isTerminal (n : Nat) {k : Call} {s : Stage}
    (hs : s.state.isTerminal = true) (hk : k.kind ≠ .abort) :
    exists m : Misuse, k.step n s = .error (m.error s.state) := by
  rcases k with ⟨operation, t⟩
  cases s with
  | done | failed =>
      cases operation with
      | start => exact ⟨.challengeOutOfTurn, rfl⟩
      | acceptHashResponse => exact ⟨.hashResponseOutOfTurn, rfl⟩
      | requestCertificate => exact ⟨.caRequestOutOfTurn, rfl⟩
      | acceptCertificate => exact ⟨.caResponseOutOfTurn, rfl⟩
      | requestRegistration => exact ⟨.registrationOutOfTurn, rfl⟩
      | confirm => exact ⟨.confirmationOutOfTurn, rfl⟩
      | finish => exact ⟨.resultOutOfTurn, rfl⟩
      | abort => exact (hk rfl).elim
  | _ => cases hs

theorem misuse_of_result {k : Call} {r : Registration} {text : String}
    (h : (k.outcome r).result = .error (.invalidState text)) :
    exists m : Misuse, text = m.message r.state := by
  cases hstep : k.step r.secretLength.toNat r.stage with
  | ok p =>
      rw [(outcome_of_step_ok (a := p.1) (s := p.2) hstep).1] at h
      cases h
  | error e =>
      rw [(outcome_of_step_error hstep).1] at h
      cases h
      rcases isCheck_or_misuse r.secretLength.toNat k r.stage with hcheck | ⟨m, hm⟩
      · exact (hcheck text hstep).elim
      · rw [hm] at hstep
        cases hstep
        exact ⟨m, rfl⟩

/-!
## No slot is ever missed
-/

/-- The wording of a misuse that names the state ends with a bracket. -/
theorem inState_ne_missing (text : String) (s : State) :
    Misuse.inState text s ≠ "registration data missing for current state" := by
  intro h
  have hlast : (Misuse.inState text s).toList.getLast? = some 'e' := by
    rw [h]
    decide
  rw [Misuse.inState, String.toList_append] at hlast
  have hbracket : ")".toList = [')'] := by decide
  rw [hbracket, List.getLast?_concat] at hlast
  exact absurd hlast (by decide)

theorem message_ne_missing (m : Misuse) (s : State) :
    m.message s ≠ "registration data missing for current state" := by
  cases m with
  | caRequestTwice | caResponseUnasked | registrationTwice | confirmationUnasked =>
      rw [Misuse.message]
      decide
  | _ => exact inState_ne_missing _ s

theorem result_ne_missing (k : Call) (r : Registration) :
    (k.outcome r).result ≠ .error Slots.missing := by
  intro h
  rcases misuse_of_result h with ⟨m, hm⟩
  exact message_ne_missing m r.state hm.symm

namespace Slots

/-!
## Correspondence
-/

def IsClean (s : Slots) : Prop :=
  s.exchange = none ∧ s.identity = none

/-- The slots that are filled are those that belong to the state. -/
structure Corresponds (s : Slots) : Prop where
  exchange_iff : s.exchange.isSome = true ↔
    s.state = .pinRequested ∨ s.state = .keyExchanged ∨ s.state = .caVerified
  commitment_iff : (s.exchange.bind HeldExchange.commitment).isSome = true ↔
    s.state = .keyExchanged ∨ s.state = .caVerified
  device_iff : (s.exchange.bind HeldExchange.device).isSome = true ↔ s.state = .caVerified
  of_caVerified : s.state = .caVerified ->
    (s.exchange.bind HeldExchange.proof).isSome = true ∧ s.certificate.isSome = true
  of_identity : s.identity.isSome = true ->
    s.state = .caVerified ∨ s.state = .deviceRegistered
  of_deviceRegistered : s.state = .deviceRegistered ->
    s.identity.isSome = true ∧ s.clientId.isSome = true ∧ s.certificate.isSome = true

section

variable {s : Slots} {r : Registration}

theorem certificate_of_caVerified (h : Holds s r) (hr : r.state = .caVerified) :
    s.certificate.isSome = true := by
  rw [h.certificate_eq (by rw [hr]; rfl)]
  rcases r with ⟨n, stage⟩
  cases stage <;> first | rfl | cases hr

theorem data_of_deviceRegistered (h : Holds s r) (hr : r.state = .deviceRegistered) :
    s.identity.isSome = true ∧ s.clientId.isSome = true ∧ s.certificate.isSome = true := by
  have hopen : r.state.isTerminal = false := by
    rw [hr]
    rfl
  rw [h.identity_eq, h.clientId_eq hopen, h.certificate_eq hopen]
  rcases r with ⟨n, stage⟩
  cases stage <;> first | exact ⟨rfl, rfl, rfl⟩ | cases hr

theorem corresponds_of_holds (h : Holds s r) : s.Corresponds := by
  constructor
  · rw [h.exchange_eq, h.state_eq]
    cases hstage : r.stage <;> simp [held?, Registration.state, Stage.state, hstage]
  · rw [h.exchange_eq, h.state_eq]
    cases hstage : r.stage <;> simp [held?, Registration.state, Stage.state, hstage]
  · rw [h.exchange_eq, h.state_eq]
    cases hstage : r.stage <;> simp [held?, Registration.state, Stage.state, hstage]
  · intro hs
    rw [h.state_eq] at hs
    refine ⟨?_, certificate_of_caVerified h hs⟩
    rw [h.exchange_eq]
    rcases r with ⟨n, stage⟩
    cases stage <;> first | rfl | cases hs
  · rw [h.identity_eq, h.state_eq]
    cases hstage : r.stage <;>
      simp [Stage.identity?, Registration.state, Stage.state, hstage]
  · intro hs
    rw [h.state_eq] at hs
    exact data_of_deviceRegistered h hs

theorem isClean_of_isTerminal (h : Holds s r) (hr : r.state.isTerminal = true) :
    s.IsClean := by
  constructor
  · rw [h.exchange_eq]
    exact held?_of_isTerminal hr
  · rw [h.identity_eq]
    exact identity?_of_isTerminal hr

theorem isClean_abort (s : Slots) (reason : Failure) : (s.abort reason).IsClean :=
  ⟨rfl, rfl⟩

theorem state_abort_of_isTerminal {s : Slots} (hs : s.state.isTerminal = true)
    (reason : Failure) : (s.abort reason).state = s.state := by
  show (if s.state.isTerminal = true then s.state else .failed reason) = s.state
  rw [if_pos hs]

theorem state_abort_of_not_isTerminal {s : Slots} (hs : s.state.isTerminal = false)
    (reason : Failure) : (s.abort reason).state = .failed reason := by
  show (if s.state.isTerminal = true then s.state else .failed reason) = .failed reason
  rw [hs]
  rfl

/-!
## Errors end a registration
-/

theorem not_misses (h : Holds s r) (k : Call) : (s.perform k).1 ≠ .error missing := by
  rw [(holds_perform h k).1]
  exact result_ne_missing k r

theorem failed_of_error (h : Holds s r) (hs : s.state.isTerminal = false) {k : Call}
    {e : Error} (he : (s.perform k).1 = .error e) :
    (s.perform k).2.state = .failed (Failure.ofError e) ∧ (s.perform k).2.IsClean := by
  rcases holds_perform h k with ⟨hresult, hnext⟩
  rw [he] at hresult
  have hend := registration_of_result_error hresult.symm
  have hterminal : (k.outcome r).registration.state.isTerminal = true := by
    rw [hend]
    exact isTerminal_stage_abort r _
  refine ⟨?_, isClean_of_isTerminal hnext hterminal⟩
  rw [h.state_eq] at hs
  rw [hnext.state_eq, hend]
  show (r.stage.abort _).state = _
  rw [Stage.abort, if_neg (by rw [← Registration.state, hs]; exact Bool.false_ne_true)]
  rfl

theorem perform_of_isTerminal (h : Holds s r) (hs : s.state.isTerminal = true) (k : Call) :
    (k.kind ≠ .abort -> exists text, (s.perform k).1 = .error (.invalidState text)) ∧
      (s.perform k).2.state = s.state ∧ (s.perform k).2.IsClean := by
  rcases holds_perform h k with ⟨hresult, hnext⟩
  rw [h.state_eq] at hs
  have hstay : (k.outcome r).registration = r := outcome_of_isTerminal hs
  rw [hstay] at hnext
  refine ⟨?_, ?_, isClean_of_isTerminal hnext hs⟩
  · intro hk
    rcases misuse_of_isTerminal r.secretLength.toNat hs hk with ⟨m, hm⟩
    rw [hresult, (outcome_of_step_error hm).1]
    exact ⟨_, rfl⟩
  · rw [hnext.state_eq, h.state_eq]

end

/-- Whatever was called: the slots and the calls are those of the registration;
the filled slots belong to the state; no slot is ever missed; an error before
the end leads to the failure that it stands for and drops the secrets; at the end
everything but giving up is refused; and giving up always drops the secrets. -/
theorem slots_follow_the_state (config : Config) (calls : List Call) :
    let s := (new config).after calls
    let r := (Registration.new config).after calls
    ((new config).results calls = (Registration.new config).results calls ∧ Holds s r) ∧
    s.Corresponds ∧
    (forall k, (s.perform k).1 ≠ .error missing) ∧
    (forall k e, s.state.isTerminal = false -> (s.perform k).1 = .error e ->
      (s.perform k).2.state = .failed (Failure.ofError e) ∧ (s.perform k).2.IsClean) ∧
    (s.state.isTerminal = true -> s.IsClean ∧ forall k,
      (k.kind ≠ .abort -> exists text, (s.perform k).1 = .error (.invalidState text)) ∧
        (s.perform k).2.state = s.state ∧ (s.perform k).2.IsClean) ∧
    (forall reason t,
      (s.perform ⟨.abort reason, t⟩).1 = .ok .nothing ∧
      (s.state.isTerminal = true -> (s.perform ⟨.abort reason, t⟩).2.state = s.state) ∧
      (s.state.isTerminal = false ->
        (s.perform ⟨.abort reason, t⟩).2.state = .failed reason) ∧
      (s.perform ⟨.abort reason, t⟩).2.IsClean) := by
  intro s r
  have hholds : Holds s r := holds_after (holds_new config) calls
  refine ⟨⟨results_of_holds (holds_new config) calls, hholds⟩, corresponds_of_holds hholds,
    not_misses hholds, ?_, ?_, ?_⟩
  · intro k e hs he
    exact failed_of_error hholds hs he
  · intro hs
    have hr : r.state.isTerminal = true := by
      rw [← hholds.state_eq]
      exact hs
    exact ⟨isClean_of_isTerminal hholds hr, perform_of_isTerminal hholds hs⟩
  · intro reason t
    have hperform : s.perform ⟨.abort reason, t⟩ = (.ok .nothing, s.abort reason) := rfl
    rw [hperform]
    refine ⟨rfl, ?_, ?_, isClean_abort s reason⟩
    · intro hs
      exact state_abort_of_isTerminal hs reason
    · intro hs
      exact state_abort_of_not_isTerminal hs reason

theorem slots_follow_the_state_after_refusal :
    (((new Config.default).after []).perform ⟨.confirm, ⟨[]⟩⟩).2.state =
        .failed .invalidState ∧
      exists text, (((new Config.default).after [⟨.confirm, ⟨[]⟩⟩]).perform
        ⟨.start [], ⟨[]⟩⟩).1 = .error (.invalidState text) := by
  have hnone := slots_follow_the_state Config.default []
  have hone := slots_follow_the_state Config.default [⟨.confirm, ⟨[]⟩⟩]
  constructor
  · exact (hnone.2.2.2.1 ⟨.confirm, ⟨[]⟩⟩ _ rfl rfl).1
  · exact ((hone.2.2.2.2.1 rfl).2 ⟨.start [], ⟨[]⟩⟩).1 (by decide)

end Slots

end Registration
end PaperPairing
