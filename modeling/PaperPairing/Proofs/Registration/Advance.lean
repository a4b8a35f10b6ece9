import PaperPairing.Proofs.Registration.Run

/-!
# What a call can do

A call that succeeds either gives up or goes one stage further.  The stages it
can go to are listed here with everything that was checked on the way, so that
no later argument opens a step again.
-/

namespace PaperPairing

theorem Transcript.verify_bytes_iff {n : Nat} (expected received : Fixed n) :
    verify expected.bytes received.bytes = true ↔ received = expected := by
  rcases expected with ⟨a, ha⟩
  rcases received with ⟨b, hb⟩
  rw [verify, decide_eq_true_iff, Fixed.mk.injEq]
  exact eq_comm

namespace Registration

open Stage

/-- The ways forward for device secrets of length `n`. -/
inductive Advances (n : Nat) : Stage -> Call -> Product -> Stage -> Prop where
  | start {body : Bytes} {t : Tape} {challenge : PinChallenge} {x : Exchange}
      (hread : (Message.ofBody body : Except Error PinChallenge) = .ok challenge)
      (hexchange : exchangeOf challenge t.first t.pair = .ok x) :
      Advances n .init ⟨.start body, t⟩ (.request (Message.toBody (hashRequest x)))
        (.pinRequested x)
  | acceptHashResponse {body : Bytes} {t : Tape} {x : Exchange} {response : HashResponse}
      (hread : (Message.ofBody body : Except Error HashResponse) = .ok response)
      (hnonce : response.nonce2 = x.nonce2)
      (htag : response.m3 = expectedM3 x response.eHash) :
      Advances n (.pinRequested x) ⟨.acceptHashResponse body, t⟩ .nothing
        (.keyExchanged x ⟨response.eHash, response.m3⟩)
  | requestCertificate {pin : String} {t : Tape} {x : Exchange} {c : Commitment} :
      Advances n (.keyExchanged x c) ⟨.requestCertificate pin, t⟩
        (.request (Message.toBody (caRequest x (proofOf x c pin t.first t.second))))
        (.caRequested x c (proofOf x c pin t.first t.second))
  | acceptCertificate {body : Bytes} {t : Tape} {x : Exchange} {c : Commitment}
      {p : ClientProof} {response : CaResponse} {payload : Bytes} {certificate : String}
      (hread : (Message.ofBody body : Except Error CaResponse) = .ok response)
      (hnonce : response.nonce2 = x.nonce2)
      (htag : response.m5 = expectedM5 x p response.wrappedCertificate)
      (hopen : Wrap.unwrap? x.keys response.wrappedCertificate = some payload)
      (hlong : n < payload.length)
      (hpin : c.eHash = expectedEHash x p (payload.take n))
      (hcertificate : Certificate.normalize (payload.drop n) = .ok certificate) :
      Advances n (.caRequested x c p) ⟨.acceptCertificate body, t⟩ .nothing
        (.caVerified x c p ⟨response.wrappedCertificate, response.m5⟩ certificate)
  | requestRegistration {clientId : String} {identity : Identity} {t : Tape} {x : Exchange}
      {c : Commitment} {p : ClientProof} {r : DeviceReply} {certificate : String} :
      Advances n (.caVerified x c p r certificate) ⟨.requestRegistration clientId identity, t⟩
        (.request (Message.toBody (registrationRequest x r clientId identity t.first)))
        (.registrationRequested x c p r certificate clientId identity)
  | confirm {t : Tape} {x : Exchange} {c : Commitment} {p : ClientProof} {r : DeviceReply}
      {certificate clientId : String} {identity : Identity} :
      Advances n (.registrationRequested x c p r certificate clientId identity)
        ⟨.confirm, t⟩ .nothing (.deviceRegistered certificate clientId identity)
  | finish {t : Tape} {certificate clientId key : String} {identity : Identity}
      (hkey : identity.privateText = .ok key) :
      Advances n (.deviceRegistered certificate clientId identity) ⟨.finish, t⟩
        (.credentials ⟨certificate, key, clientId⟩) .done

/-!
## Successful calls advance
-/

theorem not_refuse_eq_ok {α : Type} {m : Misuse} {s : Stage} {a : α} :
    (refuse m s : Except Error α) ≠ .ok a := by
  intro h
  cases h

theorem map_eq_ok {α β : Type} {f : α -> β} {e : Except Error (α × Stage)} {b : β}
    {s : Stage} (h : e.map (Prod.map f id) = .ok (b, s)) :
    exists a, e = .ok (a, s) ∧ b = f a := by
  cases e with
  | error e => cases h
  | ok p =>
      rcases p with ⟨a, s'⟩
      cases h
      exact ⟨a, rfl, rfl⟩

theorem bind_eq_ok {α β : Type} {e : Except Error α} {f : α -> Except Error β} {b : β}
    (h : (e >>= f) = .ok b) : exists a, e = .ok a ∧ f a = .ok b := by
  cases e with
  | error e => cases h
  | ok a => exact ⟨a, rfl, h⟩

theorem advances_of_start {n : Nat} {body request : Bytes} {t : Tape} {s s' : Stage}
    (h : s.start body t.first t.pair = .ok (request, s')) :
    Advances n s ⟨.start body, t⟩ (.request request) s' := by
  cases s with
  | init =>
      rcases bind_eq_ok h with ⟨challenge, hread, hrest⟩
      rcases bind_eq_ok hrest with ⟨x, hexchange, hend⟩
      cases hend
      exact .start hread hexchange
  | _ => exact (not_refuse_eq_ok h).elim

theorem advances_of_acceptHashResponse {n : Nat} {body : Bytes} {t : Tape} {s s' : Stage}
    (h : s.acceptHashResponse body = .ok ((), s')) :
    Advances n s ⟨.acceptHashResponse body, t⟩ .nothing s' := by
  cases s with
  | pinRequested x =>
      rcases bind_eq_ok h with ⟨response, hread, hrest⟩
      by_cases hnonce : response.nonce2 = x.nonce2
      · rw [if_neg (not_not_intro hnonce)] at hrest
        cases htag : Transcript.verify (expectedM3 x response.eHash).bytes
            response.m3.bytes with
        | false =>
            rw [htag] at hrest
            cases hrest
        | true =>
            rw [htag] at hrest
            cases hrest
            exact .acceptHashResponse hread hnonce
              ((Transcript.verify_bytes_iff _ _).mp htag)
      · rw [if_pos hnonce] at hrest
        cases hrest
  | _ => exact (not_refuse_eq_ok h).elim

theorem advances_of_requestCertificate {n : Nat} {pin : String} {request : Bytes} {t : Tape}
    {s s' : Stage}
    (h : s.requestCertificate pin t.first t.second = .ok (request, s')) :
    Advances n s ⟨.requestCertificate pin, t⟩ (.request request) s' := by
  cases s with
  | keyExchanged x c =>
      cases h
      exact .requestCertificate
  | _ => exact (not_refuse_eq_ok h).elim

theorem advances_of_acceptCertificate {n : Nat} {body : Bytes} {t : Tape} {s s' : Stage}
    (h : s.acceptCertificate n body = .ok ((), s')) :
    Advances n s ⟨.acceptCertificate body, t⟩ .nothing s' := by
  cases s with
  | caRequested x c p =>
      rcases bind_eq_ok h with ⟨response, hread, hrest⟩
      -- The checks come in the order of the step; each failure is an error.
      split at hrest
      · cases hrest
      next hnonce =>
      split at hrest
      · cases hrest
      next htag =>
      split at hrest
      · cases hrest
      next payload hopen =>
      split at hrest
      · cases hrest
      next hlong =>
      split at hrest
      · cases hrest
      next hpin =>
      split at hrest
      · cases hrest
      next certificate hcertificate =>
      cases hrest
      have hm5 := (Transcript.verify_bytes_iff _ _).mp (by simpa using htag)
      have heHash := (Transcript.verify_bytes_iff _ _).mp (by simpa using hpin)
      exact .acceptCertificate hread (Decidable.not_not.mp hnonce) hm5 hopen
        (Nat.lt_of_not_le hlong) heHash hcertificate
  | _ => exact (not_refuse_eq_ok h).elim

theorem advances_of_requestRegistration {n : Nat} {clientId : String} {identity : Identity}
    {request : Bytes} {t : Tape} {s s' : Stage}
    (h : s.requestRegistration clientId identity t.first = .ok (request, s')) :
    Advances n s ⟨.requestRegistration clientId identity, t⟩ (.request request) s' := by
  cases s with
  | caVerified x c p r certificate =>
      cases h
      exact .requestRegistration
  | _ => exact (not_refuse_eq_ok h).elim

theorem advances_of_confirm {n : Nat} {t : Tape} {s s' : Stage}
    (h : s.confirm = .ok ((), s')) : Advances n s ⟨.confirm, t⟩ .nothing s' := by
  cases s with
  | registrationRequested x c p r certificate clientId identity =>
      cases h
      exact .confirm
  | _ => exact (not_refuse_eq_ok h).elim

theorem advances_of_finish {n : Nat} {t : Tape} {c : Credentials} {s s' : Stage}
    (h : s.finish = .ok (c, s')) : Advances n s ⟨.finish, t⟩ (.credentials c) s' := by
  cases s with
  | deviceRegistered certificate clientId identity =>
      rcases bind_eq_ok h with ⟨key, hkey, hend⟩
      cases hend
      exact .finish hkey
  | _ => exact (not_refuse_eq_ok h).elim

theorem abort_or_advances {n : Nat} {k : Call} {s s' : Stage} {a : Product}
    (h : k.step n s = .ok (a, s')) :
    (exists reason, k.operation = .abort reason ∧ a = .nothing ∧ s' = s.abort reason) ∨
      Advances n s k a s' := by
  rcases k with ⟨operation, t⟩
  cases operation with
  | start body =>
      rcases map_eq_ok h with ⟨request, hstep, rfl⟩
      exact .inr (advances_of_start hstep)
  | acceptHashResponse body =>
      rcases map_eq_ok h with ⟨u, hstep, rfl⟩
      exact .inr (advances_of_acceptHashResponse hstep)
  | requestCertificate pin =>
      rcases map_eq_ok h with ⟨request, hstep, rfl⟩
      exact .inr (advances_of_requestCertificate hstep)
  | acceptCertificate body =>
      rcases map_eq_ok h with ⟨u, hstep, rfl⟩
      exact .inr (advances_of_acceptCertificate hstep)
  | requestRegistration clientId identity =>
      rcases map_eq_ok h with ⟨request, hstep, rfl⟩
      exact .inr (advances_of_requestRegistration hstep)
  | confirm =>
      rcases map_eq_ok h with ⟨u, hstep, rfl⟩
      exact .inr (advances_of_confirm hstep)
  | finish =>
      rcases map_eq_ok h with ⟨c, hstep, rfl⟩
      exact .inr (advances_of_finish hstep)
  | abort reason =>
      cases h
      exact .inl ⟨reason, rfl, rfl, rfl⟩

/-!
## Whatever advances succeeds
-/

theorem step_of_advances {n : Nat} {k : Call} {s s' : Stage} {a : Product}
    (h : Advances n s k a s') : k.step n s = .ok (a, s') := by
  cases h with
  | start hread hexchange =>
      simp only [Call.step, Stage.start, hread, hexchange, bind, Except.bind]
      rfl
  | acceptHashResponse hread hnonce htag =>
      simp only [Call.step, Stage.acceptHashResponse, hread, bind, Except.bind, hnonce, htag]
      simp [Transcript.verify, Except.map]
  | requestCertificate => rfl
  | acceptCertificate hread hnonce htag hopen hlong hpin hcertificate =>
      simp only [Call.step, Stage.acceptCertificate, hread, bind, Except.bind, hnonce, htag,
        hopen, Nat.not_le_of_lt hlong, hpin, hcertificate]
      simp [Transcript.verify, Except.map]
  | requestRegistration => rfl
  | confirm => rfl
  | finish hkey =>
      simp only [Call.step, Stage.finish, hkey, bind, Except.bind]
      rfl

theorem outcome_of_advances {k : Call} {r : Registration} {a : Product} {s : Stage}
    (h : Advances r.secretLength.toNat r.stage k a s) :
    (k.outcome r).result = .ok a ∧ (k.outcome r).registration = { r with stage := s } :=
  outcome_of_step_ok (step_of_advances h)

/-- Every call advances, gives up or fails. -/
theorem outcome_cases (k : Call) (r : Registration) :
    (exists a s, Advances r.secretLength.toNat r.stage k a s ∧
      (k.outcome r).result = .ok a ∧ (k.outcome r).registration = { r with stage := s }) ∨
    (exists reason, k.operation = .abort reason ∧ (k.outcome r).result = .ok .nothing ∧
      (k.outcome r).registration = r.abort reason) ∨
    (exists e, (k.outcome r).result = .error e ∧
      (k.outcome r).registration = r.abort (Failure.ofError e)) := by
  cases hstep : k.step r.secretLength.toNat r.stage with
  | error e => exact .inr (.inr ⟨e, outcome_of_step_error hstep⟩)
  | ok p =>
      rcases p with ⟨a, s⟩
      have hout := outcome_of_step_ok hstep
      rcases abort_or_advances hstep with ⟨reason, hoperation, rfl, rfl⟩ | hadvance
      · exact .inr (.inl ⟨reason, hoperation, hout⟩)
      · exact .inl ⟨a, s, hadvance, hout⟩

inductive Marches (n : Nat) : Stage -> List Call -> List Product -> Stage -> Prop where
  | nil {s : Stage} : Marches n s [] [] s
  | cons {s s' s'' : Stage} {k : Call} {calls : List Call} {a : Product}
      {products : List Product} (head : Advances n s k a s')
      (tail : Marches n s' calls products s'') :
      Marches n s (k :: calls) (a :: products) s''

theorem Marches.append {n : Nat} {s s' s'' : Stage} {calls more : List Call}
    {products later : List Product} (h : Marches n s calls products s')
    (hmore : Marches n s' more later s'') :
    Marches n s (calls ++ more) (products ++ later) s'' := by
  induction h with
  | nil => exact hmore
  | cons head _ ih => exact .cons head (ih hmore)

theorem run_of_marches {n : Nat} {s s' : Stage} {calls : List Call}
    {products : List Product} (h : Marches n s calls products s') {r : Registration}
    (hn : r.secretLength.toNat = n) (hs : r.stage = s) :
    results r calls = products.map .ok ∧ after r calls = { r with stage := s' } := by
  induction h generalizing r with
  | nil =>
      constructor
      · rfl
      · rw [← hs]
        rfl
  | @cons _ next _ _ _ _ _ head _ ih =>
      rw [← hn, ← hs] at head
      rcases outcome_of_advances head with ⟨hresult, hnext⟩
      have hrest := ih (r := { r with stage := next }) hn rfl
      rw [results, after, hresult, hnext, hrest.1, hrest.2]
      exact ⟨rfl, rfl⟩

/-!
## Terminal stages
-/

theorem not_advances_of_isTerminal {n : Nat} {k : Call} {s s' : Stage} {a : Product}
    (hs : s.state.isTerminal = true) : ¬ Advances n s k a s' := by
  intro h
  cases h <;> cases hs

theorem abort_of_isTerminal {s : Stage} (hs : s.state.isTerminal = true)
    (reason : Failure) : s.abort reason = s := by
  rw [Stage.abort, if_pos hs]

theorem isTerminal_abort (s : Stage) (reason : Failure) :
    (s.abort reason).state.isTerminal = true := by
  rw [Stage.abort]
  split
  next h => exact h
  · rfl

theorem isTerminal_stage_abort (r : Registration) (reason : Failure) :
    (r.abort reason).stage.state.isTerminal = true :=
  isTerminal_abort r.stage reason

theorem advances_or_isTerminal (k : Call) (r : Registration) :
    (exists a s, Advances r.secretLength.toNat r.stage k a s ∧
      (k.outcome r).registration = { r with stage := s }) ∨
    (k.outcome r).registration.stage.state.isTerminal = true := by
  rcases outcome_cases k r with ⟨a, s, hadvance, -, hnext⟩ | ⟨reason, -, -, hend⟩ |
    ⟨e, -, hend⟩
  · exact .inl ⟨a, s, hadvance, hnext⟩
  · rw [hend]
    exact .inr (isTerminal_stage_abort r reason)
  · rw [hend]
    exact .inr (isTerminal_stage_abort r (Failure.ofError e))

theorem outcome_of_isTerminal {k : Call} {r : Registration}
    (hr : r.stage.state.isTerminal = true) : (k.outcome r).registration = r := by
  rcases outcome_cases k r with ⟨a, s, hadvance, -, -⟩ | ⟨reason, -, -, h⟩ | ⟨e, -, h⟩
  · exact (not_advances_of_isTerminal hr hadvance).elim
  · rw [h, abort, abort_of_isTerminal hr]
  · rw [h, abort, abort_of_isTerminal hr]

theorem after_of_isTerminal {r : Registration} (hr : r.stage.state.isTerminal = true)
    (calls : List Call) : after r calls = r := by
  induction calls with
  | nil => rfl
  | cons k calls ih => rw [after, outcome_of_isTerminal hr, ih]

theorem advances_of_state {k : Call} {calls : List Call} {r : Registration} {s : State}
    (hs : s.isTerminal = false) (h : (after r (k :: calls)).state = s) :
    exists a next, Advances r.secretLength.toNat r.stage k a next ∧
      (after { r with stage := next } calls).state = s := by
  rcases advances_or_isTerminal k r with ⟨a, next, hadvance, hnext⟩ | hterminal
  · rw [after, hnext] at h
    exact ⟨a, next, hadvance, h⟩
  · rw [after, after_of_isTerminal hterminal] at h
    rw [← state, h, hs] at hterminal
    cases hterminal

end Registration
end PaperPairing
