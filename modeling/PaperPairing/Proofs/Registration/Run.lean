import PaperPairing.Registration.Basic

/-!
# Runs of a registration

A run is a row of calls.  Every call brings its own randomness, so a run ranges
over all draws as well as over all arguments.  Each call takes one step between
stages, and a failed one does nothing but give up.
-/

namespace PaperPairing

namespace Tape

def first (t : Tape) : Fixed 16 :=
  (t.draw 16).1

def second (t : Tape) : Fixed 16 :=
  ((t.draw 16).2.draw 16).1

def pair (t : Tape) : Modp2048.KeyPair :=
  .ofBytes ((t.draw 16).2.draw 32).1.bytes

end Tape

namespace Registration

/-- An operation with the randomness at hand when it is called. -/
structure Call where
  operation : Operation
  tape : Tape

namespace Call

def outcome (k : Call) (r : Registration) : Outcome Product :=
  r.perform k.tape k.operation

/-- The step between stages that a call takes, for device secrets of length `n`. -/
def step (n : Nat) (k : Call) (s : Stage) : Except Error (Product × Stage) :=
  match k.operation with
  | .start body =>
      (s.start body k.tape.first k.tape.pair).map (Prod.map Product.request id)
  | .acceptHashResponse body =>
      (s.acceptHashResponse body).map (Prod.map (fun _ => Product.nothing) id)
  | .requestCertificate pin =>
      (s.requestCertificate pin k.tape.first k.tape.second).map
        (Prod.map Product.request id)
  | .acceptCertificate body =>
      (s.acceptCertificate n body).map (Prod.map (fun _ => Product.nothing) id)
  | .requestRegistration clientId identity =>
      (s.requestRegistration clientId identity k.tape.first).map
        (Prod.map Product.request id)
  | .confirm => s.confirm.map (Prod.map (fun _ => Product.nothing) id)
  | .finish => s.finish.map (Prod.map Product.credentials id)
  | .abort reason => .ok (.nothing, s.abort reason)

end Call

def after (r : Registration) : List Call -> Registration
  | [] => r
  | k :: calls => after (k.outcome r).registration calls

def results (r : Registration) : List Call -> List (Except Error Product)
  | [] => []
  | k :: calls => (k.outcome r).result :: results (k.outcome r).registration calls

theorem after_append (r : Registration) (calls more : List Call) :
    after r (calls ++ more) = after (after r calls) more := by
  induction calls generalizing r with
  | nil => rfl
  | cons k calls ih => exact ih (k.outcome r).registration

theorem results_append (r : Registration) (calls more : List Call) :
    results r (calls ++ more) = results r calls ++ results (after r calls) more := by
  induction calls generalizing r with
  | nil => rfl
  | cons k calls ih => exact congrArg (_ :: ·) (ih (k.outcome r).registration)

/-!
## Calls are steps
-/

theorem settle_map {α β : Type} (r : Registration) (f : α -> β)
    (e : Except Error (α × Stage)) :
    r.settle (e.map (Prod.map f id)) =
      ((r.settle e).1.map f, (r.settle e).2) := by
  cases e with
  | ok p => rfl
  | error e => rfl

theorem settle_of_applyDrawing {α : Type} (r : Registration) (before behind : Tape)
    (e : Except Error (α × Stage)) :
    ((r.applyDrawing before behind e).result, (r.applyDrawing before behind e).registration) =
      r.settle e := by
  cases e <;> rfl

theorem outcome_eq_settle (k : Call) (r : Registration) :
    ((k.outcome r).result, (k.outcome r).registration) =
      r.settle (k.step r.secretLength.toNat r.stage) := by
  rcases k with ⟨operation, t⟩
  cases operation with
  | start body => exact (settle_map r Product.request _).symm
  | acceptHashResponse body => exact (settle_map r (fun _ => Product.nothing) _).symm
  | requestCertificate pin =>
      rw [Call.step, settle_map, ← settle_of_applyDrawing r t ((t.draw 16).2.draw 16).2]
      rfl
  | acceptCertificate body => exact (settle_map r (fun _ => Product.nothing) _).symm
  | requestRegistration clientId identity =>
      rw [Call.step, settle_map, ← settle_of_applyDrawing r t (t.draw 16).2]
      rfl
  | confirm => exact (settle_map r (fun _ => Product.nothing) _).symm
  | finish => exact (settle_map r Product.credentials _).symm
  | abort reason => rfl

theorem outcome_of_step_ok {k : Call} {r : Registration} {a : Product} {s : Stage}
    (h : k.step r.secretLength.toNat r.stage = .ok (a, s)) :
    (k.outcome r).result = .ok a ∧ (k.outcome r).registration = { r with stage := s } := by
  have hsettle := outcome_eq_settle k r
  rw [h] at hsettle
  exact Prod.mk.inj hsettle

theorem outcome_of_step_error {k : Call} {r : Registration} {e : Error}
    (h : k.step r.secretLength.toNat r.stage = .error e) :
    (k.outcome r).result = .error e ∧
      (k.outcome r).registration = r.abort (Failure.ofError e) := by
  have hsettle := outcome_eq_settle k r
  rw [h] at hsettle
  exact Prod.mk.inj hsettle

/-- A failed call gives up, and nothing else. -/
theorem registration_of_result_error {k : Call} {r : Registration} {e : Error}
    (h : (k.outcome r).result = .error e) :
    (k.outcome r).registration = r.abort (Failure.ofError e) := by
  cases hstep : k.step r.secretLength.toNat r.stage with
  | ok p =>
      rw [(outcome_of_step_ok hstep).1] at h
      cases h
  | error e' =>
      rcases outcome_of_step_error hstep with ⟨hresult, hregistration⟩
      rw [hresult] at h
      cases h
      exact hregistration

@[simp] theorem secretLength_outcome (k : Call) (r : Registration) :
    (k.outcome r).registration.secretLength = r.secretLength := by
  cases hstep : k.step r.secretLength.toNat r.stage with
  | ok p => rw [(outcome_of_step_ok (a := p.1) (s := p.2) hstep).2]
  | error e =>
      rw [(outcome_of_step_error hstep).2]
      rfl

theorem secretLength_after (r : Registration) (calls : List Call) :
    (after r calls).secretLength = r.secretLength := by
  induction calls generalizing r with
  | nil => rfl
  | cons k calls ih => rw [after, ih, secretLength_outcome]

theorem result_outcome (k : Call) (r : Registration) :
    (k.outcome r).result = (k.step r.secretLength.toNat r.stage).map Prod.fst := by
  cases hstep : k.step r.secretLength.toNat r.stage with
  | ok p => exact (outcome_of_step_ok (a := p.1) (s := p.2) hstep).1
  | error e => exact (outcome_of_step_error hstep).1

end Registration
end PaperPairing
