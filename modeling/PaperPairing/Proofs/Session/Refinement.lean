import PaperPairing.Proofs.Session.Course

/-!
# An attempt is the story of one registration

What an attempt sends, asks for and reports follows from the results of one
registration, which is fed with the replies in the order of the steps.
-/

namespace PaperPairing
namespace Session

def protocol (e : Endpoints) : List Endpoint :=
  [e.pin, e.hash, e.ca, e.register]

def request? : Except Error Registration.Product -> Option Bytes
  | .ok (.request b) => some b
  | _ => none

def requests (config : Config) (made : List Registration.Call) : List Bytes :=
  (Registration.results (Registration.new config) made).filterMap request?

/-- What follows on a success, with the state that it leads to. -/
def shown (e : Endpoints) (s : Registration.State) :
    Registration.Kind -> Registration.Product -> List Event
  | .start, .request b => [.state s, .call (callFor e.hash b)]
  | .acceptHashResponse, _ => [.state s, .pinAsked]
  | .requestCertificate, .request b => [.call (callFor e.ca b)]
  | .acceptCertificate, _ => [.state s, .identityIssued]
  | .requestRegistration, .request b => [.call (callFor e.register b)]
  | .confirm, _ => [.state s]
  | _, _ => []

def consequence (e : Endpoints) (r : Registration) (k : Registration.Call) : List Event :=
  match (k.outcome r).result with
  | .ok a => shown e (k.outcome r).registration.state k.kind a
  | .error _ => []

def story (e : Endpoints) (r : Registration) : List Registration.Call -> List Event
  | [] => []
  | k :: made => consequence e r k ++ story e (k.outcome r).registration made

/-- What happens before anything is heard of the registration. -/
def opening (e : Endpoints) : List Event :=
  [.started, .call (callFor e.cleanup []), .call (callFor e.pin [])]

def isCancelled : Except Error Credentials -> Bool
  | .error .cancelled => true
  | _ => false

def trailing (config : Config) (outcome : Except Error Credentials) : List Call :=
  if config.cleanupAfter || isCancelled outcome then
    [callFor config.endpoints.cleanup []]
  else []

def position : Step -> Nat
  | .cleanup => 1
  | .pinRequest => 2
  | .hashExchange => 3
  | .caRegistration => 4
  | .deviceRegistration => 5

theorem story_append (e : Endpoints) (r : Registration) (made more : List Registration.Call) :
    story e r (made ++ more) = story e r made ++ story e (Registration.after r made) more := by
  induction made generalizing r with
  | nil => rfl
  | cons k made ih =>
      rw [List.cons_append, story, ih, story, List.append_assoc]
      rfl

theorem story_concat (e : Endpoints) (r : Registration) (made : List Registration.Call)
    (k : Registration.Call) :
    story e r (made ++ [k]) = story e r made ++ consequence e (Registration.after r made) k := by
  rw [story_append, story, story, List.append_nil]

theorem requests_concat (config : Config) (made : List Registration.Call)
    (k : Registration.Call) :
    requests config (made ++ [k]) = requests config made ++
      (request? (k.outcome (Registration.after (Registration.new config) made)).result).toList := by
  rw [requests, Registration.results_append, List.filterMap_append]
  cases h : request? (k.outcome (Registration.after (Registration.new config) made)).result <;>
    simp [requests, Registration.results, h]

theorem zipWith_callFor_concat (es : List Endpoint) (bodies : List Bytes) {e : Endpoint}
    (h : es[bodies.length]? = some e) (body : Bytes) :
    List.zipWith callFor es (bodies ++ [body]) =
      List.zipWith callFor es bodies ++ [callFor e body] := by
  induction bodies generalizing es with
  | nil =>
      cases es with
      | nil => cases h
      | cons e' es =>
          cases h
          rw [List.nil_append, List.zipWith_cons_cons, List.zipWith_nil_right,
            List.zipWith_nil_right, List.nil_append]
  | cons b bodies ih =>
      cases es with
      | nil => cases h
      | cons e' es => exact congrArg (_ :: ·) (ih es h)

/-!
## What has happened at a moment
-/

section

variable {env : Environment} {w v : World} {m : Moment} {made : List Registration.Call}
  {o : Registration.Operation} {a : Registration.Product}

@[simp] theorem calls_record (v : World) (event : Event) :
    (v.record event).calls = v.calls ++ event.call?.toList := by
  rw [World.calls, World.record, List.filterMap_append]
  cases event <;> rfl

@[simp] theorem calls_operate (v : World) (o : Registration.Operation) :
    (v.operate o).calls = v.calls :=
  rfl

@[simp] theorem calls_report (v : World) : v.report.calls = v.calls := by
  rw [World.report, calls_record]
  exact List.append_nil _

@[simp] theorem calls_request (v : World) (env : Environment) (s : Step) (body : Bytes) :
    (v.request env s body).calls =
      v.calls ++ [callFor (env.config.endpoints.endpoint s) body] :=
  calls_record v _

theorem after_of_reaches (h : Reaches env w m made v) :
    Registration.after (Registration.new env.config) made = v.registration := by
  induction h with
  | cleanup => rfl
  | cleaned _ _ ih | pin _ ih => exact ih
  | hash _ _ _ ih | committed _ _ _ ih | ca _ _ ih | verified _ _ _ ih | register _ _ _ ih
  | registered _ _ _ ih =>
      rw [Registration.after_append, ih]
      rfl

/-- What follows on the last success but has not happened yet. -/
def Moment.pending (e : Endpoints) : Moment -> List Event
  | .waiting .cleanup | .settled .cleanup => [.call (callFor e.pin [])]
  | .settled .hashExchange => [.pinAsked]
  | .settled .caRegistration => [.identityIssued]
  | _ => []

theorem story_callOf
    (hbefore : Registration.after (Registration.new env.config) made = v.registration)
    (h : v.resultOf o = .ok a) (e : Endpoints) :
    story e (Registration.new env.config) (made ++ [v.callOf o]) =
      story e (Registration.new env.config) made ++
        shown e (v.operate o).registration.state o.kind a := by
  have hresult : ((v.callOf o).outcome v.registration).result = .ok a := h
  rw [story_concat, hbefore, consequence, hresult]
  rfl

theorem events_of_reaches (h : Reaches env w m made v) :
    v.events ++ m.pending env.config.endpoints =
      w.events ++ opening env.config.endpoints ++
        story env.config.endpoints (Registration.new env.config) made := by
  induction h with
  | cleanup =>
      simp [World.request, World.record, World.fresh, Moment.pending, opening, story,
        Endpoints.endpoint]
  | cleaned _ _ ih => exact ih
  | pin _ ih =>
      rw [← ih]
      exact List.append_nil _
  | hash hbefore _ haccepted ih =>
      rw [story_callOf (after_of_reaches hbefore) haccepted, ← List.append_assoc, ← ih]
      simp [World.request, World.report, World.record, World.operate, Moment.pending, shown,
        Endpoints.endpoint, Registration.Operation.kind]
  | committed hbefore _ haccepted ih | verified hbefore _ haccepted ih
  | registered hbefore _ haccepted ih =>
      rw [story_callOf (after_of_reaches hbefore) haccepted, ← List.append_assoc, ← ih]
      simp [World.report, World.record, World.operate, Moment.pending, shown,
        Registration.Operation.kind]
  | ca hbefore hbuilt ih =>
      rw [story_callOf (after_of_reaches hbefore) hbuilt, ← List.append_assoc, ← ih]
      simp [World.request, World.record, World.operate, Moment.pending, shown,
        Endpoints.endpoint, Registration.Operation.kind]
  | @register made v identity _ hbefore _ hbuilt ih =>
      rw [story_callOf (v := v.behindClientId) (after_of_reaches (v := v) hbefore) hbuilt,
        ← List.append_assoc, ← ih]
      simp [World.request, World.record, World.operate, World.behindClientId, Moment.pending,
        shown, Endpoints.endpoint, Registration.Operation.kind]

theorem requests_callOf
    (hbefore : Registration.after (Registration.new env.config) made = v.registration) :
    requests env.config (made ++ [v.callOf o]) =
      requests env.config made ++ (request? (v.resultOf o)).toList := by
  rw [requests_concat, hbefore]
  rfl

theorem requests_of_built {b : Bytes}
    (hbefore : Registration.after (Registration.new env.config) made = v.registration)
    (h : v.resultOf o = .ok (.request b)) :
    requests env.config (made ++ [v.callOf o]) = requests env.config made ++ [b] := by
  rw [requests_callOf hbefore, h]
  rfl

theorem requests_of_nothing
    (hbefore : Registration.after (Registration.new env.config) made = v.registration)
    (h : v.resultOf o = .ok .nothing) :
    requests env.config (made ++ [v.callOf o]) = requests env.config made := by
  rw [requests_callOf hbefore, h]
  exact List.append_nil _

def Moment.step : Moment -> Step
  | .waiting s | .settled s => s

theorem length_requests_of_reaches (h : Reaches env w m made v) :
    (requests env.config made).length = position m.step - 2 := by
  induction h with
  | cleanup => rfl
  | cleaned _ _ ih | pin _ ih => exact ih
  | committed hbefore _ haccepted ih | verified hbefore _ haccepted ih
  | registered hbefore _ haccepted ih =>
      rw [requests_of_nothing (after_of_reaches hbefore) haccepted, ih]
      rfl
  | hash hbefore _ hbuilt ih | ca hbefore hbuilt ih =>
      rw [requests_of_built (after_of_reaches hbefore) hbuilt, List.length_append, ih]
      rfl
  | @register made v _ _ hbefore _ hbuilt ih =>
      rw [requests_of_built (v := v.behindClientId) (after_of_reaches (v := v) hbefore) hbuilt,
        List.length_append, ih]
      rfl

/-- The bodies that were sent after the cleanup, with those that were built. -/
def Moment.bodies (built : List Bytes) : Moment -> List Bytes
  | .waiting .cleanup | .settled .cleanup => []
  | _ => [] :: built

theorem calls_next {built : List Bytes} {e : Endpoint} {body : Bytes}
    (hcalls : v.calls = w.calls ++ callFor env.config.endpoints.cleanup [] ::
      List.zipWith callFor (protocol env.config.endpoints) ([] :: built))
    (he : (protocol env.config.endpoints)[built.length + 1]? = some e) :
    v.calls ++ [callFor e body] = w.calls ++ callFor env.config.endpoints.cleanup [] ::
      List.zipWith callFor (protocol env.config.endpoints) ([] :: (built ++ [body])) := by
  have hlast := zipWith_callFor_concat (protocol env.config.endpoints) ([] :: built) he body
  rw [List.cons_append] at hlast
  rw [hlast, hcalls, List.append_assoc, List.cons_append]

theorem calls_of_reaches (h : Reaches env w m made v) :
    v.calls = w.calls ++ callFor env.config.endpoints.cleanup [] ::
      List.zipWith callFor (protocol env.config.endpoints)
        (m.bodies (requests env.config made)) := by
  induction h with
  | cleanup =>
      rw [calls_request, World.fresh, calls_record, List.append_assoc]
      rfl
  | cleaned _ _ ih => exact ih
  | pin hbefore ih =>
      have hnone : requests env.config _ = [] :=
        List.length_eq_zero_iff.mp (length_requests_of_reaches hbefore)
      rw [calls_request, ih, hnone, List.append_assoc]
      rfl
  | hash hbefore _ hbuilt ih =>
      have hlength := length_requests_of_reaches hbefore
      rw [calls_request, calls_report, calls_operate,
        requests_of_built (after_of_reaches hbefore) hbuilt]
      exact calls_next ih (by rw [hlength]; rfl)
  | committed hbefore _ haccepted ih | verified hbefore _ haccepted ih
  | registered hbefore _ haccepted ih =>
      rw [calls_report, calls_operate,
        requests_of_nothing (after_of_reaches hbefore) haccepted, ih]
      rfl
  | @ca made v request hbefore hbuilt ih =>
      have hlength := length_requests_of_reaches hbefore
      have hasked : (v.record .pinAsked).calls = v.calls := calls_record v .pinAsked |>.trans
        (List.append_nil v.calls)
      rw [calls_request, calls_operate, hasked,
        requests_of_built (after_of_reaches hbefore) hbuilt]
      exact calls_next ih (by rw [hlength]; rfl)
  | @register made v identity request hbefore _ hbuilt ih =>
      have hlength := length_requests_of_reaches hbefore
      have hissued : (v.record .identityIssued).calls = v.calls :=
        calls_record v .identityIssued |>.trans (List.append_nil v.calls)
      rw [calls_request, calls_operate,
        requests_of_built (v := v.behindClientId) (after_of_reaches (v := v) hbefore) hbuilt]
      show (v.record .identityIssued).calls ++ _ = _
      rw [hissued]
      exact calls_next ih (by rw [hlength]; rfl)

theorem length_calls_of_reaches (h : Reaches env w m made v) :
    v.calls.length = w.calls.length + position m.step := by
  have hlength := length_requests_of_reaches h
  rw [calls_of_reaches h, List.length_append, List.length_cons, List.length_zipWith]
  cases m with
  | waiting s | settled s =>
      cases s <;>
        simp [Moment.bodies, Moment.step, position, protocol] at hlength ⊢ <;>
        simp [hlength]

/-!
## What was taken in
-/

end

/-!
## Refinement
-/

section

variable {env : Environment} {w u v : World} {made : List Registration.Call}
  {outcome : Except Error Credentials}

theorem isCancelled_finish (r : Registration) (t : Tape) :
    isCancelled (r.finish t).result = false := by
  rcases r with ⟨n, s⟩
  cases s with
  | deviceRegistered certificate clientId identity =>
      simp only [Registration.finish, Registration.Stage.finish, Identity.privateText]
      cases identity.key.privateInfo? <;> rfl
  | _ => rfl

theorem isCancelled_error (e : Error) : isCancelled (.error e) = decide (e = .cancelled) := by
  cases e <;> rfl

theorem pair_eq (env : Environment) (w : World) :
    pair env w =
      let closed := conclude env (steps env (w.fresh env))
      (closed.1, (closed.2.record (.state closed.2.registration.state)).record
        (closing closed.1)) :=
  rfl

theorem pair_of_ok (h : steps env (w.fresh env) = .ok () u) :
    (pair env w).1 = (u.registration.finish u.tape).result ∧
      (pair env w).2.registration = (u.registration.finish u.tape).registration ∧
      (pair env w).2.events =
        u.events ++ (trailing env.config (u.registration.finish u.tape).result).map .call ++
          [.state (u.registration.finish u.tape).registration.state,
            closing (u.registration.finish u.tape).result] := by
  rw [pair_eq, h, trailing, isCancelled_finish, Bool.or_false]
  cases hcleanup : env.config.cleanupAfter <;>
    simp [conclude, hcleanup, trailingCleanUp_eq, World.request, World.record, Endpoints.endpoint]

theorem pair_of_error {e : Error} (h : steps env (w.fresh env) = .error e u) :
    (pair env w).1 = .error e ∧
      (pair env w).2.registration = u.registration.abort (Failure.ofError e) ∧
      (pair env w).2.events = u.events ++ (trailing env.config (.error e)).map .call ++
        [.state (u.registration.abort (Failure.ofError e)).state, .failed e] := by
  rw [pair_eq, h, trailing, isCancelled_error, Bool.or_comm]
  cases hcleanup : env.config.cleanupAfter <;> by_cases he : e = .cancelled <;>
    simp [conclude, hcleanup, he, trailingCleanUp_eq, World.request, World.record,
      Endpoints.endpoint, closing]

end

end Session
end PaperPairing
