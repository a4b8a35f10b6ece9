import PaperPairing.Proofs.Registration.Order
import PaperPairing.Session.Basic

/-!
# The course of an attempt

An attempt waits for one reply after the other.  What it reaches and why it halts
is listed here with everything that was heard and accepted on the way, so that no
later argument opens an attempt again.
-/

namespace PaperPairing

def Endpoints.endpoint (e : Endpoints) : Step -> Endpoint
  | .cleanup => e.cleanup
  | .pinRequest => e.pin
  | .hashExchange => e.hash
  | .caRegistration => e.ca
  | .deviceRegistration => e.register

namespace Session

namespace World

def resultOf (w : World) (o : Registration.Operation) : Except Error Registration.Product :=
  (w.registration.perform w.tape o).result

def operate (w : World) (o : Registration.Operation) : World :=
  let outcome := w.registration.perform w.tape o
  { w with registration := outcome.registration, tape := outcome.tape }

def callOf (w : World) (o : Registration.Operation) : Registration.Call :=
  ⟨o, w.tape⟩

def report (w : World) : World :=
  w.record (.state w.registration.state)

def request (w : World) (env : Environment) (s : Step) (body : Bytes) : World :=
  w.record (.call (callFor (env.config.endpoints.endpoint s) body))

def clientId (w : World) : String :=
  ClientId.ofRandom (w.tape.draw 16).1

def behindClientId (w : World) : World :=
  { w with tape := (w.tape.draw 16).2 }

def fresh (w : World) (env : Environment) : World :=
  { w with registration := Registration.new env.config }.record .started

end World

/-- The operation that takes in the reply of a step; the replies of the first and
the last step are not looked at. -/
def intake : Step -> Bytes -> Option Registration.Operation
  | .pinRequest, b => some (.start b)
  | .hashExchange, b => some (.acceptHashResponse b)
  | .caRegistration, b => some (.acceptCertificate b)
  | .cleanup, _ | .deviceRegistration, _ => none

inductive Moment where
  /-- The call of a step is pending. -/
  | waiting (s : Step)
  /-- The reply of a step has been taken in. -/
  | settled (s : Step)

/-- The moments an attempt comes to, with the calls made on its registration and
the world by then. -/
inductive Reaches (env : Environment) (w : World) :
    Moment -> List Registration.Call -> World -> Prop where
  | cleanup :
      Reaches env w (.waiting .cleanup) [] ((w.fresh env).request env .cleanup [])
  | cleaned {made : List Registration.Call} {v : World}
      (hbefore : Reaches env w (.waiting .cleanup) made v)
      (hreply : env.transport v.calls ≠ .silence) :
      Reaches env w (.settled .cleanup) made v
  | pin {made : List Registration.Call} {v : World}
      (hbefore : Reaches env w (.settled .cleanup) made v) :
      Reaches env w (.waiting .pinRequest) made (v.request env .pinRequest [])
  | hash {made : List Registration.Call} {v : World} {b request : Bytes}
      (hbefore : Reaches env w (.waiting .pinRequest) made v)
      (hreply : env.transport v.calls = .body b)
      (haccepted : v.resultOf (.start b) = .ok (.request request)) :
      Reaches env w (.waiting .hashExchange) (made ++ [v.callOf (.start b)])
        ((v.operate (.start b)).report.request env .hashExchange request)
  | committed {made : List Registration.Call} {v : World} {b : Bytes}
      (hbefore : Reaches env w (.waiting .hashExchange) made v)
      (hreply : env.transport v.calls = .body b)
      (haccepted : v.resultOf (.acceptHashResponse b) = .ok .nothing) :
      Reaches env w (.settled .hashExchange) (made ++ [v.callOf (.acceptHashResponse b)])
        (v.operate (.acceptHashResponse b)).report
  | ca {made : List Registration.Call} {v : World} {request : Bytes}
      (hbefore : Reaches env w (.settled .hashExchange) made v)
      (hbuilt : v.resultOf (.requestCertificate env.pin) = .ok (.request request)) :
      Reaches env w (.waiting .caRegistration)
        (made ++ [v.callOf (.requestCertificate env.pin)])
        (((v.record .pinAsked).operate (.requestCertificate env.pin)).request env
          .caRegistration request)
  | verified {made : List Registration.Call} {v : World} {b : Bytes}
      (hbefore : Reaches env w (.waiting .caRegistration) made v)
      (hreply : env.transport v.calls = .body b)
      (haccepted : v.resultOf (.acceptCertificate b) = .ok .nothing) :
      Reaches env w (.settled .caRegistration) (made ++ [v.callOf (.acceptCertificate b)])
        (v.operate (.acceptCertificate b)).report
  | register {made : List Registration.Call} {v : World} {identity : Identity}
      {request : Bytes} (hbefore : Reaches env w (.settled .caRegistration) made v)
      (hissued : env.issued = .ok identity)
      (hbuilt : v.behindClientId.resultOf (.requestRegistration v.clientId identity) =
        .ok (.request request)) :
      Reaches env w (.waiting .deviceRegistration)
        (made ++ [v.behindClientId.callOf (.requestRegistration v.clientId identity)])
        (((v.record .identityIssued).behindClientId.operate
          (.requestRegistration v.clientId identity)).request env .deviceRegistration request)
  | registered {made : List Registration.Call} {v : World} {b : Bytes}
      (hbefore : Reaches env w (.waiting .deviceRegistration) made v)
      (hreply : env.transport v.calls = .body b)
      (hconfirmed : v.resultOf .confirm = .ok .nothing) :
      Reaches env w (.settled .deviceRegistration) (made ++ [v.callOf .confirm])
        (v.operate .confirm).report

/-- The ways in which an attempt comes to an error. -/
inductive Halts (env : Environment) (w : World) :
    List Registration.Call -> Error -> World -> Prop where
  | unsent (hinterrupted : env.interrupted = true) : Halts env w [] .cancelled (w.fresh env)
  | interrupted {s : Step} {made : List Registration.Call} {v : World}
      (hbefore : Reaches env w (.waiting s) made v)
      (hreply : env.transport v.calls = .silence) : Halts env w made .cancelled v
  /-- What the device says to the first step does not matter. -/
  | unanswered {s : Step} {made : List Registration.Call} {v : World} {e : Error}
      (hbefore : Reaches env w (.waiting s) made v) (hs : s ≠ .cleanup)
      (hreply : env.transport v.calls = .failure e) : Halts env w made e v
  | rejected {s : Step} {made : List Registration.Call} {v : World} {b : Bytes} {e : Error}
      {o : Registration.Operation} (hbefore : Reaches env w (.waiting s) made v)
      (hreply : env.transport v.calls = .body b) (ho : intake s b = some o)
      (hrejected : v.resultOf o = .error e) :
      Halts env w (made ++ [v.callOf o]) e (v.operate o)
  | notIssued {made : List Registration.Call} {v : World} {e : Error}
      (hbefore : Reaches env w (.settled .caRegistration) made v)
      (hissued : env.issued = .error e) : Halts env w made e (v.record .identityIssued)

/-!
## Single actions
-/

theorem bind_of_ok {α β : Type} {a : Action α} {v u : World} {x : α}
    (h : a v = .ok x u) (f : α -> Action β) : (a >>= f) v = f x u := by
  simp only [bind, EStateM.bind, h]

theorem bind_of_error {α β : Type} {a : Action α} {v u : World} {e : Error}
    (h : a v = .error e u) (f : α -> Action β) : (a >>= f) v = .error e u := by
  simp only [bind, EStateM.bind, h]

theorem send_cases (env : Environment) (s : Step) (body : Bytes) (v : World) :
    let next := v.request env s body
    (exists b, env.transport next.calls = .body b ∧
      send env (env.config.endpoints.endpoint s) body v = .ok b next) ∨
    (exists e, env.transport next.calls = .failure e ∧
      send env (env.config.endpoints.endpoint s) body v = .error e next) ∨
    (env.transport next.calls = .silence ∧
      send env (env.config.endpoints.endpoint s) body v = .error .cancelled next) := by
  intro next
  have hask : ask env (env.config.endpoints.endpoint s) body v =
      .ok (env.transport next.calls) next :=
    rfl
  cases hanswer : env.transport next.calls with
  | body b =>
      rw [hanswer] at hask
      exact .inl ⟨b, rfl, bind_of_ok hask _⟩
  | failure e =>
      rw [hanswer] at hask
      exact .inr (.inl ⟨e, rfl, bind_of_ok hask _⟩)
  | silence =>
      rw [hanswer] at hask
      exact .inr (.inr ⟨rfl, bind_of_ok hask _⟩)

/-- The answer to the last reset leaves no trace. -/
theorem trailingCleanUp_eq (env : Environment) (v : World) :
    trailingCleanUp env v = v.request env .cleanup [] := by
  have hask : ask env env.config.endpoints.cleanup [] v =
      .ok (env.transport (v.request env .cleanup []).calls) (v.request env .cleanup []) :=
    rfl
  rw [trailingCleanUp, cleanUp, bind_of_ok hask]
  cases env.transport (v.request env .cleanup []).calls <;> rfl

theorem run_cases {α : Type} {f : Registration -> Tape -> Registration.Outcome α}
    {g : α -> Registration.Product} {o : Registration.Operation} (v : World)
    (h : forall r t, r.perform t o = (f r t).map g) :
    (exists a, v.resultOf o = .ok (g a) ∧ Action.run f v = .ok a (v.operate o)) ∨
    (exists e, v.resultOf o = .error e ∧ Action.run f v = .error e (v.operate o)) := by
  simp only [World.resultOf, World.operate, h, Registration.Outcome.map, Action.run]
  cases (f v.registration v.tape).result with
  | ok a => exact .inl ⟨a, rfl, rfl⟩
  | error e => exact .inr ⟨e, rfl, rfl⟩

/-!
## The registration behind an attempt
-/

section

variable {env : Environment} {w v : World} {m : Moment} {made : List Registration.Call}
  {o : Registration.Operation} {a : Registration.Product}

theorem advances_of_resultOf (h : v.resultOf o = .ok a) (ho : o.kind ≠ .abort) :
    exists s, Registration.Advances v.registration.secretLength.toNat v.registration.stage
      (v.callOf o) a s ∧ (v.operate o).registration = { v.registration with stage := s } := by
  rcases Registration.outcome_cases (v.callOf o) v.registration with
    ⟨b, s, hadvance, hresult, hnext⟩ | ⟨reason, habort, -, -⟩ | ⟨e, hresult, -⟩
  · have hab : (Except.ok b : Except Error Registration.Product) = .ok a :=
      hresult.symm.trans h
    cases hab
    exact ⟨s, hadvance, hnext⟩
  · exact (ho (Registration.kind_eq_abort habort)).elim
  · have hea : (Except.error e : Except Error Registration.Product) = .ok a :=
      hresult.symm.trans h
    cases hea

theorem resultOf_of_advances {s : Registration.Stage}
    (h : Registration.Advances v.registration.secretLength.toNat v.registration.stage
      (v.callOf o) a s) : v.resultOf o = .ok a :=
  (Registration.outcome_of_advances h).1

/-- The calls made march from a new registration to the one at hand. -/
def Tracks (env : Environment) (made : List Registration.Call) (v : World) : Prop :=
  v.registration.secretLength = env.config.secretLength ∧ exists products,
    Registration.Marches env.config.secretLength.toNat .init made products
      v.registration.stage

theorem tracks_operate (hv : Tracks env made v) (h : v.resultOf o = .ok a)
    (ho : o.kind ≠ .abort) : Tracks env (made ++ [v.callOf o]) (v.operate o) := by
  rcases hv with ⟨hn, products, hmarch⟩
  rcases advances_of_resultOf h ho with ⟨s, hadvance, hnext⟩
  rw [hn] at hadvance
  rw [Tracks, hnext]
  exact ⟨hn, _, hmarch.append (.cons hadvance .nil)⟩

theorem tracks_of_reaches (h : Reaches env w m made v) : Tracks env made v := by
  induction h with
  | cleanup => exact ⟨rfl, [], .nil⟩
  | cleaned _ _ ih | pin _ ih => exact ih
  | hash _ _ haccepted ih | committed _ _ haccepted ih | verified _ _ haccepted ih =>
      exact tracks_operate ih haccepted Registration.Kind.noConfusion
  | ca _ hbuilt ih => exact tracks_operate ih hbuilt Registration.Kind.noConfusion
  | register _ _ hbuilt ih => exact tracks_operate ih hbuilt Registration.Kind.noConfusion
  | registered _ _ hconfirmed ih =>
      exact tracks_operate ih hconfirmed Registration.Kind.noConfusion

def Moment.count : Moment -> Nat
  | .waiting .cleanup | .settled .cleanup | .waiting .pinRequest | .settled .pinRequest => 0
  | .waiting .hashExchange => 1
  | .settled .hashExchange => 2
  | .waiting .caRegistration => 3
  | .settled .caRegistration => 4
  | .waiting .deviceRegistration => 5
  | .settled .deviceRegistration => 6

theorem kinds_of_reaches (h : Reaches env w m made v) :
    made.map Registration.Call.kind = Registration.order.take m.count := by
  induction h with
  | cleanup => rfl
  | cleaned _ _ ih | pin _ ih => exact ih
  | hash _ _ _ ih | committed _ _ _ ih | ca _ _ ih | verified _ _ _ ih | register _ _ _ ih
  | registered _ _ _ ih =>
      rw [List.map_append, ih]
      rfl

theorem remaining_of_reaches (h : Reaches env w m made v) :
    v.registration.stage.remaining = Registration.order.drop m.count := by
  rcases tracks_of_reaches h with ⟨-, products, hmarch⟩
  have horder := Registration.remaining_of_marches hmarch
  rw [kinds_of_reaches h] at horder
  exact List.append_cancel_left
    (horder.symm.trans (List.take_append_drop m.count Registration.order).symm)

theorem requestCertificate_of_reaches (h : Reaches env w (.settled .hashExchange) made v)
    (pin : String) :
    exists request, v.resultOf (.requestCertificate pin) = .ok (.request request) := by
  have hremaining := remaining_of_reaches h
  cases hstage : v.registration.stage with
  | keyExchanged x c =>
      have hadvance : Registration.Advances v.registration.secretLength.toNat
          (.keyExchanged x c) (v.callOf (.requestCertificate pin)) _ _ := .requestCertificate
      rw [← hstage] at hadvance
      exact ⟨_, resultOf_of_advances hadvance⟩
  | _ =>
      rw [hstage] at hremaining
      cases hremaining

theorem requestRegistration_of_reaches
    (h : Reaches env w (.settled .caRegistration) made v) (identity : Identity) :
    exists request, v.behindClientId.resultOf (.requestRegistration v.clientId identity) =
      .ok (.request request) := by
  have hremaining := remaining_of_reaches h
  cases hstage : v.registration.stage with
  | caVerified x c p r certificate =>
      have hadvance : Registration.Advances v.behindClientId.registration.secretLength.toNat
          (.caVerified x c p r certificate)
          (v.behindClientId.callOf (.requestRegistration v.clientId identity)) _ _ :=
        .requestRegistration
      rw [← hstage] at hadvance
      exact ⟨_, resultOf_of_advances hadvance⟩
  | _ =>
      rw [hstage] at hremaining
      cases hremaining

theorem confirm_of_reaches (h : Reaches env w (.waiting .deviceRegistration) made v) :
    v.resultOf .confirm = .ok .nothing := by
  have hremaining := remaining_of_reaches h
  cases hstage : v.registration.stage with
  | registrationRequested x c p r certificate clientId identity =>
      have hadvance : Registration.Advances v.registration.secretLength.toNat
          (.registrationRequested x c p r certificate clientId identity)
          (v.callOf .confirm) _ _ := .confirm
      rw [← hstage] at hadvance
      exact resultOf_of_advances hadvance
  | _ =>
      rw [hstage] at hremaining
      cases hremaining

end

/-!
## Where the parts of an attempt lead
-/

section

variable {env : Environment} {w v : World} {made : List Registration.Call}

/-- A part of an attempt ends as described, or the attempt halts in it. -/
def Ends {α : Type} (env : Environment) (w : World) (p : α -> World -> Prop) :
    EStateM.Result Error World α -> Prop
  | .ok a v => p a v
  | .error e v => exists made, Halts env w made e v

theorem ends_bind {α β : Type} {a : Action α} {f : α -> Action β}
    {p : α -> World -> Prop} {q : β -> World -> Prop} (ha : Ends env w p (a v))
    (hf : forall x u, p x u -> Ends env w q (f x u)) : Ends env w q ((a >>= f) v) := by
  cases h : a v with
  | ok x u =>
      rw [h] at ha
      rw [bind_of_ok h]
      exact hf x u ha
  | error e u =>
      rw [h] at ha
      rw [bind_of_error h]
      exact ha

theorem ends_send {s : Step} {body : Bytes} (hs : s ≠ .cleanup)
    (h : Reaches env w (.waiting s) made (v.request env s body)) :
    Ends env w (fun b u => u = v.request env s body ∧ env.transport u.calls = .body b)
      (send env (env.config.endpoints.endpoint s) body v) := by
  rcases send_cases env s body v with ⟨b, hreply, hsend⟩ | ⟨e, hreply, hsend⟩ |
    ⟨hreply, hsend⟩
  · rw [hsend]
    exact ⟨rfl, hreply⟩
  · rw [hsend]
    exact ⟨made, .unanswered h hs hreply⟩
  · rw [hsend]
    exact ⟨made, .interrupted h hreply⟩

theorem ends_run {α : Type} {f : Registration -> Tape -> Registration.Outcome α}
    {g : α -> Registration.Product} {o : Registration.Operation} {s : Step} {b : Bytes}
    (h : Reaches env w (.waiting s) made v) (hreply : env.transport v.calls = .body b)
    (ho : intake s b = some o) (hf : forall r t, r.perform t o = (f r t).map g) :
    Ends env w (fun a u => u = v.operate o ∧ v.resultOf o = .ok (g a)) (Action.run f v) := by
  rcases run_cases v hf with ⟨a, hresult, hrun⟩ | ⟨e, hresult, hrun⟩
  · rw [hrun]
    exact ⟨rfl, hresult⟩
  · rw [hrun]
    exact ⟨_, .rejected h hreply ho hresult⟩

theorem ends_run_of_ok {α : Type} {f : Registration -> Tape -> Registration.Outcome α}
    {g : α -> Registration.Product} {o : Registration.Operation} {a : Registration.Product}
    (h : v.resultOf o = .ok a) (hf : forall r t, r.perform t o = (f r t).map g) :
    Ends env w (fun x u => u = v.operate o ∧ v.resultOf o = .ok (g x)) (Action.run f v) := by
  rcases run_cases v hf with ⟨x, hresult, hrun⟩ | ⟨e, hresult, hrun⟩
  · rw [hrun]
    exact ⟨rfl, hresult⟩
  · rw [h] at hresult
    cases hresult

theorem ends_cleanUp (env : Environment) (w : World) :
    Ends env w (fun _ u => exists made, Reaches env w (.settled .cleanup) made u)
      (cleanUp env (w.fresh env)) := by
  have hcleanup : Reaches env w (.waiting .cleanup) [] _ := .cleanup
  refine ends_bind (p := fun answer u => Reaches env w (.waiting .cleanup) [] u ∧
    answer = env.transport u.calls) ⟨hcleanup, rfl⟩ ?_
  rintro answer u ⟨hbefore, rfl⟩
  cases hreply : env.transport u.calls with
  | silence => exact ⟨[], .interrupted hbefore hreply⟩
  | body b => exact ⟨[], .cleaned hbefore (by rw [hreply]; exact Answer.noConfusion)⟩
  | failure e => exact ⟨[], .cleaned hbefore (by rw [hreply]; exact Answer.noConfusion)⟩

theorem ends_exchangeKeys (h : Reaches env w (.settled .cleanup) made v) :
    Ends env w (fun _ u => exists made, Reaches env w (.settled .hashExchange) made u)
      (exchangeKeys env v) := by
  have hpin := Reaches.pin h
  refine ends_bind (ends_send Step.noConfusion hpin) ?_
  rintro challenge u ⟨rfl, hreply⟩
  refine ends_bind (ends_run (o := .start challenge) hpin hreply rfl fun _ _ => rfl) ?_
  rintro request u ⟨rfl, haccepted⟩
  refine ends_bind (a := Action.reportState) (p := fun _ u => u = World.report _) rfl ?_
  rintro _ u rfl
  have hhash := Reaches.hash hpin hreply haccepted
  refine ends_bind (ends_send Step.noConfusion hhash) ?_
  rintro response u ⟨rfl, hreply⟩
  refine ends_bind
    (ends_run (o := .acceptHashResponse response) hhash hreply rfl fun _ _ => rfl) ?_
  rintro _ u ⟨rfl, haccepted⟩
  exact ⟨_, .committed hhash hreply haccepted⟩

theorem ends_provePin (h : Reaches env w (.settled .hashExchange) made v) :
    Ends env w (fun _ u => exists made, Reaches env w (.settled .caRegistration) made u)
      (provePin env v) := by
  rcases requestCertificate_of_reaches h env.pin with ⟨request, hbuilt⟩
  refine ends_bind (v := v.record .pinAsked) (ends_run_of_ok hbuilt fun _ _ => rfl) ?_
  rintro request u ⟨rfl, hbuilt⟩
  have hca := Reaches.ca h hbuilt
  refine ends_bind (ends_send Step.noConfusion hca) ?_
  rintro response u ⟨rfl, hreply⟩
  refine ends_bind
    (ends_run (o := .acceptCertificate response) hca hreply rfl fun _ _ => rfl) ?_
  rintro _ u ⟨rfl, haccepted⟩
  exact ⟨_, .verified hca hreply haccepted⟩

theorem ends_registerClient (h : Reaches env w (.settled .caRegistration) made v) :
    Ends env w (fun _ u => exists made, Reaches env w (.settled .deviceRegistration) made u)
      (registerClient env v) := by
  refine ends_bind (p := fun _ u => u = v.record .identityIssued) rfl ?_
  rintro _ u rfl
  cases hissued : env.issued with
  | error e => exact ⟨made, .notIssued h hissued⟩
  | ok identity =>
      rcases requestRegistration_of_reaches h identity with ⟨request, hbuilt⟩
      refine ends_bind (v := (v.record .identityIssued).behindClientId)
        (ends_run_of_ok hbuilt fun _ _ => rfl) ?_
      rintro request u ⟨rfl, hbuilt⟩
      have hregister := Reaches.register h hissued hbuilt
      refine ends_bind (ends_send Step.noConfusion hregister) ?_
      rintro b u ⟨rfl, hreply⟩
      have hconfirmed := confirm_of_reaches hregister
      refine ends_bind (ends_run_of_ok hconfirmed fun _ _ => rfl) ?_
      rintro _ u ⟨rfl, -⟩
      exact ⟨_, .registered hregister hreply hconfirmed⟩

theorem ends_steps (env : Environment) (w : World) :
    Ends env w (fun _ u => exists made, Reaches env w (.settled .deviceRegistration) made u)
      (steps env (w.fresh env)) := by
  cases hinterrupted : env.interrupted with
  | true =>
      rw [steps, hinterrupted]
      exact ⟨[], .unsent hinterrupted⟩
  | false =>
      rw [steps, hinterrupted]
      refine ends_bind (ends_cleanUp env w) ?_
      rintro _ u ⟨made, hcleanup⟩
      refine ends_bind (ends_exchangeKeys hcleanup) ?_
      rintro _ u ⟨made, hhash⟩
      refine ends_bind (ends_provePin hhash) ?_
      rintro _ u ⟨made, hca⟩
      exact ends_registerClient hca

end

end Session
end PaperPairing
