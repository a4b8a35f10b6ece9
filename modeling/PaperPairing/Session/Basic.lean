import PaperPairing.ClientId
import PaperPairing.Registration.Basic

/-!
# Sessions

A session drives one registration after another over a transport.  What the
transport answers may depend on all calls made so far; what the session does is
written down as a row of events.
-/

namespace PaperPairing
namespace Session

structure Call where
  method : Method
  path : String
  body : Bytes
deriving DecidableEq

inductive Answer where
  | body (b : Bytes)
  | failure (e : Error)
  /-- Nothing comes back until the shutdown is taken.  Where a reply and the shutdown are
  both ready, either may be taken: this fixes where the shutdown is taken, not when it
  becomes ready. -/
  | silence
deriving DecidableEq

/-- What the transport answers to the last of a row of calls. -/
abbrev Transport := List Call -> Answer

structure Environment where
  config : Config
  transport : Transport
  /-- What the user types when asked for the PIN. -/
  pin : String
  /-- What comes of asking for a client key. -/
  issued : Except Error Identity
  /-- The shutdown is taken before anything is sent.  One that is ready by then may still
  be taken later, or not at all. -/
  interrupted : Bool

inductive Event where
  | started
  | call (c : Call)
  | state (s : Registration.State)
  | pinAsked
  | identityIssued
  | complete
  | failed (e : Error)
deriving DecidableEq

def Event.isCallback : Event -> Bool
  | call _ | identityIssued => false
  | _ => true

def Event.call? : Event -> Option Call
  | call c => some c
  | _ => none

/-- The registration at hand, the randomness left, and what has happened. -/
structure World where
  registration : Registration
  tape : Tape
  events : List Event

namespace World

def calls (w : World) : List Call :=
  w.events.filterMap Event.call?

def record (w : World) (e : Event) : World :=
  { w with events := w.events ++ [e] }

end World

/-!
## Actions
-/

/-- A part of an attempt: it may end the attempt with an error. -/
abbrev Action := EStateM Error World

namespace Action

def record (e : Event) : Action Unit := fun w =>
  .ok () (w.record e)

def reportState : Action Unit := fun w =>
  .ok () (w.record (.state w.registration.state))

def run {α : Type} (operation : Registration -> Tape -> Registration.Outcome α) :
    Action α := fun w =>
  let o := operation w.registration w.tape
  let next := { w with registration := o.registration, tape := o.tape }
  match o.result with
  | .ok a => .ok a next
  | .error e => .error e next

def drawClientId : Action String := fun w =>
  let (r, t) := w.tape.draw 16
  .ok (ClientId.ofRandom r) { w with tape := t }

end Action

/-!
## Calls
-/

/-- The call for an endpoint; a GET carries no body. -/
def callFor (e : Endpoint) (body : Bytes) : Call :=
  ⟨e.method, e.path, if e.method = .get then [] else body⟩

def ask (env : Environment) (e : Endpoint) (body : Bytes) : Action Answer := fun w =>
  let next := w.record (.call (callFor e body))
  .ok (env.transport next.calls) next

def send (env : Environment) (e : Endpoint) (body : Bytes) : Action Bytes := do
  match ← ask env e body with
  | .body b => return b
  | .failure e => throw e
  | .silence => throw .cancelled

/-- Reset the device, whatever it says to that; only the shutdown ends the
attempt. -/
def cleanUp (env : Environment) : Action Unit := do
  match ← ask env env.config.endpoints.cleanup [] with
  | .silence => throw .cancelled
  | _ => return ()

/-!
## Attempts
-/

def exchangeKeys (env : Environment) : Action Unit := do
  let challenge ← send env env.config.endpoints.pin []
  let request ← Action.run (fun r t => r.start challenge t)
  Action.reportState
  let response ← send env env.config.endpoints.hash request
  Action.run (fun r t => r.acceptHashResponse response t)
  Action.reportState

def provePin (env : Environment) : Action Unit := do
  Action.record .pinAsked
  let request ← Action.run (fun r t => r.requestCertificate env.pin t)
  let response ← send env env.config.endpoints.ca request
  Action.run (fun r t => r.acceptCertificate response t)
  Action.reportState

def registerClient (env : Environment) : Action Unit := do
  Action.record .identityIssued
  match env.issued with
  | .error e => throw e
  | .ok identity =>
      let clientId ← Action.drawClientId
      let request ← Action.run (fun r t => r.requestRegistration clientId identity t)
      let _ ← send env env.config.endpoints.register request
      Action.run (fun r t => r.confirm t)
      Action.reportState

/-- The part of an attempt that the shutdown can end. -/
def steps (env : Environment) : Action Unit := do
  if env.interrupted then
    throw .cancelled
  cleanUp env
  exchangeKeys env
  provePin env
  registerClient env

/-- Reset the device at the end of an attempt.  Whatever comes of it is dropped, silence
like an answer, since no shutdown is taken any more. -/
def trailingCleanUp (env : Environment) (w : World) : World :=
  match cleanUp env w with
  | .ok _ w | .error _ w => w

def conclude (env : Environment) :
    EStateM.Result Error World Unit -> Except Error Credentials × World
  | .ok () w =>
      let w := if env.config.cleanupAfter then trailingCleanUp env w else w
      let o := w.registration.finish w.tape
      (o.result, { w with registration := o.registration, tape := o.tape })
  | .error e w =>
      let w := { w with registration := w.registration.abort (Failure.ofError e) }
      let w := if e = .cancelled || env.config.cleanupAfter then trailingCleanUp env w else w
      (.error e, w)

def closing : Except Error Credentials -> Event
  | .ok _ => .complete
  | .error e => .failed e

/-- One attempt at registering, on a world that earlier attempts may have left
behind. -/
def pair (env : Environment) (w : World) : Except Error Credentials × World :=
  let fresh : World := { w with registration := Registration.new env.config }
  let (outcome, w) := conclude env (steps env (fresh.record .started))
  (outcome, (w.record (.state w.registration.state)).record (closing outcome))

def World.initial (c : Config) (t : Tape) : World :=
  ⟨Registration.new c, t, []⟩

def attempts (env : Environment) : Nat -> World -> List (Except Error Credentials) × World
  | 0, w => ([], w)
  | n + 1, w =>
      let (outcome, w) := pair env w
      let (outcomes, w) := attempts env n w
      (outcome :: outcomes, w)

end Session
end PaperPairing
