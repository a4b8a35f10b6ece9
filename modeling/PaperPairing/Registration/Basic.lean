import PaperPairing.Config
import PaperPairing.Registration.Step
import PaperPairing.Tape

/-!
# Registrations

One registration of this client with one device.  It is fed the replies of the
device and gives the requests to send; every error ends it, and it is good for
one run only.
-/

namespace PaperPairing

structure Registration where
  secretLength : UInt64
  stage : Registration.Stage
deriving DecidableEq

namespace Registration

def new (c : Config) : Registration :=
  ⟨c.secretLength, .init⟩

def state (r : Registration) : State :=
  r.stage.state

def isComplete (r : Registration) : Bool :=
  r.state = .done

/-- Give up and drop all secrets. -/
def abort (r : Registration) (reason : Failure) : Registration :=
  { r with stage := r.stage.abort reason }

/-- What an operation gives back, with the registration and the tape behind it. -/
structure Outcome (α : Type) where
  result : Except Error α
  registration : Registration
  tape : Tape

/-- Go to the stage that a step leads to; an error ends the registration. -/
def settle {α : Type} (r : Registration) :
    Except Error (α × Stage) -> Except Error α × Registration
  | .ok (a, stage) => (.ok a, { r with stage := stage })
  | .error e => (.error e, r.abort (Failure.ofError e))

def apply {α : Type} (r : Registration) (t : Tape) (step : Except Error (α × Stage)) :
    Outcome α :=
  let (result, next) := r.settle step
  ⟨result, next, t⟩

/-- An operation whose draws count only if it succeeds. -/
def applyDrawing {α : Type} (r : Registration) (before after : Tape)
    (step : Except Error (α × Stage)) : Outcome α :=
  match step with
  | .ok s => r.apply after (.ok s)
  | .error e => r.apply before (.error e)

/-!
## Operations
-/

/-- Answer the PIN challenge.  The nonce and the exponent are drawn before
anything is checked. -/
def start (r : Registration) (body : Bytes) (t : Tape) : Outcome Bytes :=
  let (nonce2, t) := t.draw 16
  let (exponent, t) := t.draw 32
  r.apply t (r.stage.start body nonce2 (.ofBytes exponent.bytes))

def acceptHashResponse (r : Registration) (body : Bytes) (t : Tape) : Outcome Unit :=
  r.apply t (r.stage.acceptHashResponse body)

/-- Bind the PIN.  The client's secret is drawn first, then the initialisation
vector that wraps it. -/
def requestCertificate (r : Registration) (pin : String) (t : Tape) : Outcome Bytes :=
  let (secret, t1) := t.draw 16
  let (iv, t2) := t1.draw 16
  r.applyDrawing t t2 (r.stage.requestCertificate pin secret iv)

def acceptCertificate (r : Registration) (body : Bytes) (t : Tape) : Outcome Unit :=
  r.apply t (r.stage.acceptCertificate r.secretLength.toNat body)

def requestRegistration (r : Registration) (clientId : String) (identity : Identity)
    (t : Tape) : Outcome Bytes :=
  let (iv, t1) := t.draw 16
  r.applyDrawing t t1 (r.stage.requestRegistration clientId identity iv)

def confirm (r : Registration) (t : Tape) : Outcome Unit :=
  r.apply t r.stage.confirm

def finish (r : Registration) (t : Tape) : Outcome Credentials :=
  r.apply t r.stage.finish

/-!
## Runs
-/

inductive Operation where
  | start (body : Bytes)
  | acceptHashResponse (body : Bytes)
  | requestCertificate (pin : String)
  | acceptCertificate (body : Bytes)
  | requestRegistration (clientId : String) (identity : Identity)
  | confirm
  | finish
  | abort (reason : Failure)

inductive Product where
  | nothing
  | request (body : Bytes)
  | credentials (c : Credentials)
deriving DecidableEq

def Outcome.map {α β : Type} (f : α -> β) (o : Outcome α) : Outcome β :=
  ⟨o.result.map f, o.registration, o.tape⟩

def perform (r : Registration) (t : Tape) : Operation -> Outcome Product
  | .start body => (r.start body t).map .request
  | .acceptHashResponse body => (r.acceptHashResponse body t).map (fun _ => .nothing)
  | .requestCertificate pin => (r.requestCertificate pin t).map .request
  | .acceptCertificate body => (r.acceptCertificate body t).map (fun _ => .nothing)
  | .requestRegistration clientId identity =>
      (r.requestRegistration clientId identity t).map .request
  | .confirm => (r.confirm t).map (fun _ => .nothing)
  | .finish => (r.finish t).map .credentials
  | .abort reason => ⟨.ok .nothing, r.abort reason, t⟩

end Registration
end PaperPairing
