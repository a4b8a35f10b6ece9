import PaperPairing.Proofs.Registration.Discipline
import PaperPairing.Proofs.Session.Refinement

/-!
# Cancelled attempts

An attempt that the shutdown ends has done what it would have done without it, up
to the call that was pending, and then resets the device.
-/

namespace PaperPairing
namespace Session

def behind {α : Type} : EStateM.Result Error World α -> World
  | .ok _ v => v
  | .error _ v => v

/-- The shutdown is taken while the call with number `i` of an attempt is pending, or
before the first one if `i` is zero. -/
def Environment.cut (env : Environment) (w : World) (i : Nat) : Environment :=
  { env with
    transport := fun calls =>
      if calls.length = w.calls.length + i then .silence else env.transport calls
    interrupted := decide (i = 0) }

/-!
## Actions side by side
-/

section

variable {n : Nat} {α β : Type}

end

/-!
## The steps with and without the shutdown
-/

section

variable {env : Environment} {w : World} {i : Nat}

end

/-!
## What is left of a registration
-/

section

variable {env : Environment} {w v : World} {m : Moment} {made : List Registration.Call}

theorem isTerminal_of_reaches (h : Reaches env w m made v) :
    v.registration.stage.state.isTerminal = false := by
  have hremaining := remaining_of_reaches h
  cases hstage : v.registration.stage with
  | done | failed reason =>
      rw [hstage] at hremaining
      rcases m with s | s <;> cases s <;> cases hremaining
  | _ => rfl

theorem after_of_halts {e : Error} (h : Halts env w made e v) :
    Registration.after (Registration.new env.config) made = v.registration := by
  cases h with
  | unsent => rfl
  | interrupted hbefore | unanswered hbefore => exact after_of_reaches hbefore
  | @notIssued _ v _ hbefore _ => exact after_of_reaches (v := v) hbefore
  | rejected hbefore =>
      rw [Registration.after_append, after_of_reaches hbefore]
      rfl

theorem stage_abort {r : Registration} (hr : r.stage.state.isTerminal = false)
    (reason : Failure) : (r.abort reason).stage = .failed reason := by
  rw [Registration.abort, Registration.Stage.abort, hr]
  rfl

/-- Giving up leaves the reason of the halt, also where an operation gave up first. -/
theorem stage_of_halts {e : Error} (h : Halts env w made e v) :
    (v.registration.abort (Failure.ofError e)).stage = .failed (Failure.ofError e) := by
  cases h with
  | unsent => rfl
  | interrupted hbefore | unanswered hbefore =>
      exact stage_abort (isTerminal_of_reaches hbefore) _
  | @notIssued _ v _ hbefore _ =>
      exact stage_abort (r := v.registration) (isTerminal_of_reaches hbefore) _
  | @rejected _ _ v _ _ o hbefore _ _ hrejected =>
      have hgone : (v.operate o).registration = v.registration.abort (Failure.ofError e) :=
        Registration.registration_of_result_error (k := v.callOf o) hrejected
      have hstage := stage_abort (isTerminal_of_reaches hbefore) (Failure.ofError e)
      rw [hgone, Registration.abort, Registration.Stage.abort, hstage]
      rfl

end

/-!
## Cancellation
-/

section

variable {env : Environment} {w u : World} {i : Nat}

end

end Session
end PaperPairing
