import PaperPairing.Proofs.Session.Refinement

/-!
# Replies that do not matter

Of the reply to a reset an attempt takes no notice at all, and of the reply to the last
request only whether there is one.  Two transports that differ in nothing else make the
same attempt.
-/

namespace PaperPairing
namespace Session

/-- What an attempt takes notice of in the answer to the call of a step.  Neither a body
nor an error matters to a reset, and no body to the registration of the device. -/
def noticed : Step -> Answer -> Answer
  | .cleanup, .silence => .silence
  | .cleanup, _ | .deviceRegistration, .body _ => .body []
  | _, answer => answer

/-- Whatever an attempt waits for, the other transport says the same as far as it is
noticed. -/
def Agrees (env : Environment) (w : World) (transport : Transport) : Prop :=
  forall s made v, Reaches env w (.waiting s) made v ->
    noticed s (env.transport v.calls) = noticed s (transport v.calls)

def Environment.over (env : Environment) (transport : Transport) : Environment :=
  { env with transport := transport }

/-!
## Single actions
-/

theorem bind_eq_of_ends {α β : Type} (env : Environment) (w : World) {v : World}
    {p : α -> World -> Prop} {a b : Action α} {f g : α -> Action β} (hab : a v = b v)
    (ha : Ends env w p (a v)) (hfg : forall x u, p x u -> f x u = g x u) :
    (a >>= f) v = (b >>= g) v := by
  cases h : a v with
  | ok x u =>
      rw [h] at hab ha
      rw [bind_of_ok h, bind_of_ok hab.symm]
      exact hfg x u ha
  | error e u =>
      rw [h] at hab
      rw [bind_of_error h, bind_of_error hab.symm]

section

variable {env : Environment} {w v : World} {transport : Transport}
  {made : List Registration.Call}

theorem ask_eq {α : Type} (h : Agrees env w transport) {s : Step} {body : Bytes}
    (hreaches : Reaches env w (.waiting s) made (v.request env s body))
    {k : Answer -> Action α} (hk : forall a b, noticed s a = noticed s b -> k a = k b) :
    (ask env (env.config.endpoints.endpoint s) body >>= k) v =
      (ask (env.over transport) (env.config.endpoints.endpoint s) body >>= k) v :=
  congrFun (hk _ _ (h _ _ _ hreaches)) _

theorem cleanUp_eq (h : Agrees env w transport) :
    cleanUp env (w.fresh env) = cleanUp (env.over transport) (w.fresh env) := by
  refine ask_eq h .cleanup ?_
  intro a b hab
  cases a <;> cases b <;> first | rfl | cases hab

theorem send_eq (h : Agrees env w transport) {s : Step} {body : Bytes}
    (hreaches : Reaches env w (.waiting s) made (v.request env s body))
    (hs : s ≠ .cleanup) (hlast : s ≠ .deviceRegistration) :
    send env (env.config.endpoints.endpoint s) body v =
      send (env.over transport) (env.config.endpoints.endpoint s) body v := by
  have hall (answer : Answer) : noticed s answer = answer := by
    cases s with
    | cleanup => exact (hs rfl).elim
    | deviceRegistration => exact (hlast rfl).elim
    | _ => rfl
  refine ask_eq h hreaches ?_
  intro a b hab
  rw [hall, hall] at hab
  rw [hab]

theorem acknowledge_eq {α : Type} (h : Agrees env w transport) {body : Bytes}
    (hreaches : Reaches env w (.waiting .deviceRegistration) made
      (v.request env .deviceRegistration body)) (next : Action α) :
    (send env env.config.endpoints.register body >>= fun _ => next) v =
      (send (env.over transport) env.config.endpoints.register body >>= fun _ => next) v := by
  rw [send, send, bind_assoc, bind_assoc]
  refine ask_eq h hreaches ?_
  intro a b hab
  cases a <;> cases b <;> first | rfl | (cases hab <;> rfl)

/-!
## The parts of an attempt
-/

theorem exchangeKeys_eq (h : Agrees env w transport)
    (hreaches : Reaches env w (.settled .cleanup) made v) :
    exchangeKeys env v = exchangeKeys (env.over transport) v := by
  have hpin := Reaches.pin hreaches
  refine bind_eq_of_ends env w (send_eq h hpin Step.noConfusion Step.noConfusion)
    (ends_send Step.noConfusion hpin) ?_
  rintro challenge u ⟨rfl, hreply⟩
  refine bind_eq_of_ends env w rfl
    (ends_run (o := .start challenge) hpin hreply rfl fun _ _ => rfl) ?_
  rintro request u ⟨rfl, haccepted⟩
  refine bind_eq_of_ends env w (a := Action.reportState) (p := fun _ u => u = World.report _)
    rfl rfl ?_
  rintro _ u rfl
  have hhash := Reaches.hash hpin hreply haccepted
  exact bind_eq_of_ends env w (send_eq h hhash Step.noConfusion Step.noConfusion)
    (ends_send Step.noConfusion hhash) fun _ _ _ => rfl

theorem provePin_eq (h : Agrees env w transport)
    (hreaches : Reaches env w (.settled .hashExchange) made v) :
    provePin env v = provePin (env.over transport) v := by
  rcases requestCertificate_of_reaches hreaches env.pin with ⟨request, hbuilt⟩
  refine bind_eq_of_ends env w (v := v.record .pinAsked) rfl
    (ends_run_of_ok hbuilt fun _ _ => rfl) ?_
  rintro request u ⟨rfl, hbuilt⟩
  have hca := Reaches.ca hreaches hbuilt
  exact bind_eq_of_ends env w (send_eq h hca Step.noConfusion Step.noConfusion)
    (ends_send Step.noConfusion hca) fun _ _ _ => rfl

theorem registerClient_eq (h : Agrees env w transport)
    (hreaches : Reaches env w (.settled .caRegistration) made v) :
    registerClient env v = registerClient (env.over transport) v := by
  refine bind_eq_of_ends env w (p := fun _ u => u = v.record .identityIssued) rfl rfl ?_
  rintro _ u rfl
  -- The issuer is asked before the last request, and is the same over both transports.
  have hissued : (env.over transport).issued = env.issued := rfl
  rw [hissued]
  cases hidentity : env.issued with
  | error e => rfl
  | ok identity =>
      rcases requestRegistration_of_reaches hreaches identity with ⟨request, hbuilt⟩
      refine bind_eq_of_ends env w (v := (v.record .identityIssued).behindClientId) rfl
        (ends_run_of_ok hbuilt fun _ _ => rfl) ?_
      rintro request u ⟨rfl, hbuilt⟩
      exact acknowledge_eq h (.register hreaches hidentity hbuilt) _

theorem steps_eq (h : Agrees env w transport) :
    steps env (w.fresh env) = steps (env.over transport) (w.fresh env) := by
  have hinterrupted : (env.over transport).interrupted = env.interrupted := rfl
  rw [steps, steps, hinterrupted]
  cases env.interrupted with
  | true => rfl
  | false =>
      refine bind_eq_of_ends env w (cleanUp_eq h) (ends_cleanUp env w) ?_
      rintro _ u ⟨made, hcleanup⟩
      refine bind_eq_of_ends env w (exchangeKeys_eq h hcleanup) (ends_exchangeKeys hcleanup) ?_
      rintro _ u ⟨made, hhash⟩
      refine bind_eq_of_ends env w (provePin_eq h hhash) (ends_provePin hhash) ?_
      rintro _ u ⟨made, hca⟩
      exact registerClient_eq h hca

end

/-- Behind the steps only one more reset is asked for, and its answer is not noticed. -/
theorem conclude_eq (env : Environment) (transport : Transport)
    (r : EStateM.Result Error World Unit) :
    conclude env r = conclude (env.over transport) r := by
  have hlast (v : World) : trailingCleanUp (env.over transport) v = trailingCleanUp env v := by
    rw [trailingCleanUp_eq, trailingCleanUp_eq]
    rfl
  cases r with
  | ok x u | error e u =>
      rw [conclude, conclude, hlast]
      rfl

/-- Over a transport that says the same as far as it is noticed, an attempt makes the same
calls, shows the same to the user and comes to the same outcome. -/
theorem only_noticed_replies_matter (env : Environment) (w : World) (transport : Transport)
    (h : Agrees env w transport) : pair env w = pair (env.over transport) w := by
  have hsteps := steps_eq h
  have hfresh : w.fresh (env.over transport) = w.fresh env := rfl
  rw [pair_eq, pair_eq, hfresh, ← hsteps, ← conclude_eq]

def honest : Transport
  | [_, _] => .body (Message.toBody Registration.sampleDevice.challenge)
  | [_, _, hash] =>
      match Registration.sampleDevice.answerHash hash.body with
      | some link => .body (Message.toBody link.response)
      | none => .failure (.transport (.status 403))
  | [_, _, hash, ca] =>
      let answer := do
        let link ← Registration.sampleDevice.answerHash hash.body
        Registration.sampleDevice.answerCertificate link (Fixed.resize 16 []) ca.body
      match answer with
      | some response => .body (Message.toBody response)
      | none => .failure (.transport (.status 403))
  | _ => .body []

/-- The sample device with the given answers to both resets and to the last request. -/
def answers (reset acknowledgement : Answer) : Transport := fun calls =>
  if calls.length = 1 ∨ calls.length = 6 then reset
  else if calls.length = 5 then acknowledgement
  else honest calls

def sampleEnvironment (transport : Transport) : Environment :=
  ⟨Config.default, transport, Registration.sampleDevice.pin, .ok Registration.sampleIdentity,
    false⟩

/-- Resets that are refused and an acknowledgement with a body, against empty replies. -/
theorem only_noticed_replies_matter_to_sample :
    let quiet := answers (.body []) (.body [])
    let loud := answers (.failure (.transport (.status 500))) (.body [1])
    let w := World.initial Config.default Registration.sampleTape
    Agrees (sampleEnvironment quiet) w loud ∧
      (forall calls, calls.length ∈ [1, 5, 6] -> quiet calls ≠ loud calls) ∧
      pair (sampleEnvironment quiet) w = pair ((sampleEnvironment quiet).over loud) w := by
  intro quiet loud w
  have hagrees : Agrees (sampleEnvironment quiet) w loud := by
    intro s made v h
    have hlength : v.calls.length = position s :=
      (length_calls_of_reaches h).trans (Nat.zero_add _)
    show noticed s (quiet v.calls) = noticed s (loud v.calls)
    simp only [quiet, loud, answers, hlength]
    cases s <;> rfl
  refine ⟨hagrees, ?_, only_noticed_replies_matter _ w loud hagrees⟩
  intro calls h
  simp only [List.mem_cons, List.not_mem_nil, or_false] at h
  rcases h with h | h | h <;> simp [quiet, loud, answers, h]

end Session
end PaperPairing
