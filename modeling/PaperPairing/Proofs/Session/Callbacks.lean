import Mathlib.Data.List.Chain
import PaperPairing.Proofs.Session.Cancellation

/-!
# What the user is shown

The states that the user is told of in an attempt are those its registration takes,
each of them once, and the last word is the outcome.  It does not matter whether a
reply, the transport, the issuer or the shutdown has ended the attempt.
-/

namespace PaperPairing

/-!
## The states a registration takes
-/

namespace Registration

/-- The states that a row of calls leads to, one behind the other; a call that keeps the
state adds none. -/
def trail (r : Registration) : List Call -> List State
  | [] => []
  | k :: calls =>
      let next := (k.outcome r).registration
      if next.state = r.state then trail next calls else next.state :: trail next calls

theorem trail_append (r : Registration) (calls more : List Call) :
    trail r (calls ++ more) = trail r calls ++ trail (after r calls) more := by
  induction calls generalizing r with
  | nil => rfl
  | cons k calls ih =>
      rw [List.cons_append, trail, trail, after, ih]
      split <;> rfl

def Kind.entered : Kind -> Option State
  | .start => some .pinRequested
  | .acceptHashResponse => some .keyExchanged
  | .acceptCertificate => some .caVerified
  | .confirm => some .deviceRegistered
  | .finish => some .done
  | .requestCertificate | .requestRegistration | .abort => none

theorem trail_of_advances {k : Call} {r : Registration} {a : Product} {s : Stage}
    (h : Advances r.secretLength.toNat r.stage k a s) : trail r [k] = k.kind.entered.toList := by
  rw [trail, (outcome_of_advances h).2]
  rcases r with ⟨n, stage⟩
  cases h <;> rfl

theorem trail_of_marches {n : Nat} {s s' : Stage} {calls : List Call}
    {products : List Product} (h : Marches n s calls products s') {r : Registration}
    (hn : r.secretLength.toNat = n) (hs : r.stage = s) :
    trail r calls = (calls.map Call.kind).filterMap Kind.entered := by
  induction h generalizing r with
  | nil => rfl
  | @cons _ next _ k calls _ _ head _ ih =>
      rw [← hn, ← hs] at head
      have hrest := ih (r := { r with stage := next }) hn rfl
      rw [← List.singleton_append, trail_append, trail_of_advances head, after, after,
        (outcome_of_advances head).2, hrest, List.map_append, List.filterMap_append]
      cases hentered : k.kind.entered <;> simp [hentered]

theorem trail_of_isTerminal {r : Registration} (hr : r.stage.state.isTerminal = true)
    (calls : List Call) : trail r calls = [] := by
  induction calls with
  | nil => rfl
  | cons k calls ih =>
      rw [trail, outcome_of_isTerminal hr]
      exact (if_pos rfl).trans ih

theorem trail_of_gone {k : Call} {r : Registration} {reason : Failure}
    (hr : r.stage.state.isTerminal = false)
    (h : (k.outcome r).registration = r.abort reason) : trail r [k] = [.failed reason] := by
  have hstate : (r.abort reason).state = .failed reason :=
    congrArg Stage.state (Session.stage_abort hr reason)
  have hnew : (r.abort reason).state ≠ r.state := by
    intro heq
    rw [← state, ← heq, hstate] at hr
    cases hr
  rw [trail, h]
  exact (if_neg hnew).trans (by rw [hstate, trail])

theorem state_of_trail {k : Call} {r : Registration} {s : State} (h : trail r [k] = [s]) :
    (k.outcome r).registration.state = s := by
  by_cases hsame : (k.outcome r).registration.state = r.state
  · have hnone : trail r [k] = [] := if_pos hsame
    rw [hnone] at h
    cases h
  · have hone : trail r [k] = [(k.outcome r).registration.state] := if_neg hsame
    exact List.singleton_injective (hone.symm.trans h)

end Registration

namespace Session

open Registration (State)

/-!
## What is shown
-/

def Event.state? : Event -> Option State
  | .state s => some s
  | _ => none

def callbacks (w v : World) : List Event :=
  (v.events.drop w.events.length).filter Event.isCallback

def milestones : List State :=
  [.pinRequested, .keyExchanged, .caVerified, .deviceRegistered]

/-- The calls that an attempt makes on its registration, from the first to the one that
finishes it or gives it up, and what the attempt comes to. -/
inductive Makes (env : Environment) (w : World) :
    List Registration.Call -> Except Error Credentials -> Prop where
  | finished {made : List Registration.Call} {u : World}
      (h : Reaches env w (.settled .deviceRegistration) made u) :
      Makes env w (made ++ [u.callOf .finish]) (u.registration.finish u.tape).result
  | halted {made : List Registration.Call} {e : Error} {u : World}
      (h : Halts env w made e u) :
      Makes env w (made ++ [u.callOf (.abort (Failure.ofError e))]) (.error e)

/-- What the user is shown in an attempt that begins in `w` and ends in `v`, after the
given calls on its registration. -/
structure Shows (env : Environment) (w : World) (calls : List Registration.Call)
    (outcome : Except Error Credentials) (v : World) : Prop where
  makes : Makes env w calls outcome
  registration : v.registration = Registration.after (Registration.new env.config) calls
  grows : w.events <+: v.events
  begins : (callbacks w v).head? = some .started
  states : (callbacks w v).filterMap Event.state? =
    Registration.trail (Registration.new env.config) calls
  succeeds : forall c, outcome = .ok c ->
    Registration.trail (Registration.new env.config) calls = milestones ++ [.done]
  fails : forall e, outcome = .error e -> exists passed, passed <+: milestones ∧
    Registration.trail (Registration.new env.config) calls =
      passed ++ [.failed (Failure.ofError e)]
  ends : (callbacks w v).getLast? = some (closing outcome)
  complete_iff : .complete ∈ callbacks w v ↔ exists c, outcome = .ok c
  failed_iff : forall e, .failed e ∈ callbacks w v ↔ outcome = .error e
  asks_once : (callbacks w v).count .pinAsked ≤ 1
  asks_behind : forall before after, callbacks w v = before ++ .pinAsked :: after ->
    before.getLast? = some (.state .keyExchanged)

/-!
## Announcements
-/

/-- What the user is shown of a state; the PIN is asked for as soon as the device has
committed itself to it. -/
def announce : State -> List Event
  | .keyExchanged => [.state .keyExchanged, .pinAsked]
  | s => [.state s]

section

variable {passed : List State} {final : State} {outcome : Except Error Credentials}

theorem states_announce (passed : List State) :
    (passed.flatMap announce).filterMap Event.state? = passed := by
  induction passed with
  | nil => rfl
  | cons s passed ih =>
      rw [List.flatMap_cons, List.filterMap_append, ih]
      cases s <;> rfl

theorem count_pinAsked_announce (passed : List State) :
    (passed.flatMap announce).count .pinAsked = passed.count .keyExchanged := by
  induction passed with
  | nil => rfl
  | cons s passed ih =>
      rw [List.flatMap_cons, List.count_append, ih, List.count_cons, Nat.add_comm]
      cases s <;> rfl

theorem not_mem_announce {event : Event} (hstate : forall s, event ≠ .state s)
    (hasked : event ≠ .pinAsked) : event ∉ passed.flatMap announce := by
  rw [List.mem_flatMap]
  rintro ⟨s, -, hs⟩
  cases s with
  | keyExchanged =>
      rcases List.mem_cons.mp hs with rfl | hs
      · exact hstate _ rfl
      · exact hasked (List.mem_singleton.mp hs)
  | _ => exact hstate _ (List.mem_singleton.mp hs)

def account (passed : List State) (final : State) (outcome : Except Error Credentials) :
    List Event :=
  .started :: (passed.flatMap announce ++ [.state final, closing outcome])

theorem states_account :
    (account passed final outcome).filterMap Event.state? = passed ++ [final] := by
  rw [account, List.filterMap_cons_none rfl, List.filterMap_append, states_announce]
  cases outcome <;> rfl

theorem mem_account_iff {event : Event} (hstart : event ≠ .started)
    (hstate : forall s, event ≠ .state s) (hasked : event ≠ .pinAsked) :
    event ∈ account passed final outcome ↔ event = closing outcome := by
  rw [account, List.mem_cons, List.mem_append, List.mem_cons, List.mem_singleton]
  simp only [hstart, hstate, not_mem_announce hstate hasked, false_or]

theorem count_pinAsked_account :
    (account passed final outcome).count .pinAsked = passed.count .keyExchanged := by
  have hend : [.state final, closing outcome].count Event.pinAsked = 0 := by
    cases outcome <;> rfl
  rw [account, List.count_cons_of_ne Event.noConfusion, List.count_append, hend,
    count_pinAsked_announce, Nat.add_zero]

/-- The PIN is asked for right behind the announcement of the key exchange only. -/
def Follows (earlier later : Event) : Prop :=
  later = .pinAsked -> earlier = .state .keyExchanged

theorem isChain_account : (account passed final outcome).IsChain Follows := by
  rw [account]
  -- Every announcement begins with a state, so the induction is on what stands before it.
  generalize Event.started = first
  have hstate (earlier : Event) (s : State) : Follows earlier (.state s) := nofun
  induction passed generalizing first with
  | nil =>
      have hlast : Follows (.state final) (closing outcome) := by
        cases outcome <;> exact nofun
      exact .cons_cons (hstate _ _) (.cons_cons hlast (.singleton _))
  | cons s passed ih =>
      cases s with
      | keyExchanged => exact .cons_cons (hstate _ _) (.cons_cons (fun _ => rfl) (ih _))
      | _ => exact .cons_cons (hstate _ _) (ih _)

theorem asks_behind_account {before after : List Event}
    (h : account passed final outcome = before ++ .pinAsked :: after) :
    before.getLast? = some (.state .keyExchanged) := by
  have hchain : (before ++ .pinAsked :: after).IsChain Follows := h ▸ isChain_account
  cases hlast : before.getLast? with
  | none =>
      rw [List.getLast?_eq_none_iff.mp hlast, account] at h
      cases h
  | some event =>
      rw [(List.isChain_append.mp hchain).2.2 event hlast .pinAsked rfl rfl]

end

/-!
## What was shown at a moment
-/

section

variable {env : Environment} {w u v : World} {m : Moment} {made : List Registration.Call}
  {outcome : Except Error Credentials}

/-- By now the user was told of the beginning and of the given states. -/
def Told (w u : World) (passed : List State) : Prop :=
  exists more, u.events = w.events ++ more ∧
    more.filter Event.isCallback = .started :: passed.flatMap announce

theorem filter_shown_of_advances (e : Endpoints) {k : Registration.Call} {r : Registration}
    {a : Registration.Product} {s : Registration.Stage}
    (h : Registration.Advances r.secretLength.toNat r.stage k a s) (hk : k.kind ≠ .finish) :
    (shown e s.state k.kind a).filter Event.isCallback =
      (Registration.trail r [k]).flatMap announce := by
  rw [Registration.trail_of_advances h]
  rcases r with ⟨n, stage⟩
  cases h with
  | finish => exact (hk rfl).elim
  | _ => rfl

/-- A story announces the states it leads through. -/
theorem filter_story_of_marches (e : Endpoints) {n : Nat} {s s' : Registration.Stage}
    {calls : List Registration.Call} {products : List Registration.Product}
    (h : Registration.Marches n s calls products s') {r : Registration}
    (hn : r.secretLength.toNat = n) (hs : r.stage = s)
    (hfinish : .finish ∉ calls.map Registration.Call.kind) :
    (story e r calls).filter Event.isCallback =
      (Registration.trail r calls).flatMap announce := by
  induction h generalizing r with
  | nil => rfl
  | @cons _ next _ k calls _ _ head _ ih =>
      rw [← hn, ← hs] at head
      rw [List.map_cons, List.mem_cons, not_or] at hfinish
      rcases Registration.outcome_of_advances head with ⟨hresult, hnext⟩
      have hrest := ih (r := { r with stage := next }) hn rfl hfinish.2
      have hfirst := filter_shown_of_advances e head (Ne.symm hfinish.1)
      rw [← List.singleton_append, Registration.trail_append, List.flatMap_append, ← hfirst,
        story_append, List.filter_append, story, story, List.append_nil, consequence, hresult,
        Registration.after, Registration.after, hnext, hrest]
      rfl

theorem trail_of_reaches (h : Reaches env w m made v) :
    Registration.trail (Registration.new env.config) made =
      (Registration.order.take m.count).filterMap Registration.Kind.entered := by
  rcases tracks_of_reaches h with ⟨-, products, hmarch⟩
  rw [Registration.trail_of_marches hmarch rfl rfl, kinds_of_reaches h]

theorem trail_isPrefix_milestones (h : Reaches env w m made v) :
    Registration.trail (Registration.new env.config) made <+: milestones := by
  rw [trail_of_reaches h]
  cases m with
  | waiting s | settled s => cases s <;> decide

theorem told_of_reaches (h : Reaches env w m made v)
    (hevents : u.events = v.events ++ m.pending env.config.endpoints) :
    Told w u (Registration.trail (Registration.new env.config) made) := by
  rcases tracks_of_reaches h with ⟨-, products, hmarch⟩
  have hfinish : .finish ∉ made.map Registration.Call.kind := by
    rw [kinds_of_reaches h]
    cases m with
    | waiting s | settled s => cases s <;> decide
  refine ⟨_, hevents.trans ((events_of_reaches h).trans (List.append_assoc _ _ _)), ?_⟩
  rw [List.filter_append, filter_story_of_marches _ hmarch rfl rfl hfinish]
  rfl

theorem told_of_waiting {s : Step} (h : Reaches env w (.waiting s) made v) :
    Told w v (Registration.trail (Registration.new env.config) made) := by
  cases s with
  | cleanup =>
      cases h
      exact ⟨[.started, _], List.append_assoc _ _ _, rfl⟩
  | _ => exact told_of_reaches h (List.append_nil _).symm

theorem trail_of_abort (h : Reaches env w m made v) (reason : Failure) :
    Registration.trail (Registration.new env.config) (made ++ [v.callOf (.abort reason)]) =
      Registration.trail (Registration.new env.config) made ++ [.failed reason] := by
  rw [Registration.trail_append, after_of_reaches h,
    Registration.trail_of_gone (isTerminal_of_reaches h) rfl]

/-- Where an attempt halts, one more state is left to be told. -/
theorem told_of_halts {e : Error} (h : Halts env w made e u) :
    exists passed, passed <+: milestones ∧ Told w u passed ∧
      Registration.trail (Registration.new env.config)
          (made ++ [u.callOf (.abort (Failure.ofError e))]) =
        passed ++ [.failed (Failure.ofError e)] := by
  cases h with
  | unsent => exact ⟨[], List.nil_prefix, ⟨[.started], rfl, rfl⟩, rfl⟩
  | interrupted hbefore =>
      exact ⟨_, trail_isPrefix_milestones hbefore, told_of_waiting hbefore,
        trail_of_abort hbefore _⟩
  | unanswered hbefore =>
      exact ⟨_, trail_isPrefix_milestones hbefore, told_of_waiting hbefore,
        trail_of_abort hbefore _⟩
  | notIssued hbefore =>
      exact ⟨_, trail_isPrefix_milestones hbefore, told_of_reaches hbefore rfl,
        trail_of_abort hbefore _⟩
  | @rejected _ before v _ _ o hbefore _ _ hrejected =>
      -- The refused operation has given up already, so giving up again adds no state.
      have htold : Told w v _ := told_of_waiting hbefore
      refine ⟨_, trail_isPrefix_milestones hbefore, htold, ?_⟩
      have hopen := isTerminal_of_reaches hbefore
      have hgone : (v.operate o).registration = v.registration.abort (Failure.ofError e) :=
        Registration.registration_of_result_error (k := v.callOf o) hrejected
      have hdone : (v.operate o).registration.stage.state.isTerminal = true := by
        rw [hgone]
        exact Registration.isTerminal_stage_abort _ _
      rw [List.append_assoc, Registration.trail_append, after_of_reaches hbefore,
        Registration.trail_append, Registration.trail_of_gone (k := v.callOf o) hopen hgone]
      exact congrArg _ (congrArg _ (Registration.trail_of_isTerminal hdone _))

theorem trail_of_finish (h : Reaches env w (.settled .deviceRegistration) made u) :
    Registration.trail u.registration [u.callOf .finish] =
        [(u.registration.finish u.tape).registration.state] ∧
      (forall c, (u.registration.finish u.tape).result = .ok c ->
        (u.registration.finish u.tape).registration.state = .done) ∧
      (forall e, (u.registration.finish u.tape).result = .error e ->
        (u.registration.finish u.tape).registration.state = .failed (Failure.ofError e)) := by
  have hresult : u.resultOf .finish =
      (u.registration.finish u.tape).result.map Registration.Product.credentials :=
    rfl
  cases hfinish : (u.registration.finish u.tape).result with
  | ok c =>
      rw [hfinish] at hresult
      rcases advances_of_resultOf hresult Registration.Kind.noConfusion with ⟨s, hadvance, -⟩
      have htrail : Registration.trail u.registration [u.callOf .finish] = [.done] :=
        Registration.trail_of_advances hadvance
      have hstate : (u.registration.finish u.tape).registration.state = .done :=
        Registration.state_of_trail htrail
      exact ⟨hstate ▸ htrail, fun _ _ => hstate, nofun⟩
  | error e =>
      rw [hfinish] at hresult
      have htrail : Registration.trail u.registration [u.callOf .finish] =
          [.failed (Failure.ofError e)] :=
        Registration.trail_of_gone (isTerminal_of_reaches h)
          (Registration.registration_of_result_error hresult)
      have hstate : (u.registration.finish u.tape).registration.state =
          .failed (Failure.ofError e) :=
        Registration.state_of_trail htrail
      refine ⟨hstate ▸ htrail, nofun, ?_⟩
      rintro _ ⟨rfl⟩
      exact hstate

/-!
## What was shown in the end
-/

theorem callbacks_of_told {passed : List State} {final : State} (h : Told w u passed)
    (hevents : v.events = u.events ++ (trailing env.config outcome).map .call ++
      [.state final, closing outcome]) :
    w.events <+: v.events ∧ callbacks w v = account passed final outcome := by
  rcases h with ⟨more, hmore, hshown⟩
  have hquiet : ((trailing env.config outcome).map Event.call).filter Event.isCallback = [] := by
    rw [List.filter_eq_nil_iff]
    intro event hevent
    rcases List.mem_map.mp hevent with ⟨c, -, rfl⟩
    exact Bool.false_ne_true
  have hlast : [.state final, closing outcome].filter Event.isCallback =
      [.state final, closing outcome] := by
    cases outcome <;> rfl
  rw [hmore, List.append_assoc, List.append_assoc] at hevents
  refine ⟨hevents ▸ List.prefix_append _ _, ?_⟩
  rw [callbacks, hevents, List.drop_left, List.filter_append, List.filter_append, hshown,
    hquiet, hlast]
  rfl

theorem shows_of_told {calls : List Registration.Call} {passed : List State} {final : State}
    (hmakes : Makes env w calls outcome)
    (hregistration : v.registration =
      Registration.after (Registration.new env.config) calls)
    (htold : Told w u passed)
    (hevents : v.events = u.events ++ (trailing env.config outcome).map .call ++
      [.state final, closing outcome])
    (htrail : Registration.trail (Registration.new env.config) calls = passed ++ [final])
    (hpassed : passed <+: milestones)
    (hok : forall c, outcome = .ok c -> passed = milestones ∧ final = .done)
    (herror : forall e, outcome = .error e -> final = .failed (Failure.ofError e)) :
    Shows env w calls outcome v := by
  rcases callbacks_of_told htold hevents with ⟨hgrows, hcallbacks⟩
  exact {
    makes := hmakes
    registration := hregistration
    grows := hgrows
    begins := by rw [hcallbacks, account, List.head?_cons]
    states := by rw [hcallbacks, states_account, htrail]
    succeeds := by
      intro c hc
      rw [htrail, (hok c hc).1, (hok c hc).2]
    fails := by
      intro e he
      exact ⟨passed, hpassed, by rw [htrail, herror e he]⟩
    ends := by
      rw [hcallbacks, account, ← List.cons_append, List.getLast?_append]
      rfl
    complete_iff := by
      rw [hcallbacks, mem_account_iff Event.noConfusion (fun _ => Event.noConfusion)
        Event.noConfusion]
      cases outcome <;> simp [closing]
    failed_iff := by
      intro e
      rw [hcallbacks, mem_account_iff Event.noConfusion (fun _ => Event.noConfusion)
        Event.noConfusion]
      cases outcome <;> simp [closing, eq_comm]
    asks_once := by
      rw [hcallbacks, count_pinAsked_account]
      exact (hpassed.sublist.count_le _).trans (by decide)
    asks_behind := by
      intro before after h
      exact asks_behind_account (hcallbacks.symm.trans h) }

end

theorem user_sees_what_happened (env : Environment) (w : World) :
    exists calls, Shows env w calls (pair env w).1 (pair env w).2 := by
  have hends := ends_steps env w
  cases hsteps : steps env (w.fresh env) with
  | ok x u =>
      rw [hsteps] at hends
      rcases hends with ⟨made, hreaches⟩
      rcases pair_of_ok hsteps with ⟨houtcome, hregistration, hevents⟩
      have hafter : (pair env w).2.registration = Registration.after
          (Registration.new env.config) (made ++ [u.callOf .finish]) := by
        rw [hregistration, Registration.after_append, after_of_reaches hreaches]
        rfl
      have hpassed : Registration.trail (Registration.new env.config) made = milestones :=
        trail_of_reaches hreaches
      have htold : Told w u milestones :=
        hpassed ▸ told_of_reaches hreaches (List.append_nil _).symm
      rcases trail_of_finish hreaches with ⟨hlast, hok, herror⟩
      refine ⟨made ++ [u.callOf .finish], ?_⟩
      rw [houtcome]
      refine shows_of_told (.finished hreaches) hafter htold hevents ?_ List.prefix_rfl
        (fun c hc => ⟨rfl, hok c hc⟩) herror
      rw [Registration.trail_append, after_of_reaches hreaches, hpassed, hlast]
  | error e u =>
      rw [hsteps] at hends
      rcases hends with ⟨made, hhalts⟩
      rcases pair_of_error hsteps with ⟨houtcome, hregistration, hevents⟩
      rcases told_of_halts hhalts with ⟨passed, hpassed, htold, htrail⟩
      have hstate : (u.registration.abort (Failure.ofError e)).state =
          .failed (Failure.ofError e) :=
        congrArg Registration.Stage.state (stage_of_halts hhalts)
      rw [hstate] at hevents
      refine ⟨made ++ [u.callOf (.abort (Failure.ofError e))], ?_⟩
      rw [houtcome]
      refine shows_of_told (.halted hhalts) ?_ htold hevents htrail hpassed nofun ?_
      · rw [hregistration, Registration.after_append, after_of_halts hhalts]
        rfl
      · rintro _ ⟨rfl⟩
        rfl

end Session
end PaperPairing
