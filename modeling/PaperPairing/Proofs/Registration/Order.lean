import PaperPairing.Proofs.Registration.HonestRun

/-!
# The one order of steps

A registration goes through its operations in one order, each of them once.
Whatever succeeds, giving up aside, is the next word of that order, and after a
failure or after giving up nothing succeeds any more.
-/

namespace PaperPairing
namespace Registration

inductive Kind where
  | start
  | acceptHashResponse
  | requestCertificate
  | acceptCertificate
  | requestRegistration
  | confirm
  | finish
  | abort
deriving DecidableEq

def Operation.kind : Operation -> Kind
  | .start _ => .start
  | .acceptHashResponse _ => .acceptHashResponse
  | .requestCertificate _ => .requestCertificate
  | .acceptCertificate _ => .acceptCertificate
  | .requestRegistration _ _ => .requestRegistration
  | .confirm => .confirm
  | .finish => .finish
  | .abort _ => .abort

def Call.kind (k : Call) : Kind :=
  k.operation.kind

def order : List Kind :=
  [.start, .acceptHashResponse, .requestCertificate, .acceptCertificate,
    .requestRegistration, .confirm, .finish]

theorem nodup_order : order.Nodup := by
  decide

/-- The kinds of the calls that succeeded, giving up aside. -/
def accepted (r : Registration) : List Call -> List Kind
  | [] => []
  | k :: calls =>
      match (k.outcome r).result with
      | .ok _ =>
          if k.kind = .abort then accepted (k.outcome r).registration calls
          else k.kind :: accepted (k.outcome r).registration calls
      | .error _ => accepted (k.outcome r).registration calls

/-- What is left of the order in a stage; nothing is left in a terminal one. -/
def Stage.remaining : Stage -> List Kind
  | .init => order
  | .pinRequested _ => order.drop 1
  | .keyExchanged _ _ => order.drop 2
  | .caRequested _ _ _ => order.drop 3
  | .caVerified _ _ _ _ _ => order.drop 4
  | .registrationRequested _ _ _ _ _ _ _ => order.drop 5
  | .deviceRegistered _ _ _ => order.drop 6
  | .done | .failed _ => []

theorem remaining_of_advances {n : Nat} {k : Call} {s s' : Stage} {a : Product}
    (h : Advances n s k a s') : s.remaining = k.kind :: s'.remaining := by
  cases h <;> rfl

theorem kind_ne_abort_of_advances {n : Nat} {k : Call} {s s' : Stage} {a : Product}
    (h : Advances n s k a s') : k.kind ≠ .abort := by
  cases h <;> exact Kind.noConfusion

theorem kind_eq_abort {k : Call} {reason : Failure} (h : k.operation = .abort reason) :
    k.kind = .abort := by
  rw [Call.kind, h]
  rfl

/-!
## Nothing succeeds after the end
-/

theorem result_of_isTerminal {r : Registration} (hr : r.stage.state.isTerminal = true)
    {k : Call} (hk : k.kind ≠ .abort) : exists e, (k.outcome r).result = .error e := by
  rcases outcome_cases k r with ⟨a, s, hadvance, -, -⟩ | ⟨reason, habort, -, -⟩ | ⟨e, he, -⟩
  · exact (not_advances_of_isTerminal hr hadvance).elim
  · exact (hk (kind_eq_abort habort)).elim
  · exact ⟨e, he⟩

theorem accepted_of_isTerminal {r : Registration} (hr : r.stage.state.isTerminal = true)
    (calls : List Call) : accepted r calls = [] := by
  induction calls with
  | nil => rfl
  | cons k calls ih =>
      rw [accepted, outcome_of_isTerminal hr, ih]
      by_cases hk : k.kind = .abort
      · rw [if_pos hk]
        split <;> rfl
      · rcases result_of_isTerminal hr hk with ⟨e, he⟩
        rw [he]

theorem isTerminal_outcome {k : Call} {r : Registration}
    (h : k.kind = .abort ∨ exists e, (k.outcome r).result = .error e) :
    (k.outcome r).registration.stage.state.isTerminal = true := by
  rcases outcome_cases k r with ⟨a, s, hadvance, hresult, -⟩ | ⟨reason, -, -, hend⟩ |
    ⟨e, -, hend⟩
  · rcases h with hk | ⟨e, he⟩
    · exact (kind_ne_abort_of_advances hadvance hk).elim
    · rw [hresult] at he
      cases he
  · rw [hend]
    exact isTerminal_stage_abort r reason
  · rw [hend]
    exact isTerminal_stage_abort r (Failure.ofError e)

theorem result_behind_error {r : Registration} {calls more : List Call} {last k : Call}
    {e : Error} (h : (last.outcome (after r calls)).result = .error e)
    (hk : k.kind ≠ .abort) :
    exists e, (k.outcome (after r (calls ++ last :: more))).result = .error e := by
  have hterminal := isTerminal_outcome (.inr ⟨e, h⟩)
  rw [after_append, after, after_of_isTerminal hterminal]
  exact result_of_isTerminal hterminal hk

/-!
## Successes follow the order
-/

theorem accepted_prefix_remaining (r : Registration) (calls : List Call) :
    accepted r calls <+: r.stage.remaining := by
  induction calls generalizing r with
  | nil => exact List.nil_prefix
  | cons k calls ih =>
      rcases outcome_cases k r with ⟨a, s, hadvance, hresult, hnext⟩ |
        ⟨reason, habort, hresult, hend⟩ | ⟨e, hresult, hend⟩
      · have hrest := ih (k.outcome r).registration
        rw [hnext] at hrest
        rw [accepted, hresult, hnext, remaining_of_advances hadvance]
        show (if k.kind = .abort then _ else _) <+: _
        rw [if_neg (kind_ne_abort_of_advances hadvance)]
        exact List.prefix_cons_inj k.kind |>.mpr hrest
      · rw [accepted, hresult, hend]
        show (if k.kind = .abort then _ else _) <+: _
        rw [if_pos (kind_eq_abort habort),
          accepted_of_isTerminal (isTerminal_stage_abort r reason)]
        exact List.nil_prefix
      · rw [accepted, hresult, hend]
        show accepted (r.abort (Failure.ofError e)) calls <+: _
        rw [accepted_of_isTerminal (isTerminal_stage_abort r (Failure.ofError e))]
        exact List.nil_prefix

/-- Every run marches on, or ends in a terminal stage. -/
theorem marches_or_isTerminal (r : Registration) (calls : List Call) :
    (exists products,
      Marches r.secretLength.toNat r.stage calls products (after r calls).stage) ∨
      (after r calls).stage.state.isTerminal = true := by
  induction calls generalizing r with
  | nil => exact .inl ⟨[], .nil⟩
  | cons k calls ih =>
      rcases advances_or_isTerminal k r with ⟨a, s, hadvance, hnext⟩ | hterminal
      · rw [after, hnext]
        rcases ih { r with stage := s } with ⟨products, hmarch⟩ | hterminal
        · exact .inl ⟨a :: products, .cons hadvance hmarch⟩
        · exact .inr hterminal
      · rw [after, after_of_isTerminal hterminal]
        exact .inr hterminal

/-!
## The run behind the credentials
-/

/-- A row of calls that ends with the acknowledgement: the certificate is what
the fourth call unwrapped, and identifier and identity are those of the fifth. -/
structure Registers (config : Config) (calls : List Call) (certificate clientId : String)
    (identity : Identity) : Prop where
  shape : exists challenge hashResponse caResponse pin t1 t2 t3 t4 t5 t6,
    calls = [⟨.start challenge, t1⟩, ⟨.acceptHashResponse hashResponse, t2⟩,
      ⟨.requestCertificate pin, t3⟩, ⟨.acceptCertificate caResponse, t4⟩,
      ⟨.requestRegistration clientId identity, t5⟩, ⟨.confirm, t6⟩] ∧
    exists x response payload,
      (after (new config) (calls.take 3)).stage.exchange? = some x ∧
      (Message.ofBody caResponse : Except Error CaResponse) = .ok response ∧
      Wrap.unwrap? x.keys response.wrappedCertificate = some payload ∧
      Certificate.normalize (payload.drop config.secretLength.toNat) = .ok certificate
  certificate_accepted :
    (after (new config) (calls.take 4)).stage.certificate? = some certificate
  results_eq : exists hashRequest caRequest registrationRequest,
    results (new config) calls = [.ok (.request hashRequest), .ok .nothing,
      .ok (.request caRequest), .ok .nothing, .ok (.request registrationRequest),
      .ok .nothing]

theorem exists_head_of_marches {n : Nat} {s s' : Stage} {calls : List Call}
    {products : List Product} (h : Marches n s calls products s')
    (hne : s.remaining ≠ s'.remaining) :
    exists k rest a next later, calls = k :: rest ∧ products = a :: later ∧
      Advances n s k a next ∧ Marches n next rest later s' := by
  cases h with
  | nil => exact (hne rfl).elim
  | cons head tail => exact ⟨_, _, _, _, _, rfl, rfl, head, tail⟩

/-- A march takes the words of the order that lie between its stages. -/
theorem remaining_of_marches {n : Nat} {s s' : Stage} {calls : List Call}
    {products : List Product} (h : Marches n s calls products s') :
    s.remaining = calls.map Call.kind ++ s'.remaining := by
  induction h with
  | nil => rfl
  | cons head _ ih => rw [remaining_of_advances head, ih, List.map_cons, List.cons_append]

theorem eq_nil_of_marches {n : Nat} {s s' : Stage} {calls : List Call}
    {products : List Product} (h : Marches n s calls products s')
    (heq : s.remaining = s'.remaining) : calls = [] ∧ products = [] ∧ s = s' := by
  have hcalls := remaining_of_marches h
  rw [heq, List.self_eq_append_left, List.map_eq_nil_iff] at hcalls
  cases h with
  | nil => exact ⟨rfl, rfl, rfl⟩
  | cons => cases hcalls

theorem registers_of_marches {config : Config} {calls : List Call}
    {products : List Product} {certificate clientId : String} {identity : Identity}
    (h : Marches config.secretLength.toNat .init calls products
      (.deviceRegistered certificate clientId identity)) :
    Registers config calls certificate clientId identity := by
  have hrun := run_of_marches h (r := new config) rfl rfl
  rcases exists_head_of_marches h (by intro h; cases h) with
    ⟨k1, rest, a1, s1, later, rfl, rfl, h1, h⟩
  have first := h1
  cases h1
  rcases exists_head_of_marches h (by intro h; cases h) with
    ⟨k2, rest, a2, s2, later, rfl, rfl, h2, h⟩
  have second := h2
  cases h2
  rcases exists_head_of_marches h (by intro h; cases h) with
    ⟨k3, rest, a3, s3, later, rfl, rfl, h3, h⟩
  have third := h3
  cases h3
  rcases exists_head_of_marches h (by intro h; cases h) with
    ⟨k4, rest, a4, s4, later, rfl, rfl, h4, h⟩
  have fourth := h4
  rcases h4 with _ | _ | _ | ⟨hread, -, -, hopen, -, -, hcertificate⟩
  rcases exists_head_of_marches h (by intro h; cases h) with
    ⟨k5, rest, a5, s5, later, rfl, rfl, h5, h⟩
  cases h5
  rcases exists_head_of_marches h (by intro h; cases h) with
    ⟨k6, rest, a6, s6, later, rfl, rfl, h6, h⟩
  cases h6
  rcases eq_nil_of_marches h rfl with ⟨rfl, rfl, hend⟩
  cases hend
  have hthree := run_of_marches (.cons first (.cons second (.cons third .nil)))
    (r := new config) rfl rfl
  have hfour := run_of_marches
    (.cons first (.cons second (.cons third (.cons fourth .nil)))) (r := new config) rfl rfl
  refine ⟨⟨_, _, _, _, _, _, _, _, _, _, rfl, _, _, _, ?_, hread, hopen, hcertificate⟩, ?_,
    ⟨_, _, _, hrun.1⟩⟩
  · exact congrArg (fun r => r.stage.exchange?) hthree.2
  · exact congrArg (fun r => r.stage.certificate?) hfour.2

theorem registers_of_finish {config : Config} {calls : List Call} {k : Call} {a : Product}
    (hk : k.kind = .finish) (h : (k.outcome (after (new config) calls)).result = .ok a) :
    exists (c : Credentials) (identity : Identity), a = .credentials c ∧
      Registers config calls c.certificate c.clientId identity ∧
      identity.privateText = .ok c.privateKey := by
  rcases outcome_cases k (after (new config) calls) with ⟨b, s, hadvance, hresult, -⟩ |
    ⟨reason, habort, -, -⟩ | ⟨e, hresult, -⟩
  · rw [hresult] at h
    cases h
    rcases marches_or_isTerminal (new config) calls with ⟨products, hmarch⟩ | hterminal
    · generalize hs : (after (new config) calls).stage = s at hadvance hmarch
      cases hadvance with
      | finish hkey => exact ⟨_, _, rfl, registers_of_marches hmarch, hkey⟩
      | _ => cases hk
    · exact (not_advances_of_isTerminal hterminal hadvance).elim
  · rw [kind_eq_abort habort] at hk
    cases hk
  · rw [hresult] at h
    cases h

/-- Whatever is called: the successes are the beginning of the order, each at
most once; after a failure or after giving up only giving up succeeds; and the
credentials end the one row of calls that was made. -/
theorem steps_have_one_order (config : Config) (calls : List Call) :
    (accepted (new config) calls <+: order ∧ (accepted (new config) calls).Nodup) ∧
    (forall (k l : Call) (more : List Call),
      (k.kind = .abort ∨ exists e, (k.outcome (after (new config) calls)).result = .error e) ->
      l.kind ≠ .abort ->
      exists e, (l.outcome (after (new config) (calls ++ k :: more))).result = .error e) ∧
    (forall (k : Call) (a : Product), k.kind = .finish ->
      (k.outcome (after (new config) calls)).result = .ok a ->
      exists (c : Credentials) (identity : Identity), a = .credentials c ∧
        Registers config calls c.certificate c.clientId identity ∧
        identity.privateText = .ok c.privateKey) := by
  have hbegin : accepted (new config) calls <+: order :=
    accepted_prefix_remaining (new config) calls
  refine ⟨⟨hbegin, hbegin.sublist.nodup nodup_order⟩, ?_, ?_⟩
  · intro k l more hend hl
    have hterminal := isTerminal_outcome hend
    rw [after_append, after, after_of_isTerminal hterminal]
    exact result_of_isTerminal hterminal hl
  · intro k a hk h
    exact registers_of_finish hk h

def sampleCallsToAcknowledgement : List Call :=
  sampleCallsToCertificate ++
    [⟨.requestRegistration "a client" sampleIdentity, sampleTape⟩, ⟨.confirm, sampleTape⟩]

theorem sample_finish :
    exists key certificate, sampleIdentity.privateText = .ok key ∧
      (Call.outcome ⟨.finish, sampleTape⟩
        (after (new Config.default) sampleCallsToAcknowledgement)).result =
        .ok (.credentials ⟨certificate, key, "a client"⟩) := by
  rcases exists_privateText_sampleIdentity with ⟨key, hkey⟩
  rcases sample_marches_to_certificate with ⟨x, c, p, r, certificate, products, hmarch⟩
  have hmore : Marches Config.default.secretLength.toNat (.caVerified x c p r certificate)
      [⟨.requestRegistration "a client" sampleIdentity, sampleTape⟩, ⟨.confirm, sampleTape⟩]
      _ (.deviceRegistered certificate "a client" sampleIdentity) :=
    .cons .requestRegistration (.cons .confirm .nil)
  have hrun := run_of_marches (hmarch.append hmore) (r := new Config.default) rfl rfl
  refine ⟨key, certificate, hkey, ?_⟩
  rw [sampleCallsToAcknowledgement, hrun.2]
  exact (outcome_of_advances (.finish hkey)).1

theorem steps_have_one_order_after_sample :
    exists (c : Credentials) (identity : Identity),
      Registers Config.default sampleCallsToAcknowledgement c.certificate c.clientId identity ∧
      identity.privateText = .ok c.privateKey ∧ c.clientId = "a client" ∧
      exists e, (Call.outcome ⟨.finish, sampleTape⟩ (after (new Config.default)
        (sampleCallsToAcknowledgement ++ [⟨.abort .cancelled, sampleTape⟩]))).result =
        .error e := by
  rcases sample_finish with ⟨key, certificate, hkey, hfinish⟩
  have hall := steps_have_one_order Config.default sampleCallsToAcknowledgement
  rcases hall.2.2 _ _ rfl hfinish with ⟨c, identity, hc, hregisters, hidentity⟩
  cases hc
  exact ⟨_, identity, hregisters, hidentity, rfl,
    hall.2.1 ⟨.abort .cancelled, sampleTape⟩ ⟨.finish, sampleTape⟩ [] (.inl rfl)
      (by decide)⟩

end Registration
end PaperPairing
