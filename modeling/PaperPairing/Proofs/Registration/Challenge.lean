import PaperPairing.Proofs.Group.Projection
import PaperPairing.Proofs.Registration.HonestRun

/-!
# Leading zero bytes of a contribution

Two challenges whose contributions spell the same number start the same exchange.
Nothing of the spelling is left in what a registration sends or holds, so that it
goes the same way behind either of them.
-/

namespace PaperPairing

/-!
## Spellings of one number
-/

theorem Bytes.padLeft_eq_of_toNat_eq {a b : Bytes} (h : toNat a = toNat b) :
    padLeft b.length a = padLeft a.length b := by
  have hlength : (padLeft b.length a).length = (padLeft a.length b).length := by
    simp only [padLeft, List.length_append, List.length_replicate]
    omega
  have ha := ofNat_toNat (padLeft b.length a)
  rw [toNat_padLeft, hlength, h, ← toNat_padLeft a.length b, ofNat_toNat] at ha
  exact ha.symm

theorem Modp2048.project_congr {a b : Bytes} (h : a.toNat = b.toNat) :
    project a = project b := by
  rw [project_eq, project_eq, h]

/-- Challenges that differ at most in how the contribution is spelled. -/
structure PinChallenge.SameValue (c c' : PinChallenge) : Prop where
  nonce1_eq : c.nonce1 = c'.nonce1
  mac_eq : c.mac = c'.mac
  toNat_eq : c.contribution.toNat = c'.contribution.toNat

namespace Registration

section

variable {c c' : PinChallenge} {body body' : Bytes}

theorem exchangeOf_congr (h : c.SameValue c') (nonce2 : Nonce) (pair : Modp2048.KeyPair) :
    Stage.exchangeOf c nonce2 pair = Stage.exchangeOf c' nonce2 pair := by
  rw [Stage.exchangeOf, Stage.exchangeOf, Modp2048.project_congr h.toNat_eq, h.nonce1_eq,
    h.mac_eq]

theorem stage_start_congr (h : c.SameValue c')
    (hread : (Message.ofBody body : Except Error PinChallenge) = .ok c)
    (hread' : (Message.ofBody body' : Except Error PinChallenge) = .ok c') (s : Stage)
    (nonce2 : Nonce) (pair : Modp2048.KeyPair) :
    s.start body nonce2 pair = s.start body' nonce2 pair := by
  cases s with
  | init =>
      simp only [Stage.start, hread, hread', exchangeOf_congr h, bind, Except.bind]
  | _ => rfl

theorem start_congr (h : c.SameValue c')
    (hread : (Message.ofBody body : Except Error PinChallenge) = .ok c)
    (hread' : (Message.ofBody body' : Except Error PinChallenge) = .ok c')
    (r : Registration) (t : Tape) : r.start body t = r.start body' t := by
  rw [start, start]
  exact congrArg (r.apply _) (stage_start_congr h hread hread' r.stage _ _)

end

/-!
## Runs on one tape
-/

/-- What a row of operations gives back, with the registration and the tape behind each
of them; every operation draws where the one before has stopped. -/
def course (r : Registration) (t : Tape) : List Operation -> List (Outcome Product)
  | [] => []
  | o :: operations =>
      r.perform t o :: course (r.perform t o).registration (r.perform t o).tape operations

/-- Two new registrations on one tape, of which each is given its own spelling of the
contribution: the hash request or the error is the same, and so is everything that any
further operations give back and leave behind. -/
theorem leading_zeros_do_not_matter (config : Config) (t : Tape) {c c' : PinChallenge}
    {body body' : Bytes} (h : c.SameValue c')
    (hread : (Message.ofBody body : Except Error PinChallenge) = .ok c)
    (hread' : (Message.ofBody body' : Except Error PinChallenge) = .ok c') :
    (Bytes.padLeft c'.contribution.length c.contribution =
      Bytes.padLeft c.contribution.length c'.contribution) ∧
    ((new config).start body t).result = ((new config).start body' t).result ∧
    forall operations, course (new config) t (.start body :: operations) =
      course (new config) t (.start body' :: operations) := by
  have hstart := start_congr h hread hread' (new config) t
  have hperform : (new config).perform t (.start body) = (new config).perform t (.start body') :=
    congrArg (Outcome.map Product.request) hstart
  refine ⟨Bytes.padLeft_eq_of_toNat_eq h.toNat_eq, congrArg Outcome.result hstart, ?_⟩
  intro operations
  rw [course, course, hperform]

theorem leading_zeros_do_not_matter_at_generator :
    let challenge : PinChallenge := { sampleDevice.challenge with contribution := [2] }
    sampleDevice.challenge.SameValue challenge ∧
      sampleDevice.challenge.contribution.length = 257 ∧
      (exists request, ((new Config.default).start (Message.toBody challenge) sampleTape).result =
        .ok request) ∧
      forall operations,
        course (new Config.default) sampleTape
            (.start (Message.toBody sampleDevice.challenge) :: operations) =
          course (new Config.default) sampleTape
            (.start (Message.toBody challenge) :: operations) := by
  intro challenge
  have hsame : sampleDevice.challenge.SameValue challenge :=
    ⟨rfl, rfl, Modp2048.KeyPair.toNat_publicKey_of_exponent_eq_one rfl⟩
  rcases leading_zeros_do_not_matter Config.default sampleTape hsame (Message.ofBody_toBody _)
    (Message.ofBody_toBody _) with ⟨-, hresult, hcourse⟩
  refine ⟨hsame, Modp2048.KeyPair.length_publicKey _, ?_, hcourse⟩
  have hexchange := sampleDevice.exchangeOf_challenge sampleTape.first sampleTape.pair
    (validate_publicKey_of_exponent_eq_one rfl)
  have hadvance := (outcome_of_advances (r := new Config.default)
    (.start (t := sampleTape) (Message.ofBody_toBody sampleDevice.challenge) hexchange)).1
  change (Outcome.result _).map Product.request = _ at hadvance
  rw [hresult] at hadvance
  cases h : ((new Config.default).start (Message.toBody challenge) sampleTape).result with
  | ok request => exact ⟨request, rfl⟩
  | error e =>
      rw [h] at hadvance
      cases hadvance

end Registration
end PaperPairing
