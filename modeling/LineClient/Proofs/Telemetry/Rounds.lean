import LineClient.Proofs.Link.Run
import LineClient.Telemetry.Supervisor

/-!
# Numbers of rounds

A number of rounds is one round after the other, at either end, and what is over stays as it is. So
what is true of the actions of one round, and of stretches put together, is true of all rounds.

* `Session.run_succ`, **`Session.run_add`**;
* `Supervision.run_succ`, **`Supervision.run_add`**, `Supervision.run_succ_last`;
* `Session.run_reaches`, **`Supervision.run_reaches`**, from one round to any number of them.
-/

namespace LineClient

variable {σ : Type} (r : Reader) (h : Host σ)

namespace Session

theorem run_over (rounds : Nat) (result : SessionEnd) (roundTrips : Nat) :
    run r h rounds (.over result roundTrips) = pure (.over result roundTrips) := by
  cases rounds <;> rfl

theorem run_succ (rounds : Nat) (session : Session) :
    run r h (rounds + 1) session = session.step r h >>= run r h rounds := by
  cases session with
  | «over» result roundTrips =>
    rw [run_over, step, pure_bind, run_over]
  | _ => rfl

/-- **Some rounds, and then more of them.** -/
theorem run_add (m n : Nat) (session : Session) :
    run r h (m + n) session = run r h m session >>= run r h n := by
  induction m generalizing session with
  | zero => rw [Nat.zero_add, run, pure_bind]
  | succ m ih =>
    rw [Nat.add_right_comm, run_succ, run_succ, bind_assoc]
    congr 1
    funext session'
    exact ih session'

/-- From one round of a session to any number of them. -/
theorem run_reaches {P : List Action → Prop} (hnil : P [])
    (happend : ∀ as as', P as → P as' → P (as ++ as'))
    (hstep : ∀ (session : Session) (s : σ), (session.step r h).Reaches s fun _ as _ => P as)
    (rounds : Nat) (session : Session) (s : σ) :
    (run r h rounds session).Reaches s fun _ as _ => P as := by
  induction rounds generalizing session s with
  | zero => exact hnil
  | succ rounds ih =>
    rw [run_succ]
    refine (hstep session s).bind fun session' as s' has => ?_
    exact (ih session' s').mono fun _ as' _ has' => happend as as' has has'

end Session

namespace Supervision

theorem run_over (rounds : Nat) (result : SessionEnd) :
    run r h rounds (.over result) = pure (.over result) := by
  cases rounds <;> rfl

theorem run_succ (rounds : Nat) (state : Supervision) :
    run r h (rounds + 1) state = state.step r h >>= run r h rounds := by
  cases state with
  | «over» result => rw [run_over, step, pure_bind, run_over]
  | running attempt session => rfl

/-- **Some rounds, and then more of them.** -/
theorem run_add (m n : Nat) (state : Supervision) :
    run r h (m + n) state = run r h m state >>= run r h n := by
  induction m generalizing state with
  | zero => rw [Nat.zero_add, run, pure_bind]
  | succ m ih =>
    rw [Nat.add_right_comm, run_succ, run_succ, bind_assoc]
    congr 1
    funext state'
    exact ih state'

theorem run_one (state : Supervision) : run r h 1 state = state.step r h := by
  rw [run_succ]
  exact bind_pure _

theorem run_succ_last (rounds : Nat) (state : Supervision) :
    run r h (rounds + 1) state = run r h rounds state >>= fun state => state.step r h := by
  rw [run_add]
  congr 1
  funext state'
  exact run_one r h state'

/-- **From one round to any number of them.** The invariant `I` of the states carries the
actions. -/
theorem run_reaches {I : Supervision → Prop} {P : List Action → Prop} (hnil : P [])
    (happend : ∀ as as', P as → P as' → P (as ++ as'))
    (hstep : ∀ (state : Supervision) (s : σ), I state →
      (state.step r h).Reaches s fun state' as _ => I state' ∧ P as)
    (rounds : Nat) {state : Supervision} (s : σ) (hstate : I state) :
    (run r h rounds state).Reaches s fun state' as _ => I state' ∧ P as := by
  induction rounds generalizing state s with
  | zero => exact ⟨hstate, hnil⟩
  | succ rounds ih =>
    rw [run_succ]
    refine (hstep state s hstate).bind fun state' as s' hstep' => ?_
    refine (ih s' hstep'.1).mono fun state'' as' s'' hrun => ?_
    exact ⟨hrun.1, happend as as' hstep'.2 hrun.2⟩

end Supervision

end LineClient
