import LineClient.Link.Connection
import LineClient.Link.Stage
import LineClient.Proofs.Link.Visit
import Mathlib.Tactic.SplitIfs

/-!
# The stage during a connection

While a client keeps its connection, only this one visit changes on the stage; what the server has
read on earlier connections stays. The server gets its turn whenever the client waits, and a client
that finds nothing to read waits.

* `Stage.past`, `Stage.received_eq`, the lines read on the connections that the client has left;
* `Stage.Plays`, the connection of the client and what stays the same around it;
* `Stage.Waits`, the stage without a connection of the client;
* **`Stage.Plays.read`**, a reading finds what waits after the turn of the server.
-/

namespace LineClient

theorem Wire.read_of_not_readable {w : Wire} {max : Nat} (h : ¬ w.readable = true) :
    w.read max = (.silence, w) := by
  obtain ⟨inbound, outbound, ended, broken, closed⟩ := w
  cases inbound <;> cases ended <;> cases broken <;> simp_all [Wire.readable, Wire.read]

namespace Stage

variable (s : Stage)

@[simp] theorem signTimeAfter_false : s.signTimeAfter false = s.signTime := by
  simp [signTimeAfter]

/-- The stage says nothing against a farewell. -/
theorem closeLink_host : closeLink host = dropLink host := rfl

/-! ## What stays the same during a connection -/

/-- The lines that the server has read on the connections that the client has left, once it has
looked at all of them. -/
def past : List (List (List UInt8)) := (s.left.map (·.attend.1.lines.reverse) ++ s.done).reverse

theorem past_settle : s.settle.past = s.past := by
  simp [settle, past]

theorem past_leave : s.leave.past = s.received := by
  have hdone : s.received = s.leave.settle.past := by simp [received, settle, past]
  rw [hdone, past_settle]

theorem received_eq {v : Visit} (h : s.current = some v) :
    s.received = s.past ++ [v.attend.1.lines.reverse] := by
  rw [← past_leave]
  simp [leave, past, h]

/-- What does not change as long as the client keeps its connection. -/
structure Scene where
  address : String
  reach : Reach
  count : Nat
  past : List (List (List UInt8))

/-- What does not change on the stage as long as the client keeps its connection. -/
def scene : Scene := ⟨s.address, s.reach, s.count, s.past⟩

theorem scene_settle : s.settle.scene = s.scene := by
  simp only [scene, past_settle]
  rfl

/-- No sign to stop comes, unless the server gives it later. -/
structure Calm : Prop where
  trigger : s.trigger = .none
  cancelled : s.cancelled = false
  left : ∀ v ∈ s.left, v.Quiet

/-- The connection of the client is `v`, the rest is `scene`; if wanted, no sign to stop comes. -/
structure Plays (calm : Prop) (scene : Scene) (v : Visit) : Prop where
  scene : s.scene = scene
  current : s.current = some v
  calm : calm → s.Calm

variable {s} {calm : Prop} {scene : Scene} {v v' : Visit}

theorem Calm.of_eq {s' : Stage} (h : s.Calm) (htrigger : s'.trigger = s.trigger)
    (hcancelled : s'.cancelled = s.cancelled) (hleft : s'.left = s.left) : s'.Calm where
  trigger := htrigger.trans h.trigger
  cancelled := hcancelled.trans h.cancelled
  left v hv := h.left v (hleft ▸ hv)

theorem Calm.observe (h : s.Calm) (a : Action) : (s.observe a).Calm where
  trigger := by simp [Stage.observe, h.trigger, Trigger.observe]
  cancelled := by simp [Stage.observe, h.trigger, h.cancelled, Trigger.observe]
  left := h.left

theorem Calm.settle (h : s.Calm) : s.settle.Calm where
  trigger := h.trigger
  cancelled := by
    have hleft : ∀ v ∈ s.left, v.attend.2 = false := fun v hv => by
      rw [Visit.attend_of_quiet (h.left v hv)]
    simpa [Stage.settle, h.cancelled] using hleft
  left := by simp [Stage.settle]

namespace Plays

theorem observe (h : s.Plays calm scene v) (a : Action) : (s.observe a).Plays calm scene v :=
  ⟨h.scene, h.current, fun hc => (h.calm hc).observe a⟩

theorem observeAll (h : s.Plays calm scene v) (as : List Action) :
    (as.foldl (fun s a => s.observe a) s).Plays calm scene v := by
  induction as generalizing s with
  | nil => exact h
  | cons a as ih => exact ih (h.observe a)

/-- Anything else about the stage may change. -/
theorem withClock (h : s.Plays calm scene v) (clock : Duration) :
    ({ s with clock } : Stage).Plays calm scene v :=
  ⟨h.scene, h.current, fun hc => (h.calm hc).of_eq rfl rfl rfl⟩

theorem withVisit (h : s.Plays calm scene v) (v' : Visit) :
    ({ s with current := some v' } : Stage).Plays calm scene v' :=
  ⟨h.scene, rfl, fun hc => (h.calm hc).of_eq rfl rfl rfl⟩

theorem attend (h : s.Plays calm scene v) (hv : v.attend = (v', false)) :
    s.attend.Plays calm scene v' := by
  have hcurrent : s.settle.current = some v := h.current
  have hattend : s.attend = { s.settle with current := some v' } := by
    simp only [Stage.attend, hcurrent, hv, Bool.or_false, signTimeAfter_false]
  rw [hattend]
  refine ⟨(scene_settle s).trans h.scene, rfl, fun hc => ?_⟩
  exact (h.calm hc).settle.of_eq rfl rfl rfl

theorem pause (h : s.Plays calm scene v) (hv : v.attend = (v', false)) (d : Duration) :
    (s.pause d).Plays calm scene v ∨ (s.pause d).Plays calm scene v' := by
  unfold Stage.pause
  split_ifs
  · exact .inl h
  · exact .inr ((h.attend hv).withClock _)

theorem readable (h : s.Plays calm scene v) : s.readable = v.wire.readable := by
  rw [Stage.readable, h.current]; rfl

theorem readWaiting (h : s.Plays calm scene v) (max : Nat) :
    (s.readWaiting max).1 = (v.wire.read max).1 ∧
      (s.readWaiting max).2.Plays calm scene { v with wire := (v.wire.read max).2 } := by
  simp only [Stage.readWaiting, h.current, true_and]
  exact h.withVisit _

/-- **A reading finds what waits after the turn of the server**, unless something waits before. -/
theorem read (h : s.Plays calm scene v) (hv : v.attend = (v', false))
    (hsame : v.wire.readable = true → v' = v) (max : Nat) {wait : Duration} (hwait : wait ≠ .zero) :
    (s.read max wait).1 = (v'.wire.read max).1 ∧
      (s.read max wait).2.Plays calm scene { v' with wire := (v'.wire.read max).2 } := by
  unfold Stage.read
  by_cases hreadable : v.wire.readable = true
  · rw [if_pos (.inl (h.readable.trans hreadable)), hsame hreadable]
    exact h.readWaiting max
  · rw [if_neg (by rw [h.readable]; simp [hreadable, hwait])]
    have hattend := h.attend hv
    by_cases hthen : v'.wire.readable = true
    · rw [if_pos (hattend.readable.trans hthen)]
      exact hattend.readWaiting max
    · rw [if_neg (by rw [hattend.readable]; exact hthen), Wire.read_of_not_readable hthen]
      exact ⟨rfl, hattend.withClock _⟩

end Plays

/-- The client has no connection, the stage is `scene`; if wanted, no sign to stop comes. -/
structure Waits (s : Stage) (calm : Prop) (scene : Scene) : Prop where
  scene : s.scene = scene
  current : s.current = none
  calm : calm → s.Calm

namespace Waits

theorem observe (h : s.Waits calm scene) (a : Action) : (s.observe a).Waits calm scene :=
  ⟨h.scene, h.current, fun hc => (h.calm hc).observe a⟩

theorem attend (h : s.Waits calm scene) : s.attend.Waits calm scene := by
  have hcurrent : s.settle.current = none := h.current
  have hattend : s.attend = s.settle := by simp only [Stage.attend, hcurrent]
  rw [hattend]
  exact ⟨(scene_settle s).trans h.scene, hcurrent, fun hc => (h.calm hc).settle⟩

theorem pause (h : s.Waits calm scene) (d : Duration) : (s.pause d).Waits calm scene := by
  unfold Stage.pause
  split_ifs
  · exact h
  · refine ⟨h.attend.scene, h.attend.current, fun hc => ?_⟩
    exact (h.attend.calm hc).of_eq rfl rfl rfl

theorem leave (h : s.Waits calm scene) : s.leave = s := by
  rw [Stage.leave, h.current]

theorem received (h : s.Waits calm scene) : s.received = scene.past := by
  rw [← past_leave, h.leave, ← h.scene]; rfl

end Waits

theorem waits_leave (s : Stage) :
    s.leave.Waits False ⟨s.address, s.reach, s.count, s.received⟩ where
  scene := by
    rw [scene, past_leave]
    cases h : s.current <;> simp [Stage.leave, h]
  current := by cases h : s.current <;> simp [Stage.leave, h]
  calm := False.elim

theorem Plays.leave (h : s.Plays calm scene v) (hv : v.Quiet) :
    s.leave.Waits calm { scene with past := scene.past ++ [v.lines.reverse] } where
  scene := by
    have hpast : s.leave.past = scene.past ++ [v.lines.reverse] := by
      rw [past_leave, received_eq s h.current, Visit.attend_of_quiet hv, ← h.scene]; rfl
    rw [Stage.scene, hpast, ← h.scene]
    simp [Stage.leave, h.current, Stage.scene]
  current := by simp [Stage.leave, h.current]
  calm hc :=
    { trigger := by simp [Stage.leave, h.current, (h.calm hc).trigger]
      cancelled := by simp [Stage.leave, h.current, (h.calm hc).cancelled]
      left := by simpa [Stage.leave, h.current, hv] using (h.calm hc).left }

end Stage

end LineClient
