import LineClient.Proofs.Link.Keeps
import LineClient.Proofs.Link.Stage

/-!
# The clock and the sign of the stage

On the stage only waiting moves the clock, and the first sign to stop is the one that counts.

* `Stage.Onward`, what no operation of the stage undoes;
* **`Stage.host_punctual`**, **`Stage.host_signals`**.
-/

namespace LineClient

namespace Stage

/-- The clock has not gone back, and a sign that had come is still there with its time. -/
structure Onward (s s' : Stage) : Prop where
  clock : s.clock.nanos ≤ s'.clock.nanos
  sign : s.cancelled = true → s'.cancelled = true ∧ s'.signTime = s.signTime

instance : IsPreorder Stage Onward where
  refl _ := ⟨Nat.le_refl _, fun h => ⟨h, rfl⟩⟩
  trans _ _ _ h h' :=
    ⟨Nat.le_trans h.clock h'.clock, fun hs =>
      ⟨(h'.sign (h.sign hs).1).1, (h'.sign (h.sign hs).1).2.trans (h.sign hs).2⟩⟩

/-- Whatever else changes, the clock and the sign may stay. -/
theorem onward_of_eq {s s' : Stage} (hclock : s'.clock = s.clock)
    (hcancelled : s'.cancelled = s.cancelled) (hsign : s'.signTime = s.signTime) : s.Onward s' :=
  ⟨Nat.le_of_eq (by rw [hclock]), fun h => ⟨hcancelled.trans h, hsign⟩⟩

/-- The sign may come now. -/
theorem onward_of_signal {s s' : Stage} {given : Bool} (hclock : s'.clock = s.clock)
    (hcancelled : s'.cancelled = (s.cancelled || given))
    (hsign : s'.signTime = s.signTimeAfter given) : s.Onward s' := by
  refine ⟨Nat.le_of_eq (by rw [hclock]), fun h => ⟨?_, ?_⟩⟩
  · rw [hcancelled, h, Bool.true_or]
  · rw [hsign, signTimeAfter, h, Bool.not_true, Bool.and_false, if_neg Bool.false_ne_true]

variable (s : Stage)

theorem onward_after (wait : Duration) : s.Onward { s with clock := s.clock.after wait } :=
  ⟨Nat.le_add_right _ _, fun h => ⟨h, rfl⟩⟩

theorem onward_settle : s.Onward s.settle := onward_of_signal rfl rfl rfl

theorem onward_attend : s.Onward s.attend := by
  refine trans_of Onward s.onward_settle ?_
  cases hcurrent : s.settle.current with
  | none =>
    simp only [attend, hcurrent]
    exact refl_of Onward s.settle
  | some v =>
    simp only [attend, hcurrent]
    exact onward_of_signal rfl rfl rfl

theorem clock_attend : s.attend.clock = s.clock := by
  have hsettle : s.settle.clock = s.clock := rfl
  cases hcurrent : s.settle.current <;> simp only [attend, hcurrent, hsettle]

theorem onward_pause (d : Duration) : s.Onward (s.pause d) := by
  unfold pause
  split_ifs
  · exact refl_of Onward s
  · rw [← s.clock_attend]
    exact trans_of Onward s.onward_attend (s.attend.onward_after d)

theorem onward_leave : s.Onward s.leave := by
  unfold leave
  cases s.current with
  | none => exact refl_of Onward s
  | some v => exact onward_of_eq rfl rfl rfl

theorem onward_connect (address : String) (wait : Duration) :
    s.Onward (s.connect address wait).2 := by
  unfold connect
  split_ifs
  · exact refl_of Onward s
  · cases s.reach with
    | refused => exact refl_of Onward s
    | full => exact s.onward_pause wait
    | scripts first others =>
      refine trans_of Onward s.onward_leave ?_
      exact onward_of_eq rfl rfl rfl

theorem onward_write (line : ByteArray) : s.Onward (s.write line).2 := by
  unfold write
  cases s.current with
  | none => exact refl_of Onward s
  | some v =>
    dsimp only
    split_ifs
    · exact refl_of Onward s
    · exact onward_of_eq rfl rfl rfl

theorem onward_readWaiting (max : Nat) : s.Onward (s.readWaiting max).2 := by
  unfold readWaiting
  cases s.current with
  | none => exact refl_of Onward s
  | some v => exact onward_of_eq rfl rfl rfl

theorem onward_read (max : Nat) (wait : Duration) : s.Onward (s.read max wait).2 := by
  unfold read
  split_ifs
  · exact s.onward_readWaiting max
  · refine trans_of Onward s.onward_attend ?_
    dsimp only
    split_ifs
    · exact s.attend.onward_readWaiting max
    · exact s.attend.onward_after wait

theorem onward_stops (w : Waiting) : s.Onward (s.stops w).2 := by
  unfold stops
  cases w with
  | connection => exact refl_of Onward s
  | reply wait =>
    dsimp only
    split_ifs
    · exact refl_of Onward s
    · exact s.onward_attend
  | pause d =>
    dsimp only
    split_ifs
    · exact refl_of Onward s
    · exact s.onward_attend

/-- **No operation of the stage turns the clock back or forgets the sign.** -/
theorem host_keeps_onward : host.Keeps Onward where
  connect := fun address wait s => s.onward_connect address wait
  write := fun line _ s => s.onward_write line
  read := fun max wait s => s.onward_read max wait
  close := onward_leave
  pause := fun d s => s.onward_pause d
  stops := fun w s => s.onward_stops w
  stopsWriting := fun _ s => refl_of Onward s
  awaitStop := fun _ => onward_of_signal rfl (Bool.or_true _).symm rfl
  observe := fun _ _ => onward_of_signal rfl rfl rfl

theorem host_punctual : host.Punctual where
  keeps := host_keeps_onward.mono fun _ _ h => h.clock
  pause d s := by
    change (s.clock.after d).nanos ≤ (s.pause d).clock.nanos
    unfold pause
    split_ifs with hd
    · rw [hd]
      exact Nat.le_refl _
    · exact Nat.le_refl _

theorem host_signTime? : host.signTime? s = if s.cancelled then some s.signTime else none := by
  cases hcancelled : s.cancelled <;> simp [Host.signTime?, host, hcancelled]

theorem host_signals : host.Signals where
  keeps := host_keeps_onward.mono fun s s' h time htime => by
    rw [host_signTime?] at htime ⊢
    split_ifs at htime with hs
    rw [if_pos (h.sign hs).1, (h.sign hs).2]
    exact htime
  stops w s hstop := by
    have hcancelled : (s.stops w).2.cancelled = true := by
      rw [← hstop]
      cases w <;> rfl
    rw [host_signTime?, Option.isSome_ite]
    exact hcancelled
  stopsWriting line s hstop := by
    have hcancelled : s.cancelled = true := by
      by_contra hnot
      simp [host, stopsWriting, hnot] at hstop
    rw [host_signTime?, Option.isSome_ite]
    exact hcancelled

end Stage

end LineClient
