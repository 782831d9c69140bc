import LineClient.Proofs.Link.Backdrop

/-!
# Hosts that do not care what is logged

What a client logs is for a reader of the log. A server never sees it, so the run of a client goes
on in the same way whatever is logged, unless something that waits for an event gives the sign to
stop.

* `Preserves`, `Host.Deaf`, a host that does not care;
* `Stage.Builds`, no operation of the stage takes anything back of what the server has read;
* **`Stage.host_deaf`**, the stage on which no event gives the sign to stop.
-/

namespace LineClient

/-- What was true of the first state is true of the second. -/
def Preserves {σ : Type} (I : σ → Prop) (s s' : σ) : Prop := I s → I s'

instance {σ : Type} (I : σ → Prop) : IsPreorder σ (Preserves I) where
  refl _ := id
  trans _ _ _ h h' hs := h' (h hs)

/-- As long as `I` is true, which no operation changes, it is all the same to the host which event
is logged. -/
structure Host.Deaf {σ : Type} (h : Host σ) (I : σ → Prop) : Prop where
  keeps : h.Keeps (Preserves I)
  observe : ∀ e e' s, I s → h.observe (.logged e) s = h.observe (.logged e') s

namespace Stage

/-- No event gives the sign to stop. -/
def Heedless (s : Stage) : Prop := ∀ text others, s.trigger ≠ .log text others

/-- What the server has read is still there, and still no event gives the sign to stop. -/
structure Builds (s s' : Stage) : Prop where
  past : s.past <+: s'.past
  heedless : s.Heedless → s'.Heedless

instance : IsPreorder Stage Builds where
  refl _ := ⟨List.prefix_rfl, id⟩
  trans _ _ _ h h' := ⟨h.past.trans h'.past, fun hs => h'.heedless (h.heedless hs)⟩

/-- Whatever else changes, the connections that were left and the trigger may stay. -/
theorem builds_of_eq {s s' : Stage} (hleft : s'.left = s.left) (hdone : s'.done = s.done)
    (htrigger : s'.trigger = s.trigger) : s.Builds s' := by
  have hpast : s'.past = s.past := by rw [past, past, hleft, hdone]
  refine ⟨hpast ▸ List.prefix_rfl, fun h => ?_⟩
  rwa [Heedless, htrigger]

variable (s : Stage)

theorem builds_attend : s.Builds s.attend := by
  have hsettle : s.Builds s.settle := ⟨s.past_settle ▸ List.prefix_rfl, id⟩
  refine trans_of Builds hsettle ?_
  cases hcurrent : s.settle.current with
  | none =>
    simp only [attend, hcurrent]
    exact refl_of Builds s.settle
  | some v =>
    simp only [attend, hcurrent]
    exact builds_of_eq rfl rfl rfl

theorem builds_pause (d : Duration) : s.Builds (s.pause d) := by
  unfold pause
  split_ifs
  · exact refl_of Builds s
  · refine trans_of Builds s.builds_attend ?_
    exact builds_of_eq rfl rfl rfl

theorem builds_leave : s.Builds s.leave := by
  cases hcurrent : s.current with
  | none =>
    rw [leave, hcurrent]
    exact refl_of Builds s
  | some v =>
    refine ⟨?_, fun h => ?_⟩
    · rw [past_leave, received_eq s hcurrent]
      exact List.prefix_append _ _
    · rwa [leave, hcurrent]

theorem builds_connect (address : String) (wait : Duration) :
    s.Builds (s.connect address wait).2 := by
  unfold connect
  split_ifs
  · exact refl_of Builds s
  · cases s.reach with
    | refused => exact refl_of Builds s
    | full => exact s.builds_pause wait
    | scripts first others =>
      refine trans_of Builds s.builds_leave ?_
      exact builds_of_eq rfl rfl rfl

theorem builds_write (line : ByteArray) : s.Builds (s.write line).2 := by
  unfold write
  cases s.current with
  | none => exact refl_of Builds s
  | some v =>
    dsimp only
    split_ifs
    · exact refl_of Builds s
    · exact builds_of_eq rfl rfl rfl

theorem builds_readWaiting (max : Nat) : s.Builds (s.readWaiting max).2 := by
  unfold readWaiting
  cases s.current with
  | none => exact refl_of Builds s
  | some v => exact builds_of_eq rfl rfl rfl

theorem builds_read (max : Nat) (wait : Duration) : s.Builds (s.read max wait).2 := by
  unfold read
  split_ifs
  · exact s.builds_readWaiting max
  · refine trans_of Builds s.builds_attend ?_
    dsimp only
    split_ifs
    · exact s.attend.builds_readWaiting max
    · exact builds_of_eq rfl rfl rfl

theorem builds_stops (w : Waiting) : s.Builds (s.stops w).2 := by
  unfold stops
  cases w with
  | connection => exact refl_of Builds s
  | reply wait =>
    dsimp only
    split_ifs
    · exact refl_of Builds s
    · exact s.builds_attend
  | pause d =>
    dsimp only
    split_ifs
    · exact refl_of Builds s
    · exact s.builds_attend

theorem builds_observe (a : Action) : s.Builds (s.observe a) := by
  refine ⟨List.prefix_rfl, fun h text others => ?_⟩
  change (s.trigger.observe a).2 ≠ .log text others
  cases htrigger : s.trigger with
  | none => cases a <;> exact Trigger.noConfusion
  | log text others => exact absurd htrigger (h text others)
  | samples wanted series => cases a <;> exact Trigger.noConfusion

/-- **No operation of the stage takes anything back of what the server has read.** -/
theorem host_keeps_builds : host.Keeps Builds where
  connect := fun address wait s => s.builds_connect address wait
  write := fun line _ s => s.builds_write line
  read := fun max wait s => s.builds_read max wait
  close := builds_leave
  pause := fun d s => s.builds_pause d
  stops := fun w s => s.builds_stops w
  stopsWriting := fun _ s => refl_of Builds s
  awaitStop := fun _ => builds_of_eq rfl rfl rfl
  observe := fun a s => s.builds_observe a

/-- **The stage does not care what is logged**, if no event gives the sign to stop. -/
theorem host_deaf : host.Deaf Heedless where
  keeps := host_keeps_builds.mono fun _ _ h => h.heedless
  observe e e' s hs := by
    change s.observe (.logged e) = s.observe (.logged e')
    cases htrigger : s.trigger with
    | log text others => exact absurd htrigger (hs text others)
    | _ => simp only [observe, htrigger, Trigger.observe]

/-! ## Without a connection -/

section

variable {s : Stage} (hcurrent : s.current = none)
include hcurrent

theorem waits_of_current : s.Waits False s.scene := ⟨rfl, hcurrent, False.elim⟩

theorem stops_current (w : Waiting) : (host.stops w s).2.current = none := by
  have hattend := (waits_of_current hcurrent).attend.current
  simp only [host, stops]
  split
  · exact hcurrent
  all_goals split_ifs <;> assumption

theorem connect_current {address : String} {wait : Duration} {cause : IoError}
    (hfailed : (host.connect address wait s).1 = .error cause) :
    (host.connect address wait s).2.current = none := by
  simp only [host, connect] at hfailed ⊢
  split_ifs at hfailed ⊢
  · exact hcurrent
  · cases hreach : s.reach with
    | refused => exact hcurrent
    | full => exact ((waits_of_current hcurrent).pause _).current
    | scripts first others => simp [hreach] at hfailed

/-- A connection that cannot be made, or cannot be used, is not kept. -/
theorem openLink_current (settings : LinkSettings) (address : String) :
    (openLink host settings address).Reaches s fun o _ s' => o ≠ .opened → s'.current = none := by
  rw [openLink, Client.reaches_bind, Client.reaches_perform]
  cases hmade : (host.connect address settings.connectTimeout s).1 with
  | error cause => exact fun _ => connect_current hcurrent hmade
  | ok =>
    rw [Client.reaches_bind, Client.reaches_act, Client.reaches_bind, Client.reaches_log]
    split_ifs
    · exact fun _ => (waits_leave _).current
    · exact fun hnot => absurd rfl hnot

end

end Stage

end LineClient
