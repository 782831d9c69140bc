import LineClient.Proofs.Link.Scripted
import LineClient.Proofs.Telemetry.Replies
import LineClient.Telemetry.Mode

/-!
# Telemetry and a server that follows scripts

A session polls as long as the server replies, and ends at the first turn that is no reply. So the
replies of a session are the first turns of the script of its connection, and nothing of the
greeting or of an earlier reply is among them.

* `Turn.reply?`, `Reader.ending`, what a turn means for a session;
* `Session.start_plays`, **`Session.poll_plays`**, `Supervision.recover_plays`, single rounds.
-/

namespace LineClient

open Stage

/-! ## What the scripts tell -/

/-- The reply that a turn sends. -/
def Turn.reply? : Turn → Option (List UInt8)
  | .reply bytes => some bytes
  | _ => none

/-- The failure of a session whose command is taken by a turn. -/
def Reader.ending (r : Reader) : Turn → Option ConnectionError
  | .silent => some (.timeout r.link.responseTimeout)
  | .close => some .closed
  | .reset => some .closed
  | _ => none

namespace Script

/-- The replies among the first `k` turns. -/
def replies (script : Script) (k : Nat) : List (List UInt8) :=
  (script.turns k).filterMap Turn.reply?

/-- The first `k` turns are replies. -/
def Replies (script : Script) (k : Nat) : Prop := ∀ i < k, ∃ bytes, script.turn i = .reply bytes

/-- What is left of a script after `n` lines. -/
def drop (script : Script) (n : Nat) : Script := { script with steps := script.steps.drop n }

variable (script : Script)

theorem turn_drop (n i : Nat) : (script.drop n).turn i = script.turn (n + i) := by
  simp [turn, drop, List.getD_eq_getElem?_getD]

theorem next_drop (n : Nat) : (script.drop n).next = script.drop (n + 1) := by
  simp [next, drop]

theorem replies_succ {k : Nat} {bytes : List UInt8} (h : script.turn k = .reply bytes) :
    script.replies (k + 1) = script.replies k ++ [bytes] := by
  rw [replies, turns, List.range_succ, List.map_append, List.filterMap_append,
    List.map_singleton, h]
  rfl

end Script

/-! ## Rounds of a session -/

variable {r : Reader} {s : Stage} {scene : Scene} {script : Script} {lines : List (List UInt8)}

theorem StartWay.repliesIn_eq {session : Session} {as : List Action} (h : StartWay r session as) :
    repliesIn as = [] := by
  cases h with
  | polling hsize hbanner =>
    cases hbanner with
    | ended failure => cases failure <;> rfl
    | _ => rfl
  | _ => rfl

theorem Session.start_plays {first : Script} {others : List Script} (h : s.Waits True scene)
    (haddress : scene.address = r.address) (hreach : scene.reach = .scripts first others)
    (hfits : (scriptAt first others scene.count).Fits r.link.recvBufferSize)
    (hsize : r.link.recvBufferSize ≤ largestBuffer) (hbanner : r.link.bannerTimeout ≠ .zero) :
    (start r host).Reaches s fun session as s' =>
      session = .polling 0 ∧ repliesIn as = [] ∧
        s'.Plays True { scene with count := scene.count + 1 }
          (.idle (scriptAt first others scene.count) []) := by
  suffices hplays : (start r host).Reaches s fun session _ s' => session = .polling 0 ∧
      s'.Plays True { scene with count := scene.count + 1 }
        (.idle (scriptAt first others scene.count) []) by
    refine (hplays.and (start_reaches r host s)).mono ?_
    rintro session as s' ⟨⟨hsession, hidle⟩, hway⟩
    exact ⟨hsession, hway.repliesIn_eq, hidle⟩
  obtain ⟨hstops, hwaits⟩ := stops_waits h .connection
  rw [start, Client.reaches_bind, Client.reaches_perform, hstops, if_neg Bool.false_ne_true]
  refine (openLink_scripts r.link (hwaits.leave.symm ▸ hwaits) haddress hreach).bind ?_
  intro o as s' ho
  rw [if_neg (Nat.not_lt.mpr hsize)] at ho
  obtain ⟨rfl, -, hfresh⟩ := ho
  refine (Client.reaches_bind _).mpr ?_
  have hgreet : (greet r host).Reaches s' fun _ _ s'' =>
      s''.Plays True { scene with count := scene.count + 1 }
        (.idle (scriptAt first others scene.count) []) := by
    rw [greet]
    refine (drainBanner_plays r.link hfresh (Visit.attend_fresh hfits.arrival)
      (absurd · Bool.false_ne_true) hfits.banner hbanner).bind ?_
    rintro banner as s'' ⟨-, hidle⟩
    cases banner with
    | none => exact hidle
    | some banner => exact hidle.observe _
  refine hgreet.mono fun _ as s'' hidle => ?_
  exact ⟨rfl, hidle.observe _⟩

theorem Session.record_plays {v : Visit} (response : String) (h : s.Plays True scene v) :
    (record r host response).Reaches s fun _ as s' =>
      (∃ a, as = [a] ∧ RecordWay r response a) ∧ s'.Plays True scene v := by
  refine (record_reaches r host s response).and ?_
  rw [record]
  cases reading? response r.key with
  | none => exact h.observe _
  | some value => exact h.observe _

/-- **How a round of a session ends** whose command the server takes by the next turn of its
script. -/
theorem Session.poll_plays (roundTrips : Nat) (h : s.Plays True scene (.idle script lines))
    (hline : '\n' ∉ r.command.toList) (hfits : (script.turn 0).Fits r.link.recvBufferSize)
    (hwait : r.link.responseTimeout ≠ .zero) :
    (poll r host roundTrips).Reaches s fun session as s' =>
      (∃ bytes, script.turn 0 = .reply bytes ∧ session = .polling (roundTrips + 1) ∧
        repliesIn as = [bytes] ∧
          s'.Plays True scene (.idle script.next (utf8Bytes r.command :: lines))) ∨
      (∃ e, r.ending (script.turn 0) = some e ∧ session = .over (.failed e) roundTrips ∧
        repliesIn as = [] ∧
          s'.Waits True { scene with
            past := scene.past ++ [(utf8Bytes r.command :: lines).reverse] }) := by
  rw [poll]
  refine (requestUnlessStopped_idle r.link hline h hfits hwait).bind ?_
  rintro _ _ s' ⟨answer, as', v, rfl, rfl, hanswer, hplays⟩
  generalize script.turn 0 = turn at hanswer ⊢
  have hdrop (e : ConnectionError) (hv : v.Quiet)
      (hlines : v.lines = utf8Bytes r.command :: lines) :
      (dropLink host >>= fun _ => pure (Session.over (.failed e) roundTrips)).Reaches s'
        fun session as s'' => session = .over (.failed e) roundTrips ∧ as = [.closed] ∧
          s''.Waits True { scene with
            past := scene.past ++ [(utf8Bytes r.command :: lines).reverse] } := by
    refine (dropLink_plays hplays hv).bind ?_
    rintro _ _ s'' ⟨rfl, hwaits⟩
    rw [hlines] at hwaits
    exact ⟨rfl, rfl, hwaits⟩
  cases hanswer with
  | reply bytes =>
    refine (record_plays (decodeLossy bytes) hplays).bind ?_
    rintro _ _ s'' ⟨⟨a, rfl, ha⟩, hplays'⟩
    obtain ⟨hstops, hplays''⟩ := stops_quiet hplays' (Visit.quiet_idle _ _) (.pause r.interval)
    rw [Client.reaches_bind, Client.reaches_perform, hstops, if_neg Bool.false_ne_true]
    refine (pause_quiet hplays'' (Visit.quiet_idle _ _) r.interval).bind ?_
    rintro _ _ s₃ ⟨rfl, hpaused⟩
    refine .inl ⟨bytes, rfl, rfl, ?_, hpaused⟩
    cases ha <;> rfl
  | silent =>
    refine (hdrop _ (Visit.quiet_idle _ _) rfl).mono ?_
    rintro _ _ s'' ⟨rfl, rfl, hwaits⟩
    exact .inr ⟨_, rfl, rfl, rfl, hwaits⟩
  | close =>
    refine (hdrop _ (Visit.quiet_heard _ _ _) rfl).mono ?_
    rintro _ _ s'' ⟨rfl, rfl, hwaits⟩
    exact .inr ⟨_, rfl, rfl, rfl, hwaits⟩
  | reset =>
    refine (hdrop _ (Visit.quiet_heard _ _ _) rfl).mono ?_
    rintro _ _ s'' ⟨rfl, rfl, hwaits⟩
    exact .inr ⟨_, rfl, rfl, rfl, hwaits⟩

theorem RecoverWay.repliesIn_eq {attempt roundTrips : Nat} {e : ConnectionError}
    {state : Supervision} {as : List Action} (h : RecoverWay r attempt e roundTrips state as) :
    repliesIn as = [] := by
  cases h <;> rfl

/-- Another session follows a failed one, or else the failure is the last word. -/
theorem Supervision.recover_plays (attempt : Nat) (e : ConnectionError) (roundTrips : Nat)
    (h : s.Waits True scene) :
    (recover r host attempt e roundTrips).Reaches s fun state as s' =>
      (state = .over (.failed e) ∨ ∃ attempt, state = .running attempt .opening) ∧
        repliesIn as = [] ∧ s'.Waits True scene := by
  suffices hwaits : (recover r host attempt e roundTrips).Reaches s fun state _ s' =>
      (state = .over (.failed e) ∨ ∃ attempt, state = .running attempt .opening) ∧
        s'.Waits True scene by
    refine (hwaits.and (recover_reaches r host s attempt e roundTrips)).mono ?_
    rintro state as s' ⟨⟨hstate, hwaits⟩, hway⟩
    exact ⟨hstate, hway.repliesIn_eq, hwaits⟩
  rw [recover]
  cases hnext : nextAttempt? r.attempts attempt roundTrips with
  | none => exact ⟨.inl rfl, h⟩
  | some n =>
    obtain ⟨hstops, hwaits⟩ :=
      stops_waits (h.observe (.logged (r.reconnecting e n))) (.pause (r.backoffAfter n))
    change (host.stops _ (host.observe _ s)).1 = _ at hstops
    refine (Client.reaches_bind _).mpr ?_
    rw [Client.reaches_log, Client.reaches_bind, Client.reaches_perform, hstops,
      if_neg Bool.false_ne_true]
    exact ⟨.inr ⟨_, rfl⟩, (hwaits.pause _).observe _⟩

end LineClient
