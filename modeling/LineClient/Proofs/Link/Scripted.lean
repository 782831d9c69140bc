import LineClient.Proofs.Link.Stage
import LineClient.Proofs.Link.Ways

/-!
# Connections to a server that follows a script

On a stage whose server follows a fitting script, every operation of a connection ends in just one
way, which the script tells. The wire is empty before each command, so that what is read after a
command is the reply to this command.

* `AnswerWay`, what the client finds after a turn of the server;
* **`receive_asked`**, the reading after a command;
* `drainBanner_plays`, `sendCommand_idle`, `pause_quiet`, `dropLink_plays`, `openLink_scripts`, the
  other operations;
* **`requestUnlessStopped_idle`**, a command and its reply as long as no sign to stop comes.
-/

namespace LineClient

open Stage

/-- What the client finds after a turn of the server, and the visit that remains. -/
inductive AnswerWay (wait : Duration) (script : Script) (lines : List (List UInt8)) :
    Turn → Except ConnectionError String → List Action → Visit → Prop
  | reply (bytes : List UInt8) :
    AnswerWay wait script lines (.reply bytes) (.ok (decodeLossy bytes)) [.received bytes]
      (.idle script lines)
  | silent :
    AnswerWay wait script lines .silent (.error (.timeout wait)) [.silence wait]
      (.idle script lines)
  | close :
    AnswerWay wait script lines .close (.error .closed) [.ended] (.heard script lines .close)
  | reset :
    AnswerWay wait script lines .reset (.error .closed) [.ended] (.heard script lines .reset)

theorem Wire.read_all {bytes : List UInt8} {max : Nat} (hne : bytes ≠ [])
    (hlength : bytes.length ≤ max) :
    ∃ c : Chunk max, c.bytes = bytes ∧ Wire.read max { inbound := bytes } = (.chunk c, {}) := by
  obtain ⟨b, rest, rfl⟩ := List.exists_cons_of_ne_nil hne
  have hmax : max ≠ 0 := fun e => by simp [e] at hlength
  refine ⟨Wire.firstChunk max hmax b rest, List.take_of_length_le hlength, ?_⟩
  simp only [Wire.read, Bool.false_eq_true, if_false, dif_neg hmax, List.drop_of_length_le hlength]

variable {s : Stage} {calm : Prop} {scene : Scene} {script : Script} {lines : List (List UInt8)}
  (settings : LinkSettings)

/-! ## Readings -/

theorem readOnce_plays {v v' : Visit} (h : s.Plays calm scene v) (hv : v.attend = (v', false))
    (hsame : v.wire.readable = true → v' = v) {wait : Duration} (hwait : wait ≠ .zero) :
    (readOnce host settings wait).Reaches s fun o as s' =>
      o = (v'.wire.read settings.recvBufferSize).1.result wait ∧
        as = (v'.wire.read settings.recvBufferSize).1.actions wait ∧
          s'.Plays calm scene { v' with wire := (v'.wire.read settings.recvBufferSize).2 } := by
  obtain ⟨houtcome, hplays⟩ := h.read hv hsame settings.recvBufferSize hwait
  rw [reaches_readOnce]
  change (s.read _ _).1 = _ at houtcome
  exact ⟨congrArg _ houtcome, congrArg _ houtcome, hplays.observeAll _⟩

/-- What a reading finds after a turn of the server. -/
theorem answerWay_heard (wait : Duration) (script : Script) (lines : List (List UInt8))
    {turn : Turn} {max : Nat} (hfits : turn.Fits max) :
    AnswerWay wait script lines turn (((Visit.heard script lines turn).wire.read max).1.result wait)
      (((Visit.heard script lines turn).wire.read max).1.actions wait)
      { Visit.heard script lines turn with
        wire := ((Visit.heard script lines turn).wire.read max).2 } := by
  cases turn with
  | reply bytes =>
    obtain ⟨c, hbytes, hread⟩ := Wire.read_all hfits.1 hfits.2
    change (Visit.heard script lines (.reply bytes)).wire.read _ = _ at hread
    rw [hread]
    subst hbytes
    exact .reply c.bytes
  | silent => exact .silent
  | close => exact .close
  | reset => exact .reset
  | cancel => exact hfits.elim

/-- What the client reads after the server has taken its line. -/
theorem receive_heard {turn : Turn} (h : s.Plays calm scene (.heard script lines turn))
    (hfits : turn.Fits settings.recvBufferSize) (hwait : settings.responseTimeout ≠ .zero) :
    (receive host settings).Reaches s fun o as s' => ∃ v,
      AnswerWay settings.responseTimeout script lines turn o as v ∧ s'.Plays calm scene v := by
  refine (readOnce_plays settings h (Visit.attend_of_quiet (Visit.quiet_heard _ _ _))
    (fun _ => rfl) hwait).mono ?_
  rintro o as s' ⟨rfl, rfl, hplays⟩
  exact ⟨_, answerWay_heard _ script lines hfits, hplays⟩

/-- **What the client reads after a command.** The server takes the command by the next turn of its
script. -/
theorem receive_asked {command : String} (hline : '\n' ∉ command.toList)
    (h : s.Plays calm scene (.asked script lines command))
    (hfits : (script.turn 0).Fits settings.recvBufferSize)
    (hwait : settings.responseTimeout ≠ .zero) :
    (receive host settings).Reaches s fun o as s' => ∃ v,
      AnswerWay settings.responseTimeout script.next (utf8Bytes command :: lines) (script.turn 0)
        o as v ∧ s'.Plays calm scene v := by
  refine (readOnce_plays settings h (Visit.attend_asked hline hfits)
    (absurd · Bool.false_ne_true) hwait).mono ?_
  rintro o as s' ⟨rfl, rfl, hplays⟩
  exact ⟨_, answerWay_heard _ script.next (utf8Bytes command :: lines) hfits, hplays⟩

/-! ## The greeting -/

/-- The reading of the greeting takes all of it, and nothing is left for the first command. -/
theorem drainBanner_plays {v : Visit} (h : s.Plays calm scene v)
    (hv : v.attend = (.greeting script, false))
    (hsame : v.wire.readable = true → .greeting script = v)
    (hfits : script.banner.length ≤ settings.recvBufferSize)
    (hwait : settings.bannerTimeout ≠ .zero) :
    (drainBanner host settings).Reaches s fun o _ s' =>
      o = (if script.banner = [] then none else some (decodeLossy script.banner)) ∧
        s'.Plays calm scene (.idle script []) := by
  rw [drainBanner]
  refine (readOnce_plays settings h hv hsame hwait).bind ?_
  rintro o as s' ⟨rfl, -, hplays⟩
  by_cases hbanner : script.banner = []
  · have hread : (Visit.greeting script).wire.read settings.recvBufferSize = (.silence, {}) := by
      simp only [Visit.greeting, hbanner]; rfl
    rw [hread] at hplays ⊢
    exact ⟨(if_pos hbanner).symm, hplays.observe _⟩
  · obtain ⟨c, hbytes, hread⟩ := Wire.read_all hbanner hfits
    change (Visit.greeting script).wire.read _ = _ at hread
    rw [hread] at hplays ⊢
    rw [if_neg hbanner, ← hbytes]
    exact ⟨rfl, hplays⟩

/-! ## Commands and pauses -/

theorem sendCommand_idle (command : String) (h : s.Plays calm scene (.idle script lines)) :
    (sendCommand host settings command).Reaches s fun o as s' =>
      o = .ok () ∧ as = [.sent command] ∧ s'.Plays calm scene (.asked script lines command) := by
  have hempty : (ByteArray.empty : ByteArray) ++ commandLine command = commandLine command :=
    ByteArray.empty_append
  have hwrite : host.write (commandLine command) settings.sendTimeout s =
      (.complete, { s with current := some (.asked script lines command) }) := by
    simp only [host, Stage.write, h.current, Visit.idle, Visit.asked, Wire.push, hempty]
    rfl
  rw [sendCommand, Client.reaches_bind, Client.reaches_perform, hwrite]
  exact ⟨rfl, rfl, (h.withVisit _).observe _⟩

theorem pause_quiet {v : Visit} (h : s.Plays calm scene v) (hv : v.Quiet) (d : Duration) :
    (Client.pause host d).Reaches s fun _ as s' => as = [.waited d] ∧ s'.Plays calm scene v := by
  have hpause := h.pause (Visit.attend_of_quiet hv) d
  rw [or_self] at hpause
  exact ⟨rfl, hpause.observe _⟩

theorem dropLink_plays {v : Visit} (h : s.Plays calm scene v) (hv : v.Quiet) :
    (dropLink host).Reaches s fun _ as s' =>
      as = [.closed] ∧ s'.Waits calm { scene with past := scene.past ++ [v.lines.reverse] } := by
  refine (dropLink_reaches host s).mono ?_
  rintro _ as s' ⟨rfl, rfl⟩
  exact ⟨rfl, (h.leave hv).observe _⟩

/-! ## The sign to stop -/

theorem stops_quiet {v : Visit} (h : s.Plays True scene v) (hv : v.Quiet) (w : Waiting) :
    (host.stops w s).1 = false ∧ (host.stops w s).2.Plays True scene v := by
  have hattend := h.attend (Visit.attend_of_quiet hv)
  suffices hplays : (host.stops w s).2.Plays True scene v from
    ⟨(hplays.calm trivial).cancelled, hplays⟩
  simp only [host, Stage.stops]
  split
  · exact h
  all_goals split_ifs <;> assumption

theorem stops_waits (h : s.Waits True scene) (w : Waiting) :
    (host.stops w s).1 = false ∧ (host.stops w s).2.Waits True scene := by
  suffices hwaits : (host.stops w s).2.Waits True scene from
    ⟨(hwaits.calm trivial).cancelled, hwaits⟩
  have hattend := h.attend
  simp only [host, Stage.stops]
  split
  · exact h
  all_goals split_ifs <;> assumption

/-- **A command and what the client reads after it**, when no sign to stop comes. -/
theorem requestUnlessStopped_idle {command : String} (hline : '\n' ∉ command.toList)
    (h : s.Plays True scene (.idle script lines))
    (hfits : (script.turn 0).Fits settings.recvBufferSize)
    (hwait : settings.responseTimeout ≠ .zero) :
    (requestUnlessStopped host settings command).Reaches s fun o as s' => ∃ answer as' v,
      o = some answer ∧ as = .sent command :: as' ∧
        AnswerWay settings.responseTimeout script.next (utf8Bytes command :: lines) (script.turn 0)
          answer as' v ∧ s'.Plays True scene v := by
  have hwrite : host.stopsWriting (commandLine command) s = (none, s) := by
    simp only [host, Stage.stopsWriting, (h.calm trivial).cancelled, Bool.false_eq_true, false_and,
      dite_false]
  rw [requestUnlessStopped, Client.reaches_bind, Client.reaches_perform, hwrite]
  refine (sendCommand_idle settings command h).bind ?_
  rintro o as s' ⟨rfl, rfl, hasked⟩
  have hstops :
      host.stops (.reply settings.responseTimeout) s' = (s'.attend.cancelled, s'.attend) := by
    have hreadable : s'.readable = false := hasked.readable
    simp only [host, Stage.stops, (hasked.calm trivial).cancelled, hreadable, hwait,
      Bool.false_eq_true, or_self, if_false]
  have hheard := hasked.attend (Visit.attend_asked hline hfits)
  rw [Client.reaches_bind, Client.reaches_perform, hstops]
  simp only [(hheard.calm trivial).cancelled, Bool.false_eq_true, if_false]
  rw [Client.reaches_map]
  refine (receive_heard settings hheard hfits hwait).mono ?_
  rintro answer as' s'' ⟨v, hanswer, hplays⟩
  exact ⟨answer, as', v, rfl, rfl, hanswer, hplays⟩

/-! ## The making of a connection -/

theorem connect_scripts {address : String} (wait : Duration) {first : Script}
    {others : List Script} (h : s.leave.Waits calm scene) (haddress : scene.address = address)
    (hreach : scene.reach = .scripts first others) :
    (host.connect address wait s).1 = .ok () ∧
      (host.connect address wait s).2.Plays calm { scene with count := scene.count + 1 }
        (.fresh (scriptAt first others scene.count)) := by
  obtain ⟨hscene, -, hcalm⟩ := h
  subst hscene
  have hcount : s.leave.count = s.count := by cases hv : s.current <;> simp [Stage.leave, hv]
  have hsame : s.leave.address = s.address ∧ s.leave.reach = s.reach := by
    cases hv : s.current <;> simp [Stage.leave, hv]
  have hconnect : host.connect address wait s = (.ok (), { s.leave with
      current := some (.fresh (scriptAt first others s.count)), count := s.count + 1 }) := by
    simp only [Stage.scene, hsame.1, hsame.2] at haddress hreach
    simp only [host, connect, haddress, hreach, ne_eq, not_true_eq_false, if_false]
    rfl
  rw [hconnect]
  refine ⟨rfl, ?_, ?_, fun hc => (hcalm hc).of_eq rfl rfl rfl⟩
  · simp only [Stage.scene, hcount]
    rfl
  · simp only [Stage.scene, hcount]

/-- The client leaves the connection that it has, if any, when it makes another one. -/
theorem openLink_scripts {address : String} {first : Script} {others : List Script}
    (h : s.leave.Waits calm scene) (haddress : scene.address = address)
    (hreach : scene.reach = .scripts first others) :
    (openLink host settings address).Reaches s fun o as s' =>
      if largestBuffer < settings.recvBufferSize then
        o = .aborted ∧ as = [.opened, .logged (connected address), .closed]
      else o = .opened ∧ as = [.opened, .logged (connected address)] ∧
        s'.Plays calm { scene with count := scene.count + 1 }
          (.fresh (scriptAt first others scene.count)) := by
  obtain ⟨hok, hplays⟩ := connect_scripts settings.connectTimeout h haddress hreach
  rw [openLink, Client.reaches_bind, Client.reaches_perform, hok, Client.reaches_bind,
    Client.reaches_act, Client.reaches_bind, Client.reaches_log]
  split_ifs
  · refine (dropLink_reaches host _).bind ?_
    rintro _ as s' ⟨rfl, -⟩
    exact ⟨rfl, rfl⟩
  · exact ⟨rfl, rfl, (hplays.observe _).observe _⟩

end LineClient
