import LineClient.Proofs.Series.Retention
import LineClient.Proofs.Telemetry.Scripted

/-!
# The course of supervised telemetry

With a server that follows scripts, it is certain after every number of rounds how far telemetry
has got, which replies it has read and which lines the server has read. Since the series and the
warnings are those of the replies, they are certain too.

* `Supervision.Told`, how far telemetry has got; **`Supervision.step_tells`**, what one round does
  to it;
* `Reader.Records`; **`Supervision.run_tells`**: the series holds the last readings of the replies,
  which are those that the scripts tell.
-/

namespace LineClient

open Stage

namespace Supervision

/-! ## What the scripts tell of telemetry -/

section

variable (r : Reader) (scripts : Nat → Script)

/-- The sessions on the first connections have ended, after so many replies each. -/
def Ended (ks : List Nat) : Prop := ∀ i k, ks[i]? = some k →
  (scripts i).Replies k ∧ ∃ e, r.ending ((scripts i).turn k) = some e

/-- The replies on the first connections, so many on each. -/
def heard (ks : List Nat) : List (List UInt8) :=
  (ks.mapIdx fun i k => (scripts i).replies k).flatten

/-- The lines on connections whose sessions have ended after so many replies each. -/
def asked (ks : List Nat) : List (List (List UInt8)) :=
  ks.map fun k => List.replicate (k + 1) (utf8Bytes r.command)

/-- The rounds of sessions that have ended after so many replies each: one for the connection, one
for every reply, one for the failure, and one for the recovery. -/
def elapsed : (ks : List Nat) → Nat
  | [] => 0
  | k :: ks => k + 3 + elapsed ks

/-- How far telemetry has got after a number of rounds, which replies it has read, and which lines
the server has read on each connection. Every session ends at the first turn that is no reply. -/
inductive Told : (rounds : Nat) → Supervision → (replies : List (List UInt8)) →
    (lines : List (List (List UInt8))) → Prop
  | opening (attempt : Nat) {ks : List Nat} (hks : Ended r scripts ks) :
    Told (elapsed ks) (.running attempt .opening) (heard scripts ks) (asked r ks)
  | polling (attempt : Nat) {ks : List Nat} {k : Nat} (hks : Ended r scripts ks)
    (hk : (scripts ks.length).Replies k) :
    Told (elapsed ks + (k + 1)) (.running attempt (.polling k))
      (heard scripts ks ++ (scripts ks.length).replies k)
      (asked r ks ++ [List.replicate k (utf8Bytes r.command)])
  | ended (attempt : Nat) {ks : List Nat} {k : Nat} {e : ConnectionError}
    (hks : Ended r scripts (ks ++ [k])) (he : r.ending ((scripts ks.length).turn k) = some e) :
    Told (elapsed ks + (k + 2)) (.running attempt (.over (.failed e) k))
      (heard scripts (ks ++ [k])) (asked r (ks ++ [k]))
  | gaveUp {rounds : Nat} {ks : List Nat} {k : Nat} {e : ConnectionError}
    (hrounds : elapsed (ks ++ [k]) ≤ rounds) (hks : Ended r scripts (ks ++ [k]))
    (he : r.ending ((scripts ks.length).turn k) = some e) :
    Told rounds (.over (.failed e)) (heard scripts (ks ++ [k])) (asked r (ks ++ [k]))

/-- The stage around telemetry that began with `scene`. -/
def Around (scene : Scene) : Supervision → (lines : List (List (List UInt8))) → Stage → Prop
  | .running _ (.polling k), lines, s => ∃ past,
    lines = past ++ [List.replicate k (utf8Bytes r.command)] ∧
      s.Plays True { scene with
        count := scene.count + past.length + 1
        past := scene.past ++ past }
        (.idle ((scripts past.length).drop k) (List.replicate k (utf8Bytes r.command)))
  | _, lines, s => s.Waits True { scene with
      count := scene.count + lines.length
      past := scene.past ++ lines }

end

section

variable {r : Reader} {scripts : Nat → Script} {ks : List Nat} {k : Nat}

theorem heard_concat :
    heard scripts (ks ++ [k]) = heard scripts ks ++ (scripts ks.length).replies k := by
  simp [heard, List.mapIdx_append]

theorem asked_concat : asked r (ks ++ [k]) =
    asked r ks ++ [List.replicate (k + 1) (utf8Bytes r.command)] := by
  simp [asked]

theorem length_asked : (asked r ks).length = ks.length := by simp [asked]

theorem elapsed_concat (k : Nat) (ks : List Nat) :
    elapsed (ks ++ [k]) = elapsed ks + (k + 3) := by
  induction ks with
  | nil => exact Nat.add_comm _ _
  | cons k' ks ih =>
    show k' + 3 + elapsed (ks ++ [k]) = k' + 3 + elapsed ks + (k + 3)
    omega

theorem Ended.concat {e : ConnectionError} (h : Ended r scripts ks)
    (hk : (scripts ks.length).Replies k) (he : r.ending ((scripts ks.length).turn k) = some e) :
    Ended r scripts (ks ++ [k]) := by
  intro i k' hi
  rw [List.getElem?_append] at hi
  split_ifs at hi with hlt
  · exact h i k' hi
  · obtain ⟨hbound, rfl⟩ := List.getElem?_eq_some_iff.mp hi
    have hlast : i = ks.length := by
      rw [List.length_singleton] at hbound
      omega
    subst hlast
    rw [List.getElem_singleton]
    exact ⟨hk, e, he⟩

theorem Around.received {scene : Scene} {state : Supervision} {lines : List (List (List UInt8))}
    {s : Stage} (h : Around r scripts scene state lines s) : s.received = scene.past ++ lines := by
  have hwaits {s : Stage} {scene : Scene} (h : s.Waits True scene) : s.received = scene.past :=
    h.received
  cases state with
  | «over» result => exact hwaits h
  | running attempt session =>
    cases session with
    | opening => exact hwaits h
    | «over» result k => exact hwaits h
    | polling k =>
      obtain ⟨past, rfl, hplays⟩ := h
      rw [received_eq s hplays.current, Visit.attend_of_quiet (Visit.quiet_idle _ _)]
      have hscene : s.past = scene.past ++ past := congrArg Scene.past hplays.scene
      rw [hscene, List.append_assoc]
      simp [Visit.idle]

end

section

variable {r : Reader} {scripts : Nat → Script} {first : Script} {others : List Script}
  {scene : Scene} {s : Stage}
  (hscripts : ∀ i, scripts i = scriptAt first others (scene.count + i))
  (haddress : scene.address = r.address) (hreach : scene.reach = .scripts first others)
  (hfits : ∀ i, (scripts i).Fits r.link.recvBufferSize)
  (hsize : r.link.recvBufferSize ≤ largestBuffer)
  (hresponse : r.link.responseTimeout ≠ .zero) (hbanner : r.link.bannerTimeout ≠ .zero)
  (hline : '\n' ∉ r.command.toList)

include hscripts haddress hreach hfits hsize hresponse hbanner hline in
/-- **What one round does to the course of telemetry.** -/
theorem step_tells {rounds : Nat} {state : Supervision} {replies : List (List UInt8)}
    {lines : List (List (List UInt8))} (htold : Told r scripts rounds state replies lines)
    (haround : Around r scripts scene state lines s) :
    (state.step r host).Reaches s fun state' as s' => ∃ lines',
      Told r scripts (rounds + 1) state' (replies ++ repliesIn as) lines' ∧
        Around r scripts scene state' lines' s' := by
  cases htold with
  | @opening attempt ks hks =>
    have hscript : scriptAt first others (scene.count + (asked r ks).length) =
        scripts (asked r ks).length := (hscripts _).symm
    show (running attempt <$> Session.start r host).Reaches s _
    rw [Client.reaches_map]
    refine (Session.start_plays haround haddress hreach (hscript ▸ hfits _) hsize hbanner).mono ?_
    rintro _ as s' ⟨rfl, has, hplays⟩
    rw [hscript] at hplays
    rw [has]
    exact ⟨_, .polling attempt hks (fun i hi => nomatch hi), _, rfl, hplays⟩
  | @polling attempt ks k hks hk =>
    obtain ⟨past, hpast, hplays⟩ := haround
    obtain rfl : asked r ks = past := List.append_cancel_right hpast
    rw [length_asked] at hplays
    show (running attempt <$> Session.poll r host k).Reaches s _
    rw [Client.reaches_map]
    have hturn : ((scripts ks.length).drop k).turn 0 = (scripts ks.length).turn k :=
      Script.turn_drop _ k 0
    have hfits' : (((scripts ks.length).drop k).turn 0).Fits r.link.recvBufferSize :=
      hturn ▸ (hfits ks.length).turn k
    refine (Session.poll_plays k hplays hline hfits' hresponse).mono ?_
    rintro _ as s' (⟨bytes, hbytes, rfl, has, hplays'⟩ | ⟨e, he, rfl, has, hwaits⟩)
    · rw [hturn] at hbytes
      rw [has, List.append_assoc, ← Script.replies_succ _ hbytes]
      have hk' : (scripts ks.length).Replies (k + 1) := by
        intro i hi
        obtain hi | rfl := Nat.lt_succ_iff_lt_or_eq.mp hi
        · exact hk i hi
        · exact ⟨bytes, hbytes⟩
      refine ⟨_, .polling attempt hks hk', _, rfl, ?_⟩
      rw [length_asked, ← Script.next_drop]
      exact hplays'
    · rw [hturn] at he
      rw [has, List.append_nil, ← heard_concat]
      refine ⟨_, .ended attempt (hks.concat hk he) he, ?_⟩
      rw [asked_concat]
      have hread : (utf8Bytes r.command :: List.replicate k (utf8Bytes r.command)).reverse =
          List.replicate (k + 1) (utf8Bytes r.command) := by
        rw [← List.replicate_succ, List.reverse_replicate]
      rw [hread, List.append_assoc] at hwaits
      simpa [Around, length_asked, Nat.add_assoc] using hwaits
  | @ended attempt ks k e hks he =>
    refine (recover_plays attempt e k haround).mono ?_
    rintro state' as s' ⟨hstate, has, hwaits⟩
    rw [has, List.append_nil]
    obtain rfl | ⟨attempt', rfl⟩ := hstate
    · exact ⟨_, .gaveUp (by rw [elapsed_concat]; omega) hks he, hwaits⟩
    · have htold : Told r scripts _ _ _ _ := .opening attempt' hks
      rw [elapsed_concat] at htold
      exact ⟨_, htold, hwaits⟩
  | @gaveUp _ ks k e hrounds hks he =>
    rw [step, Client.reaches_pure]
    have hnothing : heard scripts (ks ++ [k]) ++ repliesIn [] = heard scripts (ks ++ [k]) :=
      List.append_nil _
    rw [hnothing]
    exact ⟨_, .gaveUp (Nat.le_succ_of_le hrounds) hks he, haround⟩

include hscripts haddress hreach hfits hsize hresponse hbanner hline in
/-- What a number of rounds does to the course of telemetry. -/
theorem begin_tells (hwaits : s.Waits True scene) (rounds : Nat) :
    (run r host rounds begin).Reaches s fun state as s' => ∃ lines,
      Told r scripts rounds state (repliesIn as) lines ∧ Around r scripts scene state lines s' := by
  induction rounds with
  | zero =>
    rw [run, Client.reaches_pure]
    have hks : Ended r scripts [] := by
      intro i k hi
      simp at hi
    exact ⟨[], .opening 0 hks, by simpa [Around, begin] using hwaits⟩
  | succ rounds ih =>
    rw [run_succ_last]
    refine ih.bind ?_
    rintro state as s' ⟨lines, htold, haround⟩
    have hstep := step_tells hscripts haddress hreach hfits hsize hresponse hbanner hline htold
      haround
    refine (hstep.and (step_reaches r host s' state)).mono ?_
    rintro state' as' s'' ⟨⟨lines', htold', haround'⟩, hway⟩
    rw [repliesIn_append hway.block.fresh]
    exact ⟨lines', htold', haround'⟩

end

/-! ## Without a buffer -/

section

variable {σ : Type} {r : Reader} (h : Host σ)

/-- No session has come as far as polling. -/
def NotPolling (state : Supervision) : Prop := ∀ attempt k, state ≠ .running attempt (.polling k)

/-- Without a buffer no session comes as far as polling. -/
theorem NotPolling.step (hsize : largestBuffer < r.link.recvBufferSize)
    {state state' : Supervision} {as : List Action} (hstate : NotPolling state)
    (hway : SupervisionWay r state state' as) : NotPolling state' ∧ repliesIn as = [] := by
  cases hway with
  | round attempt hway =>
    cases hway with
    | start hway =>
      refine ⟨?_, hway.repliesIn_eq⟩
      cases hway with
      | polling hsize' => omega
      | _ =>
        intro _ _ heq
        cases heq
    | poll hway => exact (hstate attempt _ rfl).elim
    | «over» result k => exact ⟨hstate, rfl⟩
  | recover hway =>
    refine ⟨?_, hway.repliesIn_eq⟩
    intro _ _ heq
    cases hway <;> cases heq
  | _ =>
    refine ⟨?_, rfl⟩
    intro _ _ heq
    cases heq

/-- Without a buffer there is no reply. -/
theorem no_reply (hsize : largestBuffer < r.link.recvBufferSize) (rounds : Nat)
    {state : Supervision} (s : σ) (hstate : NotPolling state) :
    (run r h rounds state).Reaches s fun _ as _ => repliesIn as = [] := by
  have happend (as as' : List Action) (has : r.Block as ∧ repliesIn as = [])
      (has' : r.Block as' ∧ repliesIn as' = []) :
      r.Block (as ++ as') ∧ repliesIn (as ++ as') = [] := by
    refine ⟨has.1.append has'.1, ?_⟩
    rw [repliesIn_append has'.1.fresh, has.2, has'.2]
    rfl
  have hstep (state : Supervision) (s : σ) (hstate : NotPolling state) :
      (state.step r h).Reaches s fun state' as _ =>
        NotPolling state' ∧ r.Block as ∧ repliesIn as = [] := by
    refine (step_reaches r h s state).mono fun state' as _ hway => ?_
    obtain ⟨hstate', has⟩ := hstate.step hsize hway
    exact ⟨hstate', hway.block, has⟩
  exact (run_reaches r h ⟨.nil, rfl⟩ happend hstep rounds s hstate).mono fun _ _ _ hrun =>
    hrun.2.2

end

end Supervision

/-! ## The series -/

/-- The series holds the last readings of the replies, and there is a warning for every other
reply. -/
structure Reader.Records (r : Reader) (limit : Option Nat) (record : Record) : Prop where
  series : (record.series limit).toList.map (·.value) =
    Series.lastOf limit ((repliesIn record.actions).filterMap r.read)
  warnings : record.events.filter isUnreadable =
    ((repliesIn record.actions).filter (r.read · = none)).map fun bytes =>
      r.unreadable (decodeLossy bytes)

theorem Reader.Recounts.records {r : Reader} {record : Record} (h : r.Recounts record.actions)
    (limit : Option Nat) : r.Records limit record where
  series := by
    rw [Record.series, Series.toList_foldl_append, Series.map_lastOf, Record.samples_eq, h.samples]
  warnings := by rw [Record.events_eq, h.warnings]

theorem ofMillis_ne_zero {ms : Nat} (h : ms ≠ 0) : Duration.ofMillis ms ≠ .zero := by
  intro heq
  have hnanos : ms * 10 ^ 6 = 0 := congrArg Duration.nanos heq
  omega

theorem newline_not_mem_command {t : TelemetrySettings} (h : '\n' ∉ t.measurement.toList) :
    '\n' ∉ t.command.toList := by
  have hid : '\n' ∉ Nat.toDigits 10 t.sensorId := fun hmem =>
    absurd (Nat.isDigit_of_mem_toDigits (by decide) (by decide) hmem) (by decide)
  simp [TelemetrySettings.command, hid, h]

/-- **The series and the warnings are those of the replies, and these are the ones that the
scripts tell**, as far as telemetry has got. -/
theorem Supervision.run_tells (settings : Settings) (limit : Option Nat) (s : Stage)
    {first : Script} {others : List Script} (hcurrent : s.current = none) (hcalm : s.Calm)
    (haddress : s.address = settings.address) (hreach : s.reach = .scripts first others)
    (hfits : ∀ i, (scriptAt first others i).Fits settings.recvBufferSize)
    (hresponse : settings.responseTimeoutMs ≠ 0) (hbanner : settings.bannerTimeoutMs ≠ 0)
    (hkey : '\n' ∉ settings.telemetry.measurement.toList) (rounds : Nat) :
    let reader := Reader.ofSettings settings
    let out := (run reader host rounds begin).run s
    (∀ part : Record, part <+: out.2.1 →
      repliesIn part.actions <+: repliesIn out.2.1.actions ∧
        (Settled part.actions → reader.Records limit part)) ∧
      if largestBuffer < settings.recvBufferSize then repliesIn out.2.1.actions = []
      else ∃ lines, out.2.2.received = s.received ++ lines ∧
        Told reader (fun i => scriptAt first others (s.count + i)) rounds out.1
          (repliesIn out.2.1.actions) lines := by
  intro reader out
  have hwaits : s.Waits True s.scene := ⟨rfl, hcurrent, fun _ => hcalm⟩
  refine ⟨fun part hpart => ⟨repliesIn_mono (hpart.map _), fun hsettled => ?_⟩, ?_⟩
  · have hblock : reader.Block out.2.1.actions := run_block reader host rounds begin s
    exact (hblock.recounts part.actions (hpart.map _) hsettled).records limit
  · split_ifs with hsize
    · exact no_reply host hsize rounds s fun _ _ heq => nomatch heq
    · obtain ⟨lines, htold, haround⟩ := begin_tells (r := reader) (fun _ => rfl) haddress hreach
        (fun i => hfits _) (Nat.le_of_not_lt hsize) (ofMillis_ne_zero hresponse)
        (ofMillis_ne_zero hbanner) (newline_not_mem_command hkey) hwaits rounds
      refine ⟨lines, ?_, htold⟩
      rw [haround.received, hwaits.received]

/-- A server with one reading, which is not the greeting, and one session after the first. -/
theorem Supervision.run_tells_reading :
    let settings : Settings := { telemetry := { reconnectAttempts := 1 } }
    let script : Script :=
      { banner := utf8Bytes "temp: 99"
        steps := [.reply (utf8Bytes "temp: 21.5 C"), .reply (utf8Bytes "busy"), .close] }
    let s : Stage := { address := settings.address, reach := .scripts script [] }
    let reader := Reader.ofSettings settings
    let out := (run reader host 6 begin).run s
    repliesIn out.2.1.actions = [utf8Bytes "temp: 21.5 C", utf8Bytes "busy"] ∧
      reader.Records (some 0) out.2.1 ∧
      ∃ lines, out.2.2.received = s.received ++ lines ∧
        Told reader (fun i => scriptAt script [] (s.count + i)) 6 out.1
          (repliesIn out.2.1.actions) lines := by
  intro settings script s reader out
  have hfits (i : Nat) : (scriptAt script [] i).Fits settings.recvBufferSize := by
    have hscript : scriptAt script [] i = script := by cases i <;> rfl
    rw [hscript]
    refine ⟨by decide +kernel, rfl, fun i => ?_⟩
    match i with
    | 0 | 1 => exact ⟨by decide +kernel, by decide +kernel⟩
    | 2 => exact trivial
    | i + 3 => exact trivial
  have hlast : out.2.1.actions.getLast? = some (.logged reader.begins) := by decide +kernel
  have hreplies : repliesIn out.2.1.actions = [utf8Bytes "temp: 21.5 C", utf8Bytes "busy"] := by
    decide +kernel
  have hsettled : Settled out.2.1.actions := fun bytes heq => by
    rw [hlast] at heq
    cases heq
  obtain ⟨hparts, htold⟩ := run_tells settings (some 0) s rfl ⟨rfl, rfl, fun _ hv => nomatch hv⟩
    rfl rfl hfits (by decide) (by decide) (by decide) 6
  refine ⟨hreplies, (hparts out.2.1 (List.prefix_refl _)).2 hsettled, ?_⟩
  have hsize : ¬ largestBuffer < settings.recvBufferSize := by decide
  rw [if_neg hsize] at htold
  exact htold

end LineClient
