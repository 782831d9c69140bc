import LineClient.Proofs.Link.Serving
import LineClient.Proofs.Load.Contained
import LineClient.Proofs.Settings.Faultless

/-!
# A load whose commands are all answered

Against a server that reads and answers every line no worker fails and none waits in vain. The
server receives just the lines of the commands that the summary counts, so the summary counts what
the server saw, line by line, if no command has a line break.

* `Worker.exchange_serves`, `Worker.rounds_serves`, **`Worker.run_serves`**, one worker;
* `Stage.Answers`, the server; `LoadRun.sent`, `LoadRun.linesReceived`, both ends of the load;
* `LoadRun.Answered`; **`runLoad_answered`**.
-/

namespace LineClient

open Stage

/-! ## One worker -/

namespace Worker

variable {ρ : Type} (w : Worker) (g : Generator ρ) {s : Stage} {calm : Prop} {scene : Scene}
  {v : Visit} {lines : List (List UInt8)}

/-- The lines of commands, one command after the other. -/
def linesSent (as : List Action) : List (List UInt8) :=
  (as.filterMap Action.sent?).flatMap commandLines

/-- The actions send so many of the commands of the worker, and the server is still there and has
been sent their lines. -/
structure Served (count : Nat) (calm : Prop) (scene : Scene) (lines : List (List UInt8))
    (as : List Action) (s : Stage) : Prop where
  count : (as.filterMap Action.sent?).length = count
  chosen : ∀ c ∈ as.filterMap Action.sent?, c ∈ w.commands
  serves : ∃ v, s.Plays calm scene v ∧ v.Serves w.link.recvBufferSize (lines ++ linesSent as)

variable (hmax : w.link.recvBufferSize ≠ 0) (hwait : w.link.responseTimeout ≠ .zero)
include hmax hwait

/-- **Every command has a reply.** -/
theorem exchange_serves {command : String} (hcommand : command ∈ w.commands) (t : Tally)
    (h : s.Plays calm scene v) (hv : v.Serves w.link.recvBufferSize lines) :
    (exchange w host command t).Reaches s fun o as s' =>
      o = .ok ⟨t.iterations + 1, t.timeouts⟩ ∧ w.Served 1 calm scene lines as s' := by
  rw [exchange]
  refine (sendCommand_serves w.link h hv command).bind ?_
  rintro _ _ s₁ ⟨rfl, rfl, v₁, hplays₁, hserves₁, hwaiting⟩
  refine (receive_serves w.link hplays₁ hserves₁ hmax hwait hwaiting).bind ?_
  rintro _ _ s₂ ⟨⟨bytes, rfl, rfl⟩, v₂, hplays₂, hserves₂⟩
  rw [Client.reaches_bind, Client.reaches_log]
  refine (pause_serves (hplays₂.observe _) hserves₂ w.commandDelay).bind ?_
  rintro _ _ s₃ ⟨rfl, v₃, hplays₃, hserves₃⟩
  refine ⟨rfl, rfl, ?_, v₃, hplays₃, ?_⟩
  · intro c hc
    rwa [List.mem_singleton.mp hc]
  · have hsent : linesSent [.sent command] = commandLines command := List.append_nil _
    exact hsent ▸ hserves₃

theorem rounds_serves (hne : w.commands ≠ []) (count : Nat) (x : ρ) (t : Tally)
    (h : s.Plays calm scene v) (hv : v.Serves w.link.recvBufferSize lines) :
    (rounds w host g count x t).Reaches s fun o as s' =>
      o = (⟨t.iterations + count, t.timeouts⟩, none) ∧ w.Served count calm scene lines as s' := by
  induction count generalizing s v lines x t with
  | zero =>
    rw [rounds]
    refine ⟨rfl, rfl, fun _ hc => (List.not_mem_nil hc).elim, v, h, ?_⟩
    exact (List.append_nil lines).symm ▸ hv
  | succ count ih =>
    have hempty : ¬ w.commands.isEmpty = true := fun e => hne (List.isEmpty_iff.mp e)
    rw [rounds, if_neg hempty]
    refine (w.exchange_serves hmax hwait (w.draw_mem g hne x) t h hv).bind ?_
    rintro _ as s₁ ⟨rfl, hcount, hchosen, v₁, hplays₁, hserves₁⟩
    refine (ih (g.index w.commands.length x).2 _ hplays₁ hserves₁).mono ?_
    rintro _ as' s₂ ⟨rfl, hcount', hchosen', v₂, hplays₂, hserves₂⟩
    refine ⟨?_, ?_, ?_, v₂, hplays₂, ?_⟩
    · rw [Nat.add_assoc, Nat.add_comm 1 count]
    · rw [List.filterMap_append, List.length_append, hcount, hcount', Nat.add_comm]
    · intro c hc
      rw [List.filterMap_append, List.mem_append] at hc
      exact hc.elim (hchosen c) (hchosen' c)
    · rw [linesSent, List.filterMap_append, List.flatMap_append, ← List.append_assoc]
      exact hserves₂

/-- The worker has sent all the commands that it planned, each of them has been answered, and the
server has read their lines on one connection. -/
structure Completes (s : Stage) (o : Option WorkerReport) (as : List Action) (s' : Stage) :
    Prop where
  report : let count := (as.filterMap Action.sent?).length
    o = some ⟨w.id, count, count, 0, none⟩
  chosen : ∀ c ∈ as.filterMap Action.sent?, c ∈ w.commands
  received : s'.received = s.received ++ [linesSent as]

omit hmax hwait

/-- **A worker whose server answers every line.** -/
theorem run_serves (hsize : w.link.recvBufferSize ≤ largestBuffer)
    (hmax : w.link.recvBufferSize ≠ 0) (hwait : w.link.responseTimeout ≠ .zero)
    (hbanner : w.link.bannerTimeout ≠ .zero) (hle : w.minIterations ≤ w.maxIterations)
    (hne : w.commands ≠ []) (x : ρ) (s : Stage) {first : Script} {others : List Script}
    (haddress : s.address = w.address) (hreach : s.reach = .scripts first others)
    (hfits : (scriptAt first others s.count).Fits w.link.recvBufferSize)
    (hanswers : (scriptAt first others s.count).Answers w.link.recvBufferSize) :
    (w.run host g x).Reaches s fun o as s' => w.Completes s o as s' := by
  rw [run]
  refine (openLink_scripts w.link (waits_leave s) haddress hreach).bind fun o as s₁ ho => ?_
  rw [if_neg (Nat.not_lt.mpr hsize)] at ho
  obtain ⟨rfl, rfl, hfresh⟩ := ho
  refine ((greet_reaches host s₁).and (w.greet_plays hfresh hfits hbanner)).bind ?_
  rintro _ as s₂ ⟨hledger, hidle⟩
  have hunsent : as.filterMap Action.sent? = [] := List.length_eq_zero_iff.mp hledger.sent
  rw [converse, if_neg (Nat.not_lt.mpr hle)]
  generalize g.between w.minIterations w.maxIterations x = drawn
  obtain ⟨planned, x'⟩ := drawn
  refine (w.rounds_serves g hmax hwait hne planned x' {} hidle (Visit.serves_idle hanswers)).bind ?_
  rintro _ as' s₃ ⟨rfl, hcount, hchosen, v, hplays, hserves⟩
  refine (closeLink_serves hplays hserves).bind ?_
  rintro _ _ s₄ ⟨rfl, hreceived⟩
  have hsent : ([.opened, .logged (connected w.address)] ++ (as ++ (as' ++ ([.closed] ++ [])))
      : List Action).filterMap Action.sent? = as'.filterMap Action.sent? := by
    simp only [List.filterMap_append, hunsent]
    exact List.append_nil _
  refine (Client.reaches_pure _ _).mpr ⟨?_, ?_, ?_⟩
  · rw [hsent, hcount, Nat.zero_add]
    rfl
  · rwa [hsent]
  · rw [linesSent, hsent]
    exact hreceived

end Worker

/-! ## All workers -/

/-- Somebody answers every line of the next connection that is made to the address of the settings.
The server greets or not, and has received nothing yet. -/
structure Stage.Answers (s : Stage) (settings : Settings) : Prop where
  address : s.address = settings.address
  received : s.received = []
  script : ∃ first others, s.reach = .scripts first others ∧
    (scriptAt first others s.count).banner.length ≤ settings.recvBufferSize ∧
    (scriptAt first others s.count).arrival = .silent ∧
    (scriptAt first others s.count).Answers settings.recvBufferSize

namespace LoadRun

/-- The commands that the workers send. -/
def sent {σ : Type} (run : LoadRun σ) : List String :=
  run.workers.flatMap fun worker => worker.record.actions.filterMap Action.sent?

/-- The lines that the server reads, over all connections. -/
def linesReceived (run : LoadRun Stage) : List (List UInt8) :=
  run.workers.flatMap fun worker => worker.state.received.flatten

/-- The load runs to its end, and the server receives the commands that the summary counts. -/
structure Answered (run : LoadRun Stage) : Prop where
  failed : run.summary.failed = 0
  timeouts : run.summary.timeouts = 0
  connections : ∀ worker ∈ run.workers, ∃ lines, worker.state.received = [lines]
  commands : run.summary.commands = run.sent.length
  chosen : ∀ c ∈ run.sent, c ∈ run.settings.load.commands
  lines : run.linesReceived = run.sent.flatMap commandLines
  /-- Each line break in a command that is sent is a line more. -/
  length_lines : run.linesReceived.length =
    run.summary.commands + (run.sent.map fun c => c.toList.count '\n').sum
  /-- Without line breaks every line is a command. -/
  whole : (∀ c ∈ run.settings.load.commands, '\n' ∉ c.toList) →
    run.summary.commands = run.linesReceived.length ∧
      ∀ line ∈ run.linesReceived, ∃ c ∈ run.settings.load.commands, line = utf8Bytes c

end LoadRun

theorem length_flatMap_commandLines (commands : List String) :
    (commands.flatMap commandLines).length =
      commands.length + (commands.map fun c => c.toList.count '\n').sum := by
  induction commands with
  | nil => rfl
  | cons c commands ih =>
    rw [List.flatMap_cons, List.length_append, ih, length_commandLines, List.length_cons,
      List.map_cons, List.sum_cons]
    omega

section

variable {settings : Settings} (hsound : settings.fault? = none)
  (hsize : settings.recvBufferSize ≤ largestBuffer) (hresponse : settings.responseTimeoutMs ≠ 0)
  (hbanner : settings.bannerTimeoutMs ≠ 0) (unseeded : Nat → ChaCha) {states : Nat → Stage}
include hsound hsize hresponse hbanner

theorem runWorker_completes {id : Nat} (hstate : (states id).Answers settings) :
    (Worker.ofSettings settings id).Completes (states id)
      (runWorker host settings unseeded states id).report
      (runWorker host settings unseeded states id).record.actions
      (runWorker host settings unseeded states id).state := by
  obtain ⟨haddress, -, first, others, hreach, hgreeting, harrival, hanswers⟩ := hstate
  have hpositive {ms : Nat} (hms : ms ≠ 0) : Duration.ofMillis ms ≠ .zero := fun hzero => by
    have hnanos : ms * 10 ^ 6 = 0 := congrArg Duration.nanos hzero
    omega
  have hfits : (scriptAt first others (states id).count).Fits settings.recvBufferSize := by
    refine ⟨hgreeting, harrival, fun i => ?_⟩
    obtain ⟨bytes, hne, hlength, hturn⟩ := hanswers i
    rw [hturn]
    exact ⟨hne, hlength⟩
  obtain ⟨hmax, -, -, -, hle, hne⟩ := Settings.fault?_eq_none.mp hsound
  obtain ⟨x, hrun⟩ := runWorker_eq host settings unseeded states id
  rw [hrun]
  exact Worker.run_serves (Worker.ofSettings settings id) ChaCha.generator hsize hmax
    (hpositive hresponse) (hpositive hbanner) hle hne x (states id) haddress hreach hfits hanswers

/-- The workers of a load are all alike: each of them has sent all of its commands. -/
theorem summary_of_completes
    (hstates : ∀ id < settings.load.workers, (states id).Answers settings) :
    (runLoad host settings unseeded states).summary =
      ⟨(List.range settings.load.workers).map fun id =>
        let count := ((runWorker host settings unseeded states id).record.actions.filterMap
          Action.sent?).length
        ⟨id, count, count, 0, none⟩, 0⟩ := by
  have hreport (id : Nat) (hid : id ∈ List.range settings.load.workers) :=
    (runWorker_completes hsound hsize hresponse hbanner unseeded
      (hstates id (List.mem_range.mp hid))).report
  rw [runLoad_summary, ← List.filterMap_eq_map]
  congr 1
  · exact List.filterMap_congr hreport
  · rw [List.countP_eq_zero]
    intro id hid
    rw [hreport id hid]
    exact Bool.false_ne_true

/-- **The summary counts what the server saw**: the commands whose lines it has received. -/
theorem runLoad_answered (hstates : ∀ id < settings.load.workers, (states id).Answers settings) :
    (runLoad host settings unseeded states).Answered := by
  have hcompletes (id : Nat) (hid : id ∈ List.range settings.load.workers) :=
    runWorker_completes hsound hsize hresponse hbanner unseeded
      (hstates id (List.mem_range.mp hid))
  have hsummary := summary_of_completes hsound hsize hresponse hbanner unseeded hstates
  have hcommands : (runLoad host settings unseeded states).summary.commands =
      (runLoad host settings unseeded states).sent.length := by
    rw [LoadSummary.commands_eq, hsummary, LoadRun.sent, List.length_flatMap]
    simp only [runLoad, List.map_map, Function.comp_def]
  have hchosen : ∀ c ∈ (runLoad host settings unseeded states).sent,
      c ∈ settings.load.commands := by
    intro c hc
    simp only [LoadRun.sent, runLoad, List.mem_flatMap, List.mem_map] at hc
    obtain ⟨_, ⟨id, hid, rfl⟩, hc⟩ := hc
    exact (hcompletes id hid).chosen c hc
  have hlines : (runLoad host settings unseeded states).linesReceived =
      (runLoad host settings unseeded states).sent.flatMap commandLines := by
    rw [LoadRun.linesReceived, LoadRun.sent, List.flatMap_assoc]
    simp only [runLoad, List.flatMap_map]
    refine List.flatMap_congr fun id hid => ?_
    rw [(hcompletes id hid).received, (hstates id (List.mem_range.mp hid)).received]
    exact List.append_nil _
  have hlength : (runLoad host settings unseeded states).linesReceived.length =
      (runLoad host settings unseeded states).summary.commands +
        ((runLoad host settings unseeded states).sent.map fun c => c.toList.count '\n').sum := by
    rw [hlines, hcommands, length_flatMap_commandLines]
  refine
    { failed := ?_
      timeouts := ?_
      connections := fun worker hworker => ?_
      commands := hcommands
      chosen := hchosen
      lines := hlines
      length_lines := hlength
      whole := fun hwhole => ⟨?_, fun line hline => ?_⟩ }
  · rw [hsummary, LoadSummary.failed, List.countP_map]
    simp
  · rw [LoadSummary.timeouts_eq, hsummary]
    simp [Function.comp_def]
  · obtain ⟨hid, heq⟩ := mem_workers host settings unseeded states hworker
    have hreceived := (hcompletes worker.id (List.mem_range.mpr hid)).received
    rw [heq, hreceived, (hstates worker.id hid).received]
    exact ⟨_, rfl⟩
  · have hnone : ((runLoad host settings unseeded states).sent.map fun c =>
        c.toList.count '\n').sum = 0 := by
      refine List.sum_eq_zero fun n hn => ?_
      obtain ⟨c, hc, rfl⟩ := List.mem_map.mp hn
      exact List.count_eq_zero_of_not_mem (hwhole c (hchosen c hc))
    rw [hlength, hnone, Nat.add_zero]
  · rw [hlines, List.mem_flatMap] at hline
    obtain ⟨c, hc, hmem⟩ := hline
    rw [commandLines_of_whole (hwhole c (hchosen c hc))] at hmem
    exact ⟨c, hchosen c hc, List.mem_singleton.mp hmem⟩

end

/-- Two workers send two commands each, after a greeting. -/
theorem runLoad_answered_two :
    let load : LoadSettings :=
      { workers := 2
        minIterations := 2
        maxIterations := 2
        seed := some 0
        commands := ["uptime"] }
    let settings : Settings := { load }
    let script : Script := { banner := utf8Bytes "hi\n", after := .reply (utf8Bytes "ok\n") }
    let states := fun _ => { address := settings.address, reach := .scripts script [] : Stage }
    let run := runLoad Stage.host settings (fun _ => .ofSeed 0) states
    run.summary.commands = 4 ∧ run.linesReceived = List.replicate 4 (utf8Bytes "uptime") ∧
      run.Answered := by
  intro load settings script states run
  have hstates : ∀ id < settings.load.workers, (states id).Answers settings := fun id _ =>
    ⟨rfl, rfl, script, [], rfl, by decide +kernel, rfl,
      fun i => ⟨utf8Bytes "ok\n", by decide +kernel, by decide +kernel, rfl⟩⟩
  have hanswered : run.Answered := runLoad_answered (by decide) (by decide) (by decide) (by decide)
    (fun _ => .ofSeed 0) hstates
  have hlines : run.linesReceived = List.replicate 4 (utf8Bytes "uptime") := by decide +kernel
  refine ⟨?_, hlines, hanswered⟩
  rw [(hanswered.whole (by decide)).1]
  exact congrArg List.length hlines

/-- A command with a line break is two lines for a server, and none of them is a command of the
settings. The summary counts one command. -/
theorem linesReceived_of_broken_command :
    let load : LoadSettings :=
      { workers := 1, minIterations := 1, maxIterations := 1, seed := some 0, commands := ["a\nb"] }
    let settings : Settings := { load }
    let script : Script := { steps := [.reply (utf8Bytes "ok")], after := .reply (utf8Bytes "\n") }
    let states := fun _ => { address := settings.address, reach := .scripts script [] : Stage }
    let run := runLoad Stage.host settings (fun _ => .ofSeed 0) states
    settings.fault? = none ∧ settings.recvBufferSize ≤ largestBuffer ∧
      (∀ id, (states id).Answers settings) ∧
      run.summary.commands = 1 ∧ run.linesReceived = [utf8Bytes "a", utf8Bytes "b"] ∧
      ¬ (run.summary.commands = run.linesReceived.length ∧ ∀ line ∈ run.linesReceived,
        ∃ c ∈ settings.load.commands, line = utf8Bytes c) := by
  intro load settings script states run
  have hlines : run.linesReceived = [utf8Bytes "a", utf8Bytes "b"] := by decide +kernel
  have hcommands : run.summary.commands = 1 := by decide +kernel
  have hanswers : script.Answers settings.recvBufferSize := by
    intro i
    cases i with
    | zero => exact ⟨utf8Bytes "ok", by decide +kernel, by decide +kernel, rfl⟩
    | succ i => exact ⟨utf8Bytes "\n", by decide +kernel, by decide +kernel, rfl⟩
  refine ⟨by decide, by decide, fun id => ?_, hcommands, hlines, ?_⟩
  · exact ⟨rfl, rfl, script, [], rfl, by decide +kernel, rfl, hanswers⟩
  · rintro ⟨hlength, -⟩
    rw [hlines, hcommands] at hlength
    exact absurd hlength (by decide)

end LineClient
