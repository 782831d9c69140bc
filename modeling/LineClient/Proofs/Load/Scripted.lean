import LineClient.Proofs.Link.Scripted
import LineClient.Proofs.Load.Accounting

/-!
# Load workers and a server that follows a script

A worker sends one command for each turn of the server, as many as it has planned, and stops early
just if the server ends the connection. What it logs of a command is told by this command and by
the turn that the server took it by, since nothing of the greeting or of an earlier reply is left
when the command is sent.

* `Worker.draws`, the commands that a worker draws; `Worker.outcome`, what it logs of one of them;
* `Worker.exchange_plays`, `Worker.rounds_plays`, one exchange and a number of them;
* `Worker.Follows`; **`Worker.run_follows`**: the report, the log and the lines that the server has
  read are those that the script tells.
-/

namespace LineClient

open Stage

namespace Worker

variable {ρ : Type} (w : Worker) (g : Generator ρ)

/-! ## What the script tells -/

/-- The first `n` commands that the worker draws. -/
def draws : (n : Nat) → ρ → List String
  | 0, _ => []
  | n + 1, x =>
    let (i, x) := g.index w.commands.length x
    w.commands.getD i "" :: draws n x

/-- The event that tells how the server took a command. -/
def outcome (command : String) : Turn → Event
  | .reply bytes =>
    { level := .info
      source := .load
      message := "Command answered"
      worker := some w.id
      command := some command
      response := some (trimBlanks (decodeLossy bytes)) }
  | _ =>
    { level := .warn
      source := .load
      message := "Timeout waiting for response"
      worker := some w.id
      command := some command }

/-- The event tells how the server took a command of the worker. -/
def isOutcome (e : Event) : Bool := w.isAnswer e || w.isTimeout e

/-- The number of commands that end without an outcome. -/
def unfinished (failure : Option ConnectionError) : Nat := if failure = some .closed then 1 else 0

/-- What a number `n` of iterations and a failure have to do with the first `count` turns of a
script. -/
structure Paced (script : Script) (count n : Nat) (failure : Option ConnectionError) : Prop where
  complete : (∀ i < count, (script.turn i).isEnd = false) → n = count ∧ failure = none
  cut : ∀ k < count, (script.turn k).isEnd = true → (∀ i < k, (script.turn i).isEnd = false) →
    n = k ∧ failure = some .closed

/-- The report and the actions of the worker are those that the script tells. -/
structure Follows (x : ρ) (script : Script) (report : WorkerReport) (as : List Action) : Prop where
  id : report.id = w.id
  planned : report.planned = (g.between w.minIterations w.maxIterations x).1
  paced : Paced script report.planned report.iterations report.failure
  timeouts : report.timeouts = (script.turns report.iterations).count .silent
  outcomes : (as.filterMap Action.event?).filter w.isOutcome =
    List.zipWith w.outcome
      (w.draws g report.iterations (g.between w.minIterations w.maxIterations x).2)
      (script.turns report.iterations)

/-! ## Lemmas on draws and outcomes -/

theorem draw_mem (hne : w.commands ≠ []) (x : ρ) :
    w.commands.getD (g.index w.commands.length x).1 "" ∈ w.commands := by
  have hindex := g.index_lt x (List.length_pos_iff.mpr hne)
  rw [List.getD_eq_getElem?_getD, List.getElem?_eq_getElem hindex]
  exact List.getElem_mem hindex

theorem isOutcome_outcome (command : String) (turn : Turn) :
    w.isOutcome (w.outcome command turn) = true := by
  cases turn <;> simp [isOutcome, isAnswer, isTimeout, outcome]

theorem filter_isOutcome_zipWith (cs : List String) (turns : List Turn) :
    (List.zipWith w.outcome cs turns).filter w.isOutcome = List.zipWith w.outcome cs turns := by
  rw [List.filter_eq_self]
  intro e he
  rw [← List.map_uncurry_zip_eq_zipWith, List.mem_map] at he
  obtain ⟨p, -, rfl⟩ := he
  exact w.isOutcome_outcome p.1 p.2

variable {w}

theorem Ledger.filter_isOutcome {as : List Action} {n : Nat} (h : w.Ledger as n 0 0) :
    (as.filterMap Action.event?).filter w.isOutcome = [] := by
  have hanswers := List.countP_eq_zero.mp h.answers
  have htimeouts := List.countP_eq_zero.mp h.timeouts
  rw [List.filter_eq_nil_iff]
  intro e he
  simp [isOutcome, hanswers e he, htimeouts e he]

theorem Leaving.filter_isOutcome {t : Tally} {failure : Option ConnectionError}
    {as : List Action} (h : w.Leaving t failure as) :
    (as.filterMap Action.event?).filter w.isOutcome = [] := by
  obtain ⟨hcountAnswers, hcountTimeouts, -⟩ := h.events
  have hanswers := List.countP_eq_zero.mp hcountAnswers
  have htimeouts := List.countP_eq_zero.mp hcountTimeouts
  rw [List.filter_eq_nil_iff]
  intro e he
  simp [isOutcome, hanswers e he, htimeouts e he]

/-! ## Lemmas on pacing -/

variable {script : Script} {failure : Option ConnectionError}

theorem paced_zero : Paced script 0 0 none :=
  ⟨fun _ => ⟨rfl, rfl⟩, fun _ hk => nomatch hk⟩

theorem paced_end {count : Nat} (h : (script.turn 0).isEnd = true) :
    Paced script (count + 1) 0 (some .closed) where
  complete hnone := by
    rw [hnone 0 (Nat.succ_pos count)] at h
    exact (Bool.false_ne_true h).elim
  cut k _ _ hbefore := by
    cases k with
    | zero => exact ⟨rfl, rfl⟩
    | succ k =>
      rw [hbefore 0 (Nat.succ_pos k)] at h
      exact (Bool.false_ne_true h).elim

theorem Paced.cons {count n : Nat} (hpaced : Paced script.next count n failure)
    (h : (script.turn 0).isEnd = false) : Paced script (count + 1) (n + 1) failure where
  complete hnone := by
    obtain ⟨rfl, hfailure⟩ := hpaced.complete fun i hi => by
      rw [Script.turn_next]
      exact hnone (i + 1) (Nat.succ_lt_succ hi)
    exact ⟨rfl, hfailure⟩
  cut k hk hend hbefore := by
    cases k with
    | zero =>
      rw [h] at hend
      exact (Bool.false_ne_true hend).elim
    | succ k =>
      rw [← Script.turn_next] at hend
      obtain ⟨rfl, hfailure⟩ := hpaced.cut k (Nat.lt_of_succ_lt_succ hk) hend fun i hi => by
        rw [Script.turn_next]
        exact hbefore (i + 1) (Nat.succ_lt_succ hi)
      exact ⟨rfl, hfailure⟩

/-! ## Exchanges -/

variable (w) {s : Stage} {calm : Prop} {scene : Scene} {lines : List (List UInt8)}

/-- How an exchange ends that the server takes by the next turn of its script. -/
theorem exchange_plays {command : String} (t : Tally) (hline : '\n' ∉ command.toList)
    (h : s.Plays calm scene (.idle script lines))
    (hfits : (script.turn 0).Fits w.link.recvBufferSize) (hwait : w.link.responseTimeout ≠ .zero) :
    (exchange w host command t).Reaches s fun o as s' =>
      ((script.turn 0).isEnd = true ∧ o = .error .closed ∧ as.filterMap Action.event? = [] ∧
        s'.Plays calm scene (.heard script.next (utf8Bytes command :: lines) (script.turn 0))) ∨
      ((script.turn 0).isEnd = false ∧
        o = .ok ⟨t.iterations + 1, t.timeouts + [script.turn 0].count .silent⟩ ∧
        as.filterMap Action.event? = [w.outcome command (script.turn 0)] ∧
          s'.Plays calm scene (.idle script.next (utf8Bytes command :: lines))) := by
  rw [exchange]
  refine (sendCommand_idle w.link command h).bind ?_
  rintro _ _ s' ⟨rfl, rfl, hasked⟩
  refine (receive_asked w.link hline hasked hfits hwait).bind ?_
  rintro o as s'' ⟨v, hanswer, hplays⟩
  -- A reply and a silence are both logged, and then the worker pauses.
  have hlogged (e : Event) (t' : Tally)
      (hidle : s''.Plays calm scene (.idle script.next (utf8Bytes command :: lines))) :
      (Client.log host e >>= fun _ => Client.pause host w.commandDelay >>= fun _ =>
        pure (Except.ok t')).Reaches s'' fun (o : Except ConnectionError Tally) as s₃ =>
          o = .ok t' ∧ as.filterMap Action.event? = [e] ∧
            s₃.Plays calm scene (.idle script.next (utf8Bytes command :: lines)) := by
    rw [Client.reaches_bind, Client.reaches_log]
    refine (pause_quiet (hidle.observe _) (Visit.quiet_idle _ _) _).bind ?_
    rintro _ _ s₃ ⟨rfl, hpaused⟩
    exact ⟨rfl, rfl, hpaused⟩
  generalize script.turn 0 = turn at hanswer
  cases hanswer with
  | reply bytes =>
    refine (hlogged _ _ hplays).mono ?_
    rintro _ as s₃ ⟨rfl, has, hpaused⟩
    exact .inr ⟨rfl, rfl, has, hpaused⟩
  | silent =>
    refine (hlogged _ _ hplays).mono ?_
    rintro _ as s₃ ⟨rfl, has, hpaused⟩
    exact .inr ⟨rfl, rfl, has, hpaused⟩
  | close => exact .inl ⟨rfl, rfl, rfl, hplays⟩
  | reset => exact .inl ⟨rfl, rfl, rfl, hplays⟩

/-! ## Rounds -/

/-- Every turn of the script gives the worker an outcome or ends the connection, so the rounds go
along the script, and so do the lines that the server has read. -/
theorem rounds_plays (hne : w.commands ≠ []) (hlines : ∀ c ∈ w.commands, '\n' ∉ c.toList)
    (hwait : w.link.responseTimeout ≠ .zero) (count : Nat) (x : ρ) (t : Tally)
    (h : s.Plays calm scene (.idle script lines))
    (hfits : ∀ i, (script.turn i).Fits w.link.recvBufferSize) :
    (rounds w host g count x t).Reaches s fun o as s' => ∃ n v,
      o.1 = ⟨t.iterations + n, t.timeouts + (script.turns n).count .silent⟩ ∧
        Paced script count n o.2 ∧
        as.filterMap Action.event? = List.zipWith w.outcome (w.draws g n x) (script.turns n) ∧
        s'.Plays calm scene v ∧ v.Quiet ∧
        v.lines = ((w.draws g (n + unfinished o.2) x).map utf8Bytes).reverse ++ lines := by
  induction count generalizing x t s script lines with
  | zero =>
    rw [rounds]
    exact ⟨0, _, rfl, paced_zero, rfl, h, Visit.quiet_idle _ _, rfl⟩
  | succ count ih =>
    have hempty : ¬ w.commands.isEmpty = true := fun e => hne (List.isEmpty_iff.mp e)
    have hline := hlines _ (w.draw_mem g hne x)
    rw [rounds, if_neg hempty]
    refine (w.exchange_plays t hline h (hfits 0) hwait).bind fun o as s' ho => ?_
    obtain ⟨hend, rfl, has, hplays⟩ | ⟨hend, rfl, has, hplays⟩ := ho
    · refine (Client.reaches_pure _ _).mpr
        ⟨0, _, rfl, paced_end hend, ?_, hplays, Visit.quiet_heard _ _ _, ?_⟩
      · rw [List.append_nil]
        exact has
      · rw [Visit.lines_heard]
        rfl
    · have hfits' : ∀ i, (script.next.turn i).Fits w.link.recvBufferSize := fun i => by
        rw [Script.turn_next]
        exact hfits (i + 1)
      refine (ih (g.index w.commands.length x).2 _ hplays hfits').mono ?_
      rintro ⟨t', failure⟩ as' s'' ⟨n, v, htally, hpaced, hevents, hplays', hquiet, hread⟩
      refine ⟨n + 1, v, ?_, hpaced.cons hend, ?_, hplays', hquiet, ?_⟩
      · have hcount : (script.turns (n + 1)).count .silent =
            [script.turn 0].count .silent + (script.next.turns n).count .silent := by
          rw [Script.turns_succ, ← List.count_append]
          rfl
        rw [htally, hcount, Nat.add_assoc, Nat.add_assoc, Nat.add_comm 1 n]
      · rw [List.filterMap_append, has, hevents, Script.turns_succ]
        rfl
      · rw [hread, Nat.add_right_comm, draws, List.map_cons, List.reverse_cons, List.append_assoc]
        rfl

/-! ## The run -/

/-- Whether the greeting comes during the pause or the reading, it is read before any command. -/
theorem greet_plays (h : s.Plays calm scene (.fresh script))
    (hfits : script.Fits w.link.recvBufferSize) (hbanner : w.link.bannerTimeout ≠ .zero) :
    (w.greet host).Reaches s fun _ _ s' => s'.Plays calm scene (.idle script []) := by
  have hready := h.observe (.logged w.ready)
  have hattend := Visit.attend_fresh hfits.arrival
  have hdrain : (drainBanner host w.link).Reaches
      (host.observe (.waited w.bannerGrace)
        (host.pause w.bannerGrace (host.observe (.logged w.ready) s)))
      fun _ _ s' => s'.Plays calm scene (.idle script []) := by
    obtain hpaused | hpaused := hready.pause hattend w.bannerGrace
    · exact (drainBanner_plays w.link (hpaused.observe _) hattend
        (absurd · Bool.false_ne_true) hfits.banner hbanner).mono fun _ _ _ ho => ho.2
    · exact (drainBanner_plays w.link (hpaused.observe _)
        (Visit.attend_of_quiet (Visit.quiet_greeting _)) (fun _ => rfl) hfits.banner
          hbanner).mono fun _ _ _ ho => ho.2
  rw [greet, Client.reaches_bind, Client.reaches_log, Client.reaches_bind, Client.reaches_pause]
  refine hdrain.bind fun banner as s' hplays => ?_
  cases banner with
  | none => exact hplays
  | some banner => exact hplays.observe _

/-- Nothing that the worker logs before and after its rounds is an outcome. -/
theorem follows_report {x x' : ρ} {n planned : Nat} {before as last : List Action}
    (hbefore : w.Ledger before 0 0 0)
    (hdraw : g.between w.minIterations w.maxIterations x = (planned, x'))
    (hpaced : Paced script planned n failure)
    (hevents :
      as.filterMap Action.event? = List.zipWith w.outcome (w.draws g n x') (script.turns n))
    (hlast : w.Leaving ⟨n, (script.turns n).count .silent⟩ failure last) :
    w.Follows g x script (w.report planned ⟨n, (script.turns n).count .silent⟩ failure)
      (before ++ (as ++ last)) where
  id := rfl
  planned := by rw [hdraw]; rfl
  paced := hpaced
  timeouts := rfl
  outcomes := by
    rw [List.filterMap_append, List.filterMap_append, List.filter_append, List.filter_append,
      hbefore.filter_isOutcome, hevents, filter_isOutcome_zipWith, hlast.filter_isOutcome,
      List.append_nil, List.nil_append, hdraw]
    rfl

/-- The server has read all lines that a worker wrote before it leaves. -/
theorem finish_plays {v : Visit} (h : s.Plays calm scene v) (hv : v.Quiet) (planned : Nat)
    (t : Tally) : (w.finish host planned t failure).Reaches s fun _ _ s' =>
      s'.received = scene.past ++ [v.lines.reverse] := by
  cases failure with
  | none =>
    rw [finish, closeLink_host]
    exact (dropLink_plays h hv).bind fun _ _ _ hdrop => hdrop.2.received
  | some e =>
    refine (dropLink_plays h hv).bind fun _ _ s' hdrop => ?_
    exact (hdrop.2.observe (.logged (w.stopped t e))).received

/-- The rounds and the end of a worker whose connection is idle. -/
theorem converse_plays (hle : w.minIterations ≤ w.maxIterations) (hne : w.commands ≠ [])
    (hlines : ∀ c ∈ w.commands, '\n' ∉ c.toList) (hwait : w.link.responseTimeout ≠ .zero)
    {before : List Action} (hbefore : w.Ledger before 0 0 0)
    (h : s.Plays calm scene (.idle script [])) (hfits : script.Fits w.link.recvBufferSize)
    (x : ρ) :
    (w.converse host g x).Reaches s fun o as s' => ∃ report, o = some report ∧
      w.Follows g x script report (before ++ as) ∧
      s'.received = scene.past ++ [(w.draws g (report.iterations + unfinished report.failure)
        (g.between w.minIterations w.maxIterations x).2).map utf8Bytes] := by
  rw [converse, if_neg (Nat.not_lt.mpr hle)]
  generalize hdraw : g.between w.minIterations w.maxIterations x = drawn
  obtain ⟨planned, x'⟩ := drawn
  refine (w.rounds_plays g hne hlines hwait planned x' {} h hfits.turn).bind ?_
  rintro ⟨t, failure⟩ as s' ⟨n, v, htally, hpaced, hevents, hplays, hquiet, hread⟩
  obtain rfl : t = ⟨n, (script.turns n).count .silent⟩ := by
    rw [Nat.zero_add, Nat.zero_add] at htally
    exact htally
  have hlines : v.lines.reverse = (w.draws g (n + unfinished failure) x').map utf8Bytes := by
    rw [hread, List.append_nil, List.reverse_reverse]
  refine ((finish_reaches host planned _ failure s').and
    (w.finish_plays hplays hquiet planned _)).mono ?_
  rintro _ last s'' ⟨⟨rfl, hlast⟩, hreceived⟩
  rw [hlines] at hreceived
  exact ⟨_, rfl, w.follows_report g hbefore hdraw hpaced hevents hlast, hreceived⟩

/-- **A worker follows the script of its connection.** Only as many turns as the worker has planned
commands are of any account. -/
theorem run_follows (x : ρ) (s : Stage) {first : Script} {others : List Script}
    (haddress : s.address = w.address) (hreach : s.reach = .scripts first others)
    (hfits : (scriptAt first others s.count).Fits w.link.recvBufferSize)
    (hresponse : w.link.responseTimeout ≠ .zero) (hbanner : w.link.bannerTimeout ≠ .zero)
    (hle : w.minIterations ≤ w.maxIterations) (hne : w.commands ≠ [])
    (hlines : ∀ c ∈ w.commands, '\n' ∉ c.toList) :
    (w.run host g x).Reaches s fun o as s' =>
      if largestBuffer < w.link.recvBufferSize then o = none
      else ∃ report, o = some report ∧
        w.Follows g x (scriptAt first others s.count) report as ∧
        s'.received = s.received ++
          [(w.draws g (report.iterations + unfinished report.failure)
            (g.between w.minIterations w.maxIterations x).2).map utf8Bytes] := by
  rw [run]
  refine (openLink_scripts w.link (waits_leave s) haddress hreach).bind fun o as s' ho => ?_
  split_ifs at ho ⊢ with hsize
  · obtain ⟨rfl, -⟩ := ho
    exact rfl
  · obtain ⟨rfl, rfl, hplays⟩ := ho
    refine ((greet_reaches host s').and (w.greet_plays hplays hfits hbanner)).bind ?_
    rintro _ as s'' ⟨hledger, hidle⟩
    have hbefore := (ledger_opened (.opened (Nat.le_of_not_lt hsize))).append hledger
    refine (w.converse_plays g hle hne hlines hresponse hbefore hidle hfits x).mono ?_
    rintro o as' s₃ ⟨report, rfl, hfollows, hreceived⟩
    rw [List.append_assoc] at hfollows
    exact ⟨report, rfl, hfollows, hreceived⟩

/-- A server that ends the connection at the third command, and a worker that is to send five. -/
theorem run_follows_close :
    ((ofSettings { load :=
      { minIterations := 5, maxIterations := 5, commands := ["uptime"] } } 0).run
      host .listed []).Reaches
      { address := Settings.address {}
        reach := .scripts
          { banner := [104, 105, 10], steps := [.reply [111, 107], .silent, .close] } [] }
      fun o _ s' => ∃ report, o = some report ∧ report.planned = 5 ∧ report.iterations = 2 ∧
        report.timeouts = 1 ∧ report.failure = some .closed ∧
        s'.received = [[utf8Bytes "uptime", utf8Bytes "uptime", utf8Bytes "uptime"]] := by
  refine (run_follows (ofSettings { load :=
    { minIterations := 5, maxIterations := 5, commands := ["uptime"] } } 0) .listed []
    { address := Settings.address {}
      reach := .scripts
        { banner := [104, 105, 10], steps := [.reply [111, 107], .silent, .close] } [] }
    rfl rfl ⟨by decide, rfl, ?_⟩ (by decide) (by decide) (by decide) (by decide)
    (by decide)).mono ?_
  · intro i
    match i with
    | 0 => exact ⟨by decide, by decide⟩
    | 1 | 2 => exact trivial
    | i + 3 => exact trivial
  · intro o as s' ho
    rw [if_neg (by decide)] at ho
    obtain ⟨report, rfl, hfollows, hreceived⟩ := ho
    have hplanned : report.planned = 5 := hfollows.planned.trans (by decide +kernel)
    obtain ⟨hn, hfailure⟩ := hfollows.paced.cut 2 (by omega) rfl (by decide)
    refine ⟨report, rfl, hplanned, hn, ?_, hfailure, ?_⟩
    · rw [hfollows.timeouts, hn]
      decide
    · rw [hreceived, hn, hfailure]
      decide +kernel

end Worker

end LineClient
