import LineClient.Link.Dialogue
import LineClient.Load.Worker
import LineClient.Proofs.Link.Ways
import LineClient.Proofs.Random.Bounds

/-!
# The report of a load worker and what it did

Whatever the server does, and wherever the conversation breaks off, the numbers in the report of a
worker agree with what the worker has sent and logged.

* `ExchangeWay`, the ways in which an exchange ends;
* `Worker.Ledger`, what a stretch of actions counts; `Worker.Ledger.append`;
* `Worker.rounds_reaches`, the tally of a number of exchanges and their ledger;
* `Worker.Accounted`; **`Worker.run_accounted`**: every report accounts for its run, and a worker
  leaves no report just if it has a connection and can have no buffer.
-/

namespace LineClient

namespace Worker

variable {σ ρ : Type} (w : Worker)

/-! ## Exchanges -/

/-- How an exchange ends. -/
inductive ExchangeWay (command : String) (t : Tally) :
    Except ConnectionError Tally → List Action → Prop
  | answered (c : Chunk w.link.recvBufferSize) :
    ExchangeWay command t (.ok ⟨t.iterations + 1, t.timeouts⟩)
      [.sent command, .received c.bytes, .logged (w.answered command (decodeLossy c.bytes)),
        .waited w.commandDelay]
  | unanswered :
    ExchangeWay command t (.ok ⟨t.iterations + 1, t.timeouts + 1⟩)
      [.sent command, .silence w.link.responseTimeout, .logged (w.unanswered command),
        .waited w.commandDelay]
  | closed (failure : Option IoError) : ExchangeWay command t (.error .closed)
    (.sent command :: (failureLog readFailed failure ++ [.ended]))
  | cut (count : Nat) (hcount : count < (commandLine command).size) (cause : IoError) :
    ExchangeWay command t (.error (.write cause)) [.cut command count]

variable (h : Host σ) (g : Generator ρ)

theorem exchange_reaches (command : String) (t : Tally) (s : σ) :
    (exchange w h command t).Reaches s fun o as _ => w.ExchangeWay command t o as := by
  rw [exchange]
  refine (sendCommand_reaches h w.link s command).bind fun o as s' ho => ?_
  cases ho with
  | cut count hcount cause => exact .cut count hcount cause
  | sent =>
    refine (readOnce_reaches h w.link s' w.link.responseTimeout).bind fun o as s'' ho => ?_
    cases ho with
    | chunk c => exact .answered c
    | ended failure =>
      change w.ExchangeWay command t _
        ([.sent command] ++ (failureLog readFailed failure ++ [.ended] ++ []))
      rw [List.append_nil]
      exact .closed failure
    | silence => exact .unanswered

/-! ## Ledgers -/

/-- The event tells of a reply to the worker. -/
def isAnswer (e : Event) : Bool := e.worker = some w.id ∧ e.message = "Command answered"

/-- The event tells that a reply to the worker did not come in time. -/
def isTimeout (e : Event) : Bool :=
  e.worker = some w.id ∧ e.message = "Timeout waiting for response"

@[simp] theorem isAnswer_answered (command response : String) :
    w.isAnswer (w.answered command response) = true := by
  simp [isAnswer, answered, event]

@[simp] theorem isTimeout_answered (command response : String) :
    w.isTimeout (w.answered command response) = false := by
  simp [isTimeout, answered, event]

@[simp] theorem isAnswer_unanswered (command : String) :
    w.isAnswer (w.unanswered command) = false := by
  simp [isAnswer, unanswered, event]

@[simp] theorem isTimeout_unanswered (command : String) :
    w.isTimeout (w.unanswered command) = true := by
  simp [isTimeout, unanswered, event]

@[simp] theorem level_answered (command response : String) :
    (w.answered command response).level = .info := rfl

@[simp] theorem level_unanswered (command : String) : (w.unanswered command).level = .warn := rfl

@[simp] theorem isAnswer_readFailed (cause : IoError) : w.isAnswer (readFailed cause) = false := by
  simp [isAnswer, readFailed]

@[simp] theorem isTimeout_readFailed (cause : IoError) :
    w.isTimeout (readFailed cause) = false := by
  simp [isTimeout, readFailed]

@[simp] theorem isAnswer_shutdownFailed (cause : IoError) :
    w.isAnswer (shutdownFailed cause) = false := by
  simp [isAnswer, shutdownFailed]

@[simp] theorem isTimeout_shutdownFailed (cause : IoError) :
    w.isTimeout (shutdownFailed cause) = false := by
  simp [isTimeout, shutdownFailed]

/-- What a stretch of actions counts: commands sent as whole lines, replies, and replies that did
not come in time. It tells of no failure. -/
structure Ledger (as : List Action) (sent answers timeouts : Nat) : Prop where
  sent : (as.filterMap Action.sent?).length = sent
  answers : (as.filterMap Action.event?).countP w.isAnswer = answers
  timeouts : (as.filterMap Action.event?).countP w.isTimeout = timeouts
  failures : (as.filterMap Action.event?).filter (·.level = .error) = []

variable {w}

theorem Ledger.nil : w.Ledger [] 0 0 0 := ⟨rfl, rfl, rfl, rfl⟩

theorem Ledger.append {as as' : List Action} {n n' k k' m m' : Nat} (h : w.Ledger as n k m)
    (h' : w.Ledger as' n' k' m') : w.Ledger (as ++ as') (n + n') (k + k') (m + m') where
  sent := by rw [List.filterMap_append, List.length_append, h.sent, h'.sent]
  answers := by rw [List.filterMap_append, List.countP_append, h.answers, h'.answers]
  timeouts := by rw [List.filterMap_append, List.countP_append, h.timeouts, h'.timeouts]
  failures := by rw [List.filterMap_append, List.filter_append, h.failures, h'.failures]; rfl

theorem ExchangeWay.ledger_of_ok {command : String} {t t' : Tally} {as : List Action}
    (h : w.ExchangeWay command t (.ok t') as) :
    ∃ m ≤ 1, t' = ⟨t.iterations + 1, t.timeouts + m⟩ ∧ w.Ledger as 1 (1 - m) m := by
  cases h with
  | answered c =>
    refine ⟨0, Nat.zero_le 1, rfl, by simp [List.filterMap_cons], ?_, ?_, ?_⟩ <;>
      simp [List.filterMap_cons]
  | unanswered =>
    refine ⟨1, Nat.le_refl 1, rfl, by simp [List.filterMap_cons], ?_, ?_, ?_⟩ <;>
      simp [List.filterMap_cons]

theorem ExchangeWay.ledger_of_error {command : String} {t : Tally} {e : ConnectionError}
    {as : List Action} (h : w.ExchangeWay command t (.error e) as) :
    (e = .closed ∨ ∃ cause, e = .write cause) ∧ w.Ledger as (if e = .closed then 1 else 0) 0 0 := by
  cases h with
  | closed failure =>
    refine ⟨.inl rfl, ?_⟩
    cases failure with
    | none => exact ⟨rfl, rfl, rfl, rfl⟩
    | some cause => refine ⟨rfl, ?_, ?_, rfl⟩ <;> simp [List.filterMap_cons]
  | cut k hk cause => exact ⟨.inr ⟨cause, rfl⟩, rfl, rfl, rfl, rfl⟩

/-! ## Rounds -/

/-- What the number `n` of exchanges and the number `m` of missing replies have to do with the
failure and the actions of at most `count` exchanges. -/
structure RoundsEnd (w : Worker) (count n m : Nat) (failure : Option ConnectionError)
    (as : List Action) : Prop where
  timeouts_le : m ≤ n
  iterations_le : n ≤ count
  complete : failure = none → n = if w.commands = [] then 0 else count
  cause : ∀ e ∈ failure, e = .closed ∨ ∃ cause, e = .write cause
  ledger : w.Ledger as (n + if failure = some .closed then 1 else 0) (n - m) m

theorem RoundsEnd.nothing {count : Nat} {failure : Option ConnectionError} {as : List Action}
    (hcomplete : failure = none → 0 = if w.commands = [] then 0 else count)
    (hcause : ∀ e ∈ failure, e = .closed ∨ ∃ cause, e = .write cause)
    (hledger : w.Ledger as (if failure = some .closed then 1 else 0) 0 0) :
    w.RoundsEnd count 0 0 failure as :=
  ⟨Nat.le_refl 0, Nat.zero_le _, hcomplete, hcause, by rwa [Nat.zero_add]⟩

theorem RoundsEnd.cons {count n m m₀ : Nat} {failure : Option ConnectionError}
    {as as' : List Action} (h : w.RoundsEnd count n m failure as') (hne : w.commands ≠ [])
    (hm₀ : m₀ ≤ 1) (hledger : w.Ledger as 1 (1 - m₀) m₀) :
    w.RoundsEnd (count + 1) (n + 1) (m₀ + m) failure (as ++ as') where
  timeouts_le := by have := h.timeouts_le; omega
  iterations_le := by have := h.iterations_le; omega
  complete hnone := by
    have := h.complete hnone
    rw [if_neg hne] at this ⊢
    rw [this]
  cause := h.cause
  ledger := by
    have := h.timeouts_le
    have hsent : 1 + (n + if failure = some .closed then 1 else 0) =
        n + 1 + if failure = some .closed then 1 else 0 := by omega
    have hanswers : 1 - m₀ + (n - m) = n + 1 - (m₀ + m) := by omega
    rw [← hsent, ← hanswers]
    exact hledger.append h.ledger

variable (w)

theorem rounds_reaches (count : Nat) (x : ρ) (t : Tally) (s : σ) :
    (rounds w h g count x t).Reaches s fun o as _ =>
      ∃ n m, o.1 = ⟨t.iterations + n, t.timeouts + m⟩ ∧ w.RoundsEnd count n m o.2 as := by
  induction count generalizing x t s with
  | zero => exact ⟨0, 0, rfl, .nothing (fun _ => by simp) (fun _ he => nomatch he) .nil⟩
  | succ count ih =>
    rw [rounds]
    by_cases hempty : w.commands.isEmpty = true
    · rw [if_pos hempty]
      refine ⟨0, 0, rfl, .nothing (fun _ => ?_) (fun _ he => nomatch he) .nil⟩
      rw [if_pos (List.isEmpty_iff.mp hempty)]
    · rw [if_neg hempty]
      have hne : w.commands ≠ [] := fun e => hempty (List.isEmpty_iff.mpr e)
      refine (exchange_reaches w h _ t s).bind fun o as s' ho => ?_
      cases o with
      | error e =>
        obtain ⟨hcause, hledger⟩ := ho.ledger_of_error
        refine ⟨0, 0, rfl, .nothing (fun hnone => nomatch hnone) ?_ ?_⟩
        · rintro _ ⟨⟩
          exact hcause
        · change w.Ledger (as ++ []) (if some e = some .closed then 1 else 0) 0 0
          simpa using hledger
      | ok t' =>
        obtain ⟨m₀, hm₀, rfl, hledger⟩ := ho.ledger_of_ok
        refine (ih _ _ s').mono ?_
        intro o as' _ ho
        obtain ⟨n, m, htally, hend⟩ := ho
        refine ⟨n + 1, m₀ + m, ?_, hend.cons hne hm₀ hledger⟩
        rw [htally, Nat.add_assoc, Nat.add_assoc, Nat.add_comm 1 n]

/-! ## The report -/

/-- The report accounts for the actions of the worker. -/
structure Accounted (report : WorkerReport) (as : List Action) : Prop where
  id : report.id = w.id
  timeouts_le : report.timeouts ≤ report.iterations
  iterations_le : report.iterations ≤ report.planned
  /-- A reply that does not come in time ends no worker. -/
  cause : ∀ e ∈ report.failure, e.isTimeout = false
  unopened : (∃ address cause, report.failure = some (.connect address cause)) ↔ .opened ∉ as
  /-- Without a connection nothing is written. -/
  nothing : .opened ∉ as → report.planned = 0 ∧ report.iterations = 0 ∧ report.timeouts = 0 ∧
    ∀ a ∈ as, a.written = []
  planned : .opened ∈ as → w.minIterations ≤ report.planned ∧ report.planned ≤ w.maxIterations
  complete : report.failure = none →
    report.iterations = if w.commands = [] then 0 else report.planned
  /-- A command without a reply is counted unless the server has closed. -/
  sent : (as.filterMap Action.sent?).length =
    report.iterations + if report.failure = some .closed then 1 else 0
  answers : (as.filterMap Action.event?).countP w.isAnswer = report.iterations - report.timeouts
  timeouts : (as.filterMap Action.event?).countP w.isTimeout = report.timeouts
  /-- The failure, and nothing else, is logged as an error. -/
  stopped : (as.filterMap Action.event?).filter (·.level = .error) =
    (report.failure.map (w.stopped ⟨report.iterations, report.timeouts⟩)).toList

variable {w}

theorem ledger_ready : w.Ledger [.logged w.ready] 0 0 0 := by
  refine ⟨rfl, ?_, ?_, rfl⟩ <;> simp [isAnswer, isTimeout, ready, event]

theorem ledger_pause : w.Ledger [.waited w.bannerGrace] 0 0 0 := ⟨rfl, rfl, rfl, rfl⟩

theorem ledger_greeted (banner : String) : w.Ledger [.logged (w.greeted banner)] 0 0 0 := by
  refine ⟨rfl, ?_, ?_, rfl⟩ <;> simp [isAnswer, isTimeout, greeted, event, ← String.toList_inj]

theorem ledger_opened {as : List Action} (h : OpenWay w.link w.address .opened as) :
    w.Ledger as 0 0 0 := by
  cases h with
  | opened hsize => refine ⟨rfl, ?_, ?_, rfl⟩ <;> simp [isAnswer, isTimeout, connected]

theorem ledger_banner {o : Option String} {as : List Action} (h : BannerWay w.link o as) :
    w.Ledger as 0 0 0 := by
  cases h with
  | greeted c => exact ⟨rfl, rfl, rfl, rfl⟩
  | ended failure =>
    cases failure <;> refine ⟨rfl, ?_, ?_, rfl⟩ <;>
      simp [List.filterMap_cons, isAnswer, isTimeout, noBanner, readFailed]
  | silence => refine ⟨rfl, ?_, ?_, rfl⟩ <;> simp [isAnswer, isTimeout, noBanner]

@[simp] theorem isAnswer_stopped (t : Tally) (e : ConnectionError) :
    w.isAnswer (w.stopped t e) = false := by
  simp [isAnswer, Worker.stopped, event, ← String.toList_inj]

@[simp] theorem isTimeout_stopped (t : Tally) (e : ConnectionError) :
    w.isTimeout (w.stopped t e) = false := by
  simp [isTimeout, Worker.stopped, event, ← String.toList_inj]

@[simp] theorem level_stopped (t : Tally) (e : ConnectionError) :
    (w.stopped t e).level = .error := rfl

/-- The last actions of a worker that had a connection. -/
inductive Leaving (w : Worker) (t : Tally) : Option ConnectionError → List Action → Prop
  | done (failure : Option IoError) : Leaving w t none (farewell failure)
  | failed (e : ConnectionError) : Leaving w t (some e) [.closed, .logged (w.stopped t e)]

theorem Leaving.sent {t : Tally} {failure : Option ConnectionError} {as : List Action}
    (h : w.Leaving t failure as) : as.filterMap Action.sent? = [] := by
  cases h with
  | done failure => cases failure <;> rfl
  | failed e => rfl

/-- Only a failure of the worker itself is counted or logged as an error. -/
theorem Leaving.events {t : Tally} {failure : Option ConnectionError} {as : List Action}
    (h : w.Leaving t failure as) : (as.filterMap Action.event?).countP w.isAnswer = 0 ∧
      (as.filterMap Action.event?).countP w.isTimeout = 0 ∧
      (as.filterMap Action.event?).filter (·.level = .error) =
        (failure.map (w.stopped t)).toList := by
  cases h with
  | done failure =>
    cases failure with
    | none => exact ⟨rfl, rfl, rfl⟩
    | some cause =>
      have hlevel : (shutdownFailed cause).level = .debug := rfl
      simp [farewell, List.filterMap_cons, hlevel]
  | failed e => simp [List.filterMap_cons]

/-- **A worker that had a connection accounts for its rounds.** -/
theorem RoundsEnd.accounted {planned n m : Nat} {failure : Option ConnectionError}
    {before as last : List Action} (h : w.RoundsEnd planned n m failure as)
    (hbefore : w.Ledger before 0 0 0) (hopened : .opened ∈ before)
    (hlow : w.minIterations ≤ planned) (hhigh : planned ≤ w.maxIterations)
    (hlast : w.Leaving ⟨n, m⟩ failure last) :
    w.Accounted (w.report planned ⟨n, m⟩ failure) (before ++ (as ++ last)) := by
  have hmem : .opened ∈ before ++ (as ++ last) := List.mem_append_left _ hopened
  obtain ⟨hanswers, htimeouts, hstopped⟩ := hlast.events
  have hledger := hbefore.append h.ledger
  rw [Nat.zero_add, Nat.zero_add, Nat.zero_add] at hledger
  rw [← List.append_assoc] at hmem ⊢
  refine
    { id := rfl
      timeouts_le := h.timeouts_le
      iterations_le := h.iterations_le
      cause := fun e he => ?_
      unopened := ⟨fun ⟨address, cause, he⟩ => ?_, fun hno => absurd hmem hno⟩
      nothing := fun hno => absurd hmem hno
      planned := fun _ => ⟨hlow, hhigh⟩
      complete := h.complete
      sent := ?_
      answers := ?_
      timeouts := ?_
      stopped := ?_ }
  · obtain rfl | ⟨cause, rfl⟩ := h.cause e he <;> rfl
  · obtain hc | ⟨cause', hc⟩ := h.cause _ he <;> cases hc
  · rw [List.filterMap_append, hlast.sent, List.append_nil]
    exact hledger.sent
  · rw [List.filterMap_append, List.countP_append, hledger.answers, hanswers]
    rfl
  · rw [List.filterMap_append, List.countP_append, hledger.timeouts, htimeouts]
    rfl
  · rw [List.filterMap_append, List.filter_append, hledger.failures, hstopped]
    rfl

/-- **A worker without a connection has nothing to account for.** -/
theorem accounted_refused (cause : IoError) :
    w.Accounted (w.report 0 {} (some (.connect w.address cause)))
      [.unopened cause, .logged (w.stopped {} (.connect w.address cause))] where
  id := rfl
  timeouts_le := Nat.le_refl 0
  iterations_le := Nat.le_refl 0
  cause := by rintro _ ⟨⟩; rfl
  unopened := ⟨fun _ => by simp, fun _ => ⟨w.address, cause, rfl⟩⟩
  nothing _ := ⟨rfl, rfl, rfl, by simp [Action.written]⟩
  planned hopened := by simp at hopened
  complete hnone := nomatch hnone
  sent := rfl
  answers := by simp [List.filterMap_cons, report]
  timeouts := by simp [List.filterMap_cons, report]
  stopped := by simp [List.filterMap_cons, report]

theorem fail_reaches (planned : Nat) (t : Tally) (e : ConnectionError) (s : σ) :
    (w.fail h planned t e).Reaches s fun o as _ =>
      o = w.report planned t (some e) ∧ as = [.logged (w.stopped t e)] := by
  rw [fail, Client.reaches_bind, Client.reaches_log]
  exact ⟨rfl, rfl⟩

theorem greet_reaches (s : σ) : (w.greet h).Reaches s fun _ as _ => w.Ledger as 0 0 0 := by
  rw [greet, Client.reaches_bind, Client.reaches_log, Client.reaches_bind, Client.reaches_pause]
  refine (drainBanner_reaches h w.link _).bind fun banner as s' hbanner => ?_
  have hledger := ledger_ready.append (ledger_pause.append (ledger_banner hbanner))
  cases banner with
  | none =>
    rw [Client.reaches_pure]
    simpa using hledger
  | some banner =>
    rw [Client.reaches_log]
    simpa using hledger.append (ledger_greeted banner)

theorem finish_reaches (planned : Nat) (t : Tally) (failure : Option ConnectionError) (s : σ) :
    (w.finish h planned t failure).Reaches s fun o as _ =>
      o = some (w.report planned t failure) ∧ w.Leaving t failure as := by
  cases failure with
  | none =>
    refine (closeLink_reaches h s).bind fun _ as s' has => ?_
    rw [Client.reaches_pure, List.append_nil, has]
    exact ⟨rfl, .done _⟩
  | some e =>
    refine (dropLink_reaches h s).bind ?_
    rintro _ _ s' ⟨rfl, -⟩
    rw [Client.reaches_map]
    refine (fail_reaches h planned t e s').mono fun o as _ ho => ?_
    rw [ho.1, ho.2]
    exact ⟨rfl, .failed e⟩

/-- The rounds of a worker with a connection, and its end. -/
theorem converse_reaches (hle : w.minIterations ≤ w.maxIterations) {before : List Action}
    (hbefore : w.Ledger before 0 0 0) (hopened : .opened ∈ before) (x : ρ) (s : σ) :
    (w.converse h g x).Reaches s fun o as _ =>
      ∃ report, o = some report ∧ w.Accounted report (before ++ as) := by
  rw [converse, if_neg (Nat.not_lt.mpr hle)]
  refine (rounds_reaches w h g _ _ {} s).bind fun o as s' ho => ?_
  obtain ⟨t, failure⟩ := o
  obtain ⟨n, m, rfl, hend⟩ := ho
  simp only [Nat.zero_add] at hend ⊢
  refine (finish_reaches h _ ⟨n, m⟩ failure s').mono fun o as' _ ho => ?_
  obtain ⟨rfl, hlast⟩ := ho
  exact ⟨_, rfl, hend.accounted hbefore hopened (g.le_between x _ _) (g.between_le x hle) hlast⟩

variable (w)

/-- A worker whose bounds are in order leaves no report just if it has a connection and can have no
buffer. -/
theorem run_eq_none (hle : w.minIterations ≤ w.maxIterations) (x : ρ) (s : σ) :
    (w.run h g x).Reaches s fun o as _ =>
      o = none ↔ .opened ∈ as ∧ largestBuffer < w.link.recvBufferSize := by
  rw [run]
  refine (openLink_reaches h w.link s w.address).bind fun o as s' ho => ?_
  cases ho with
  | refused cause =>
    rw [Client.reaches_map]
    refine (fail_reaches h 0 {} _ s').mono fun o as _ ho => ?_
    rw [ho.2]
    simp
  | aborted hsize => exact ⟨fun _ => ⟨by simp, hsize⟩, fun _ => rfl⟩
  | opened hsize =>
    refine (greet_reaches h s').bind fun _ as s'' hgreet => ?_
    have hbefore := (ledger_opened (.opened hsize)).append hgreet
    refine (converse_reaches h g hle hbefore (by simp) x s'').mono fun o as' _ ho => ?_
    obtain ⟨report, rfl, -⟩ := ho
    exact iff_of_false (Option.some_ne_none report) fun hno => absurd hno.2 (Nat.not_lt.mpr hsize)

/-- **Every report accounts for its run.** A worker whose bounds are in order leaves no report just
if it has a connection and can have no buffer. -/
theorem run_accounted (hle : w.minIterations ≤ w.maxIterations) (x : ρ) (s : σ) :
    (w.run h g x).Reaches s fun o as _ =>
      (o = none ↔ .opened ∈ as ∧ largestBuffer < w.link.recvBufferSize) ∧
        ∀ report ∈ o, w.Accounted report as := by
  rw [run]
  refine (openLink_reaches h w.link s w.address).bind fun o as s' ho => ?_
  cases ho with
  | refused cause =>
    rw [Client.reaches_map]
    refine (fail_reaches h 0 {} _ s').mono fun o as _ ho => ?_
    obtain ⟨rfl, rfl⟩ := ho
    refine ⟨by simp, ?_⟩
    rintro _ ⟨⟩
    exact accounted_refused cause
  | aborted hsize => exact ⟨⟨fun _ => ⟨by simp, hsize⟩, fun _ => rfl⟩, fun _ hno => nomatch hno⟩
  | opened hsize =>
    refine (greet_reaches h s').bind fun _ as s'' hgreet => ?_
    have hbefore := (ledger_opened (.opened hsize)).append hgreet
    refine (converse_reaches h g hle hbefore (by simp) x s'').mono fun o as' _ ho => ?_
    obtain ⟨report, rfl, haccounted⟩ := ho
    refine ⟨⟨fun hno => (Option.some_ne_none report hno).elim, fun hno => ?_⟩, ?_⟩
    · exact absurd hsize (Nat.not_le.mpr hno.2)
    · rintro _ ⟨⟩
      rwa [List.append_assoc] at haccounted

/-- A worker whose server keeps silent. -/
theorem run_accounted_silence :
    ((ofSettings { load := { minIterations := 2, maxIterations := 2 } } 7).run
      (Wire.host none) .listed []).Reaches {} fun o as _ =>
        o = some ⟨7, 2, 2, 2, none⟩ ∧
          (ofSettings { load := { minIterations := 2, maxIterations := 2 } } 7).Accounted
            ⟨7, 2, 2, 2, none⟩ as := by
  have hrun : ((ofSettings { load := { minIterations := 2, maxIterations := 2 } } 7).run
      (Wire.host none) .listed []).Reaches {} fun o _ _ => o = some ⟨7, 2, 2, 2, none⟩ := by
    rw [Client.Reaches]
    decide +kernel
  refine (hrun.and (run_accounted _ _ _ (Nat.le_refl 2) _ _)).mono ?_
  rintro _ as s' ⟨rfl, -, haccounted⟩
  exact ⟨rfl, haccounted _ rfl⟩

end Worker

end LineClient
