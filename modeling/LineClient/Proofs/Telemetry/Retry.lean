import LineClient.Link.Dialogue
import LineClient.Proofs.Telemetry.Rounds
import LineClient.Proofs.Telemetry.Ways
import Mathlib.Data.Nat.Find

/-!
# Attempts in a row

Sessions that fail follow each other until as many of them in a row as the settings allow have
failed without a reply. Counting begins anew with the last session that had a reply, and with the
first one.

* `Trial`, a session that fails; `Supervision.row`, how many have failed since counting began;
* `Supervision.Trials`, sessions one after the other, without a sign to stop;
* `Supervision.Retries`; **`Supervision.trials_retry`**: which of the sessions are opened, which of
  them is the last, and what is logged and waited for between them.
-/

namespace LineClient

/-- A session that fails, from its beginning to its end. -/
structure Trial (σ : Type) where
  start : σ
  actions : List Action
  error : ConnectionError
  roundTrips : Nat
  finish : σ

/-- The event tells that another attempt follows. -/
def isRetry (e : Event) : Bool := "Telemetry connection failed: ".toList.isPrefixOf e.message.toList

/-- The pause after `k` attempts in a row: the power of two stops at the greatest number of 32 bits,
and the product at the longest duration. -/
def Reader.backoffIn (r : Reader) (k : Nat) : Duration :=
  ⟨min (r.backoff.nanos * min (2 ^ k) (2 ^ 32 - 1)) Duration.max.nanos⟩

namespace Supervision

variable {σ : Type} (r : Reader) (h : Host σ) (f : Nat → Trial σ)

/-! ## What is expected of the attempts -/

/-- The last session up to a number that had a reply, or the first one. -/
def lastAnswered (j : Nat) : Nat := Nat.findGreatest (fun i => 0 < (f i).roundTrips) j

/-- The number of attempts that have failed in a row before the session of a number. -/
def row (j : Nat) : Nat := j - lastAnswered f j

/-- What is logged of a session that another one follows. -/
def warning (j : Nat) : Event where
  level := .warn
  source := .telemetry
  message := "Telemetry connection failed: " ++ (f j).error.message ++ ", reconnecting in " ++
    (r.backoffIn (row f j)).text ++ " [attempt=" ++ toString (row f j + 1) ++ "/" ++
    toString r.attempts ++ "]"

/-- The session of a number is opened: another attempt follows all the sessions before it. -/
def Opens (j : Nat) : Prop := ∀ i < j, row f i < r.attempts

instance (j : Nat) : Decidable (Opens r f j) :=
  inferInstanceAs (Decidable (∀ i < j, row f i < r.attempts))

/-- The actions before the session of a number. -/
def actionsBefore (j : Nat) : List Action :=
  (List.range j).flatMap fun i =>
    (f i).actions ++ [.logged (warning r f i), .waited (r.backoffIn (row f i))]

/-- The host at the end of a pause. -/
structure Resumes (j : Nat) : Prop where
  uncancelled : (h.stops (.pause (r.backoffIn (row f j)))
    (h.observe (.logged (warning r f j)) (f j).finish)).1 = false
  start : (f (j + 1)).start = h.observe (.waited (r.backoffIn (row f j)))
    (h.pause (r.backoffIn (row f j)) (h.stops (.pause (r.backoffIn (row f j)))
      (h.observe (.logged (warning r f j)) (f j).finish)).2)

/-- Sessions that fail one after the other, as long as they are opened. No sign to stop comes. -/
structure Trials : Prop where
  fails (j : Nat) (hj : Opens r f j) : ∃ rounds,
    (Session.run r h rounds .opening).Reaches (f j).start fun session as s' =>
      session = .over (.failed (f j).error) (f j).roundTrips ∧ as = (f j).actions ∧
        s' = (f j).finish
  resumes (j : Nat) (hj : Opens r f (j + 1)) : Resumes r h f j

/-- What supervised telemetry does with sessions that fail one after the other. -/
structure Retries : Prop where
  opens (j : Nat) (hj : Opens r f j) : ∃ rounds ≥ j, (run r h rounds begin).Reaches (f 0).start
    fun state as s' => (∃ attempt, state = .running attempt .opening) ∧
      as = actionsBefore r f j ∧ s' = (f j).start
  returns (j : Nat) (hj : Opens r f j) (hlast : r.attempts ≤ row f j) :
    ∃ rounds, (run r h rounds begin).Reaches (f 0).start fun state as s' =>
      state = .over (.failed (f j).error) ∧ as = actionsBefore r f j ++ (f j).actions ∧
        s' = (f j).finish
  forever (hall : ∀ j, Opens r f j) (rounds : Nat) :
    (run r h rounds begin).Reaches (f 0).start fun state _ _ => ∀ result, state ≠ .over result
  warnings (j : Nat) (hj : Opens r f j) :
    ((actionsBefore r f j ++ (f j).actions).filterMap Action.event?).filter isRetry =
      (List.range j).map (warning r f)
  numbers (j : Nat) (hj : Opens r f j) : ∀ i < j, 1 ≤ row f i + 1 ∧ row f i + 1 ≤ r.attempts
  counter (rounds : Nat) : (run r h rounds begin).Reaches (f 0).start fun state _ _ =>
    ∀ attempt session, state = .running attempt session → attempt ≤ r.attempts

variable {r h f}

/-! ## Rows -/

theorem row_of_answered {j : Nat} (hj : 0 < (f j).roundTrips) : row f j = 0 := by
  rw [row, lastAnswered, Nat.findGreatest_eq (P := fun i => 0 < (f i).roundTrips) hj, Nat.sub_self]

theorem row_succ {j : Nat} (hj : ¬ 0 < (f (j + 1)).roundTrips) : row f (j + 1) = row f j + 1 := by
  rw [row, row, lastAnswered, Nat.findGreatest_of_not hj, lastAnswered]
  exact Nat.succ_sub (Nat.findGreatest_le j)

/-- The counter of supervised telemetry at the beginning of the session of a number. -/
def counterAt (f : Nat → Trial σ) : Nat → Nat
  | 0 => 0
  | j + 1 => row f j + 1

/-- Counting begins anew with a session that had a reply. -/
theorem row_eq_counterAt (j : Nat) :
    row f j = if (f j).roundTrips = 0 then counterAt f j else 0 := by
  split_ifs with hj
  · cases j with
    | zero => rfl
    | succ j => exact row_succ (by omega)
  · exact row_of_answered (Nat.pos_of_ne_zero hj)

theorem nextAttempt?_counterAt (limit j : Nat) :
    nextAttempt? limit (counterAt f j) (f j).roundTrips =
      if row f j < limit then some (row f j) else none := by
  rw [row_eq_counterAt]
  rfl

theorem backoffFactor_eq (k : Nat) : backoffFactor k = min (2 ^ k) (2 ^ 32 - 1) := by
  rw [backoffFactor]
  by_cases hk : k ≤ 32
  · rw [Nat.min_eq_left hk]
  · have hpow : 2 ^ 32 ≤ 2 ^ k := Nat.pow_le_pow_right (by decide) (by omega)
    rw [Nat.min_eq_right (show 32 ≤ k by omega),
      Nat.min_eq_right (show 2 ^ 32 - 1 ≤ 2 ^ 32 by omega),
      Nat.min_eq_right (show 2 ^ 32 - 1 ≤ 2 ^ k by omega)]

theorem backoffAfter_eq (k : Nat) : r.backoffAfter k = r.backoffIn k := by
  rw [Reader.backoffAfter, backoffFactor_eq]
  rfl

theorem reconnecting_eq (j : Nat) : r.reconnecting (f j).error (row f j) = warning r f j := by
  rw [Reader.reconnecting, backoffAfter_eq]
  rfl

/-! ## One attempt -/

/-- The rounds of a session are rounds of supervised telemetry, up to the end of the session. -/
theorem run_session (attempt rounds : Nat) (session : Session) (s : σ)
    (Q : Session → List Action → σ → Prop) (hrun : (Session.run r h rounds session).Reaches s Q) :
    ∃ rounds', (run r h rounds' (.running attempt session)).Reaches s fun state as s' =>
      ∃ session, state = .running attempt session ∧ Q session as s' := by
  induction rounds generalizing session s Q with
  | zero => exact ⟨0, session, rfl, hrun⟩
  | succ rounds ih =>
    have hround (hstep : step r h (.running attempt session) =
        running attempt <$> session.step r h) :
        ∃ rounds', (run r h rounds' (.running attempt session)).Reaches s fun state as s' =>
          ∃ session, state = .running attempt session ∧ Q session as s' := by
      rw [Session.run_succ, Client.reaches_bind] at hrun
      obtain ⟨rounds', hrun'⟩ := ih ((session.step r h).run s).1 ((session.step r h).run s).2.2
        (fun o as s' => Q o (((session.step r h).run s).2.1.actions ++ as) s') hrun
      refine ⟨rounds' + 1, ?_⟩
      rw [run_succ, hstep, Client.reaches_bind, Client.reaches_map]
      exact hrun'
    cases session with
    | opening => exact hround rfl
    | polling roundTrips => exact hround rfl
    | «over» result roundTrips =>
      rw [Session.run_over] at hrun
      exact ⟨0, _, rfl, hrun⟩

/-- A session that fails, as a part of supervised telemetry. -/
theorem Trials.run_trial (hf : Trials r h f) {j : Nat} (hj : Opens r f j) (attempt : Nat) :
    ∃ rounds, (run r h rounds (.running attempt .opening)).Reaches (f j).start
      fun state as s' => state = .running attempt (.over (.failed (f j).error) (f j).roundTrips) ∧
        as = (f j).actions ∧ s' = (f j).finish := by
  obtain ⟨rounds, hrun⟩ := hf.fails j hj
  obtain ⟨rounds', hrun'⟩ := run_session attempt rounds _ _ _ hrun
  refine ⟨rounds', hrun'.mono ?_⟩
  rintro _ as s' ⟨_, rfl, rfl, has, hs'⟩
  exact ⟨rfl, has, hs'⟩

/-- The warning and the pause between an attempt and the next one. -/
theorem Trials.recover_reaches (hf : Trials r h f) {j : Nat} (hj : Opens r f (j + 1)) :
    (recover r h (counterAt f j) (f j).error (f j).roundTrips).Reaches (f j).finish
      fun state as s' => state = .running (counterAt f (j + 1)) .opening ∧
        as = [.logged (warning r f j), .waited (r.backoffIn (row f j))] ∧
        s' = (f (j + 1)).start := by
  obtain ⟨huncancelled, hstart⟩ := hf.resumes j hj
  rw [recover, nextAttempt?_counterAt, if_pos (hj j (Nat.lt_succ_self j))]
  refine (Client.reaches_bind _).mpr ?_
  rw [Client.reaches_log, reconnecting_eq, backoffAfter_eq, Client.reaches_bind,
    Client.reaches_perform, huncancelled, if_neg Bool.false_ne_true]
  exact ⟨rfl, rfl, hstart.symm⟩

/-! ## The attempts one after the other -/

theorem Opens.of_succ {j : Nat} (hj : Opens r f (j + 1)) : Opens r f j := by
  intro i hi
  exact hj i (by omega)

theorem actionsBefore_succ (j : Nat) : actionsBefore r f (j + 1) = actionsBefore r f j ++
    ((f j).actions ++ [.logged (warning r f j), .waited (r.backoffIn (row f j))]) := by
  simp [actionsBefore, List.range_succ]

/-- From the beginning of one session to the beginning of the next one. -/
theorem Trials.next_reaches (hf : Trials r h f) {j : Nat} (hj : Opens r f (j + 1)) :
    ∃ rounds ≥ 1, (run r h rounds (.running (counterAt f j) .opening)).Reaches (f j).start
      fun state as s' => state = .running (counterAt f (j + 1)) .opening ∧
        as = (f j).actions ++ [.logged (warning r f j), .waited (r.backoffIn (row f j))] ∧
        s' = (f (j + 1)).start := by
  obtain ⟨rounds, hrun⟩ := hf.run_trial hj.of_succ (counterAt f j)
  refine ⟨rounds + 1, Nat.le_add_left 1 rounds, ?_⟩
  rw [run_succ_last]
  refine hrun.bind ?_
  rintro _ _ _ ⟨rfl, rfl, rfl⟩
  refine (hf.recover_reaches hj).mono ?_
  rintro _ _ _ ⟨rfl, rfl, rfl⟩
  exact ⟨rfl, rfl, rfl⟩

/-- **From the beginning to the beginning of any session that is opened.** -/
theorem Trials.opening_reaches (hf : Trials r h f) {j : Nat} (hj : Opens r f j) :
    ∃ rounds ≥ j, (run r h rounds begin).Reaches (f 0).start fun state as s' =>
      state = .running (counterAt f j) .opening ∧ as = actionsBefore r f j ∧ s' = (f j).start := by
  induction j with
  | zero => exact ⟨0, Nat.le_refl 0, rfl, rfl, rfl⟩
  | succ j ih =>
    obtain ⟨rounds, hrounds, hrun⟩ := ih hj.of_succ
    obtain ⟨more, hmore, hnext⟩ := hf.next_reaches hj
    refine ⟨rounds + more, Nat.add_le_add hrounds hmore, ?_⟩
    rw [run_add, actionsBefore_succ]
    refine hrun.bind ?_
    rintro _ _ _ ⟨rfl, rfl, rfl⟩
    refine hnext.mono ?_
    rintro _ _ _ ⟨rfl, rfl, rfl⟩
    exact ⟨rfl, rfl, rfl⟩

/-- The session without another one after it. -/
theorem Trials.last_reaches (hf : Trials r h f) {j : Nat} (hj : Opens r f j)
    (hlast : r.attempts ≤ row f j) :
    ∃ rounds, (run r h rounds begin).Reaches (f 0).start fun state as s' =>
      state = .over (.failed (f j).error) ∧ as = actionsBefore r f j ++ (f j).actions ∧
        s' = (f j).finish := by
  obtain ⟨rounds, -, hrun⟩ := hf.opening_reaches hj
  obtain ⟨more, htrial⟩ := hf.run_trial hj (counterAt f j)
  refine ⟨rounds + more + 1, ?_⟩
  rw [run_succ_last, run_add, bind_assoc]
  refine hrun.bind ?_
  rintro _ _ _ ⟨rfl, rfl, rfl⟩
  refine htrial.bind ?_
  rintro _ _ _ ⟨rfl, rfl, rfl⟩
  have hnone : nextAttempt? r.attempts (counterAt f j) (f j).roundTrips = none := by
    rw [nextAttempt?_counterAt, if_neg (Nat.not_lt.mpr hlast)]
  rw [step, recover, hnone]
  refine (Client.reaches_pure _ _).mpr ⟨rfl, ?_, rfl⟩
  rw [List.append_nil]

/-- What is over stays as it is. -/
theorem over_of_le {n m : Nat} (hle : n ≤ m) {state : Supervision} {s : σ} {result : SessionEnd}
    (hover : (run r h n state).Reaches s fun state _ _ => state = .over result) :
    (run r h m state).Reaches s fun state _ _ => state = .over result := by
  obtain ⟨more, rfl⟩ := Nat.exists_eq_add_of_le hle
  rw [run_add]
  refine hover.bind ?_
  rintro _ as s' rfl
  rw [run_over]
  exact rfl

/-- As long as every session is followed by another one, there is no end. -/
theorem Trials.not_over (hf : Trials r h f) (hall : ∀ j, Opens r f j) (rounds : Nat) :
    (run r h rounds begin).Reaches (f 0).start fun state _ _ => ∀ result, state ≠ .over result := by
  obtain ⟨later, hlater, hrun⟩ := hf.opening_reaches (hall rounds)
  intro result hover
  have hlate : ((run r h later begin).run (f 0).start).1 = .over result := over_of_le hlater hover
  cases hrun.1.symm.trans hlate

/-! ## The warnings -/

/-- The actions warn of no attempt. -/
def Unwarned (as : List Action) : Prop := (as.filterMap Action.event?).filter isRetry = []

theorem Unwarned.append {as as' : List Action} (h : Unwarned as) (h' : Unwarned as') :
    Unwarned (as ++ as') := by
  rw [Unwarned, List.filterMap_append, List.filter_append, h, h']
  rfl

theorem unwarned_readFailed (failure : Option IoError) :
    Unwarned (failureLog readFailed failure) := by
  cases failure <;> simp [Unwarned, isRetry, readFailed, List.isPrefixOf]

theorem unwarned_farewell (failure : Option IoError) : Unwarned (farewell failure) := by
  cases failure <;>
    simp [Unwarned, farewell, List.filterMap_cons, isRetry, shutdownFailed, List.isPrefixOf]

theorem unwarned_start {session : Session} {as : List Action} (h : StartWay r session as) :
    Unwarned as := by
  have hopened : Unwarned [.opened, .logged (connected r.address)] := by
    simp [Unwarned, List.filterMap_cons, isRetry, connected, List.isPrefixOf]
  have hclosed : Unwarned [.closed] := rfl
  cases h with
  | stopped => exact rfl
  | refused cause => exact rfl
  | aborted hsize => exact hopened.append hclosed
  | @polling _ banner _ hbanner =>
    refine hopened.append (Unwarned.append ?_ (Unwarned.append ?_ ?_))
    · cases hbanner with
      | greeted c => exact rfl
      | ended failure =>
        refine Unwarned.append ((unwarned_readFailed failure).append rfl) ?_
        simp [Unwarned, isRetry, noBanner, List.isPrefixOf]
      | silence => simp [Unwarned, List.filterMap_cons, isRetry, noBanner, List.isPrefixOf]
    · cases banner <;>
        simp [Unwarned, isRetry, Reader.greeting, Reader.greeted, Reader.event, List.isPrefixOf]
    · simp [Unwarned, isRetry, Reader.begins, Reader.event, List.isPrefixOf]

theorem unwarned_poll {roundTrips : Nat} {session : Session} {as : List Action}
    (h : PollWay r roundTrips session as) : Unwarned as := by
  have hreply {response : String} {a : Action} (ha : RecordWay r response a) : Unwarned [a] := by
    cases ha <;>
      simp [Unwarned, isRetry, Reader.unreadable, Reader.event, List.isPrefixOf]
  have hsent : Unwarned [.sent r.command] := rfl
  have hread (bytes : List UInt8) : Unwarned [.sent r.command, .received bytes] := rfl
  have hwaited : Unwarned [.waited r.interval] := rfl
  cases h with
  | stoppedWriting count hcount failure =>
    have hcut : Unwarned [.cut r.command count] := rfl
    exact hcut.append (unwarned_farewell failure)
  | stoppedReading failure => exact hsent.append (unwarned_farewell failure)
  | cut count hcount cause => exact rfl
  | ended failure => exact hsent.append ((unwarned_readFailed failure).append rfl)
  | silence => exact rfl
  | stoppedPausing c ha failure =>
    exact (hread c.bytes).append ((hreply ha).append (unwarned_farewell failure))
  | polled c ha => exact (hread c.bytes).append ((hreply ha).append hwaited)

theorem unwarned_session (rounds : Nat) (session : Session) (s : σ) :
    (Session.run r h rounds session).Reaches s fun _ as _ => Unwarned as := by
  have hstep (session : Session) (s : σ) :
      (session.step r h).Reaches s fun _ as _ => Unwarned as := by
    refine (Session.step_reaches r h s session).mono fun session' as _ hway => ?_
    cases hway with
    | start hway => exact unwarned_start hway
    | poll hway => exact unwarned_poll hway
    | «over» result k => exact rfl
  have happend (as as' : List Action) (has : Unwarned as) (has' : Unwarned as') :
      Unwarned (as ++ as') := has.append has'
  exact Session.run_reaches r h (P := Unwarned) rfl happend hstep rounds session s

theorem Trials.unwarned_trial (hf : Trials r h f) {j : Nat} (hj : Opens r f j) :
    ((f j).actions.filterMap Action.event?).filter isRetry = [] := by
  obtain ⟨rounds, hrun⟩ := hf.fails j hj
  have hsession := unwarned_session (r := r) (h := h) rounds .opening (f j).start
  rw [Client.Reaches, hrun.2.1] at hsession
  exact hsession

/-- Only the warnings between the sessions tell of further attempts. -/
theorem Trials.filter_warnings (hf : Trials r h f) {j : Nat} (hj : Opens r f j) :
    ((actionsBefore r f j).filterMap Action.event?).filter isRetry =
      (List.range j).map (warning r f) := by
  induction j with
  | zero => rfl
  | succ j ih =>
    have hwarning : isRetry (warning r f j) = true := by
      simp [isRetry, warning, List.isPrefixOf]
    rw [actionsBefore_succ, List.filterMap_append, List.filter_append, ih hj.of_succ,
      List.filterMap_append, List.filter_append, hf.unwarned_trial hj.of_succ, List.range_succ,
      List.map_append]
    simp [List.filterMap_cons, hwarning]

/-! ## The counter -/

/-- The counter of a state. -/
def WithinLimit (r : Reader) (state : Supervision) : Prop :=
  ∀ attempt session, state = .running attempt session → attempt ≤ r.attempts

theorem nextAttempt?_lt {limit attempt k n : Nat} (hnext : nextAttempt? limit attempt k = some n) :
    n < limit := by
  rw [nextAttempt?, Option.ite_none_right_eq_some] at hnext
  obtain ⟨hlt, heq⟩ := hnext
  rwa [Option.some.inj heq] at hlt

theorem WithinLimit.step {state state' : Supervision} {as : List Action}
    (hstate : WithinLimit r state) (hway : SupervisionWay r state state' as) :
    WithinLimit r state' := by
  cases hway with
  | round attempt hway =>
    rintro _ _ ⟨⟩
    exact hstate attempt _ rfl
  | recover hway =>
    cases hway with
    | again hnext =>
      rintro _ _ ⟨⟩
      exact nextAttempt?_lt hnext
    | _ =>
      intro _ _ heq
      cases heq
  | _ =>
    intro _ _ heq
    cases heq

theorem run_within (rounds : Nat) {state : Supervision} (s : σ) (hstate : WithinLimit r state) :
    (run r h rounds state).Reaches s fun state' _ _ => WithinLimit r state' := by
  have hstep (state : Supervision) (s : σ) (hstate : WithinLimit r state) :
      (state.step r h).Reaches s fun state' _ _ => WithinLimit r state' ∧ True :=
    (step_reaches r h s state).mono fun _ _ _ hway => ⟨hstate.step hway, trivial⟩
  exact (run_reaches r h (P := fun _ => True) trivial (fun _ _ _ _ => trivial) hstep rounds s
    hstate).mono fun _ _ _ hrun => hrun.1

/-! ## The result -/

variable (r h f)

/-- **Supervised telemetry retries as the sessions that fail tell it to.** -/
theorem trials_retry (hf : Trials r h f) : Retries r h f where
  opens j hj := by
    obtain ⟨rounds, hrounds, hrun⟩ := hf.opening_reaches hj
    exact ⟨rounds, hrounds, hrun.mono fun _ _ _ hend => ⟨⟨_, hend.1⟩, hend.2⟩⟩
  returns j hj hlast := hf.last_reaches hj hlast
  forever hall rounds := hf.not_over hall rounds
  warnings j hj := by
    rw [List.filterMap_append, List.filter_append, hf.filter_warnings hj, hf.unwarned_trial hj,
      List.append_nil]
  numbers j hj i hi := ⟨Nat.succ_pos _, hj i hi⟩
  counter rounds := run_within rounds _ (by rintro _ _ ⟨⟩; exact Nat.zero_le _)

/-- A session as a trial, if it has failed after so many rounds. -/
def trialOf (rounds : Nat) (start : σ) (error : ConnectionError) (roundTrips : Nat) : Trial σ where
  start := start
  actions := ((Session.run r h rounds .opening).run start).2.1.actions
  error := error
  roundTrips := roundTrips
  finish := ((Session.run r h rounds .opening).run start).2.2

theorem start_trialOf (rounds : Nat) (start : σ) (error : ConnectionError) (roundTrips : Nat) :
    (trialOf r h rounds start error roundTrips).start = start := rfl

theorem trialOf_fails {rounds : Nat} {start : σ} {error : ConnectionError} {roundTrips : Nat}
    (hover : ((Session.run r h rounds .opening).run start).1 = .over (.failed error) roundTrips)
    {t : Trial σ} (ht : t = trialOf r h rounds start error roundTrips) : ∃ rounds,
      (Session.run r h rounds .opening).Reaches t.start fun session as s' =>
        session = .over (.failed t.error) t.roundTrips ∧ as = t.actions ∧ s' = t.finish := by
  subst ht
  exact ⟨rounds, hover, rfl, rfl⟩

/-- One attempt in a row is allowed. The first connection is refused, and the second one has a
reply, so that counting begins anew; the third one has none, and it is the last. -/
theorem trials_retry_anew :
    let reader := Reader.ofSettings { recvBufferSize := 8, telemetry := { reconnectAttempts := 1 } }
    let h : Host Wire := { Wire.host none with
      connect := fun _ _ w =>
        (if w.broken then .error .refused else .ok (), { w with broken := false }) }
    let w : Wire := { inbound := utf8Bytes "welcome\ntemp: 2\n", broken := true }
    let refused : ConnectionError := .connect reader.address .refused
    let silent : ConnectionError := .timeout reader.link.responseTimeout
    ∃ f, Trials reader h f ∧ (f 0).start = w ∧
      [f 0, f 1, f 2].map (·.roundTrips) = [0, 1, 0] ∧ ∃ rounds,
        (run reader h rounds begin).Reaches w fun state as _ => state = .over (.failed silent) ∧
          (as.filterMap Action.event?).filter isRetry =
            [reader.reconnecting refused 0, reader.reconnecting silent 0] := by
  intro reader h w refused silent
  let first := trialOf reader h 1 w refused 0
  let second := trialOf reader h 3 first.finish silent 1
  let third := trialOf reader h 2 second.finish silent 0
  let f : Nat → Trial Wire
    | 0 => first
    | 1 => second
    | _ => third
  have hfirst : ((Session.run reader h 1 .opening).run w).1 = .over (.failed refused) 0 := by
    decide +kernel
  have hsecond : ((Session.run reader h 3 .opening).run first.finish).1 =
      .over (.failed silent) 1 := by decide +kernel
  have hthird : ((Session.run reader h 2 .opening).run second.finish).1 =
      .over (.failed silent) 0 := by decide +kernel
  have hresumes {j : Nat} (hnext : (f (j + 1)).start = (f j).finish) : Resumes reader h f j :=
    ⟨rfl, hnext⟩
  have hlimit : ¬ Opens reader f 3 := by decide +kernel
  have hf : Trials reader h f :=
    { fails := fun j hj => by
        match j with
        | 0 => exact trialOf_fails reader h hfirst rfl
        | 1 => exact trialOf_fails reader h hsecond rfl
        | 2 => exact trialOf_fails reader h hthird rfl
        | j + 3 => exact absurd (fun i hi => hj i (by omega)) hlimit
      resumes := fun j hj => by
        match j with
        | 0 => exact hresumes (start_trialOf reader h 3 first.finish silent 1)
        | 1 => exact hresumes (start_trialOf reader h 2 second.finish silent 0)
        | j + 2 => exact absurd (fun i hi => hj i (by omega)) hlimit }
  have hretries := trials_retry _ _ _ hf
  have hopens : Opens reader f 2 := by decide +kernel
  obtain ⟨rounds, hrun⟩ := hretries.returns 2 hopens (by decide +kernel)
  refine ⟨f, hf, rfl, rfl, rounds, hrun.mono ?_⟩
  rintro _ _ _ ⟨rfl, rfl, -⟩
  refine ⟨rfl, (hretries.warnings 2 hopens).trans ?_⟩
  decide +kernel

end Supervision

end LineClient
