import LineClient.Link.Dialogue
import LineClient.Proofs.Link.Deaf
import LineClient.Proofs.Link.Truncated
import LineClient.Proofs.Telemetry.Retry
import LineClient.Proofs.Telemetry.Timely
import Mathlib.Data.List.Forall2

/-!
# Telemetry with more attempts

A reader that may make more attempts does the same as one that may make fewer, as long as the
latter goes on. Where the latter gives up, the former has another attempt. So one run is the
beginning of the other, up to the number of attempts that the warnings tell. And a reader without
attempts does what a single session does.

* `Record.Agrees`, records that differ in the warnings only; `Record.backoffs`;
* `Supervision.failures`, the failed sessions of a run;
* `Supervision.MeetsAt`, where the longer run has been; `Supervision.meetsAt`, it has been there;
* `Supervision.Extends`, `Supervision.Coincides`; **`Supervision.run_extends`**.
-/

namespace LineClient

open Client

/-- The reader that may make so many attempts in a row. -/
def Reader.trying (r : Reader) (attempts : Nat) : Reader := { r with attempts }

/-! ## Records that agree -/

/-- The entries are the same, up to the number of attempts that a warning tells. -/
inductive Entry.Agrees (r r' : Reader) : Entry → Entry → Prop
  | same (entry : Entry) : Agrees r r' entry entry
  | warning (time : Duration) (e : ConnectionError) (attempt : Nat) :
    Agrees r r' ⟨time, .logged (r.reconnecting e attempt)⟩
      ⟨time, .logged (r'.reconnecting e attempt)⟩

theorem Entry.Agrees.eq_or {r r' : Reader} {x x' : Entry} (h : x.Agrees r r' x') :
    x' = x ∨ ∃ time e attempt, x = ⟨time, .logged (r.reconnecting e attempt)⟩ ∧
      x' = ⟨time, .logged (r'.reconnecting e attempt)⟩ := by
  cases h with
  | same entry => exact .inl rfl
  | warning time e attempt => exact .inr ⟨time, e, attempt, rfl, rfl⟩

/-- The pause that is the second of two entries, with its time, if the first one is the warning of
another attempt. -/
def backoff? : Entry × Entry → Option (Duration × Duration)
  | (⟨_, .logged e⟩, ⟨time, .waited d⟩) => if isRetry e then some (time, d) else none
  | _ => none

namespace Record

/-- The entries of the records are the same, up to the numbers of attempts. -/
def Agrees (r r' : Reader) (ρ ρ' : Record) : Prop := List.Forall₂ (Entry.Agrees r r') ρ ρ'

/-- The pauses before further attempts, with their times. -/
def backoffs (ρ : Record) : List (Duration × Duration) := (ρ.zip ρ.tail).filterMap backoff?

theorem backoffs_cons_cons (x y : Entry) (ρ : Record) :
    backoffs (x :: y :: ρ) = (backoff? (x, y)).toList ++ backoffs (y :: ρ) := by
  rw [backoffs, backoffs, List.tail_cons, List.zip_cons_cons, List.filterMap_cons]
  cases backoff? (x, y) <;> rfl

theorem backoffs_prefix (ρ more : Record) : ρ.backoffs <+: (ρ ++ more : Record).backoffs := by
  induction ρ with
  | nil => exact List.nil_prefix
  | cons x ρ ih =>
    cases ρ with
    | nil => exact List.nil_prefix
    | cons y ρ =>
      rw [List.cons_append, List.cons_append, backoffs_cons_cons, backoffs_cons_cons]
      exact (List.prefix_append_right_inj _).mpr ih

/-- What is done later leaves the lines on the connections as they are, as long as nothing is
written before the next connection. -/
theorem lines_prefix {ρ more : Record}
    (hmore : bytesWritten (conversations more.actions).1 = []) :
    ρ.lines <+: (ρ ++ more : Record).lines := by
  rw [lines_eq, lines_eq, actions_append]
  have hnone : Action.opened ∉ [] := List.not_mem_nil
  have hcommon := conversations_common ρ.actions hnone more.actions
  rw [List.append_nil] at hcommon
  rcases hcommon with ⟨x, hρ, -⟩ | ⟨pending, before, x, after, hρ, hrest⟩
  · rw [hρ]
    exact List.nil_prefix
  · rw [hρ, hrest, List.append_nil, List.map_append, List.map_append, List.map_cons, List.map_cons,
      bytesWritten_append, hmore, List.append_nil]
    exact ⟨_, List.append_assoc _ _ _⟩

variable {r r' : Reader}

theorem isRetry_reconnecting (r : Reader) (e : ConnectionError) (attempt : Nat) :
    isRetry (r.reconnecting e attempt) = true := by
  simp [isRetry, Reader.reconnecting, Reader.event, List.isPrefixOf]

theorem backoff?_logged (x : Entry) (time : Duration) (e : Event) :
    backoff? (x, ⟨time, .logged e⟩) = none := by
  obtain ⟨_, a⟩ := x
  cases a <;> rfl

theorem backoff?_agrees {x x' y y' : Entry} (hx : x.Agrees r r' x') (hy : y.Agrees r r' y') :
    backoff? (x, y) = backoff? (x', y') := by
  rcases hy.eq_or with rfl | ⟨time, e, attempt, rfl, rfl⟩
  · rcases hx.eq_or with rfl | ⟨time, e, attempt, rfl, rfl⟩
    · rfl
    · obtain ⟨time', a⟩ := y'
      cases a <;> simp only [backoff?, isRetry_reconnecting]
  · rw [backoff?_logged, backoff?_logged]

namespace Agrees

variable {ρ ρ' : Record}

theorem refl (ρ : Record) : ρ.Agrees r r' ρ := by
  induction ρ with
  | nil => exact .nil
  | cons entry ρ ih => exact .cons (.same entry) ih

theorem append {more more' : Record} (h : ρ.Agrees r r' ρ') (hmore : more.Agrees r r' more') :
    (ρ ++ more : Record).Agrees r r' (ρ' ++ more') := List.rel_append h hmore

/-- Whatever does not look at the events is the same. -/
theorem filterMap_eq (h : ρ.Agrees r r' ρ') {γ : Type} {f : Entry → Option γ}
    (hf : ∀ time e e', f ⟨time, .logged e⟩ = f ⟨time, .logged e'⟩) :
    ρ.filterMap f = ρ'.filterMap f := by
  induction h with
  | nil => rfl
  | cons hentry _ ih =>
    cases hentry with
    | same entry => rw [List.filterMap_cons, List.filterMap_cons, ih]
    | warning time e attempt => rw [List.filterMap_cons, List.filterMap_cons, ih, hf]

theorem timedSamples_eq (h : ρ.Agrees r r' ρ') : ρ.timedSamples = ρ'.timedSamples :=
  h.filterMap_eq fun _ _ _ => rfl

theorem connections_eq (h : ρ.Agrees r r' ρ') : ρ.connections = ρ'.connections := by
  induction h with
  | nil => rfl
  | cons hentry _ ih =>
    rw [connections, connections] at ih ⊢
    cases hentry with
    | same entry => rw [List.filter_cons, List.filter_cons, ih]
    | warning time e attempt => simpa using ih

theorem lines_eq (h : ρ.Agrees r r' ρ') : ρ.lines = ρ'.lines := by
  suffices hfold : ρ.foldr addWritten ([], []) = ρ'.foldr addWritten ([], []) by
    rw [lines, lines, written, written, hfold]
  induction h with
  | nil => rfl
  | cons hentry _ ih =>
    rw [List.foldr_cons, List.foldr_cons, ih]
    cases hentry with
    | same entry => rfl
    | warning time e attempt => simp [addWritten, Action.written]

theorem backoffs_eq (h : ρ.Agrees r r' ρ') : ρ.backoffs = ρ'.backoffs := by
  induction h with
  | nil => rfl
  | cons hx hρ ih =>
    cases hρ with
    | nil => rfl
    | cons hy hρ =>
      rw [backoffs_cons_cons, backoffs_cons_cons, backoff?_agrees hx hy, ih]

end Agrees

end Record

namespace Supervision

/-! ## The sessions that fail -/

/-- The failure of the session that is over. -/
def failure? : Supervision → Option ConnectionError
  | .running _ (.over (.failed e) _) => some e
  | _ => none

section

variable {σ : Type} (r : Reader) (h : Host σ) (s : σ)

/-- What so many rounds come to. -/
def after (rounds : Nat) : Supervision × Record × σ := (run r h rounds begin).run s

/-- The failures of the sessions in so many rounds, in order. -/
def failures (rounds : Nat) : List ConnectionError :=
  (List.range (rounds + 1)).filterMap fun i => (after r h s i).1.failure?

variable {r h s}

theorem after_succ (rounds : Nat) : after r h s (rounds + 1) =
    ((((after r h s rounds).1.step r h).run (after r h s rounds).2.2).1,
      (after r h s rounds).2.1 ++
        (((after r h s rounds).1.step r h).run (after r h s rounds).2.2).2.1,
      (((after r h s rounds).1.step r h).run (after r h s rounds).2.2).2.2) := by
  rw [after, run_succ_last, run_bind]
  rfl

theorem after_add (rounds more : Nat) : after r h s (rounds + more) =
    (((run r h more (after r h s rounds).1).run (after r h s rounds).2.2).1,
      (after r h s rounds).2.1 ++
        ((run r h more (after r h s rounds).1).run (after r h s rounds).2.2).2.1,
      ((run r h more (after r h s rounds).1).run (after r h s rounds).2.2).2.2) := by
  rw [after, run_add, run_bind]
  rfl

theorem failures_zero : failures r h s 0 = [] := rfl

theorem failures_succ (rounds : Nat) : failures r h s (rounds + 1) =
    failures r h s rounds ++ (after r h s (rounds + 1)).1.failure?.toList := by
  rw [failures, List.range_succ, List.filterMap_append]
  cases hfailure : (after r h s (rounds + 1)).1.failure? <;> simp [failures, hfailure]

end

/-! ## One reader beside the other -/

theorem nextAttempt?_mono {limit limit' attempt roundTrips n : Nat} (hle : limit ≤ limit')
    (hnext : nextAttempt? limit attempt roundTrips = some n) :
    nextAttempt? limit' attempt roundTrips = some n := by
  rw [nextAttempt?, Option.ite_none_right_eq_some] at hnext ⊢
  exact ⟨Nat.lt_of_lt_of_le hnext.1 hle, hnext.2⟩

theorem running_of_failure? {state : Supervision} {e : ConnectionError}
    (hfailure : state.failure? = some e) :
    ∃ attempt roundTrips, state = .running attempt (.over (.failed e) roundTrips) := by
  match state with
  | .running attempt (.over (.failed e') roundTrips) =>
    cases hfailure
    exact ⟨attempt, roundTrips, rfl⟩

section

variable {σ : Type} (r : Reader) (more : Nat) (h : Host σ) (s : σ)

/-- Only where a session has failed do the attempts matter. -/
theorem step_trying {state : Supervision} (hfailure : state.failure? = none) :
    state.step (r.trying more) h = state.step r h := by
  match state with
  | .over _ => rfl
  | .running _ .opening => rfl
  | .running _ (.polling _) => rfl
  | .running _ (.over .stopped _) => rfl
  | .running _ (.over .aborted _) => rfl

/-- After `j` rounds the reader with more attempts has got to where the other one is after so many
rounds. If the latter has given up, the former still has to tell whether it will. -/
structure MeetsAt (rounds j : Nat) : Prop where
  le : j ≤ rounds
  host : (after (r.trying more) h s j).2.2 = (after r h s rounds).2.2
  record : (after r h s rounds).2.1.Agrees r (r.trying more) (after (r.trying more) h s j).2.1
  failures : failures (r.trying more) h s j = failures r h s rounds
  state : (j = rounds ∧ (after (r.trying more) h s j).1 = (after r h s rounds).1) ∨
    ∃ attempt e roundTrips, (after r h s rounds).1 = .over (.failed e) ∧
      (after (r.trying more) h s j).1 = .running attempt (.over (.failed e) roundTrips)

variable {r more h s}

theorem run_log_bind {α : Type} (e : Event) (c : Client σ α) :
    (log h e >>= fun _ => c).run s = ((c.run (h.observe (.logged e) s)).1,
      ⟨h.now s, .logged e⟩ :: (c.run (h.observe (.logged e) s)).2.1,
      (c.run (h.observe (.logged e) s)).2.2) := rfl

/-- Both readers make the same attempt; what they tell of it may differ. -/
theorem step_failed_trying {I : σ → Prop} (hdeaf : h.Deaf I) (hs : I s) (hmore : r.attempts ≤ more)
    {attempt roundTrips n : Nat} (hnext : nextAttempt? r.attempts attempt roundTrips = some n)
    (e : ConnectionError) :
    let failed := running attempt (.over (.failed e) roundTrips)
    let out := (failed.step r h).run s
    let out' := (failed.step (r.trying more) h).run s
    out'.1 = out.1 ∧ out.2.1.Agrees r (r.trying more) out'.2.1 ∧ out'.2.2 = out.2.2 := by
  have hnext' : nextAttempt? (r.trying more).attempts attempt roundTrips = some n :=
    nextAttempt?_mono hmore hnext
  have hobserve := hdeaf.observe (r.reconnecting e n) ((r.trying more).reconnecting e n) s hs
  dsimp only
  rw [step, step, recover, recover, hnext, hnext']
  dsimp only
  rw [run_log_bind, run_log_bind, hobserve]
  exact ⟨rfl, .cons (.warning _ e n) (Record.Agrees.refl _), rfl⟩

/-- The reader has given up, or gives up in this round; the other one may go on. -/
theorem MeetsAt.of_failed {rounds j : Nat} (hmeets : MeetsAt r more h s rounds j)
    {attempt roundTrips : Nat} {e : ConnectionError}
    (hsucc : after r h s (rounds + 1) = (.over (.failed e), (after r h s rounds).2))
    (hpart : (after (r.trying more) h s j).1 = .running attempt (.over (.failed e) roundTrips)) :
    MeetsAt r more h s (rounds + 1) j where
  le := Nat.le_succ_of_le hmeets.le
  host := by rw [hmeets.host, hsucc]
  record := by
    rw [hsucc]
    exact hmeets.record
  failures := by
    rw [hmeets.failures, failures_succ, hsucc]
    exact (List.append_nil _).symm
  state := .inr ⟨attempt, e, roundTrips, by rw [hsucc], hpart⟩

/-- As long as the readers are together, a round in which they do the same keeps them so. -/
theorem MeetsAt.together {rounds : Nat} (hmeets : MeetsAt r more h s rounds rounds)
    {state : Supervision} {ρ ρ' : Record} {s' : σ} (hafter : after r h s rounds = (state, ρ, s'))
    (hafter' : after (r.trying more) h s rounds = (state, ρ', s'))
    (hsame : ((state.step (r.trying more) h).run s').1 = ((state.step r h).run s').1)
    (hrecord : ((state.step r h).run s').2.1.Agrees r (r.trying more)
      ((state.step (r.trying more) h).run s').2.1)
    (hhost : ((state.step (r.trying more) h).run s').2.2 = ((state.step r h).run s').2.2) :
    MeetsAt r more h s (rounds + 1) (rounds + 1) := by
  have hbefore := hmeets.record
  rw [hafter, hafter'] at hbefore
  have hsucc : after r h s (rounds + 1) = (((state.step r h).run s').1,
      ρ ++ ((state.step r h).run s').2.1, ((state.step r h).run s').2.2) := by
    rw [after_succ, hafter]
  have hsucc' : after (r.trying more) h s (rounds + 1) =
      (((state.step (r.trying more) h).run s').1,
        ρ' ++ ((state.step (r.trying more) h).run s').2.1,
        ((state.step (r.trying more) h).run s').2.2) := by
    rw [after_succ, hafter']
  refine ⟨Nat.le_refl _, ?_, ?_, ?_, .inl ⟨rfl, ?_⟩⟩
  · rw [hsucc, hsucc', hhost]
  · rw [hsucc, hsucc']
    exact hbefore.append hrecord
  · rw [failures_succ, failures_succ, hmeets.failures, hsucc, hsucc', hsame]
  · rw [hsucc, hsucc', hsame]

/-- **The reader with more attempts has been where the other one is.** -/
theorem meetsAt {I : σ → Prop} (hdeaf : h.Deaf I) (hs : I s) (hmore : r.attempts ≤ more)
    (rounds : Nat) : ∃ j, MeetsAt r more h s rounds j := by
  induction rounds with
  | zero =>
    have hnone : failures (r.trying more) h s 0 = failures r h s 0 := by
      rw [failures_zero, failures_zero]
    exact ⟨0, Nat.le_refl 0, rfl, .refl [], hnone, .inl ⟨rfl, rfl⟩⟩
  | succ rounds ih =>
    obtain ⟨j, hmeets⟩ := ih
    have hquiet {state : Supervision} {e : ConnectionError}
        (hstate : (after r h s rounds).1 = state)
        (hstep : state.step r h = pure (.over (.failed e))) :
        after r h s (rounds + 1) = (.over (.failed e), (after r h s rounds).2) := by
      rw [after_succ, hstate, hstep, run_pure, List.append_nil]
    rcases hmeets.state with ⟨rfl, hsame⟩ | ⟨attempt, e, roundTrips, hover, hpart⟩
    · have hhost := hmeets.host
      generalize hafter : after r h s j = out at hsame hhost
      generalize hafter' : after (r.trying more) h s j = out' at hsame hhost
      obtain ⟨state, ρ, s'⟩ := out
      obtain ⟨_, ρ', _⟩ := out'
      cases hsame
      cases hhost
      cases hfailure : state.failure? with
      | none =>
        have hstep := step_trying r more h hfailure
        refine ⟨j + 1, hmeets.together hafter hafter' ?_ ?_ ?_⟩ <;> rw [hstep]
        exact .refl _
      | some e =>
        obtain ⟨attempt, roundTrips, rfl⟩ := running_of_failure? hfailure
        cases hnext : nextAttempt? r.attempts attempt roundTrips with
        | some n =>
          have hs' : I s' := by
            have hkept := run_keeps r hdeaf.keeps j begin s hs
            rwa [← after, hafter] at hkept
          obtain ⟨hsame, hrecord, hhost⟩ := step_failed_trying hdeaf hs' hmore hnext e
          exact ⟨j + 1, hmeets.together hafter hafter' hsame hrecord hhost⟩
        | none =>
          have hstep : step r h (.running attempt (.over (.failed e) roundTrips)) =
              pure (.over (.failed e)) := by rw [step, recover, hnext]
          exact ⟨j, hmeets.of_failed (hquiet (by rw [hafter]) hstep) (by rw [hafter'])⟩
    · exact ⟨j, hmeets.of_failed (hquiet hover rfl) hpart⟩

end

/-! ## What the longer run has in common with the shorter one -/

section

variable {σ : Type} {r : Reader} {h : Host σ} {s : σ}

/-- What a round does that begins without a connection: it writes nothing, unless it makes one. -/
theorem step_unlinked {state state' : Supervision} {as : List Action} (hstate : ¬ state.Polls)
    (hway : SupervisionWay r state state' as) :
    (∃ as', as = .opened :: as') ∨ (.opened ∉ as ∧ bytesWritten as = [] ∧ ¬ state'.Polls) := by
  cases hway with
  | round attempt hway =>
    cases hway with
    | start hway =>
      cases hway with
      | stopped => exact .inr ⟨by simp, rfl, id⟩
      | refused cause => exact .inr ⟨by simp, rfl, id⟩
      | aborted hsize => exact .inl ⟨_, rfl⟩
      | polling hsize hbanner => exact .inl ⟨_, rfl⟩
    | poll hway => exact absurd trivial hstate
    | «over» result roundTrips => exact .inr ⟨by simp, rfl, id⟩
  | recover hway => cases hway <;> exact .inr ⟨by simp, rfl, id⟩
  | _ => exact .inr ⟨by simp, rfl, id⟩

/-- Nothing is written before there is a connection. -/
theorem run_unlinked (rounds : Nat) {state : Supervision} (s : σ) (hstate : ¬ state.Polls) :
    (run r h rounds state).Reaches s fun _ as _ => bytesWritten (conversations as).1 = [] := by
  induction rounds generalizing state s with
  | zero => exact rfl
  | succ rounds ih =>
    rw [run_succ]
    refine (step_reaches r h s state).bind fun state' as s' hway => ?_
    rcases step_unlinked hstate hway with ⟨as', rfl⟩ | ⟨hopened, hunwritten, hstate'⟩
    · exact rfl
    · refine (ih s' hstate').mono fun _ as' _ hrest => ?_
      rw [conversations_append_unopened hopened, bytesWritten_append, hunwritten, hrest]
      rfl

/-- The failure that is returned is the last one. -/
theorem getLast?_failures (rounds : Nat) {e : ConnectionError}
    (hover : (after r h s rounds).1 = .over (.failed e)) :
    (failures r h s rounds).getLast? = some e := by
  induction rounds with
  | zero => cases hover
  | succ rounds ih =>
    have hnone : (after r h s (rounds + 1)).1.failure? = none := by rw [hover]; rfl
    obtain ⟨as, hway⟩ : ∃ as, SupervisionWay r (after r h s rounds).1
        (after r h s (rounds + 1)).1 as := by
      rw [after_succ]
      exact ⟨_, step_reaches r h (after r h s rounds).2.2 (after r h s rounds).1⟩
    rw [failures_succ, hnone, Option.toList_none, List.append_nil]
    generalize hbefore : (after r h s rounds).1 = state at hway
    rw [hover] at hway
    cases hway with
    | «over» => exact ih hbefore
    | recover hway =>
      cases hway with
      | gaveUp =>
        cases rounds with
        | zero => cases hbefore
        | succ rounds =>
          rw [failures_succ, hbefore]
          exact List.getLast?_concat

/-- The run of the reader `r'` goes on where that of `r` ends. -/
structure Extends (r r' : Reader) (h : Host σ) (s : σ) (rounds : Nat) : Prop where
  /-- Only a failure can be followed by more. -/
  same : (∀ e, (after r h s rounds).1 ≠ .over (.failed e)) →
    (after r' h s rounds).1 = (after r h s rounds).1 ∧
    (after r h s rounds).2.1.Agrees r r' (after r' h s rounds).2.1 ∧
    (after r' h s rounds).2.2 = (after r h s rounds).2.2
  /-- The record is an initial part, up to the number of attempts that a warning tells. -/
  record : ∃ ρ, ρ <+: (after r' h s rounds).2.1 ∧ (after r h s rounds).2.1.Agrees r r' ρ
  connections : (after r h s rounds).2.1.connections <+: (after r' h s rounds).2.1.connections
  lines : (after r h s rounds).2.1.lines <+: (after r' h s rounds).2.1.lines
  samples : (after r h s rounds).2.1.timedSamples <+: (after r' h s rounds).2.1.timedSamples
  backoffs : (after r h s rounds).2.1.backoffs <+: (after r' h s rounds).2.1.backoffs
  failures : failures r h s rounds <+: failures r' h s rounds
  /-- The failure that is returned is that of the last session, which both runs have. -/
  returned : ∀ e, (after r h s rounds).1 = .over (.failed e) →
    (Supervision.failures r h s rounds).getLast? = some e
  /-- Whatever the host only adds to, it goes on adding to. -/
  host : ∀ R : σ → σ → Prop, ∀ [IsPreorder σ R], h.Keeps R →
    R (after r h s rounds).2.2 (after r' h s rounds).2.2

theorem failures_prefix {rounds rounds' : Nat} (hle : rounds ≤ rounds') :
    failures r h s rounds <+: failures r h s rounds' := by
  induction hle with
  | refl => exact List.prefix_rfl
  | step _ ih =>
    rw [failures_succ]
    exact ih.trans (List.prefix_append _ _)

/-- **Where the longer run has been, it goes on.** -/
theorem MeetsAt.extends {more rounds j : Nat} (hmeets : MeetsAt r more h s rounds j) :
    Extends r (r.trying more) h s rounds := by
  obtain ⟨left, rfl⟩ := Nat.exists_eq_add_of_le hmeets.le
  obtain ⟨-, hhost, hrecord, hfailures, hstate⟩ := hmeets
  have hquiet : ((run (r.trying more) h left (after (r.trying more) h s j).1).Reaches
      (after (r.trying more) h s j).2.2) fun _ as _ => bytesWritten (conversations as).1 = [] := by
    rcases hstate with ⟨hj, -⟩ | ⟨attempt, e, roundTrips, -, hpart⟩
    · obtain rfl : left = 0 := by omega
      exact rfl
    · rw [hpart]
      exact run_unlinked left _ id
  have hlonger := after_add (r := r.trying more) (h := h) (s := s) j left
  have hkept {R : σ → σ → Prop} [IsPreorder σ R] (hkeeps : h.Keeps R) :=
    run_keeps (r.trying more) hkeeps left (after (r.trying more) h s j).1
      (after (r.trying more) h s j).2.2
  rw [Reaches] at hquiet
  generalize (run (r.trying more) h left (after (r.trying more) h s j).1).run
    (after (r.trying more) h s j).2.2 = rest at hquiet hlonger hkept
  refine
    { same := fun hnot => ?_
      record := ⟨_, ?_, hrecord⟩
      connections := ?_
      lines := ?_
      samples := ?_
      backoffs := ?_
      failures := ?_
      returned := fun e hover => getLast?_failures (j + left) hover
      host := fun R _ hkeeps => ?_ }
  · rcases hstate with ⟨hj, hsame⟩ | ⟨attempt, e, roundTrips, hover, -⟩
    · obtain rfl : left = 0 := by omega
      exact ⟨hsame, hrecord, hhost⟩
    · exact absurd hover (hnot e)
  · rw [hlonger]
    exact List.prefix_append _ _
  · rw [hrecord.connections_eq, hlonger, Record.connections, Record.connections, List.filter_append]
    exact List.prefix_append _ _
  · rw [hrecord.lines_eq, hlonger]
    exact Record.lines_prefix hquiet
  · rw [hrecord.timedSamples_eq, hlonger, Record.timedSamples, Record.timedSamples,
      List.filterMap_append]
    exact List.prefix_append _ _
  · rw [hrecord.backoffs_eq, hlonger]
    exact Record.backoffs_prefix _ _
  · rw [← hfailures]
    exact failures_prefix (Nat.le_add_right j left)
  · rw [← hhost, hlonger]
    exact hkept hkeeps

end

/-! ## What a server receives -/

/-- A reader that is not polling has no connection. -/
def Unlinked (state : Supervision) (s : Stage) : Prop := ¬ state.Polls → s.current = none

theorem recover_unlinked (r : Reader) (attempt : Nat) (e : ConnectionError) (roundTrips : Nat)
    {s : Stage} (hcurrent : s.current = none) :
    (recover r Stage.host attempt e roundTrips).Reaches s fun state _ s' => Unlinked state s' := by
  rw [recover]
  cases nextAttempt? r.attempts attempt roundTrips with
  | none => exact fun _ => hcurrent
  | some n =>
    have hstops := Stage.stops_current (s := s.observe (.logged (r.reconnecting e n))) hcurrent
      (.pause (r.backoffAfter n))
    refine (reaches_bind _).mpr ?_
    rw [reaches_log, reaches_bind, reaches_perform]
    split_ifs
    · exact fun _ => hstops
    · exact fun _ => ((Stage.waits_of_current hstops).pause _).current

theorem start_unlinked (r : Reader) (attempt : Nat) {s : Stage} (hcurrent : s.current = none) :
    (Session.start r Stage.host).Reaches s fun session _ s' =>
      Unlinked (.running attempt session) s' := by
  rw [Session.start, reaches_bind, reaches_perform]
  split_ifs
  · exact fun _ => hcurrent
  · have hstops := Stage.stops_current hcurrent .connection
    refine (Stage.openLink_current hstops r.link r.address).bind fun o _ s' ho => ?_
    cases o with
    | failed e => exact fun _ => ho (by simp)
    | aborted => exact fun _ => ho (by simp)
    | opened => exact fun hnot => absurd trivial hnot

theorem poll_unlinked (r : Reader) (attempt roundTrips : Nat) (s : Stage) :
    (Session.poll r Stage.host roundTrips).Reaches s fun session _ s' =>
      Unlinked (.running attempt session) s' := by
  have hdrop (session : Session) (s : Stage) :
      (dropLink Stage.host >>= fun _ => (pure session : Client Stage Session)).Reaches s
        fun session _ s' => Unlinked (.running attempt session) s' := by
    refine (dropLink_reaches Stage.host s).bind ?_
    rintro _ _ _ ⟨-, rfl⟩ -
    exact s.waits_leave.current
  have hclose (session : Session) (s : Stage) :
      (closeLink Stage.host >>= fun _ => (pure session : Client Stage Session)).Reaches s
        fun session _ s' => Unlinked (.running attempt session) s' := by
    rw [Stage.closeLink_host]
    exact hdrop session s
  rw [Session.poll]
  refine (requestUnlessStopped_reaches Stage.host r.link s r.command).bind fun o _ s' _ => ?_
  rcases o with _ | e | response
  · exact hclose _ s'
  · exact hdrop _ s'
  · refine (Session.record_reaches r Stage.host s' response).bind fun _ _ s'' _ => ?_
    rw [reaches_bind, reaches_perform]
    split_ifs
    · exact hclose _ _
    · exact fun hnot => absurd trivial hnot

/-- **Whoever stops polling has given up the connection.** -/
theorem Unlinked.step (r : Reader) {state : Supervision} {s : Stage}
    (hstate : Unlinked state s) :
    (state.step r Stage.host).Reaches s fun state' _ s' => Unlinked state' s' := by
  match state with
  | .over result => exact hstate
  | .running attempt (.over .stopped roundTrips) => exact fun _ => hstate id
  | .running attempt (.over .aborted roundTrips) => exact fun _ => hstate id
  | .running attempt (.over (.failed e) roundTrips) =>
    exact recover_unlinked r attempt e roundTrips (hstate id)
  | .running attempt .opening =>
    change (running attempt <$> Session.start r Stage.host).Reaches s _
    exact (reaches_map _ _).mpr (start_unlinked r attempt (hstate id))
  | .running attempt (.polling roundTrips) =>
    change (running attempt <$> Session.poll r Stage.host roundTrips).Reaches s _
    exact (reaches_map _ _).mpr (poll_unlinked r attempt roundTrips s)

theorem after_unlinked (r : Reader) {s : Stage} (hcurrent : s.current = none) (rounds : Nat) :
    Unlinked (after r Stage.host s rounds).1 (after r Stage.host s rounds).2.2 := by
  induction rounds with
  | zero => exact fun _ => hcurrent
  | succ rounds ih =>
    rw [after_succ]
    exact Unlinked.step r ih

/-- **The lines that the server reads are lines that it reads in the longer run too**, on one
connection after the other. -/
theorem received_prefix {r : Reader} {more : Nat} (hmore : r.attempts ≤ more) {s : Stage}
    (hcurrent : s.current = none) (hheedless : s.Heedless) (rounds : Nat) :
    (after r Stage.host s rounds).2.2.received <+:
      (after (r.trying more) Stage.host s rounds).2.2.received := by
  obtain ⟨j, hmeets⟩ := meetsAt Stage.host_deaf hheedless hmore rounds
  have hextends := hmeets.extends
  by_cases hfailed : ∃ e, (after r Stage.host s rounds).1 = .over (.failed e)
  · obtain ⟨e, hover⟩ := hfailed
    have hnone : (after r Stage.host s rounds).2.2.current = none := by
      have hunlinked := after_unlinked r hcurrent rounds
      rw [hover] at hunlinked
      exact hunlinked id
    have hbuilds := hextends.host Stage.Builds Stage.host_keeps_builds
    rw [← Stage.past_leave, (Stage.waits_of_current hnone).leave, ← Stage.past_leave]
    exact (hbuilds.past).trans (Stage.builds_leave _).past
  · have hsame := hextends.same fun e hover => hfailed ⟨e, hover⟩
    exact hsame.2.2 ▸ List.prefix_rfl

/-! ## No further attempts -/

section

variable {σ : Type} (r : Reader) (h : Host σ)

/-- A round of a session is a round of supervised telemetry. -/
theorem run_round {session : Session} (hround : ∀ result roundTrips,
      session ≠ .over result roundTrips) (attempt rounds : Nat) (s : σ) :
    (run r h (rounds + 1) (.running attempt session)).run s =
      (((run r h rounds (.running attempt ((session.step r h).run s).1)).run
          ((session.step r h).run s).2.2).1,
        ((session.step r h).run s).2.1 ++
          ((run r h rounds (.running attempt ((session.step r h).run s).1)).run
            ((session.step r h).run s).2.2).2.1,
        ((run r h rounds (.running attempt ((session.step r h).run s).1)).run
          ((session.step r h).run s).2.2).2.2) := by
  have hstep : step r h (.running attempt session) = running attempt <$> session.step r h := by
    cases session with
    | «over» result roundTrips => exact absurd rfl (hround result roundTrips)
    | _ => rfl
  rw [run_succ, hstep, ← bind_pure_comp, bind_assoc, run_bind]
  rfl

/-- As long as the session is not over, supervised telemetry is where the session is. -/
theorem run_of_session (attempt rounds : Nat) (session : Session) (s : σ)
    (hnot : ∀ result roundTrips,
      ((Session.run r h rounds session).run s).1 ≠ .over result roundTrips) :
    (run r h rounds (.running attempt session)).run s =
      (.running attempt ((Session.run r h rounds session).run s).1,
        ((Session.run r h rounds session).run s).2) := by
  induction rounds generalizing session s with
  | zero => rfl
  | succ rounds ih =>
    have hround : ∀ result roundTrips, session ≠ .over result roundTrips := by
      rintro result roundTrips rfl
      rw [Session.run_over] at hnot
      exact hnot result roundTrips rfl
    rw [Session.run_succ, run_bind] at hnot ⊢
    rw [run_round r h hround, ih _ _ hnot]

/-- Where no other attempt may follow, supervised telemetry is over with the session. -/
theorem step_over_session (hattempts : r.attempts = 0) (attempt : Nat) (result : SessionEnd)
    (roundTrips : Nat) :
    step r h (.running attempt (.over result roundTrips)) = pure (.over result) := by
  cases result with
  | stopped => rfl
  | aborted => rfl
  | failed e =>
    have hnone : nextAttempt? r.attempts attempt roundTrips = none := by
      rw [nextAttempt?, hattempts]
      exact if_neg (Nat.not_lt_zero _)
    rw [step, recover, hnone]

theorem run_of_session_over (hattempts : r.attempts = 0) (attempt rounds : Nat) (session : Session)
    (s : σ) {result : SessionEnd} {roundTrips : Nat}
    (hover : ((Session.run r h rounds session).run s).1 = .over result roundTrips) :
    (run r h (rounds + 1) (.running attempt session)).run s =
      (.over result, ((Session.run r h rounds session).run s).2) := by
  -- the session may be over before the last of its rounds
  by_cases hround : ∃ result roundTrips, session = .over result roundTrips
  · obtain ⟨result', roundTrips', rfl⟩ := hround
    rw [Session.run_over] at hover ⊢
    cases hover
    rw [run_succ, step_over_session r h hattempts, pure_bind, run_over]
    rfl
  · push Not at hround
    cases rounds with
    | zero => exact absurd hover (hround _ _)
    | succ rounds =>
      rw [Session.run_succ, run_bind] at hover ⊢
      rw [run_round r h hround, run_of_session_over hattempts attempt rounds _ _ hover]

/-- Supervised telemetry does what a single session does. -/
structure Coincides (s : σ) (rounds : Nat) : Prop where
  running : (∀ result roundTrips,
      ((Session.run r h rounds .opening).run s).1 ≠ .over result roundTrips) →
    after r h s rounds = (.running 0 ((Session.run r h rounds .opening).run s).1,
      ((Session.run r h rounds .opening).run s).2)
  returned : ∀ result roundTrips,
    ((Session.run r h rounds .opening).run s).1 = .over result roundTrips →
    after r h s (rounds + 1) = (.over result, ((Session.run r h rounds .opening).run s).2)

end

/-! ## The result -/

/-- **More attempts only extend a run**, on any host that does not care what is logged; what a
server reads of it is extended too. Without attempts supervised telemetry is a single session, on
any host and whenever the sign to stop comes. -/
theorem run_extends {σ : Type} (r : Reader) (h : Host σ) (s : σ) (rounds : Nat) :
    (∀ I : σ → Prop, h.Deaf I → I s → ∀ more, r.attempts ≤ more →
      Extends r (r.trying more) h s rounds) ∧
    (∀ stage : Stage, stage.current = none → stage.Heedless → ∀ more, r.attempts ≤ more →
      (after r Stage.host stage rounds).2.2.received <+:
        (after (r.trying more) Stage.host stage rounds).2.2.received) ∧
    (r.attempts = 0 → Coincides r h s rounds) := by
  refine ⟨fun I hdeaf hs more hmore => ?_, fun stage hcurrent hheedless more hmore => ?_,
    fun hattempts => ?_⟩
  · obtain ⟨j, hmeets⟩ := meetsAt hdeaf hs hmore rounds
    exact hmeets.extends
  · exact received_prefix hmore hcurrent hheedless rounds
  · exact ⟨run_of_session r h 0 rounds .opening s, fun result roundTrips hover =>
      run_of_session_over r h hattempts 0 rounds .opening s hover⟩

/-- The first and the last connection are closed at once. Between them there is a reply, which lets
the last one be made. -/
theorem run_extends_again :
    let r := Reader.ofSettings {}
    let closing : Script := { after := .close }
    let replying : Script := { closing with steps := [.reply (utf8Bytes "temp: 21.5 C\n")] }
    let stage : Stage := { address := r.address, reach := .scripts closing [replying, closing] }
    (after r Stage.host stage 10).1 = .over (.failed .closed) ∧
      (after (r.trying 1) Stage.host stage 10).1 = .over (.failed .closed) ∧
      (after (r.trying 1) Stage.host stage 10).2.1.samples.length = 1 ∧
      (after (r.trying 1) Stage.host stage 10).2.1.backoffs.map (·.1) =
        [⟨1500000000⟩, ⟨3100000000⟩] ∧
      Extends r (r.trying 1) Stage.host stage 10 ∧
      (after r Stage.host stage 10).2.2.received <+:
        (after (r.trying 1) Stage.host stage 10).2.2.received ∧
      Coincides r Stage.host stage 10 := by
  intro r closing replying stage
  obtain ⟨hextends, hreceived, hcoincides⟩ := run_extends r Stage.host stage 10
  have hheedless : stage.Heedless := fun _ _ => Trigger.noConfusion
  refine ⟨by decide +kernel, by decide +kernel, by decide +kernel, by decide +kernel, ?_, ?_, ?_⟩
  · exact hextends Stage.Heedless Stage.host_deaf hheedless 1 (Nat.zero_le 1)
  · exact hreceived stage rfl hheedless 1 (Nat.zero_le 1)
  · exact hcoincides rfl

end Supervision

end LineClient
