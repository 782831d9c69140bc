import LineClient.Load.Coordinator
import LineClient.Proofs.Link.Ways
import LineClient.Proofs.Random.Bounds

/-!
# The turns of a load worker

A worker gives way to others whenever it waits: for its connection, for a pause to be over, for a
line to be taken, for a reply. In a turn it waits once at most. Its turns, one after the other, are
its run, however many turns of others come between them.

* `Worker.Phase`, how far a worker has got; `Worker.turn`, what it does next;
* `Worker.rest`, what it is still going to do; **`Worker.rest_eq`**, a turn is the first part of it;
* **`Worker.turn_reaches`**, a worker has only so many turns;
* `Task`, a worker that has come so far; **`Task.outcome_next`**, no turn changes what comes of it.
-/

namespace LineClient

namespace Worker

/-! ## Turns -/

/-- How far a worker has got. -/
inductive Phase (ρ : Type) where
  | opening (x : ρ)
  /-- The connection is there. -/
  | opened (x : ρ)
  /-- The greeting has had its time. -/
  | greeted (x : ρ)
  /-- So many commands are still to be sent. -/
  | ready (planned left : Nat) (x : ρ) (t : Tally)
  /-- A command was sent. -/
  | asked (planned left : Nat) (x : ρ) (t : Tally) (command : String)
  /-- A command has been dealt with. -/
  | dealt (planned left : Nat) (x : ρ) (t : Tally)
  | done (report : Option WorkerReport)

/-- What a worker has left, if it is over. -/
def Phase.report? {ρ : Type} : Phase ρ → Option (Option WorkerReport)
  | .done report => some report
  | _ => none

variable {σ ρ : Type} (w : Worker) (h : Host σ) (g : Generator ρ)

/-- Reads the greeting, if there is one. -/
def hearGreeting : Client σ Unit := do
  if let some banner ← drainBanner h w.link then
    .log h (w.greeted banner)

/-- Waits for the reply to a command. The result is the new tally, or the failure that ends the
worker. -/
def hear (command : String) (t : Tally) : Client σ (Except ConnectionError Tally) := do
  match ← receive h w.link with
  | .ok response =>
    .log h (w.answered command response)
    return .ok { t with iterations := t.iterations + 1 }
  | .error e =>
    if e.isTimeout then
      .log h (w.unanswered command)
      return .ok ⟨t.iterations + 1, t.timeouts + 1⟩
    else return .error e

/-- What a worker does in a turn. -/
def turn : Phase ρ → Client σ (Phase ρ)
  | .opening x => do
    match ← openLink h w.link w.address with
    | .failed e => (fun report => .done (some report)) <$> w.fail h 0 {} e
    | .aborted => return .done none
    | .opened => return .opened x
  | .opened x => do
    .log h w.ready
    .pause h w.bannerGrace
    return .greeted x
  | .greeted x => do
    hearGreeting w h
    if w.maxIterations < w.minIterations then
      dropLink h
      return .done none
    else
      let (planned, x) := g.between w.minIterations w.maxIterations x
      return .ready planned planned x {}
  | .ready planned 0 _ t => .done <$> finish w h planned t none
  | .ready planned (left + 1) x t =>
    if w.commands.isEmpty then .done <$> finish w h planned t none
    else do
      let (i, x) := g.index w.commands.length x
      let command := w.commands.getD i ""
      match ← sendCommand h w.link command with
      | .ok () => return .asked planned left x t command
      | .error e => .done <$> finish w h planned t (some e)
  | .asked planned left x t command => do
    match ← hear w h command t with
    | .ok t => return .dealt planned left x t
    | .error e => .done <$> finish w h planned t (some e)
  | .dealt planned left x t => do
    .pause h w.commandDelay
    return .ready planned left x t
  | .done report => return .done report

/-! ## What is left to do -/

/-- The exchanges that are still to come, and the end. -/
def proceed (planned left : Nat) (x : ρ) (t : Tally) : Client σ (Option WorkerReport) := do
  let (t, failure) ← rounds w h g left x t
  finish w h planned t failure

/-- What a worker is still going to do. -/
def rest : Phase ρ → Client σ (Option WorkerReport)
  | .opening x => w.run h g x
  | .opened x => do
    greet w h
    converse w h g x
  | .greeted x => do
    hearGreeting w h
    converse w h g x
  | .ready planned left x t => proceed w h g planned left x t
  | .asked planned left x t command => do
    match ← hear w h command t with
    | .ok t =>
      .pause h w.commandDelay
      proceed w h g planned left x t
    | .error e => finish w h planned t (some e)
  | .dealt planned left x t => do
    .pause h w.commandDelay
    proceed w h g planned left x t
  | .done report => return report

/-- An exchange is the sending of the command, the hearing of the reply and a pause. -/
theorem exchange_eq (command : String) (t : Tally) : exchange w h command t = (do
    match ← sendCommand h w.link command with
    | .error e => return .error e
    | .ok () =>
      match ← hear w h command t with
      | .ok t =>
        .pause h w.commandDelay
        return .ok t
      | .error e => return .error e) := by
  rw [exchange]
  congr 1
  funext o
  cases o with
  | error e => rfl
  | ok =>
    simp only [hear, bind_assoc]
    congr 1
    funext o
    cases o with
    | ok response => simp only [bind_assoc, pure_bind]
    | error e =>
      dsimp only
      split_ifs <;> simp only [bind_assoc, pure_bind]

/-- When it is over, nothing is left to do. -/
theorem done_bind_rest (c : Client σ (Option WorkerReport)) :
    (Phase.done <$> c : Client σ (Phase ρ)) >>= rest w h g = c := by
  rw [bind_map_left]
  exact bind_pure c

theorem rest_greeted (x : ρ) : rest w h g (.greeted x) =
    w.turn h g (.greeted x) >>= rest w h g := by
  simp only [rest, turn, bind_assoc, converse]
  congr 1
  funext _
  split_ifs
  · simp only [bind_assoc, pure_bind, rest]
  · rfl

theorem rest_ready (planned left : Nat) (x : ρ) (t : Tally) :
    rest w h g (.ready planned left x t) =
      w.turn h g (.ready planned left x t) >>= rest w h g := by
  have hend : proceed w h g planned 0 x t = finish w h planned t none := by
    simp only [proceed, rounds, pure_bind]
  cases left with
  | zero => rw [rest, hend, turn, done_bind_rest]
  | succ left =>
    rw [rest, proceed, rounds, turn]
    split_ifs
    · rw [pure_bind, done_bind_rest]
    · simp only [exchange_eq, bind_assoc]
      congr 1
      funext o
      cases o with
      | error e => simp only [pure_bind, done_bind_rest]
      | ok =>
        simp only [bind_assoc, pure_bind, rest]
        congr 1
        funext o
        cases o with
        | ok t => simp only [bind_assoc, pure_bind, proceed]
        | error e => simp only [pure_bind]

/-- **A turn is the first part of what is left to do.** -/
theorem rest_eq (phase : Phase ρ) :
    rest w h g phase = w.turn h g phase >>= rest w h g := by
  cases phase with
  | opening x =>
    simp only [rest, turn, run, bind_assoc]
    congr 1
    funext o
    cases o with
    | failed e =>
      rw [bind_map_left]
      exact (bind_pure_comp _ _).symm
    | aborted => exact (pure_bind _ _).symm
    | opened => exact (pure_bind _ _).symm
  | opened x =>
    have hgreet : greet w h = (do
        .log h w.ready
        .pause h w.bannerGrace
        hearGreeting w h) := rfl
    simp only [rest, turn, hgreet, bind_assoc, pure_bind]
  | greeted x => exact rest_greeted w h g x
  | ready planned left x t => exact rest_ready w h g planned left x t
  | asked planned left x t command =>
    simp only [rest, turn, bind_assoc]
    congr 1
    funext o
    cases o with
    | ok t => exact (pure_bind _ _).symm
    | error e => exact (done_bind_rest w h g _).symm
  | dealt planned left x t => simp only [rest, turn, bind_assoc, pure_bind]
  | done report => rfl

/-! ## The number of turns -/

/-- The number of turns that there can still be. -/
def turnsLeft : Phase ρ → Nat
  | .opening _ => 3 * w.maxIterations + 4
  | .opened _ => 3 * w.maxIterations + 3
  | .greeted _ => 3 * w.maxIterations + 2
  | .ready _ left _ _ => 3 * left + 1
  | .asked _ left _ _ _ => 3 * left + 3
  | .dealt _ left _ _ => 3 * left + 2
  | .done _ => 0

theorem turnsLeft_pos {phase : Phase ρ} (hphase : phase.report? = none) :
    0 < w.turnsLeft phase := by
  cases phase with
  | done report => cases hphase
  | _ => exact Nat.succ_pos _

/-- **A turn uses up at least one of the turns that are left.** -/
theorem turn_reaches (phase : Phase ρ) (s : σ) :
    (w.turn h g phase).Reaches s fun phase' _ _ =>
      w.turnsLeft phase' ≤ w.turnsLeft phase - 1 := by
  have hdone {n : Nat} (c : Client σ (Option WorkerReport)) (s : σ) :
      (Phase.done <$> c : Client σ (Phase ρ)).Reaches s fun phase' _ _ =>
        w.turnsLeft phase' ≤ n := by
    rw [Client.reaches_map]
    exact Nat.zero_le n
  cases phase with
  | opening x =>
    refine (openLink_reaches h w.link s w.address).bind fun o _ s' _ => ?_
    cases o with
    | failed e =>
      rw [Client.reaches_map]
      exact Nat.zero_le _
    | aborted => exact Nat.zero_le _
    | opened => exact Nat.le_refl _
  | opened x =>
    rw [turn, Client.reaches_bind, Client.reaches_log, Client.reaches_bind, Client.reaches_pause]
    exact Nat.le_refl _
  | greeted x =>
    rw [turn, Client.reaches_bind]
    simp only [Client.Reaches]
    by_cases hlt : w.maxIterations < w.minIterations
    · simp only [if_pos hlt]
      exact Nat.zero_le _
    · simp only [if_neg hlt]
      have hle := g.between_le x (Nat.le_of_not_lt hlt)
      exact Nat.succ_le_succ (Nat.mul_le_mul_left 3 hle)
  | ready planned left x t =>
    cases left with
    | zero => exact hdone _ s
    | succ left =>
      rw [turn]
      split_ifs with hempty
      · exact hdone _ s
      · refine (sendCommand_reaches h w.link s _).bind fun o _ s' _ => ?_
        cases o with
        | error e => exact hdone _ s'
        | ok => exact Nat.le_refl _
  | asked planned left x t command =>
    rw [turn, Client.reaches_bind]
    simp only [Client.Reaches]
    generalize ((hear w h command t).run s).1 = o
    cases o with
    | ok t => exact Nat.le_refl _
    | error e => exact hdone _ _
  | dealt planned left x t =>
    rw [turn, Client.reaches_bind, Client.reaches_pause]
    exact Nat.le_refl _
  | done report => exact Nat.le_refl _

end Worker

/-! ## A worker among others -/

/-- A worker that has come so far. -/
structure Task (σ ρ : Type) where
  phase : Worker.Phase ρ
  record : Record
  state : σ

namespace Task

variable {σ ρ : Type} (w : Worker) (h : Host σ) (g : Generator ρ) (t : Task σ ρ)

/-- The turn that the worker has now. -/
def turn : Worker.Phase ρ × Record × σ := (w.turn h g t.phase).run t.state

/-- The worker after its turn. -/
def next : Task σ ρ :=
  let (phase, record, state) := t.turn w h g
  ⟨phase, t.record ++ record, state⟩

/-- What comes of the worker if it goes on. -/
def outcome : Option WorkerReport × Record × σ :=
  let (report, record, state) := (w.rest h g t.phase).run t.state
  (report, t.record ++ record, state)

/-- **No turn changes what comes of a worker.** -/
theorem outcome_next : (t.next w h g).outcome w h g = t.outcome w h g := by
  have hrest := congrArg (fun c => Client.run c t.state) (w.rest_eq h g t.phase)
  rw [Client.run_bind] at hrest
  simp only [outcome, next, turn, hrest, List.append_assoc]

/-- What came of a worker that is over. -/
theorem outcome_done {report : Option WorkerReport} (hdone : t.phase.report? = some report) :
    t.outcome w h g = (report, t.record, t.state) := by
  obtain ⟨phase, record, state⟩ := t
  cases phase with
  | done report' =>
    cases hdone
    simp [outcome, Worker.rest, Client.run_pure]
  | _ => cases hdone

theorem turnsLeft_next : w.turnsLeft (t.next w h g).phase ≤ w.turnsLeft t.phase - 1 :=
  w.turn_reaches h g t.phase t.state

end Task

end LineClient
