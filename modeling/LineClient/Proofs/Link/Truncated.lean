import LineClient.Proofs.Link.Signs
import LineClient.Proofs.Link.Whole

/-!
# Runs that are cut short

Up to the sign to stop a run is the same with signs and without. After it the client gives up the
connection and does nothing else; a line that goes out just then is broken off. The run without the
sign goes on, and writes at least as much of that line.

* `Record.connections`, `Record.lines`; `Record.Truncates`, how one record is the beginning of
  another;
* `CutShort`, what a run still does after a sign, and what it does without; `CutShort.truncates`;
* **`Client.Beside`**, a run with signs and the run without; `Client.Beside.bind`, part by part;
* `requestUnlessStopped_beside`, the request that a sign interrupts;
* `Client.Curtails`; **`Client.Beside.curtails`**, what the two runs have in common.
-/

namespace LineClient

/-! ## Records that are cut short -/

namespace Record

/-- The connections that were made, with their times. -/
def connections (r : Record) : Record := r.filter (·.action = .opened)

/-- The whole lines on each connection. -/
def lines (r : Record) : List (List (List UInt8)) := r.written.map fun bytes => (splitLines bytes).1

end Record

/-- The lines on the first of the connections. On the last one of these there may be fewer. -/
def FirstLines (lines lines' : List (List (List UInt8))) : Prop :=
  lines = [] ∨ ∃ before last last' after,
    lines = before ++ [last] ∧ lines' = before ++ last' :: after ∧ last <+: last'

/-- The first record is the second one, cut short. -/
structure Record.Truncates (r r' : Record) : Prop where
  samples : r.samples <+: r'.samples
  /-- Nothing else is told but what the system says against the farewell. -/
  events : ∃ told last, r.events = told ++ last ∧ told <+: r'.events ∧
    ∀ e ∈ last, ∃ cause, e = shutdownFailed cause
  connections : r.connections <+: r'.connections
  lines : FirstLines r.lines r'.lines

/-- What a run still does after a sign, and what it does in place of that without the sign. -/
structure CutShort (last rest : List Action) : Prop where
  unopened : Action.opened ∉ last
  unsampled : ∀ a ∈ last, a.sample? = none
  told : ∀ a ∈ last, ∀ e, a.event? = some e → ∃ cause, e = shutdownFailed cause
  written : bytesWritten last <+: bytesWritten (conversations rest).1

theorem bytesWritten_append (as as' : List Action) :
    bytesWritten (as ++ as') = bytesWritten as ++ bytesWritten as' := List.flatMap_append

/-- What is done later leaves the conversation before the first connection as it is, or goes on with
it. -/
theorem conversations_append_fst (as as' : List Action) :
    (conversations as).1 <+: (conversations (as ++ as')).1 := by
  induction as with
  | nil => exact List.nil_prefix
  | cons a as ih =>
    by_cases ha : a = .opened
    · rw [ha, conversations_opened]
      exact List.nil_prefix
    · rw [List.cons_append, conversations_cons ha, conversations_cons ha]
      exact List.cons_prefix_cons.mpr ⟨rfl, ih⟩

theorem cutShort_nil (rest : List Action) : CutShort [] rest where
  unopened := List.not_mem_nil
  unsampled _ ha := (List.not_mem_nil ha).elim
  told _ ha := (List.not_mem_nil ha).elim
  written := List.nil_prefix

/-- An action of the end of a conversation. -/
def Action.Leaves (a : Action) : Prop := a = .closed ∨ ∃ cause, a = .logged (shutdownFailed cause)

/-- After the sign the connection may be given up, and without it anything may follow. -/
theorem CutShort.append {last rest more : List Action} (h : CutShort last rest)
    (hmore : ∀ a ∈ more, a.Leaves) (rest' : List Action) :
    CutShort (last ++ more) (rest ++ rest') where
  unopened hopened := by
    rcases List.mem_append.mp hopened with hopened | hopened
    · exact h.unopened hopened
    · obtain heq | ⟨cause, heq⟩ := hmore _ hopened <;> cases heq
  unsampled a ha := by
    rcases List.mem_append.mp ha with ha | ha
    · exact h.unsampled a ha
    · obtain rfl | ⟨cause, rfl⟩ := hmore a ha <;> rfl
  told a ha e he := by
    rcases List.mem_append.mp ha with ha | ha
    · exact h.told a ha e he
    · obtain rfl | ⟨cause, rfl⟩ := hmore a ha
      · cases he
      · exact ⟨cause, (Option.some.inj he).symm⟩
  written := by
    have hunwritten : bytesWritten more = [] := by
      refine List.flatMap_eq_nil_iff.mpr fun a ha => ?_
      obtain rfl | ⟨cause, rfl⟩ := hmore a ha <;> rfl
    obtain ⟨further, hfurther⟩ := conversations_append_fst rest rest'
    rw [bytesWritten_append, hunwritten, List.append_nil, ← hfurther, bytesWritten_append]
    exact h.written.trans (List.prefix_append _ _)

/-! ## From the actions to the records -/

theorem conversations_of_unopened {as : List Action} (h : Action.opened ∉ as) :
    conversations as = (as, []) := by
  induction as with
  | nil => rfl
  | cons a as ih =>
    have ha : a ≠ .opened := fun heq => h (heq ▸ List.mem_cons_self)
    rw [conversations_cons ha, ih fun has => h (List.mem_cons_of_mem a has)]

/-- The conversations with the same beginning: the last one of them goes on in different ways. -/
theorem conversations_common (as : List Action) {last : List Action} (h : Action.opened ∉ last)
    (rest : List Action) :
    (∃ x, conversations (as ++ last) = (x ++ last, []) ∧
      conversations (as ++ rest) = (x ++ (conversations rest).1, (conversations rest).2)) ∨
    ∃ pending before x after,
      conversations (as ++ last) = (pending, before ++ [x ++ last]) ∧
      conversations (as ++ rest) = (pending, before ++ (x ++ (conversations rest).1) :: after) := by
  -- from the front; as long as there is no connection both go on before the first one
  induction as with
  | nil => exact .inl ⟨[], conversations_of_unopened h, rfl⟩
  | cons a as ih =>
    rw [List.cons_append, List.cons_append]
    by_cases ha : a = .opened
    · rw [ha, conversations_opened, conversations_opened]
      rcases ih with ⟨x, hlast, hrest⟩ | ⟨pending, before, x, after, hlast, hrest⟩
      · exact .inr ⟨[], [], x, (conversations rest).2, by rw [hlast]; rfl, by rw [hrest]; rfl⟩
      · exact .inr ⟨[], pending :: before, x, after, by rw [hlast]; rfl, by rw [hrest]; rfl⟩
    · rw [conversations_cons ha, conversations_cons ha]
      rcases ih with ⟨x, hlast, hrest⟩ | ⟨pending, before, x, after, hlast, hrest⟩
      · exact .inl ⟨a :: x, by rw [hlast]; rfl, by rw [hrest]; rfl⟩
      · exact .inr ⟨a :: pending, before, x, after, by rw [hlast], by rw [hrest]⟩

theorem Record.lines_eq (r : Record) :
    r.lines = (conversations r.actions).2.map fun as => (splitLines (bytesWritten as)).1 := by
  rw [lines, written_eq, List.map_map]
  rfl

variable {common last rest : Record}

theorem CutShort.firstLines (h : CutShort last.actions rest.actions) :
    FirstLines (Record.lines (common ++ last)) (Record.lines (common ++ rest)) := by
  rw [Record.lines_eq, Record.lines_eq, Record.actions_append, Record.actions_append]
  rcases conversations_common common.actions h.unopened rest.actions with
    ⟨x, hlast, -⟩ | ⟨pending, before, x, after, hlast, hrest⟩
  · left
    rw [hlast]
    rfl
  · right
    rw [hlast, hrest, List.map_append, List.map_append]
    refine ⟨_, _, _, _, rfl, rfl, splitLines_mono ?_⟩
    rw [bytesWritten_append, bytesWritten_append]
    exact (List.prefix_append_right_inj _).mpr h.written

/-- Whatever `last` has nothing of is the beginning of what there is without the sign. -/
theorem filterMap_prefix {γ : Type} (f : Entry → Option γ) (h : ∀ entry ∈ last, f entry = none) :
    (common ++ last).filterMap f <+: (common ++ rest).filterMap f := by
  rw [List.filterMap_append, List.filterMap_append, List.filterMap_eq_nil_iff.mpr h,
    List.append_nil]
  exact List.prefix_append _ _

/-- **The record of a run that a sign ends is that of the run without the sign, cut short.** -/
theorem CutShort.truncates (h : CutShort last.actions rest.actions) :
    Record.Truncates (common ++ last) (common ++ rest) where
  samples := filterMap_prefix _ fun _ hentry => h.unsampled _ (List.mem_map_of_mem hentry)
  events := by
    refine ⟨common.events, last.events, List.filterMap_append, ?_, fun e he => ?_⟩
    · rw [Record.events, Record.events, List.filterMap_append]
      exact List.prefix_append _ _
    · obtain ⟨entry, hentry, hevent⟩ := List.mem_filterMap.mp he
      exact h.told _ (List.mem_map_of_mem hentry) e hevent
  connections := by
    unfold Record.connections
    rw [← List.filterMap_eq_filter]
    refine filterMap_prefix _ fun entry hentry => ?_
    have hopened : entry.action ≠ .opened := fun heq =>
      h.unopened (heq ▸ List.mem_map_of_mem hentry)
    simp [Option.guard, hopened]
  lines := h.firstLines

/-! ## Two runs beside each other -/

namespace Client

variable {σ τ α β : Type}

/-- A run with signs, before which no sign was given, and the run without signs. Either no sign was
given and they are the same, or the first run has stopped, which `P` says of its result, and its
record is cut short. -/
inductive Beside (P : α → Prop) : α × Record × Signalled σ τ → α × Record × σ → Prop
  | together {a : α} (ha : ¬ P a) (r : Record) (s : σ) (t : τ) :
    Beside P (a, r, ⟨s, t, false⟩) (a, r, s)
  | apart {a : α} (ha : P a) (a' : α) (common : Record) {last rest : Record}
    (hcut : CutShort last.actions rest.actions) (s : σ) (t : τ) (s' : σ) :
    Beside P (a, common ++ last, ⟨s, t, true⟩) (a', common ++ rest, s')

/-- A run after a sign has stopped; it only gives up its connection, if it has one. -/
def LeavesOff (P : α → Prop) (out : α × Record × Signalled σ τ) : Prop :=
  P out.1 ∧ (∀ a ∈ out.2.1.actions, a.Leaves) ∧ out.2.2.given = true

variable {P : α → Prop} {Q : β → Prop} {c : Client (Signalled σ τ) α} {c' : Client σ α}
  {f : α → Client (Signalled σ τ) β} {f' : α → Client σ β} {s : σ} {t : τ}

theorem leavesOff_pure {b : β} (hb : Q b) :
    LeavesOff Q ((pure b : Client (Signalled σ τ) β).run ⟨s, t, true⟩) :=
  ⟨hb, fun _ ha => absurd ha List.not_mem_nil, rfl⟩

/-- **One part of the two runs after the other.** -/
theorem Beside.bind (hc : Beside P (c.run ⟨s, t, false⟩) (c'.run s))
    (htogether : ∀ a s t, ¬ P a → Beside Q ((f a).run ⟨s, t, false⟩) ((f' a).run s))
    (hapart : ∀ a s t, P a → LeavesOff Q ((f a).run ⟨s, t, true⟩)) :
    Beside Q ((c >>= f).run ⟨s, t, false⟩) ((c' >>= f').run s) := by
  rw [run_bind, run_bind]
  generalize c.run ⟨s, t, false⟩ = out, c'.run s = out' at hc
  cases hc with
  | @together a ha r s t =>
    have hf := htogether a s t ha
    generalize (f a).run ⟨s, t, false⟩ = out, (f' a).run s = out' at hf
    cases hf with
    | together hb r' s t => exact .together hb (r ++ r') s t
    | apart hb b' common hcut s t s' =>
      rw [← List.append_assoc, ← List.append_assoc]
      exact .apart hb b' (r ++ common) hcut s t s'
  | @apart a ha a' common last rest hcut s t s' =>
    -- the run without signs goes on as it likes
    obtain ⟨hb, hleaves, hgiven⟩ := hapart a s t ha
    generalize (f a).run ⟨s, t, true⟩ = out at hb hleaves hgiven
    obtain ⟨b, more, s, t, given⟩ := out
    subst hgiven
    rw [List.append_assoc, List.append_assoc]
    refine .apart hb _ common ?_ s t _
    rw [Record.actions_append, Record.actions_append]
    exact hcut.append hleaves _

/-- A part that asks for no sign comes first. -/
theorem Matches.beside_bind (hc : c.Matches c')
    (hf : ∀ a s t, Beside Q ((f a).run ⟨s, t, false⟩) ((f' a).run s)) :
    Beside Q ((c >>= f).run ⟨s, t, false⟩) ((c' >>= f').run s) := by
  have hbeside : Beside (fun _ => False) (c.run ⟨s, t, false⟩) (c'.run s) := by
    rw [hc ⟨s, t, false⟩]
    exact .together id _ _ _
  exact hbeside.bind (fun a s t _ => hf a s t) fun _ _ _ hfalse => hfalse.elim

theorem beside_pure {a : α} (ha : ¬ P a) :
    Beside P ((pure a : Client (Signalled σ τ) α).run ⟨s, t, false⟩)
      ((pure a : Client σ α).run s) := .together ha [] s t

variable (h : Host σ) (signs : Signs σ τ)

/-- Whatever the client waits for, a sign may come first. -/
theorem stops_beside (w : Waiting) (s : σ) (t : τ) :
    Beside (· = true) ((perform ((h.stoppedBy signs).stops w)).run ⟨s, t, false⟩)
      ((perform (h.unstopped.stops w)).run s) := by
  have hrun : (perform ((h.stoppedBy signs).stops w)).run ⟨s, t, false⟩ =
      ((signs.stops w s t).1, [],
        ⟨(h.stops w s).2, (signs.stops w s t).2, false || (signs.stops w s t).1⟩) := rfl
  rw [hrun]
  cases (signs.stops w s t).1 with
  | false => exact .together (P := (· = true)) Bool.false_ne_true [] _ _
  | true =>
    have hcut : CutShort (Record.actions []) (Record.actions []) := cutShort_nil []
    exact .apart (P := (· = true)) rfl false [] hcut _ _ _

end Client

/-! ## A request -/

/-- What is recorded of a writing. -/
def WriteOutcome.action (command : String) {line : ByteArray} : WriteOutcome line → Action
  | .complete => .sent command
  | .failed count _ => .cut command count
  | .stalled count => .cut command count

theorem WriteOutcome.written_action (command : String) (o : WriteOutcome (commandLine command)) :
    (o.action command).written = o.taken := by
  cases o <;> rfl

theorem WriteOutcome.taken_prefix {line : ByteArray} (o : WriteOutcome line) :
    o.taken <+: line.data.toList := by
  cases o with
  | complete => exact List.prefix_refl _
  | failed count cause => exact List.take_prefix _ _
  | stalled count => exact List.take_prefix _ _

section

open Client

variable {σ τ : Type} (h : Host σ) (signs : Signs σ τ) (settings : LinkSettings)

theorem sendCommand_bind_action {α : Type} (command : String)
    (f : Except ConnectionError Unit → Client σ α) (s : σ) :
    (sendCommand h settings command >>= f).Reaches s fun _ as _ => ∃ more,
      as = (h.write (commandLine command) settings.sendTimeout s).1.action command :: more := by
  rw [reaches_bind, sendCommand, reaches_bind, reaches_perform]
  cases (h.write (commandLine command) settings.sendTimeout s).1 <;> exact ⟨_, rfl⟩

/-- A line that is broken off is the beginning of what the host takes of it without the sign. -/
theorem cutShort_cut {command : String} {count : Nat} (o : WriteOutcome (commandLine command))
    (hcount : count ≤ o.taken.length) (more : List Action) :
    CutShort [.cut command count] (o.action command :: more) where
  unopened hopened := by cases List.mem_singleton.mp hopened
  unsampled a ha := by
    rw [List.mem_singleton.mp ha]
    rfl
  told a ha e he := by
    rw [List.mem_singleton.mp ha] at he
    cases he
  written := by
    have hopened : o.action command ≠ .opened := by cases o <;> simp [WriteOutcome.action]
    have hline : (commandLine command).data.toList.take count <+: o.taken := by
      refine List.prefix_of_prefix_length_le (List.take_prefix _ _) o.taken_prefix ?_
      exact Nat.le_trans (List.length_take_le _ _) hcount
    rw [conversations_cons hopened, bytesWritten, bytesWritten, List.flatMap_cons,
      List.flatMap_cons, o.written_action, List.flatMap_nil, List.append_nil]
    exact hline.trans (List.prefix_append _ _)

theorem replyUnlessStopped_beside (o : Except ConnectionError Unit) (s : σ) (t : τ) :
    Beside (· = none) ((replyUnlessStopped settings (h.stoppedBy signs) o).run ⟨s, t, false⟩)
      ((replyUnlessStopped settings h.unstopped o).run s) := by
  cases o with
  | error e => exact beside_pure (P := (· = none)) (Option.some_ne_none _)
  | ok =>
    refine (stops_beside h signs _ s t).bind (fun stop s t hstop => ?_) fun stop s t hstop => ?_
    · rw [if_neg hstop, if_neg hstop, ← bind_pure_comp, ← bind_pure_comp]
      refine (readOnce_matches h signs settings _).beside_bind fun o s t => ?_
      exact beside_pure (P := (· = none)) (Option.some_ne_none _)
    · rw [if_pos hstop]
      exact leavesOff_pure rfl

/-- **A sign interrupts a request**: in the middle of the line, or before the reply. -/
theorem requestUnlessStopped_beside (hsteady : signs.Steady h settings.sendTimeout)
    (command : String) (s : σ) (t : τ) :
    Beside (· = none)
      ((requestUnlessStopped (h.stoppedBy signs) settings command).run ⟨s, t, false⟩)
      ((requestUnlessStopped h.unstopped settings command).run s) := by
  let line := commandLine command
  have hwhole : (requestUnlessStopped h.unstopped settings command).run s =
      (sendCommand h.unstopped settings command >>= replyUnlessStopped settings h.unstopped).run
        (h.stopsWriting line s).2 := rfl
  have hasked : (perform ((h.stoppedBy signs).stopsWriting line)).run ⟨s, t, false⟩ =
      ((signs.stopsWriting line s t).1, [], ⟨(h.stopsWriting line s).2,
        (signs.stopsWriting line s t).2, false || (signs.stopsWriting line s t).1.isSome⟩) := rfl
  rw [hwhole, requestUnlessStopped, run_bind, hasked]
  cases hsign : (signs.stopsWriting line s t).1 with
  | none =>
    have hrest (o : Except ConnectionError Unit) (s : σ) (t : τ) :=
      replyUnlessStopped_beside h signs settings o s t
    exact (sendCommand_matches h signs settings command).beside_bind hrest
  | some count =>
    have hcount := hsteady line s t count hsign
    obtain ⟨more, hactions⟩ := sendCommand_bind_action h.unstopped settings command
      (replyUnlessStopped settings h.unstopped) (h.stopsWriting line s).2
    generalize (sendCommand h.unstopped settings command >>=
      replyUnlessStopped settings h.unstopped).run (h.stopsWriting line s).2 = out at hactions
    obtain ⟨o, rest, s'⟩ := out
    have hcut : CutShort (Record.actions [⟨h.now (h.stopsWriting line s).2, .cut command count⟩])
        rest.actions := by
      rw [hactions]
      exact cutShort_cut _ hcount more
    exact .apart (P := (· = none)) rfl o [] hcut _ _ _

end

/-! ## What two runs have in common -/

/-- How a run with signs, which `P` tells to have stopped, compares with the run without signs. -/
structure Client.Curtails {σ τ α : Type} (P : α → Prop) (out : α × Record × Signalled σ τ)
    (whole : α × Record × σ) : Prop where
  /-- The run stops when a sign is given, and only then. -/
  stops : P out.1 ↔ out.2.2.given = true
  /-- As long as no sign is given the runs are the same. -/
  same : out.2.2.given = false → out.1 = whole.1 ∧ out.2.1 = whole.2.1 ∧ out.2.2.host = whole.2.2
  /-- The record is cut short. -/
  truncates : out.2.1.Truncates whole.2.1

theorem Record.Truncates.refl (r : Record) : r.Truncates r := by
  have hcut : CutShort (actions []) (actions []) := cutShort_nil []
  have htruncates : Truncates (r ++ []) (r ++ []) := hcut.truncates
  rwa [List.append_nil] at htruncates

/-- **A sign only cuts a run short.** -/
theorem Client.Beside.curtails {σ τ α : Type} {P : α → Prop} {out : α × Record × Signalled σ τ}
    {whole : α × Record × σ} (h : Beside P out whole) : Curtails P out whole := by
  cases h with
  | together ha r s t =>
    exact ⟨iff_of_false ha Bool.false_ne_true, fun _ => ⟨rfl, rfl, rfl⟩, .refl r⟩
  | apart ha a' common hcut s t s' =>
    exact ⟨iff_of_true ha rfl, fun hgiven => absurd hgiven.symm Bool.false_ne_true, hcut.truncates⟩

end LineClient
