import LineClient.Proofs.Link.Lines
import LineClient.Proofs.Link.Run
import Mathlib.Tactic.SplitIfs

/-!
# Whole lines

A client that writes on a connection only as long as each of its lines has gone out as a whole
leaves the peer nothing but whole lines, and at most one line that is cut short at the very end.

* `conversations`, the actions on each connection; `Record.written_eq`, the bytes on each of them;
* `Action.ready?`, `Orderly`, a client that writes no more after a line that was cut short;
* **`Whole`**, what a peer finds on one connection;
* **`Orderly.whole`**: on every connection of an orderly client.
-/

namespace LineClient

/-! ## The actions on each connection -/

/-- Puts an action in front of the actions before the first connection and those on each one. -/
def addAction (a : Action) : List Action × List (List Action) → List Action × List (List Action)
  | (pending, rest) => if a = .opened then ([], pending :: rest) else (a :: pending, rest)

/-- The actions before the first connection, and the actions on each connection. -/
def conversations (as : List Action) : List Action × List (List Action) :=
  as.foldr addAction ([], [])

theorem conversations_opened (as : List Action) :
    conversations (.opened :: as) = ([], (conversations as).1 :: (conversations as).2) := rfl

theorem conversations_cons {a : Action} (h : a ≠ .opened) (as : List Action) :
    conversations (a :: as) = (a :: (conversations as).1, (conversations as).2) := if_neg h

/-- Actions that make no connection belong to the one that there is. -/
theorem conversations_append_unopened {as : List Action} (h : .opened ∉ as) (as' : List Action) :
    conversations (as ++ as') = (as ++ (conversations as').1, (conversations as').2) := by
  induction as with
  | nil => rfl
  | cons a as ih =>
    have ha : a ≠ .opened := fun heq => h (heq ▸ List.mem_cons_self)
    have has : .opened ∉ as := fun hmem => h (List.mem_cons_of_mem a hmem)
    rw [List.cons_append, conversations_cons ha, ih has]
    rfl

/-- Whatever comes before the first connection comes first of all. -/
theorem conversations_fst_isPrefix (as : List Action) : (conversations as).1 <+: as := by
  induction as with
  | nil => exact List.prefix_rfl
  | cons a as ih =>
    by_cases ha : a = .opened
    · rw [ha, conversations_opened]
      exact List.nil_prefix
    · rw [conversations_cons ha]
      exact List.cons_prefix_cons.mpr ⟨rfl, ih⟩

/-- The bytes that actions write. -/
def bytesWritten (as : List Action) : List UInt8 := as.flatMap Action.written

theorem Record.foldr_addWritten (r : Record) :
    r.foldr addWritten ([], []) =
      (bytesWritten (conversations r.actions).1, (conversations r.actions).2.map bytesWritten) := by
  induction r with
  | nil => rfl
  | cons entry r ih =>
    have hactions : actions (entry :: r) = entry.action :: actions r := rfl
    rw [List.foldr_cons, ih, hactions]
    by_cases h : entry.action = .opened
    · rw [h, conversations_opened]
      exact if_pos h
    · rw [conversations_cons h]
      exact if_neg h

theorem Record.written_eq (r : Record) :
    r.written = (conversations r.actions).2.map bytesWritten := by
  rw [written, foldr_addWritten]

/-! ## Orderly clients -/

/-- Whether the client may write after an action; none if it may not do this. After a line that was
cut short nothing may be written until there is another connection. -/
def Action.ready? (commands : List String) (ready : Bool) : Action → Option Bool
  | .opened => some true
  | .sent c => if ready = true ∧ c ∈ commands then some true else none
  | .cut c count =>
    if ready = true ∧ c ∈ commands ∧ count < (commandLine c).size then some false else none
  | _ => some ready

/-- The client writes the lines of some commands, and only when it may. -/
def Orderly (commands : List String) (ready : Bool) (as : List Action) (ready' : Bool) : Prop :=
  as.foldlM (Action.ready? commands) ready = some ready'

section

variable {commands : List String} {ready ready' ready'' : Bool} {as as' : List Action}

theorem Orderly.append (h : Orderly commands ready as ready')
    (h' : Orderly commands ready' as' ready'') : Orderly commands ready (as ++ as') ready'' := by
  rw [Orderly, List.foldlM_append, h]
  exact h'

theorem orderly_cons {a : Action} : Orderly commands ready (a :: as) ready'' ↔
    ∃ ready', a.ready? commands ready = some ready' ∧ Orderly commands ready' as ready'' := by
  rw [Orderly, List.foldlM_cons]
  exact Option.bind_eq_some_iff

/-- Something is done that is no writing and makes no connection. -/
def Action.isAside : Action → Bool
  | .opened | .sent _ | .cut _ _ => false
  | _ => true

theorem orderly_of_aside (h : as.all Action.isAside = true) (ready : Bool) :
    Orderly commands ready as ready := by
  induction as with
  | nil => rfl
  | cons a as ih =>
    rw [List.all_cons, Bool.and_eq_true] at h
    refine orderly_cons.mpr ⟨ready, ?_, ih h.2⟩
    cases a <;> first | rfl | exact absurd h.1 Bool.false_ne_true

end

/-! ## What a peer finds on a connection -/

/-- The lines of commands, one after the other. -/
def linesOf (commands : List String) : List UInt8 :=
  commands.flatMap fun c => (commandLine c).data.toList

/-- The first bytes of the line of a command, but not all of them. -/
def IsTorn (commands : List String) (bytes : List UInt8) : Prop :=
  ∃ c ∈ commands, bytes <+: (commandLine c).data.toList ∧ bytes ≠ (commandLine c).data.toList

/-- What a client writes on a connection is the lines of all the commands that it sends, in order,
and then at most one line that is cut short. -/
structure Unbroken (commands : List String) (as : List Action) : Prop where
  sent : ∀ c ∈ as.filterMap Action.sent?, c ∈ commands
  lines : ∃ torn, bytesWritten as = linesOf (as.filterMap Action.sent?) ++ torn ∧
    (torn = [] ∨ IsTorn commands torn)
  /-- Nothing is written after a line that was cut short. -/
  last : ∀ c count before after, as = before ++ .cut c count :: after →
    ∀ a ∈ after, a.sent? = none ∧ a.written = []

/-- A peer finds the commands that a client sends on a connection, each as a line of its own. -/
structure Whole (commands : List String) (as : List Action) : Prop
    extends Unbroken commands as where
  /-- Whatever the peer has read, its lines are the first ones of the commands. -/
  read : (∀ c ∈ commands, '\n' ∉ c.toList) → ∀ part, part <+: bytesWritten as →
    (splitLines part).1 <+: (as.filterMap Action.sent?).map utf8Bytes
  /-- Once the peer has read everything, its lines are all of the commands. -/
  complete : (∀ c ∈ commands, '\n' ∉ c.toList) →
    (splitLines (bytesWritten as)).1 = (as.filterMap Action.sent?).map utf8Bytes

section

variable {commands : List String} {as : List Action}

theorem IsTorn.newline_not_mem {torn : List UInt8} (h : IsTorn commands torn)
    (hnewline : ∀ c ∈ commands, '\n' ∉ c.toList) : 10 ∉ torn := by
  obtain ⟨c, hc, hpart, hne⟩ := h
  rw [commandLine_toList] at hpart hne
  rcases List.prefix_concat_iff.mp hpart with htorn | htorn
  · exact absurd htorn hne
  · intro hm
    exact hnewline c hc ((newline_mem_utf8Bytes c).mp (htorn.subset hm))

/-- **Whole lines can be told apart.** -/
theorem Unbroken.whole (h : Unbroken commands as) : Whole commands as := by
  have hcomplete (hnewline : ∀ c ∈ commands, '\n' ∉ c.toList) :
      (splitLines (bytesWritten as)).1 = (as.filterMap Action.sent?).map utf8Bytes := by
    obtain ⟨torn, hbytes, htorn⟩ := h.lines
    have hno : 10 ∉ torn := by
      rcases htorn with rfl | htorn
      · exact List.not_mem_nil
      · exact htorn.newline_not_mem hnewline
    rw [hbytes, linesOf, splitLines_flatMap_commandLine (fun c hc => hnewline c (h.sent c hc)) hno]
  refine ⟨h, fun hnewline part hpart => ?_, hcomplete⟩
  rw [← hcomplete hnewline]
  exact splitLines_mono hpart

/-! ## One action more -/

/-- Nothing is written. -/
def Unwritten (as : List Action) : Prop := ∀ a ∈ as, a.sent? = none ∧ a.written = []

theorem Unwritten.filterMap_sent (h : Unwritten as) : as.filterMap Action.sent? = [] :=
  List.filterMap_eq_nil_iff.mpr fun a ha => (h a ha).1

theorem Unwritten.bytesWritten_eq (h : Unwritten as) : bytesWritten as = [] :=
  List.flatMap_eq_nil_iff.mpr fun a ha => (h a ha).2

theorem unbroken_nil : Unbroken commands [] where
  sent c hc := nomatch hc
  lines := ⟨[], rfl, .inl rfl⟩
  last c count before after heq := by simp at heq

/-- An action in front that cuts no line short leaves the lines that were cut short where they
are. -/
theorem Unbroken.last_cons (h : Unbroken commands as) {a : Action}
    (ha : ∀ c count, a ≠ .cut c count) (c : String) (count : Nat) (before after : List Action)
    (heq : a :: as = before ++ .cut c count :: after) :
    ∀ a ∈ after, a.sent? = none ∧ a.written = [] := by
  cases before with
  | nil => exact absurd (List.cons.inj heq).1 (ha c count)
  | cons b before => exact h.last c count before after (List.cons.inj heq).2

theorem Unbroken.cons_sent (h : Unbroken commands as) {c : String} (hc : c ∈ commands) :
    Unbroken commands (.sent c :: as) where
  sent := by
    intro c' hc'
    rcases List.mem_cons.mp hc' with rfl | hc'
    · exact hc
    · exact h.sent c' hc'
  lines := by
    obtain ⟨torn, hbytes, htorn⟩ := h.lines
    refine ⟨torn, ?_, htorn⟩
    have hline : bytesWritten (.sent c :: as) =
        (commandLine c).data.toList ++ bytesWritten as := List.flatMap_cons
    have hlines : linesOf ((Action.sent c :: as).filterMap Action.sent?) =
        (commandLine c).data.toList ++ linesOf (as.filterMap Action.sent?) := List.flatMap_cons
    rw [hline, hlines, hbytes, List.append_assoc]
  last := h.last_cons fun _ _ heq => nomatch heq

/-- A line that is cut short is unfinished. -/
theorem isTorn_take {c : String} (hc : c ∈ commands) {count : Nat}
    (hcount : count < (commandLine c).size) :
    IsTorn commands ((commandLine c).data.toList.take count) := by
  refine ⟨c, hc, List.take_prefix count _, fun heq => ?_⟩
  have hlength : (commandLine c).data.toList.length = (commandLine c).size := rfl
  have htake := congrArg List.length heq
  rw [List.length_take, hlength] at htake
  omega

theorem Unwritten.cons_cut (h : Unwritten as) {c : String} (hc : c ∈ commands) {count : Nat}
    (hcount : count < (commandLine c).size) : Unbroken commands (.cut c count :: as) where
  sent c' hc' := by
    rw [List.filterMap_cons_none rfl, h.filterMap_sent] at hc'
    exact absurd hc' List.not_mem_nil
  lines := by
    refine ⟨(commandLine c).data.toList.take count, ?_, .inr (isTorn_take hc hcount)⟩
    have hline : bytesWritten (.cut c count :: as) =
        (commandLine c).data.toList.take count ++ bytesWritten as := List.flatMap_cons
    rw [hline, h.bytesWritten_eq, List.append_nil, List.filterMap_cons_none rfl, h.filterMap_sent]
    rfl
  last c' count' before after heq := by
    cases before with
    | nil =>
      obtain ⟨-, rfl⟩ := List.cons.inj heq
      exact h
    | cons b before =>
      intro a ha
      apply h
      rw [(List.cons.inj heq).2]
      exact List.mem_append_right before (List.mem_cons_of_mem _ ha)

theorem Unbroken.cons_aside (h : Unbroken commands as) {a : Action} (ha : a.isAside = true) :
    Unbroken commands (a :: as) := by
  have hsent : (a :: as).filterMap Action.sent? = as.filterMap Action.sent? := by
    cases a <;> first | rfl | exact absurd ha Bool.false_ne_true
  have hbytes : bytesWritten (a :: as) = bytesWritten as := by
    cases a <;> first | rfl | exact absurd ha Bool.false_ne_true
  have hcut : ∀ c count, a ≠ .cut c count := by
    rintro c count rfl
    exact absurd ha Bool.false_ne_true
  refine ⟨?_, ?_, h.last_cons hcut⟩
  · rw [hsent]
    exact h.sent
  · rw [hsent, hbytes]
    exact h.lines

/-! ## From one action to all of them -/

theorem Unwritten.cons_aside (h : Unwritten as) {a : Action} (ha : a.isAside = true) :
    Unwritten (a :: as) := by
  intro a' ha'
  rcases List.mem_cons.mp ha' with rfl | ha'
  · cases a' <;> first | exact ⟨rfl, rfl⟩ | exact absurd ha Bool.false_ne_true
  · exact h a' ha'

/-- What an orderly client does before its next connection, and what it does on each connection from
then on. If it may not write it does not. -/
theorem Orderly.unbroken {ready ready' : Bool} (h : Orderly commands ready as ready') :
    (if ready = true then Unbroken commands (conversations as).1
      else Unwritten (conversations as).1) ∧
    ∀ x ∈ (conversations as).2, Unbroken commands x := by
  have haside {ready : Bool} {a : Action} (ha : a.isAside = true) {as : List Action}
      (h : if ready = true then Unbroken commands as else Unwritten as) :
      if ready = true then Unbroken commands (a :: as) else Unwritten (a :: as) := by
    split_ifs at h ⊢
    · exact h.cons_aside ha
    · exact h.cons_aside ha
  induction as generalizing ready with
  | nil =>
    refine ⟨?_, fun x hx => nomatch hx⟩
    split_ifs
    · exact unbroken_nil
    · exact fun a ha => nomatch ha
  | cons a as ih =>
    obtain ⟨next, hnext, h⟩ := orderly_cons.mp h
    obtain ⟨hfirst, hrest⟩ := ih h
    cases a with
    | opened =>
      cases hnext
      rw [conversations_opened]
      refine ⟨?_, fun x hx => ?_⟩
      · split_ifs
        · exact unbroken_nil
        · exact fun a ha => nomatch ha
      · rcases List.mem_cons.mp hx with rfl | hx
        · exact hfirst
        · exact hrest x hx
    | sent c =>
      simp only [Action.ready?, Option.ite_none_right_eq_some] at hnext
      obtain ⟨⟨rfl, hc⟩, heq⟩ := hnext
      cases heq
      exact ⟨Unbroken.cons_sent hfirst hc, hrest⟩
    | cut c count =>
      simp only [Action.ready?, Option.ite_none_right_eq_some] at hnext
      obtain ⟨⟨rfl, hc, hcount⟩, heq⟩ := hnext
      cases heq
      exact ⟨Unwritten.cons_cut hfirst hc hcount, hrest⟩
    | _ =>
      cases hnext
      exact ⟨haside rfl hfirst, hrest⟩

/-- **On every connection of an orderly client the peer finds whole lines.** -/
theorem Orderly.whole {ready ready' : Bool} (h : Orderly commands ready as ready') :
    ∀ x ∈ (conversations as).2, Whole commands x :=
  fun x hx => (h.unbroken.2 x hx).whole

end

end LineClient
