import LineClient.Proofs.Link.Meeting
import LineClient.Proofs.Link.Whole

/-!
# No byte is lost or read twice

Whatever the peer does while the client is at work, the pieces that the client has read are the
beginning of what the peer has sent, and unless the peer throws the wire away, all the rest waits. A
reading that yields nothing takes nothing.

* `chunksIn`, the pieces that were read; `Reports`, what an answer says of the actions;
* `Passage`, what was read on the way from one meeting to another one, against what the peer has
  sent; `Passage.reading`, one reading; **`Passage.trans`**, one passage after the other;
* `Meeting.perform_passage`, one operation; `Meeting.course_passage`, any number of them;
* `Meeting.course_quiet`, enough readings take all that waits;
* **`Meeting.course_conserves`**, from the making of the connection on.
-/

namespace LineClient

/-! ## What was read -/

/-- The bytes that an action reads. -/
def Action.chunk? : Action → Option (List UInt8)
  | .received bytes => some bytes
  | _ => none

/-- The pieces that were read, in order. -/
def chunksIn (as : List Action) : List (List UInt8) := as.filterMap Action.chunk?

/-- Whether an action is a reading. -/
def Action.isReading : Action → Bool
  | .received _ | .ended | .silence _ => true
  | _ => false

theorem chunksIn_append (as as' : List Action) :
    chunksIn (as ++ as') = chunksIn as ++ chunksIn as' := List.filterMap_append

/-- An operation that does nothing but read. -/
def Operation.reads : Operation → Bool
  | .drainBanner | .receive => true
  | _ => false

/-- The answer to an operation tells what was done. A text is that of the one piece read. -/
inductive Reports (settings : LinkSettings) : Operation → Answer → List Action → Prop
  | drainBanner {o : Option String} {as : List Action} (h : BannerWay settings o as) :
    Reports settings .drainBanner (.text o) as
  | send {command : String} {o : Except ConnectionError Unit} {as : List Action}
    (h : SendWay command o as) : Reports settings (.send command) (Dialogue.ofUnit o) as
  | receive {o : Except ConnectionError String} {as : List Action}
    (h : ReadWay settings.recvBufferSize settings.responseTimeout o as) :
    Reports settings .receive (Dialogue.ofText o) as
  | cut {command : String} {e : ConnectionError} {as : List Action}
    (h : SendWay command (.error e) as) : Reports settings (.request command) (.failed e) as
  | request {command : String} {o : Except ConnectionError String} {as as' : List Action}
    (h : SendWay command (.ok ()) as)
    (h' : ReadWay settings.recvBufferSize settings.responseTimeout o as') :
    Reports settings (.request command) (Dialogue.ofText o) (as ++ as')

/-- The text that an answer tells. -/
def Answer.text? : Answer → Option String
  | .text o => o
  | _ => none

/-- **A text is that of the one piece read**, and there is none when nothing was read. -/
theorem Reports.text?_toList {settings : LinkSettings} {op : Operation} {answer : Answer}
    {as : List Action} (h : Reports settings op answer as) :
    answer.text?.toList = (chunksIn as).map decodeLossy := by
  cases h with
  | drainBanner h =>
    cases h with
    | ended failure => cases failure <;> rfl
    | _ => rfl
  | send h => cases h <;> rfl
  | receive h =>
    cases h with
    | ended failure => cases failure <;> rfl
    | _ => rfl
  | cut h => cases h; rfl
  | request h h' =>
    cases h
    cases h' with
    | ended failure => cases failure <;> rfl
    | _ => rfl

/-! ## What was read and what was sent -/

theorem chunksIn_eq_nil {as : List Action} (h : ∀ a ∈ as, a.isReading = true → a = .ended) :
    chunksIn as = [] := by
  refine List.filterMap_eq_nil_iff.mpr fun a ha => ?_
  cases a with
  | received bytes => exact absurd (h _ ha rfl) fun heq => nomatch heq
  | _ => rfl

/-- From one meeting to another one, by actions of the client and deeds of the peer. -/
structure Passage (max : Nat) (m : Meeting) (as : List Action) (m' : Meeting) : Prop where
  size : ∀ chunk ∈ chunksIn as, 1 ≤ chunk.length ∧ chunk.length ≤ max
  broken : m.wire.broken = true → m'.wire.broken = true
  /-- What the client has read is the beginning of what waited and what the peer has sent since,
  and unless the peer has thrown the wire away, the rest waits now. -/
  sent : ∃ more, m'.delivered = m.delivered ++ more ∧
    (chunksIn as).flatten <+: m.wire.inbound ++ more ∧
    (m'.wire.broken = false → (chunksIn as).flatten ++ m'.wire.inbound = m.wire.inbound ++ more)
  /-- What was exhausted remains so, and the client is told. -/
  exhausted : m.Exhausted → m'.Exhausted ∧ ∀ a ∈ as, a.isReading = true → a = .ended
  /-- The client is told that the peer has closed only when nothing is left to read. -/
  ended : .ended ∈ as → m'.Exhausted
  /-- Once it is told so, it is told nothing else. -/
  final : ∀ before after, as = before ++ .ended :: after →
    ∀ a ∈ after, a.isReading = true → a = .ended

namespace Passage

variable {max : Nat} {as as' : List Action} {m m' m'' : Meeting}

theorem broken_eq_false (h : Passage max m as m') (h' : m'.wire.broken = false) :
    m.wire.broken = false := by
  by_contra hbroken
  rw [Bool.not_eq_false] at hbroken
  rw [h.broken hbroken] at h'
  exact Bool.false_ne_true h'.symm

/-- A passage without an action of the client. -/
theorem idle (hbroken : m.wire.broken = true → m'.wire.broken = true)
    (hexhausted : m.Exhausted → m'.Exhausted) {more : List UInt8}
    (hdelivered : m'.delivered = m.delivered ++ more)
    (hinbound : m'.wire.broken = false → m'.wire.inbound = m.wire.inbound ++ more) :
    Passage max m [] m' where
  size chunk h := nomatch h
  broken := hbroken
  sent := ⟨more, hdelivered, List.nil_prefix, hinbound⟩
  exhausted h := ⟨hexhausted h, fun a ha => nomatch ha⟩
  ended h := nomatch h
  final before after heq := by simp at heq

/-- Only what waits for the peer has changed, or what the peer is going to do. -/
theorem of_eq (hbroken : m'.wire.broken = m.wire.broken) (hended : m'.wire.ended = m.wire.ended)
    (hinbound : m'.wire.inbound = m.wire.inbound) (hdelivered : m'.delivered = m.delivered) :
    Passage max m [] m' := by
  refine idle hbroken.trans ?_ (hdelivered.trans (List.append_nil _).symm) fun _ =>
    hinbound.trans (List.append_nil _).symm
  unfold Meeting.Exhausted
  rw [hbroken, hended, hinbound]
  exact id

theorem refl (max : Nat) (m : Meeting) : Passage max m [] m := of_eq rfl rfl rfl rfl

/-- **One passage after the other.** -/
theorem trans (h : Passage max m as m') (h' : Passage max m' as' m'') :
    Passage max m (as ++ as') m'' where
  size chunk hchunk := by
    rw [chunksIn_append] at hchunk
    exact (List.mem_append.mp hchunk).elim (h.size chunk) (h'.size chunk)
  broken hbroken := h'.broken (h.broken hbroken)
  sent := by
    obtain ⟨more, hdelivered, horder, hrest⟩ := h.sent
    obtain ⟨more', hdelivered', horder', hrest'⟩ := h'.sent
    rw [chunksIn_append, List.flatten_append]
    refine ⟨more ++ more', ?_, ?_, fun hbroken => ?_⟩
    · rw [hdelivered', hdelivered, List.append_assoc]
    · rw [← List.append_assoc]
      cases hbroken : m'.wire.broken with
      | true =>
        -- nothing is read any more
        have hnothing := chunksIn_eq_nil (h'.exhausted (.inl hbroken)).2
        rw [hnothing, List.flatten_nil, List.append_nil]
        exact horder.trans (List.prefix_append _ _)
      | false =>
        rw [← hrest hbroken, List.append_assoc]
        exact (List.prefix_append_right_inj _).mpr horder'
    · rw [List.append_assoc, hrest' hbroken, ← List.append_assoc,
        hrest (h'.broken_eq_false hbroken), List.append_assoc]
  exhausted hexhausted := by
    obtain ⟨hexhausted', hall⟩ := h.exhausted hexhausted
    obtain ⟨hexhausted'', hall'⟩ := h'.exhausted hexhausted'
    exact ⟨hexhausted'', fun a ha => (List.mem_append.mp ha).elim (hall a) (hall' a)⟩
  ended hended := by
    rcases List.mem_append.mp hended with hended | hended
    · exact (h'.exhausted (h.ended hended)).1
    · exact h'.ended hended
  final before after heq := by
    rcases List.append_eq_append_iff.mp heq with ⟨later, hbefore, has'⟩ | ⟨tail, has, htail⟩
    · exact h'.final later after has'
    · cases tail with
      | nil => exact h'.final [] after htail.symm
      | cons a tail =>
        -- the first passage has the end in it, so nothing waits for the second one
        obtain ⟨rfl, rfl⟩ := List.cons.inj htail
        have hended : m'.Exhausted := h.ended (by rw [has]; simp)
        intro a ha
        rcases List.mem_append.mp ha with ha | ha
        · exact h.final before tail has a ha
        · exact (h'.exhausted hended).2 a ha

/-- An action that is no reading. -/
theorem aside (max : Nat) (m : Meeting) {a : Action} (ha : a.isReading = false) :
    Passage max m [a] m := by
  have hchunks : chunksIn [a] = [] := chunksIn_eq_nil fun b hb hreading => by
    rw [List.mem_singleton.mp hb, ha] at hreading
    exact absurd hreading Bool.false_ne_true
  have hended : .ended ∉ [a] := fun hmem => by
    rw [← List.mem_singleton.mp hmem] at ha
    exact absurd ha.symm Bool.false_ne_true
  refine ⟨?_, id, ⟨[], (List.append_nil _).symm, ?_, fun _ => ?_⟩, fun h => ⟨h, fun b hb hb' => ?_⟩,
    fun hmem => absurd hmem hended, fun before after heq => ?_⟩
  · rw [hchunks]
    exact fun chunk hchunk => nomatch hchunk
  · rw [hchunks]
    exact List.nil_prefix
  · rw [hchunks, List.append_nil]
    rfl
  · rw [List.mem_singleton.mp hb, ha] at hb'
    exact absurd hb' Bool.false_ne_true
  · refine absurd ?_ hended
    rw [heq]
    simp

/-- What the system tells is no reading. -/
theorem told (max : Nat) (m : Meeting) (event : IoError → Event) (failure : Option IoError) :
    Passage max m (failureLog event failure) m := by
  cases failure with
  | none => exact refl max m
  | some cause => exact aside max m rfl

/-- **A reading takes what it yields from the front of what waits.** -/
theorem reading {o : ReadOutcome max} (hreading : m.Reading max o m') (wait : Duration) :
    Passage max m (o.actions wait) m' := by
  have hfinal (b : Action) (before after : List Action) (heq : [b] = before ++ .ended :: after)
      (a : Action) (ha : a ∈ after) : a.isReading = true → a = .ended := by
    have hlength := congrArg List.length heq
    rw [List.length_append, List.length_singleton, List.length_cons] at hlength
    have hafter : after = [] := List.length_eq_zero_iff.mp (by omega)
    rw [hafter] at ha
    exact nomatch ha
  cases hreading with
  | chunk c rest hbroken hbytes hrest =>
    have hflatten : (chunksIn [.received c.bytes]).flatten = c.bytes := List.append_nil _
    have hnot : ¬ m.Exhausted := fun h => by
      rw [(h.of_broken_eq_false hbroken).2, List.take_nil] at hbytes
      exact c.nonempty hbytes
    have htake : c.bytes ++ rest = m.wire.inbound := by rw [hbytes, hrest, List.take_append_drop]
    refine ⟨fun chunk hchunk => ?_, id, ⟨[], (List.append_nil _).symm, ?_, fun _ => ?_⟩,
      fun h => absurd h hnot, fun hmem => ?_, hfinal _⟩
    · rw [show chunk = c.bytes from List.mem_singleton.mp hchunk]
      exact ⟨List.length_pos_iff.mpr c.nonempty, c.length_le⟩
    · change (chunksIn [.received c.bytes]).flatten <+: _
      rw [hflatten, List.append_nil, ← htake]
      exact List.prefix_append _ _
    · change (chunksIn [.received c.bytes]).flatten ++ rest = _
      rw [hflatten, List.append_nil, htake]
    · exact absurd (List.mem_singleton.mp hmem) fun heq => nomatch heq
  | ended failure h =>
    refine (told max m readFailed failure).trans ?_
    exact ⟨fun chunk hchunk => (nomatch hchunk), id,
      ⟨[], (List.append_nil _).symm, List.nil_prefix, fun _ => (List.append_nil _).symm⟩,
      fun _ => ⟨h, fun a ha _ => List.mem_singleton.mp ha⟩, fun _ => h, hfinal _⟩
  | silence hbroken hended hinbound =>
    refine ⟨fun chunk hchunk => (nomatch hchunk), id,
      ⟨[], (List.append_nil _).symm, List.nil_prefix, fun _ => (List.append_nil _).symm⟩,
      fun h => ?_, fun hmem => ?_, hfinal _⟩
    · have hended' := (h.of_broken_eq_false hbroken).1
      rw [hended] at hended'
      exact absurd hended' Bool.false_ne_true
    · exact absurd (List.mem_singleton.mp hmem) fun heq => nomatch heq

end Passage

/-! ## The peer and the client -/

namespace Meeting

/-- **One deed of the peer.** -/
theorem undergo_passage (max : Nat) (m : Meeting) (deed : Deed) :
    Passage max m [] (m.undergo deed) := by
  cases deed with
  | deliver bytes =>
    unfold undergo
    split_ifs with hover
    · exact .refl max m
    · rw [Bool.or_eq_true, not_or, Bool.not_eq_true, Bool.not_eq_true] at hover
      refine .idle id (fun hexhausted => ?_) rfl fun _ => rfl
      rcases hexhausted with hbroken | ⟨hended, -⟩
      · exact .inl hbroken
      · rw [hover.1] at hended
        exact absurd hended Bool.false_ne_true
  | finish =>
    have hnone := (List.append_nil m.wire.inbound).symm
    refine .idle id (fun hexhausted => ?_) (List.append_nil _).symm fun _ => hnone
    exact hexhausted.imp id fun h => ⟨rfl, h.2⟩
  | reset said =>
    exact .idle (fun _ => rfl) (fun _ => .inl rfl) (List.append_nil _).symm fun h =>
      absurd h.symm Bool.false_ne_true
  | collect => exact .of_eq rfl rfl rfl rfl

theorem advance_passage (max : Nat) (m : Meeting) : Passage max m [] m.advance := by
  have hall (deeds : List Deed) (m : Meeting) : Passage max m [] (deeds.foldl undergo m) := by
    induction deeds generalizing m with
    | nil => exact .refl max m
    | cons deed deeds ih => exact (undergo_passage max m deed).trans (ih _)
  unfold advance
  split
  · exact .refl max m
  · next now later hdeeds =>
    have hnext : Passage max m [] { m with deeds := later } := .of_eq rfl rfl rfl rfl
    exact hnext.trans (hall now _)

/-- A writing leaves alone what the client has to read. -/
theorem write_passage (max : Nat) (line : ByteArray) (m : Meeting) :
    Passage max m [] (m.write line).2 := by
  have hwire : (m.advance.wire.write line).2.broken = m.advance.wire.broken ∧
      (m.advance.wire.write line).2.ended = m.advance.wire.ended ∧
      (m.advance.wire.write line).2.inbound = m.advance.wire.inbound := by
    unfold Wire.write
    dsimp only
    split_ifs <;> exact ⟨rfl, rfl, rfl⟩
  exact (advance_passage max m).trans (.of_eq hwire.1 hwire.2.1 hwire.2.2 rfl)

variable {settings : LinkSettings}

/-- A meeting takes no note of what is recorded of a reading. -/
theorem reaches_reading (m : Meeting) (wait : Duration)
    (Q : Except ConnectionError String → List Action → Meeting → Prop) :
    (readOnce host settings wait).Reaches m Q ↔
      Q ((m.read settings.recvBufferSize).1.result wait)
        ((m.read settings.recvBufferSize).1.actions wait) (m.read settings.recvBufferSize).2 := by
  have hobserve (as : List Action) (m : Meeting) :
      as.foldl (fun m a => host.observe a m) m = m := by
    induction as with
    | nil => rfl
    | cons a as ih => exact ih
  rw [reaches_readOnce, hobserve]
  exact Iff.rfl

variable (hsize : 1 ≤ settings.recvBufferSize)

include hsize in
theorem readOnce_passage (m : Meeting) (wait : Duration) :
    (readOnce host settings wait).Reaches m fun o as m' =>
      ReadWay settings.recvBufferSize wait o as ∧ Passage settings.recvBufferSize m as m' := by
  refine (readOnce_reaches host settings m wait).and ?_
  rw [reaches_reading]
  exact (advance_passage _ m).trans (.reading (readWaiting_reads hsize m.advance) wait)

theorem sendCommand_passage (m : Meeting) (command : String) :
    (sendCommand host settings command).Reaches m fun o as m' =>
      SendWay command o as ∧ Passage settings.recvBufferSize m as m' := by
  refine (sendCommand_reaches host settings m command).and ?_
  have hwrite := write_passage settings.recvBufferSize (commandLine command) m
  have hline : host.write (commandLine command) settings.sendTimeout m =
    m.write (commandLine command) := rfl
  rw [sendCommand, Client.reaches_bind, Client.reaches_perform, hline]
  cases (m.write (commandLine command)).1 <;> exact hwrite.trans (.aside _ _ rfl)

include hsize in
/-- **One operation.** -/
theorem perform_passage (m : Meeting) (op : Operation) :
    (perform settings op).Reaches m fun answer as m' =>
      Reports settings op answer as ∧ Passage settings.recvBufferSize m as m' := by
  cases op with
  | drainBanner =>
    refine (Client.reaches_map _ _).mpr ((drainBanner_reaches host settings m).and ?_ |>.mono
      fun _ _ _ hboth => ⟨.drainBanner hboth.1, hboth.2⟩)
    rw [drainBanner]
    refine (readOnce_passage hsize m settings.bannerTimeout).bind ?_
    rintro o as m' ⟨-, hread⟩
    cases o with
    | ok banner =>
      rw [Client.reaches_pure, List.append_nil]
      exact hread
    | error e => exact hread.trans (.aside _ m' rfl)
  | send command =>
    refine (Client.reaches_map _ _).mpr ?_
    exact (sendCommand_passage m command).mono fun _ _ _ hboth => ⟨.send hboth.1, hboth.2⟩
  | receive =>
    refine (Client.reaches_map _ _).mpr ?_
    exact (readOnce_passage hsize m settings.responseTimeout).mono
      fun _ _ _ hboth => ⟨.receive hboth.1, hboth.2⟩
  | request command =>
    refine (Client.reaches_map _ _).mpr ?_
    rw [request]
    refine (sendCommand_passage m command).bind ?_
    rintro o as m' ⟨hway, hsent⟩
    cases o with
    | error e =>
      rw [Client.reaches_pure, List.append_nil]
      exact ⟨.cut hway, hsent⟩
    | ok =>
      refine (readOnce_passage hsize m' settings.responseTimeout).mono ?_
      rintro o as' m'' ⟨hway', hread⟩
      exact ⟨.request hway hway', hsent.trans hread⟩

include hsize in
/-- Any number of operations. -/
theorem course_passage (ops : List Operation) (m : Meeting) :
    (∀ x ∈ (course settings ops m).1, Reports settings x.operation x.answer x.actions) ∧
      Passage settings.recvBufferSize m ((course settings ops m).1.flatMap (·.actions))
        (course settings ops m).2 := by
  induction ops generalizing m with
  | nil => exact ⟨fun x hx => (List.not_mem_nil hx).elim, .refl _ m⟩
  | cons op ops ih =>
    obtain ⟨hreports, hop⟩ := perform_passage hsize m op
    obtain ⟨hall, hrest⟩ := ih ((perform settings op).run m).2.2
    refine ⟨fun x hx => ?_, hop.trans hrest⟩
    rcases List.mem_cons.mp hx with rfl | hx
    · exact hreports
    · exact hall x hx

/-! ## What waits is read -/

/-- The peer does nothing more, and has not thrown the wire away. -/
structure Quiet (m : Meeting) : Prop where
  deeds : m.deeds = []
  broken : m.wire.broken = false

include hsize in
/-- A reading while the peer does nothing takes as much as it may of what waits. -/
theorem readOnce_quiet {m : Meeting} (h : m.Quiet) (wait : Duration) :
    (readOnce host settings wait).Reaches m fun _ as m' =>
      (chunksIn as).flatten = m.wire.inbound.take settings.recvBufferSize ∧
        m'.wire.inbound = m.wire.inbound.drop settings.recvBufferSize ∧ m'.Quiet := by
  have hadvance : m.advance = m := by rw [advance, h.deeds]
  have hreading := readWaiting_reads hsize m
  have hread : m.read settings.recvBufferSize = m.readWaiting settings.recvBufferSize := by
    rw [read, hadvance]
  rw [reaches_reading, hread]
  generalize m.readWaiting settings.recvBufferSize = out at hreading
  obtain ⟨o, m'⟩ := out
  cases hreading with
  | chunk c rest hbroken hbytes hrest =>
    refine ⟨?_, hrest, h.deeds, h.broken⟩
    rw [← hbytes]
    exact List.append_nil _
  | ended failure hexhausted =>
    have hinbound := (hexhausted.of_broken_eq_false h.broken).2
    rw [hinbound, List.take_nil, List.drop_nil]
    exact ⟨by cases failure <;> rfl, rfl, h.deeds, h.broken⟩
  | silence hbroken hended hinbound =>
    rw [hinbound, List.take_nil, List.drop_nil]
    exact ⟨rfl, rfl, h⟩

include hsize in
theorem perform_quiet {m : Meeting} (h : m.Quiet) {op : Operation}
    (hop : op.reads = true) :
    (perform settings op).Reaches m fun _ as m' =>
      (chunksIn as).flatten = m.wire.inbound.take settings.recvBufferSize ∧
        m'.wire.inbound = m.wire.inbound.drop settings.recvBufferSize ∧ m'.Quiet := by
  cases op with
  | drainBanner =>
    refine (Client.reaches_map _ _).mpr ?_
    rw [drainBanner]
    refine (readOnce_quiet hsize h settings.bannerTimeout).bind ?_
    rintro o as m' ⟨hchunks, hrest⟩
    cases o with
    | ok banner =>
      rw [Client.reaches_pure, List.append_nil]
      exact ⟨hchunks, hrest⟩
    | error e =>
      have hlogged : chunksIn (as ++ [.logged (noBanner e)]) = chunksIn as :=
        (chunksIn_append as _).trans (List.append_nil _)
      refine ⟨?_, hrest⟩
      rw [← hchunks]
      exact congrArg List.flatten hlogged
  | receive =>
    refine (Client.reaches_map _ _).mpr ?_
    exact readOnce_quiet hsize h settings.responseTimeout
  | send command => exact absurd hop Bool.false_ne_true
  | request command => exact absurd hop Bool.false_ne_true

include hsize in
/-- **What waits is read in full**, as soon as there are enough readings. -/
theorem course_quiet {m : Meeting} (h : m.Quiet) {ops : List Operation}
    (hops : ∀ op ∈ ops, op.reads = true)
    (hlength : m.wire.inbound.length ≤ ops.length * settings.recvBufferSize) :
    (chunksIn ((course settings ops m).1.flatMap (·.actions))).flatten = m.wire.inbound := by
  induction ops generalizing m with
  | nil =>
    have hinbound : m.wire.inbound = [] := List.length_eq_zero_iff.mp (by simpa using hlength)
    rw [hinbound]
    rfl
  | cons op ops ih =>
    obtain ⟨hchunks, hinbound, hquiet⟩ := perform_quiet hsize h (hops op List.mem_cons_self)
    have hrest := ih hquiet (fun op' hop' => hops op' (List.mem_cons_of_mem op hop')) (by
      rw [hinbound, List.length_drop]
      rw [List.length_cons, Nat.succ_mul] at hlength
      omega)
    have hcons : (course settings (op :: ops) m).1.flatMap (·.actions) =
        ((perform settings op).run m).2.1.actions ++
          (course settings ops ((perform settings op).run m).2.2).1.flatMap (·.actions) := rfl
    rw [hcons, chunksIn_append, List.flatten_append, hchunks, hrest, hinbound,
      List.take_append_drop]

end Meeting

/-! ## From the making of the connection on -/

/-- What a client has read by some exchanges on a new connection, and what the peer has sent. -/
structure Conserved (settings : LinkSettings) (exchanges : List Exchange) (m : Meeting) : Prop where
  reports : ∀ x ∈ exchanges, Reports settings x.operation x.answer x.actions
  /-- Each text is that of one piece alone. -/
  texts : exchanges.filterMap (·.answer.text?) =
    (chunksIn (exchanges.flatMap (·.actions))).map decodeLossy
  size : ∀ chunk ∈ chunksIn (exchanges.flatMap (·.actions)),
    1 ≤ chunk.length ∧ chunk.length ≤ settings.recvBufferSize
  /-- What was read is the beginning of what was sent. -/
  order : (chunksIn (exchanges.flatMap (·.actions))).flatten <+: m.delivered
  /-- Until the peer throws the wire away, all the rest waits. -/
  rest : m.wire.broken = false →
    (chunksIn (exchanges.flatMap (·.actions))).flatten ++ m.wire.inbound = m.delivered
  /-- The client is told that the peer has closed only when nothing is left to read. -/
  ended : .ended ∈ exchanges.flatMap (·.actions) → m.Exhausted
  /-- Once it is told so, it is told nothing else. -/
  final : ∀ before after, exchanges.flatMap (·.actions) = before ++ .ended :: after →
    ∀ a ∈ after, a.isReading = true → a = .ended

theorem Passage.conserved {settings : LinkSettings} {deeds : List (List Deed)}
    {exchanges : List Exchange} {m : Meeting}
    (hreports : ∀ x ∈ exchanges, Reports settings x.operation x.answer x.actions)
    (h : Passage settings.recvBufferSize (.start settings deeds)
      (exchanges.flatMap (·.actions)) m) : Conserved settings exchanges m := by
  obtain ⟨more, hdelivered, horder, hrest⟩ := h.sent
  have hmore : (Meeting.start settings deeds).wire.inbound ++ more = m.delivered := hdelivered.symm
  rw [hmore] at horder hrest
  refine ⟨hreports, ?_, h.size, horder, hrest, h.ended, h.final⟩
  clear h hdelivered horder hrest hmore
  induction exchanges with
  | nil => rfl
  | cons x xs ih =>
    have htext := (hreports x List.mem_cons_self).text?_toList
    have hrest := ih fun y hy => hreports y (List.mem_cons_of_mem x hy)
    rw [List.flatMap_cons, chunksIn_append, List.map_append, ← hrest, ← htext, List.filterMap_cons]
    cases x.answer.text? <;> rfl

namespace Meeting

/-- **No byte is lost or read twice**, whatever the client and the peer do. An operation that tells
no text takes nothing, and what waits is returned in full as soon as there are enough readings. -/
theorem course_conserves (settings : LinkSettings) (hsize : 1 ≤ settings.recvBufferSize)
    (deeds : List (List Deed)) (ops : List Operation) :
    let out := course settings ops (start settings deeds)
    Conserved settings out.1 out.2 ∧
      (∀ op, (perform settings op).Reaches out.2 fun answer _ m' =>
        answer.text? = none → m'.wire.broken = false →
          ∃ more, m'.delivered = out.2.delivered ++ more ∧
            m'.wire.inbound = out.2.wire.inbound ++ more) ∧
      (out.2.wire.broken = false → ∀ ops' : List Operation, (∀ op ∈ ops', op.reads = true) →
        out.2.wire.inbound.length ≤ ops'.length * settings.recvBufferSize →
        (chunksIn ((course settings ops' { out.2 with deeds := [] }).1.flatMap
          (·.actions))).flatten = out.2.wire.inbound) := by
  intro out
  obtain ⟨hreports, hpassage⟩ := course_passage hsize ops (start settings deeds)
  refine ⟨hpassage.conserved hreports, fun op => ?_, fun hbroken ops' hops' => ?_⟩
  · refine (perform_passage hsize out.2 op).mono ?_
    rintro answer as m' ⟨hop, hnext⟩ htext hbroken
    obtain ⟨more, hdelivered, -, hrest⟩ := hnext.sent
    have hchunks : chunksIn as = [] := by
      have htexts := hop.text?_toList
      rw [htext] at htexts
      exact List.map_eq_nil_iff.mp htexts.symm
    refine ⟨more, hdelivered, ?_⟩
    rw [← hrest hbroken, hchunks]
    rfl
  · exact course_quiet hsize (m := { out.2 with deeds := [] }) ⟨rfl, hbroken⟩ hops'

/-- A greeting that comes too late, in place of the reply to the first command. The end of it is
still there when the peer has closed. -/
theorem course_conserves_late :
    let settings : LinkSettings := { ({} : Settings).link with recvBufferSize := 4 }
    let deeds : List (List Deed) := [[], [.deliver (utf8Bytes "HELLO")], [.finish]]
    let out := course settings [.drainBanner, .send "a", .receive] (start settings deeds)
    let next := course settings [.receive, .receive] { out.2 with deeds := [] }
    out.1.map (·.answer) = [.text none, .done, .text (some "HELL")] ∧
      Conserved settings out.1 out.2 ∧
      next.1.map (·.answer) = [.text (some "O"), .failed .closed] ∧
      (chunksIn (next.1.flatMap (·.actions))).flatten = out.2.wire.inbound := by
  intro settings deeds out next
  obtain ⟨hconserved, -, hquiet⟩ := course_conserves settings (by decide) deeds
    [.drainBanner, .send "a", .receive]
  refine ⟨by decide +kernel, hconserved, by decide +kernel, ?_⟩
  exact hquiet (by decide +kernel) [.receive, .receive] (by decide) (by decide +kernel)

end Meeting

end LineClient
