import LineClient.Proofs.Link.Scripted

/-!
# A server that answers every line

A server that reads every line and answers each of them leaves no command without a reply. A
command may be several lines, and then more replies come than the client reads; what is left of
them is read later in place of a reply that is still to come. So the client never waits in vain,
and no line is lost.

* `Script.Answers`, `Visit.Serves`, a server that answers every line, and the lines that it has been
  sent;
* `Visit.Serves.attend`, `Visit.Serves.push`, a turn of the server and a command of the client;
* **`Stage.Plays.read_serves`**, a reading after a command finds bytes;
* `sendCommand_serves`, `receive_serves`, `pause_serves`, **`closeLink_serves`**.
-/

namespace LineClient

/-- Every line is answered, by a reply that can be read at once. -/
def Script.Answers (script : Script) (max : Nat) : Prop :=
  ∀ i, ∃ bytes, bytes ≠ [] ∧ bytes.length ≤ max ∧ script.turn i = .reply bytes

theorem Script.Answers.next {script : Script} {max : Nat} (h : script.Answers max) :
    script.next.Answers max := fun i => by
  rw [Script.turn_next]
  exact h (i + 1)

theorem Wire.read_of_inbound {w : Wire} {max : Nat} (hbroken : w.broken = false)
    (hinbound : w.inbound ≠ []) (hmax : max ≠ 0) :
    ∃ c, w.read max = (.chunk c, { w with inbound := w.inbound.drop max }) := by
  obtain ⟨b, rest, hcons⟩ := List.exists_cons_of_ne_nil hinbound
  refine ⟨Wire.firstChunk max hmax b rest, ?_⟩
  simp only [Wire.read, hbroken, hcons, Bool.false_eq_true, if_false, dif_neg hmax]

namespace Visit

/-- The server reads, and answers every line. -/
structure Answering (v : Visit) (max : Nat) : Prop where
  accepted : v.accepted = true
  reading : v.reading = true
  ended : v.wire.ended = false
  broken : v.wire.broken = false
  script : v.script.Answers max

/-- The server answers every line. The client has sent `lines`, and nothing but whole lines; the
server may not have taken the last of them yet. -/
structure Serves (v : Visit) (max : Nat) (lines : List (List UInt8)) : Prop where
  answering : v.Answering max
  whole : (splitLines v.wire.outbound.data.toList).2 = []
  lines : v.lines.reverse ++ (splitLines v.wire.outbound.data.toList).1 = lines

variable {v : Visit} {max : Nat} {lines : List (List UInt8)}

theorem serves_idle {script : Script} (h : script.Answers max) :
    (idle script []).Serves max [] := ⟨⟨rfl, rfl, rfl, rfl, h⟩, rfl, rfl⟩

theorem Answering.readable (h : v.Answering max) :
    v.wire.readable = true ↔ v.wire.inbound ≠ [] := by
  simp [Wire.readable, h.ended, h.broken]

/-- What the client reads is of no account. -/
theorem Serves.withInbound (h : v.Serves max lines) (inbound : List UInt8) :
    ({ v with wire := { v.wire with inbound } } : Visit).Serves max lines :=
  ⟨⟨h.answering.accepted, h.answering.reading, h.answering.ended, h.answering.broken,
    h.answering.script⟩, h.whole, h.lines⟩

/-- **The client sends a command.** -/
theorem Serves.push (h : v.Serves max lines) (command : String) :
    ({ v with wire := v.wire.push (commandLine command) } : Visit).Serves max
      (lines ++ commandLines command) := by
  have hpush : (v.wire.push (commandLine command)).outbound.data.toList =
      v.wire.outbound.data.toList ++ (commandLine command).data.toList := by
    rw [Wire.push, ByteArray.data_append, Array.toList_append]
  refine ⟨⟨h.answering.accepted, h.answering.reading, h.answering.ended, h.answering.broken,
    h.answering.script⟩, ?_, ?_⟩
  · rw [hpush, splitLines_append h.whole, splitLines_commandLine_snd]
  · rw [hpush, splitLines_append h.whole, ← List.append_assoc, h.lines]
    rfl

/-- The server takes a line by a reply. -/
theorem takeLine_answering (h : v.Answering max) (line : List UInt8) :
    ∃ v', v.takeLine line = (v', false) ∧ v'.Answering max ∧
      v'.wire.outbound = v.wire.outbound ∧ v'.lines = line :: v.lines ∧ v'.wire.inbound ≠ [] := by
  obtain ⟨reply, hne, -, hturn⟩ := h.script 0
  have htake : v.takeLine line = ({ v with
      wire := v.wire.deliver reply
      script := v.script.next
      lines := line :: v.lines }, false) := by
    obtain ⟨wire, ⟨banner, arrival, steps, after⟩, accepted, reading, lines⟩ := v
    obtain rfl : reading = true := h.reading
    cases steps with
    | nil =>
      have hafter : after = .reply reply := hturn
      simp only [takeLine, if_true, hafter]
      rfl
    | cons turn steps =>
      have hfirst : turn = .reply reply := hturn
      simp only [takeLine, if_true, hfirst]
      rfl
  exact ⟨_, htake, ⟨h.accepted, h.reading, h.ended, h.broken, h.script.next⟩, rfl, rfl,
    List.append_ne_nil_of_right_ne_nil _ hne⟩

/-- The server takes lines one after the other, each by a reply. -/
theorem takeLines_answering (ls : List (List UInt8)) (h : v.Answering max) :
    ∃ v', v.takeLines ls = (v', false) ∧ v'.Answering max ∧
      v'.wire.outbound = v.wire.outbound ∧ v'.lines = ls.reverse ++ v.lines ∧
      (ls ≠ [] ∨ v.wire.inbound ≠ [] → v'.wire.inbound ≠ []) := by
  induction ls generalizing v with
  | nil => exact ⟨v, rfl, h, rfl, rfl, fun hne => hne.resolve_left (absurd rfl)⟩
  | cons line ls ih =>
    obtain ⟨v₁, htake, hanswering, houtbound, hlines, hinbound⟩ := takeLine_answering h line
    obtain ⟨v₂, htakes, hanswering', houtbound', hlines', hinbound'⟩ := ih hanswering
    refine ⟨v₂, ?_, hanswering', houtbound'.trans houtbound, ?_, fun _ => hinbound' (.inr hinbound)⟩
    · simp only [takeLines, htake, htakes, Bool.or_self]
    · rw [hlines', hlines, List.reverse_cons, List.append_assoc, List.singleton_append]

/-- **A turn of the server**: it takes all lines, and if there were any, bytes wait for the
client. -/
theorem Serves.attend (h : v.Serves max lines) : ∃ v', v.attend = (v', false) ∧
    v'.Serves max lines ∧ v'.lines.reverse = lines ∧
    ((splitLines v.wire.outbound.data.toList).1 ≠ [] ∨ v.wire.inbound ≠ [] →
      v'.wire.inbound ≠ []) := by
  have haccept : v.accept = (v, false) := by rw [accept, if_pos h.answering.accepted]
  obtain ⟨hanswering, hwhole, hlines⟩ := h
  cases hsplit : splitLines v.wire.outbound.data.toList with
  | mk ls tail =>
    rw [hsplit] at hwhole hlines
    obtain rfl : tail = [] := hwhole
    let kept : Visit := { v with wire := { v.wire with outbound := ⟨#[]⟩ } }
    have hkept : kept.Answering max := ⟨hanswering.accepted, hanswering.reading, hanswering.ended,
      hanswering.broken, hanswering.script⟩
    obtain ⟨v', htakes, hanswering', houtbound, hlines', hinbound⟩ := takeLines_answering ls hkept
    have hreverse : v'.lines.reverse = lines := by
      rw [hlines', List.reverse_append, List.reverse_reverse]
      exact hlines
    refine ⟨v', ?_, ⟨hanswering', ?_, ?_⟩, hreverse, hinbound⟩
    · simp only [Visit.attend, haccept, hsplit]
      rw [show List.toArray ([] : List UInt8) = #[] from rfl, htakes]
      rfl
    · rw [houtbound]
      rfl
    · rw [houtbound, hreverse]
      exact List.append_nil lines

end Visit

variable {s : Stage} {calm : Prop} {scene : Stage.Scene} {v : Visit} {lines : List (List UInt8)}

namespace Stage.Plays

/-- **After a command a reading finds bytes.** -/
theorem read_serves {max : Nat} (h : s.Plays calm scene v) (hv : v.Serves max lines)
    (hmax : max ≠ 0) (hwaiting : (splitLines v.wire.outbound.data.toList).1 ≠ []) {wait : Duration}
    (hwait : wait ≠ .zero) : ∃ c v', (s.read max wait).1 = .chunk c ∧
      (s.read max wait).2.Plays calm scene v' ∧ v'.Serves max lines := by
  have hfinds {s : Stage} {v : Visit} (h : s.Plays calm scene v) (hv : v.Serves max lines)
      (hinbound : v.wire.inbound ≠ []) : ∃ c v', (s.readWaiting max).1 = .chunk c ∧
        (s.readWaiting max).2.Plays calm scene v' ∧ v'.Serves max lines := by
    obtain ⟨c, hread⟩ := Wire.read_of_inbound hv.answering.broken hinbound hmax
    have hwaiting := h.readWaiting max
    rw [hread] at hwaiting
    exact ⟨c, _, hwaiting.1, hwaiting.2, hv.withInbound _⟩
  by_cases hreadable : v.wire.readable = true
  · rw [Stage.read, if_pos (.inl (h.readable.trans hreadable))]
    exact hfinds h hv (hv.answering.readable.mp hreadable)
  · obtain ⟨v', hattend, hv', -, hinbound⟩ := hv.attend
    have hplays := h.attend hattend
    have hreadable' : s.attend.readable = true :=
      hplays.readable.trans (hv'.answering.readable.mpr (hinbound (.inl hwaiting)))
    rw [Stage.read, if_neg (by rw [h.readable]; simp [hreadable, hwait])]
    simp only [hreadable', if_true]
    exact hfinds hplays hv' (hinbound (.inl hwaiting))

end Stage.Plays

theorem commandLines_ne_nil (command : String) : commandLines command ≠ [] := by
  rw [← List.length_pos_iff, length_commandLines]
  exact Nat.succ_pos _

section

open Stage

theorem sendCommand_serves (settings : LinkSettings) {max : Nat} (h : s.Plays calm scene v)
    (hv : v.Serves max lines) (command : String) :
    (sendCommand host settings command).Reaches s fun o as s' =>
      o = .ok () ∧ as = [.sent command] ∧ ∃ v', s'.Plays calm scene v' ∧
        v'.Serves max (lines ++ commandLines command) ∧
        (splitLines v'.wire.outbound.data.toList).1 ≠ [] := by
  have hwrite : host.write (commandLine command) settings.sendTimeout s = (.complete,
      { s with current := some { v with wire := v.wire.push (commandLine command) } }) := by
    simp only [host, Stage.write, h.current, hv.answering.broken, Bool.false_eq_true, false_and,
      dite_false]
  rw [sendCommand, Client.reaches_bind, Client.reaches_perform, hwrite]
  refine ⟨rfl, rfl, _, (h.withVisit _).observe _, hv.push command, ?_⟩
  rw [Wire.push, ByteArray.data_append, Array.toList_append, splitLines_append hv.whole]
  exact List.append_ne_nil_of_right_ne_nil _ (commandLines_ne_nil command)

theorem receive_serves (settings : LinkSettings) (h : s.Plays calm scene v)
    (hv : v.Serves settings.recvBufferSize lines) (hmax : settings.recvBufferSize ≠ 0)
    (hwait : settings.responseTimeout ≠ .zero)
    (hwaiting : (splitLines v.wire.outbound.data.toList).1 ≠ []) :
    (receive host settings).Reaches s fun o as s' =>
      (∃ bytes, o = .ok (decodeLossy bytes) ∧ as = [.received bytes]) ∧
        ∃ v', s'.Plays calm scene v' ∧ v'.Serves settings.recvBufferSize lines := by
  obtain ⟨c, v', hread, hplays, hv'⟩ := h.read_serves hv hmax hwaiting hwait
  rw [receive, reaches_readOnce]
  change (host.read _ _ s).1 = _ at hread
  rw [hread]
  exact ⟨⟨c.bytes, rfl, rfl⟩, v', hplays.observe _, hv'⟩

theorem pause_serves {max : Nat} (h : s.Plays calm scene v) (hv : v.Serves max lines)
    (d : Duration) : (Client.pause host d).Reaches s fun _ as s' =>
      as = [.waited d] ∧ ∃ v', s'.Plays calm scene v' ∧ v'.Serves max lines := by
  obtain ⟨v', hattend, hv', -⟩ := hv.attend
  obtain hpaused | hpaused := h.pause hattend d
  · exact ⟨rfl, v, hpaused.observe _, hv⟩
  · exact ⟨rfl, v', hpaused.observe _, hv'⟩

/-- **The server reads all lines**, also those that it has not taken when the client leaves. -/
theorem closeLink_serves {max : Nat} (h : s.Plays calm scene v) (hv : v.Serves max lines) :
    (closeLink host).Reaches s fun _ as s' =>
      as = [.closed] ∧ s'.received = scene.past ++ [lines] := by
  obtain ⟨v', hattend, -, hlines, -⟩ := hv.attend
  rw [closeLink_host]
  refine (dropLink_reaches host s).mono ?_
  rintro _ _ _ ⟨rfl, rfl⟩
  refine ⟨rfl, ((s.waits_leave.observe .closed).received).trans ?_⟩
  rw [received_eq s h.current, hattend, hlines, ← h.scene]
  rfl

end

end LineClient
