import LineClient.Proofs.Link.Lines

/-!
# Visits that follow a script

A script gives one turn to every line. As long as the server reads and each of its replies is read
at once, nothing is left on the wire between one exchange and the next: the visit is *idle*, and
the next line gets the next turn.

* `Script.turn`, `Script.turns`, `Script.next`: the turns of a script one after the other;
* `Script.Fits`, a script whose greeting and replies can each be read at once;
* `Visit.idle`, `Visit.asked`, `Visit.heard`: before a command, after it, and after the turn of the
  server;
* **`Visit.attend_asked`**, the server takes the command by the next turn;
  `Visit.attend_of_quiet`, it does nothing where nothing waits for it.
-/

namespace LineClient

/-! ## The turns of a script -/

/-- The server sends nothing more and reads nothing more after this turn. -/
def Turn.isEnd : Turn → Bool
  | .close | .reset => true
  | _ => false

/-- A turn whose reply can be read at once. It gives no sign to stop. -/
def Turn.Fits (max : Nat) : Turn → Prop
  | .reply bytes => bytes ≠ [] ∧ bytes.length ≤ max
  | .cancel => False
  | _ => True

namespace Script

/-- The turn on the line with a number, the first line having the number `0`. -/
def turn (script : Script) (i : Nat) : Turn := script.steps.getD i script.after

/-- The turns on the first `n` lines. -/
def turns (script : Script) (n : Nat) : List Turn := (List.range n).map script.turn

/-- What is left of a script after one line. -/
def next (script : Script) : Script := { script with steps := script.steps.tail }

/-- The greeting can be read at once, nothing but it comes before the first line, and each reply
can be read at once. -/
structure Fits (script : Script) (max : Nat) : Prop where
  banner : script.banner.length ≤ max
  arrival : script.arrival = .silent
  turn (i : Nat) : (script.turn i).Fits max

variable {script : Script}

theorem turn_next (i : Nat) : script.next.turn i = script.turn (i + 1) := by
  unfold turn next
  cases script.steps <;> rfl

theorem turns_succ (n : Nat) : script.turns (n + 1) = script.turn 0 :: script.next.turns n := by
  have hnext : script.next.turn = script.turn ∘ Nat.succ := funext turn_next
  rw [turns, turns, List.range_succ_eq_map, List.map_cons, List.map_map, hnext]

end Script

/-! ## Visits -/

namespace Visit

/-- Nothing waits for the server, which has greeted. -/
structure Quiet (v : Visit) : Prop where
  accepted : v.accepted = true
  outbound : v.wire.outbound = .empty

/-- A client has just come. -/
def fresh (script : Script) : Visit := { wire := {}, script }

/-- Nothing waits on either side, and the server reads. -/
def idle (script : Script) (lines : List (List UInt8)) : Visit :=
  { wire := {}, script, accepted := true, lines }

/-- A command has been sent and nothing else waits. -/
def asked (script : Script) (lines : List (List UInt8)) (command : String) : Visit :=
  { idle script lines with wire := { outbound := commandLine command } }

/-- The server has just taken a line by a turn. -/
def heard (script : Script) (lines : List (List UInt8)) (turn : Turn) : Visit :=
  ((idle script lines).take turn).1

/-- The greeting waits for the client. -/
def greeting (script : Script) : Visit :=
  { idle script [] with wire := { inbound := script.banner } }

theorem quiet_idle (script : Script) (lines : List (List UInt8)) : (idle script lines).Quiet :=
  ⟨rfl, rfl⟩

theorem quiet_greeting (script : Script) : (greeting script).Quiet := ⟨rfl, rfl⟩

theorem quiet_heard (script : Script) (lines : List (List UInt8)) (turn : Turn) :
    (heard script lines turn).Quiet := by
  cases turn <;> exact ⟨rfl, rfl⟩

theorem lines_heard (script : Script) (lines : List (List UInt8)) (turn : Turn) :
    (heard script lines turn).lines = lines := by
  cases turn <;> rfl

theorem attend_of_quiet {v : Visit} (h : v.Quiet) : v.attend = (v, false) := by
  obtain ⟨wire, script, accepted, reading, lines⟩ := v
  obtain ⟨inbound, outbound, ended, broken, closed⟩ := wire
  obtain ⟨haccepted, houtbound⟩ := h
  simp only at haccepted houtbound
  subst haccepted houtbound
  rfl

theorem attend_fresh {script : Script} (h : script.arrival = .silent) :
    (fresh script).attend = (greeting script, false) := by
  unfold attend accept fresh
  rw [if_neg Bool.false_ne_true, h]
  rfl

theorem take_idle {script : Script} {lines : List (List UInt8)} {turn : Turn} {max : Nat}
    (h : turn.Fits max) : (idle script lines).take turn = (heard script lines turn, false) := by
  cases turn with
  | cancel => exact h.elim
  | _ => rfl

theorem takeLine_idle (script : Script) (lines : List (List UInt8)) (line : List UInt8) :
    (idle script lines).takeLine line =
      (idle script.next (line :: lines)).take (script.turn 0) := by
  obtain ⟨banner, arrival, steps, after⟩ := script
  cases steps <;> rfl

/-- **The server takes a command by the next turn of the script.** -/
theorem attend_asked {script : Script} {lines : List (List UInt8)} {command : String} {max : Nat}
    (hline : '\n' ∉ command.toList) (hfits : (script.turn 0).Fits max) :
    (asked script lines command).attend =
      (heard script.next (utf8Bytes command :: lines) (script.turn 0), false) := by
  have haccept : (asked script lines command).accept = (asked script lines command, false) := rfl
  have hsplit : splitLines (asked script lines command).wire.outbound.data.toList =
      ([utf8Bytes command], []) := splitLines_commandLine hline
  have htake := takeLine_idle script lines (utf8Bytes command)
  rw [take_idle hfits] at htake
  simp only [attend, haccept, hsplit]
  change (((idle script lines).takeLine (utf8Bytes command)).1, false ||
    (((idle script lines).takeLine (utf8Bytes command)).2 || false)) = _
  rw [htake]
  rfl

end Visit

end LineClient
