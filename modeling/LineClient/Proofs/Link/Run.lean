import LineClient.Link.Client
import Mathlib.Order.Basic
import Mathlib.Tactic.SplitIfs

/-!
# Runs of clients

What a run of a client yields is shown part by part, along the program. A statement about a run
speaks of its result, of the actions in its record, and of its next state; the times of the actions
are left out.

* `Record.actions`, the actions of a record; `Action.sent?`, the command that one of them sends;
* `Client.Reaches`, a run from a state ends so;
* **`Client.Reaches.bind`**, one part of a run after the other.
-/

namespace LineClient

/-! ## The actions of a record -/

/-- The command that an action sends as a whole line. -/
def Action.sent? : Action → Option String
  | .sent command => some command
  | _ => none

attribute [simp] Action.event? Action.sample? Action.sent?

namespace Record

/-- The actions of a record, without their times. -/
def actions (r : Record) : List Action := r.map (·.action)

variable (r r' : Record)

theorem actions_append : actions (r ++ r') = r.actions ++ r'.actions := List.map_append

theorem events_eq : r.events = r.actions.filterMap Action.event? := by
  rw [events, actions, List.filterMap_map]; rfl

theorem samples_eq : r.samples = r.actions.filterMap Action.sample? := by
  rw [samples, actions, List.filterMap_map]; rfl

end Record

/-! ## Runs -/

namespace Client

variable {σ α β : Type}

/-- The run of a client from `s` has a result, actions and a next state of which `Q` holds. -/
def Reaches (c : Client σ α) (s : σ) (Q : α → List Action → σ → Prop) : Prop :=
  Q (c.run s).1 (c.run s).2.1.actions (c.run s).2.2

section

variable {c : Client σ α} {f : α → Client σ β} {s : σ} {P : α → List Action → σ → Prop}

theorem Reaches.mono {Q : α → List Action → σ → Prop} (h : c.Reaches s P)
    (hQ : ∀ a as s', P a as s' → Q a as s') : c.Reaches s Q := hQ _ _ _ h

theorem Reaches.and {Q : α → List Action → σ → Prop} (h : c.Reaches s P) (h' : c.Reaches s Q) :
    c.Reaches s fun a as s' => P a as s' ∧ Q a as s' := ⟨h, h'⟩

theorem reaches_bind (Q : β → List Action → σ → Prop) : (c >>= f).Reaches s Q ↔
    c.Reaches s fun a as s' => (f a).Reaches s' fun b as' s'' => Q b (as ++ as') s'' := by
  simp only [Reaches, run_bind, Record.actions_append]

/-- **One part of a run after the other.** -/
theorem Reaches.bind {Q : β → List Action → σ → Prop} (h : c.Reaches s P)
    (hf : ∀ a as s', P a as s' → (f a).Reaches s' fun b as' s'' => Q b (as ++ as') s'') :
    (c >>= f).Reaches s Q := (reaches_bind Q).mpr (h.mono hf)

theorem reaches_map (g : α → β) (Q : β → List Action → σ → Prop) :
    (g <$> c).Reaches s Q ↔ c.Reaches s fun a as s' => Q (g a) as s' := by
  rw [← bind_pure_comp, reaches_bind]
  simp only [Reaches, run_pure, Record.actions, List.map_nil, List.append_nil]

end

variable {s : σ}

@[simp] theorem reaches_pure (a : α) (Q : α → List Action → σ → Prop) :
    (pure a : Client σ α).Reaches s Q ↔ Q a [] s := Iff.rfl

@[simp] theorem reaches_perform (op : σ → α × σ) (Q : α → List Action → σ → Prop) :
    (perform op).Reaches s Q ↔ Q (op s).1 [] (op s).2 := Iff.rfl

variable (h : Host σ)

@[simp] theorem reaches_act (a : Action) (Q : Unit → List Action → σ → Prop) :
    (act h a).Reaches s Q ↔ Q () [a] (h.observe a s) := Iff.rfl

@[simp] theorem reaches_log (e : Event) (Q : Unit → List Action → σ → Prop) :
    (log h e).Reaches s Q ↔ Q () [.logged e] (h.observe (.logged e) s) := Iff.rfl

@[simp] theorem reaches_pause (d : Duration) (Q : Unit → List Action → σ → Prop) :
    (pause h d).Reaches s Q ↔ Q () [.waited d] (h.observe (.waited d) (h.pause d s)) := Iff.rfl

end Client

end LineClient
