import LineClient.Link.Host

/-!
# Clients

A client is a program on a host. It yields a result, and everything that it did or met is kept in
the record of its run.

* `Client`, a monad;
* `Client.perform`, an operation of the host;
* `Client.act`, `Client.log`, an entry of the record.
-/

namespace LineClient

/-- A program on a host with states `σ`: its result, its record, and the next state. -/
def Client (σ α : Type) := σ → α × Record × σ

namespace Client

variable {σ α β : Type}

/-- The result, the record and the next state of a run. -/
def run (c : Client σ α) (s : σ) : α × Record × σ := c s

instance : Monad (Client σ) where
  pure a := fun s => (a, [], s)
  bind c f := fun s =>
    let (a, before, s) := c s
    let (b, after, s) := f a s
    (b, before ++ after, s)

theorem run_pure (a : α) (s : σ) : (pure a : Client σ α).run s = (a, [], s) := rfl

theorem run_bind (c : Client σ α) (f : α → Client σ β) (s : σ) :
    (c >>= f).run s =
      (((f (c.run s).1).run (c.run s).2.2).1,
        (c.run s).2.1 ++ ((f (c.run s).1).run (c.run s).2.2).2.1,
        ((f (c.run s).1).run (c.run s).2.2).2.2) := rfl

instance : LawfulMonad (Client σ) :=
  LawfulMonad.mk' (Client σ)
    (fun c => by
      funext s
      change ((c s).1, (c s).2.1 ++ [], (c s).2.2) = c s
      simp)
    (fun _ _ => rfl)
    (fun c f g => by
      funext s
      change (_, (_ ++ _) ++ _, _) = (_, _ ++ (_ ++ _), _)
      rw [List.append_assoc])

/-- An operation of the host. It leaves no entry by itself. -/
def perform (f : σ → α × σ) : Client σ α := fun s =>
  let (a, s) := f s
  (a, [], s)

/-- Enters an action into the record, with its time. The host takes note of it. -/
def act (h : Host σ) (a : Action) : Client σ Unit := fun s =>
  ((), [⟨h.now s, a⟩], h.observe a s)

/-- Logs an event. -/
def log (h : Host σ) (e : Event) : Client σ Unit := act h (.logged e)

/-- Lets time pass. -/
def pause (h : Host σ) (d : Duration) : Client σ Unit := do
  perform fun s => ((), h.pause d s)
  act h (.waited d)

end Client

end LineClient
