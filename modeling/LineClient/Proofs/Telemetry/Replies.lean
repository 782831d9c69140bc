import LineClient.Proofs.Telemetry.Rounds
import LineClient.Proofs.Telemetry.Ways

/-!
# The replies in the record of telemetry

What is read right after a command was written is a reply; the greeting is none. Whatever the host
does, every reply is recounted as soon as it has come: as a sample if it has the reading, and
otherwise as a warning.

* `repliesIn`, the replies among actions; `Reader.read`, the reading of a reply;
* `Reader.Recounts`, the samples and the warnings are those of the replies;
* `Reader.Block`, actions that recount their replies at every point but right after a reading;
  `Reader.Block.append`, blocks one after the other;
* **`Supervision.run_block`**: the actions of supervised telemetry are a block;
  `Supervision.exists_reading`, every sample is a reading.
-/

namespace LineClient

/-- The replies among actions. -/
def repliesIn : List Action → List (List UInt8)
  | .sent _ :: .received bytes :: rest => bytes :: repliesIn rest
  | _ :: rest => repliesIn rest
  | [] => []

/-- Nothing has been read right at the end. -/
def Settled (as : List Action) : Prop := ∀ bytes, as.getLast? ≠ some (.received bytes)

/-- Nothing is read right at the beginning. -/
def Fresh (as : List Action) : Prop := ∀ bytes, as.head? ≠ some (.received bytes)

/-- The event tells of a reply without the reading. -/
def isUnreadable (e : Event) : Bool := "Failed to parse ".toList.isPrefixOf e.message.toList

namespace Reader

/-- The reading of a reply. -/
def read (r : Reader) (bytes : List UInt8) : Option Binary64 := reading? (decodeLossy bytes) r.key

/-- There is a sample for every reply with the reading, and a warning for every other. -/
structure Recounts (r : Reader) (as : List Action) : Prop where
  samples : (as.filterMap Action.sample?).map (·.value) = (repliesIn as).filterMap r.read
  warnings : (as.filterMap Action.event?).filter isUnreadable =
    ((repliesIn as).filter (r.read · = none)).map fun bytes => r.unreadable (decodeLossy bytes)

/-- Actions that recount their replies at every point but right after a reading. -/
structure Block (r : Reader) (as : List Action) : Prop where
  fresh : Fresh as
  settled : Settled as
  recounts (as₁ : List Action) (hpart : as₁ <+: as) (hsettled : Settled as₁) : r.Recounts as₁

end Reader

/-! ## Replies in two stretches -/

theorem repliesIn_append {as' : List Action} (h : Fresh as') :
    ∀ as : List Action, repliesIn (as ++ as') = repliesIn as ++ repliesIn as'
  | [] => rfl
  | [a] => by
    cases as' with
    | nil => simp [repliesIn]
    | cons a' rest =>
      cases a' with
      | received bytes => exact (h bytes rfl).elim
      | _ => cases a <;> rfl
  | a :: b :: rest => by
    have ih := repliesIn_append h (b :: rest)
    cases a with
    | sent command =>
      cases b with
      | received bytes => exact congrArg (bytes :: ·) (repliesIn_append h rest)
      | _ => exact ih
    | _ => exact ih

theorem repliesIn_append_left (rest : List Action) :
    ∀ as : List Action, repliesIn as <+: repliesIn (as ++ rest)
  | [] => List.nil_prefix
  | [a] => by
    cases a <;> exact List.nil_prefix
  | a :: b :: as => by
    have ih := repliesIn_append_left rest (b :: as)
    cases a with
    | sent command =>
      cases b with
      | received bytes =>
        exact (List.prefix_cons_inj bytes).mpr (repliesIn_append_left rest as)
      | _ => exact ih
    | _ => exact ih

theorem repliesIn_mono {as as' : List Action} (h : as <+: as') :
    repliesIn as <+: repliesIn as' := by
  obtain ⟨rest, rfl⟩ := h
  exact repliesIn_append_left rest as

theorem Settled.of_append {as as' : List Action} (h : Settled (as ++ as')) : Settled as' := by
  intro bytes hlast
  refine h bytes ?_
  rw [List.getLast?_append, hlast]
  rfl

theorem Fresh.mono {as as₁ : List Action} (h : Fresh as) (hpart : as₁ <+: as) :
    Fresh as₁ := by
  obtain ⟨rest, rfl⟩ := hpart
  intro bytes hhead
  refine h bytes ?_
  rw [List.head?_append, hhead]
  rfl

namespace Reader

variable {r : Reader} {as as' : List Action}

theorem Recounts.append (h : r.Recounts as) (h' : r.Recounts as') (hfresh : Fresh as') :
    r.Recounts (as ++ as') where
  samples := by
    rw [List.filterMap_append, List.map_append, h.samples, h'.samples, repliesIn_append hfresh,
      List.filterMap_append]
  warnings := by
    rw [List.filterMap_append, List.filter_append, h.warnings, h'.warnings,
      repliesIn_append hfresh, List.filter_append, List.map_append]

theorem recounts_nil : r.Recounts [] := ⟨rfl, rfl⟩

theorem Block.nil : r.Block [] where
  fresh _ hhead := nomatch hhead
  settled _ hlast := nomatch hlast
  recounts as₁ hpart _ := by
    rw [List.prefix_nil.mp hpart]
    exact recounts_nil

/-- **Blocks one after the other.** -/
theorem Block.append (h : r.Block as) (h' : r.Block as') : r.Block (as ++ as') where
  fresh bytes hhead := by
    rw [List.head?_append] at hhead
    cases has : as.head? with
    | none => exact h'.fresh bytes (by simpa [has] using hhead)
    | some a => exact h.fresh bytes (by simpa [has] using hhead)
  settled bytes hlast := by
    rw [List.getLast?_append] at hlast
    cases has : as'.getLast? with
    | none => exact h.settled bytes (by simpa [has] using hlast)
    | some a => exact h'.settled bytes (by simpa [has] using hlast)
  recounts as₁ hpart hsettled := by
    -- A point of the two stretches lies in the first of them, or else after it.
    obtain hfirst | ⟨rest, rfl⟩ :=
      List.prefix_or_prefix_of_prefix hpart (List.prefix_append as as')
    · exact h.recounts as₁ hfirst hsettled
    · have hrest := (List.prefix_append_right_inj as).mp hpart
      exact (h.recounts as (List.prefix_refl as) h.settled).append
        (h'.recounts rest hrest hsettled.of_append) (h'.fresh.mono hrest)

/-! ## The smallest blocks -/

/-- The action has nothing to do with any reply. -/
def isNeutral : Action → Bool
  | .received _ => false
  | .appended _ => false
  | .logged e => !isUnreadable e
  | _ => true

theorem repliesIn_singleton (a : Action) : repliesIn [a] = [] := by
  cases a <;> rfl

theorem not_received {a : Action} (h : isNeutral a = true) (bytes : List UInt8) :
    a ≠ .received bytes := fun heq => by simp [heq, isNeutral] at h

theorem recounts_of_neutral {a : Action} (h : isNeutral a = true) : r.Recounts [a] where
  samples := by
    rw [repliesIn_singleton]
    cases a with
    | appended x => simp [isNeutral] at h
    | _ => rfl
  warnings := by
    rw [repliesIn_singleton]
    cases a with
    | logged e =>
      have he : isUnreadable e = false := by simpa [isNeutral] using h
      simp [he]
    | _ => rfl

theorem block_singleton {a : Action} (h : isNeutral a = true) : r.Block [a] where
  fresh bytes hhead := not_received h bytes (Option.some.inj hhead)
  settled bytes hlast := not_received h bytes (Option.some.inj hlast)
  recounts as₁ hpart _ := by
    obtain rfl | ⟨as₂, rfl, hpart₂⟩ := List.prefix_cons_iff.mp hpart
    · exact recounts_nil
    · rw [List.prefix_nil.mp hpart₂]
      exact recounts_of_neutral h

theorem block_of_neutral {as : List Action} (h : as.all isNeutral = true) : r.Block as := by
  induction as with
  | nil => exact .nil
  | cons a as ih =>
    rw [List.all_cons, Bool.and_eq_true] at h
    exact (block_singleton h.1).append (ih h.2)

/-- Something is read between two actions. -/
theorem block_reading {a a' : Action} {bytes : List UInt8} (ha : isNeutral a = true)
    (ha' : ∀ bytes, a' ≠ .received bytes) (h : r.Recounts [a, .received bytes, a']) :
    r.Block [a, .received bytes, a'] where
  fresh bytes hhead := not_received ha bytes (Option.some.inj hhead)
  settled bytes hlast := ha' bytes (Option.some.inj hlast)
  recounts as₁ hpart hsettled := by
    obtain rfl | ⟨as₂, rfl, hpart₂⟩ := List.prefix_cons_iff.mp hpart
    · exact recounts_nil
    obtain rfl | ⟨as₃, rfl, hpart₃⟩ := List.prefix_cons_iff.mp hpart₂
    · exact recounts_of_neutral ha
    obtain rfl | ⟨as₄, rfl, hpart₄⟩ := List.prefix_cons_iff.mp hpart₃
    · exact (hsettled bytes rfl).elim
    · rw [List.prefix_nil.mp hpart₄]
      exact h

/-- The greeting is read. -/
theorem block_banner {e e' : Event} (bytes : List UInt8) (he : isUnreadable e = false)
    (he' : isUnreadable e' = false) : r.Block [.logged e, .received bytes, .logged e'] := by
  refine block_reading (by simp [isNeutral, he]) (fun _ heq => nomatch heq) ⟨rfl, ?_⟩
  simp [List.filterMap_cons, he, he', repliesIn]

/-- A reply is read. -/
theorem block_reply (command : String) {bytes : List UInt8} {a : Action}
    (ha : RecordWay r (decodeLossy bytes) a) :
    r.Block [.sent command, .received bytes, a] := by
  cases ha with
  | sample hvalue time =>
    refine block_reading rfl (fun _ heq => nomatch heq) ⟨?_, ?_⟩ <;>
      simp [List.filterMap_cons, repliesIn, read, hvalue]
  | unreadable hnone =>
    have hunreadable : isUnreadable (r.unreadable (decodeLossy bytes)) = true := by
      simp [isUnreadable, unreadable, event]
    refine block_reading rfl (fun _ heq => nomatch heq) ⟨?_, ?_⟩ <;>
      simp [List.filterMap_cons, repliesIn, read, hnone, hunreadable]

end Reader

/-! ## The rounds of telemetry -/

@[simp] theorem isUnreadable_connected (address : String) :
    isUnreadable (connected address) = false := by
  simp [isUnreadable, connected, List.isPrefixOf]

@[simp] theorem isUnreadable_noBanner (e : ConnectionError) :
    isUnreadable (noBanner e) = false := by
  simp [isUnreadable, noBanner, List.isPrefixOf]

@[simp] theorem isUnreadable_readFailed (cause : IoError) :
    isUnreadable (readFailed cause) = false := by
  simp [isUnreadable, readFailed, List.isPrefixOf]

@[simp] theorem isUnreadable_shutdownFailed (cause : IoError) :
    isUnreadable (shutdownFailed cause) = false := by
  simp [isUnreadable, shutdownFailed, List.isPrefixOf]

@[simp] theorem isUnreadable_greeted (banner : String) :
    isUnreadable (Reader.greeted banner) = false := by
  simp [isUnreadable, Reader.greeted, Reader.event, List.isPrefixOf]

@[simp] theorem isUnreadable_begins (r : Reader) : isUnreadable r.begins = false := by
  simp [isUnreadable, Reader.begins, Reader.event, List.isPrefixOf]

@[simp] theorem isUnreadable_reconnecting (r : Reader) (e : ConnectionError) (attempt : Nat) :
    isUnreadable (r.reconnecting e attempt) = false := by
  simp [isUnreadable, Reader.reconnecting, Reader.event, List.isPrefixOf]

section

variable {r : Reader}

theorem StartWay.block {session : Session} {as : List Action} (h : StartWay r session as) :
    r.Block as := by
  cases h with
  | stopped => exact .nil
  | refused cause => exact Reader.block_singleton rfl
  | aborted hsize => exact Reader.block_of_neutral (by simp [Reader.isNeutral])
  | polling hsize hbanner =>
    cases hbanner with
    | greeted c =>
      exact (Reader.block_singleton rfl).append
        ((Reader.block_banner c.bytes (by simp) (by simp)).append
          (Reader.block_singleton (by simp [Reader.isNeutral])))
    | ended failure =>
      refine Reader.block_of_neutral ?_
      cases failure <;> simp [Reader.isNeutral, Reader.greeting]
    | silence => exact Reader.block_of_neutral (by simp [Reader.isNeutral, Reader.greeting])

/-- The end of a conversation has nothing to do with any reply. -/
theorem all_isNeutral_farewell (failure : Option IoError) :
    (farewell failure).all Reader.isNeutral = true := by
  cases failure <;> simp [farewell, Reader.isNeutral]

theorem PollWay.block {roundTrips : Nat} {session : Session} {as : List Action}
    (h : PollWay r roundTrips session as) : r.Block as := by
  cases h with
  | stoppedWriting count hcount failure =>
    exact Reader.block_of_neutral (all_isNeutral_farewell failure)
  | stoppedReading failure => exact Reader.block_of_neutral (all_isNeutral_farewell failure)
  | ended failure =>
    refine Reader.block_of_neutral ?_
    cases failure <;> simp [Reader.isNeutral]
  | stoppedPausing c ha failure =>
    exact (Reader.block_reply r.command ha).append
      (Reader.block_of_neutral (all_isNeutral_farewell failure))
  | polled c ha => exact (Reader.block_reply r.command ha).append (Reader.block_singleton rfl)
  | _ => exact Reader.block_of_neutral rfl

theorem RecoverWay.block {attempt roundTrips : Nat} {e : ConnectionError} {state : Supervision}
    {as : List Action} (h : RecoverWay r attempt e roundTrips state as) : r.Block as := by
  cases h with
  | gaveUp hnone => exact .nil
  | _ => exact Reader.block_of_neutral (by simp [Reader.isNeutral])

theorem SessionWay.block {session session' : Session} {as : List Action}
    (h : SessionWay r session session' as) : r.Block as := by
  cases h with
  | start hway => exact hway.block
  | poll hway => exact hway.block
  | «over» result roundTrips => exact .nil

theorem SupervisionWay.block {state state' : Supervision} {as : List Action}
    (h : SupervisionWay r state state' as) : r.Block as := by
  cases h with
  | round attempt hway => exact hway.block
  | recover hway => exact hway.block
  | _ => exact .nil

end

/-- **Supervised telemetry recounts the replies as they come.** -/
theorem Supervision.run_block {σ : Type} (r : Reader) (h : Host σ) (rounds : Nat)
    (state : Supervision) (s : σ) : (run r h rounds state).Reaches s fun _ as _ => r.Block as := by
  have hstep (state : Supervision) (s : σ) (_ : True) :
      (state.step r h).Reaches s fun _ as _ => True ∧ r.Block as :=
    (step_reaches r h s state).mono fun _ _ _ hway => ⟨trivial, hway.block⟩
  refine (run_reaches r h .nil ?_ hstep rounds s trivial).mono fun _ _ _ hrun => hrun.2
  exact fun _ _ has has' => has.append has'

/-- **Every sample is the reading of some text.** -/
theorem Supervision.exists_reading {σ : Type} (r : Reader) (h : Host σ) (rounds : Nat)
    (state : Supervision) (s : σ) :
    ∀ x ∈ ((run r h rounds state).run s).2.1.samples,
      ∃ text, reading? text r.key = some x.value := by
  intro x hx
  have hblock : r.Block ((run r h rounds state).run s).2.1.actions := run_block r h rounds state s
  have hsamples := (hblock.recounts _ List.prefix_rfl hblock.settled).samples
  have hvalue : x.value ∈ (Record.samples ((run r h rounds state).run s).2.1).map (·.value) :=
    List.mem_map_of_mem hx
  rw [Record.samples_eq, hsamples] at hvalue
  obtain ⟨bytes, -, hread⟩ := List.mem_filterMap.mp hvalue
  exact ⟨decodeLossy bytes, hread⟩

end LineClient
