import LineClient.Proofs.Settings.Tables
import LineClient.Settings.Fields
import Mathlib.Tactic.Choose

/-!
# Single settings

Every setting has a name, the section that it stands in, a kind of value and a default. The
settings that a tree gives are those that are read one by one, each at its own place.

* `Setting`, `Setting.section?`, `Setting.name`, `Setting.path`, `Setting.kind`, `Setting.get`;
* `Setting.ofValues`, settings put together from a value for each;
* `Tree.at?`, the place of a setting; `Setting.value?`, the value that stands there;
* **`Settings.ofTree_eq_ok`**.
-/

namespace LineClient

/-! ## Names and places -/

/-- A setting. -/
inductive Setting where
  | logLevel
  | host
  | port
  | connectTimeoutMs
  | sendTimeoutMs
  | responseTimeoutMs
  | bannerTimeoutMs
  | recvBufferSize
  | sensorId
  | measurement
  | intervalMs
  | reportPeriodMs
  | maxSamples
  | reconnectAttempts
  | reconnectBackoffMs
  | exportCsv
  | workers
  | minIterations
  | maxIterations
  | bannerGraceMs
  | commandDelayMs
  | seed
  | commands
  deriving DecidableEq, Repr

/-- A section of settings. -/
inductive SettingSection where
  | telemetry
  | load
  deriving DecidableEq, Repr

def SettingSection.name : SettingSection → String
  | telemetry => "telemetry"
  | load => "load"

/-- The kind of value that a setting takes. -/
inductive SettingKind where
  | natural (bits : Nat)
  | text
  | optionalNatural (bits : Nat)
  | optionalText
  | texts
  deriving DecidableEq, Repr

namespace SettingKind

/-- The values of a kind. -/
def Value : SettingKind → Type
  | natural _ => Nat
  | text => String
  | optionalNatural _ => Option Nat
  | optionalText => Option String
  | texts => List String

instance : (k : SettingKind) → DecidableEq k.Value
  | natural _ => inferInstanceAs (DecidableEq Nat)
  | text => inferInstanceAs (DecidableEq String)
  | optionalNatural _ => inferInstanceAs (DecidableEq (Option Nat))
  | optionalText => inferInstanceAs (DecidableEq (Option String))
  | texts => inferInstanceAs (DecidableEq (List String))

/-- Reads a value of a kind. -/
def read : (k : SettingKind) → String → Tree → Except Mismatch k.Value
  | natural bits => Tree.natural bits
  | text => Tree.text
  | optionalNatural bits => Tree.optional (Tree.natural bits)
  | optionalText => Tree.optional Tree.text
  | texts => Tree.texts

end SettingKind

namespace Setting

/-- The section that a setting stands in, if it is in one. -/
def section? : Setting → Option SettingSection
  | sensorId | measurement | intervalMs | reportPeriodMs | maxSamples | reconnectAttempts
  | reconnectBackoffMs | exportCsv => some .telemetry
  | workers | minIterations | maxIterations | bannerGraceMs | commandDelayMs | seed
  | commands => some .load
  | _ => none

/-- The name of a setting in its section. -/
def name : Setting → String
  | logLevel => "log_level"
  | host => "host"
  | port => "port"
  | connectTimeoutMs => "connect_timeout_ms"
  | sendTimeoutMs => "send_timeout_ms"
  | responseTimeoutMs => "response_timeout_ms"
  | bannerTimeoutMs => "banner_timeout_ms"
  | recvBufferSize => "recv_buffer_size"
  | sensorId => "sensor_id"
  | measurement => "measurement"
  | intervalMs => "interval_ms"
  | reportPeriodMs => "report_period_ms"
  | maxSamples => "max_samples"
  | reconnectAttempts => "reconnect_attempts"
  | reconnectBackoffMs => "reconnect_backoff_ms"
  | exportCsv => "export_csv"
  | workers => "workers"
  | minIterations => "min_iterations"
  | maxIterations => "max_iterations"
  | bannerGraceMs => "banner_grace_ms"
  | commandDelayMs => "command_delay_ms"
  | seed => "seed"
  | commands => "commands"

/-- The path of a setting from the root. -/
def path (f : Setting) : String :=
  match f.section? with
  | none => f.name
  | some place => place.name ++ "." ++ f.name

/-- The kind of value that a setting takes. -/
def kind : Setting → SettingKind
  | logLevel | host | measurement => .text
  | port => .natural 16
  | sensorId | reconnectAttempts => .natural 32
  | maxSamples | seed => .optionalNatural 64
  | exportCsv => .optionalText
  | commands => .texts
  | connectTimeoutMs | sendTimeoutMs | responseTimeoutMs | bannerTimeoutMs | recvBufferSize
  | intervalMs | reportPeriodMs | reconnectBackoffMs | workers | minIterations | maxIterations
  | bannerGraceMs | commandDelayMs => .natural 64

/-- The value of a setting. -/
def get (s : Settings) : (f : Setting) → f.kind.Value
  | logLevel => s.logLevel
  | host => s.host
  | port => s.port
  | connectTimeoutMs => s.connectTimeoutMs
  | sendTimeoutMs => s.sendTimeoutMs
  | responseTimeoutMs => s.responseTimeoutMs
  | bannerTimeoutMs => s.bannerTimeoutMs
  | recvBufferSize => s.recvBufferSize
  | sensorId => s.telemetry.sensorId
  | measurement => s.telemetry.measurement
  | intervalMs => s.telemetry.intervalMs
  | reportPeriodMs => s.telemetry.reportPeriodMs
  | maxSamples => s.telemetry.maxSamples
  | reconnectAttempts => s.telemetry.reconnectAttempts
  | reconnectBackoffMs => s.telemetry.reconnectBackoffMs
  | exportCsv => s.telemetry.exportCsv
  | workers => s.load.workers
  | minIterations => s.load.minIterations
  | maxIterations => s.load.maxIterations
  | bannerGraceMs => s.load.bannerGraceMs
  | commandDelayMs => s.load.commandDelayMs
  | seed => s.load.seed
  | commands => s.load.commands

/-- The settings with a value for each. -/
def ofValues (value : (f : Setting) → f.kind.Value) : Settings where
  logLevel := value logLevel
  host := value host
  port := value port
  connectTimeoutMs := value connectTimeoutMs
  sendTimeoutMs := value sendTimeoutMs
  responseTimeoutMs := value responseTimeoutMs
  bannerTimeoutMs := value bannerTimeoutMs
  recvBufferSize := value recvBufferSize
  telemetry :=
    { sensorId := value sensorId
      measurement := value measurement
      intervalMs := value intervalMs
      reportPeriodMs := value reportPeriodMs
      maxSamples := value maxSamples
      reconnectAttempts := value reconnectAttempts
      reconnectBackoffMs := value reconnectBackoffMs
      exportCsv := value exportCsv }
  load :=
    { workers := value workers
      minIterations := value minIterations
      maxIterations := value maxIterations
      bannerGraceMs := value bannerGraceMs
      commandDelayMs := value commandDelayMs
      seed := value seed
      commands := value commands }

@[simp]
theorem get_ofValues (value : (f : Setting) → f.kind.Value) (f : Setting) :
    get (ofValues value) f = value f := by
  cases f <;> rfl

end Setting

/-! ## Reading one by one -/

/-- The value at the place of a setting. -/
def Tree.at? (t : Tree) (f : Setting) : Option Tree :=
  match f.section? with
  | none => t.find? f.name
  | some place => (t.find? place.name).bind (·.find? f.name)

theorem Tree.at?_of_section {t : Tree} {f : Setting} {place : SettingSection}
    (hf : f.section? = some place) :
    t.at? f = (t.find? place.name).bind (·.find? f.name) := by
  simp only [at?, hf]

/-- The value of a setting if its place holds `place?`: without a value there it has its default.
None if the value is of the wrong kind. -/
def Setting.value? (f : Setting) (place? : Option Tree) : Option f.kind.Value :=
  match place? with
  | none => some (f.get {})
  | some t => (f.kind.read f.path t).toOption

/-- The sections of a tree are tables where they are there. -/
def Tree.Sectioned (t : Tree) : Prop :=
  ∀ place : SettingSection, ∀ v ∈ t.find? place.name, ∃ origin entries, v = .table origin entries

theorem Except.bind_eq_ok {ε α β : Type} {x : Except ε α} {f : α → Except ε β} {b : β} :
    x >>= f = .ok b ↔ ∃ a, x = .ok a ∧ f a = .ok b := by
  cases x with
  | error e => simp [bind, Except.bind]
  | ok a => simp [bind, Except.bind]

theorem Except.toOption_eq_some {ε α : Type} {x : Except ε α} {a : α} :
    x.toOption = some a ↔ x = .ok a := by
  cases x <;> simp [Except.toOption]

namespace Setting

theorem forall_telemetry {p : Setting → Prop} :
    (∀ f : Setting, f.section? = some .telemetry → p f) ↔
      p sensorId ∧ p measurement ∧ p intervalMs ∧ p reportPeriodMs ∧ p maxSamples ∧
        p reconnectAttempts ∧ p reconnectBackoffMs ∧ p exportCsv := by
  refine ⟨fun h => ⟨h _ rfl, h _ rfl, h _ rfl, h _ rfl, h _ rfl, h _ rfl, h _ rfl, h _ rfl⟩, ?_⟩
  rintro ⟨_, _, _, _, _, _, _, _⟩ f hf
  cases f <;> first | assumption | cases hf

theorem forall_load {p : Setting → Prop} :
    (∀ f : Setting, f.section? = some .load → p f) ↔
      p workers ∧ p minIterations ∧ p maxIterations ∧ p bannerGraceMs ∧ p commandDelayMs ∧
        p seed ∧ p commands := by
  refine ⟨fun h => ⟨h _ rfl, h _ rfl, h _ rfl, h _ rfl, h _ rfl, h _ rfl, h _ rfl⟩, ?_⟩
  rintro ⟨_, _, _, _, _, _, _⟩ f hf
  cases f <;> first | assumption | cases hf

theorem forall_iff {p : Setting → Prop} :
    (∀ f, p f) ↔
      (p logLevel ∧ p host ∧ p port ∧ p connectTimeoutMs ∧ p sendTimeoutMs ∧
        p responseTimeoutMs ∧ p bannerTimeoutMs ∧ p recvBufferSize) ∧
      (∀ f : Setting, f.section? = some .telemetry → p f) ∧
        ∀ f : Setting, f.section? = some .load → p f := by
  refine ⟨fun h => ⟨⟨h _, h _, h _, h _, h _, h _, h _, h _⟩, fun f _ => h f, fun f _ => h f⟩, ?_⟩
  rintro ⟨⟨_, _, _, _, _, _, _, _⟩, htelemetry, hload⟩ f
  cases f <;> first | assumption | exact htelemetry _ rfl | exact hload _ rfl

theorem defaults_telemetry {s : Settings} : {} = s.telemetry ↔
    ∀ f : Setting, f.section? = some .telemetry → f.get {} = f.get s := by
  obtain ⟨_, _, _, _, _, _, _, _, ⟨_, _, _, _, _, _, _, _⟩, _⟩ := s
  rw [forall_telemetry, TelemetrySettings.mk.injEq]
  rfl

theorem defaults_load {s : Settings} : {} = s.load ↔
    ∀ f : Setting, f.section? = some .load → f.get {} = f.get s := by
  obtain ⟨_, _, _, _, _, _, _, _, _, ⟨_, _, _, _, _, _, _⟩⟩ := s
  rw [forall_load, LoadSettings.mk.injEq]
  rfl

/-- A setting is read at its place in its section. -/
theorem value?_eq_some {f : Setting} {start : String} (hpath : f.path = start ++ f.name)
    {entries : Entries Tree} (index : Nat) {a : f.kind.Value} :
    (Section.named start entries).read index f.name (f.get {}) f.kind.read = .ok a ↔
      f.value? (entries.find? f.name) = some a := by
  simp only [Section.read, Section.find?, value?]
  cases entries.find? f.name with
  | none => simp
  | some t => simp [hpath, Except.toOption_eq_some]

end Setting

/-- The settings of telemetry are those that stand in its section. -/
theorem TelemetrySettings.ofTree_eq_ok {origin : Option String} {entries : Entries Tree}
    {s : Settings} : ofTree "telemetry" (.table origin entries) = .ok s.telemetry ↔
      ∀ f : Setting, f.section? = some .telemetry →
        f.value? (entries.find? f.name) = some (f.get s) := by
  obtain ⟨_, _, _, _, _, _, _, _, ⟨_, _, _, _, _, _, _, _⟩, _⟩ := s
  rw [Setting.forall_telemetry]
  simp only [ofTree, Tree.asSection, Except.bind_eq_ok, Except.ok.injEq, exists_eq_left', pure,
    Except.pure, TelemetrySettings.mk.injEq]
  constructor
  · rintro ⟨_, h₀, _, h₁, _, h₂, _, h₃, _, h₄, _, h₅, _, h₆, _, h₇, rfl, rfl, rfl, rfl, rfl,
      rfl, rfl, rfl⟩
    exact ⟨(Setting.value?_eq_some rfl 0).mp h₀, (Setting.value?_eq_some rfl 1).mp h₁,
      (Setting.value?_eq_some rfl 2).mp h₂, (Setting.value?_eq_some rfl 3).mp h₃,
      (Setting.value?_eq_some rfl 4).mp h₄, (Setting.value?_eq_some rfl 5).mp h₅,
      (Setting.value?_eq_some rfl 6).mp h₆, (Setting.value?_eq_some rfl 7).mp h₇⟩
  · rintro ⟨h₀, h₁, h₂, h₃, h₄, h₅, h₆, h₇⟩
    exact ⟨_, (Setting.value?_eq_some rfl 0).mpr h₀, _, (Setting.value?_eq_some rfl 1).mpr h₁,
      _, (Setting.value?_eq_some rfl 2).mpr h₂, _, (Setting.value?_eq_some rfl 3).mpr h₃,
      _, (Setting.value?_eq_some rfl 4).mpr h₄, _, (Setting.value?_eq_some rfl 5).mpr h₅,
      _, (Setting.value?_eq_some rfl 6).mpr h₆, _, (Setting.value?_eq_some rfl 7).mpr h₇,
      rfl, rfl, rfl, rfl, rfl, rfl, rfl, rfl⟩

/-- The settings of the load are those that stand in its section. -/
theorem LoadSettings.ofTree_eq_ok {origin : Option String} {entries : Entries Tree}
    {s : Settings} : ofTree "load" (.table origin entries) = .ok s.load ↔
      ∀ f : Setting, f.section? = some .load →
        f.value? (entries.find? f.name) = some (f.get s) := by
  obtain ⟨_, _, _, _, _, _, _, _, _, ⟨_, _, _, _, _, _, _⟩⟩ := s
  rw [Setting.forall_load]
  simp only [ofTree, Tree.asSection, Except.bind_eq_ok, Except.ok.injEq, exists_eq_left', pure,
    Except.pure, LoadSettings.mk.injEq]
  constructor
  · rintro ⟨_, h₀, _, h₁, _, h₂, _, h₃, _, h₄, _, h₅, _, h₆, rfl, rfl, rfl, rfl, rfl, rfl, rfl⟩
    exact ⟨(Setting.value?_eq_some rfl 0).mp h₀, (Setting.value?_eq_some rfl 1).mp h₁,
      (Setting.value?_eq_some rfl 2).mp h₂, (Setting.value?_eq_some rfl 3).mp h₃,
      (Setting.value?_eq_some rfl 4).mp h₄, (Setting.value?_eq_some rfl 5).mp h₅,
      (Setting.value?_eq_some rfl 6).mp h₆⟩
  · rintro ⟨h₀, h₁, h₂, h₃, h₄, h₅, h₆⟩
    exact ⟨_, (Setting.value?_eq_some rfl 0).mpr h₀, _, (Setting.value?_eq_some rfl 1).mpr h₁,
      _, (Setting.value?_eq_some rfl 2).mpr h₂, _, (Setting.value?_eq_some rfl 3).mpr h₃,
      _, (Setting.value?_eq_some rfl 4).mpr h₄, _, (Setting.value?_eq_some rfl 5).mpr h₅,
      _, (Setting.value?_eq_some rfl 6).mpr h₆, rfl, rfl, rfl, rfl, rfl, rfl, rfl⟩

/-- A section that is read as a whole, or has its defaults. -/
theorem SettingSection.read_eq_ok {α : Type} {place : SettingSection} {t : Tree}
    (ht : t.Sectioned) (index : Nat) {default a : α} {read : String → Tree → Except Mismatch α}
    {s : Settings}
    (hdefault : default = a ↔ ∀ f : Setting, f.section? = some place → f.get {} = f.get s)
    (hread : ∀ origin (entries : Entries Tree), read place.name (.table origin entries) = .ok a ↔
      ∀ f : Setting, f.section? = some place →
        f.value? (entries.find? f.name) = some (f.get s)) :
    (Section.named "" t.entries).read index place.name default read = .ok a ↔
      ∀ f : Setting, f.section? = some place → f.value? (t.at? f) = some (f.get s) := by
  have hfind : t.entries.find? place.name = t.find? place.name := rfl
  simp only [Section.read, Section.find?, hfind, String.empty_append]
  cases hplace : t.find? place.name with
  | none =>
    simp only [Option.map_none, Except.ok.injEq, hdefault]
    refine forall₂_congr fun f hf => ?_
    rw [Tree.at?_of_section hf, hplace]
    exact Option.some_inj.symm
  | some v =>
    obtain ⟨origin, entries, rfl⟩ := ht place v hplace
    simp only [Option.map_some, hread]
    refine forall₂_congr fun f hf => ?_
    rw [Tree.at?_of_section hf, hplace]
    rfl

/-- **The settings of a tree are those that stand there one by one**, with their defaults where
nothing stands. -/
theorem Settings.ofTree_eq_ok {t : Tree} (ht : t.Sectioned) {s : Settings} :
    ofTree t = .ok s ↔ ∀ f : Setting, f.value? (t.at? f) = some (f.get s) := by
  have htelemetry := SettingSection.read_eq_ok ht 8 Setting.defaults_telemetry
    (s := s) fun _ _ => TelemetrySettings.ofTree_eq_ok
  have hload := SettingSection.read_eq_ok ht 9 Setting.defaults_load
    (s := s) fun _ _ => LoadSettings.ofTree_eq_ok
  rw [Setting.forall_iff, ← htelemetry, ← hload]
  obtain ⟨_, _, _, _, _, _, _, _, _, _⟩ := s
  simp only [ofTree, Except.bind_eq_ok, Except.ok.injEq, pure, Except.pure, Settings.mk.injEq]
  constructor
  · rintro ⟨_, h₀, _, h₁, _, h₂, _, h₃, _, h₄, _, h₅, _, h₆, _, h₇, _, h₈, _, h₉, rfl, rfl, rfl,
      rfl, rfl, rfl, rfl, rfl, rfl, rfl⟩
    exact ⟨⟨(Setting.value?_eq_some rfl 0).mp h₀, (Setting.value?_eq_some rfl 1).mp h₁,
      (Setting.value?_eq_some rfl 2).mp h₂, (Setting.value?_eq_some rfl 3).mp h₃,
      (Setting.value?_eq_some rfl 4).mp h₄, (Setting.value?_eq_some rfl 5).mp h₅,
      (Setting.value?_eq_some rfl 6).mp h₆, (Setting.value?_eq_some rfl 7).mp h₇⟩, h₈, h₉⟩
  · rintro ⟨⟨h₀, h₁, h₂, h₃, h₄, h₅, h₆, h₇⟩, h₈, h₉⟩
    exact ⟨_, (Setting.value?_eq_some rfl 0).mpr h₀, _, (Setting.value?_eq_some rfl 1).mpr h₁,
      _, (Setting.value?_eq_some rfl 2).mpr h₂, _, (Setting.value?_eq_some rfl 3).mpr h₃,
      _, (Setting.value?_eq_some rfl 4).mpr h₄, _, (Setting.value?_eq_some rfl 5).mpr h₅,
      _, (Setting.value?_eq_some rfl 6).mpr h₆, _, (Setting.value?_eq_some rfl 7).mpr h₇,
      _, h₈, _, h₉, rfl, rfl, rfl, rfl, rfl, rfl, rfl, rfl, rfl, rfl⟩

/-- If every setting can be read, there are settings. -/
theorem Settings.exists_of_values {value? : (f : Setting) → Option f.kind.Value}
    (h : ∀ f, value? f ≠ none) : ∃ s : Settings, ∀ f, value? f = some (f.get s) := by
  have hvalue (f : Setting) : ∃ a, value? f = some a := Option.ne_none_iff_exists'.mp (h f)
  choose value hvalue using hvalue
  exact ⟨Setting.ofValues value, fun f => by rw [Setting.get_ofValues, hvalue]⟩

/-! ## Tables where single values are wanted -/

/-- No setting can be read from a table. -/
theorem Setting.value?_table (f : Setting) (origin : Option String)
    (entries : List (String × Tree)) : f.value? (some (.table origin entries)) = none := by
  simp only [value?]
  generalize f.kind = k
  cases k <;> rfl

/-- A value that was set reads as before. -/
theorem Setting.value?_settled (f : Setting) (t : Tree) :
    f.value? (some t.settled) = f.value? (some t) := by
  cases t with
  | scalar origin s => rfl
  | list origin items => rfl
  | table origin entries =>
    obtain ⟨origin', entries', heq⟩ := Tree.setAll_table entries none []
    rw [Tree.settled, Tree.fresh, heq, value?_table, value?_table]

end LineClient
