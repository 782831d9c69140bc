import LineClient.Proofs.Binary64.Shortest
import LineClient.Proofs.Settings.Integers

/-!
# Texts from the environment

A variable is read before anybody knows what it is for. If its text is a truth value or a number,
what arrives at a setting that takes a text is the usual form of that value, which may be another
text than was written.

* `Scalar.usual`, the usual form of a value; `Unaltered`, the usual forms and the texts without a
  value; **`ReadAs.usual_eq_iff`**, only these arrive as they were written;
* **`Settings.ofSources_text`**, what comes of a variable with a text;
  `Settings.ofSources_respelled`, a name that is loaded as another one.
-/

namespace LineClient

/-! ## Usual forms -/

/-- The usual form of a value. -/
def Scalar.usual : Scalar → String
  | nil => ""
  | boolean b => toString b
  | integer i => toString i
  | float x => x.shortest
  | text s => s

/-- The usual forms of the values that a variable can have, and the texts that are no value. The
negative zero has no usual form, as the integer `0` is read from it. -/
inductive Unaltered : String → Prop
  | boolean (b : Bool) : Unaltered (toString b)
  | integer {i : Int} (hmin : -(2 ^ 63) ≤ i) (hmax : i < 2 ^ 63) : Unaltered (toString i)
  | float {x : Binary64} (hx : x ≠ .ofRank true 0) : Unaltered x.shortest
  | text {text : String} (hword : ∀ b, ¬ TruthWord text b)
    (h : Binary64.ofText? text.toList = none) : Unaltered text

/-! ### Integers -/

namespace Decimal

theorem toList_toString (i : Int) :
    (toString i).toList = (if decide (i < 0) then ['-'] else []) ++ decimalDigits i.natAbs := by
  cases i with
  | ofNat n =>
    have hsign : decide (Int.ofNat n < 0) = false := by simp
    rw [hsign]
    exact Nat.toList_repr
  | negSucc n =>
    have hminus : toString (Int.negSucc n) = "-" ++ toString (n + 1) := rfl
    have hsign : decide (Int.negSucc n < 0) = true := by simp
    rw [hminus, hsign, String.toList_append]
    exact congrArg (['-'] ++ ·) Nat.toList_repr

theorem shape_toString (i : Int) : Numeral.Shape (toString i).toList := by
  rw [toList_toString]
  exact ((Numeral.writes_decimalDigits i.natAbs).signed rfl).1

/-- Digits without zeros in front, behind a minus sign or alone. -/
theorem integer?_decimalDigits (negative : Bool) (n : Nat) :
    integer? ((if negative then ['-'] else []) ++ decimalDigits n) =
      some (if negative then -(n : Int) else n) := by
  have hdigits : ∀ c ∈ decimalDigits n, c.isDigit = true := fun _ => Numeral.isDigit_decimalDigits
  rw [integer?_signed negative fun c hc => .inl (hdigits c hc),
    Numeral.natOfDigits_decimalDigits]
  exact if_pos ⟨Nat.toDigits_ne_nil, List.all_eq_true.mpr hdigits⟩

/-- An integer is read from its usual form. -/
theorem integer?_toString (i : Int) : integer? (toString i).toList = some i := by
  rw [toList_toString, integer?_decimalDigits, Option.some_inj]
  split_ifs with hsign
  · have hneg := of_decide_eq_true hsign
    omega
  · have hnonneg := of_decide_eq_false (Bool.eq_false_of_not_eq_true hsign)
    omega

end Decimal

/-! ### Doubles -/

namespace Binary64

variable {x : Binary64}

theorem shortest_not_truthWord (x : Binary64) (b : Bool) : ¬ TruthWord x.shortest b := by
  rcases x.finite_or_named with ⟨hnumber, hfinite⟩ | hname
  · exact (shortest_numeral hnumber hfinite).1.not_truthWord b
  · have hnames : ∀ name ∈ ["NaN", "inf", "-inf"], ∀ b, ¬ TruthWord name b := by decide
    exact hnames _ hname b

/-- If the usual form of a double is read as an integer, it is the usual form of the integer,
too. -/
theorem toString_eq_shortest (hx : x ≠ .ofRank true 0) {i : Int}
    (hi : Decimal.integer? x.shortest.toList = some i) : toString i = x.shortest := by
  rcases x.finite_or_named with ⟨hnumber, hfinite⟩ | hname
  · obtain ⟨v, run, htext, hwrites, hdot | ⟨n, rfl⟩, hnearest⟩ := exists_writes hnumber hfinite
    · rw [htext, Decimal.integer?_of_dot _ hwrites.chars hdot] at hi
      cases hi
    rw [htext, Decimal.integer?_decimalDigits] at hi
    have hvalue : i = if x.negative then -(n : Int) else n := (Option.some.inj hi).symm
    have hsign : decide (i < 0) = x.negative := by
      cases hnegative : x.negative with
      | false => simp [hvalue, hnegative]
      | true =>
        -- a minus sign in front of `0` is the sign of the negative zero
        have hn : n ≠ 0 := by
          rintro rfl
          have hv : v = 0 := by
            rw [← hwrites.value, (Numeral.writes_decimalDigits 0).value, Nat.cast_zero]
          rw [hnegative, hv] at hnearest
          exact hx hnearest.eq_zero
        rw [hvalue, hnegative, if_pos rfl]
        exact decide_eq_true (by omega)
    have hdigits : i.natAbs = n := by
      rw [hvalue]
      split_ifs <;> omega
    rw [← String.toList_inj, Decimal.toList_toString, hsign, hdigits, htext]
  · have hnames : ∀ name ∈ ["NaN", "inf", "-inf"], Decimal.integer? name.toList = none := by decide
    cases (hnames _ hname).symm.trans hi

end Binary64

/-! ### Texts -/

section

variable {text : String} {s : Scalar}

/-- The usual form of a double stays as it is, also if an integer is read from it. -/
theorem ReadAs.usual_shortest {x : Binary64} (hx : x ≠ .ofRank true 0)
    (h : ReadAs x.shortest s) : s.usual = x.shortest := by
  cases h with
  | boolean hb => exact absurd hb (x.shortest_not_truthWord _)
  | integer _ hi => exact Binary64.toString_eq_shortest hx hi.read
  | float _ _ hy =>
    obtain ⟨y, hy', halike⟩ := x.exists_ofText?_shortest
    rw [Option.some.inj (hy.symm.trans hy')]
    exact halike.shortest_eq
  | text => rfl

/-- **When the usual form of its value is the text itself.** -/
theorem ReadAs.usual_eq_iff (h : ReadAs text s) : s.usual = text ↔ Unaltered text := by
  constructor
  · intro heq
    cases h with
    | boolean => exact heq ▸ .boolean _
    | integer _ hi => exact heq ▸ .integer hi.min hi.max
    | @float x _ hinteger =>
      have hx : x ≠ .ofRank true 0 := by
        rintro rfl
        have hzero : (Binary64.ofRank true 0).shortest = "-0" := by decide +kernel
        obtain rfl : "-0" = text := hzero.symm.trans heq
        exact hinteger 0 ⟨by decide, by decide, by decide⟩
      exact heq ▸ .float hx
    | text hword hnone => exact .text hword hnone
  · intro hplain
    cases hplain with
    | boolean b =>
      have hb : TruthWord (toString b) b := by cases b <;> decide
      rw [h.unique (.boolean hb)]
      rfl
    | @integer i hmin hmax =>
      have hword := (Decimal.shape_toString i).not_truthWord
      rw [h.unique (.integer hword ⟨Decimal.integer?_toString i, hmin, hmax⟩)]
      rfl
    | float hx => exact h.usual_shortest hx
    | text hword hnone =>
      rw [h.unique (.text hword hnone)]
      rfl

end

/-! ## Settings of texts -/

/-- The kinds whose values are single texts. -/
def SettingKind.IsText (k : SettingKind) : Prop := k = .text ∨ k = .optionalText

instance (k : SettingKind) : Decidable k.IsText := inferInstanceAs (Decidable (_ ∨ _))

/-- The text that a value is. -/
def SettingKind.text? : (k : SettingKind) → k.Value → Option String
  | text, s => some s
  | optionalText, s? => s?
  | natural _, _ | optionalNatural _, _ | texts, _ => none

/-- Every text can be loaded, in the usual form of what it is read as. -/
theorem SettingKind.read_text {k : SettingKind} (hk : k.IsText) {text : String} {value : Scalar}
    (h : ReadAs text value) (key : String) :
    ∃ a, (k.read key (variableTree text)).toOption = some a ∧ k.text? a = some value.usual := by
  rw [variableTree, readAs_iff.mp h]
  rcases hk with rfl | rfl
  · exact ⟨value.usual, by cases h <;> rfl, rfl⟩
  · exact ⟨some value.usual, by cases h <;> rfl, rfl⟩

/-- No text is at fault. -/
theorem Settings.fault?_congr {s s' : Settings}
    (h : ∀ g : Setting, ¬ g.kind.IsText → g.get s = g.get s') : s.fault? = s'.fault? := by
  have hbuffer : s.recvBufferSize = s'.recvBufferSize := h .recvBufferSize (by decide)
  have hperiod : s.telemetry.reportPeriodMs = s'.telemetry.reportPeriodMs :=
    h .reportPeriodMs (by decide)
  have hretention : s.telemetry.maxSamples = s'.telemetry.maxSamples := h .maxSamples (by decide)
  have hworkers : s.load.workers = s'.load.workers := h .workers (by decide)
  have hmin : s.load.minIterations = s'.load.minIterations := h .minIterations (by decide)
  have hmax : s.load.maxIterations = s'.load.maxIterations := h .maxIterations (by decide)
  have hcommands : s.load.commands = s'.load.commands := h .commands (by decide)
  rw [fault?, hbuffer, hperiod, hretention, hworkers, hmin, hmax, hcommands, fault?]

/-- Settings with one value that is not the default. -/
theorem Setting.exists_get (f : Setting) (a : f.kind.Value) :
    ∃ s : Settings, f.get s = a ∧ ∀ g, g ≠ f → g.get s = g.get {} := by
  refine ⟨ofValues (Function.update (fun g => g.get {}) f a), ?_, fun g hg => ?_⟩
  · rw [get_ofValues, Function.update_self]
  · rw [get_ofValues, Function.update_of_ne hg]

section Single

variable {files : FileTree} {path name text : String} {f : Setting}

/-- What is loaded from a variable on its own. -/
theorem Settings.ofSources_single {s : Settings} (hfile : files.settingsFile? path = none)
    (hname : variablePath? name = some f.path)
    (hvalue : f.value? (some (variableTree text)) = some (f.get s))
    (hdefault : ∀ g, g ≠ f → g.get s = g.get {}) :
    ofSources files [(name, text)] path =
      match s.fault? with
      | some fault => .error (.fault fault)
      | none => .ok s := by
  refine ofSources_of_values (l := .single name text) (Layers.single_document hfile)
    (Layers.single_orderly hname) fun g => ?_
  rw [Layers.single_value? hname]
  by_cases hg : g = f
  · subst hg
    rw [if_pos rfl, hvalue]
  · rw [if_neg hg, hdefault g hg]

/-- **What comes of a text in a variable**, without a file. Something is always loaded, with the
defaults of all other settings. It is the usual form of the value that the text is read as, and this
is the text that was written just if that is a usual form or no value. -/
theorem Settings.ofSources_text (hfile : files.settingsFile? path = none)
    (hname : variablePath? name = some f.path) (hkind : f.kind.IsText) :
    ∃ value, ReadAs text value ∧ (value.usual = text ↔ Unaltered text) ∧
      ∃ s : Settings, f.kind.text? (f.get s) = some value.usual ∧
        (∀ g, g ≠ f → g.get s = g.get {}) ∧ ofSources files [(name, text)] path = .ok s := by
  have hvalue := readAs_variableValue text
  obtain ⟨a, hread, htext⟩ := SettingKind.read_text hkind hvalue f.path
  obtain ⟨s, hget, hdefault⟩ := f.exists_get a
  have hfault : s.fault? = none :=
    (fault?_congr fun g hg => hdefault g fun heq => hg (heq ▸ hkind)).trans (by decide)
  refine ⟨_, hvalue, hvalue.usual_eq_iff, s, by rw [hget, htext], hdefault, ?_⟩
  rw [ofSources_single hfile hname (hread.trans (congrArg some hget.symm)) hdefault, hfault]

end Single

/-- An address has too many points for a number. -/
theorem Settings.ofSources_text_host :
    FileTree.settingsFile? {} "config.toml" = none ∧ Unaltered "192.168.0.7" ∧
      ∃ s : Settings, s.host = "192.168.0.7" ∧ (∀ g : Setting, g ≠ .host → g.get s = g.get {}) ∧
        ofSources {} [("PIHUB__HOST", "192.168.0.7")] "config.toml" = .ok s := by
  have hfile := FileTree.settingsFile?_nil
  have hname : variablePath? "PIHUB__HOST" = some (Setting.path .host) := by decide +kernel
  have hplain : Unaltered "192.168.0.7" := .text (by decide) (by decide)
  obtain ⟨value, -, hiff, s, hhost, hdefault, hload⟩ := ofSources_text hfile hname (by decide)
  rw [hiff.mpr hplain] at hhost
  exact ⟨hfile, hplain, s, Option.some.inj hhost, hdefault, hload⟩

/-- **A name that is loaded as another one**, since its text is a number. -/
theorem Settings.ofSources_respelled :
    ofSources {} [("PIHUB__TELEMETRY__MEASUREMENT", "007")] "config.toml" =
      .ok { telemetry := { measurement := "7" } } := by
  have hname : variablePath? "PIHUB__TELEMETRY__MEASUREMENT" =
      some (Setting.path .measurement) := by decide +kernel
  let s : Settings := { telemetry := { measurement := "7" } }
  have hvalue : Setting.value? .measurement (some (variableTree "007")) =
      some (Setting.get s .measurement) := by decide +kernel
  -- only the measurement differs from its default
  refine ofSources_single FileTree.settingsFile?_nil hname hvalue fun g hg => ?_
  cases g <;> first | rfl | exact absurd rfl hg

end LineClient
