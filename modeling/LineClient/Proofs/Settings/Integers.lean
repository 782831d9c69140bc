import LineClient.Proofs.Binary64.Whole
import LineClient.Proofs.Settings.Layers
import LineClient.Proofs.Settings.Variables

/-!
# Whole numbers from the environment

The digits of a variable are read as a whole number with sign, which has 63 bits. If they stand for
more than that, they are read as a double, which has 53 significant bits, and what is loaded is the
nearest multiple of `2 ^ 11`, although the setting itself would have room for every number of 64
bits.

* `carried`, the number that arrives; **`carried_eq_iff`**, when it is the one that was written;
* `Tree.unsigned_variableTree`;
* **`Settings.ofSources_integer`**, what comes of a variable with digits;
* `Settings.ofSources_alike`, two numbers that load as one.
-/

namespace LineClient

/-! ## The number that arrives -/

/-- The number that arrives at a setting of 64 bits whose variable has the digits of `n`. -/
def carried (n : Nat) : Nat :=
  if n < 2 ^ 63 then n else (Binary64.ofNat n).toNatUpTo (2 ^ 64 - 1)

/-- **When a number arrives as it was written**: it has at most 63 bits, or it is a double of 64
bits, or it is the greatest number of 64 bits, beyond which nothing arrives. -/
theorem carried_eq_iff {n : Nat} :
    carried n = n ↔ n < 2 ^ 63 ∨ (n < 2 ^ 64 ∧ 2 ^ 11 ∣ n) ∨ n = 2 ^ 64 - 1 := by
  rcases Nat.lt_or_ge n (2 ^ 63) with hsmall | hlarge
  · rw [carried, if_pos hsmall]
    exact ⟨fun _ => .inl hsmall, fun _ => rfl⟩
  rw [carried, if_neg (Nat.not_lt.mpr hlarge)]
  rcases Nat.lt_or_ge n (2 ^ 64) with hlt | hge
  · rw [Binary64.toNatUpTo_ofNat_of_lt hlarge hlt]
    constructor
    · intro heq
      rcases Nat.le_total (2 ^ 64 - 1) (roundHalfEven n (2 ^ 11) * 2 ^ 11) with hle | hle
      · rw [Nat.min_eq_left hle] at heq
        exact .inr (.inr heq.symm)
      · rw [Nat.min_eq_right hle] at heq
        exact .inr (.inl ⟨hlt, Dvd.intro_left _ heq⟩)
    · rintro (hsmall | ⟨-, hdvd⟩ | rfl)
      · omega
      · rw [roundHalfEven_of_dvd (by decide) hdvd]
        omega
      · decide
  · rw [Binary64.toNatUpTo_ofNat_of_le hge]
    omega

/-! ## Digits -/

section Digits

variable {text : String}

theorem variableValue_digits (hne : text.toList ≠ [])
    (hdigits : ∀ c ∈ text.toList, c.isDigit = true) :
    variableValue text =
      if Decimal.natOfDigits text.toList < 2 ^ 63 then
        .integer (Decimal.natOfDigits text.toList)
      else .float (Binary64.ofNat (Decimal.natOfDigits text.toList)) := by
  have hword := Numeral.Shape.not_truthWord (.unsigned fun c hc => .inl (hdigits c hc))
  obtain ⟨hnegative, hsplit⟩ := Numeral.negative_run fun c hc => .inl (hdigits c hc)
  have hinteger : Decimal.integer? text.toList = some (Decimal.natOfDigits text.toList : Int) :=
    (Decimal.integer?_signed false fun c hc => .inl (hdigits c hc)).trans
      (if_pos ⟨hne, List.all_eq_true.mpr hdigits⟩)
  have hfloat : Binary64.ofText? text.toList =
      some (Decimal.nearest ⟨false, Decimal.natOfDigits text.toList, 0⟩) := by
    rw [Numeral.ofText?_eq (by rw [hsplit, hnegative]) fun c hc => .inl (hdigits c hc),
      hnegative, Decimal.ofNumeral?, List.dropWhile_eq_nil_iff.mpr hdigits,
      List.takeWhile_eq_self_iff.mpr hdigits]
    simp [hne]
  generalize Decimal.natOfDigits text.toList = n at hinteger hfloat ⊢
  refine readAs_iff.mp ?_
  split_ifs with hsmall
  · exact .integer hword ⟨hinteger, by omega, by omega⟩
  · rw [Decimal.nearest_natural (by omega)] at hfloat
    refine .float hword (fun i hi => ?_) hfloat
    obtain rfl : (n : Int) = i := Option.some.inj (hinteger.symm.trans hi.read)
    have hmax := hi.max
    omega

/-- Digits are read as the number that arrives. -/
theorem Tree.unsigned_variableTree (hne : text.toList ≠ [])
    (hdigits : ∀ c ∈ text.toList, c.isDigit = true) (key : String) :
    (variableTree text).unsigned key = .ok (carried (Decimal.natOfDigits text.toList)) := by
  rw [variableTree, variableValue_digits hne hdigits, carried]
  generalize Decimal.natOfDigits text.toList = n
  split_ifs
  · rw [unsigned, if_pos (by omega), Int.toNat_natCast]
  · rw [unsigned]

end Digits

/-! ## Settings of whole numbers -/

/-- The number of bits of a whole number. -/
def SettingKind.bits? : SettingKind → Option Nat
  | natural bits | optionalNatural bits => some bits
  | _ => none

/-- The whole number that a value is. -/
def SettingKind.number? : (k : SettingKind) → k.Value → Option Nat
  | natural _, n => some n
  | optionalNatural _, n? => n?
  | text, _ | optionalText, _ | texts, _ => none

namespace SettingKind

variable {k : SettingKind} {bits n : Nat} {key : String} {t : Tree}

theorem natural_of_unsigned (h : t.unsigned key = .ok n) :
    (t.natural bits key).toOption = if n < 2 ^ bits then some n else none := by
  rw [Tree.natural, h]
  by_cases hroom : n < 2 ^ bits
  · rw [if_pos hroom]
    simp [bind, Except.bind, hroom, Except.toOption]
  · rw [if_neg hroom]
    simp [bind, Except.bind, hroom, Except.toOption]

/-- A whole number is loaded if there is room for it. -/
theorem read_integer (hbits : k.bits? = some bits) (h : t.unsigned key = .ok n) :
    if n < 2 ^ bits then ∃ a, (k.read key t).toOption = some a ∧ k.number? a = some n
    else (k.read key t).toOption = none := by
  cases k with
  | natural bits' =>
    cases hbits
    have hread : (t.natural bits key).toOption = if n < 2 ^ bits then some n else none :=
      natural_of_unsigned h
    split_ifs at hread ⊢
    · exact ⟨n, hread, rfl⟩
    · exact hread
  | optionalNatural bits' =>
    cases hbits
    have hread : (t.natural bits key).toOption = if n < 2 ^ bits then some n else none :=
      natural_of_unsigned h
    have hoptional : Tree.optional (Tree.natural bits) key t = some <$> t.natural bits key := by
      unfold Tree.optional
      split
      · cases h
      · rfl
    have hsome : (Tree.optional (Tree.natural bits) key t).toOption =
        (t.natural bits key).toOption.map some := by
      rw [hoptional]
      cases t.natural bits key <;> rfl
    rw [hread] at hsome
    split_ifs at hsome ⊢
    · exact ⟨some n, hsome, rfl⟩
    · exact hsome
  | text => cases hbits
  | optionalText => cases hbits
  | texts => cases hbits

end SettingKind

/-! ## The result -/

/-- A variable on its own. -/
def Layers.single (name text : String) : Layers := ⟨"", [], [(name, text)]⟩

section Single

variable {name text : String} {f : Setting}

theorem Layers.single_orderly (hname : variablePath? name = some f.path) :
    (single name text).Orderly where
  plain := fun entry hentry => absurd hentry List.not_mem_nil
  sections := fun place v hv => absurd hv List.not_mem_nil
  known := fun v hv path hpath => by
    rw [List.mem_singleton.mp hv] at hpath
    exact .inl ⟨f, Option.some_inj.mp (hname.symm.trans hpath)⟩
  once := List.pairwise_singleton _ _

theorem Layers.single_document {files : FileTree} {path : String}
    (hfile : files.settingsFile? path = none) :
    files.document? path = some ((single name text).origin, (single name text).document) := by
  rw [FileTree.document?, hfile]
  rfl

/-- The setting of the variable has its value, and the others have their defaults. -/
theorem Layers.single_value? (hname : variablePath? name = some f.path) (g : Setting) :
    (single name text).value? g = if g = f then g.value? (some (variableTree text))
      else some (g.get {}) := by
  have hwritten : (single name text).written? g = none := by
    unfold written?
    cases g.section? <;> rfl
  have hnamed : (single name text).named? g = if g = f then some text else none := by
    have hpath : some f.path = some g.path ↔ g = f :=
      ⟨fun h => (Setting.path_injective (Option.some_inj.mp h)).symm, fun h => by rw [h]⟩
    simp only [named?, single, List.findSome?_cons, List.findSome?_nil, hname]
    by_cases hg : g = f
    · rw [if_pos (hpath.mpr hg), if_pos hg]
    · rw [if_neg (fun h => hg (hpath.mp h)), if_neg hg]
  rw [value?, place?, hwritten, hnamed]
  split_ifs <;> rfl

end Single

/-- **What comes of the digits of a whole number in a variable**, without a file. If there is room
for the number that arrives, it is loaded, with the defaults of all other settings, and else there
is a mismatch. It is the number that was written if that has at most 63 bits. -/
theorem Settings.ofSources_integer {files : FileTree} {path name text : String} {f : Setting}
    {bits : Nat} (hfile : files.settingsFile? path = none)
    (hname : variablePath? name = some f.path) (hbits : f.kind.bits? = some bits)
    (hne : text.toList ≠ []) (hdigits : ∀ c ∈ text.toList, c.isDigit = true) :
    let written := Decimal.natOfDigits text.toList
    let n := carried written
    (n = written ↔
      written < 2 ^ 63 ∨ (written < 2 ^ 64 ∧ 2 ^ 11 ∣ written) ∨ written = 2 ^ 64 - 1) ∧
    if n < 2 ^ bits then
      ∃ s : Settings, f.kind.number? (f.get s) = some n ∧ (∀ g, g ≠ f → g.get s = g.get {}) ∧
        ofSources files [(name, text)] path =
          match s.fault? with
          | some fault => .error (.fault fault)
          | none => .ok s
    else ∃ m, ofSources files [(name, text)] path = .error (.mismatch path m) := by
  intro written n
  refine ⟨carried_eq_iff, ?_⟩
  have hdocument : files.document? path = some ((Layers.single name text).origin,
      (Layers.single name text).document) := Layers.single_document hfile
  have hl : (Layers.single name text).Orderly := Layers.single_orderly hname
  have henvironment : [(name, text)] = (Layers.single name text).environment := rfl
  rw [henvironment]
  have hvalue (g : Setting) : (Layers.single name text).value? g =
      if g = f then g.value? (some (variableTree text)) else some (g.get {}) :=
    Layers.single_value? hname g
  have hread := SettingKind.read_integer hbits (Tree.unsigned_variableTree hne hdigits f.path)
  split_ifs at hread ⊢ with hroom
  · obtain ⟨a, ha, hnumber⟩ := hread
    have hf : (Layers.single name text).value? f = some a := by
      rw [hvalue, if_pos rfl]
      exact ha
    have hreadable (g : Setting) : (Layers.single name text).value? g ≠ none := by
      by_cases hg : g = f
      · rw [hg, hf]
        exact Option.some_ne_none _
      · rw [hvalue, if_neg hg]
        exact Option.some_ne_none _
    obtain ⟨s, hs⟩ := exists_of_values hreadable
    refine ⟨s, ?_, fun g hg => ?_, ofSources_of_values hdocument hl hs⟩
    · rw [Option.some_inj.mp ((hs f).symm.trans hf)]
      exact hnumber
    · have hdefault := hvalue g
      rw [if_neg hg, hs] at hdefault
      exact Option.some.inj hdefault
  · have hnone : (Layers.single name text).value? f = none := by
      rw [hvalue, if_pos rfl]
      exact hread
    exact ofSources_of_none hdocument hl hnone

/-- A port has 16 bits. -/
theorem Settings.ofSources_integer_port :
    FileTree.settingsFile? {} "config.toml" = none ∧
      ∃ m, ofSources {} [("PIHUB__PORT", "65536")] "config.toml" =
        .error (.mismatch "config.toml" m) := by
  have hfile := FileTree.settingsFile?_nil
  have hname : variablePath? "PIHUB__PORT" = some (Setting.path .port) := by decide +kernel
  have hbits : (Setting.kind .port).bits? = some 16 := rfl
  have hdigits : ∀ c ∈ "65536".toList, c.isDigit = true := by simp
  obtain ⟨-, hport⟩ := ofSources_integer hfile hname hbits (by decide) hdigits
  rw [if_neg (by decide +kernel)] at hport
  exact ⟨hfile, hport⟩

/-- **Two seeds of 64 bits load as one.** -/
theorem Settings.ofSources_alike :
    let s : Settings := { load := { seed := some 9223372036854775808 } }
    ofSources {} [("PIHUB__LOAD__SEED", "9223372036854775808")] "config.toml" = .ok s ∧
      ofSources {} [("PIHUB__LOAD__SEED", "9223372036854775809")] "config.toml" = .ok s := by
  intro s
  have hname : variablePath? "PIHUB__LOAD__SEED" = some (Setting.path .seed) := by decide +kernel
  have hload (text : String) (htext : Setting.value? .seed (some (variableTree text)) =
      some (Setting.get s .seed)) :
      ofSources {} [("PIHUB__LOAD__SEED", text)] "config.toml" = .ok s := by
    have hvalues (g : Setting) :
        (Layers.single "PIHUB__LOAD__SEED" text).value? g = some (g.get s) := by
      rw [Layers.single_value? hname]
      by_cases hg : g = .seed
      · subst hg
        rw [if_pos rfl]
        exact htext
      · rw [if_neg hg]
        cases g <;> first | rfl | exact absurd rfl hg
    exact ofSources_of_values (Layers.single_document FileTree.settingsFile?_nil)
      (Layers.single_orderly hname) hvalues
  exact ⟨hload _ (by decide +kernel), hload _ (by decide +kernel)⟩

end LineClient
