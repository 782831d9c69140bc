import LineClient.Proofs.Settings.Setting
import LineClient.Settings.Sources
import Mathlib

/-!
# Names of settings, keys and variables

A plain key is a path of one step, and it is in lower case already. The path of a setting leads to
its place. A variable of which the first part is no name at the root of the settings has a path of
names that begins elsewhere.

* `IsPlain`, `KeyPath.ofText_plain`, `Tree.lowerName_plain`;
* `Setting.root`, `Setting.ofText_path`, `Setting.path_injective`;
* `IsForeign`; **`IsForeign.elsewhere`**.
-/

namespace LineClient

/-! ## Plain names -/

/-- A character of a plain name. -/
def isPlainChar (c : Char) : Bool := c.isLower || c.isDigit || c == '_' || c == '-'

/-- A name that consists of lower-case ASCII letters, digits, underscores and hyphens. -/
def IsPlain (name : String) : Prop := ∀ c ∈ name.toList, isPlainChar c = true

instance : DecidablePred IsPlain := fun name =>
  decidable_of_iff (name.toList.all isPlainChar) List.all_eq_true

/-- What holds of all ASCII characters. -/
theorem forall_ascii {p : Char → Prop} (h : ∀ n < 128, p (Char.ofNat n)) {c : Char}
    (hc : c.toNat < 128) : p c := by
  have hp := h c.toNat hc
  rwa [Char.ofNat_toNat] at hp

theorem ascii_of_alphanum {c : Char} (h : c.isAlphanum = true) : c.toNat < 128 := by
  have hZ : 'Z'.val.toNat = 90 := rfl
  have hz : 'z'.val.toNat = 122 := rfl
  have hnine : '9'.val.toNat = 57 := rfl
  have hc : c.toNat = c.val.toNat := rfl
  simp only [Char.isAlphanum, Char.isAlpha, Char.isLower, Char.isUpper, Char.isDigit,
    Bool.or_eq_true, Bool.and_eq_true, decide_eq_true_eq, UInt32.le_iff_toNat_le, ge_iff_le] at h
  omega

theorem ascii_of_plain {c : Char} (h : isPlainChar c = true) : c.toNat < 128 := by
  simp only [isPlainChar, Bool.or_eq_true, beq_iff_eq] at h
  rcases h with ((h | h) | rfl) | rfl
  · exact ascii_of_alphanum (by simp [Char.isAlphanum, Char.isAlpha, h])
  · exact ascii_of_alphanum (by simp [Char.isAlphanum, h])
  · decide
  · decide

/-- The lower case of a character of a name. -/
def lowerChar (c : Char) : Char := if c = '\u212A' then 'k' else c.toLower

theorem lowerChar_plain {c : Char} (h : isPlainChar c = true) : lowerChar c = c :=
  forall_ascii (p := fun c => isPlainChar c = true → lowerChar c = c) (by decide +kernel)
    (ascii_of_plain h) h

theorem isNameChar_plain {c : Char} (h : isPlainChar c = true) : KeyPath.isNameChar c = true :=
  forall_ascii (p := fun c => isPlainChar c = true → KeyPath.isNameChar c = true)
    (by decide +kernel) (ascii_of_plain h) h

theorem Tree.lowerName_plain {name : String} (h : IsPlain name) : lowerName name = name := by
  have hmap : name.toList.map lowerChar = name.toList :=
    (List.map_congr_left fun c hc => lowerChar_plain (h c hc)).trans (List.map_id _)
  rw [lowerName]
  exact (congrArg String.ofList hmap).trans String.ofList_toList

/-- A text of name characters is one name. -/
theorem KeyPath.ofText_name {name : String} (h : ∀ c ∈ name.toList, isNameChar c = true) :
    ofText name = ⟨name, []⟩ := by
  have htake : name.toList.takeWhile isNameChar = name.toList :=
    List.takeWhile_eq_self_iff.mpr h
  have hdrop : name.toList.dropWhile isNameChar = [] := List.dropWhile_eq_nil_iff.mpr h
  simp only [ofText, name?, htake, hdrop]
  by_cases hempty : name.toList.isEmpty = true
  · simp [hempty]
  · simp [hempty, steps?]

theorem KeyPath.ofText_plain {name : String} (h : IsPlain name) : ofText name = ⟨name, []⟩ :=
  ofText_name fun c hc => isNameChar_plain (h c hc)

/-! ## Settings -/

namespace Setting

/-- The name at the root of a setting's path. -/
def root (f : Setting) : String :=
  match f.section? with
  | none => f.name
  | some place => place.name

theorem ofText_path (f : Setting) : KeyPath.ofText f.path =
    match f.section? with
    | none => ⟨f.name, []⟩
    | some place => ⟨place.name, [.member f.name]⟩ := by
  cases f <;> decide +kernel

theorem ofText_path_name (f : Setting) : (KeyPath.ofText f.path).name = f.root := by
  rw [ofText_path, root]
  cases f.section? <;> rfl

theorem name_ne_section (f : Setting) (place : SettingSection) : f.name ≠ place.name := by
  cases place <;> cases f <;> decide +kernel

/-- The setting of a path. -/
def ofPath? (path : String) : Option Setting :=
  [logLevel, host, port, connectTimeoutMs, sendTimeoutMs, responseTimeoutMs, bannerTimeoutMs,
    recvBufferSize, sensorId, measurement, intervalMs, reportPeriodMs, maxSamples,
    reconnectAttempts, reconnectBackoffMs, exportCsv, workers, minIterations, maxIterations,
    bannerGraceMs, commandDelayMs, seed, commands].find? fun f => f.path = path

theorem ofPath?_path (f : Setting) : ofPath? f.path = some f := by
  cases f <;> decide +kernel

theorem path_injective {f g : Setting} (h : f.path = g.path) : f = g := by
  have hsome : some f = some g := by rw [← ofPath?_path f, ← ofPath?_path g, h]
  exact Option.some_inj.mp hsome

end Setting

theorem SettingSection.name_injective {place other : SettingSection}
    (h : place.name = other.name) : place = other := by
  cases place <;> cases other <;> first | rfl | exact absurd h (by decide)

theorem SettingSection.exists_root (place : SettingSection) :
    ∃ f : Setting, f.root = place.name := by
  cases place
  · exact ⟨.sensorId, rfl⟩
  · exact ⟨.workers, rfl⟩

/-! ## Variables that name no setting -/

/-- The first part of a path. -/
def firstPart (path : String) : String := String.ofList (path.toList.takeWhile (· ≠ '.'))

/-- A variable that names no setting: its name consists of ASCII letters, digits and underscores,
and the first part of its path is no name at the root of the settings. -/
structure IsForeign (name path : String) : Prop where
  plain : ∀ c ∈ name.toList, c.isAlphanum = true ∨ c = '_'
  root : ∀ f : Setting, firstPart path ≠ f.root

theorem Setting.firstPart_root (f : Setting) : firstPart f.root = f.root := by
  cases f <;> decide +kernel

theorem mem_dotted {cs : List Char} {c : Char} (h : c ∈ dotted cs) : c = '.' ∨ c ∈ cs := by
  fun_induction dotted cs with
  | case1 rest ih =>
    rcases List.mem_cons.mp h with rfl | h
    · exact .inl rfl
    · exact (ih h).imp_right fun h => List.mem_cons_of_mem _ (List.mem_cons_of_mem _ h)
  | case2 first rest _ ih =>
    rcases List.mem_cons.mp h with rfl | h
    · exact .inr List.mem_cons_self
    · exact (ih h).imp_right (List.mem_cons_of_mem _)
  | case3 => cases h

theorem isNameChar_lower {c : Char} (h : c.isAlphanum = true ∨ c = '_') :
    KeyPath.isNameChar (lowerChar c) = true := by
  rcases h with h | rfl
  · exact forall_ascii (p := fun c => c.isAlphanum = true → KeyPath.isNameChar (lowerChar c) = true)
      (by decide +kernel) (ascii_of_alphanum h) h
  · decide

theorem variablePath?_chars {name path : String} (hpath : variablePath? name = some path)
    (hplain : ∀ c ∈ name.toList, c.isAlphanum = true ∨ c = '_') :
    ∀ c ∈ path.toList, c = '.' ∨ KeyPath.isNameChar c = true := by
  intro c hc
  rw [variablePath?] at hpath
  split_ifs at hpath
  rw [← Option.some.inj hpath, String.toList_ofList] at hc
  refine (mem_dotted hc).imp_right fun hmem => ?_
  have hlower : c ∈ name.toList.map lowerChar := by
    have hdrop := List.mem_of_mem_drop hmem
    rwa [Tree.lowerName, String.toList_ofList] at hdrop
  obtain ⟨c', hc', rfl⟩ := List.mem_map.mp hlower
  exact isNameChar_lower (hplain c' hc')

namespace KeyPath

theorem name?_eq_some {cs rest : List Char} {name : String} (h : name? cs = some (name, rest)) :
    name = String.ofList (cs.takeWhile isNameChar) ∧ rest = cs.dropWhile isNameChar := by
  simp only [name?] at h
  split_ifs at h
  cases h
  exact ⟨rfl, rfl⟩

/-- A step without brackets leads to a member. -/
theorem member_of_step? {cs rest : List Char} {step : Step}
    (hcs : ∀ c ∈ cs, c = '.' ∨ isNameChar c = true) (h : step? cs = some (step, rest)) :
    (∃ name, step = .member name) ∧ ∀ c ∈ rest, c ∈ cs := by
  unfold step? at h
  split at h
  case h_1 more =>
    obtain ⟨⟨name, rest'⟩, hname, heq⟩ := Option.map_eq_some_iff.mp h
    cases heq
    refine ⟨⟨name, rfl⟩, fun c hc => List.mem_cons_of_mem _ ?_⟩
    rw [(name?_eq_some hname).2] at hc
    exact (List.dropWhile_sublist _).subset hc
  case h_2 => exact absurd (hcs '[' List.mem_cons_self) (by decide)
  case h_3 => cases h

theorem members_of_steps? {fuel : Nat} {cs : List Char} {steps : List Step}
    (hcs : ∀ c ∈ cs, c = '.' ∨ isNameChar c = true) (h : steps? fuel cs = some steps) :
    ∀ step ∈ steps, ∃ name, step = .member name := by
  fun_induction steps? fuel cs generalizing steps with
  | case1 fuel =>
    cases h
    exact fun step hstep => absurd hstep List.not_mem_nil
  | case2 => cases h
  | case3 fuel cs _ ih =>
    obtain ⟨⟨step, rest⟩, hstep, hrest⟩ := Option.bind_eq_some_iff.mp h
    obtain ⟨later, hlater, rfl⟩ := Option.map_eq_some_iff.mp hrest
    obtain ⟨hmember, hsub⟩ := member_of_step? hcs hstep
    intro step' hstep'
    rcases List.mem_cons.mp hstep' with rfl | hstep'
    · exact hmember
    · exact ih rest (fun c hc => hcs c (hsub c hc)) hlater step' hstep'

end KeyPath

theorem takeWhile_congr {α : Type} {p q : α → Bool} {as : List α} (h : ∀ a ∈ as, p a = q a) :
    as.takeWhile p = as.takeWhile q := by
  induction as with
  | nil => rfl
  | cons a rest ih =>
    rw [List.takeWhile_cons, List.takeWhile_cons, h a List.mem_cons_self,
      ih fun b hb => h b (List.mem_cons_of_mem _ hb)]

theorem KeyPath.ofText_eq (text : String) : ofText text =
    ((name? text.toList).bind fun p => (steps? p.2.length p.2).map (mk p.1)).getD ⟨text, []⟩ :=
  rfl

/-- **A variable that names no setting leads elsewhere.** -/
theorem IsForeign.elsewhere {name path : String} (h : IsForeign name path)
    (hpath : variablePath? name = some path) :
    (∀ f : Setting, (KeyPath.ofText path).name ≠ f.root) ∧
      ∀ step ∈ (KeyPath.ofText path).steps, ∃ name, step = .member name := by
  have hchars := variablePath?_chars hpath h.plain
  have htake : path.toList.takeWhile KeyPath.isNameChar = path.toList.takeWhile (· ≠ '.') := by
    refine takeWhile_congr fun c hc => ?_
    rcases hchars c hc with rfl | hname
    · decide
    · have hdot : c ≠ '.' := fun hdot => by
        rw [hdot] at hname
        exact absurd hname (by decide)
      simp [hname, hdot]
  rw [KeyPath.ofText_eq]
  cases hparsed : (KeyPath.name? path.toList).bind fun p =>
      (KeyPath.steps? p.2.length p.2).map (KeyPath.mk p.1) with
  | none =>
    refine ⟨fun f heq => h.root f ?_, fun step hstep => absurd hstep List.not_mem_nil⟩
    have hwhole : path = f.root := heq
    rw [hwhole, f.firstPart_root]
  | some p =>
    obtain ⟨⟨first, rest⟩, hfirst, hrest⟩ := Option.bind_eq_some_iff.mp hparsed
    obtain ⟨steps, hsteps, rfl⟩ := Option.map_eq_some_iff.mp hrest
    obtain ⟨rfl, rfl⟩ := KeyPath.name?_eq_some hfirst
    refine ⟨fun f heq => h.root f ?_, KeyPath.members_of_steps? (fun c hc => ?_) hsteps⟩
    · rw [firstPart, ← htake]
      exact heq
    · exact hchars c ((List.dropWhile_sublist _).subset hc)

end LineClient
