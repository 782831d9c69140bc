import LineClient.Proofs.Settings.Faultless
import LineClient.Proofs.Settings.Names

/-!
# Settings layer by layer

The value of a setting comes from its variable if there is one, else from its key in the file if
there is one, else it is the default. Each setting is settled on its own: what is said about the
others, or about names that are no settings, makes no difference to it. If what counts for one
setting is of the wrong kind, nothing is loaded; what does not count is not looked at.

* `FileTree.document?`, `Layers`, `Layers.place?`, `Layers.value?`;
* `Layers.Orderly`, plain keys, and variables that name different settings or none;
* `Layers.exists_tree`, the places of the settings in the tree of both layers;
* `Layers.Gives`; **`Settings.ofSources_layered`**.
-/

namespace LineClient

/-! ## Layers -/

/-- The origin of a settings file and the document in it. A file that is not there, or that is no
text, has an empty document; none if the document is malformed. -/
def FileTree.document? (files : FileTree) (path : String) :
    Option (String × Entries Toml.Value) :=
  match files.settingsFile? path with
  | none => some ("", [])
  | some (origin, content) =>
    match String.fromUTF8? content with
    | none => some (origin, [])
    | some text => (Toml.document? text).map (origin, ·)

/-- The text of a variable as a value. -/
def variableTree (text : String) : Tree := .scalar "the environment" (variableValue text)

/-- What settings come from, beside their defaults. -/
structure Layers where
  origin : String
  document : Entries Toml.Value
  environment : List (String × String)

namespace Layers

variable (l : Layers)

/-- The text of the variable that names a setting. -/
def named? (f : Setting) : Option String :=
  l.environment.findSome? fun v => if variablePath? v.1 = some f.path then some v.2 else none

/-- The value of the document under the key of a setting. -/
def written? (f : Setting) : Option Toml.Value :=
  let root := Entries.ofList l.document
  match f.section? with
  | none => root.find? f.name
  | some place =>
    match root.find? place.name with
    | some (.table entries) => (Entries.ofList entries).find? f.name
    | _ => none

/-- The value that counts for a setting: that of its variable, or else that of its key. -/
def place? (f : Setting) : Option Tree :=
  ((l.named? f).map variableTree).or ((l.written? f).map (Tree.ofToml l.origin))

/-- The value of a setting, which has its default if nothing counts for it. None if what counts is
of the wrong kind. -/
def value? (f : Setting) : Option f.kind.Value := f.value? (l.place? f)

/-- Layers with plain keys, with sections that are tables, and with variables that name different
settings or none. -/
structure Orderly : Prop where
  plain : ∀ entry ∈ l.document, IsPlain entry.1
  sections : ∀ place : SettingSection, ∀ v, (place.name, v) ∈ l.document →
    ∃ entries, v = .table entries ∧ ∀ entry ∈ entries, IsPlain entry.1
  known : ∀ v ∈ l.environment, ∀ path, variablePath? v.1 = some path →
    (∃ f : Setting, f.path = path) ∨ IsForeign v.1 path
  once : l.environment.Pairwise fun v w =>
    ∀ f : Setting, variablePath? v.1 = some f.path → variablePath? w.1 ≠ some f.path

end Layers

/-! ## The file -/

section File

variable {origin : String} {document : Entries Toml.Value}

/-- The layer of a document. -/
def documentLayer (origin : String) (document : Entries Toml.Value) : Entries Tree :=
  Entries.ofList (Tree.ofTomlEntries origin document)

theorem fileLayer?_eq (files : FileTree) (path : String) : fileLayer? files path =
    (files.document? path).map fun d => documentLayer d.1 d.2 := by
  unfold fileLayer? FileTree.document?
  cases files.settingsFile? path with
  | none => rfl
  | some file =>
    obtain ⟨origin, content⟩ := file
    cases htext : String.fromUTF8? content with
    | none => simp only [htext]; rfl
    | some text => simp only [htext, Option.map_map]; rfl

theorem ofTomlEntries_eq (h : ∀ entry ∈ document, IsPlain entry.1) :
    Tree.ofTomlEntries origin document = document.map fun e => (e.1, Tree.ofToml origin e.2) := by
  induction document with
  | nil => rw [Tree.ofTomlEntries]; rfl
  | cons entry rest ih =>
    obtain ⟨name, v⟩ := entry
    rw [Tree.ofTomlEntries, Tree.lowerName_plain (h _ List.mem_cons_self),
      ih fun e he => h e (List.mem_cons_of_mem _ he)]
    rfl

/-- The layer of a document has its values under their names. -/
theorem find?_documentLayer (h : ∀ entry ∈ document, IsPlain entry.1) (name : String) :
    (documentLayer origin document).find? name =
      ((Entries.ofList document).find? name).map (Tree.ofToml origin) := by
  rw [documentLayer, ofTomlEntries_eq h, Entries.find?_ofList, Entries.find?_ofList,
    ← List.map_reverse]
  exact Entries.find?_map _ _ _

theorem documentLayer_plain (h : ∀ entry ∈ document, IsPlain entry.1) :
    ∀ entry ∈ documentLayer origin document, IsPlain entry.1 := by
  intro entry hentry
  have hmem := Entries.mem_of_mem_ofList hentry
  rw [ofTomlEntries_eq h] at hmem
  obtain ⟨e, he, rfl⟩ := List.mem_map.mp hmem
  exact h e he

theorem Tree.overlay?_plain {layer : Entries Tree} (h : ∀ entry ∈ layer, IsPlain entry.1)
    (t : Tree) : t.overlay? layer = some (setAll layer t) := by
  induction layer generalizing t with
  | nil => rw [setAll]; rfl
  | cons entry rest ih =>
    obtain ⟨name, v⟩ := entry
    rw [overlay?_cons, KeyPath.ofText_plain (h _ List.mem_cons_self), setAt?, Option.bind_some,
      setAll, ih fun e he => h e (List.mem_cons_of_mem _ he)]

end File

/-- The tree of a file has the values of its keys at the places of the settings. -/
theorem Layers.exists_fileTree {l : Layers} (hl : l.Orderly) :
    ∃ t, Tree.fresh.overlay? (documentLayer l.origin l.document) = some t ∧ t.Sectioned ∧
      ∀ f : Setting, t.at? f =
        (l.written? f).map fun v => (Tree.ofToml l.origin v).settled := by
  let t := Tree.setAll (documentLayer l.origin l.document) .fresh
  have hfind (name : String) : t.find? name =
      ((Entries.ofList l.document).find? name).map fun v => (Tree.ofToml l.origin v).settled := by
    refine (Tree.find?_setAll_fresh (Entries.nodup_ofList _) name).trans ?_
    refine (congrArg _ (find?_documentLayer hl.plain name)).trans ?_
    rw [Option.map_map]
    rfl
  have hsection {place : SettingSection} {v : Toml.Value}
      (hv : (Entries.ofList l.document).find? place.name = some v) :
      ∃ entries, v = .table entries ∧ ∀ entry ∈ entries, IsPlain entry.1 :=
    hl.sections place v (Entries.mem_of_mem_ofList (Entries.mem_of_find? hv))
  refine ⟨t, Tree.overlay?_plain (documentLayer_plain hl.plain) _, fun place v hv => ?_,
    fun f => ?_⟩
  · rw [hfind] at hv
    obtain ⟨v', hv', rfl⟩ := Option.map_eq_some_iff.mp hv
    obtain ⟨entries, rfl, -⟩ := hsection hv'
    rw [Tree.ofToml]
    exact Tree.setAll_table _ _ _
  · unfold Tree.at? Layers.written?
    cases f.section? with
    | none => exact hfind f.name
    | some place =>
      simp only [hfind]
      cases hroot : (Entries.ofList l.document).find? place.name with
      | none => rfl
      | some v =>
        obtain ⟨entries, rfl, hplain⟩ := hsection hroot
        simp only [Option.map_some, Option.bind_some]
        rw [Tree.ofToml, Tree.settled_table (Entries.nodup_ofList _)]
        refine (congrArg _ (find?_documentLayer hplain f.name)).trans ?_
        rw [Option.map_map]
        rfl

/-! ## The environment -/

namespace Tree

variable {t : Tree}

/-- The place of a setting lies below its root. -/
theorem at?_congr {t' : Tree} {f : Setting} (h : t'.find? f.root = t.find? f.root) :
    t'.at? f = t.at? f := by
  unfold at?
  unfold Setting.root at h
  cases hf : f.section? with
  | none => simpa only [hf] using h
  | some place =>
    simp only [hf] at h
    simp only [h]

/-- A value at the root. -/
theorem at?_put {f : Setting} (hf : f.section? = none) (v : Tree) (g : Setting) :
    (t.put f.name v).at? g = if g = f then some v else t.at? g := by
  by_cases hgf : g = f
  · subst hgf
    simp only [at?, hf, find?_put, if_pos]
  · rw [if_neg hgf]
    refine at?_congr ?_
    rw [find?_put, if_neg]
    unfold Setting.root
    cases hg : g.section? with
    | none =>
      refine fun hname => hgf (Setting.path_injective ?_)
      simp only [Setting.path, hf, hg, hname]
    | some place => exact f.name_ne_section place

/-- A value in a section. -/
theorem at?_put_put {f : Setting} {place : SettingSection} (hf : f.section? = some place)
    (v : Tree) (g : Setting) :
    (t.put place.name (((t.find? place.name).getD filler).put f.name v)).at? g =
      if g = f then some v else t.at? g := by
  have hsub : ((t.find? place.name).getD filler).find? g.name =
      (t.find? place.name).bind (·.find? g.name) := by
    cases t.find? place.name <;> rfl
  by_cases hg : g.section? = some place
  · rw [at?_of_section hg, at?_of_section hg, find?_put, if_pos rfl, Option.bind_some, find?_put,
      hsub]
    refine if_congr ⟨fun hname => Setting.path_injective ?_, fun h => by rw [h]⟩ rfl rfl
    simp only [Setting.path, hf, hg, hname]
  · rw [if_neg fun h => hg (by rw [h, hf])]
    refine at?_congr ?_
    rw [find?_put, if_neg]
    unfold Setting.root
    cases hother : g.section? with
    | none => exact (g.name_ne_section place).symm
    | some other =>
      exact fun hname => hg (by rw [hother, SettingSection.name_injective hname])

/-- A value that is set at the place of a setting is found there, and at no other place. -/
theorem exists_setAt?_path (ht : t.Sectioned) (f : Setting) (origin : Option String) (s : Scalar) :
    ∃ t', setAt? (.scalar origin s) (.member (KeyPath.ofText f.path).name)
        (KeyPath.ofText f.path).steps t = some t' ∧ t'.Sectioned ∧
      ∀ g : Setting, t'.at? g = if g = f then some (.scalar origin s) else t.at? g := by
  rw [Setting.ofText_path]
  cases hf : f.section? with
  | none =>
    refine ⟨_, by rw [setAt?, set], fun place v hv => ?_, at?_put hf _⟩
    rw [find?_put, if_neg (f.name_ne_section place)] at hv
    exact ht place v hv
  | some place =>
    refine ⟨_, by rw [setAt?, setAt?, set, Option.map_some], fun other v hv => ?_, at?_put_put hf _⟩
    rw [find?_put] at hv
    split_ifs at hv with hname
    · cases hv
      exact ⟨_, _, rfl⟩
    · exact ht other v hv

/-- Names lead somewhere, and only what is below the first of them changes. -/
theorem exists_setAt?_members {steps : List Step}
    (hsteps : ∀ step ∈ steps, ∃ name, step = .member name) (v : Tree) (name : String) (t : Tree) :
    ∃ t', setAt? v (.member name) steps t = some t' ∧
      ∀ other, name ≠ other → t'.find? other = t.find? other := by
  induction steps generalizing name t with
  | nil => exact ⟨_, by rw [setAt?], fun other hne => find?_set_of_ne hne v t⟩
  | cons step rest ih =>
    obtain ⟨next, rfl⟩ := hsteps step List.mem_cons_self
    obtain ⟨sub, hsub, -⟩ := ih (fun step hstep => hsteps step (List.mem_cons_of_mem _ hstep)) next
      ((t.find? name).getD filler)
    refine ⟨t.put name sub, by rw [setAt?, hsub, Option.map_some], fun other hne => ?_⟩
    rw [find?_put, if_neg hne]

/-- A value that is set elsewhere is at the place of no setting. -/
theorem exists_setAt?_elsewhere (ht : t.Sectioned) {name : String} {steps : List Step}
    (hname : ∀ f : Setting, name ≠ f.root) (hsteps : ∀ step ∈ steps, ∃ name, step = .member name)
    (v : Tree) :
    ∃ t', setAt? v (.member name) steps t = some t' ∧ t'.Sectioned ∧
      ∀ g : Setting, t'.at? g = t.at? g := by
  obtain ⟨t', hset, hother⟩ := exists_setAt?_members hsteps v name t
  refine ⟨t', hset, fun place v hv => ?_, fun g => at?_congr (hother _ (hname g))⟩
  obtain ⟨f, hf⟩ := place.exists_root
  rw [hother place.name (hf ▸ hname f)] at hv
  exact ht place v hv

end Tree

theorem environmentLayer_concat (environment : List (String × String)) (v : String × String) :
    environmentLayer (environment ++ [v]) =
      match variablePath? v.1 with
      | none => environmentLayer environment
      | some path => (environmentLayer environment).put path (variableTree v.2) := by
  obtain ⟨name, text⟩ := v
  rw [environmentLayer, List.filterMap_append]
  cases hpath : variablePath? name with
  | none =>
    simp only [List.filterMap_cons, List.filterMap_nil, hpath, Option.map_none, List.append_nil]
    rfl
  | some path =>
    simp only [List.filterMap_cons, List.filterMap_nil, hpath, Option.map_some,
      Entries.ofList_concat]
    rfl

/-- Each setting has the value of the variable that names it. -/
theorem Layers.find?_environmentLayer {l : Layers} (hl : l.Orderly) (f : Setting) :
    (environmentLayer l.environment).find? f.path = (l.named? f).map variableTree := by
  have honce := hl.once
  unfold named?
  generalize l.environment = environment at honce
  induction environment using List.reverseRecOn with
  | nil => rfl
  | append_singleton environment v ih =>
    obtain ⟨hbefore, -, hlast⟩ := List.pairwise_append.mp honce
    rw [environmentLayer_concat, List.findSome?_append]
    cases hpath : variablePath? v.1 with
    | none => simp [hpath, ih hbefore]
    | some path =>
      simp only [Entries.find?_put, ih hbefore]
      by_cases hf : path = f.path
      · have hnone : (environment.findSome? fun v =>
            if variablePath? v.1 = some f.path then some v.2 else none) = none := by
          refine List.findSome?_eq_none_iff.mpr fun w hw => if_neg fun hnamed => ?_
          exact hlast w hw v List.mem_cons_self f hnamed (by rw [hpath, hf])
        simp [hnone, hpath, hf]
      · simp [hpath, hf]

/-- What a layer of the environment consists of: values of variables, each with the path of a
setting, or with that of a name that leads elsewhere. -/
theorem Layers.mem_environmentLayer {l : Layers} (hl : l.Orderly) {path : String} {t : Tree}
    (h : (path, t) ∈ environmentLayer l.environment) :
    ∃ text, t = variableTree text ∧
      ((∃ f : Setting, f.path = path) ∨ ∃ name, variablePath? name = some path ∧
        IsForeign name path) := by
  obtain ⟨v, hv, hpair⟩ := List.mem_filterMap.mp (Entries.mem_of_mem_ofList h)
  obtain ⟨path', hpath, heq⟩ := Option.map_eq_some_iff.mp hpair
  cases heq
  exact ⟨v.2, rfl, (hl.known v hv path hpath).imp_right fun hforeign => ⟨v.1, hpath, hforeign⟩⟩

/-- The value of a variable is set at the place of its setting, or else at that of none. -/
theorem Tree.exists_setAt?_variable {t : Tree} (ht : t.Sectioned) (text : String) {path : String}
    (hpath : (∃ f : Setting, f.path = path) ∨ ∃ name, variablePath? name = some path ∧
      IsForeign name path) :
    ∃ t', setAt? (variableTree text) (.member (KeyPath.ofText path).name)
        (KeyPath.ofText path).steps t = some t' ∧ t'.Sectioned ∧
      ∀ g : Setting, t'.at? g = if path = g.path then some (variableTree text) else t.at? g := by
  rcases hpath with ⟨f, rfl⟩ | ⟨name, hname, hforeign⟩
  · obtain ⟨t', hset, hsectioned, hat⟩ := exists_setAt?_path ht f "the environment"
      (variableValue text)
    refine ⟨t', hset, hsectioned, fun g => (hat g).trans (if_congr ?_ rfl rfl)⟩
    exact ⟨fun h => by rw [h], fun h => (Setting.path_injective h).symm⟩
  · obtain ⟨hroot, hmembers⟩ := hforeign.elsewhere hname
    obtain ⟨t', hset, hsectioned, hat⟩ := exists_setAt?_elsewhere ht hroot hmembers
      (variableTree text)
    refine ⟨t', hset, hsectioned, fun g => (hat g).trans (if_neg fun h => ?_).symm⟩
    rw [h, Setting.ofText_path_name] at hroot
    exact hroot g rfl

/-- The values of variables are set at the places of their settings, and nowhere else. -/
theorem Tree.exists_overlay? {layer : Entries Tree}
    (hlayer : ∀ path t, (path, t) ∈ layer → ∃ text, t = variableTree text ∧
      ((∃ f : Setting, f.path = path) ∨ ∃ name, variablePath? name = some path ∧
        IsForeign name path))
    (hnodup : layer.names.Nodup) {t : Tree} (ht : t.Sectioned) :
    ∃ t', t.overlay? layer = some t' ∧ t'.Sectioned ∧
      ∀ f : Setting, t'.at? f = (layer.find? f.path).or (t.at? f) := by
  induction layer generalizing t with
  | nil => exact ⟨t, rfl, ht, fun f => rfl⟩
  | cons entry rest ih =>
    obtain ⟨path, v⟩ := entry
    obtain ⟨hpath, hrest⟩ := List.nodup_cons.mp hnodup
    obtain ⟨text, rfl, hplace⟩ := hlayer path v List.mem_cons_self
    obtain ⟨t₁, hset, hsectioned, hat₁⟩ := exists_setAt?_variable ht text hplace
    obtain ⟨t₂, hoverlay, hsectioned₂, hat₂⟩ := ih
      (fun path t hmem => hlayer path t (List.mem_cons_of_mem _ hmem)) hrest hsectioned
    refine ⟨t₂, by rw [overlay?_cons, hset, Option.bind_some, hoverlay], hsectioned₂, fun f => ?_⟩
    rw [hat₂, hat₁, Entries.find?]
    by_cases hf : path = f.path
    · rw [if_pos hf, if_pos hf, Entries.find?_eq_none.mpr (hf ▸ hpath)]
      rfl
    · rw [if_neg hf, if_neg hf]

/-! ## The result -/

/-- The tree of both layers reads, setting by setting, as the layers do. -/
theorem Layers.exists_tree {l : Layers} (hl : l.Orderly) :
    ∃ t, (Tree.fresh.overlay? (documentLayer l.origin l.document)).bind
        (·.overlay? (environmentLayer l.environment)) = some t ∧ t.Sectioned ∧
      ∀ f : Setting, f.value? (t.at? f) = l.value? f := by
  obtain ⟨t₁, hfile, hsectioned, hat₁⟩ := exists_fileTree hl
  obtain ⟨t₂, henvironment, hsectioned₂, hat₂⟩ := Tree.exists_overlay?
    (fun path t hmem => mem_environmentLayer hl hmem) (Entries.nodup_ofList _) hsectioned
  refine ⟨t₂, by rw [hfile]; exact henvironment, hsectioned₂, fun f => ?_⟩
  rw [hat₂, hat₁, find?_environmentLayer hl, value?, place?]
  cases l.named? f with
  | some text => rfl
  | none =>
    cases l.written? f with
    | none => rfl
    | some v => exact f.value?_settled _

/-- What comes of layers. Every setting has its own value, whatever the others are; settings with a
fault, or of which one cannot be read, are not loaded. -/
inductive Layers.Gives (l : Layers) (path : String) : Except SettingsError Settings → Prop
  | loaded {s : Settings} (values : ∀ f, l.value? f = some (f.get s)) (sound : s.fault? = none) :
    Gives l path (.ok s)
  | faulty {s : Settings} {fault : SettingsFault} (values : ∀ f, l.value? f = some (f.get s))
    (fault_eq : s.fault? = some fault) : Gives l path (.error (.fault fault))
  | unreadable {f : Setting} (m : Mismatch) (value : l.value? f = none) :
    Gives l path (.error (.mismatch path m))

section Sources

variable {files : FileTree} {path : String} {l : Layers}

/-- The settings that are loaded are those of a tree that reads as the layers do. -/
theorem Settings.ofSources_eq (hfile : files.document? path = some (l.origin, l.document))
    (hl : l.Orderly) :
    ∃ t, (∀ s, ofTree t = .ok s ↔ ∀ f, l.value? f = some (f.get s)) ∧
      ofSources files l.environment path =
        match ofTree t with
        | .error m => .error (.mismatch path m)
        | .ok settings =>
          match settings.fault? with
          | some fault => .error (.fault fault)
          | none => .ok settings := by
  obtain ⟨t, htree, hsectioned, hvalue⟩ := Layers.exists_tree hl
  have hlayer : fileLayer? files path = some (documentLayer l.origin l.document) := by
    rw [fileLayer?_eq, hfile]
    rfl
  have htree' : (Tree.fresh.overlay? (documentLayer l.origin l.document) >>= fun t =>
      t.overlay? (environmentLayer l.environment)) = some t := htree
  refine ⟨t, fun s => ?_, ?_⟩
  · rw [ofTree_eq_ok hsectioned]
    exact forall_congr' fun f => by rw [hvalue]
  · simp only [ofSources, hlayer, htree']
    rfl

theorem Settings.ofSources_of_values (hfile : files.document? path = some (l.origin, l.document))
    (hl : l.Orderly) {s : Settings} (hvalues : ∀ f, l.value? f = some (f.get s)) :
    ofSources files l.environment path =
      match s.fault? with
      | some fault => .error (.fault fault)
      | none => .ok s := by
  obtain ⟨t, hread, hsources⟩ := ofSources_eq hfile hl
  rw [hsources, (hread s).mpr hvalues]

theorem Settings.ofSources_of_none (hfile : files.document? path = some (l.origin, l.document))
    (hl : l.Orderly) {f : Setting} (hnone : l.value? f = none) :
    ∃ m, ofSources files l.environment path = .error (.mismatch path m) := by
  obtain ⟨t, hread, hsources⟩ := ofSources_eq hfile hl
  cases hloaded : ofTree t with
  | error m => exact ⟨m, by rw [hsources, hloaded]⟩
  | ok s =>
    have hvalue := (hread s).mp hloaded f
    rw [hnone] at hvalue
    cases hvalue

/-- **Settings are loaded one by one.** Each has the value of its variable, or else that of its key,
or else its default. -/
theorem Settings.ofSources_layered (hfile : files.document? path = some (l.origin, l.document))
    (hl : l.Orderly) : l.Gives path (ofSources files l.environment path) := by
  by_cases hnone : ∃ f, l.value? f = none
  · obtain ⟨f, hf⟩ := hnone
    obtain ⟨m, hsources⟩ := ofSources_of_none hfile hl hf
    rw [hsources]
    exact .unreadable m hf
  · obtain ⟨s, hvalues⟩ := exists_of_values fun f hf => hnone ⟨f, hf⟩
    rw [ofSources_of_values hfile hl hvalues]
    cases hfault : s.fault? with
    | none => exact .loaded hvalues hfault
    | some fault => exact .faulty hvalues hfault

end Sources

/-! ### A file and three variables -/

theorem String.fromUTF8?_toUTF8 (text : String) : String.fromUTF8? text.toUTF8 = some text := by
  unfold String.fromUTF8?
  rw [dif_pos (by exact text.isValidUTF8)]
  rfl

theorem Path.ofText_usual : ofText "config.toml" = ⟨["config.toml"], false, false⟩ := by
  have hsplit : "config.toml".splitOn "/" = ["config.toml"] := by
    rw [String.splitOn, if_neg (by decide)]
    iterate 11
      rw [String.splitOnAux.eq_def, if_neg (by decide +kernel), if_neg (by decide +kernel)]
    rw [String.splitOnAux.eq_def, if_pos (by decide +kernel)]
    decide +kernel
  rw [ofText, hsplit]
  decide +kernel

theorem FileTree.settingsFile?_nil : settingsFile? {} "config.toml" = none := by
  rw [settingsFile?, Path.ofText_usual]
  decide +kernel

/-- The document of a file in the usual place. -/
theorem FileTree.document?_usual (text : String) :
    FileTree.document? { files := [(["config.toml"], text.toUTF8)] } "config.toml" =
      (Toml.document? text).map ("config.toml", ·) := by
  have hname : ¬ longestName < "config.toml".utf8ByteSize := by decide
  have hread : read? { files := [(["config.toml"], text.toUTF8)] } ⟨["config.toml"], false, false⟩ =
      some text.toUTF8 := by
    simp [read?, start, follow, isDirectory, hname, contentAt?]
  have hfile : settingsFile? { files := [(["config.toml"], text.toUTF8)] } "config.toml" =
      some ("config.toml", text.toUTF8) := by
    simp only [settingsFile?, Path.ofText_usual, hread]
    rw [if_pos (by decide +kernel)]
    rfl
  simp only [document?, hfile, String.fromUTF8?_toUTF8]

/-- A file of which one value is of the wrong kind, and one key is unknown. -/
def overriddenText : String :=
  "port = 7\n\n[telemetry]\nmeasurement = \"humidity\"\ninterval_ms = \"soon\"\n\n" ++
    "[load]\nworkers = 3\nretries = 2\n"

/-- That file, and a variable for the value of the wrong kind. -/
def overridden : Layers where
  origin := "config.toml"
  document :=
    [("load", .table [("retries", .integer 2), ("workers", .integer 3)]),
      ("port", .integer 7),
      ("telemetry", .table [("interval_ms", .text "soon"), ("measurement", .text "humidity")])]
  environment := [("PIHUB__TELEMETRY__INTERVAL_MS", "250"), ("PIHUB__LOADER", "x"), ("HOME", "/")]

theorem document?_overriddenText :
    Toml.document? overriddenText = some overridden.document := by
  cbv

theorem overridden_orderly : overridden.Orderly := by
  have hpaths : variablePath? "PIHUB__TELEMETRY__INTERVAL_MS" = some "telemetry.interval_ms" ∧
      variablePath? "PIHUB__LOADER" = some "loader" ∧ variablePath? "HOME" = none := by
    decide +kernel
  refine ⟨?_, fun place v hv => ?_, fun v hv path hpath => ?_, ?_⟩
  · decide +kernel
  · cases place <;> simp [overridden, SettingSection.name] at hv <;> subst hv <;>
      exact ⟨_, rfl, by decide +kernel⟩
  · simp only [overridden, List.mem_cons, List.not_mem_nil, or_false] at hv
    rcases hv with rfl | rfl | rfl <;> simp only [hpaths, Option.some_inj, reduceCtorEq] at hpath
    · exact .inl ⟨.intervalMs, hpath⟩
    · subst hpath
      exact .inr ⟨by simp, fun f => by cases f <;> decide +kernel⟩
  · have hnodup : (overridden.environment.filterMap fun v => variablePath? v.1).Nodup := by
      decide +kernel
    exact (List.pairwise_filterMap.mp hnodup).imp fun hne f hv hw => hne _ hv _ hw rfl

/-- A variable of telemetry leaves the other settings of its section alone, and the value of the
wrong kind that it overrides is not looked at. -/
theorem Settings.ofSources_layered_overridden :
    let files : FileTree := { files := [(["config.toml"], overriddenText.toUTF8)] }
    files.document? "config.toml" = some (overridden.origin, overridden.document) ∧
      overridden.Orderly ∧
      overridden.Gives "config.toml" (ofSources files overridden.environment "config.toml") ∧
      ofSources files overridden.environment "config.toml" = .ok
        { port := 7
          telemetry := { measurement := "humidity", intervalMs := 250 }
          load := { workers := 3 } } := by
  intro files
  have hfile : files.document? "config.toml" =
      some (overridden.origin, overridden.document) := by
    rw [FileTree.document?_usual, document?_overriddenText]
    rfl
  have hvalues (f : Setting) : overridden.value? f = some (f.get
      { port := 7
        telemetry := { measurement := "humidity", intervalMs := 250 }
        load := { workers := 3 } }) := by
    cases f <;> decide +kernel
  exact ⟨hfile, overridden_orderly, ofSources_layered hfile overridden_orderly,
    ofSources_of_values hfile overridden_orderly hvalues⟩

end LineClient
