import LineClient.Settings.Tree
import Mathlib.Data.List.Induction
import Mathlib.Data.String.Basic
import Mathlib.Tactic.SplitIfs

/-!
# Values in tables of settings

A value that is set under a name is found there, and no other name notices. A layer of settings
whose names are plain, no name twice, gives a table in which each of its values is found by its own
name; a table of the layer is found with all its entries.

* `Entries.find?_put`, `Entries.find?_ofList`, `Entries.nodup_ofList`;
* `Tree.settled`, a value as it stands in a tree after it was set;
* `Tree.find?_set`, **`Tree.find?_setAll`**.
-/

namespace LineClient

/-! ## Entries -/

namespace Entries

variable {α β : Type}

/-- The names of entries. -/
def names (es : Entries α) : List String := es.map Prod.fst

theorem find?_put (es : Entries α) (name other : String) (a : α) :
    find? other (es.put name a) = if name = other then some a else find? other es := by
  induction es with
  | nil => simp [put, find?]
  | cons e rest ih =>
    obtain ⟨key, b⟩ := e
    by_cases hname : name = other
    · subst hname
      simp only [put]
      split_ifs with hlt hkey
      · simp [find?]
      · simp [find?]
      · rw [find?, if_neg hkey, ih, if_pos rfl]
    · rw [if_neg hname] at ih ⊢
      simp only [put]
      split_ifs with hlt hkey
      · simp [find?, hname]
      · simp [find?, hkey, hname]
      · simp only [find?, ih]

theorem find?_eq_none {es : Entries α} {name : String} :
    find? name es = none ↔ name ∉ names es := by
  induction es with
  | nil => simp [find?, names]
  | cons e rest ih =>
    obtain ⟨key, a⟩ := e
    by_cases hkey : key = name
    · simp [find?, names, hkey]
    · have hkey' : name ≠ key := fun h => hkey h.symm
      simpa [find?, names, hkey, hkey'] using ih

theorem mem_of_find? {es : Entries α} {name : String} {a : α} (h : find? name es = some a) :
    (name, a) ∈ es := by
  induction es with
  | nil => cases h
  | cons e rest ih =>
    obtain ⟨key, b⟩ := e
    rw [find?] at h
    split_ifs at h with hkey
    · cases h
      exact hkey ▸ List.mem_cons_self
    · exact List.mem_cons_of_mem _ (ih h)

theorem find?_map (g : α → β) (es : Entries α) (name : String) :
    find? name (es.map fun e => (e.1, g e.2)) = (find? name es).map g := by
  induction es with
  | nil => rfl
  | cons e rest ih =>
    rw [List.map_cons, find?, find?, ih]
    split_ifs <;> rfl

/-! ### Entries of a list of pairs -/

theorem ofList_concat (pairs : List (String × α)) (p : String × α) :
    ofList (pairs ++ [p]) = (ofList pairs).put p.1 p.2 := by
  rw [ofList, List.foldl_append]
  rfl

/-- The last of several pairs of one name counts. -/
theorem find?_ofList (pairs : List (String × α)) (name : String) :
    find? name (ofList pairs) = find? name pairs.reverse := by
  induction pairs using List.reverseRecOn with
  | nil => rfl
  | append_singleton pairs p ih =>
    rw [ofList_concat, find?_put, ih, List.reverse_append]
    rfl

theorem mem_put {es : Entries α} {name : String} {a : α} {e : String × α}
    (h : e ∈ es.put name a) : e = (name, a) ∨ e ∈ es := by
  induction es with
  | nil => exact .inl (List.mem_singleton.mp h)
  | cons first rest ih =>
    obtain ⟨key, b⟩ := first
    rw [put] at h
    split_ifs at h
    · exact List.mem_cons.mp h
    · exact (List.mem_cons.mp h).imp_right (List.mem_cons_of_mem _)
    · rcases List.mem_cons.mp h with rfl | hrest
      · exact .inr List.mem_cons_self
      · exact (ih hrest).imp_right (List.mem_cons_of_mem _)

theorem mem_of_mem_ofList {pairs : List (String × α)} {e : String × α} (h : e ∈ ofList pairs) :
    e ∈ pairs := by
  induction pairs using List.reverseRecOn with
  | nil => cases h
  | append_singleton pairs p ih =>
    rw [ofList_concat] at h
    rcases mem_put h with rfl | hmem
    · exact List.mem_append_right _ List.mem_cons_self
    · exact List.mem_append_left _ (ih hmem)

/-- A table stays in ascending order. -/
theorem ascending_put {es : Entries α} (name : String) (a : α)
    (h : es.Pairwise fun x y => x.1 < y.1) : (es.put name a).Pairwise fun x y => x.1 < y.1 := by
  induction es with
  | nil => exact List.pairwise_singleton _ _
  | cons first rest ih =>
    obtain ⟨key, b⟩ := first
    obtain ⟨hfirst, hrest⟩ := List.pairwise_cons.mp h
    rw [put]
    split_ifs with hlt hkey
    · refine List.pairwise_cons.mpr ⟨fun e he => ?_, h⟩
      rcases List.mem_cons.mp he with rfl | he
      · exact hlt
      · exact lt_trans hlt (hfirst e he)
    · exact List.pairwise_cons.mpr ⟨fun e he => hkey ▸ hfirst e he, hrest⟩
    · refine List.pairwise_cons.mpr ⟨fun e he => ?_, ih hrest⟩
      rcases mem_put he with rfl | he
      · exact lt_of_le_of_ne (not_lt.mp hlt) hkey
      · exact hfirst e he

/-- A table has no name twice. -/
theorem nodup_ofList (pairs : List (String × α)) : (names (ofList pairs)).Nodup := by
  have hascending : (ofList pairs).Pairwise fun x y => x.1 < y.1 := by
    induction pairs using List.reverseRecOn with
    | nil => exact .nil
    | append_singleton pairs p ih =>
      rw [ofList_concat]
      exact ascending_put _ _ ih
  exact List.pairwise_map.mpr (hascending.imp fun hlt => ne_of_lt hlt)

end Entries

/-! ## Trees -/

namespace Tree

/-- A value as it stands in a tree after it was set where nothing was. -/
def settled : Tree → Tree
  | table _ incoming => setAll incoming fresh
  | list origin items => list origin items
  | scalar origin s => scalar origin s

theorem find?_put (t v : Tree) (name other : String) :
    (t.put name v).find? other = if name = other then some v else t.find? other :=
  Entries.find?_put _ _ _ _

/-- Only the value under the name that is set is another one. -/
theorem find?_set_of_ne {name other : String} (h : name ≠ other) (v t : Tree) :
    (set name v t).find? other = t.find? other := by
  cases v <;> simp [set, find?_put, h]

theorem find?_set {name : String} {t : Tree} (h : t.find? name = none) (v : Tree) :
    (set name v t).find? name = some v.settled := by
  cases v <;> simp [set, find?_put, settled, h]

/-- **The values of a layer are found under their names.** -/
theorem find?_setAll {layer : Entries Tree} {t : Tree} (hnodup : layer.names.Nodup)
    (hfree : ∀ name ∈ layer.names, t.find? name = none) (name : String) :
    (setAll layer t).find? name = ((layer.find? name).map settled).or (t.find? name) := by
  induction layer generalizing t with
  | nil => rw [setAll]; rfl
  | cons e rest ih =>
    obtain ⟨key, v⟩ := e
    obtain ⟨hkey, hrest⟩ := List.nodup_cons.mp hnodup
    have hfree' : ∀ other ∈ Entries.names rest, (set key v t).find? other = none := by
      intro other hother
      have hne : key ≠ other := fun h => hkey (by rw [h]; exact hother)
      rw [find?_set_of_ne hne]
      exact hfree other (List.mem_cons_of_mem _ hother)
    rw [setAll, ih hrest hfree', Entries.find?]
    by_cases hname : key = name
    · subst hname
      rw [if_pos rfl, Entries.find?_eq_none.mpr hkey, find?_set (hfree key List.mem_cons_self)]
      rfl
    · rw [if_neg hname, find?_set_of_ne hname]

theorem find?_fresh (name : String) : fresh.find? name = none := rfl

/-- A layer on its own. -/
theorem find?_setAll_fresh {layer : Entries Tree} (hnodup : layer.names.Nodup) (name : String) :
    (setAll layer fresh).find? name = (layer.find? name).map settled := by
  rw [find?_setAll hnodup fun name _ => find?_fresh name, find?_fresh, Option.or_none]

theorem settled_table {origin : Option String} {entries : Entries Tree}
    (hnodup : entries.names.Nodup) (name : String) :
    (settled (.table origin entries)).find? name = (entries.find? name).map settled :=
  find?_setAll_fresh hnodup name

/-- A layer begins with its first value. -/
theorem overlay?_cons (t : Tree) (name : String) (v : Tree) (rest : Entries Tree) :
    t.overlay? ((name, v) :: rest) =
      (setAt? v (.member (KeyPath.ofText name).name) (KeyPath.ofText name).steps t).bind
        (·.overlay? rest) :=
  rfl

/-- A table that is set stays a table. -/
theorem setAll_table (layer : List (String × Tree)) (origin : Option String)
    (entries : List (String × Tree)) :
    ∃ origin' entries', setAll layer (.table origin entries) = .table origin' entries' := by
  induction layer generalizing origin entries with
  | nil => exact ⟨origin, entries, by rw [setAll]⟩
  | cons e rest ih =>
    obtain ⟨key, v⟩ := e
    rw [setAll]
    cases v <;> exact ih _ _

end Tree

end LineClient
