import LineClient.Files
import Mathlib.Data.List.Basic
import Mathlib.Tactic.SplitIfs

/-!
# Files that were written

A file that could be written is found again under the path that it was written to: the directories
on the way to it are still there, whatever file was in its place before. A file for which there is
not room enough is found with the first part of what was to be written. Whether a file can be
created is not a matter of its content.

* `FileTree.isDirectory_put`, `FileTree.follow_put`, a new file hides no directory;
* `FileTree.read?_put`; `FileTree.WriteWay`, **`FileTree.write_cases`**, the ways in which a writing
  ends;
* **`FileTree.read?_of_write`**, `FileTree.read?_of_unfinished`, what is found afterwards;
  `FileTree.write_eq_uncreated`, a file that cannot be created.
-/

namespace LineClient

namespace FileTree

variable {t : FileTree} {place dir : List String} {content : ByteArray}

/-- A directory is on the way to the working directory, or has a file below it. -/
theorem isDirectory_iff : t.isDirectory dir = true ↔
    dir <+: t.home ∨ ∃ file ∈ t.files, dir <+: file.1 ∧ dir.length < file.1.length := by
  simp [isDirectory]

theorem isDirectory_put (h : t.isDirectory dir = true) :
    (t.put place content).isDirectory dir = true := by
  rw [isDirectory_iff] at h ⊢
  rcases h with hhome | ⟨file, hfile, hbelow⟩
  · exact .inl hhome
  · by_cases hsame : file.1 = place
    · exact .inr ⟨(place, content), List.mem_cons_self, hsame ▸ hbelow⟩
    · refine .inr ⟨file, List.mem_cons_of_mem _ ?_, hbelow⟩
      exact List.mem_filter.mpr ⟨hfile, by simpa using hsame⟩

theorem contentAt?_put : (t.put place content).contentAt? place = some content := by
  simp [put, contentAt?]

/-- The components of a path lead to the same place as before. -/
theorem follow_put {components : List String} {start goal : List String}
    (h : t.follow start components = .ok goal) :
    (t.put place content).follow start components = .ok goal := by
  induction components generalizing start with
  | nil => exact h
  | cons c rest ih =>
    rw [follow] at h ⊢
    by_cases hdir : t.isDirectory start = true
    · rw [if_pos hdir] at h
      rw [if_pos (isDirectory_put hdir)]
      split_ifs at h ⊢
      · exact ih h
      · exact ih h
    · rw [if_neg hdir] at h
      split_ifs at h

variable {path : String}

/-- **What is put at the place of a path is found under it.** -/
theorem read?_put (h : t.create? path = .ok place) :
    (t.put place content).read? (Path.ofText path) = some content := by
  unfold create? at h
  cases hgoal : t.follow (t.start (.ofText path)) (Path.ofText path).components with
  | error e =>
    simp only [hgoal] at h
    split_ifs at h
  | ok goal =>
    simp only [hgoal] at h
    split_ifs at h with _ _ _ hslash
    have hplace : goal = place := by
      cases hfault : t.faultAt? goal with
      | none => simpa [hfault] using h
      | some fault => cases fault <;> simp_all
    subst hplace
    have hstart : (t.put goal content).start (.ofText path) = t.start (.ofText path) := rfl
    rw [read?, if_neg hslash, hstart, follow_put hgoal]
    exact contentAt?_put

/-- How a writing ends, the file being in its place or not. -/
inductive WriteWay (t : FileTree) (path : String) (content : ByteArray) :
    Except WriteError FileTree → Prop
  | written (t' : FileTree) (hread : t'.read? (Path.ofText path) = some content) :
    WriteWay t path content (.ok t')
  | uncreated (cause : FileError) (hcreate : t.create? path = .error cause) :
    WriteWay t path content (.error (.uncreated cause))
  /-- There was room for the first bytes only. -/
  | unfinished (left : FileTree) (room : Nat) (cause : FileError) (hroom : room < content.size)
    (hread : left.read? (Path.ofText path) = some (content.extract 0 room)) :
    WriteWay t path content (.error (.unfinished left cause))

/-- **There are no other ways.** -/
theorem write_cases (t : FileTree) (path : String) (content : ByteArray) :
    WriteWay t path content (t.write path content) := by
  unfold write
  cases hcreate : t.create? path with
  | error cause => exact .uncreated cause hcreate
  | ok place =>
    have hwritten : WriteWay t path content (.ok (t.put place content)) :=
      .written _ (read?_put hcreate)
    dsimp only [fill]
    cases hfault : t.faultAt? place with
    | none => exact hwritten
    | some fault =>
      cases fault with
      | uncreatable cause => exact hwritten
      | bounded room cause =>
        dsimp only
        split_ifs with hroom
        · exact .unfinished _ room cause hroom (read?_put hcreate)
        · exact hwritten

/-- **A file that was written is found under its path.** -/
theorem read?_of_write {t' : FileTree} (h : t.write path content = .ok t') :
    t'.read? (Path.ofText path) = some content := by
  have hway := t.write_cases path content
  rw [h] at hway
  cases hway with
  | written _ hread => exact hread

/-- A file for which there is not room enough is found with the first part of the content. -/
theorem read?_of_unfinished {left : FileTree} {cause : FileError}
    (h : t.write path content = .error (.unfinished left cause)) :
    ∃ room < content.size, left.read? (Path.ofText path) = some (content.extract 0 room) := by
  have hway := t.write_cases path content
  rw [h] at hway
  cases hway with
  | unfinished _ room _ hroom hread => exact ⟨room, hroom, hread⟩

/-- Whether a file can be created is not a matter of its content. -/
theorem write_eq_uncreated {cause : FileError}
    (h : t.write path content = .error (.uncreated cause)) (other : ByteArray) :
    t.write path other = .error (.uncreated cause) := by
  have hway := t.write_cases path content
  rw [h] at hway
  cases hway with
  | uncreated _ hcreate => rw [write, hcreate]

end FileTree

end LineClient
