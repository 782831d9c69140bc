import LineClient.Proofs.Files
import LineClient.Proofs.Series.Elapsed
import LineClient.Proofs.Series.Rows
import Mathlib.Data.List.Forall2

/-!
# An exported series reads back

An exported series is a table of two columns. Split at its line breaks and commas it gives its
fields back, and the second column gives the values back, down to their bits. The first column
counts up from zero with three places, as long as time does not go backwards.

* `tableCells`, the fields of a table; `Tabulates`, what the table of some samples is;
* `tableCells_csvText`, the fields come back; `csvText_tabulates`, the whole table;
* **`csvText_reads_back`**, what is read from the file of a series.
-/

namespace LineClient

/-! ## Tables -/

/-- The fields of a table: the lines of a text end at line breaks, and their fields at commas. What
follows the last line break is a line, too. -/
def tableCells (text : String) : List (List (List Char)) :=
  (text.toList.splitOn '\n').map (·.splitOn ',')

/-- What the table of some samples is, with a row of two fields for each sample in order. -/
structure Tabulates (text : String) (samples : List Sample) (rows : List (List Char × List Char)) :
    Prop where
  /-- After the names of the columns there are the rows, each with a line break at its end. -/
  lines : text.toList = "elapsed_secs,value\n".toList ++
    rows.flatMap fun row => row.1 ++ ',' :: row.2 ++ ['\n']
  /-- There is one comma in a row. -/
  comma : ∀ row ∈ rows, (row.1 ++ ',' :: row.2).count ',' = 1
  /-- A row is a single line. -/
  oneLine : ∀ row ∈ rows, '\n' ∉ row.1 ++ ',' :: row.2
  /-- Split at line breaks and commas the text gives the fields back. -/
  cells : tableCells text =
    ["elapsed_secs".toList, "value".toList] :: rows.map (fun row => [row.1, row.2]) ++ [[[]]]
  /-- The second fields are the values, except for the bits of a NaN. -/
  values : List.Forall₂ (fun s row => ∃ x, Binary64.ofText? row.2 = some x ∧ x.Alike s.value)
    samples rows
  /-- The first row is at zero. -/
  first : ∀ row ∈ rows.head?, row.1 = "0.000".toList
  /-- The first fields have three places and no sign, even if time goes backwards. -/
  places : ∀ row ∈ rows, Binary64.HasPlaces 3 row.1
  /-- If time does not go backwards, neither do the first fields. -/
  ascending : samples.Pairwise (fun s t => s.time.nanos ≤ t.time.nanos) →
    (rows.map fun row => Numeral.magnitude row.1).Pairwise (· ≤ ·)

/-- Lines without line breaks are told apart by the line breaks at their ends. -/
theorem splitOn_lines {lines : List (List Char)} (h : ∀ line ∈ lines, '\n' ∉ line) :
    (lines.flatMap fun line => line ++ ['\n']).splitOn '\n' = lines ++ [[]] := by
  induction lines with
  | nil => rfl
  | cons line lines ih =>
    have hline : '\n' ∉ line := h line List.mem_cons_self
    have hlines := ih fun other hother => h other (List.mem_cons_of_mem line hother)
    rw [List.splitOn_eq_splitOnP] at hlines ⊢
    rw [List.flatMap_cons, List.append_assoc, List.singleton_append,
      List.splitOnP_append_cons (p := (· == '\n')) _ _ (beq_self_eq_true '\n'), hlines,
      ← List.splitOn_eq_splitOnP, List.splitOn_eq_singleton hline, List.singleton_append,
      List.cons_append]

/-- Two fields without commas are told apart by the comma between them. -/
theorem splitOn_fields {field other : List Char} (h : ',' ∉ field) (h' : ',' ∉ other) :
    (field ++ ',' :: other).splitOn ',' = [field, other] := by
  rw [List.splitOn_eq_splitOnP,
    List.splitOnP_append_cons (p := (· == ',')) _ _ (beq_self_eq_true ','),
    ← List.splitOn_eq_splitOnP, ← List.splitOn_eq_splitOnP, List.splitOn_eq_singleton h,
    List.splitOn_eq_singleton h', List.singleton_append]

/-! ## The columns of a series -/

/-- The two fields of each sample. -/
def csvColumns (samples : List Sample) : List (List Char × List Char) :=
  samples.map fun s => (((s.time.since (samples.headD s).time).seconds.fixed 3).toList,
    s.value.shortest.toList)

/-- The line of two fields. -/
def csvLine (row : List Char × List Char) : List Char := row.1 ++ ',' :: row.2

variable {samples others : List Sample}

theorem toList_csvFields (start : Duration) (s : Sample) : (csvFields start s).toList =
    csvLine (((s.time.since start).seconds.fixed 3).toList, s.value.shortest.toList) := by
  have hcomma : ",".toList = [','] := by decide
  rw [csvFields, String.toList_append, String.toList_append, hcomma, List.append_assoc,
    List.singleton_append, csvLine]

theorem toList_csvLines (samples : List Sample) : (csvLines samples).map String.toList =
    "elapsed_secs,value".toList :: (csvColumns samples).map csvLine := by
  simp only [csvLines, csvColumns, List.map_cons, List.map_map, Function.comp_def,
    toList_csvFields]

theorem toList_csvRow (start : Duration) (s : Sample) :
    (csvRow start s).toList = (csvFields start s).toList ++ ['\n'] := by
  rw [csvRow, ← csvFields, String.toList_append]
  rfl

theorem toList_csvText (samples : List Sample) : (csvText samples).toList =
    ((csvLines samples).map String.toList).flatMap fun line => line ++ ['\n'] := by
  have hheader : csvHeader.toList = "elapsed_secs,value".toList ++ ['\n'] := by decide
  cases samples with
  | nil =>
    rw [csvText, hheader]
    simp only [csvLines, List.map_cons, List.map_nil, List.flatMap_cons, List.flatMap_nil,
      List.append_nil]
  | cons first rest =>
    simp only [csvText, foldl_append @String.toList_append, toList_csvRow, hheader, csvLines,
      List.map_cons, List.map_map, List.flatMap_cons, List.flatMap_map, List.headD_cons,
      Function.comp_def]

theorem newline_not_mem_csvLine : ∀ row ∈ csvColumns samples, '\n' ∉ csvLine row := by
  intro row hrow
  obtain ⟨s, -, rfl⟩ := List.mem_map.mp hrow
  rw [← toList_csvFields]
  exact newline_not_mem_csvFields _ s

theorem not_isNumeric_comma : ¬ Binary64.IsNumeric ',' := by
  unfold Binary64.IsNumeric
  decide

theorem comma_not_mem_csvColumns : ∀ row ∈ csvColumns samples, ',' ∉ row.1 ∧ ',' ∉ row.2 := by
  intro row hrow
  obtain ⟨s, -, rfl⟩ := List.mem_map.mp hrow
  dsimp only
  exact ⟨fun h => not_isNumeric_comma (Binary64.isNumeric_fixed 3 _ h),
    fun h => not_isNumeric_comma (Binary64.isNumeric_shortest _ h)⟩

theorem tableCells_csvText (samples : List Sample) : tableCells (csvText samples) =
    ["elapsed_secs".toList, "value".toList] ::
      (csvColumns samples).map (fun row => [row.1, row.2]) ++ [[[]]] := by
  have hlines : ∀ line ∈ (csvLines samples).map String.toList, '\n' ∉ line := by
    intro line hline
    obtain ⟨text, htext, rfl⟩ := List.mem_map.mp hline
    exact newline_not_mem_csvLines text htext
  have hrows : ((csvColumns samples).map csvLine).map (·.splitOn ',') =
      (csvColumns samples).map fun row => [row.1, row.2] := by
    rw [List.map_map]
    refine List.map_congr_left fun row hrow => ?_
    obtain ⟨hfirst, hsecond⟩ := comma_not_mem_csvColumns row hrow
    exact splitOn_fields hfirst hsecond
  rw [tableCells, toList_csvText, splitOn_lines hlines, toList_csvLines, List.map_append,
    List.map_cons, hrows]
  rfl

theorem csvColumns_values (samples : List Sample) :
    List.Forall₂ (fun s row => ∃ x, Binary64.ofText? row.2 = some x ∧ x.Alike s.value)
      samples (csvColumns samples) := by
  rw [csvColumns, List.forall₂_map_right_iff]
  exact List.forall₂_same.mpr fun s _ => s.value.exists_ofText?_shortest

/-- The columns are all that can be told from the text. -/
theorem csvColumns_eq_of_csvText_eq (h : csvText others = csvText samples) :
    csvColumns others = csvColumns samples := by
  have hcells := congrArg tableCells h
  rw [tableCells_csvText, tableCells_csvText] at hcells
  have hrows := (List.cons.inj (List.append_cancel_right hcells)).2
  refine List.map_injective_iff.mpr (fun row row' heq => ?_) hrows
  obtain ⟨hfirst, hsecond⟩ := List.cons.inj heq
  exact Prod.ext hfirst (List.cons.inj hsecond).1

/-! ## The elapsed time -/

/-- The first sample is at zero. -/
theorem csvColumns_first : ∀ row ∈ (csvColumns samples).head?, row.1 = "0.000".toList := by
  have hzero : (Duration.mk 0).seconds.fixed 3 = "0.000" := by decide +kernel
  intro row hrow
  cases samples with
  | nil => cases hrow
  | cons first rest =>
    have hsince : first.time.since first.time = ⟨0⟩ := by rw [Duration.since, Nat.sub_self]
    simp only [csvColumns, List.map_cons, List.head?_cons, List.headD_cons, hsince, hzero,
      Option.mem_some_iff] at hrow
    rw [← hrow]

section Times

variable (htimes : ∀ s ∈ samples, s.time.nanos ≤ Duration.max.nanos)

include htimes

theorem since_unsigned {s : Sample} (hs : s ∈ samples) (start : Duration) :
    (s.time.since start).seconds.Unsigned :=
  Duration.seconds_unsigned ((Nat.sub_le _ _).trans (htimes s hs))

theorem csvColumns_places : ∀ row ∈ csvColumns samples, Binary64.HasPlaces 3 row.1 := by
  intro row hrow
  obtain ⟨s, hs, rfl⟩ := List.mem_map.mp hrow
  dsimp only
  exact Binary64.hasPlaces_fixed (since_unsigned htimes hs _) (by decide)

theorem csvColumns_ascending
    (hsorted : samples.Pairwise fun s t => s.time.nanos ≤ t.time.nanos) :
    ((csvColumns samples).map fun row => Numeral.magnitude row.1).Pairwise (· ≤ ·) := by
  rw [csvColumns, List.map_map, List.pairwise_map]
  refine hsorted.imp_of_mem fun {s t} hs ht hle => ?_
  obtain ⟨first, rest, rfl⟩ := List.exists_cons_of_ne_nil (List.ne_nil_of_mem hs)
  simp only [Function.comp_apply, List.headD_cons]
  exact Binary64.magnitude_fixed_le (since_unsigned htimes hs _) (since_unsigned htimes ht _)
    (Duration.rank_seconds_le (Nat.sub_le_sub_right hle _)) (by decide)

theorem csvText_tabulates : Tabulates (csvText samples) samples (csvColumns samples) where
  lines := by
    have hheader : "elapsed_secs,value\n".toList = "elapsed_secs,value".toList ++ ['\n'] := by
      decide
    rw [toList_csvText, toList_csvLines, List.flatMap_cons, List.flatMap_map, hheader]
    rfl
  comma row hrow := by
    obtain ⟨hfirst, hsecond⟩ := comma_not_mem_csvColumns row hrow
    rw [List.count_append, List.count_cons_self, List.count_eq_zero_of_not_mem hfirst,
      List.count_eq_zero_of_not_mem hsecond]
  oneLine := newline_not_mem_csvLine
  cells := tableCells_csvText samples
  values := csvColumns_values samples
  first := csvColumns_first
  places := csvColumns_places htimes
  ascending := csvColumns_ascending htimes

end Times

/-! ## What is read -/

/-- The same text has the same values, except for the bits of NaNs. -/
theorem alike_of_csvText_eq (h : csvText others = csvText samples) :
    List.Forall₂ (fun s t => s.value.Alike t.value) others samples := by
  have hcolumn := congrArg (List.map Prod.snd) (csvColumns_eq_of_csvText_eq h)
  simp only [csvColumns, List.map_map, Function.comp_def] at hcolumn
  have htexts : List.Forall₂ (· = ·) (others.map fun s => s.value.shortest.toList)
      (samples.map fun s => s.value.shortest.toList) := by
    rw [hcolumn, List.forall₂_eq_eq_eq]
  rw [List.forall₂_map_left_iff, List.forall₂_map_right_iff] at htexts
  exact htexts.imp fun s t htext => Binary64.alike_of_shortest_eq (String.toList_inj.mp htext)

/-- **An exported series reads back.** Its text is the table of its samples, and no other values
have this text. If the file can be created, it then has this text, or the first part of it if there
was not room enough, which the export tells. -/
theorem csvText_reads_back (htimes : ∀ s ∈ samples, s.time.nanos ≤ Duration.max.nanos) :
    (∃ rows, Tabulates (csvText samples) samples rows) ∧
    (∀ others, (csvText others).toUTF8 = (csvText samples).toUTF8 →
      List.Forall₂ (fun s t => s.value.Alike t.value) others samples) ∧
    ∀ (files : FileTree) (path : String),
      (∃ cause, (∀ content, files.write path content = .error (.uncreated cause)) ∧
        files.exportSamples path samples = .error (.uncreated cause)) ∨
      (∃ files', files.exportSamples path samples = .ok (files', exported samples.length path) ∧
        files'.read? (Path.ofText path) = some (csvText samples).toUTF8) ∨
      ∃ left room cause, files.exportSamples path samples = .error (.unfinished left cause) ∧
        room < (csvText samples).toUTF8.size ∧
        left.read? (Path.ofText path) = some ((csvText samples).toUTF8.extract 0 room) := by
  refine ⟨⟨_, csvText_tabulates htimes⟩, fun others hsame => ?_, fun files path => ?_⟩
  · exact alike_of_csvText_eq (String.toByteArray_inj.mp hsame)
  · rw [files.exportSamples_eq]
    have hway := files.write_cases path (csvText samples).toUTF8
    generalize hwrite : files.write path (csvText samples).toUTF8 = result at hway
    cases hway with
    | uncreated cause => exact .inl ⟨cause, FileTree.write_eq_uncreated hwrite, rfl⟩
    | written files' hread => exact .inr (.inl ⟨files', rfl, hread⟩)
    | unfinished left room cause hroom hread =>
      exact .inr (.inr ⟨left, room, cause, rfl, hroom, hread⟩)

/-- Time that goes backwards, a negative zero and two special values. -/
theorem csvText_reads_back_special :
    let samples : List Sample := [⟨.ofSecs 5 0, .ofRank true 0⟩, ⟨.ofSecs 3 0, .nan⟩,
      ⟨.ofSecs 7 250000000, .negInfinity⟩]
    (∀ s ∈ samples, s.time.nanos ≤ Duration.max.nanos) ∧
      csvText samples = "elapsed_secs,value\n0.000,-0\n0.000,NaN\n2.250,-inf\n" ∧
      ∃ rows, Tabulates (csvText samples) samples rows := by
  intro samples
  have htimes : ∀ s ∈ samples, s.time.nanos ≤ Duration.max.nanos := by decide
  exact ⟨htimes, by decide +kernel, (csvText_reads_back htimes).1⟩

end LineClient
