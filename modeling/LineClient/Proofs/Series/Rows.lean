import LineClient.Proofs.Binary64.Shortest
import LineClient.Proofs.Link.Lines
import LineClient.Series.Export

/-!
# The lines of an exported series

A number is written without a line break, so an exported series has one line for the names of the
columns and then one line for each sample, in the order of the series.

* `Binary64.IsNumeric`, the characters of numbers; `Binary64.isNumeric_fixed`,
  `Binary64.isNumeric_shortest`;
* `csvLines`, the lines; **`splitLines_csvText`**, they are all that the text consists of;
* `FileTree.exportSamples_eq`, the text in a file.
-/

namespace LineClient

/-! ## The characters of numbers -/

namespace Binary64

/-- The character may stand in a number, or in the name of a special value. -/
def IsNumeric (c : Char) : Prop := c.isDigit = true ∨ c ∈ ['.', '-', 'N', 'a', 'i', 'n', 'f']

theorem IsNumeric.of_isDigit {c : Char} (h : c.isDigit = true) : IsNumeric c := .inl h

theorem not_isNumeric_newline : ¬ IsNumeric '\n' := by
  unfold IsNumeric
  decide

variable {c : Char}

theorem isNumeric_writePlaces {digits places : Nat} (hc : c ∈ writePlaces digits places) :
    IsNumeric c := by
  have hpadded : ∀ c ∈ List.replicate (places + 1 - (decimalDigits digits).length) '0' ++
      decimalDigits digits, IsNumeric c := fun _ hc =>
    .of_isDigit (Numeral.isDigit_of_mem_padded hc)
  unfold writePlaces at hc
  simp only at hc
  split_ifs at hc
  · exact hpadded c (List.mem_of_mem_take hc)
  · rcases List.mem_append.mp hc with hc | hc
    · exact hpadded c (List.mem_of_mem_take hc)
    · rcases List.mem_cons.mp hc with rfl | hc
      · exact .inr (by simp)
      · exact hpadded c (List.mem_of_mem_drop hc)

theorem isNumeric_positional {digits : Nat} {exponent : Int}
    (hc : c ∈ positional digits exponent) : IsNumeric c := by
  unfold positional at hc
  split_ifs at hc
  · exact .of_isDigit (Numeral.isDigit_decimalDigits hc)
  · exact isNumeric_writePlaces hc

theorem isNumeric_withSign (x : Binary64) {magnitude : List Char}
    (hmagnitude : ∀ c ∈ magnitude, IsNumeric c) (hc : c ∈ (x.withSign magnitude).toList) :
    IsNumeric c := by
  unfold withSign at hc
  by_cases hnan : x.isNaN = true
  · rw [if_pos hnan] at hc
    have hname : ∀ c ∈ "NaN".toList, IsNumeric c := by simp [IsNumeric]
    exact hname c hc
  · rw [if_neg hnan, String.toList_ofList] at hc
    rcases List.mem_append.mp hc with hc | hc
    · have hsign : c = '-' := by
        split_ifs at hc
        · exact List.mem_singleton.mp hc
        · exact absurd hc List.not_mem_nil
      exact .inr (by simp [hsign])
    · split_ifs at hc
      · have hname : ∀ c ∈ ['i', 'n', 'f'], IsNumeric c := by simp [IsNumeric]
        exact hname c hc
      · exact hmagnitude c hc

theorem isNumeric_fixed (places : Nat) (x : Binary64) (hc : c ∈ (x.fixed places).toList) :
    IsNumeric c :=
  isNumeric_withSign x (fun _ => isNumeric_writePlaces) hc

theorem exists_shortest_eq (x : Binary64) : ∃ digits exponent, x.shortest =
    x.withSign (if x.rank = 0 then ['0'] else positional digits exponent) := by
  unfold shortest
  cases shortestDigits x.rank with
  | mk digits exponent => exact ⟨digits, exponent, rfl⟩

theorem isNumeric_shortest (x : Binary64) (hc : c ∈ x.shortest.toList) : IsNumeric c := by
  obtain ⟨digits, exponent, hx⟩ := x.exists_shortest_eq
  rw [hx] at hc
  refine isNumeric_withSign x (fun c hc => ?_) hc
  split_ifs at hc
  · rw [List.mem_singleton.mp hc]
    exact .of_isDigit rfl
  · exact isNumeric_positional hc

end Binary64

/-! ## Lines -/

/-- The two fields of a sample, with times counted from `start`. -/
def csvFields (start : Duration) (s : Sample) : String :=
  (s.time.since start).seconds.fixed 3 ++ "," ++ s.value.shortest

/-- The names of the columns, and the fields of each sample. -/
def csvLines (samples : List Sample) : List String :=
  "elapsed_secs,value" :: samples.map fun s => csvFields (samples.headD s).time s

theorem newline_not_mem_csvFields (start : Duration) (s : Sample) :
    '\n' ∉ (csvFields start s).toList := by
  intro h
  simp only [csvFields, String.toList_append, List.mem_append] at h
  rcases h with (h | h) | h
  · exact Binary64.not_isNumeric_newline (Binary64.isNumeric_fixed 3 _ h)
  · exact absurd h (by decide)
  · exact Binary64.not_isNumeric_newline (Binary64.isNumeric_shortest _ h)

theorem newline_not_mem_csvLines {samples : List Sample} :
    ∀ line ∈ csvLines samples, '\n' ∉ line.toList := by
  intro line hline
  rcases List.mem_cons.mp hline with rfl | hline
  · decide
  · obtain ⟨s, -, rfl⟩ := List.mem_map.mp hline
    exact newline_not_mem_csvFields _ s

/-- Texts are appended one after the other, and so is what they consist of. -/
theorem foldl_append {α β : Type} {g : String → List β} (hg : ∀ s t, g (s ++ t) = g s ++ g t)
    (f : α → String) (text : String) (xs : List α) :
    g (xs.foldl (fun text x => text ++ f x) text) = g text ++ xs.flatMap fun x => g (f x) := by
  induction xs generalizing text with
  | nil => exact (List.append_nil _).symm
  | cons x xs ih => rw [List.foldl_cons, ih, hg, List.append_assoc, List.flatMap_cons]

theorem utf8Bytes_csvRow (start : Duration) (s : Sample) :
    utf8Bytes (csvRow start s) = (commandLine (csvFields start s)).data.toList := by
  rw [utf8Bytes, csvRow, commandLine, csvFields]

theorem utf8Bytes_csvText (samples : List Sample) : utf8Bytes (csvText samples) =
    (csvLines samples).flatMap fun line => (commandLine line).data.toList := by
  have hheader : utf8Bytes csvHeader = (commandLine "elapsed_secs,value").data.toList := by
    rw [utf8Bytes, commandLine, csvHeader]
    rfl
  cases samples with
  | nil => rw [csvText, csvLines, List.map_nil, List.flatMap_cons, List.flatMap_nil,
      List.append_nil, hheader]
  | cons first rest =>
    rw [csvText, foldl_append utf8Bytes_append, csvLines]
    simp only [hheader, utf8Bytes_csvRow, List.map_cons, List.flatMap_cons, List.flatMap_map,
      List.headD_cons]

/-- **An exported series is its lines and nothing else.** -/
theorem splitLines_csvText (samples : List Sample) :
    splitLines (utf8Bytes (csvText samples)) = ((csvLines samples).map utf8Bytes, []) := by
  rw [utf8Bytes_csvText, ← List.append_nil (List.flatMap _ _)]
  exact splitLines_flatMap_commandLine newline_not_mem_csvLines List.not_mem_nil

/-! ## The file -/

/-- Samples are exported if the file can be written. -/
theorem FileTree.exportSamples_eq (files : FileTree) (path : String) (samples : List Sample) :
    files.exportSamples path samples = (files.write path (csvText samples).toUTF8).map fun files =>
      (files, exported samples.length path) := by
  unfold exportSamples
  cases files.write path (csvText samples).toUTF8 <;> rfl

end LineClient
