import LineClient.Link.Script
import LineClient.Text.Utf8
import Mathlib.Tactic.SplitIfs

/-!
# Lines of bytes

A command without a line break is one line on the wire, whatever characters it has: no byte of a
longer character is the byte of a line break.

* `utf8Bytes_eq`, `newline_mem_utf8Bytes`, the bytes of a text;
* `splitLines_line`, the first line in a run of bytes;
* **`splitLines_commandLine`**, `splitLines_flatMap_commandLine`, a command and a number of them;
* `splitLines_mono`, `splitLines_append`, the lines in the beginning of a run of bytes, and those in
  one run after another;
* `commandLines`, the lines of any command; **`length_commandLines`**, how many there are.
-/

namespace LineClient

/-! ## The bytes of a text -/

theorem utf8Bytes_eq (text : String) :
    utf8Bytes text = text.toList.flatMap String.utf8EncodeChar := by
  rw [utf8Bytes, String.toUTF8_eq_toByteArray, ← String.utf8Encode_toList, List.utf8Encode,
    List.toList_data_toByteArray]

theorem newline_mem_utf8EncodeChar (c : Char) : 10 ∈ String.utf8EncodeChar c ↔ c = '\n' := by
  have hc : c = '\n' ↔ c.val.toNat = 10 := by
    rw [Char.ext_iff, ← UInt32.toNat_inj]; rfl
  rw [hc]
  simp only [String.utf8EncodeChar]
  split_ifs <;> simp only [List.mem_cons, List.not_mem_nil, or_false, ← UInt8.toNat_inj,
    UInt8.toNat_ofNat', UInt8.reduceToNat] <;> omega

theorem newline_mem_utf8Bytes (text : String) : 10 ∈ utf8Bytes text ↔ '\n' ∈ text.toList := by
  rw [utf8Bytes_eq, List.mem_flatMap]
  simp only [newline_mem_utf8EncodeChar, exists_eq_right]

theorem utf8Bytes_append (a b : String) : utf8Bytes (a ++ b) = utf8Bytes a ++ utf8Bytes b := by
  rw [utf8Bytes_eq, utf8Bytes_eq, utf8Bytes_eq, String.toList_append, List.flatMap_append]

theorem commandLine_toList (command : String) :
    (commandLine command).data.toList = utf8Bytes command ++ [10] :=
  utf8Bytes_append command "\n"

/-! ## The lines in a run of bytes -/

theorem splitLines_line (rest : List UInt8) : ∀ {line : List UInt8}, 10 ∉ line →
    splitLines (line ++ 10 :: rest) = (line :: (splitLines rest).1, (splitLines rest).2)
  | [], _ => rfl
  | b :: line, h => by
    have hb : b ≠ 10 := fun e => h (e ▸ List.mem_cons_self)
    have ih := splitLines_line rest fun hm => h (List.mem_cons_of_mem b hm)
    simp only [List.cons_append, splitLines, ih, if_neg hb]

/-- **A command without a line break is one line.** -/
theorem splitLines_commandLine {command : String} (h : '\n' ∉ command.toList) :
    splitLines (commandLine command).data.toList = ([utf8Bytes command], []) := by
  rw [commandLine_toList, splitLines_line [] fun hm => h ((newline_mem_utf8Bytes command).mp hm)]
  rfl

theorem splitLines_of_not_mem {tail : List UInt8} (h : 10 ∉ tail) :
    splitLines tail = ([], tail) := by
  induction tail with
  | nil => rfl
  | cons b tail ih =>
    have hb : b ≠ 10 := fun e => h (e ▸ List.mem_cons_self)
    have htail : 10 ∉ tail := fun hm => h (List.mem_cons_of_mem b hm)
    simp only [splitLines, ih htail, if_neg hb]

/-- Commands without line breaks are as many lines, whatever unfinished line follows them. -/
theorem splitLines_flatMap_commandLine {commands : List String} {tail : List UInt8}
    (h : ∀ c ∈ commands, '\n' ∉ c.toList) (htail : 10 ∉ tail) :
    splitLines (commands.flatMap (fun c => (commandLine c).data.toList) ++ tail) =
      (commands.map utf8Bytes, tail) := by
  induction commands with
  | nil => exact splitLines_of_not_mem htail
  | cons c commands ih =>
    have hc : 10 ∉ utf8Bytes c := fun hm =>
      h c List.mem_cons_self ((newline_mem_utf8Bytes c).mp hm)
    have ih := ih fun c' hc' => h c' (List.mem_cons_of_mem c hc')
    rw [List.flatMap_cons, commandLine_toList, List.append_assoc, List.append_assoc,
      List.singleton_append, splitLines_line _ hc, ih, List.map_cons]

/-- The lines in the beginning of a run of bytes are the first ones of all its lines. -/
theorem splitLines_mono {part bytes : List UInt8} (h : part <+: bytes) :
    (splitLines part).1 <+: (splitLines bytes).1 := by
  induction part generalizing bytes with
  | nil => exact List.nil_prefix
  | cons b part ih =>
    obtain ⟨bytes, rfl, hpart⟩ := List.cons_prefix_iff.mp h
    have ih := ih hpart
    by_cases hb : b = 10
    · simp only [splitLines, if_pos hb]
      exact List.cons_prefix_cons.mpr ⟨rfl, ih⟩
    · simp only [splitLines, if_neg hb]
      cases hlines : (splitLines part).1 with
      | nil => exact List.nil_prefix
      | cons line lines =>
        rw [hlines] at ih
        obtain ⟨more, hmore, hrest⟩ := List.cons_prefix_iff.mp ih
        rw [hmore]
        exact List.cons_prefix_cons.mpr ⟨rfl, hrest⟩

/-- After whole lines the next run of bytes begins with a new line. -/
theorem splitLines_append {part : List UInt8} (h : (splitLines part).2 = []) (bytes : List UInt8) :
    splitLines (part ++ bytes) =
      ((splitLines part).1 ++ (splitLines bytes).1, (splitLines bytes).2) := by
  induction part with
  | nil => rfl
  | cons b part ih =>
    by_cases hb : b = 10
    · simp only [splitLines, if_pos hb] at h
      simp only [List.cons_append, splitLines, if_pos hb, ih h]
    · simp only [splitLines, if_neg hb] at h
      cases hlines : (splitLines part).1 with
      | nil => simp [hlines] at h
      | cons line lines =>
        simp only [hlines] at h
        simp only [List.cons_append, splitLines, if_neg hb, ih h, hlines]

theorem length_splitLines (bytes : List UInt8) :
    (splitLines bytes).1.length = bytes.count 10 := by
  induction bytes with
  | nil => rfl
  | cons b bytes ih =>
    by_cases hb : b = 10
    · simp [splitLines, hb, ih]
    · rw [List.count_cons_of_ne hb, ← ih]
      simp only [splitLines, if_neg hb]
      cases (splitLines bytes).1 <;> rfl

/-! ## The lines of a command -/

/-- The lines that a command is on the wire: more than one, if it has line breaks. -/
def commandLines (command : String) : List (List UInt8) :=
  (splitLines (commandLine command).data.toList).1

theorem splitLines_commandLine_snd (command : String) :
    (splitLines (commandLine command).data.toList).2 = [] := by
  rw [commandLine_toList]
  induction utf8Bytes command with
  | nil => rfl
  | cons b bytes ih =>
    rw [List.cons_append]
    by_cases hb : b = 10
    · simp only [splitLines, if_pos hb, ih]
    · have hne : (splitLines (bytes ++ [10])).1 ≠ [] := by
        rw [← List.length_pos_iff, length_splitLines]
        simp
      obtain ⟨line, lines, hlines⟩ := List.exists_cons_of_ne_nil hne
      simp only [splitLines, if_neg hb, hlines, ih]

theorem commandLines_of_whole {command : String} (h : '\n' ∉ command.toList) :
    commandLines command = [utf8Bytes command] := by
  rw [commandLines, splitLines_commandLine h]

theorem count_newline_utf8Bytes (text : String) :
    (utf8Bytes text).count 10 = text.toList.count '\n' := by
  rw [utf8Bytes_eq]
  induction text.toList with
  | nil => rfl
  | cons c cs ih =>
    rw [List.flatMap_cons, List.count_append, ih, List.count_cons]
    by_cases hc : c = '\n'
    · have hone : (String.utf8EncodeChar '\n').count 10 = 1 := by decide
      rw [hc, hone, Nat.add_comm]
      rfl
    · rw [List.count_eq_zero_of_not_mem fun hm => hc ((newline_mem_utf8EncodeChar c).mp hm)]
      simp [hc]

/-- **A command is one line more than it has line breaks.** -/
theorem length_commandLines (command : String) :
    (commandLines command).length = command.toList.count '\n' + 1 := by
  rw [commandLines, length_splitLines, commandLine_toList, List.count_append,
    count_newline_utf8Bytes]
  rfl

end LineClient
