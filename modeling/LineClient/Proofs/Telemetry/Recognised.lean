import LineClient.Proofs.Binary64.Shortest
import LineClient.Proofs.Reading.Grammar
import LineClient.Proofs.Telemetry.Replies
import LineClient.Settings.Check

/-!
# The keys that are recognised

A reading is a key, a colon and a numeral, with or without blanks before the numeral. It is read
wherever it stands in a text, unless a word before it mentions the key. But the words of a text have
no blanks, so no text has a reading for a key with a blank. The check of the settings lets such a
key pass, and then a reader records nothing.

* `Surrounds`, what may stand around a reading; `exists_words_attached`, `exists_words_apart`,
  `Surrounds.exists_words`, the words that it makes;
* `Surrounds.readingAmong?_eq`, the numeral is read;
* `readingAmong?_blank`, keys with a blank; `Supervision.run_samples_eq_nil`, a reader without
  readings;
* **`reading?_recognised`**, which keys are recognised.
-/

namespace LineClient

open Numeral

/-- What may stand around a reading: words that do not mention the key before it, blanks before the
numeral, and behind it anything that is no part of a numeral. -/
structure Surrounds (key front gap back : List Char) : Prop where
  front_last : ∀ c ∈ front.getLast?, isBlank c = true
  front_words : ∀ word ∈ words front, ¬ key ++ [':'] <+: word
  gap : ∀ c ∈ gap, isBlank c = true
  back : ∀ c ∈ back.head?, isNumeralChar c = false

/-! ## Words that do not mention the key -/

section

variable {key word : List Char} {ts : List (List Char)}

theorem valueOf?_eq_none (h : ¬ key ++ [':'] <+: word) (rest : List (List Char)) :
    valueOf? key word rest = none := by
  rw [valueOf?, afterKey?, if_neg fun hfront => h (List.isPrefixOf_iff_prefix.mp hfront)]
  rfl

/-- Words that do not mention the key are passed over. -/
theorem readingAmong?_pass (h : ∀ word ∈ ts, ¬ key ++ [':'] <+: word) (us : List (List Char)) :
    readingAmong? key (ts ++ us) = readingAmong? key us := by
  induction ts with
  | nil => rfl
  | cons word ts ih =>
    obtain ⟨hword, hts⟩ := List.forall_mem_cons.mp h
    rw [List.cons_append, readingAmong?_cons, valueOf?_eq_none hword, Option.bind_none,
      Option.none_or, ih hts]

/-- **No text has a reading for a key with a blank.** -/
theorem readingAmong?_blank (hkey : ∃ c ∈ key, isBlank c = true) (text : List Char) :
    readingAmong? key (words text) = none := by
  obtain ⟨c, hc, hblank⟩ := hkey
  have hpass : readingAmong? key (words text ++ []) = none := by
    refine readingAmong?_pass (fun word hword hfront => ?_) []
    have hmem : c ∈ word := hfront.subset (List.mem_append_left _ hc)
    rw [isBlank_of_mem_words hword c hmem] at hblank
    exact Bool.false_ne_true hblank
  rwa [List.append_nil] at hpass

end

/-! ## A reading and what surrounds it -/

theorem isBlank_of_isDigit {c : Char} (h : c.isDigit = true) : isBlank c = false := by
  simp only [Char.isDigit, Bool.and_eq_true, decide_eq_true_eq, UInt32.le_iff_toNat_le] at h
  have hlow : 48 ≤ c.toNat := h.1
  have hhigh : c.toNat ≤ 57 := h.2
  simp only [isBlank, Bool.or_eq_false_iff, Bool.and_eq_false_imp, decide_eq_true_eq,
    decide_eq_false_iff_not, Nat.not_le, beq_eq_false_iff_ne, ne_eq]
  omega

/-- There are no blanks in a numeral. -/
theorem Numeral.Shape.isBlank {p : List Char} (h : Shape p) : ∀ c ∈ p, isBlank c = false := by
  have hrun {c : Char} (hc : c.isDigit = true ∨ c = '.') : LineClient.isBlank c = false := by
    rcases hc with hdigit | rfl
    · exact isBlank_of_isDigit hdigit
    · decide
  cases h with
  | unsigned hall => exact fun c hc => hrun (hall c hc)
  | signed hsign hall =>
    refine List.forall_mem_cons.mpr ⟨?_, fun c hc => hrun (hall c hc)⟩
    rcases hsign with rfl | rfl <;> decide

section

variable {key gap numeral : List Char} (hkey : ∀ c ∈ key, isBlank c = false)
  (hnumeral : ∀ c ∈ numeral, isBlank c = false) (hne : numeral ≠ []) (back : List Char)

include hkey

theorem isBlank_of_mem_colon : ∀ c ∈ key ++ [':'], isBlank c = false := by
  refine List.forall_mem_append.mpr ⟨hkey, List.forall_mem_singleton.mpr ?_⟩
  decide

include hnumeral hne

/-- The numeral stands right behind the colon, in the same word. -/
theorem exists_words_attached : ∃ word rest,
    words (key ++ ':' :: (numeral ++ back)) = word :: rest ∧
      valueOf? key word rest = some (numeral ++ back.takeWhile (!isBlank ·)) := by
  have hword : ∀ c ∈ key ++ [':'] ++ numeral, isBlank c = false :=
    List.forall_mem_append.mpr ⟨isBlank_of_mem_colon hkey, hnumeral⟩
  have hwords := words_run (List.append_ne_nil_of_right_ne_nil _ hne) hword back
  have hvalue : numeral ++ back.takeWhile (!isBlank ·) ≠ [] :=
    List.append_ne_nil_of_left_ne_nil hne _
  refine ⟨key ++ ':' :: (numeral ++ back.takeWhile (!isBlank ·)),
    words (back.dropWhile (!isBlank ·)), by simpa using hwords, ?_⟩
  rw [valueOf?, afterKey?_eq_some_iff.mpr rfl]
  exact if_neg fun hempty => hvalue (List.isEmpty_iff.mp hempty)

/-- Blanks come between, and the numeral begins the next word. -/
theorem exists_words_apart (hgap : gap ≠ []) (hblank : ∀ c ∈ gap, isBlank c = true) :
    ∃ word rest, words (key ++ ':' :: (gap ++ (numeral ++ back))) = word :: rest ∧
      valueOf? key word rest = some (numeral ++ back.takeWhile (!isBlank ·)) := by
  have hlast : ∀ c ∈ gap.getLast?, isBlank c = true := fun c hc =>
    hblank c (List.mem_of_getLast? hc)
  have hwords := words_run (List.append_ne_nil_of_right_ne_nil key (List.cons_ne_nil ':' []))
    (isBlank_of_mem_colon hkey) (gap ++ (numeral ++ back))
  obtain ⟨c, gap', rfl⟩ := List.exists_cons_of_ne_nil hgap
  have hc : isBlank c = true := hblank c List.mem_cons_self
  rw [List.cons_append, List.takeWhile_cons_of_neg (by simp [hc]),
    List.dropWhile_cons_of_neg (by simp [hc]), List.append_nil, ← List.cons_append,
    words_append hlast, words_eq_nil hblank, List.nil_append, words_run hne hnumeral] at hwords
  refine ⟨_, _, (congrArg words (List.append_cons key ':' _)).trans hwords, ?_⟩
  rw [valueOf?, afterKey?_eq_some_iff.mpr rfl]
  rfl

end

namespace Surrounds

variable {key front gap numeral back : List Char}

/-- **The numeral begins the value of a word**, which is the word of the key or the next one. -/
theorem exists_words (h : Surrounds key front gap back) (hkey : ∀ c ∈ key, isBlank c = false)
    (hnumeral : ∀ c ∈ numeral, isBlank c = false) (hne : numeral ≠ []) :
    ∃ word rest, words (key ++ ':' :: (gap ++ (numeral ++ back))) = word :: rest ∧
      valueOf? key word rest = some (numeral ++ back.takeWhile (!isBlank ·)) := by
  by_cases hgap : gap = []
  · subst hgap
    exact exists_words_attached hkey hnumeral hne back
  · exact exists_words_apart hkey hnumeral hne back hgap h.gap

/-- **The numeral is what is read.** -/
theorem readingAmong?_eq (h : Surrounds key front gap back) (hkey : ∀ c ∈ key, isBlank c = false)
    (hshape : Shape numeral) (hnumeral : IsNumeral numeral) :
    readingAmong? key (words (front ++ (key ++ ':' :: (gap ++ (numeral ++ back))))) =
      Binary64.ofText? numeral := by
  have hne : numeral ≠ [] := by
    obtain ⟨c, hc, -⟩ := hnumeral.digit
    exact List.ne_nil_of_mem hc
  have hback : ∀ c ∈ (back.takeWhile (!isBlank ·)).head?, isNumeralChar c = false := by
    intro c hc
    rw [List.head?_takeWhile] at hc
    exact h.back c (Option.mem_filter_iff.mp hc).1
  obtain ⟨word, rest, hwords, hvalue⟩ := h.exists_words hkey hshape.isBlank hne
  obtain ⟨x, hx, -⟩ := (ofText?_spec hshape).1 hnumeral
  rw [words_append h.front_last, readingAmong?_pass h.front_words, hwords, readingAmong?_cons,
    hvalue, Option.bind_some, leadingNumber?_eq (leads_append hshape hne hback), hx]
  rfl

end Surrounds

/-! ## Readers -/

/-- A reader whose key no text has a reading for records nothing. -/
theorem Supervision.run_samples_eq_nil {r : Reader} (hkey : ∀ text, reading? text r.key = none)
    {σ : Type} (h : Host σ) (rounds : Nat) (state : Supervision) (s : σ) :
    ((run r h rounds state).run s).2.1.samples = [] := by
  refine List.eq_nil_iff_forall_not_mem.mpr fun x hx => ?_
  obtain ⟨text, hread⟩ := exists_reading r h rounds state s x hx
  exact Option.some_ne_none _ (hread.symm.trans (hkey text))

/-! ## Keys -/

/-- **A reading is recognised just for the keys without a blank.** With such a key the double
nearest to the numeral is read, and a finite double is read from its own text. With any other key
there is no reading in any text; the check of the settings lets it pass, and nothing is recorded. -/
theorem reading?_recognised (key : String) :
    ((∀ c ∈ key.toList, isBlank c = false) → ∀ front gap back : String,
        Surrounds key.toList front.toList gap.toList back.toList →
        (∀ numeral : String, Shape numeral.toList → IsNumeral numeral.toList → ∃ x,
          reading? (front ++ key ++ ":" ++ gap ++ numeral ++ back) key = some x ∧
            x.Nearest (negative numeral.toList) (magnitude numeral.toList) ∧
            (x.isInfinite = true ↔ 2 ^ 1024 - 2 ^ 970 ≤ magnitude numeral.toList)) ∧
        ∀ x : Binary64, x.isNaN = false → x.isInfinite = false →
          reading? (front ++ key ++ ":" ++ gap ++ x.shortest ++ back) key = some x) ∧
      ((∃ c ∈ key.toList, isBlank c = true) → (∀ text, reading? text key = none) ∧
        ∀ s : Settings,
          let spaced : Settings := { s with telemetry.measurement := key }
          spaced.fault? = s.fault? ∧
            ∀ {σ : Type} (h : Host σ) (rounds : Nat) (state : Supervision) (t : σ),
              ((Supervision.run (.ofSettings spaced) h rounds state).run t).2.1.samples = []) := by
  refine ⟨fun hkey front gap back hsurrounds => ?_, fun hkey => ?_⟩
  · have hread {numeral : String} (hshape : Shape numeral.toList)
        (hnumeral : IsNumeral numeral.toList) :
        reading? (front ++ key ++ ":" ++ gap ++ numeral ++ back) key =
          Binary64.ofText? numeral.toList := by
      rw [← hsurrounds.readingAmong?_eq hkey hshape hnumeral, reading?]
      simp
    refine ⟨fun numeral hshape hnumeral => ?_, fun x hx hfinite => ?_⟩
    · obtain ⟨x, hx, hnearest⟩ := (ofText?_spec hshape).1 hnumeral
      exact ⟨x, (hread hshape hnumeral).trans hx, hnearest, hnearest.isInfinite_iff⟩
    · obtain ⟨hshape, hnumeral, -⟩ := Binary64.shortest_numeral hx hfinite
      exact (hread hshape hnumeral).trans (Binary64.ofText?_shortest hx hfinite)
  · have hnone (text : String) : reading? text key = none := readingAmong?_blank hkey text.toList
    exact ⟨hnone, fun s => ⟨rfl, fun h => Supervision.run_samples_eq_nil hnone h⟩⟩

/-- A numeral behind a tabulator with a unit attached, the text of a double right behind the colon,
and a key with a blank. -/
theorem reading?_recognised_temperatures :
    (∃ x, reading? "sensor 0: temp:\t-21.50*C" "temp" = some x ∧ x.Nearest true (43 / 2)) ∧
      reading? "temp:-21.5V temp:1" "temp" = some (.ofRatio true 43 2) ∧
      reading? "air temp: 21" "air temp" = none ∧
      ({ telemetry.measurement := "air temp" } : Settings).fault? = none := by
  have hword : "temp".toList ∈ words "temp".toList := by decide +kernel
  have hkey : ∀ c ∈ "temp".toList, isBlank c = false := isBlank_of_mem_words hword
  have hback {text : String} (htext : text.toList.head?.all (!isNumeralChar ·) = true) :
      ∀ c ∈ text.toList.head?, isNumeralChar c = false := fun c hc => by
    simpa using (Option.all_eq_true _ _).mp htext c hc
  have htab : Surrounds "temp".toList "sensor 0: ".toList "\t".toList "*C".toList :=
    ⟨(Option.all_eq_true _ _).mp (by decide +kernel), by decide +kernel,
      List.all_eq_true.mp (by decide), hback (by decide)⟩
  have hunit : Surrounds "temp".toList "".toList "".toList "V temp:1".toList :=
    ⟨(Option.all_eq_true _ _).mp (by decide +kernel), by decide +kernel,
      List.all_eq_true.mp (by decide), hback (by decide)⟩
  have hshape : Shape "-21.50".toList :=
    .signed (.inr rfl) fun c hc => (isNumeralChar_iff c).mp (List.all_eq_true.mp (by decide) c hc)
  have hnumeral : IsNumeral "-21.50".toList := ⟨⟨'2', by decide, by decide⟩, by decide⟩
  have hmagnitude : magnitude "-21.50".toList = 43 / 2 := by
    have hdigits : Decimal.natOfDigits ("-21.50".toList.filter Char.isDigit) = 2150 := by decide
    have hplaces : places "-21.50".toList = 2 := by decide
    rw [magnitude_eq, hdigits, hplaces]
    norm_num
  obtain ⟨x, hx, hnearest, -⟩ :=
    ((reading?_recognised "temp").1 hkey _ _ _ htab).1 "-21.50" hshape hnumeral
  have htext := ((reading?_recognised "temp").1 hkey _ _ _ hunit).2 (.ofRatio true 43 2)
    (by decide +kernel) (by decide +kernel)
  obtain ⟨hnone, hreader⟩ := (reading?_recognised "air temp").2 ⟨' ', by decide, by decide⟩
  refine ⟨⟨x, hx, hmagnitude ▸ hnearest⟩, ?_, hnone _, (hreader {}).1⟩
  have hshortest : (Binary64.ofRatio true 43 2).shortest = "-21.5" := by decide +kernel
  rw [hshortest] at htext
  exact htext

end LineClient
