import LineClient.Proofs.Text.Numeral
import LineClient.Proofs.Text.Words

/-!
# What is read from a text

The words of a text may mention a key, with a value behind the colon or in the next word. The first
mention whose value begins with a numeral is the reading, whatever the other mentions look like.

* `Mentions`, a word that mentions the key, and its value; `Carries`, the numeral in the value;
* `readingAmong?_cons`, the first word against the others; `carries_succ_iff`;
* `readingAmong?_eq_ofText?`, `readingAmong?_eq_none`, the words of a text;
  `isNaN_of_readingAmong?`, what is read is a number;
* **`reading?_grammar`**, a text: just the first numeral is read, as the double nearest to it.
-/

namespace LineClient

open Numeral

/-- The `i`th word mentions the key. Its value is what follows the colon, or, if nothing does, the
next word, if there is one. -/
inductive Mentions (key : List Char) (ts : List (List Char)) (i : Nat) :
    Option (List Char) → Prop
  | attached {value : List Char} (hi : ts[i]? = some (key ++ ':' :: value)) (hne : value ≠ []) :
    Mentions key ts i (some value)
  | apart {value : Option (List Char)} (hi : ts[i]? = some (key ++ [':']))
    (hvalue : value = ts[i + 1]?) : Mentions key ts i value

/-- The `i`th word mentions the key, and the value begins with the numeral `p`. -/
def Carries (key : List Char) (ts : List (List Char)) (i : Nat) (p : List Char) : Prop :=
  ∃ value, Mentions key ts i (some value) ∧ Leads p value ∧ IsNumeral p

/-! ## One word -/

theorem afterKey?_eq_some_iff {key word value : List Char} :
    afterKey? key word = some value ↔ word = key ++ ':' :: value := by
  unfold afterKey?
  constructor
  · intro h
    split_ifs at h with hfront
    obtain ⟨rest, rfl⟩ := List.isPrefixOf_iff_prefix.mp hfront
    cases h
    simp
  · rintro rfl
    have hfront : key ++ [':'] <+: key ++ ':' :: value := ⟨value, by simp⟩
    rw [if_pos (List.isPrefixOf_iff_prefix.mpr hfront)]
    simp

/-- The value that goes with a word, if the word mentions the key. -/
def valueOf? (key word : List Char) (rest : List (List Char)) : Option (List Char) :=
  (afterKey? key word).bind fun value => if value.isEmpty then rest.head? else some value

variable {key word : List Char} {ts : List (List Char)}

/-- **The first word is passed over unless it has a numeral for a value.** -/
theorem readingAmong?_cons (key word : List Char) (ts : List (List Char)) :
    readingAmong? key (word :: ts) =
      ((valueOf? key word ts).bind leadingNumber?).or (readingAmong? key ts) := by
  rw [readingAmong?, valueOf?]
  cases afterKey? key word with
  | none => rfl
  | some value =>
    dsimp only [Option.bind_some]
    cases (if value.isEmpty then ts.head? else some value).bind leadingNumber? <;> rfl

theorem mentions_zero_iff {value : List Char} :
    Mentions key (word :: ts) 0 (some value) ↔ valueOf? key word ts = some value := by
  unfold valueOf?
  rw [Option.bind_eq_some_iff]
  constructor
  · intro h
    cases h with
    | attached hi hne =>
      refine ⟨value, afterKey?_eq_some_iff.mpr (Option.some.inj hi), ?_⟩
      rw [if_neg fun hempty => hne (List.isEmpty_iff.mp hempty)]
    | apart hi hvalue =>
      refine ⟨[], afterKey?_eq_some_iff.mpr (Option.some.inj hi), ?_⟩
      rw [if_pos List.isEmpty_nil, List.head?_eq_getElem?]
      exact hvalue.symm
  · rintro ⟨rest, hafter, hvalue⟩
    rw [afterKey?_eq_some_iff] at hafter
    cases rest with
    | nil =>
      rw [if_pos List.isEmpty_nil, List.head?_eq_getElem?] at hvalue
      exact .apart (congrArg some hafter) hvalue.symm
    | cons c rest =>
      rw [if_neg (by simp)] at hvalue
      cases hvalue
      exact .attached (congrArg some hafter) (List.cons_ne_nil c rest)

theorem mentions_succ_iff {i : Nat} {value : Option (List Char)} :
    Mentions key (word :: ts) (i + 1) value ↔ Mentions key ts i value := by
  constructor
  · intro h
    cases h with
    | attached hi hne => exact .attached hi hne
    | apart hi hvalue => exact .apart hi hvalue
  · intro h
    cases h with
    | attached hi hne => exact .attached hi hne
    | apart hi hvalue => exact .apart hi hvalue

theorem carries_succ_iff {i : Nat} {p : List Char} :
    Carries key (word :: ts) (i + 1) p ↔ Carries key ts i p := by
  simp only [Carries, mentions_succ_iff]

theorem valueOf?_of_carries {p : List Char} (h : Carries key (word :: ts) 0 p) :
    (valueOf? key word ts).bind leadingNumber? = Binary64.ofText? p := by
  obtain ⟨value, hmentions, hleads, -⟩ := h
  rw [mentions_zero_iff.mp hmentions]
  exact leadingNumber?_eq hleads

/-- A value without a numeral is not read. -/
theorem valueOf?_of_not_carries (h : ∀ p, ¬ Carries key (word :: ts) 0 p) :
    (valueOf? key word ts).bind leadingNumber? = none := by
  cases hvalue : valueOf? key word ts with
  | none => rfl
  | some value =>
    obtain ⟨p, -, hleads, -⟩ := exists_leads value
    have hnot : ¬ IsNumeral p := fun hnumeral =>
      h p ⟨value, mentions_zero_iff.mpr hvalue, hleads, hnumeral⟩
    exact (leadingNumber?_eq hleads).trans ((ofText?_spec hleads.shape).2 hnot)

/-! ## All words -/

/-- **The first mention with a numeral is the reading.** -/
theorem readingAmong?_eq_ofText? {i : Nat} {p : List Char} (h : Carries key ts i p)
    (hfirst : ∀ j < i, ∀ q, ¬ Carries key ts j q) :
    readingAmong? key ts = Binary64.ofText? p := by
  -- a word that is passed over shifts the mention to the front by one
  induction ts generalizing i with
  | nil =>
    obtain ⟨value, hmentions, -⟩ := h
    cases hmentions with
    | attached hi => exact absurd hi (by simp)
    | apart hi => exact absurd hi (by simp)
  | cons word ts ih =>
    rw [readingAmong?_cons]
    cases i with
    | zero =>
      obtain ⟨value, hmentions, hleads, hnumeral⟩ := id h
      obtain ⟨x, hx, -⟩ := (ofText?_spec hleads.shape).1 hnumeral
      rw [valueOf?_of_carries h, hx]
      rfl
    | succ i =>
      rw [valueOf?_of_not_carries (hfirst 0 (Nat.succ_pos i)), Option.none_or]
      refine ih (carries_succ_iff.mp h) fun j hj q hq => ?_
      exact hfirst (j + 1) (Nat.succ_lt_succ hj) q (carries_succ_iff.mpr hq)

/-- Without a mention that has a numeral nothing is read. -/
theorem readingAmong?_eq_none (h : ∀ i p, ¬ Carries key ts i p) : readingAmong? key ts = none := by
  induction ts with
  | nil => rfl
  | cons word ts ih =>
    rw [readingAmong?_cons, valueOf?_of_not_carries (h 0), Option.none_or]
    exact ih fun i p hcarries => h (i + 1) p (carries_succ_iff.mpr hcarries)

theorem Carries.read {i : Nat} {p : List Char} (h : Carries key ts i p) :
    ∃ x, Binary64.ofText? p = some x ∧ x.Nearest (negative p) (magnitude p) := by
  obtain ⟨value, -, hleads, hnumeral⟩ := h
  exact (ofText?_spec hleads.shape).1 hnumeral

theorem exists_first (h : ∃ i p, Carries key ts i p) :
    ∃ i p, Carries key ts i p ∧ ∀ j < i, ∀ q, ¬ Carries key ts j q := by
  classical
  obtain ⟨p, hp⟩ := Nat.find_spec h
  exact ⟨Nat.find h, p, hp, fun j hj q hq => Nat.find_min h hj ⟨q, hq⟩⟩

/-- What is read is the numeral of a mention. -/
theorem exists_carries {x : Binary64} (h : readingAmong? key ts = some x) :
    ∃ i p, Carries key ts i p ∧ (∀ j < i, ∀ q, ¬ Carries key ts j q) ∧
      Binary64.ofText? p = some x := by
  have hexists : ∃ i p, Carries key ts i p := by
    by_contra hnone
    rw [readingAmong?_eq_none fun i p hcarries => hnone ⟨i, p, hcarries⟩] at h
    exact Option.some_ne_none x h.symm
  obtain ⟨i, p, hp, hfirst⟩ := exists_first hexists
  exact ⟨i, p, hp, hfirst, (readingAmong?_eq_ofText? hp hfirst).symm.trans h⟩

/-- What is read is never a NaN. -/
theorem isNaN_of_readingAmong? {x : Binary64} (h : readingAmong? key ts = some x) :
    x.isNaN = false := by
  obtain ⟨i, p, hcarries, -, hp⟩ := exists_carries h
  obtain ⟨y, hy, hnearest⟩ := hcarries.read
  rw [hp] at hy
  cases hy
  exact hnearest.isNumber

/-! ## A text -/

/-- **Just the first numeral behind a mention of the key is read.** The words are the longest runs
of the text, the numeral is the longest beginning of the value, and what is read is the double
nearest to it, never a NaN. -/
theorem reading?_grammar (text key : String) :
    ∃ ts, (∀ ts', Runs text.toList ts' ↔ ts' = ts) ∧
      ((reading? text key).isSome = true ↔ ∃ i p, Carries key.toList ts i p) ∧
      (∀ i p, Carries key.toList ts i p → (∀ j < i, ∀ q, ¬ Carries key.toList ts j q) →
        ∃ x, reading? text key = some x ∧ Binary64.ofText? p = some x ∧
          x.Nearest (negative p) (magnitude p)) ∧
      ∀ x, reading? text key = some x → x.isNaN = false := by
  have hread (i : Nat) (p : List Char) (hcarries : Carries key.toList (words text.toList) i p)
      (hfirst : ∀ j < i, ∀ q, ¬ Carries key.toList (words text.toList) j q) :
      ∃ x, reading? text key = some x ∧ Binary64.ofText? p = some x ∧
        x.Nearest (negative p) (magnitude p) := by
    obtain ⟨x, hx, hnearest⟩ := hcarries.read
    exact ⟨x, (readingAmong?_eq_ofText? hcarries hfirst).trans hx, hx, hnearest⟩
  refine ⟨words text.toList, fun ts' => runs_iff, ⟨fun h => ?_, fun h => ?_⟩, hread, fun x hx => ?_⟩
  · obtain ⟨x, hx⟩ := Option.isSome_iff_exists.mp h
    obtain ⟨i, p, hcarries, -⟩ := exists_carries hx
    exact ⟨i, p, hcarries⟩
  · obtain ⟨i, p, hcarries, hfirst⟩ := exists_first h
    obtain ⟨x, hx, -⟩ := hread i p hcarries hfirst
    exact Option.isSome_iff_exists.mpr ⟨x, hx⟩
  · obtain ⟨i, p, hcarries, -, hp⟩ := exists_carries hx
    obtain ⟨y, hy, hnearest⟩ := hcarries.read
    rw [hp] at hy
    cases hy
    exact hnearest.isNumber

/-- The word behind the first mention is itself a mention, and the numeral is there. -/
theorem reading?_grammar_again :
    ∃ x, reading? "temp: temp:-2.5C" "temp" = some x ∧ x.Nearest true (5 / 2) := by
  obtain ⟨ts, hruns, -, hread, -⟩ := reading?_grammar "temp: temp:-2.5C" "temp"
  have hts : ts = ["temp:".toList, "temp:-2.5C".toList] :=
    ((hruns _).mp (runs_iff.mpr (by decide +kernel))).symm
  rw [hts] at hread
  have hfirst : ∀ j < 1, ∀ q,
      ¬ Carries "temp".toList ["temp:".toList, "temp:-2.5C".toList] j q := by
    rintro j hj q ⟨value, hmentions, hleads, hnumeral⟩
    obtain rfl := Nat.lt_one_iff.mp hj
    cases hmentions with
    | attached hi hne =>
      have hword : "temp:".toList = "temp".toList ++ ':' :: value := Option.some.inj hi
      exact hne (by simpa using hword.symm)
    | apart hi hvalue =>
      cases hvalue
      have hhead : ∀ c ∈ "temp:-2.5C".toList.head?, c ≠ '+' ∧ c ≠ '-' := by
        rintro _ ⟨⟩
        decide
      have hnothing : "temp:-2.5C".toList.takeWhile isNumeralChar = [] := by decide
      obtain ⟨c, hc, -⟩ := hnumeral.digit
      rw [hleads.unique (leads_unsigned hhead), hnothing] at hc
      exact List.not_mem_nil hc
  have hleads : Leads "-2.5".toList "-2.5C".toList := leads_signed (.inr rfl) "2.5C".toList
  have hnumeral : IsNumeral "-2.5".toList := ⟨⟨'2', by decide, by decide⟩, by decide⟩
  obtain ⟨x, hx, -, hnearest⟩ := hread 1 "-2.5".toList
    ⟨"-2.5C".toList, .attached rfl (by decide), hleads, hnumeral⟩ hfirst
  have hmagnitude : magnitude "-2.5".toList = 5 / 2 := by
    have hdigits : Nat.ofDigits 10 (("-2.5".toList.filter Char.isDigit).reverse.map
        fun c => c.toNat - '0'.toNat) = 25 := by decide
    have hplaces : places "-2.5".toList = 1 := by decide
    rw [magnitude, hdigits, hplaces]
    norm_num
  exact ⟨x, hx, hmagnitude ▸ hnearest⟩

end LineClient
