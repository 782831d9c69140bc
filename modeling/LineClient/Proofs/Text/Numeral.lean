import LineClient.Proofs.Binary64.Rounding
import LineClient.Reading
import Mathlib.Data.List.TakeWhile
import Mathlib.Data.Nat.Digits.Defs

/-!
# Numerals at the beginning of a word

A word begins with an optional sign and any number of digits and dots. The longest such beginning is
a numeral if it has a digit and at most one dot; its value is exact, and is rounded once.

* `Numeral.Shape`, `Numeral.Leads`, the longest beginning of a word that looks like a numeral;
  `Numeral.exists_leads`, `Numeral.Leads.unique`, there is just one; `Numeral.leads_append`, where
  it ends;
* `Numeral.IsNumeral`, `Numeral.negative`, `Numeral.magnitude`, which of them are numerals, and
  their values;
* `Decimal.ofNumeral?_eq_some`, `Decimal.ofNumeral?_eq_none`, a run of digits and dots;
* **`Numeral.ofText?_spec`**, a numeral is read as the double nearest to its value;
  **`Numeral.leadingNumber?_eq`**, the longest beginning decides what is read;
* `Decimal.integer?_signed`, `Decimal.ofText?_of_integer?`, whole numbers among them.
-/

namespace LineClient

namespace Numeral

/-- An optional sign, and any number of digits and dots. -/
inductive Shape : List Char → Prop
  | unsigned {run : List Char} (hrun : ∀ c ∈ run, c.isDigit = true ∨ c = '.') : Shape run
  | signed {sign : Char} {run : List Char} (hsign : sign = '+' ∨ sign = '-')
    (hrun : ∀ c ∈ run, c.isDigit = true ∨ c = '.') : Shape (sign :: run)

/-- The longest beginning of a word that has the shape of a numeral. -/
structure Leads (p word : List Char) : Prop where
  front : p <+: word
  shape : Shape p
  longest : ∀ q, q <+: word → Shape q → q.length ≤ p.length

/-- At least one digit and at most one dot. -/
structure IsNumeral (p : List Char) : Prop where
  digit : ∃ c ∈ p, c.isDigit = true
  dots : p.count '.' ≤ 1

/-- Whether there is a minus sign in front. -/
def negative (p : List Char) : Bool := p.head? == some '-'

/-- The number of characters behind the first dot. -/
def places (p : List Char) : Nat := (p.dropWhile (· != '.')).length - 1

/-- The number that the digits are, over the power of ten that the dot stands for. -/
def magnitude (p : List Char) : ℚ :=
  (Nat.ofDigits 10 ((p.filter Char.isDigit).reverse.map fun c => c.toNat - '0'.toNat) : ℕ) /
    10 ^ places p

/-! ## The longest beginning -/

theorem isNumeralChar_iff (c : Char) : isNumeralChar c = true ↔ c.isDigit = true ∨ c = '.' := by
  simp [isNumeralChar]

theorem not_of_sign {c : Char} (h : c = '+' ∨ c = '-') : ¬ (c.isDigit = true ∨ c = '.') := by
  rcases h with rfl | rfl <;> decide

/-- A beginning without any other characters is one of the longest one. -/
theorem length_le_takeWhile {q word : List Char} (hq : q <+: word)
    (hall : ∀ c ∈ q, c.isDigit = true ∨ c = '.') :
    q.length ≤ (word.takeWhile isNumeralChar).length := by
  obtain ⟨rest, rfl⟩ := hq
  rw [List.takeWhile_append_of_pos fun c hc => (isNumeralChar_iff c).mpr (hall c hc),
    List.length_append]
  exact Nat.le_add_right _ _

theorem mem_takeWhile {word : List Char} {c : Char} (hc : c ∈ word.takeWhile isNumeralChar) :
    c.isDigit = true ∨ c = '.' := (isNumeralChar_iff c).mp (List.mem_takeWhile_imp hc)

/-- A word without a sign. -/
theorem leads_unsigned {word : List Char} (hword : ∀ c ∈ word.head?, c ≠ '+' ∧ c ≠ '-') :
    Leads (word.takeWhile isNumeralChar) word where
  front := List.takeWhile_prefix _
  shape := .unsigned fun _ => mem_takeWhile
  longest q hq hshape := by
    cases hshape with
    | unsigned hrun => exact length_le_takeWhile hq hrun
    | @signed sign run hsign hrun =>
      obtain ⟨rest, rfl⟩ := hq
      obtain ⟨hplus, hminus⟩ := hword sign rfl
      exact absurd hsign (by simp [hplus, hminus])

theorem leads_signed {sign : Char} (hsign : sign = '+' ∨ sign = '-') (word : List Char) :
    Leads (sign :: word.takeWhile isNumeralChar) (sign :: word) where
  front := (List.prefix_cons_inj sign).mpr (List.takeWhile_prefix _)
  shape := .signed hsign fun _ => mem_takeWhile
  longest q hq hshape := by
    cases hshape with
    | unsigned hrun =>
      cases q with
      | nil => exact Nat.zero_le _
      | cons c q =>
        obtain rfl := (List.cons_prefix_cons.mp hq).1
        exact absurd (hrun c List.mem_cons_self) (not_of_sign hsign)
    | signed _ hrun =>
      exact Nat.succ_le_succ (length_le_takeWhile (List.cons_prefix_cons.mp hq).2 hrun)

/-- A beginning ends where a character that is no part of a numeral follows. -/
theorem leads_append {p rest : List Char} (hshape : Shape p) (hne : p ≠ [])
    (hrest : ∀ c ∈ rest.head?, isNumeralChar c = false) : Leads p (p ++ rest) := by
  have htake {run : List Char} (hrun : ∀ c ∈ run, c.isDigit = true ∨ c = '.') :
      (run ++ rest).takeWhile isNumeralChar = run := by
    rw [List.takeWhile_append_of_pos fun c hc => (isNumeralChar_iff c).mpr (hrun c hc)]
    cases rest with
    | nil => exact List.append_nil run
    | cons c rest =>
      rw [List.takeWhile_cons_of_neg (Bool.not_eq_true _ ▸ hrest c rfl), List.append_nil]
  cases hshape with
  | unsigned hrun =>
    have hhead : ∀ c ∈ (p ++ rest).head?, c ≠ '+' ∧ c ≠ '-' := by
      obtain ⟨c, p, rfl⟩ := List.exists_cons_of_ne_nil hne
      rintro _ ⟨⟩
      have hc := hrun c List.mem_cons_self
      exact ⟨fun heq => not_of_sign (.inl heq) hc, fun heq => not_of_sign (.inr heq) hc⟩
    have hleads := leads_unsigned hhead
    rwa [htake hrun] at hleads
  | @signed sign run hsign hrun =>
    have hleads := leads_signed hsign (run ++ rest)
    rwa [htake hrun] at hleads

theorem Leads.unique {p q word : List Char} (hp : Leads p word) (hq : Leads q word) : p = q :=
  (List.prefix_of_prefix_length_le hp.front hq.front (hq.longest p hp.front hp.shape)).eq_of_length
    (Nat.le_antisymm (hq.longest p hp.front hp.shape) (hp.longest q hq.front hq.shape))

end Numeral

/-! ## Runs of digits and dots -/

namespace Decimal

theorem natOfDigits_eq (cs : List Char) :
    natOfDigits cs = Nat.ofDigits 10 (cs.reverse.map fun c => c.toNat - '0'.toNat) := by
  rw [natOfDigits, ← List.foldr_reverse, Nat.ofDigits_eq_foldr, List.foldr_map]
  congr 1
  funext c n
  rw [Nat.cast_id, Nat.add_comm]

/-- The decimal that a numeral without a sign is. -/
def ofRun (negative : Bool) (run : List Char) : Decimal :=
  ⟨negative, natOfDigits (run.filter Char.isDigit), -(Numeral.places run : ℤ)⟩

theorem bne_dot_of_isDigit {c : Char} (h : c.isDigit = true) : (c != '.') = true := by
  refine bne_iff_ne.mpr fun hdot => ?_
  rw [hdot] at h
  exact absurd h (by decide)

theorem count_dot_of_all {cs : List Char} (h : ∀ c ∈ cs, c.isDigit = true) : cs.count '.' = 0 :=
  List.count_eq_zero.mpr fun hmem => bne_iff_ne.mp (bne_dot_of_isDigit (h _ hmem)) rfl

variable {run : List Char} (hrun : ∀ c ∈ run, c.isDigit = true ∨ c = '.')

include hrun in
/-- A run is digits alone, or digits, a dot, and the rest. -/
theorem run_cases : (∀ c ∈ run, c.isDigit = true) ∨
    ∃ whole rest, run = whole ++ '.' :: rest ∧ ∀ c ∈ whole, c.isDigit = true := by
  by_cases hall : ∀ c ∈ run, c.isDigit = true
  · exact .inl hall
  · right
    obtain ⟨c, rest, hdrop⟩ : ∃ c rest, run.dropWhile Char.isDigit = c :: rest := by
      refine List.exists_cons_of_ne_nil fun hnil => hall ?_
      exact List.dropWhile_eq_nil_iff.mp hnil
    have hsplit := List.takeWhile_append_dropWhile (p := Char.isDigit) (l := run)
    rw [hdrop] at hsplit
    have hc : c = '.' := by
      have hmem : c ∈ run := hsplit ▸ List.mem_append_right _ List.mem_cons_self
      refine (hrun c hmem).resolve_left fun hdigit => ?_
      have hhead := List.head?_dropWhile_not Char.isDigit run
      rw [hdrop] at hhead
      simp [hdigit] at hhead
    rw [hc] at hsplit
    exact ⟨_, rest, hsplit.symm, fun d hd => List.mem_takeWhile_imp hd⟩

variable (negative : Bool)

/-- Digits alone. -/
theorem ofNumeral?_digits (hdigits : ∀ c ∈ run, c.isDigit = true) :
    ofNumeral? negative run = if run = [] then none else some (ofRun negative run) := by
  have hplaces : Numeral.places run = 0 := by
    rw [Numeral.places, List.dropWhile_eq_nil_iff.mpr fun c hc => bne_dot_of_isDigit (hdigits c hc)]
    rfl
  rw [ofNumeral?, List.dropWhile_eq_nil_iff.mpr hdigits, List.takeWhile_eq_self_iff.mpr hdigits,
    ofRun, hplaces, List.filter_eq_self.mpr hdigits]
  simp

/-- Digits, a dot, and more characters. -/
theorem ofNumeral?_dot {whole rest : List Char} (hwhole : ∀ c ∈ whole, c.isDigit = true) :
    ofNumeral? negative (whole ++ '.' :: rest) =
      if rest.all Char.isDigit = true ∧ whole ++ rest ≠ [] then
        some (ofRun negative (whole ++ '.' :: rest))
      else none := by
  have hplaces : Numeral.places (whole ++ '.' :: rest) = rest.length := by
    rw [Numeral.places,
      List.dropWhile_append_of_pos fun c hc => bne_dot_of_isDigit (hwhole c hc)]
    rfl
  have htake : (whole ++ '.' :: rest).takeWhile Char.isDigit = whole := by
    rw [List.takeWhile_append_of_pos hwhole, List.takeWhile_cons_of_neg (by decide),
      List.append_nil]
  have hdrop : (whole ++ '.' :: rest).dropWhile Char.isDigit = '.' :: rest := by
    rw [List.dropWhile_append_of_pos hwhole, List.dropWhile_cons_of_neg (by decide)]
  rw [ofNumeral?, hdrop, htake]
  by_cases h : rest.all Char.isDigit = true ∧ whole ++ rest ≠ []
  · have hfilter : (whole ++ '.' :: rest).filter Char.isDigit = whole ++ rest := by
      rw [List.filter_append, List.filter_eq_self.mpr hwhole,
        List.filter_cons_of_neg (by decide),
        List.filter_eq_self.mpr (List.all_eq_true.mp h.1)]
    rw [if_pos h, ofRun, hplaces, hfilter]
    refine if_pos ⟨rfl, h.1, ?_⟩
    simpa using h.2
  · rw [if_neg h]
    refine if_neg fun h' => h ⟨h'.2.1, ?_⟩
    simpa using h'.2.2

include hrun in
/-- **What has a digit and at most one dot is a decimal**, and nothing else. -/
theorem ofNumeral?_eq_some (h : Numeral.IsNumeral run) :
    ofNumeral? negative run = some (ofRun negative run) := by
  obtain ⟨d, hd, hdigit⟩ := h.digit
  rcases run_cases hrun with hdigits | ⟨whole, rest, rfl, hwhole⟩
  · rw [ofNumeral?_digits negative hdigits, if_neg (List.ne_nil_of_mem hd)]
  · have hdots := h.dots
    rw [List.count_append, count_dot_of_all hwhole, List.count_cons_self] at hdots
    have hrest : ∀ c ∈ rest, c.isDigit = true := fun c hc => by
      have hmem : c ∈ whole ++ '.' :: rest :=
        List.mem_append_right _ (List.mem_cons_of_mem _ hc)
      refine (hrun c hmem).resolve_right fun hdot => ?_
      exact absurd (hdot ▸ hc) (List.count_eq_zero.mp (by omega))
    rw [ofNumeral?_dot negative hwhole]
    refine if_pos ⟨List.all_eq_true.mpr hrest, ?_⟩
    rcases List.mem_append.mp hd with hd | hd
    · exact List.ne_nil_of_mem (List.mem_append_left _ hd)
    · rcases List.mem_cons.mp hd with rfl | hd
      · exact absurd hdigit (by decide)
      · exact List.ne_nil_of_mem (List.mem_append_right _ hd)

include hrun in
theorem ofNumeral?_eq_none (h : ¬ Numeral.IsNumeral run) : ofNumeral? negative run = none := by
  rcases run_cases hrun with hdigits | ⟨whole, rest, rfl, hwhole⟩
  · rw [ofNumeral?_digits negative hdigits, if_pos]
    by_contra hne
    obtain ⟨c, hc⟩ := List.exists_mem_of_ne_nil run hne
    exact h ⟨⟨c, hc, hdigits c hc⟩, by rw [count_dot_of_all hdigits]; exact Nat.zero_le 1⟩
  · rw [ofNumeral?_dot negative hwhole, if_neg]
    rintro ⟨hall, hne⟩
    have hrest := List.all_eq_true.mp hall
    obtain ⟨c, hc⟩ := List.exists_mem_of_ne_nil _ hne
    refine h ⟨⟨c, ?_, ?_⟩, ?_⟩
    · exact (List.mem_append.mp hc).elim (List.mem_append_left _) fun hc =>
        List.mem_append_right _ (List.mem_cons_of_mem _ hc)
    · exact (List.mem_append.mp hc).elim (hwhole c) (hrest c)
    · rw [List.count_append, count_dot_of_all hwhole, List.count_cons_self,
        count_dot_of_all hrest]

end Decimal

/-! ## With a sign -/

namespace Numeral

theorem splitSign_of_unsigned {cs : List Char} (h : ∀ c ∈ cs.head?, c ≠ '+' ∧ c ≠ '-') :
    Decimal.splitSign cs = (false, cs) := by
  unfold Decimal.splitSign
  split
  · exact absurd rfl (h '+' rfl).1
  · exact absurd rfl (h '-' rfl).2
  · rfl

theorem splitSign_fst (p : List Char) : (Decimal.splitSign p).1 = negative p := by
  cases p with
  | nil => rfl
  | cons c rest =>
    by_cases hc : c = '+' ∨ c = '-'
    · rcases hc with rfl | rfl <;> rfl
    · obtain ⟨hplus, hminus⟩ := not_or.mp hc
      rw [splitSign_of_unsigned (by rintro _ ⟨⟩; exact ⟨hplus, hminus⟩)]
      exact (beq_eq_false_iff_ne.mpr fun heq => hminus (Option.some.inj heq)).symm

/-- A run of digits and dots has no sign. -/
theorem negative_run {run : List Char} (hrun : ∀ c ∈ run, c.isDigit = true ∨ c = '.') :
    negative run = false ∧ Decimal.splitSign run = (false, run) := by
  have hhead : ∀ c ∈ run.head?, c ≠ '+' ∧ c ≠ '-' := fun c hc => by
    have hmem := hrun c (List.mem_of_mem_head? hc)
    exact ⟨fun heq => not_of_sign (.inl heq) hmem, fun heq => not_of_sign (.inr heq) hmem⟩
  refine ⟨?_, splitSign_of_unsigned hhead⟩
  unfold negative
  cases hc : run.head? with
  | none => rfl
  | some c => exact beq_eq_false_iff_ne.mpr fun heq => (hhead c hc).2 (Option.some.inj heq)

/-- What has the shape of a numeral is a sign, or none, and a run of digits and dots. -/
theorem Shape.exists_run {p : List Char} (h : Shape p) :
    ∃ sign run, p = sign ++ run ∧ Decimal.splitSign p = (negative p, run) ∧
      (∀ c ∈ sign, c.isDigit = false ∧ c ≠ '.') ∧ ∀ c ∈ run, c.isDigit = true ∨ c = '.' := by
  cases h with
  | unsigned hrun =>
    obtain ⟨hnegative, hsplit⟩ := negative_run hrun
    exact ⟨[], p, rfl, by rw [hsplit, hnegative], fun _ hno => (List.not_mem_nil hno).elim, hrun⟩
  | @signed sign run hsign hrun =>
    refine ⟨[sign], run, rfl, ?_, fun c hc => ?_, hrun⟩
    · rcases hsign with rfl | rfl <;> rfl
    · obtain ⟨hdigit, hdot⟩ := not_or.mp (not_of_sign hsign)
      rw [List.mem_singleton.mp hc]
      exact ⟨Bool.eq_false_of_not_eq_true hdigit, hdot⟩

variable {sign run : List Char} (hsign : ∀ c ∈ sign, c.isDigit = false ∧ c ≠ '.')

include hsign

theorem isNumeral_append : IsNumeral (sign ++ run) ↔ IsNumeral run := by
  have hdigit : (∃ c ∈ sign ++ run, c.isDigit = true) ↔ ∃ c ∈ run, c.isDigit = true := by
    refine ⟨fun ⟨c, hc, h⟩ => ⟨c, ?_, h⟩, fun ⟨c, hc, h⟩ => ⟨c, List.mem_append_right _ hc, h⟩⟩
    refine (List.mem_append.mp hc).resolve_left fun hc => ?_
    rw [(hsign c hc).1] at h
    exact Bool.false_ne_true h
  have hcount : (sign ++ run).count '.' = run.count '.' := by
    have hzero : sign.count '.' = 0 := List.count_eq_zero.mpr fun hmem => (hsign _ hmem).2 rfl
    rw [List.count_append, hzero, Nat.zero_add]
  refine ⟨fun h => ⟨hdigit.mp h.digit, ?_⟩, fun h => ⟨hdigit.mpr h.digit, ?_⟩⟩
  · exact hcount ▸ h.dots
  · exact hcount ▸ h.dots

theorem magnitude_append : magnitude (sign ++ run) = magnitude run := by
  have hfilter : (sign ++ run).filter Char.isDigit = run.filter Char.isDigit := by
    have hnone : sign.filter Char.isDigit = [] := List.filter_eq_nil_iff.mpr fun c hc => by
      rw [(hsign c hc).1]
      exact Bool.false_ne_true
    rw [List.filter_append, hnone, List.nil_append]
  have hplaces : places (sign ++ run) = places run := by
    unfold places
    rw [List.dropWhile_append_of_pos fun c hc => bne_iff_ne.mpr (hsign c hc).2]
  rw [magnitude, magnitude, hfilter, hplaces]

omit hsign

/-- The value of a decimal that is read from a run. -/
theorem magnitude_ofRun (neg : Bool) (run : List Char) :
    (Decimal.ofRun neg run).magnitude = magnitude run := by
  rw [Decimal.magnitude, magnitude, Decimal.ofRun, Decimal.natOfDigits_eq, zpow_neg, zpow_natCast,
    div_eq_mul_inv]

/-! ## Reading -/

theorem toLower_eq {c : Char} (hc : c.isDigit = true ∨ c = '.') : c.toLower = c := by
  rcases hc with hdigit | rfl
  · rw [Char.isDigit, Bool.and_eq_true] at hdigit
    refine dif_neg fun hupper => ?_
    exact absurd (UInt32.le_trans hupper.1 (of_decide_eq_true hdigit.2)) (by decide)
  · decide

theorem asciiLower_run {run : List Char} (hrun : ∀ c ∈ run, c.isDigit = true ∨ c = '.') :
    asciiLower run = run :=
  (List.map_congr_left fun c hc => toLower_eq (hrun c hc)).trans (List.map_id run)

/-- There are no letters in what has the shape of a numeral. -/
theorem Shape.asciiLower_eq {p : List Char} (h : Shape p) : asciiLower p = p := by
  cases h with
  | unsigned hrun => exact asciiLower_run hrun
  | @signed sign run hsign hrun =>
    have hlower : sign.toLower = sign := by rcases hsign with rfl | rfl <;> decide
    exact congrArg₂ List.cons hlower (asciiLower_run hrun)

theorem Shape.mem {p : List Char} (h : Shape p) {c : Char} (hc : c ∈ p) :
    c.isDigit = true ∨ c = '.' ∨ c = '+' ∨ c = '-' := by
  cases h with
  | unsigned hrun => exact (hrun c hc).imp_right .inl
  | signed hsign hrun =>
    rcases List.mem_cons.mp hc with rfl | hc
    · exact .inr (.inr hsign)
    · exact (hrun c hc).imp_right .inl

/-- There is no exponent in a run of digits and dots, and no name is one. -/
theorem ofText?_eq {p : List Char} (hsplit : Decimal.splitSign p = (negative p, run))
    (hrun : ∀ c ∈ run, c.isDigit = true ∨ c = '.') :
    Binary64.ofText? p = (Decimal.ofNumeral? (negative p) run).map Decimal.nearest := by
  have hname (name : String) (hname : 'n' ∈ name.toList) : String.ofList run ≠ name := by
    rintro rfl
    rw [String.toList_ofList] at hname
    exact absurd (hrun _ hname) (by decide)
  have hmark : run.dropWhile (fun c => !(c == 'e' || c == 'E')) = [] := by
    refine List.dropWhile_eq_nil_iff.mpr fun c hc => ?_
    rcases hrun c hc with hdigit | rfl
    · have he : c ≠ 'e' := fun heq => absurd (heq ▸ hdigit) (by decide)
      have hE : c ≠ 'E' := fun heq => absurd (heq ▸ hdigit) (by decide)
      simp [he, hE]
    · decide
  rw [Binary64.ofText?, hsplit]
  dsimp only
  rw [asciiLower_run hrun, if_neg, if_neg (hname "nan" (by decide)), Decimal.ofText?, hsplit]
  · dsimp only
    rw [hmark]
  · rintro (h | h)
    · exact hname "inf" (by decide) h
    · exact hname "infinity" (by decide) h

/-- **A numeral is read as the double nearest to its value**, and nothing else of its shape is read
at all. -/
theorem ofText?_spec {p : List Char} (hshape : Shape p) :
    (IsNumeral p → ∃ x, Binary64.ofText? p = some x ∧ x.Nearest (negative p) (magnitude p)) ∧
      (¬ IsNumeral p → Binary64.ofText? p = none) := by
  obtain ⟨sign, run, rfl, hsplit, hsign, hrun⟩ := hshape.exists_run
  rw [ofText?_eq hsplit hrun, isNumeral_append hsign, magnitude_append hsign]
  refine ⟨fun h => ?_, fun h => ?_⟩
  · rw [Decimal.ofNumeral?_eq_some hrun _ h]
    have hnearest := (Decimal.ofRun (negative (sign ++ run)) run).nearest_spec
    rw [magnitude_ofRun] at hnearest
    exact ⟨_, rfl, hnearest⟩
  · rw [Decimal.ofNumeral?_eq_none hrun _ h]
    rfl

/-- Every word has a longest beginning: its sign, if it has one, and the run behind it. -/
theorem exists_leads (word : List Char) : ∃ p rest, Leads p word ∧
    Decimal.splitSign word = (negative p, rest) ∧
    Decimal.splitSign p = (negative p, rest.takeWhile isNumeralChar) := by
  have hunsigned (hhead : ∀ c ∈ word.head?, c ≠ '+' ∧ c ≠ '-') :
      ∃ p rest, Leads p word ∧ Decimal.splitSign word = (negative p, rest) ∧
        Decimal.splitSign p = (negative p, rest.takeWhile isNumeralChar) := by
    obtain ⟨hnegative, hsplit⟩ := negative_run fun c (hc : c ∈ word.takeWhile _) => mem_takeWhile hc
    refine ⟨_, word, leads_unsigned hhead, ?_, ?_⟩
    · rw [splitSign_of_unsigned hhead, hnegative]
    · rw [hsplit, hnegative]
  cases word with
  | nil => exact hunsigned fun _ hno => nomatch hno
  | cons c rest =>
    by_cases hc : c = '+' ∨ c = '-'
    · refine ⟨_, rest, leads_signed hc rest, ?_, ?_⟩ <;> rcases hc with rfl | rfl <;> rfl
    · refine hunsigned ?_
      rintro _ ⟨⟩
      exact not_or.mp hc

/-- **The longest beginning decides what is read.** -/
theorem leadingNumber?_eq {p word : List Char} (h : Leads p word) :
    leadingNumber? word = Binary64.ofText? p := by
  obtain ⟨q, rest, hq, hword, hsplit⟩ := exists_leads word
  rw [h.unique hq, ofText?_eq hsplit fun _ => mem_takeWhile, leadingNumber?, hword]

end Numeral

/-! ## Whole numbers -/

namespace Decimal

/-- A run behind a minus sign, or alone, is a whole number if it consists of digits. -/
theorem integer?_signed (negative : Bool) {run : List Char}
    (hrun : ∀ c ∈ run, c.isDigit = true ∨ c = '.') :
    integer? ((if negative then ['-'] else []) ++ run) =
      if run ≠ [] ∧ run.all Char.isDigit = true then
        some (if negative then -(natOfDigits run : Int) else natOfDigits run)
      else none := by
  have hsplit : splitSign ((if negative then ['-'] else []) ++ run) = (negative, run) := by
    cases negative with
    | false => exact (Numeral.negative_run hrun).2
    | true => rfl
  rw [integer?, hsplit]
  cases run with
  | nil => rfl
  | cons c rest => cases hall : (c :: rest).all Char.isDigit <;> cases negative <;> simp [hall]

/-- There is no point in a whole number. -/
theorem integer?_of_dot (negative : Bool) {run : List Char}
    (hrun : ∀ c ∈ run, c.isDigit = true ∨ c = '.') (hdot : '.' ∈ run) :
    integer? ((if negative then ['-'] else []) ++ run) = none := by
  rw [integer?_signed negative hrun, if_neg]
  rintro ⟨-, hall⟩
  exact absurd (List.all_eq_true.mp hall '.' hdot) (by decide)

/-- Every whole number is a number. -/
theorem ofText?_of_integer? {p : List Char} {i : Int} (h : integer? p = some i) :
    ∃ x, Binary64.ofText? p = some x := by
  have hsplit : splitSign p = (Numeral.negative p, (splitSign p).2) :=
    Prod.ext (Numeral.splitSign_fst p) rfl
  generalize (splitSign p).2 = run at hsplit
  rw [integer?, hsplit] at h
  dsimp only at h
  split_ifs at h with hnone
  all_goals
    obtain ⟨hne, hall⟩ : run ≠ [] ∧ ∀ c ∈ run, c.isDigit = true := by simpa using hnone
    rw [Numeral.ofText?_eq hsplit fun c hc => .inl (hall c hc), ofNumeral?_digits _ hall,
      if_neg hne]
    exact ⟨_, rfl⟩

end Decimal

end LineClient
