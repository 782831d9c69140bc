import LineClient.Proofs.Text.Numeral
import LineClient.Settings.Sources

/-!
# What a variable is read as

The text of a variable is a truth value, a whole number, a number or nothing of these, and is read
as the first of them that it is, before anybody knows what the variable is for.

* `TruthWord`, `IntegerText`, what truth values and whole numbers look like;
* `ReadAs`, what a text is read as; **`readAs_iff`**, and nothing else.
-/

namespace LineClient

/-! ## Truth values and whole numbers -/

/-- The text is a truth value, in any case. -/
def TruthWord (text : String) (b : Bool) : Prop :=
  String.ofList (asciiLower text.toList) = toString b

instance (text : String) (b : Bool) : Decidable (TruthWord text b) :=
  inferInstanceAs (Decidable (_ = _))

/-- The text is a whole number of 63 bits and a sign. -/
structure IntegerText (text : String) (i : Int) : Prop where
  read : Decimal.integer? text.toList = some i
  min : -(2 ^ 63) ≤ i
  max : i < 2 ^ 63

section

variable {text : String}

theorem TruthWord.unique {b b' : Bool} (h : TruthWord text b) (h' : TruthWord text b') :
    b = b' := by
  have heq : toString b = toString b' := h.symm.trans h'
  cases b <;> cases b' <;> first | rfl | exact absurd heq (by decide)

/-- Nothing without letters is a truth value. -/
theorem Numeral.Shape.not_truthWord (h : Shape text.toList) (b : Bool) : ¬ TruthWord text b := by
  rw [TruthWord, h.asciiLower_eq, String.ofList_toList]
  rintro rfl
  have he : 'e' ∈ (toString b).toList := by cases b <;> decide
  exact absurd (h.mem he) (by decide)

/-- Every whole number is a number. -/
theorem IntegerText.ne_none {i : Int} (h : IntegerText text i) :
    Binary64.ofText? text.toList ≠ none :=
  Option.ne_none_iff_exists'.mpr (Decimal.ofText?_of_integer? h.read)

theorem integerText_iff {i : Int} : IntegerText text i ↔
    ((Decimal.integer? text.toList).filter fun i => -(2 ^ 63) ≤ i ∧ i < 2 ^ 63) = some i := by
  rw [Option.filter_eq_some_iff, decide_eq_true_iff]
  exact ⟨fun h => ⟨h.read, h.min, h.max⟩, fun ⟨hread, hmin, hmax⟩ => ⟨hread, hmin, hmax⟩⟩

end

/-! ## Reading -/

/-- **What the text of a variable is read as.** -/
inductive ReadAs (text : String) : Scalar → Prop
  | boolean {b : Bool} (h : TruthWord text b) : ReadAs text (.boolean b)
  | integer {i : Int} (hword : ∀ b, ¬ TruthWord text b) (h : IntegerText text i) :
    ReadAs text (.integer i)
  | float {x : Binary64} (hword : ∀ b, ¬ TruthWord text b) (hinteger : ∀ i, ¬ IntegerText text i)
    (h : Binary64.ofText? text.toList = some x) : ReadAs text (.float x)
  | text (hword : ∀ b, ¬ TruthWord text b) (h : Binary64.ofText? text.toList = none) :
    ReadAs text (.text text)

section ReadAs

variable {text : String} {s : Scalar}

theorem readAs_variableValue (text : String) : ReadAs text (variableValue text) := by
  unfold variableValue
  extract_lets word
  split_ifs with htrue hfalse
  · exact .boolean htrue
  · exact .boolean hfalse
  have hword : ∀ b, ¬ TruthWord text b
    | true => htrue
    | false => hfalse
  split
  · next i hi => exact .integer hword (integerText_iff.mpr hi)
  · next hnone =>
    have hinteger (i : Int) (hi : IntegerText text i) : False := by
      rw [integerText_iff.mp hi] at hnone
      cases hnone
    split
    · next x hx => exact .float hword hinteger hx
    · next hx => exact .text hword hx

/-- A text is read in one way. -/
theorem ReadAs.unique {s' : Scalar} (h : ReadAs text s) (h' : ReadAs text s') : s = s' := by
  cases h with
  | boolean hb =>
    cases h' with
    | boolean hb' => rw [hb.unique hb']
    | integer hword | float hword | text hword => exact absurd hb (hword _)
  | integer hword hi =>
    cases h' with
    | boolean hb => exact absurd hb (hword _)
    | integer _ hi' => rw [Option.some.inj (hi.read.symm.trans hi'.read)]
    | float _ hinteger => exact absurd hi (hinteger _)
    | text _ hnone => exact absurd hnone hi.ne_none
  | float hword hinteger hx =>
    cases h' with
    | boolean hb => exact absurd hb (hword _)
    | integer _ hi => exact absurd hi (hinteger _)
    | float _ _ hx' => rw [Option.some.inj (hx.symm.trans hx')]
    | text _ hnone => cases hnone.symm.trans hx
  | text hword hnone =>
    cases h' with
    | boolean hb => exact absurd hb (hword _)
    | integer _ hi => exact absurd hnone hi.ne_none
    | float _ _ hx => cases hnone.symm.trans hx
    | text => rfl

theorem readAs_iff : ReadAs text s ↔ variableValue text = s :=
  ⟨fun h => (readAs_variableValue text).unique h, fun h => h ▸ readAs_variableValue text⟩

end ReadAs

end LineClient
