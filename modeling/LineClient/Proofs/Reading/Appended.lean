import LineClient.Proofs.Reading.Grammar

/-!
# Readings of a text that goes on

When a text goes on behind a blank its words stay, and so does its reading, if it has one. If it has
none, the reading is that of the text behind it. There is one exception: a key and a colon that are
the last word take the first word behind them for their value.

* `seam?`, the value that such a key takes;
* `readingAmong?_append`, the words of one text and then those of another;
* **`reading?_append`**, one text and then another.
-/

namespace LineClient

/-- The number that the first of the words `us` gives a key and a colon at the end of `ts`. -/
def seam? (key : List Char) (ts us : List (List Char)) : Option Binary64 :=
  if ts.getLast? = some (key ++ [':']) then us.head?.bind leadingNumber? else none

section

variable {key word : List Char} {ts us : List (List Char)}

theorem seam?_of_ne (hlast : ts.getLast? ≠ some (key ++ [':'])) : seam? key ts us = none :=
  if_neg hlast

theorem seam?_cons (hne : ts ≠ []) : seam? key (word :: ts) us = seam? key ts us := by
  rw [seam?, seam?, List.getLast?_cons, List.getLast?_eq_some_getLast hne, Option.getD_some]

/-- Only the word that follows can be the value of a word. -/
theorem valueOf?_append (hne : ts ≠ []) (us : List (List Char)) :
    valueOf? key word (ts ++ us) = valueOf? key word ts := by
  rw [valueOf?, valueOf?, List.head?_append, Option.or_of_isSome (List.isSome_head?.mpr hne)]

/-- The last word, which others follow now. -/
theorem valueOf?_last (key word : List Char) (us : List (List Char)) :
    (valueOf? key word us).bind leadingNumber? =
      ((valueOf? key word []).bind leadingNumber?).or (seam? key [word] us) := by
  rw [valueOf?, valueOf?]
  cases hafter : afterKey? key word with
  | none =>
    have hword : word ≠ key ++ [':'] := by
      rintro rfl
      rw [afterKey?_eq_some_iff.mpr rfl] at hafter
      exact Option.some_ne_none _ hafter
    have hlast : [word].getLast? ≠ some (key ++ [':']) := fun hlast =>
      hword (Option.some.inj hlast)
    rw [seam?_of_ne hlast]
    rfl
  | some value =>
    obtain rfl := afterKey?_eq_some_iff.mp hafter
    cases value with
    | nil => exact (if_pos rfl).symm
    | cons c value =>
      rw [seam?_of_ne (by simp), Option.or_none]
      rfl

end

/-- **The words of one text and then those of another.** A reading among the first ones stays; then
comes the value that the last of them takes from the others, and then the reading among these. -/
theorem readingAmong?_append (key : List Char) (ts us : List (List Char)) :
    readingAmong? key (ts ++ us) =
      (readingAmong? key ts).or ((seam? key ts us).or (readingAmong? key us)) := by
  induction ts with
  | nil => rfl
  | cons word ts ih =>
    rw [List.cons_append, readingAmong?_cons, readingAmong?_cons]
    by_cases hne : ts = []
    · subst hne
      have hnil : readingAmong? key [] = none := rfl
      rw [List.nil_append, valueOf?_last, hnil, Option.or_none, Option.or_assoc]
    · rw [ih, valueOf?_append hne, seam?_cons hne, Option.or_assoc]

/-- **A reading stays when the text goes on behind a blank**, and without one what follows is read,
unless the last word is just the key and a colon. In this case the first word that follows comes
before all others. -/
theorem reading?_append (key front back : String)
    (hfront : ∀ c ∈ front.toList.getLast?, isBlank c = true) :
    ((words front.toList).getLast? ≠ some (key.toList ++ [':']) →
        reading? (front ++ back) key = (reading? front key).or (reading? back key)) ∧
      (∀ x, reading? front key = some x → reading? (front ++ back) key = some x) ∧
      ((words front.toList).getLast? = some (key.toList ++ [':']) → reading? front key = none →
        reading? (front ++ back) key =
          ((words back.toList).head?.bind leadingNumber?).or (reading? back key)) := by
  have happend : reading? (front ++ back) key = (reading? front key).or
      ((seam? key.toList (words front.toList) (words back.toList)).or (reading? back key)) := by
    rw [reading?, String.toList_append, words_append hfront, readingAmong?_append]
    rfl
  refine ⟨fun hlast => ?_, fun x hx => ?_, fun hlast hnone => ?_⟩
  · rw [happend, seam?_of_ne hlast, Option.none_or]
  · rw [happend, hx, Option.some_or]
  · rw [happend, hnone, Option.none_or, seam?, if_pos hlast]

/-- A reply with another one behind it: a value that is no number, a number, and a key that is left
without a value. -/
theorem reading?_append_replies :
    let one : String := "load: 1 temp: n/a\n"
    let two : String := "temp: 21\n"
    let three : String := "> temp:\n"
    reading? (one ++ two) "temp" = some (.ofNat 21) ∧
      reading? (two ++ "temp: 22") "temp" = some (.ofNat 21) ∧
      reading? (three ++ "23 temp: 24") "temp" = some (.ofNat 23) := by
  intro one two three
  have hblank {front : String} (hlast : front.toList.getLast?.all isBlank = true) :
      ∀ c ∈ front.toList.getLast?, isBlank c = true := (Option.all_eq_true _ _).mp hlast
  have hone := (reading?_append "temp" one two (hblank (by decide +kernel))).1 (by decide +kernel)
  have htwo := (reading?_append "temp" two "temp: 22" (hblank (by decide +kernel))).2.1 (.ofNat 21)
    (by decide +kernel)
  have hthree := (reading?_append "temp" three "23 temp: 24" (hblank (by decide +kernel))).2.2
    (by decide +kernel) (by decide +kernel)
  exact ⟨hone.trans (by decide +kernel), htwo, hthree.trans (by decide +kernel)⟩

end LineClient
