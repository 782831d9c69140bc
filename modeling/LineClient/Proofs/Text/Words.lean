import LineClient.Text.Blank
import Mathlib.Data.List.TakeWhile

/-!
# The words of a text

The words of a text are its longest runs of characters that are not blank, in order.

* `Runs`, how a text is made of blanks and of such runs;
* `Runs.foldr_eq`, `exists_runs`; **`runs_iff`**, there is one way to make a text, by its words;
* `isBlank_of_mem_words`, `words_eq_nil`, blanks and words; `words_append`, `words_run`, texts that
  are put together.
-/

namespace LineClient

/-- A text is made of blanks and of the runs of other characters. A run ends only where a blank
begins or the text ends. -/
inductive Runs : List Char → List (List Char) → Prop
  | nil : Runs [] []
  | blank {c : Char} {text : List Char} {ts : List (List Char)} (hc : isBlank c = true)
    (h : Runs text ts) : Runs (c :: text) ts
  | run {r text : List Char} {ts : List (List Char)} (hne : r ≠ [])
    (hr : ∀ c ∈ r, isBlank c = false) (hend : ∀ c ∈ text.head?, isBlank c = true)
    (h : Runs text ts) : Runs (r ++ text) (r :: ts)

theorem consToWords_of_blank {c : Char} (hc : isBlank c = true)
    (cut : List (List Char) × Bool) : consToWords c cut = (cut.1, false) := by
  unfold consToWords
  dsimp only
  rw [if_pos hc]

theorem consToWords_begin {c : Char} (hc : isBlank c = false) (ts : List (List Char)) :
    consToWords c (ts, false) = ([c] :: ts, true) := by
  unfold consToWords
  dsimp only
  rw [if_neg (by rw [hc]; exact Bool.false_ne_true)]

theorem consToWords_continue {c : Char} (hc : isBlank c = false) (w : List Char)
    (ts : List (List Char)) : consToWords c (w :: ts, true) = ((c :: w) :: ts, true) := by
  unfold consToWords
  dsimp only
  rw [if_neg (by rw [hc]; exact Bool.false_ne_true)]

/-- A run in front of a text that does not begin with one. -/
theorem foldr_run {r text : List Char} {ts : List (List Char)} (hne : r ≠ [])
    (hr : ∀ c ∈ r, isBlank c = false)
    (htext : text.foldr consToWords ([], false) = (ts, false)) :
    (r ++ text).foldr consToWords ([], false) = (r :: ts, true) := by
  induction r with
  | nil => exact absurd rfl hne
  | cons c r ih =>
    have hc := hr c List.mem_cons_self
    cases r with
    | nil => rw [List.cons_append, List.foldr_cons, List.nil_append, htext, consToWords_begin hc]
    | cons d r =>
      have hrest := ih (List.cons_ne_nil d r) fun c' hc' => hr c' (List.mem_cons_of_mem c hc')
      rw [List.cons_append, List.foldr_cons, hrest, consToWords_continue hc]

/-- The flag that goes along with the words tells whether the text begins with one. -/
theorem Runs.foldr_eq {text : List Char} {ts : List (List Char)} (h : Runs text ts) :
    text.foldr consToWords ([], false) = (ts, text.head?.any fun c => !isBlank c) := by
  induction h with
  | nil => rfl
  | blank hc h ih =>
    rw [List.foldr_cons, consToWords_of_blank hc, ih]
    simp [hc]
  | @run r text ts hne hr hend h ih =>
    have hflag : (text.head?.any fun c => !isBlank c) = false := by
      cases hhead : text.head? with
      | none => rfl
      | some c => simp [hend c hhead]
    rw [hflag] at ih
    rw [foldr_run hne hr ih]
    obtain ⟨c, r, rfl⟩ := List.exists_cons_of_ne_nil hne
    simp [hr c List.mem_cons_self]

theorem exists_runs (text : List Char) : ∃ ts, Runs text ts := by
  induction text with
  | nil => exact ⟨[], .nil⟩
  | cons c text ih =>
    obtain ⟨ts, h⟩ := ih
    -- a character that is not blank joins the run it stands before, if it stands before one
    cases hc : isBlank c with
    | true => exact ⟨ts, .blank hc h⟩
    | false =>
      have hone : ∀ d ∈ [c], isBlank d = false := fun d hd => List.mem_singleton.mp hd ▸ hc
      cases h with
      | nil => exact ⟨[[c]], .run (List.cons_ne_nil c []) hone (fun _ hno => nomatch hno) .nil⟩
      | blank hc' h =>
        refine ⟨[c] :: ts, .run (List.cons_ne_nil c []) hone ?_ (.blank hc' h)⟩
        rintro _ ⟨⟩
        exact hc'
      | @run r text ts hne hr hend h =>
        refine ⟨(c :: r) :: ts, .run (List.cons_ne_nil c r) (fun d hd => ?_) hend h⟩
        rcases List.mem_cons.mp hd with rfl | hd
        · exact hc
        · exact hr d hd

/-- **A text is made of its words**, and of no other runs. -/
theorem runs_iff {text : List Char} {ts : List (List Char)} : Runs text ts ↔ ts = words text := by
  have hwords {ts : List (List Char)} (h : Runs text ts) : ts = words text :=
    (congrArg Prod.fst h.foldr_eq).symm
  refine ⟨hwords, ?_⟩
  rintro rfl
  obtain ⟨ts, h⟩ := exists_runs text
  rwa [← hwords h]

/-- There are no blanks in words. -/
theorem isBlank_of_mem_words {text word : List Char} (hword : word ∈ words text) :
    ∀ c ∈ word, isBlank c = false := by
  have hruns : Runs text (words text) := runs_iff.mpr rfl
  generalize words text = ts at hword hruns
  induction hruns with
  | nil => exact (List.not_mem_nil hword).elim
  | blank _ _ ih => exact ih hword
  | run _ hr _ _ ih =>
    rcases List.mem_cons.mp hword with rfl | hword
    · exact hr
    · exact ih hword

/-- There are no words in blanks. -/
theorem words_eq_nil {text : List Char} (h : ∀ c ∈ text, isBlank c = true) : words text = [] := by
  have hruns : Runs text [] := by
    induction text with
    | nil => exact .nil
    | cons c text ih =>
      exact .blank (h c List.mem_cons_self) (ih fun d hd => h d (List.mem_cons_of_mem c hd))
  exact (runs_iff.mp hruns).symm

/-! ## Texts one after the other -/

/-- Runs stay apart when the first text is empty or ends with a blank. -/
theorem Runs.append {front back : List Char} {ts us : List (List Char)} (h : Runs front ts)
    (h' : Runs back us) (hfront : ∀ c ∈ front.getLast?, isBlank c = true) :
    Runs (front ++ back) (ts ++ us) := by
  induction h with
  | nil => exact h'
  | @blank c text ts hc _ ih =>
    refine .blank hc (ih fun d hd => hfront d ?_)
    rw [List.getLast?_cons, hd]
    rfl
  | @run r text ts hne hr hend _ ih =>
    have htext : text ≠ [] := by
      rintro rfl
      have hlast : (r ++ []).getLast? = some (r.getLast hne) := by
        rw [List.append_nil, List.getLast?_eq_some_getLast hne]
      have hblank := hfront (r.getLast hne) hlast
      rw [hr _ (List.getLast_mem hne)] at hblank
      exact Bool.false_ne_true hblank
    rw [List.append_assoc, List.cons_append]
    refine .run hne hr ?_ (ih fun d hd => hfront d ?_)
    · rwa [List.head?_append, Option.or_of_isSome (List.isSome_head?.mpr htext)]
    · rw [List.getLast?_append, hd]
      rfl

/-- **The words of two texts are those of the first and then those of the second**, when the first
is empty or ends with a blank. -/
theorem words_append {front : List Char} (hfront : ∀ c ∈ front.getLast?, isBlank c = true)
    (back : List Char) : words (front ++ back) = words front ++ words back :=
  (runs_iff.mp ((runs_iff.mpr rfl).append (runs_iff.mpr rfl) hfront)).symm

/-- The first word of a text that begins with a run goes up to the first blank. -/
theorem words_run {r : List Char} (hne : r ≠ []) (hr : ∀ c ∈ r, isBlank c = false)
    (text : List Char) : words (r ++ text) =
      (r ++ text.takeWhile (!isBlank ·)) :: words (text.dropWhile (!isBlank ·)) := by
  have hword : ∀ c ∈ r ++ text.takeWhile (!isBlank ·), isBlank c = false := by
    intro c hc
    rcases List.mem_append.mp hc with hc | hc
    · exact hr c hc
    · simpa using List.mem_takeWhile_imp hc
  have hend : ∀ c ∈ (text.dropWhile (!isBlank ·)).head?, isBlank c = true := by
    intro c hc
    have hhead := List.head?_dropWhile_not (!isBlank ·) text
    rw [hc] at hhead
    simpa using hhead
  have hruns : Runs (r ++ text.takeWhile (!isBlank ·) ++ text.dropWhile (!isBlank ·)) _ :=
    .run (List.append_ne_nil_of_left_ne_nil hne _) hword hend (runs_iff.mpr rfl)
  rw [List.append_assoc, List.takeWhile_append_dropWhile] at hruns
  exact (runs_iff.mp hruns).symm

end LineClient
