import LineClient.Random.Generator

/-!
# Bounds of drawn numbers

Whatever words a generator yields, a number drawn within bounds lies within them.

* `drawBelow_lt`, from words of any width;
* **`Generator.le_between`**, **`Generator.between_le`**, **`Generator.index_lt`**.
-/

namespace LineClient

section

variable {ρ : Type} {width bound : Nat} {word : ρ → Nat × ρ}

theorem drawFrom_lt (hword : ∀ s, (word s).1 < 2 ^ width) (hbound : 0 < bound) (fuel : Nat)
    (s : ρ) : (drawFrom width bound word fuel s).1 < bound := by
  induction fuel generalizing s with
  | zero => exact hbound
  | succ fuel ih =>
    simp only [drawFrom]
    split
    · have : (word s).1 * bound < bound * 2 ^ width := by
        rw [Nat.mul_comm bound]
        exact Nat.mul_lt_mul_of_pos_right (hword s) hbound
      exact Nat.div_lt_of_lt_mul (by rwa [Nat.mul_comm (2 ^ width)])
    · exact ih _

theorem drawBelow_lt (hword : ∀ s, (word s).1 < 2 ^ width) (hbound : 0 < bound) (s : ρ) :
    (drawBelow width bound word s).1 < bound := by
  unfold drawBelow
  split
  · next hall => exact hall ▸ hword s
  · exact drawFrom_lt hword hbound _ s

end

namespace Generator

variable {ρ : Type} (g : Generator ρ) (s : ρ)

theorem le_between (low high : Nat) : low ≤ (g.between low high s).1 := Nat.le_add_right _ _

theorem between_le {low high : Nat} (h : low ≤ high) : (g.between low high s).1 ≤ high := by
  have hdraw : (g.between low high s).1 < low + (high - low + 1) :=
    Nat.add_lt_add_left (drawBelow_lt (fun s => (g.word64 s).1.toNat_lt) (Nat.succ_pos _) s) low
  omega

theorem index_lt {length : Nat} (h : 0 < length) : (g.index length s).1 < length := by
  unfold index
  split
  · exact drawBelow_lt (fun s => (g.word32 s).1.toNat_lt) h s
  · exact drawBelow_lt (fun s => (g.word64 s).1.toNat_lt) h s

end Generator

end LineClient
