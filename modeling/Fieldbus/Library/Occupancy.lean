import Mathlib.Data.Nat.Count
import Mathlib.Order.Basic

/-!
# Visited and vacant slots

A sequence of visits falls into numbered slots and never goes back to an earlier one. `vacant`
counts the slots up to the latest visit that were never visited, and `vacant_succ` is the rule by
which a ledger that remembers only the latest slot can count them as it goes.
-/

namespace Fieldbus.Occupancy

variable (slot : ℕ → ℕ)

/-- The first slot after that of the latest of the first `k` visits. -/
def frontier : ℕ → ℕ
  | 0 => 0
  | k + 1 => slot k + 1

/-- The number of slots up to the latest of the first `k` visits that none of them fell into. -/
def vacant (k : ℕ) : ℕ := Nat.count (fun s => ∀ i < k, slot i ≠ s) (frontier slot k)

variable {slot} {n k : ℕ}

/-- Visits that never go back lie before the frontier. -/
theorem lt_frontier (hmono : ∀ i, i + 1 < n → slot i ≤ slot (i + 1)) (hk : k ≤ n) :
    ∀ i < k, slot i < frontier slot k := by
  induction k with
  | zero => simp
  | succ k ih =>
      intro i hi
      rw [frontier, Nat.lt_succ_iff]
      rcases Nat.lt_succ_iff_lt_or_eq.mp hi with hi | rfl
      · have hbefore := ih (by omega) i hi
        cases k with
        | zero => omega
        | succ k =>
            rw [frontier] at hbefore
            have hstep := hmono k (by omega)
            omega
      · exact Nat.le_refl _

/-- The next visit does not fall behind the latest one. -/
theorem frontier_le (hmono : ∀ i, i + 1 < n → slot i ≤ slot (i + 1)) (hk : k < n) :
    frontier slot k ≤ slot k + 1 := by
  cases k with
  | zero => exact Nat.zero_le _
  | succ k => exact Nat.succ_le_succ (hmono k hk)

/-- The next visit adds the slots between the frontier and its own. -/
theorem vacant_succ (hmono : ∀ i, i + 1 < n → slot i ≤ slot (i + 1)) (hk : k < n) :
    vacant slot (k + 1) = vacant slot k + (slot k - frontier slot k) := by
  have hbefore := lt_frontier hmono hk.le
  have hle := frontier_le hmono hk
  have hold : Nat.count (fun s => ∀ i < k + 1, slot i ≠ s) (frontier slot k) = vacant slot k := by
    rw [vacant, Nat.count_eq_card_filter_range, Nat.count_eq_card_filter_range]
    congr 1
    refine Finset.filter_congr fun s hs => ⟨fun h i hi => h i (by omega), fun h i hi => ?_⟩
    rcases Nat.lt_succ_iff_lt_or_eq.mp hi with hi | rfl
    · exact h i hi
    · rw [Finset.mem_range] at hs
      by_cases hnew : frontier slot i ≤ slot i
      · omega
      · -- the visit fell into the slot of the latest one
        cases i with
        | zero => exact absurd (Nat.zero_le _) hnew
        | succ i =>
            have hlatest := h i (Nat.lt_succ_self i)
            rw [frontier] at hle hnew
            omega
  have hnew : Nat.count (fun s => ∀ i < k + 1, slot i ≠ frontier slot k + s)
      (slot k + 1 - frontier slot k) = slot k - frontier slot k := by
    by_cases hpast : frontier slot k ≤ slot k
    · rw [Nat.succ_sub hpast, Nat.count_succ, if_neg, Nat.add_zero, Nat.count_iff_forall]
      · intro s hs i hi
        rcases Nat.lt_succ_iff_lt_or_eq.mp hi with hi | rfl
        · have hold := hbefore i hi
          omega
        · omega
      · intro hall
        exact hall k (Nat.lt_succ_self k) (by omega)
    · rw [show slot k + 1 - frontier slot k = 0 by omega, Nat.count_zero]
      omega
  have hsplit : slot k + 1 = frontier slot k + (slot k + 1 - frontier slot k) := by omega
  calc vacant slot (k + 1)
      = Nat.count (fun s => ∀ i < k + 1, slot i ≠ s)
          (frontier slot k + (slot k + 1 - frontier slot k)) := by rw [vacant, frontier, ← hsplit]
    _ = vacant slot k + (slot k - frontier slot k) := by rw [Nat.count_add, hold, hnew]

end Fieldbus.Occupancy
