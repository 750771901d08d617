import Mathlib.Data.List.Sort
import Mathlib.Data.Nat.Notation

/-!
# Order statistics

The sample of rank `k` in sorted order, and how a histogram finds its class. `nearest_rank_iff` is
the rule behind everything here: a downward closed property holds of the sample of rank `k` exactly
when at least `k` samples have it. So the class of that sample is the first one at which the
cumulative count reaches `k` (`class_eq_iff`).
-/

namespace Fieldbus.OrderStatistic

variable {α : Type*} [LinearOrder α]

/-- The sample of rank `k`, counted from one, in sorted order. -/
def nearestRank (samples : List α) (k : ℕ) : Option α :=
  (samples.mergeSort (· ≤ ·))[k - 1]?

variable {samples : List α} {k : ℕ} {x : α}

theorem nearest_rank_exists (hpos : 0 < k) (hk : k ≤ samples.length) :
    ∃ x, nearestRank samples k = some x := by
  have hlt : k - 1 < (samples.mergeSort (· ≤ ·)).length := by
    rw [List.length_mergeSort]
    omega
  exact ⟨_, List.getElem?_eq_getElem hlt⟩

/-- In a sorted list the elements with a downward closed property come first. -/
theorem get_iff_lt_count {sorted : List α} (hsorted : sorted.Pairwise (· ≤ ·)) {P : α → Bool}
    (hdown : ∀ y z, y ≤ z → P z = true → P y = true) {i : ℕ} (h : sorted[i]? = some x) :
    P x = true ↔ i < sorted.countP P := by
  induction sorted generalizing i with
  | nil => simp at h
  | cons y rest ih =>
      obtain ⟨hfirst, hrest⟩ := List.pairwise_cons.mp hsorted
      cases hy : P y with
      | true =>
          rw [List.countP_cons_of_pos hy]
          cases i with
          | zero =>
              cases h
              simp [hy]
          | succ i =>
              rw [ih hrest (by simpa using h)]
              omega
      | false =>
          -- nothing after the first failure has the property
          have hnone : ∀ z ∈ rest, ¬ P z = true := by
            intro z hz htrue
            rw [hdown y z (hfirst z hz) htrue] at hy
            cases hy
          rw [List.countP_cons_of_neg (by simp [hy]), List.countP_eq_zero.mpr hnone]
          have hfalse : ¬ P x = true := by
            cases i with
            | zero =>
                cases h
                simp [hy]
            | succ i => exact hnone x (List.mem_of_getElem? (by simpa using h))
          simp [hfalse]

/-- A downward closed property holds of the sample of rank `k` exactly when at least `k` samples
have it. -/
theorem nearest_rank_iff (hpos : 0 < k) (h : nearestRank samples k = some x) {P : α → Bool}
    (hdown : ∀ y z, y ≤ z → P z = true → P y = true) :
    P x = true ↔ k ≤ samples.countP P := by
  have hsorted : (samples.mergeSort (· ≤ ·)).Pairwise (· ≤ ·) :=
    List.sortedLE_mergeSort.pairwise
  rw [get_iff_lt_count hsorted hdown h, (List.mergeSort_perm samples _).countP_eq P]
  omega

theorem nearest_rank_mono {j : ℕ} {y : α} (hpos : 0 < j) (hjk : j ≤ k)
    (hx : nearestRank samples j = some x) (hy : nearestRank samples k = some y) : x ≤ y := by
  have hdown : ∀ z w, z ≤ w → decide (w ≤ y) = true → decide (z ≤ y) = true := by
    intro z w hzw hw
    simp only [decide_eq_true_eq] at hw ⊢
    exact hzw.trans hw
  have hcount := (nearest_rank_iff (by omega) hy hdown).mp (by simp)
  simpa using (nearest_rank_iff hpos hx hdown).mpr (by omega)

/-- The class of the sample of rank `k` is the one at which the cumulative count reaches `k`. -/
theorem class_eq_iff {f : α → ℕ} (hmono : Monotone f) (hpos : 0 < k)
    (h : nearestRank samples k = some x) (i : ℕ) :
    f x = i ↔
      samples.countP (fun y => f y < i) < k ∧ k ≤ samples.countP (fun y => f y < i + 1) := by
  have hdown : ∀ bound y z, y ≤ z → decide (f z < bound) = true → decide (f y < bound) = true := by
    intro bound y z hyz hz
    simp only [decide_eq_true_eq] at hz ⊢
    exact lt_of_le_of_lt (hmono hyz) hz
  have hbelow := nearest_rank_iff hpos h (hdown i)
  have hreached := nearest_rank_iff hpos h (hdown (i + 1))
  simp only [decide_eq_true_eq] at hbelow hreached
  rw [← not_le, ← hbelow, ← hreached]
  omega

omit [LinearOrder α] in
/-- The samples below the next bound are those below this one and those of the class between. -/
theorem count_below_succ (f : α → ℕ) (i : ℕ) :
    samples.countP (fun y => f y < i + 1) =
      samples.countP (fun y => f y < i) + samples.countP (fun y => f y = i) := by
  induction samples with
  | nil => rfl
  | cons y rest ih =>
      simp only [List.countP_cons, ih, decide_eq_true_eq]
      split <;> split <;> split <;> omega

/-! ## Extremes -/

/-- A running minimum is a lower bound, and either where it started or one of the samples. -/
theorem foldl_min_spec (start : α) (samples : List α) :
    (∀ y ∈ samples, samples.foldl min start ≤ y) ∧ samples.foldl min start ≤ start ∧
      (samples.foldl min start = start ∨ samples.foldl min start ∈ samples) := by
  induction samples generalizing start with
  | nil => simp
  | cons y rest ih =>
      obtain ⟨hlower, hstart, hmem⟩ := ih (min start y)
      simp only [List.foldl_cons, List.mem_cons, forall_eq_or_imp]
      refine ⟨⟨hstart.trans (min_le_right _ _), hlower⟩, hstart.trans (min_le_left _ _), ?_⟩
      rcases hmem with hmem | hmem
      · rcases le_total start y with hle | hle
        · exact .inl (hmem.trans (min_eq_left hle))
        · exact .inr (.inl (hmem.trans (min_eq_right hle)))
      · exact .inr (.inr hmem)

/-- A running maximum is an upper bound, and either where it started or one of the samples. -/
theorem foldl_max_spec (start : α) (samples : List α) :
    (∀ y ∈ samples, y ≤ samples.foldl max start) ∧ start ≤ samples.foldl max start ∧
      (samples.foldl max start = start ∨ samples.foldl max start ∈ samples) :=
  foldl_min_spec (α := αᵒᵈ) start samples

end Fieldbus.OrderStatistic
