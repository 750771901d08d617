import Mathlib.Algebra.BigOperators.Fin
import Mathlib.Algebra.Order.BigOperators.Group.Finset
import Mathlib.Data.Fintype.BigOperators
import Fieldbus.Library.Machine

/-!
# Counters that wrap

A machine counts its outputs under a key, in counters that wrap at a modulus. After a run from
zeroed counters each counter is the number of outputs with its key, reduced (`counter_final`), and
none has wrapped exactly when every step found room in the counter it was about to move
(`room_iff`). The counters add up to the number of outputs in that case only
(`sum_tally_mod_iff`).
-/

namespace Fieldbus

/-- How many of the items carry the key. -/
def tally {α κ : Type*} [DecidableEq κ] (key : α → κ) (items : List α) (k : κ) : ℕ :=
  items.countP fun item => key item = k

section Tally

variable {α κ : Type*} [DecidableEq κ] {key : α → κ} {items : List α} {m : ℕ}

theorem tally_append_singleton (key : α → κ) (items : List α) (item : α) (k : κ) :
    tally key (items ++ [item]) k = tally key items k + if key item = k then 1 else 0 := by
  simp [tally, List.countP_append, List.countP_singleton]

/-- Every item is counted under one key. -/
theorem sum_tally [Fintype κ] (key : α → κ) (items : List α) :
    ∑ k, tally key items k = items.length := by
  induction items using List.reverseRecOn with
  | nil => simp [tally]
  | append_singleton items item ih =>
      simp only [tally_append_singleton, Finset.sum_add_distrib, ih, Finset.sum_ite_eq,
        Finset.mem_univ, if_true, List.length_append, List.length_singleton]

/-- Reduced counts add up to the number of items only if no count is reduced. -/
theorem sum_tally_mod_iff [Fintype κ] (hm : 0 < m) :
    ∑ k, tally key items k % m = items.length ↔ ∀ k, tally key items k < m := by
  rw [← sum_tally key items,
    Finset.sum_eq_sum_iff_of_le fun k _ => Nat.mod_le (tally key items k) m]
  constructor
  · intro h k
    rw [← h k (Finset.mem_univ k)]
    exact Nat.mod_lt _ hm
  · intro h k _
    exact Nat.mod_eq_of_lt (h k)

/-- One more item leaves all counts below a bound if they were and its own has room for it. -/
theorem tally_append_singleton_lt_iff (item : α) :
    (∀ k, tally key (items ++ [item]) k < m) ↔
      (∀ k, tally key items k < m) ∧ tally key items (key item) + 1 < m := by
  simp only [tally_append_singleton]
  constructor
  · intro h
    refine ⟨fun k => lt_of_le_of_lt (Nat.le_add_right _ _) (h k), ?_⟩
    simpa using h (key item)
  · rintro ⟨hall, hown⟩ k
    split
    · rename_i hk
      rwa [← hk]
    · exact hall k

end Tally

namespace Machine

variable {σ ι ο κ : Type*} {step : σ → ι → σ × ο} {key : ο → κ} {counter : σ → κ → ℕ} {m : ℕ}
  {state : σ}

/-- A step adds one to the counter of its output's key, modulo `m`. -/
def Counts [DecidableEq κ] (step : σ → ι → σ × ο) (key : ο → κ) (counter : σ → κ → ℕ) (m : ℕ) :
    Prop :=
  ∀ state input k, counter (step state input).1 k =
    (counter state k + if key (step state input).2 = k then 1 else 0) % m

/-- No step of the run finds the counter it moves at the modulus' last value. -/
def Room (step : σ → ι → σ × ο) (key : ο → κ) (counter : σ → κ → ℕ) (m : ℕ) (state : σ)
    (inputs : List ι) : Prop :=
  ∀ before input after, inputs = before ++ input :: after →
    counter (final step state before) (key (step (final step state before) input).2) + 1 < m

/-- The last step of a run has room besides those before it. -/
theorem room_append_singleton_iff (inputs : List ι) (input : ι) :
    Room step key counter m state (inputs ++ [input]) ↔
      Room step key counter m state inputs ∧
        counter (final step state inputs) (key (step (final step state inputs) input).2) + 1 <
          m := by
  constructor
  · intro h
    refine ⟨fun before next after hsplit => ?_, h inputs input [] rfl⟩
    exact h before next (after ++ [input]) (by simp [hsplit])
  · rintro ⟨hroom, hlast⟩ before next after hsplit
    rcases List.eq_nil_or_concat after with rfl | ⟨init, last, rfl⟩
    · obtain ⟨rfl, hnext⟩ := List.append_inj' hsplit rfl
      obtain rfl := List.singleton_inj.mp hnext
      exact hlast
    · have happend : inputs ++ [input] = (before ++ next :: init) ++ [last] := by
        rw [hsplit, List.concat_eq_append, List.append_assoc, List.cons_append]
      exact hroom before next init (List.append_inj_left' happend rfl)

variable [DecidableEq κ]

/-- After a run from zero a counter is the number of outputs with its key, reduced. -/
theorem counter_final (h : Counts step key counter m) (hzero : ∀ k, counter state k = 0)
    (inputs : List ι) (k : κ) :
    counter (final step state inputs) k = tally key (trace step state inputs) k % m := by
  induction inputs using List.reverseRecOn with
  | nil => exact (hzero k).trans (Nat.zero_mod m).symm
  | append_singleton inputs input ih =>
      rw [final_append_singleton, trace_append_singleton, tally_append_singleton, h, ih,
        Nat.mod_add_mod]

/-- There is room at every step of a run from zero exactly when every count stays below the
modulus. -/
theorem room_iff (h : Counts step key counter m) (hm : 0 < m) (hzero : ∀ k, counter state k = 0)
    (inputs : List ι) :
    Room step key counter m state inputs ↔ ∀ k, tally key (trace step state inputs) k < m := by
  induction inputs using List.reverseRecOn with
  | nil =>
      refine iff_of_true (fun before input after hsplit => ?_) fun k => hm
      exact absurd hsplit (by simp)
  | append_singleton inputs input ih =>
      rw [room_append_singleton_iff, trace_append_singleton, tally_append_singleton_lt_iff, ih,
        counter_final h hzero]
      constructor
      · rintro ⟨hall, hlast⟩
        rw [Nat.mod_eq_of_lt (hall _)] at hlast
        exact ⟨hall, hlast⟩
      · rintro ⟨hall, hlast⟩
        rw [Nat.mod_eq_of_lt (hall _)]
        exact ⟨hall, hlast⟩

end Machine

end Fieldbus
