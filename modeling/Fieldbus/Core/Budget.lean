import Mathlib.Order.MinMax
import Fieldbus.Library.Machine
import Fieldbus.Core.Watchdog

/-!
# The watchdog at the limits of its arithmetic

The deadline `lastSeenUs + timeoutUs` is an unguarded `u64` sum: the release build wraps it and a
build with overflow checks panics on it. `checkChecked` and `overshootChecked` are the operations of
the second build, with a panic as `none`. `exactRun_iff` says which runs both builds and exact
integers agree on: those whose unlatched checks all find the deadline in range.
-/

namespace Fieldbus

namespace Watchdog

/-- A call on the watchdog. -/
inductive Call where
  | feed (nowUs : UInt64)
  | check (nowUs : UInt64)
  | reset (nowUs : UInt64)
  deriving DecidableEq, Repr

/-- One call, with what it returns. -/
def call (w : Watchdog) : Call → Watchdog × Option SafeState
  | .feed nowUs => (w.feed nowUs, none)
  | .check nowUs => w.check nowUs
  | .reset nowUs => (w.reset nowUs, none)

/-- The watchdog after the given calls. -/
def afterCalls (w : Watchdog) (calls : List Call) : Watchdog :=
  Machine.final call w calls

/-- `u64` addition with overflow checks: a panic is `none`. -/
def checkedAdd (a b : UInt64) : Option UInt64 :=
  if a.toNat + b.toNat < 2 ^ 64 then some (a + b) else none

/-- `check` in a build with overflow checks; a latched watchdog does not reach the sum. -/
def checkChecked (w : Watchdog) (nowUs : UInt64) : Option (Watchdog × Option SafeState) :=
  if w.latched.isNone then do
    let deadline ← checkedAdd w.lastSeenUs w.timeoutUs
    let w' :=
      if nowUs > deadline then
        { w with latched := some ⟨.sensorStale w.lastSeenUs nowUs w.timeoutUs⟩ }
      else w
    pure (w', w'.latched)
  else some (w, w.latched)

/-- `overshootPastBudgetUs` in a build with overflow checks. -/
def SafeState.overshootChecked (s : SafeState) : Option UInt64 :=
  match s.reason with
  | .sensorStale lastSeenUs trippedAtUs timeoutUs => do
      let deadline ← checkedAdd lastSeenUs timeoutUs
      pure (saturatingSub trippedAtUs deadline)

/-- The deadline is a `u64` of its own. -/
def DeadlineInRange (lastSeenUs timeoutUs : UInt64) : Prop :=
  lastSeenUs.toNat + timeoutUs.toNat < 2 ^ 64

instance (lastSeenUs timeoutUs : UInt64) : Decidable (DeadlineInRange lastSeenUs timeoutUs) :=
  inferInstanceAs (Decidable (_ < _))

/-- A check that overflows nowhere and, unlatched, latches exactly past the budget. -/
structure CheckExact (w : Watchdog) (nowUs : UInt64) : Prop where
  no_overflow : w.checkChecked nowUs = some (w.check nowUs)
  latches_iff : w.latched = none →
    ((w.check nowUs).2 ≠ none ↔
      (w.timeoutUs.toNat : ℤ) < (nowUs.toNat : ℤ) - w.lastSeenUs.toNat)

/-- A safe state whose overshoot overflows nowhere and is the exact difference. -/
structure OvershootExact (s : SafeState) : Prop where
  no_overflow : s.overshootChecked = some s.overshootPastBudgetUs
  overshoot_eq : ∀ lastSeenUs trippedAtUs timeoutUs,
    s.reason = .sensorStale lastSeenUs trippedAtUs timeoutUs →
      (s.overshootPastBudgetUs.toNat : ℤ) =
        max 0 ((trippedAtUs.toNat : ℤ) - lastSeenUs.toNat - timeoutUs.toNat)

/-- Every check along the calls is exact, and so is the overshoot of every state latched on the
way. -/
def ExactRun (w : Watchdog) (calls : List Call) : Prop :=
  ∀ before next after, calls = before ++ next :: after →
    (∀ nowUs, next = .check nowUs → (w.afterCalls before).CheckExact nowUs) ∧
      ∀ s, (w.afterCalls (before ++ [next])).latched = some s → OvershootExact s

/-- Every unlatched check along the calls finds the deadline in range. -/
def RunInRange (w : Watchdog) (calls : List Call) : Prop :=
  ∀ before nowUs after, calls = before ++ .check nowUs :: after →
    (w.afterCalls before).latched = none →
      DeadlineInRange (w.afterCalls before).lastSeenUs (w.afterCalls before).timeoutUs

/-- What is latched had its deadline in range. -/
def LatchInRange (w : Watchdog) : Prop :=
  ∀ lastSeenUs trippedAtUs timeoutUs,
    w.latched = some ⟨.sensorStale lastSeenUs trippedAtUs timeoutUs⟩ →
      DeadlineInRange lastSeenUs timeoutUs

variable {w : Watchdog} {lastSeenUs trippedAtUs timeoutUs nowUs : UInt64}

theorem checkedAdd_eq_some (h : DeadlineInRange lastSeenUs timeoutUs) :
    checkedAdd lastSeenUs timeoutUs = some (lastSeenUs + timeoutUs) :=
  if_pos h

/-- A build with overflow checks returns exactly when the check is latched or in range, and then
what the release build returns. -/
theorem checkChecked_eq_iff :
    w.checkChecked nowUs = some (w.check nowUs) ↔
      (w.latched = none → DeadlineInRange w.lastSeenUs w.timeoutUs) := by
  obtain ⟨timeoutUs, lastSeenUs, latched⟩ := w
  cases latched with
  | some s => simp [checkChecked, check]
  | none =>
      by_cases hrange : DeadlineInRange lastSeenUs timeoutUs
      · simp [checkChecked, check, checkedAdd_eq_some hrange, hrange]
      · have hnone : checkedAdd lastSeenUs timeoutUs = none := if_neg hrange
        simp [checkChecked, hnone, hrange]

theorem check_exact (h : w.latched = none → DeadlineInRange w.lastSeenUs w.timeoutUs) :
    w.CheckExact nowUs := by
  refine ⟨checkChecked_eq_iff.mpr h, fun hlatched ↦ ?_⟩
  obtain ⟨timeoutUs, lastSeenUs, latched⟩ := w
  obtain rfl : latched = none := hlatched
  have hrange : DeadlineInRange lastSeenUs timeoutUs := h rfl
  rw [check_unlatched hrange]
  show _ ↔ (timeoutUs.toNat : ℤ) < (nowUs.toNat : ℤ) - lastSeenUs.toNat
  split
  · simp only [ne_eq, reduceCtorEq, not_false_eq_true, true_iff]
    omega
  · simp only [ne_eq, not_true_eq_false, false_iff]
    omega

theorem overshoot_exact (h : DeadlineInRange lastSeenUs timeoutUs) :
    OvershootExact ⟨.sensorStale lastSeenUs trippedAtUs timeoutUs⟩ := by
  refine ⟨?_, ?_⟩
  · simp [SafeState.overshootChecked, SafeState.overshootPastBudgetUs, checkedAdd_eq_some h]
  · rintro _ _ _ ⟨⟩
    simp only [SafeState.overshootPastBudgetUs]
    rw [saturating_sub_toNat, UInt64.toNat_add, Nat.mod_eq_of_lt h]
    omega

/-- A call latches only what an unlatched check had in range. -/
theorem LatchInRange.call (h : w.LatchInRange) (next : Call)
    (hnext : ∀ nowUs, next = .check nowUs → w.latched = none →
      DeadlineInRange w.lastSeenUs w.timeoutUs) :
    (w.call next).1.LatchInRange := by
  intro lastSeenUs trippedAtUs timeoutUs hlatched
  cases next with
  | feed nowUs =>
      rw [Watchdog.call, feed_latched] at hlatched
      exact h _ _ _ hlatched
  | reset nowUs => simp [Watchdog.call, reset] at hlatched
  | check nowUs =>
      simp only [Watchdog.call, check] at hlatched
      split at hlatched
      · rename_i hunlatched
        simp only [Option.some.injEq, SafeState.mk.injEq, SafeReason.sensorStale.injEq] at hlatched
        obtain ⟨rfl, -, rfl⟩ := hlatched
        exact hnext nowUs rfl (Option.isNone_iff_eq_none.mp hunlatched.1)
      · exact h _ _ _ hlatched

theorem RunInRange.afterCalls {before after : List Call} (hrange : w.RunInRange (before ++ after))
    (h : w.LatchInRange) : (w.afterCalls before).LatchInRange := by
  induction before generalizing w with
  | nil => exact h
  | cons next rest ih =>
      apply ih (w := (w.call next).1)
      · intro before nowUs tail htail
        exact hrange (next :: before) nowUs tail (by rw [List.cons_append, htail]; rfl)
      · apply h.call
        rintro nowUs rfl
        exact hrange [] nowUs (rest ++ after) rfl

/-- From a fresh watchdog, with any budget and any timestamps, the run is exact in both builds if
and only if every unlatched check finds the deadline in range. -/
theorem exactRun_iff (timeoutUs startUs : UInt64) (calls : List Call) :
    (new timeoutUs startUs).ExactRun calls ↔ (new timeoutUs startUs).RunInRange calls := by
  constructor
  · intro hexact before nowUs after hcalls
    exact checkChecked_eq_iff.mp ((hexact before _ after hcalls).1 nowUs rfl).no_overflow
  · intro hrange before next after hcalls
    constructor
    · rintro nowUs rfl
      exact check_exact (hrange before nowUs after hcalls)
    · rintro ⟨⟨lastSeenUs, trippedAtUs, budgetUs⟩⟩ hlatched
      have hsplit : (new timeoutUs startUs).RunInRange ((before ++ [next]) ++ after) := by
        rw [List.append_assoc, List.singleton_append, ← hcalls]
        exact hrange
      have hfresh : (new timeoutUs startUs).LatchInRange := by simp [LatchInRange, new]
      exact overshoot_exact (hsplit.afterCalls hfresh _ _ _ hlatched)

/-- With the largest budget, a check one microsecond after arming and at the very time of the last
feed: the wrapped deadline is zero, so the release build latches with an overshoot of one, and a
build with overflow checks panics. -/
theorem largest_budget_not_exact :
    ¬ (new 18446744073709551615 0).ExactRun [.feed 1, .check 1] ∧
      ((new 18446744073709551615 0).afterCalls [.feed 1, .check 1]).latched =
        some ⟨.sensorStale 1 1 18446744073709551615⟩ ∧
      (SafeState.mk (.sensorStale 1 1 18446744073709551615)).overshootPastBudgetUs = 1 ∧
      ((new 18446744073709551615 0).afterCalls [.feed 1]).checkChecked 1 = none := by
  refine ⟨fun h ↦ ?_, by decide, by decide, by decide⟩
  have hcheck := ((h [.feed 1] (.check 1) [] rfl).1 1 rfl).no_overflow
  revert hcheck
  decide

end Watchdog

end Fieldbus
