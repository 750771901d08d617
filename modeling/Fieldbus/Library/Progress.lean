import Mathlib.Order.Basic
import Mathlib.Logic.Relation
import Mathlib.Tactic.Common

/-!
# Runs with quiet steps

A run mixes steps that are counted with quiet steps that are not. Where a potential drops with every
counted step and does not grow with a quiet one, it bounds the count (`Run.bounded`); an invariant
of both kinds of step holds along the run (`Run.invariant`).
-/

namespace Fieldbus

/-- A run with the number of its counted steps. -/
inductive Run {σ : Type*} (quiet step : σ → σ → Prop) (start : σ) : Nat → σ → Prop where
  | start : Run quiet step start 0 start
  | quiet {count : Nat} {s s' : σ} (hrun : Run quiet step start count s) (hquiet : quiet s s') :
      Run quiet step start count s'
  | step {count : Nat} {s s' : σ} (hrun : Run quiet step start count s) (hstep : step s s') :
      Run quiet step start (count + 1) s'

namespace Run

variable {σ : Type*} {quiet step : σ → σ → Prop} {Inv : σ → Prop} {start s : σ} {count : Nat}

/-- What both kinds of step preserve, every run preserves. -/
theorem invariant (hquiet : ∀ s s', Inv s → quiet s s' → Inv s')
    (hstep : ∀ s s', Inv s → step s s' → Inv s') (hstart : Inv start)
    (hrun : Run quiet step start count s) : Inv s := by
  induction hrun with
  | start => exact hstart
  | quiet _ hq ih => exact hquiet _ _ ih hq
  | step _ hs ih => exact hstep _ _ ih hs

/-- A potential that every counted step lowers pays for the count. -/
theorem bounded (potential : σ → Nat) (hquiet : ∀ s s', Inv s → quiet s s' → Inv s')
    (hstep : ∀ s s', Inv s → step s s' → Inv s')
    (hlevel : ∀ s s', Inv s → quiet s s' → potential s' ≤ potential s)
    (hdrop : ∀ s s', Inv s → step s s' → potential s' < potential s) (hstart : Inv start)
    (hrun : Run quiet step start count s) : count + potential s ≤ potential start := by
  induction hrun with
  | start => simp
  | quiet hrun hq ih =>
      have hlevel := hlevel _ _ (hrun.invariant hquiet hstep hstart) hq
      omega
  | step hrun hs ih =>
      have hdrop := hdrop _ _ (hrun.invariant hquiet hstep hstart) hs
      omega

end Run

end Fieldbus
