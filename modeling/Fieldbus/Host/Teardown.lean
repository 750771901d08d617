import Fieldbus.Host.Wakeup
import Fieldbus.Library.Progress
import Mathlib.Algebra.Order.BigOperators.Group.Finset

/-!
# The end of the pool

`potential` bounds the steps that are left once `stop` has stored `TERMINATE` and joins. A round of
spinning on an outdated state does not raise it, every other step lowers it, and until `stop` has
returned some such step is possible (`stop_returns`).
-/

namespace Fieldbus.CpuHog

variable {n : Nat} {report : Fin n → SchedulingReport} {h h' : CpuHog n}

/-- An upper bound on the steps a spinner has left once `TERMINATE` is the newest state. -/
def stepsLeft (h : CpuHog n) (i : Fin n) : Nat :=
  match h.spinner i with
  | .unborn | .exited => 0
  | .starting => 7
  | .observing => 6
  | .looping =>
      match h.signal.place (.spinner i) with
      -- a spinner that has read the newest state quits on its next load
      | .outside => if h.seen i + 1 = h.signal.value.length then 1 else 5
      | .entering | .woken => 4
      | .testing => 3
      | .leaving => 2
      | .asleep => 5
      | .acquiring | .writing | .notifying | .releasing => 0

/-- An upper bound on the joins left. -/
def joinsLeft (n : Nat) : Control → Nat
  | .joining k => n - k + 1
  | .spawning _ | .between | .setting _ | .stopped => 0

/-- An upper bound on the steps left once `stop` has stored `TERMINATE`. -/
def potential (h : CpuHog n) : Nat := (∑ i, h.stepsLeft i) + joinsLeft n h.control

/-- `stop` has stored `TERMINATE` and let go of the lock. -/
def Joining (h : CpuHog n) : Prop := (∃ k, h.control = .joining k) ∨ h.control = .stopped

/-- A step of one spinner that brings it closer to its end lowers the potential. -/
theorem potential_lt {i : Fin n} (hcontrol : h'.control = h.control)
    (hvalue : h'.signal.value = h.signal.value)
    (hspinner : ∀ j, j ≠ i → h'.spinner j = h.spinner j)
    (hplace : ∀ j, j ≠ i → h'.signal.place (.spinner j) = h.signal.place (.spinner j))
    (hseen : ∀ j, j ≠ i → h'.seen j = h.seen j) (hi : h'.stepsLeft i < h.stepsLeft i) :
    h'.potential < h.potential := by
  have hother (j : Fin n) (hj : j ≠ i) : h'.stepsLeft j = h.stepsLeft j := by
    simp only [stepsLeft, hspinner j hj, hplace j hj, hseen j hj, hvalue]
  have hsum : ∑ j, h'.stepsLeft j < ∑ j, h.stepsLeft j := by
    apply Finset.sum_lt_sum
    · intro j _
      by_cases hj : j = i
      · subst hj
        exact hi.le
      · exact (hother j hj).le
    · exact ⟨i, Finset.mem_univ i, hi⟩
  simp only [potential, hcontrol]
  omega

/-- A load of anything but the newest value is a load of an older store. -/
theorem Loads.older {i : Fin n} {k : Nat} {v w : Status} (hload : h.Loads i k v)
    (hlast : h.signal.value.getLast? = some w) (hne : v ≠ w) : k + 1 < h.signal.value.length := by
  obtain ⟨hlt, -⟩ := List.getElem?_eq_some_iff.mp hload.stored
  have hold : k + 1 ≠ h.signal.value.length := by
    intro heq
    rw [List.getLast?_eq_getElem?, ← heq, Nat.add_sub_cancel, hload.stored] at hlast
    exact hne (Option.some.inj hlast)
  omega

/-- A spinner that spins on an old `ACTIVE` comes no further from its end. -/
theorem Spin.potential_le (hspin : h.Spin h') (hh : h.Consistent report) {k : Nat}
    (hj : h.control = .joining k) : h'.Joining ∧ h'.potential ≤ h.potential := by
  have hlast := hh.signalled.joining k hj
  cases hspin with
  | @active i m hload =>
      refine ⟨.inl ⟨k, hj⟩, Nat.add_le_add_right (Finset.sum_le_sum fun j _ => ?_) _⟩
      have hold := hload.older hlast (by simp)
      grind [stepsLeft, Function.update_apply, Loads]

/-- Every other step while `stop` joins lowers the potential. -/
theorem Step.potential_lt (hstep : Step report h h') (hh : h.Consistent report) {k : Nat}
    (hj : h.control = .joining k) : h'.Joining ∧ h'.potential < h.potential := by
  have hlast := hh.signalled.joining k hj
  have hlooping := hh.placed.looping
  have hcontrol : h.signal.place .control = .outside := by
    by_contra hne
    obtain ⟨next, hnext⟩ := hh.placed.setting hne
    simp [hj] at hnext
  cases hstep with
  | spawn i hc | spawned hc | set next hc | stop hc | stopEmpty hc => simp [hj] at hc
  | store next hc hw | release next hc hw => simp [hj] at hc
  | acquire hp hfree | notify hp => simp [hcontrol] at hp
  | apply i hi =>
      refine ⟨.inl ⟨k, hj⟩, CpuHog.potential_lt (i := i) rfl rfl ?_ ?_ ?_ ?_⟩ <;>
        grind [stepsLeft, Function.update_apply]
  | observe i hi =>
      refine ⟨.inl ⟨k, hj⟩, CpuHog.potential_lt (i := i) rfl rfl ?_ ?_ ?_ ?_⟩ <;>
        grind [stepsLeft, Function.update_apply]
  | quit i m hload =>
      refine ⟨.inl ⟨k, hj⟩, CpuHog.potential_lt (i := i) rfl rfl ?_ ?_ ?_ ?_⟩ <;>
        grind [stepsLeft, Function.update_apply, Loads]
  | wait i m hload =>
      have hold := hload.older hlast (by simp)
      refine ⟨.inl ⟨k, hj⟩, CpuHog.potential_lt (i := i) rfl rfl ?_ ?_ ?_ ?_⟩ <;>
        grind [stepsLeft, Function.update_apply, Loads]
  | enter i hi hfree =>
      refine ⟨.inl ⟨k, hj⟩, CpuHog.potential_lt (i := i) rfl rfl ?_ ?_ ?_ ?_⟩ <;>
        grind [stepsLeft, Function.update_apply]
  | sleep i hi hidle => simp [isIdle, hlast] at hidle
  | pass i hi hidle =>
      refine ⟨.inl ⟨k, hj⟩, CpuHog.potential_lt (i := i) rfl rfl ?_ ?_ ?_ ?_⟩ <;>
        grind [stepsLeft, Function.update_apply]
  | leave i hi =>
      have hfresh := hh.signalled.fresh i hi
      refine ⟨.inl ⟨k, hj⟩, CpuHog.potential_lt (i := i) rfl rfl ?_ ?_ ?_ ?_⟩ <;>
        grind [stepsLeft, Function.update_apply]
  | wake i hi =>
      refine ⟨.inl ⟨k, hj⟩, CpuHog.potential_lt (i := i) rfl rfl ?_ ?_ ?_ ?_⟩ <;>
        grind [stepsLeft, Function.update_apply]
  | resume i hi hfree =>
      refine ⟨.inl ⟨k, hj⟩, CpuHog.potential_lt (i := i) rfl rfl ?_ ?_ ?_ ?_⟩ <;>
        grind [stepsLeft, Function.update_apply]
  | join i hc hi =>
      have hlt := i.isLt
      have hk : k = i := by rw [hj] at hc; injection hc
      refine ⟨.inl ⟨_, rfl⟩, Nat.add_lt_add_left ?_ _⟩
      simp only [hj, joinsLeft]
      omega
  | joined hc =>
      refine ⟨.inr rfl, Nat.add_lt_add_left ?_ _⟩
      simp [hj, joinsLeft]

theorem potential_le (h : CpuHog n) : h.potential ≤ 8 * n + 1 := by
  have hsum : ∑ i, h.stepsLeft i ≤ ∑ _i : Fin n, 7 :=
    Finset.sum_le_sum fun i _ => by unfold stepsLeft; grind
  have hjoins : joinsLeft n h.control ≤ n + 1 := by unfold joinsLeft; grind
  rw [Finset.sum_const_nat (fun _ _ => rfl), Finset.card_univ, Fintype.card_fin] at hsum
  unfold potential
  omega

/-- Once `stop` has returned, no thread takes a step. -/
theorem Consistent.stopped (hh : h.Consistent report) (hs : h.control = .stopped) :
    (∀ h', ¬ h.Spin h') ∧ ∀ h', ¬ Step report h h' := by
  have hexited := hh.ended.stopped hs
  have hout (i : Fin n) : h.signal.place (.spinner i) = .outside := by
    by_contra hne
    simpa [hexited i] using hh.placed.looping i hne
  have hcontrol : h.signal.place .control = .outside := by
    by_contra hne
    obtain ⟨next, hnext⟩ := hh.placed.setting hne
    simp [hs] at hnext
  refine ⟨fun h' hspin => ?_, fun h' hstep => ?_⟩
  · cases hspin with
    | @active i m hload => simpa [hexited i] using hload.looping
  · cases hstep with
    | spawn i hc | spawned hc | set next hc | stop hc | stopEmpty hc => simp [hs] at hc
    | store next hc | release next hc | join i hc | joined hc => simp [hs] at hc
    | apply i hi | observe i hi => simp [hexited i] at hi
    | quit i k hload | wait i k hload => simpa [hexited i] using hload.looping
    | enter i hi | sleep i hi | pass i hi | leave i hi | wake i hi | resume i hi =>
        simp [hout i] at hi
    | acquire hp | notify hp => simp [hcontrol] at hp

/-- `stop` joins in a consistent state. -/
def TearingDown (report : Fin n → SchedulingReport) (h : CpuHog n) : Prop :=
  h.Consistent report ∧ h.Joining

/-- A round of spinning while `stop` joins. -/
theorem joining_spin (h h' : CpuHog n) (hh : TearingDown report h) (hspin : h.Spin h') :
    h'.potential ≤ h.potential ∧ TearingDown report h' := by
  obtain ⟨k, hk⟩ | hk := hh.2
  · have hnext := hspin.potential_le hh.1 hk
    exact ⟨hnext.2, hspin.consistent hh.1, hnext.1⟩
  · exact absurd hspin ((hh.1.stopped hk).1 h')

/-- Any other step while `stop` joins. -/
theorem joining_step (h h' : CpuHog n) (hh : TearingDown report h) (hstep : Step report h h') :
    h'.potential < h.potential ∧ TearingDown report h' := by
  obtain ⟨k, hk⟩ | hk := hh.2
  · have hnext := hstep.potential_lt hh.1 hk
    exact ⟨hnext.2, hstep.consistent hh.1, hnext.1⟩
  · exact absurd hstep ((hh.1.stopped hk).2 h')

/-- `stop` goes on joining until it returns. -/
theorem joining_run (hh : TearingDown report h) {count : Nat}
    (hrun : Run Spin (Step report) h count h') : TearingDown report h' :=
  hrun.invariant (fun s s' hs hq => (joining_spin s s' hs hq).2)
    (fun s s' hs ht => (joining_step s s' hs ht).2) hh

/-- What is left once `stop` has returned: no spinner, and what the spinners reported. -/
theorem Consistent.after_stop (hh : h.Consistent report) (hs : h.control = .stopped) :
    (∀ i, h.spinner i = .exited) ∧
      h.granted = (Finset.univ.filter (fun i => (report i).granted = true)).card ∧
      ∀ _ : Fin n, ∃ i, h.policy = ⟨(report i).requested, (report i).qosClass⟩ := by
  refine ⟨hh.ended.stopped hs, ?_, fun i => hh.reported.policy i (.inr (hh.ended.stopped hs i))⟩
  have hasked (i : Fin n) : (h.spinner i).asked = true := by rw [hh.ended.stopped hs i]; rfl
  simp only [hh.reported.granted, grantedBy, hasked, true_and]

end Fieldbus.CpuHog
