import Mathlib.Logic.Function.Basic
import Mathlib.Logic.Relation
import Mathlib.Tactic.Common

/-!
# Monitors

A monitor is a value behind a mutex with one condition variable. A waiting thread takes the lock,
tests the value, and sleeps while it is blocked; a writing thread takes the lock, changes the value
and notifies every sleeper before it lets go. Sleepers may also wake for no reason.

`Sound` is what every interleaving keeps: the lock has one holder, and a thread only sleeps on a
blocking value, unless a writer is on its way to wake it. `Sound.sleeps_blocked` reads this off
while the lock is free.
-/

namespace Fieldbus

/-- Where a thread stands in the code of a wait or of a write. -/
inductive Place where
  | outside
  | entering
  | testing
  | asleep
  | woken
  | leaving
  | acquiring
  | writing
  | notifying
  | releasing
  deriving DecidableEq, Repr

/-- The places between taking the lock and letting go of it. -/
def Place.holds : Place → Bool
  | .testing | .leaving | .writing | .notifying | .releasing => true
  | .outside | .entering | .asleep | .woken | .acquiring => false

/-- The places of a thread that is not in the code of a write. -/
def Place.reads : Place → Bool
  | .outside | .entering | .testing | .asleep | .woken | .leaving => true
  | .acquiring | .writing | .notifying | .releasing => false

/-- The value, the holder of the lock, and the place of every thread. -/
structure Monitor (ι σ : Type*) where
  value : σ
  holder : Option ι
  place : ι → Place

namespace Monitor

variable {ι σ : Type*} [DecidableEq ι]

/-- A thread goes on. -/
def move (m : Monitor ι σ) (i : ι) (p : Place) : Monitor ι σ :=
  { m with place := Function.update m.place i p }

/-- A thread goes on with the lock. -/
def take (m : Monitor ι σ) (i : ι) (p : Place) : Monitor ι σ :=
  { m with holder := some i, place := Function.update m.place i p }

/-- A thread goes on without the lock. -/
def give (m : Monitor ι σ) (i : ι) (p : Place) : Monitor ι σ :=
  { m with holder := none, place := Function.update m.place i p }

/-- The holder changes the value. -/
def store (m : Monitor ι σ) (i : ι) (v : σ) : Monitor ι σ :=
  { m with value := v, place := Function.update m.place i .notifying }

/-- Every sleeper is woken. -/
def notifyAll (m : Monitor ι σ) (i : ι) : Monitor ι σ :=
  { m with place :=
      Function.update (fun j => if m.place j = .asleep then .woken else m.place j) i .releasing }

@[simp, grind =] theorem move_value (m : Monitor ι σ) (i : ι) (p : Place) :
    (m.move i p).value = m.value := rfl

@[simp, grind =] theorem take_value (m : Monitor ι σ) (i : ι) (p : Place) :
    (m.take i p).value = m.value := rfl

@[simp, grind =] theorem give_value (m : Monitor ι σ) (i : ι) (p : Place) :
    (m.give i p).value = m.value := rfl

@[simp, grind =] theorem store_value (m : Monitor ι σ) (i : ι) (v : σ) :
    (m.store i v).value = v := rfl

@[simp, grind =] theorem notify_all_value (m : Monitor ι σ) (i : ι) :
    (m.notifyAll i).value = m.value := rfl

@[simp, grind =] theorem move_place (m : Monitor ι σ) (i : ι) (p : Place) (j : ι) :
    (m.move i p).place j = if j = i then p else m.place j := Function.update_apply ..

@[simp, grind =] theorem take_place (m : Monitor ι σ) (i : ι) (p : Place) (j : ι) :
    (m.take i p).place j = if j = i then p else m.place j := Function.update_apply ..

@[simp, grind =] theorem give_place (m : Monitor ι σ) (i : ι) (p : Place) (j : ι) :
    (m.give i p).place j = if j = i then p else m.place j := Function.update_apply ..

@[simp, grind =] theorem store_place (m : Monitor ι σ) (i : ι) (v : σ) (j : ι) :
    (m.store i v).place j = if j = i then .notifying else m.place j := Function.update_apply ..

@[simp, grind =] theorem notify_all_place (m : Monitor ι σ) (i j : ι) :
    (m.notifyAll i).place j =
      if j = i then .releasing else if m.place j = .asleep then .woken else m.place j := by
  exact Function.update_apply (fun k => if m.place k = .asleep then .woken else m.place k) i _ j

/-- One step of a thread in the monitor's code. -/
inductive Step (blocked : σ → Prop) (i : ι) (m : Monitor ι σ) : Monitor ι σ → Prop where
  | wait (h : m.place i = .outside) : Step blocked i m (m.move i .entering)
  | enter (h : m.place i = .entering) (hfree : m.holder = none) :
      Step blocked i m (m.take i .testing)
  | sleep (h : m.place i = .testing) (hblocked : blocked m.value) :
      Step blocked i m (m.give i .asleep)
  | pass (h : m.place i = .testing) (hpass : ¬ blocked m.value) :
      Step blocked i m (m.move i .leaving)
  | leave (h : m.place i = .leaving) : Step blocked i m (m.give i .outside)
  -- a spurious wake-up
  | wake (h : m.place i = .asleep) : Step blocked i m (m.move i .woken)
  | resume (h : m.place i = .woken) (hfree : m.holder = none) :
      Step blocked i m (m.take i .testing)
  | call (h : m.place i = .outside) : Step blocked i m (m.move i .acquiring)
  | acquire (h : m.place i = .acquiring) (hfree : m.holder = none) :
      Step blocked i m (m.take i .writing)
  | write (h : m.place i = .writing) (v : σ) : Step blocked i m (m.store i v)
  | notify (h : m.place i = .notifying) : Step blocked i m (m.notifyAll i)
  | release (h : m.place i = .releasing) : Step blocked i m (m.give i .outside)

/-- The lock has the one holder it names, and no thread sleeps on a value that does not block,
unless its wake-up is due. -/
structure Sound (blocked : σ → Prop) (m : Monitor ι σ) : Prop where
  holder_iff : ∀ i, m.holder = some i ↔ (m.place i).holds = true
  asleep : ∀ i, m.place i = .asleep → blocked m.value ∨ ∃ j, m.place j = .notifying

variable {blocked : σ → Prop} {m m' : Monitor ι σ} {i j : ι}

/-! ## The lock -/

omit [DecidableEq ι] in
/-- At most one thread is between taking the lock and letting go of it. -/
theorem Sound.exclusive (h : Sound blocked m) (hi : (m.place i).holds = true)
    (hj : (m.place j).holds = true) : i = j := by
  have hi := (h.holder_iff i).mpr hi
  have hj := (h.holder_iff j).mpr hj
  exact Option.some.inj (hi.symm.trans hj)

omit [DecidableEq ι] in
/-- While the lock is free nobody is inside. -/
theorem Sound.free (h : Sound blocked m) (hfree : m.holder = none) (i : ι) :
    (m.place i).holds = false := by
  cases hp : (m.place i).holds with
  | false => rfl
  | true => simp [(h.holder_iff i).mpr hp] at hfree

/-- A step on the same side of the lock leaves the holder as it was. -/
theorem Sound.holder_move (h : Sound blocked m) {p : Place}
    (hp : p.holds = (m.place i).holds) (j : ι) :
    m.holder = some j ↔ (Function.update m.place i p j).holds = true := by
  rw [h.holder_iff j]
  by_cases hj : j = i
  · subst hj
    rw [Function.update_self, hp]
  · rw [Function.update_of_ne hj]

/-- Taking a free lock. -/
theorem Sound.holder_take (h : Sound blocked m) (hfree : m.holder = none) {p : Place}
    (hp : p.holds = true) (j : ι) :
    some i = some j ↔ (Function.update m.place i p j).holds = true := by
  by_cases hj : j = i
  · subst hj
    simp [hp]
  · simp [Function.update_of_ne hj, h.free hfree j, Ne.symm hj]

/-- Letting go of the lock. -/
theorem Sound.holder_give (h : Sound blocked m) (hi : (m.place i).holds = true) {p : Place}
    (hp : p.holds = false) (j : ι) :
    (none : Option ι) = some j ↔ (Function.update m.place i p j).holds = true := by
  by_cases hj : j = i
  · subst hj
    simp [hp]
  · have hout : (m.place j).holds = false := by
      cases hp : (m.place j).holds with
      | false => rfl
      | true => exact absurd (h.exclusive hp hi) hj
    simp [Function.update_of_ne hj, hout]

/-! ## The sleepers -/

/-- A step of a thread that has no wake-up to deliver leaves the others' sleep justified. -/
theorem Sound.asleep_update (h : Sound blocked m) {p : Place} (hi : m.place i ≠ .notifying)
    (hp : p = .asleep → blocked m.value) (j : ι)
    (hj : Function.update m.place i p j = .asleep) :
    blocked m.value ∨ ∃ k, Function.update m.place i p k = .notifying := by
  by_cases hji : j = i
  · subst hji
    rw [Function.update_self] at hj
    exact .inl (hp hj)
  · rw [Function.update_of_ne hji] at hj
    obtain hblocked | ⟨k, hk⟩ := h.asleep j hj
    · exact .inl hblocked
    · have hki : k ≠ i := fun heq => hi (heq ▸ hk)
      exact .inr ⟨k, by rw [Function.update_of_ne hki, hk]⟩

/-- Every step of every thread keeps the monitor sound. -/
theorem Step.sound (hstep : Step blocked i m m') (h : Sound blocked m) : Sound blocked m' := by
  cases hstep with
  | wait hp | wake hp | call hp =>
      exact ⟨h.holder_move (by rw [hp]; rfl), h.asleep_update (by simp [hp]) (by simp)⟩
  | pass hp hpass =>
      exact ⟨h.holder_move (by rw [hp]; rfl), h.asleep_update (by simp [hp]) (by simp)⟩
  | enter hp hfree | resume hp hfree | acquire hp hfree =>
      exact ⟨h.holder_take hfree rfl, h.asleep_update (by simp [hp]) (by simp)⟩
  | leave hp | release hp =>
      exact ⟨h.holder_give (by rw [hp]; rfl) rfl, h.asleep_update (by simp [hp]) (by simp)⟩
  -- the test was made under the lock, so the value still blocks
  | sleep hp hblocked =>
      exact ⟨h.holder_give (by rw [hp]; rfl) rfl,
        h.asleep_update (by simp [hp]) (fun _ => hblocked)⟩
  -- until the writer has notified, it vouches for the sleepers
  | write hp v =>
      exact ⟨h.holder_move (by rw [hp]; rfl), fun j _ => .inr ⟨i, Function.update_self ..⟩⟩
  | notify hp =>
      have hplace : ∀ j, ((m.notifyAll i).place j).holds = (m.place j).holds := by
        intro j
        by_cases hj : j = i
        · subst hj
          simp [notifyAll, hp, Place.holds]
        · by_cases hs : m.place j = .asleep <;> simp [notifyAll, hj, hs, Place.holds]
      refine ⟨fun j => by rw [hplace j]; exact h.holder_iff j, fun j hj => ?_⟩
      by_cases hji : j = i
      · subst hji
        simp [notifyAll] at hj
      · by_cases hs : m.place j = .asleep <;> simp [notifyAll, hji, hs] at hj

omit [DecidableEq ι] in
/-- While the lock is free, whoever sleeps has reason to. -/
theorem Sound.sleeps_blocked (h : Sound blocked m) (hfree : m.holder = none)
    (hi : m.place i = .asleep) : blocked m.value := by
  obtain hblocked | ⟨j, hj⟩ := h.asleep i hi
  · exact hblocked
  · have hout := h.free hfree j
    simp [hj, Place.holds] at hout

end Monitor

end Fieldbus
