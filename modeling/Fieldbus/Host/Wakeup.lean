import Fieldbus.Host.Hog
import Mathlib.Data.Fintype.Card

/-!
# No wake-up is lost

`Consistent` is what every order of the pool's steps keeps: where the threads stand, what the signal
says, how spinners end and what they report. The pool's steps are steps of a monitor
(`Step.signal`), whose soundness `no_lost_wakeup` reads off.
-/

namespace Fieldbus.CpuHog

variable {n : Nat} {report : Fin n → SchedulingReport} {h h' : CpuHog n}

/-! ## Who stands where -/

/-- The spinners that exist are those created so far. -/
structure Born (h : CpuHog n) : Prop where
  unborn : ∀ k, h.control = .spawning k → ∀ i : Fin n, k ≤ i → h.spinner i = .unborn
  born : ∀ i : Fin n, (∀ k, h.control = .spawning k → i < k) → h.spinner i ≠ .unborn

/-- Only a looping spinner is in the code of the idle wait. -/
structure Waits (h : CpuHog n) : Prop where
  reads : ∀ i, (h.signal.place (.spinner i)).reads = true
  looping : ∀ i, h.signal.place (.spinner i) ≠ .outside → h.spinner i = .looping

/-- Only a call of `set` brings the control thread into the code of a write. -/
structure Calls (h : CpuHog n) : Prop where
  writes : (h.signal.place .control).reads = true → h.signal.place .control = .outside
  setting : h.signal.place .control ≠ .outside → ∃ next, h.control = .setting next
  calling : ∀ next, h.control = .setting next → h.signal.place .control ≠ .outside

/-- Where the threads stand. -/
structure Placed (h : CpuHog n) : Prop extends Born h, Waits h, Calls h

theorem Placed.new : (new n).Placed := by
  refine ⟨⟨?_, ?_⟩, ⟨?_, ?_⟩, ⟨?_, ?_, ?_⟩⟩ <;> simp [CpuHog.new, Place.reads]

theorem Spin.placed (hspin : h.Spin h') (hh : h.Placed) : h'.Placed := by
  cases hspin with
  | active hload =>
      exact ⟨⟨hh.unborn, hh.born⟩, ⟨hh.reads, hh.looping⟩, ⟨hh.writes, hh.setting, hh.calling⟩⟩

theorem Step.born (hstep : Step report h h') (hh : h.Born) : h'.Born := by
  obtain ⟨hunborn, hborn⟩ := hh
  cases hstep with
  -- the spinner that is created is the next one
  | spawn i hc => constructor <;> grind [Function.update_apply]
  | apply i hi | observe i hi => constructor <;> grind [Function.update_apply]
  | quit i k hload => constructor <;> grind [Function.update_apply, Loads]
  | wait | enter | sleep | pass | leave | wake | resume => exact ⟨hunborn, hborn⟩
  | acquire | store | notify => exact ⟨hunborn, hborn⟩
  -- the control thread is not creating any more
  | spawned hc => constructor <;> grind
  | set next hc | stop hc | stopEmpty hc | release next hc | join i hc | joined hc =>
      exact ⟨by grind, fun i _ => hborn i (by grind)⟩

theorem Step.waits (hstep : Step report h h') (hborn : h.Born) (hh : h.Waits) : h'.Waits := by
  obtain ⟨hreads, hlooping⟩ := hh
  have hunborn := hborn.unborn
  cases hstep with
  | spawn i hc => exact ⟨hreads, by grind [Function.update_apply]⟩
  | apply i hi | observe i hi => exact ⟨hreads, by grind [Function.update_apply]⟩
  | quit i k hload => exact ⟨hreads, by grind [Function.update_apply, Loads]⟩
  | wait i k hload => constructor <;> grind [Place.reads, Loads]
  | enter | sleep | pass | leave | wake | resume => constructor <;> grind [Place.reads]
  | spawned | stopEmpty | join | joined => exact ⟨hreads, hlooping⟩
  -- the spinners stay where they are, unless they are woken
  | set | stop | acquire | store | notify | release => constructor <;> grind [Place.reads]

theorem Calls.congr (hh : h.Calls) (hcontrol : h'.control = h.control)
    (hplace : h'.signal.place .control = h.signal.place .control) : h'.Calls := by
  obtain ⟨hwrites, hsetting, hcalling⟩ := hh
  constructor <;> simpa only [hcontrol, hplace]

theorem Step.calls (hstep : Step report h h') (hh : h.Calls) : h'.Calls := by
  obtain ⟨hwrites, hsetting, hcalling⟩ := id hh
  cases hstep with
  | apply | observe | quit => exact ⟨hwrites, hsetting, hcalling⟩
  | wait | enter | sleep | pass | leave | wake | resume => exact hh.congr rfl (by simp)
  | spawn i hc | spawned hc | stopEmpty hc | join i hc | joined hc => constructor <;> grind
  | set next hc hnext => exact ⟨by simp [Place.reads], fun _ => ⟨next, rfl⟩, by simp⟩
  | stop hc hn => exact ⟨by simp [Place.reads], fun _ => ⟨.terminate, rfl⟩, by simp⟩
  | acquire hp hfree | notify hp =>
      exact ⟨by simp [Place.reads], fun _ => hsetting (by simp [hp]), by simp⟩
  | store next hc hw => exact ⟨by simp [Place.reads], fun _ => ⟨next, hc⟩, by simp⟩
  | release next hc hp =>
      refine ⟨fun _ => by simp, by simp, ?_⟩
      dsimp only
      split <;> simp

theorem Step.placed (hstep : Step report h h') (hh : h.Placed) : h'.Placed :=
  ⟨hstep.born hh.toBorn, hstep.waits hh.toBorn hh.toWaits, hstep.calls hh.toCalls⟩

/-! ## What the signal says -/

/-- What a spinner has read was stored; who has passed the test under the lock has read the newest
value. -/
structure Read (h : CpuHog n) : Prop where
  written : 0 < h.signal.value.length
  seen : ∀ i, h.seen i < h.signal.value.length
  fresh : ∀ i, h.signal.place (.spinner i) = .leaving → h.seen i + 1 = h.signal.value.length

/-- What `set` has stored is the newest value, and stays it once `stop` is joining. -/
structure Stored (h : CpuHog n) : Prop where
  stored : ∀ next, h.control = .setting next →
    h.signal.place .control = .notifying ∨ h.signal.place .control = .releasing →
      h.signal.value.getLast? = some next
  joining : ∀ k, h.control = .joining k → h.signal.value.getLast? = some .terminate

/-- What the signal says. -/
structure Signalled (h : CpuHog n) : Prop extends Read h, Stored h where
  sound : Monitor.Sound isIdle h.signal

theorem Signalled.new : (new n).Signalled := by
  refine ⟨⟨?_, ?_, ?_⟩, ⟨?_, ?_⟩, ⟨?_, ?_⟩⟩ <;> simp [CpuHog.new, Place.holds]

theorem Spin.signalled (hspin : h.Spin h') (hh : h.Signalled) : h'.Signalled := by
  have hseen := hh.seen
  have hfresh := hh.fresh
  cases hspin with
  | active hload =>
      refine ⟨⟨hh.written, ?_, ?_⟩, ⟨hh.stored, hh.joining⟩, hh.sound⟩ <;>
        grind [Function.update_apply, Loads]

/-- A step of the pool is a step of the monitor, or leaves the signal alone. -/
theorem Step.signal (hstep : Step report h h') (hp : h.Placed) :
    h'.signal = h.signal ∨ ∃ t, Monitor.Step isIdle t h.signal h'.signal := by
  have hout (hc : h.control = .between) : h.signal.place .control = .outside := by
    by_contra hne
    obtain ⟨next, hnext⟩ := hp.setting hne
    simp [hc] at hnext
  cases hstep with
  | spawn | spawned | apply | observe | quit | stopEmpty | join | joined => exact .inl rfl
  | wait i k hload => exact .inr ⟨_, .wait hload.outside⟩
  | enter i hi hfree => exact .inr ⟨_, .enter hi hfree⟩
  | sleep i hi hidle => exact .inr ⟨_, .sleep hi hidle⟩
  | pass i hi hidle => exact .inr ⟨_, .pass hi hidle⟩
  | leave i hi => exact .inr ⟨_, .leave hi⟩
  | wake i hi => exact .inr ⟨_, .wake hi⟩
  | resume i hi hfree => exact .inr ⟨_, .resume hi hfree⟩
  | set next hc hnext => exact .inr ⟨_, .call (hout hc)⟩
  | stop hc hn => exact .inr ⟨_, .call (hout hc)⟩
  | acquire hp hfree => exact .inr ⟨_, .acquire hp hfree⟩
  | store next hc hp => exact .inr ⟨_, .write hp _⟩
  | notify hp => exact .inr ⟨_, .notify hp⟩
  | release next hc hp => exact .inr ⟨_, .release hp⟩

/-- The pool refines the monitor, so its signal stays sound. -/
theorem Step.sound (hstep : Step report h h') (hp : h.Placed)
    (hh : Monitor.Sound isIdle h.signal) : Monitor.Sound isIdle h'.signal := by
  obtain heq | ⟨t, ht⟩ := hstep.signal hp
  · rw [heq]
    exact hh
  · exact ht.sound hh

theorem Step.read (hstep : Step report h h') (hh : h.Signalled) : h'.Read := by
  obtain ⟨⟨hwritten, hseen, hfresh⟩, -, hsound⟩ := hh
  cases hstep with
  | spawn | spawned | apply | observe | stopEmpty | join | joined =>
      exact ⟨hwritten, hseen, hfresh⟩
  | quit i k hload | wait i k hload =>
      exact ⟨hwritten, by grind [Function.update_apply, Loads],
        by grind [Function.update_apply, Loads]⟩
  | enter | leave | wake | resume => exact ⟨hwritten, hseen, by grind⟩
  -- the test under the lock reads the newest value
  | sleep i hi hidle | pass i hi hidle =>
      exact ⟨hwritten, by grind [Function.update_apply], by grind [Function.update_apply]⟩
  | set | stop | acquire | notify | release => exact ⟨hwritten, hseen, by grind⟩
  | store next hc hw =>
      -- the lock keeps the spinners out while the value changes
      have hnone (i : Fin n) : h.signal.place (.spinner i) ≠ .leaving := by
        intro hi
        have heq := hsound.exclusive (i := .control) (j := .spinner i)
          (by rw [hw]; rfl) (by rw [hi]; rfl)
        cases heq
      constructor <;> grind

theorem Stored.congr (hh : h.Stored) (hcontrol : h'.control = h.control)
    (hplace : h'.signal.place .control = h.signal.place .control)
    (hvalue : h'.signal.value = h.signal.value) : h'.Stored := by
  obtain ⟨hstored, hjoining⟩ := hh
  constructor <;> simpa only [hcontrol, hplace, hvalue]

theorem Step.stored (hstep : Step report h h') (hp : h.Placed) (hh : h.Stored) : h'.Stored := by
  obtain ⟨hstored, hjoining⟩ := id hh
  have hwrites := hp.writes
  cases hstep with
  | apply | observe | quit => exact ⟨hstored, hjoining⟩
  | wait | enter | sleep | pass | leave | wake | resume => exact hh.congr rfl (by simp) rfl
  | spawn | spawned | stopEmpty | join | joined => constructor <;> grind
  | set | stop | acquire | notify | release => constructor <;> grind
  | store next hc hw => constructor <;> grind

theorem Step.signalled (hstep : Step report h h') (hp : h.Placed) (hh : h.Signalled) :
    h'.Signalled :=
  ⟨hstep.read hh, hstep.stored hp hh.toStored, hstep.sound hp hh.sound⟩

/-! ## How spinners end and what they report -/

/-- The control thread has called `stop`. -/
def Stopping (h : CpuHog n) : Prop :=
  h.control = .setting .terminate ∨ (∃ k, h.control = .joining k) ∨ h.control = .stopped

/-- Spinners only return on `TERMINATE`, which only `stop` stores; the joins wait for them in
order. -/
structure Ended (h : CpuHog n) : Prop where
  terminate : .terminate ∈ h.signal.value → h.Stopping
  exited : ∀ i, h.spinner i = .exited → .terminate ∈ h.signal.value
  joining : ∀ k, h.control = .joining k → k ≤ n
  joined : ∀ k, h.control = .joining k → ∀ i : Fin n, i < k → h.spinner i = .exited
  stopped : h.control = .stopped → ∀ i, h.spinner i = .exited

theorem Ended.new : (new n).Ended := by
  constructor <;> simp [CpuHog.new]

theorem Spin.ended (hspin : h.Spin h') (hh : h.Ended) : h'.Ended := by
  cases hspin with
  | active hload => exact ⟨hh.terminate, hh.exited, hh.joining, hh.joined, hh.stopped⟩

theorem Step.ended (hstep : Step report h h') (hp : h.Placed) (hh : h.Ended) : h'.Ended := by
  obtain ⟨hterminate, hexited, hjoining, hjoined, hstopped⟩ := hh
  have hsetting := hp.setting
  cases hstep with
  | spawn | apply | observe => constructor <;> grind [Function.update_apply, Stopping]
  | quit i k hload =>
      have hmem := List.mem_of_getElem? hload.stored
      constructor <;> grind [Function.update_apply, Stopping]
  | wait | enter | sleep | pass | leave | wake | resume =>
      exact ⟨hterminate, hexited, hjoining, hjoined, hstopped⟩
  | spawned | set | stop => constructor <;> grind [Stopping]
  | stopEmpty hc hn =>
      have hall (i : Fin n) : h.spinner i = .exited := by have := i.isLt; omega
      constructor <;> grind [Stopping]
  | acquire | notify => exact ⟨hterminate, hexited, hjoining, hjoined, hstopped⟩
  | store next hc hw => constructor <;> grind [Stopping]
  | release next hc hw => constructor <;> grind [Stopping]
  | join i hc hi =>
      have hbefore := hjoined _ hc
      constructor <;> grind [Stopping]
  | joined hc =>
      have hall (i : Fin n) := hjoined n hc i i.isLt
      constructor <;> grind [Stopping]

/-- The spinners that had their request granted, of those that have made it. -/
def grantedBy (report : Fin n → SchedulingReport) (h : CpuHog n) : Finset (Fin n) :=
  Finset.univ.filter (fun i => (h.spinner i).asked = true ∧ (report i).granted = true)

/-- The shared counter counts the granted requests; the shared policy is some spinner's. -/
structure Reported (report : Fin n → SchedulingReport) (h : CpuHog n) : Prop where
  granted : h.granted = (grantedBy report h).card
  policy : ∀ i, h.spinner i = .looping ∨ h.spinner i = .exited →
    ∃ j, h.policy = ⟨(report j).requested, (report j).qosClass⟩

theorem Reported.new : (new n).Reported report := by
  constructor <;> simp [CpuHog.new, grantedBy, Spinner.asked]

/-- The granted requests only depend on who has been answered. -/
theorem granted_by_congr (heq : ∀ i, (h'.spinner i).asked = (h.spinner i).asked) :
    grantedBy report h' = grantedBy report h := by
  simp only [grantedBy, heq]

/-- A spinner that is answered joins the granted ones if the answer is yes. -/
theorem card_granted_by {i : Fin n} (hi : (h.spinner i).asked = false)
    (hspinner : h'.spinner = Function.update h.spinner i .observing) :
    (grantedBy report h').card =
      if (report i).granted then (grantedBy report h).card + 1 else (grantedBy report h).card := by
  have hnot : i ∉ grantedBy report h := by simp [grantedBy, hi]
  cases hgranted : (report i).granted with
  | true =>
      have heq : grantedBy report h' = insert i (grantedBy report h) := by
        ext j
        by_cases hj : j = i
        · subst hj
          simp [grantedBy, hspinner, Spinner.asked, hgranted]
        · simp [grantedBy, hspinner, hj]
      rw [heq, Finset.card_insert_of_notMem hnot, if_pos rfl]
  | false =>
      have heq : grantedBy report h' = grantedBy report h := by
        ext j
        by_cases hj : j = i
        · subst hj
          simp [grantedBy, hgranted]
        · simp [grantedBy, hspinner, hj]
      rw [heq, if_neg (by simp)]

theorem Spin.reported (hspin : h.Spin h') (hh : h.Reported report) : h'.Reported report := by
  cases hspin with
  | active hload => exact ⟨hh.granted, hh.policy⟩

theorem Step.reported (hstep : Step report h h') (hp : h.Placed) (hh : h.Reported report) :
    h'.Reported report := by
  obtain ⟨hgranted, hpolicy⟩ := hh
  cases hstep with
  | spawn i hc =>
      have hi := hp.unborn _ hc i le_rfl
      refine ⟨?_, ?_⟩
      · rw [granted_by_congr (h := h)]
        · exact hgranted
        · intro j
          grind [Function.update_apply, Spinner.asked]
      · grind [Function.update_apply]
  | apply i hi =>
      refine ⟨?_, ?_⟩
      · rw [card_granted_by (h := h) (by rw [hi]; rfl) rfl, hgranted]
      · grind [Function.update_apply]
  | observe i hi =>
      refine ⟨?_, fun _ _ => ⟨i, rfl⟩⟩
      rw [granted_by_congr (h := h)]
      · exact hgranted
      · intro j
        grind [Function.update_apply, Spinner.asked]
  | quit i k hload =>
      have hi := hload.looping
      refine ⟨?_, ?_⟩
      · rw [granted_by_congr (h := h)]
        · exact hgranted
        · intro j
          grind [Function.update_apply, Spinner.asked]
      · intro _ _
        exact hpolicy i (.inl hi)
  | wait | enter | sleep | pass | leave | wake | resume => exact ⟨hgranted, hpolicy⟩
  | spawned | set | stop | stopEmpty => exact ⟨hgranted, hpolicy⟩
  | acquire | store | notify | release | join | joined => exact ⟨hgranted, hpolicy⟩

/-- What every order of steps keeps. -/
structure Consistent (report : Fin n → SchedulingReport) (h : CpuHog n) : Prop where
  placed : h.Placed
  signalled : h.Signalled
  ended : h.Ended
  reported : h.Reported report

theorem Spin.consistent (hspin : h.Spin h') (hh : h.Consistent report) : h'.Consistent report :=
  ⟨hspin.placed hh.placed, hspin.signalled hh.signalled, hspin.ended hh.ended,
    hspin.reported hh.reported⟩

theorem Step.consistent (hstep : Step report h h') (hh : h.Consistent report) :
    h'.Consistent report :=
  ⟨hstep.placed hh.placed, hstep.signalled hh.placed hh.signalled, hstep.ended hh.placed hh.ended,
    hstep.reported hh.placed hh.reported⟩

theorem Reachable.consistent (hreach : Reachable report h) : h.Consistent report := by
  induction hreach with
  | refl => exact ⟨.new, .new, .new, .new⟩
  | tail _ hmove ih =>
      obtain hspin | hstep := hmove
      · exact hspin.consistent ih
      · exact hstep.consistent ih

/-! ## No wake-up is lost -/

/-- Outside the calls of `set`, a sleeping spinner has reason to sleep. -/
theorem Consistent.asleep (hh : h.Consistent report) (hcall : ∀ next, h.control ≠ .setting next)
    {i : Fin n} (hi : h.signal.place (.spinner i) = .asleep) : isIdle h.signal.value := by
  obtain hidle | ⟨t, ht⟩ := hh.signalled.sound.asleep _ hi
  · exact hidle
  -- only the control thread wakes the others, and only inside `set`
  · cases t with
    | control =>
        obtain ⟨next, hnext⟩ := hh.placed.setting (by simp [ht])
        exact absurd hnext (hcall next)
    | spinner j =>
        have hreads := hh.placed.reads j
        simp [ht, Place.reads] at hreads

/-- No interleaving loses a wake-up: whenever the control thread is not inside `set`, and whenever
the lock is free, a spinner blocked on the condition variable is blocked on `IDLE`. At most one
thread is inside the lock, and a spinner has only left its loop if `stop` has been called. -/
theorem no_lost_wakeup (hreach : Reachable report h) :
    (∀ t t', (h.signal.place t).holds = true → (h.signal.place t').holds = true → t = t') ∧
    (∀ i, h.signal.place (.spinner i) = .asleep →
      (∀ next, h.control ≠ .setting next) ∨ h.signal.holder = none →
        h.signal.value.getLast? = some .idle) ∧
    (∀ i, h.spinner i = .exited → h.Stopping) := by
  have hh := hreach.consistent
  refine ⟨fun t t' => hh.signalled.sound.exclusive, fun i hi hwhen => ?_, fun i hi => ?_⟩
  · obtain hcall | hfree := hwhen
    · exact hh.asleep hcall hi
    · exact hh.signalled.sound.sleeps_blocked hfree hi
  · exact hh.ended.terminate (hh.ended.exited i hi)

/-- A spinner created, let into its loop and put to sleep. -/
theorem no_lost_wakeup_one :
    ∃ h : CpuHog 1, h.signal.place (.spinner 0) = .asleep ∧
      h.signal.value.getLast? = some .idle := by
  let report : Fin 1 → SchedulingReport := fun _ =>
    ⟨"SCHED_FIFO priority=80", true, "pthread_setschedparam rc=0", "not applicable"⟩
  have hreach : Reachable report (new 1) := .refl
  have hreach := hreach.tail (.inr (.spawn 0 rfl))
  have hreach := hreach.tail (.inr (.spawned rfl))
  have hreach := hreach.tail (.inr (.apply 0 rfl))
  have hreach := hreach.tail (.inr (.observe 0 rfl))
  have hreach := hreach.tail (.inr (.wait 0 0 ⟨rfl, rfl, le_rfl, rfl⟩))
  have hreach := hreach.tail (.inr (.enter 0 rfl rfl))
  have hreach := hreach.tail (.inr (.sleep 0 rfl rfl))
  exact ⟨_, rfl, (no_lost_wakeup hreach).2.1 0 rfl (.inr rfl)⟩

end Fieldbus.CpuHog
