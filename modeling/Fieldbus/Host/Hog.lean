import Fieldbus.Library.Monitor

/-!
# The pool of spinning threads

After `host/src/hog.rs`. The control thread and the spinners share an atomic state, a mutex and a
condition variable; the steps below are those of one thread at a time, in any order.

The state is read in the spin loop without the lock and with relaxed ordering, so a spinner may read
any value stored since the one it read last. The values ever stored are kept, oldest first, and a
load picks one of them; a test under the lock sees the newest. What the operating system answers to
a spinner's scheduling request is a parameter.
-/

namespace Fieldbus

/-- `IDLE`, `ACTIVE` and `TERMINATE`. -/
inductive Status where
  | idle
  | active
  | terminate
  deriving DecidableEq, Repr

/-- What a thread asked the scheduler for and what came of it. -/
structure SchedulingReport where
  requested : String
  granted : Bool
  detail : String
  qosClass : String
  deriving DecidableEq, Repr

/-- What the spinners' scheduling request produced. -/
structure PolicyObserved where
  requested : String
  qosClass : String
  deriving DecidableEq, Repr

/-- The threads around a signal: the control thread, and the spinners of the pool. -/
inductive Thread (n : Nat) where
  | control
  | spinner (i : Fin n)
  deriving DecidableEq

/-- How far a spinner is: not created, before its scheduling request, before noting the answer, in
its loop, returned. -/
inductive Spinner where
  | unborn
  | starting
  | observing
  | looping
  | exited
  deriving DecidableEq, Repr

/-- A spinner has its answer from the scheduler. -/
def Spinner.asked : Spinner → Bool
  | .unborn | .starting => false
  | .observing | .looping | .exited => true

/-- How far the control thread is: creating a spinner, between two calls, inside `set`, joining a
spinner, past `stop`. -/
inductive Control where
  | spawning (k : Nat)
  | between
  | setting (next : Status)
  | joining (k : Nat)
  | stopped
  deriving DecidableEq, Repr

/-- The pool and its signal. -/
structure CpuHog (n : Nat) where
  signal : Monitor (Thread n) (List Status)
  seen : Fin n → Nat
  spinner : Fin n → Spinner
  control : Control
  granted : Nat
  policy : PolicyObserved

namespace CpuHog

/-- The condition of the idle wait: the newest state is `IDLE`. -/
def isIdle (writes : List Status) : Prop := writes.getLast? = some .idle

variable {n : Nat}

/-- A pool with nothing spawned yet. -/
def new (n : Nat) : CpuHog n where
  signal := ⟨[.idle], none, fun _ => .outside⟩
  seen := fun _ => 0
  spinner := fun _ => .unborn
  control := .spawning 0
  granted := 0
  policy := ⟨"", ""⟩

/-- In its loop, a spinner may load the value stored as number `k`. -/
structure Loads (h : CpuHog n) (i : Fin n) (k : Nat) (v : Status) : Prop where
  looping : h.spinner i = .looping
  outside : h.signal.place (.spinner i) = .outside
  newer : h.seen i ≤ k
  stored : h.signal.value[k]? = some v

/-- A spinner that loads `ACTIVE` burns one round of its floating-point chain. -/
inductive Spin (h : CpuHog n) : CpuHog n → Prop where
  | active {i : Fin n} {k : Nat} (hload : h.Loads i k .active) :
      Spin h { h with seen := Function.update h.seen i k }

/-- Every other step of a thread. -/
inductive Step (report : Fin n → SchedulingReport) (h : CpuHog n) : CpuHog n → Prop where
  -- `spawn`
  | spawn (i : Fin n) (hc : h.control = .spawning i) :
      Step report h { h with
        spinner := Function.update h.spinner i .starting, control := .spawning (i + 1) }
  | spawned (hc : h.control = .spawning n) : Step report h { h with control := .between }
  -- the spinner before its loop
  | apply (i : Fin n) (hi : h.spinner i = .starting) :
      Step report h { h with
        spinner := Function.update h.spinner i .observing
        granted := if (report i).granted then h.granted + 1 else h.granted }
  | observe (i : Fin n) (hi : h.spinner i = .observing) :
      Step report h { h with
        spinner := Function.update h.spinner i .looping
        policy := ⟨(report i).requested, (report i).qosClass⟩ }
  -- the spinner's loop, by the state it loads
  | quit (i : Fin n) (k : Nat) (hload : h.Loads i k .terminate) :
      Step report h { h with
        seen := Function.update h.seen i k
        spinner := Function.update h.spinner i .exited }
  | wait (i : Fin n) (k : Nat) (hload : h.Loads i k .idle) :
      Step report h { h with
        seen := Function.update h.seen i k
        signal := h.signal.move (.spinner i) .entering }
  -- the idle wait
  | enter (i : Fin n) (hi : h.signal.place (.spinner i) = .entering)
      (hfree : h.signal.holder = none) :
      Step report h { h with signal := h.signal.take (.spinner i) .testing }
  | sleep (i : Fin n) (hi : h.signal.place (.spinner i) = .testing)
      (hidle : isIdle h.signal.value) :
      Step report h { h with
        seen := Function.update h.seen i (h.signal.value.length - 1)
        signal := h.signal.give (.spinner i) .asleep }
  | pass (i : Fin n) (hi : h.signal.place (.spinner i) = .testing)
      (hidle : ¬ isIdle h.signal.value) :
      Step report h { h with
        seen := Function.update h.seen i (h.signal.value.length - 1)
        signal := h.signal.move (.spinner i) .leaving }
  | leave (i : Fin n) (hi : h.signal.place (.spinner i) = .leaving) :
      Step report h { h with signal := h.signal.give (.spinner i) .outside }
  | wake (i : Fin n) (hi : h.signal.place (.spinner i) = .asleep) :
      Step report h { h with signal := h.signal.move (.spinner i) .woken }
  | resume (i : Fin n) (hi : h.signal.place (.spinner i) = .woken)
      (hfree : h.signal.holder = none) :
      Step report h { h with signal := h.signal.take (.spinner i) .testing }
  -- `activate` and `deactivate`
  | set (next : Status) (hc : h.control = .between) (hnext : next ≠ .terminate) :
      Step report h { h with
        control := .setting next, signal := h.signal.move .control .acquiring }
  -- `stop`, which returns at once when there are no handles
  | stop (hc : h.control = .between) (hn : 0 < n) :
      Step report h { h with
        control := .setting .terminate, signal := h.signal.move .control .acquiring }
  | stopEmpty (hc : h.control = .between) (hn : n = 0) :
      Step report h { h with control := .stopped }
  -- `Signal::set`
  | acquire (hp : h.signal.place .control = .acquiring) (hfree : h.signal.holder = none) :
      Step report h { h with signal := h.signal.take .control .writing }
  | store (next : Status) (hc : h.control = .setting next)
      (hp : h.signal.place .control = .writing) :
      Step report h { h with signal := h.signal.store .control (h.signal.value ++ [next]) }
  | notify (hp : h.signal.place .control = .notifying) :
      Step report h { h with signal := h.signal.notifyAll .control }
  | release (next : Status) (hc : h.control = .setting next)
      (hp : h.signal.place .control = .releasing) :
      Step report h { h with
        control := if next = .terminate then .joining 0 else .between
        signal := h.signal.give .control .outside }
  -- the joins, one handle after the other
  | join (i : Fin n) (hc : h.control = .joining i) (hi : h.spinner i = .exited) :
      Step report h { h with control := .joining (i + 1) }
  | joined (hc : h.control = .joining n) : Step report h { h with control := .stopped }

/-- A step of any thread. -/
def Moves (report : Fin n → SchedulingReport) (h h' : CpuHog n) : Prop :=
  h.Spin h' ∨ Step report h h'

/-- What the threads can bring the pool to, in any order of their steps. -/
def Reachable (report : Fin n → SchedulingReport) (h : CpuHog n) : Prop :=
  Relation.ReflTransGen (Moves report) (new n) h

end CpuHog

end Fieldbus
