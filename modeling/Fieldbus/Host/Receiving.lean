import Mathlib.Data.Nat.Count
import Fieldbus.Core.Node
import Fieldbus.Host.SocketCan

/-!
# Receiving from a socket

After `SocketCanBus::recv_until` of `host/src/socketcan.rs` and the receive and step of the loop of
`host/src/runner.rs`. The socket is an arbitrary infinite sequence of read results. The receive loop
leaves only on a failed read and does not look at its deadline, so it is written with a fuel of
reads: `returns_iff` and `step_reached_iff` say for which sequences some fuel is enough.
-/

namespace Fieldbus.SocketCan

open J1939

variable {c : Crate} {ε : Type}

/-- The loop of `recv_until` from the read at `cursor` on: the frames, and the read after the last
one. -/
def recvLoop (c : Crate) (reads : ℕ → Except ε (CanFrame c)) :
    ℕ → ℕ → List Frame → Option (List Frame × ℕ)
  | 0, _, _ => none
  | fuel + 1, cursor, out =>
      match reads cursor with
      | .ok f => recvLoop c reads fuel (cursor + 1) (out ++ (c.fromSocketcan f).toList)
      -- any error: an empty queue, a timeout or a broken socket
      | .error _ => some (out, cursor + 1)

/-- Drain the socket; the deadline is not used. -/
def recvUntil (c : Crate) (reads : ℕ → Except ε (CanFrame c)) (fuel cursor : ℕ)
    (_deadlineUs : UInt64) : Option (List Frame × ℕ) :=
  recvLoop c reads fuel cursor []

/-- The call made at `cursor` returns after finitely many reads. -/
def Returns (c : Crate) (reads : ℕ → Except ε (CanFrame c)) (cursor : ℕ) (deadlineUs : UInt64) :
    Prop :=
  ∃ fuel result, recvUntil c reads fuel cursor deadlineUs = some result

/-- The node and the socket after the given number of cycles: receive, then step. -/
def runCycles {F : Type} [Scalar F] (c : Crate) (reads : ℕ → Except ε (CanFrame c)) (fuel : ℕ)
    (startUs deadlineUs : ℕ → UInt64) (node : ControlNode F) : ℕ → Option (ControlNode F × ℕ)
  | 0 => some (node, 0)
  | cycle + 1 => do
      let (node, cursor) ← runCycles c reads fuel startUs deadlineUs node cycle
      let (frames, next) ← recvUntil c reads fuel cursor (deadlineUs cycle)
      pure ((node.step (startUs cycle) frames).1, next)

/-- The run gets past the receive of the given cycle and takes the node's step. -/
def StepReached {F : Type} [Scalar F] (c : Crate) (reads : ℕ → Except ε (CanFrame c))
    (startUs deadlineUs : ℕ → UInt64) (node : ControlNode F) (cycle : ℕ) : Prop :=
  ∃ fuel, (runCycles c reads fuel startUs deadlineUs node (cycle + 1)).isSome

/-- The read fails. -/
def Fails (reads : ℕ → Except ε (CanFrame c)) (k : ℕ) : Prop :=
  (reads k).isOk = false

instance (reads : ℕ → Except ε (CanFrame c)) : DecidablePred (Fails reads) :=
  fun k => inferInstanceAs (Decidable ((reads k).isOk = false))

/-- What the node sees of a read. -/
def received (c : Crate) : Except ε (CanFrame c) → List Frame
  | .ok f => (c.fromSocketcan f).toList
  | .error _ => []

variable {reads : ℕ → Except ε (CanFrame c)}

/-- The loop consumes exactly the reads up to the first failing one and returns what they hold. -/
theorem recv_loop_eq {n cursor : ℕ} (hbefore : ∀ i < n, ¬ Fails reads (cursor + i))
    (hfails : Fails reads (cursor + n)) {fuel : ℕ} (hfuel : n < fuel) (out : List Frame) :
    recvLoop c reads fuel cursor out =
      some (out ++ (List.range n).flatMap fun i => received c (reads (cursor + i)),
        cursor + n + 1) := by
  induction n generalizing cursor fuel out with
  | zero =>
      obtain ⟨fuel, rfl⟩ : ∃ k, fuel = k + 1 := ⟨fuel - 1, by omega⟩
      cases hread : reads cursor with
      | ok f => simp [Fails, hread, Except.isOk, Except.toBool] at hfails
      | error e => simp [recvLoop, hread]
  | succ n ih =>
      obtain ⟨fuel, rfl⟩ : ∃ k, fuel = k + 1 := ⟨fuel - 1, by omega⟩
      have hfirst := hbefore 0 (by omega)
      cases hread : reads cursor with
      | error e => simp [Fails, hread, Except.isOk, Except.toBool] at hfirst
      | ok f =>
          have hshift : ∀ i, cursor + 1 + i = cursor + (i + 1) := fun i => by omega
          have htail : ∀ i < n, ¬ Fails reads (cursor + 1 + i) := by
            intro i hi
            rw [hshift]
            exact hbefore (i + 1) (by omega)
          have hlast : Fails reads (cursor + 1 + n) := by rwa [hshift]
          have hrest := ih htail hlast (Nat.lt_of_succ_lt_succ hfuel)
            (out ++ (c.fromSocketcan f).toList)
          simp only [recvLoop, hread]
          rw [hrest, List.range_succ_eq_map, List.flatMap_cons, List.flatMap_map]
          simp [received, hread, hshift]

/-- A loop that returns has met a failing read, the first one. -/
theorem recv_loop_some {fuel cursor : ℕ} {out : List Frame} {result : List Frame × ℕ}
    (h : recvLoop c reads fuel cursor out = some result) :
    ∃ n, (∀ i < n, ¬ Fails reads (cursor + i)) ∧ Fails reads (cursor + n) ∧
      result.2 = cursor + n + 1 := by
  induction fuel generalizing cursor out with
  | zero => cases h
  | succ fuel ih =>
      cases hread : reads cursor with
      | error e =>
          simp only [recvLoop, hread, Option.some.injEq] at h
          subst h
          exact ⟨0, fun i hi => absurd hi (Nat.not_lt_zero i), by simp [Fails, hread]; rfl, rfl⟩
      | ok f =>
          simp only [recvLoop, hread] at h
          obtain ⟨n, hbefore, hfails, hnext⟩ := ih h
          have hshift : ∀ i, cursor + 1 + i = cursor + (i + 1) := fun i => by omega
          refine ⟨n + 1, fun i hi => ?_, by rw [← hshift]; exact hfails, by rw [hnext]; omega⟩
          cases i with
          | zero => simp [Fails, hread, Except.isOk, Except.toBool]
          | succ i => rw [← hshift]; exact hbefore i (by omega)

/-- A failing read behind the cursor has a first one before it. -/
theorem first_failing {cursor k : ℕ} (hk : cursor ≤ k) (hfails : Fails reads k) :
    ∃ n, (∀ i < n, ¬ Fails reads (cursor + i)) ∧ Fails reads (cursor + n) ∧ cursor + n ≤ k := by
  have hexists : ∃ n, Fails reads (cursor + n) := ⟨k - cursor, by rwa [Nat.add_sub_cancel' hk]⟩
  refine ⟨Nat.find hexists, fun i hi => Nat.find_min hexists hi, Nat.find_spec hexists, ?_⟩
  have hle : Nat.find hexists ≤ k - cursor :=
    Nat.find_min' hexists (by rwa [Nat.add_sub_cancel' hk])
  omega

/-- A call returns if and only if a read to come fails. -/
theorem returns_iff (cursor : ℕ) (deadlineUs : UInt64) :
    Returns c reads cursor deadlineUs ↔ ∃ k, cursor ≤ k ∧ Fails reads k := by
  constructor
  · rintro ⟨fuel, result, h⟩
    obtain ⟨n, -, hfails, -⟩ := recv_loop_some h
    exact ⟨cursor + n, by omega, hfails⟩
  · rintro ⟨k, hk, hfails⟩
    obtain ⟨n, hbefore, hfirst, -⟩ := first_failing hk hfails
    exact ⟨n + 1, _, recv_loop_eq hbefore hfirst (Nat.lt_succ_self n) []⟩

/-- Past the first failing read one more of the failures is consumed. -/
theorem count_next {cursor n : ℕ} (hbefore : ∀ i < n, ¬ Fails reads (cursor + i))
    (hfails : Fails reads (cursor + n)) :
    Nat.count (Fails reads) (cursor + n + 1) = Nat.count (Fails reads) cursor + 1 := by
  rw [Nat.count_succ, if_pos hfails, Nat.count_add]
  have hnone : Nat.count (fun k => Fails reads (cursor + k)) n = 0 :=
    Nat.count_iff_forall_not.mpr hbefore
  rw [hnone]

section Cycles

variable {F : Type} [Scalar F] {startUs deadlineUs : ℕ → UInt64} {node : ControlNode F}

/-- After as many cycles as the run completes, as many reads have failed. -/
theorem run_cycles_count {fuel cycles : ℕ} {result : ControlNode F × ℕ}
    (h : runCycles c reads fuel startUs deadlineUs node cycles = some result) :
    Nat.count (Fails reads) result.2 = cycles := by
  induction cycles generalizing result with
  | zero =>
      simp only [runCycles, Option.some.injEq] at h
      rw [← h, Nat.count_zero]
  | succ cycles ih =>
      simp only [runCycles, bind, Option.bind_eq_some_iff, pure, Option.some.injEq] at h
      obtain ⟨before, hbefore, received, hreceived, rfl⟩ := h
      obtain ⟨n, hnone, hfails, hnext⟩ := recv_loop_some hreceived
      show Nat.count (Fails reads) received.2 = _
      rw [hnext, count_next hnone hfails, ih hbefore]

/-- Where enough reads fail before a bound, that bound is fuel enough for the cycles. -/
theorem run_cycles_of_count {cycles bound : ℕ} (h : cycles ≤ Nat.count (Fails reads) bound) :
    ∃ result, runCycles c reads bound startUs deadlineUs node cycles = some result := by
  induction cycles with
  | zero => exact ⟨_, rfl⟩
  | succ cycles ih =>
      obtain ⟨before, hbefore⟩ := ih (by omega)
      have hcount := run_cycles_count hbefore
      obtain ⟨k, hk, hfails⟩ := Nat.exists_of_count_lt_count
        (show Nat.count (Fails reads) before.2 < Nat.count (Fails reads) bound by omega)
      obtain ⟨hle, hlt⟩ := Set.mem_Ico.mp hk
      obtain ⟨n, hnone, hfirst, hn⟩ := first_failing hle hfails
      obtain ⟨received, hreceived⟩ :
          ∃ received, recvUntil c reads bound before.2 (deadlineUs cycles) = some received :=
        ⟨_, recv_loop_eq hnone hfirst (by omega) []⟩
      exact ⟨((before.1.step (startUs cycles) received.1).1, received.2), by
        simp [runCycles, hbefore, hreceived]⟩

/-- The step of a cycle is reached if and only if more reads fail than there were cycles before
it. -/
theorem step_reached_iff (cycle : ℕ) :
    StepReached c reads startUs deadlineUs node cycle ↔
      ∃ bound, cycle < Nat.count (Fails reads) bound := by
  constructor
  · rintro ⟨fuel, h⟩
    obtain ⟨result, hresult⟩ := Option.isSome_iff_exists.mp h
    exact ⟨result.2, by rw [run_cycles_count hresult]; omega⟩
  · rintro ⟨bound, h⟩
    obtain ⟨result, hresult⟩ : ∃ result,
        runCycles c reads bound startUs deadlineUs node (cycle + 1) = some result :=
      run_cycles_of_count h
    exact ⟨bound, by rw [hresult]; rfl⟩

end Cycles

/-- For every sequence of reads: a call returns if and only if a read to come fails, and the node's
step is reached in a cycle if and only if the reads fail once more than there were cycles before. -/
theorem receiving_terminates_iff {F : Type} [Scalar F] (reads : ℕ → Except ε (CanFrame c))
    (startUs deadlineUs : ℕ → UInt64) (node : ControlNode F) :
    (∀ cursor deadlineUs, Returns c reads cursor deadlineUs ↔
      ∃ k, cursor ≤ k ∧ Fails reads k) ∧
    ∀ cycle, StepReached c reads startUs deadlineUs node cycle ↔
      ∃ bound, cycle < Nat.count (Fails reads) bound :=
  ⟨returns_iff, step_reached_iff⟩

/-- An endless flood of remote frames, none of which the validator would see: the first call does
not return and the first step is not reached. -/
theorem flood_not_returning :
    ¬ Returns Crate.storing (fun _ => (.ok (.remote (.standard 0, 0)) : Except Unit _)) 0 10000 ∧
    ¬ StepReached Crate.storing (fun _ => (.ok (.remote (.standard 0, 0)) : Except Unit _))
      (fun _ => 0) (fun _ => 10000) (ControlNode.new 0 : ControlNode ℚ) 0 := by
  have hnone : ∀ k, ¬ Fails (c := Crate.storing)
      (fun _ => (.ok (.remote (.standard 0, 0)) : Except Unit _)) k := by
    intro k
    simp [Fails, Except.isOk, Except.toBool]
  constructor
  · rw [returns_iff]
    rintro ⟨k, -, hfails⟩
    exact hnone k hfails
  · rw [step_reached_iff]
    rintro ⟨bound, hcount⟩
    obtain ⟨k, -, hfails⟩ := Nat.count_ne_iff_exists.mp (Nat.pos_iff_ne_zero.mp hcount)
    exact hnone k hfails

end Fieldbus.SocketCan
