import Mathlib.Data.List.Forall2

/-!
# Input/output machines

A machine is a step function `σ → ι → σ × ο`. `final` is the state after a list of inputs and
`trace` the list of outputs along the way. The rules below are the ones a run proof uses: an
invariant of one step is an invariant of the run (`final_invariant`, `trace_invariant`), and two
machines whose steps preserve a relation stay related (`lockstep`), also when the second machine
receives a rewritten input list (`trace_simulation`, `translate`).
-/

namespace Fieldbus.Machine

variable {σ τ ι κ ο π : Type*}

/-- The state after the given inputs. -/
def final (step : σ → ι → σ × ο) (state : σ) (inputs : List ι) : σ :=
  inputs.foldl (fun current input => (step current input).1) state

/-- The outputs produced on the given inputs, in order. -/
def trace (step : σ → ι → σ × ο) : σ → List ι → List ο
  | _, [] => []
  | state, input :: rest => (step state input).2 :: trace step (step state input).1 rest

/-- Rewrite every input by a function of the state that is about to receive it. -/
def translate (step : σ → ι → σ × ο) (rewrite : σ → ι → κ) : σ → List ι → List κ
  | _, [] => []
  | state, input :: rest =>
      rewrite state input :: translate step rewrite (step state input).1 rest

variable (step : σ → ι → σ × ο)

@[simp] theorem final_cons (state : σ) (input : ι) (rest : List ι) :
    final step state (input :: rest) = final step (step state input).1 rest := rfl

@[simp] theorem trace_nil (state : σ) : trace step state [] = [] := rfl

@[simp] theorem trace_cons (state : σ) (input : ι) (rest : List ι) :
    trace step state (input :: rest) =
      (step state input).2 :: trace step (step state input).1 rest := rfl

@[simp] theorem translate_cons (rewrite : σ → ι → κ) (state : σ) (input : ι) (rest : List ι) :
    translate step rewrite state (input :: rest) =
      rewrite state input :: translate step rewrite (step state input).1 rest := rfl

/-- A run has one output for each input. -/
theorem length_trace (state : σ) (inputs : List ι) :
    (trace step state inputs).length = inputs.length := by
  induction inputs generalizing state with
  | nil => rfl
  | cons input rest ih => rw [trace_cons, List.length_cons, ih, List.length_cons]

theorem trace_append (state : σ) (first second : List ι) :
    trace step state (first ++ second) =
      trace step state first ++ trace step (final step state first) second := by
  induction first generalizing state with
  | nil => rfl
  | cons input rest ih => rw [List.cons_append, trace_cons, trace_cons, ih, final_cons]; rfl

theorem final_append (state : σ) (first second : List ι) :
    final step state (first ++ second) = final step (final step state first) second :=
  List.foldl_append

theorem final_append_singleton (state : σ) (inputs : List ι) (input : ι) :
    final step state (inputs ++ [input]) = (step (final step state inputs) input).1 := by
  simp [final]

theorem trace_append_singleton (state : σ) (inputs : List ι) (input : ι) :
    trace step state (inputs ++ [input]) =
      trace step state inputs ++ [(step (final step state inputs) input).2] := by
  rw [trace_append, trace_cons, trace_nil]

variable {step}

/-- What every step preserves, every run preserves. -/
theorem final_invariant (Inv : σ → Prop)
    (hstep : ∀ state input, Inv state → Inv (step state input).1)
    {state : σ} (hstate : Inv state) (inputs : List ι) :
    Inv (final step state inputs) := by
  induction inputs generalizing state with
  | nil => exact hstate
  | cons input rest ih => exact ih (hstep state input hstate)

/-- An invariant that makes every output good makes the whole trace good. -/
theorem trace_invariant (Inv : σ → Prop) (Good : ο → Prop)
    (hstep : ∀ state input, Inv state → Inv (step state input).1 ∧ Good (step state input).2)
    {state : σ} (hstate : Inv state) (inputs : List ι) :
    ∀ output ∈ trace step state inputs, Good output := by
  induction inputs generalizing state with
  | nil => simp
  | cons input rest ih =>
      obtain ⟨hnext, hgood⟩ := hstep state input hstate
      simpa using ⟨hgood, ih hnext⟩

/-- Two machines in lockstep: a relation kept by every pair of steps, the second machine reading
the rewritten input, relates the outputs of the whole runs. -/
theorem trace_simulation {step' : τ → κ → τ × π} {rewrite : σ → ι → κ}
    {Rel : σ → τ → Prop} {Out : ο → π → Prop}
    (hstep : ∀ left right input, Rel left right →
      Rel (step left input).1 (step' right (rewrite left input)).1 ∧
        Out (step left input).2 (step' right (rewrite left input)).2)
    {left : σ} {right : τ} (hrel : Rel left right) (inputs : List ι) :
    List.Forall₂ Out (trace step left inputs)
      (trace step' right (translate step rewrite left inputs)) := by
  induction inputs generalizing left right with
  | nil => exact .nil
  | cons input rest ih =>
      obtain ⟨hnext, hout⟩ := hstep left right input hrel
      exact .cons hout (ih hnext)

/-- Two machines that read the same inputs: a relation kept by every pair of steps holds of the
final states and relates the outputs. -/
theorem lockstep {step' : τ → ι → τ × π} {Rel : σ → τ → Prop} {Out : ο → π → Prop}
    (hstep : ∀ left right input, Rel left right →
      Rel (step left input).1 (step' right input).1 ∧ Out (step left input).2 (step' right input).2)
    {left : σ} {right : τ} (hrel : Rel left right) (inputs : List ι) :
    Rel (final step left inputs) (final step' right inputs) ∧
      List.Forall₂ Out (trace step left inputs) (trace step' right inputs) := by
  induction inputs generalizing left right with
  | nil => exact ⟨hrel, .nil⟩
  | cons input rest ih =>
      obtain ⟨hnext, hout⟩ := hstep left right input hrel
      obtain ⟨hfinal, htrace⟩ := ih hnext
      exact ⟨hfinal, .cons hout htrace⟩

end Fieldbus.Machine
