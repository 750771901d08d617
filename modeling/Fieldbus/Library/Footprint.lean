import Fieldbus.Library.Machine

/-!
# Jobs that write apart

A machine whose state has cells, and whose step on an input changes no cell but the target of that
input, as the cells that it reads and the target determine. If the targets of a run differ and no
target is read, every input does to its target what it would have done alone (`final_target`).
-/

namespace Fieldbus.Machine

variable {σ ι ο κ ν : Type*}

/-- A step on an input changes at most the cell `target`, and in a way that depends on nothing but
that cell and the cells in `reads`. -/
structure Local (step : σ → ι → σ × ο) (get : σ → κ → ν) (target : ι → κ) (reads : ι → Set κ) :
    Prop where
  frame : ∀ state input cell, cell ≠ target input → get (step state input).1 cell = get state cell
  reads : ∀ state state' input, (∀ cell ∈ reads input, get state cell = get state' cell) →
    get state (target input) = get state' (target input) →
    get (step state input).1 (target input) = get (step state' input).1 (target input)

variable {step : σ → ι → σ × ο} {get : σ → κ → ν} {target : ι → κ} {reads : ι → Set κ}

/-- A cell that is no target keeps what it holds. -/
theorem Local.final_frame (h : Local step get target reads) {cell : κ} (inputs : List ι)
    (hcell : cell ∉ inputs.map target) (state : σ) :
    get (final step state inputs) cell = get state cell := by
  induction inputs generalizing state with
  | nil => rfl
  | cons input rest ih =>
      rw [List.map_cons, List.mem_cons, not_or] at hcell
      rw [final_cons, ih hcell.2, h.frame state input cell hcell.1]

/-- In a run whose targets differ and are not read, what an input leaves in its target is what it
leaves there on its own. -/
theorem Local.final_target (h : Local step get target reads) (inputs : List ι)
    (hapart : (inputs.map target).Nodup)
    (hreads : ∀ input ∈ inputs, ∀ cell ∈ reads input, cell ∉ inputs.map target) (state : σ) :
    ∀ input ∈ inputs,
      get (final step state inputs) (target input) = get (step state input).1 (target input) := by
  induction inputs generalizing state with
  | nil => exact fun _ hmem => absurd hmem List.not_mem_nil
  | cons first rest ih =>
      rw [List.map_cons, List.nodup_cons] at hapart
      intro input hmem
      rw [final_cons]
      obtain rfl | hmem := List.mem_cons.mp hmem
      · exact h.final_frame rest hapart.1 _
      · have hother {cell : κ} (hcell : cell ∉ (first :: rest).map target) :
            get (step state first).1 cell = get state cell :=
          h.frame state first cell fun heq => hcell (heq ▸ List.mem_cons_self)
        rw [ih hapart.2 (fun i hi cell hc hin => hreads i (List.mem_cons_of_mem _ hi) cell hc
          (List.mem_cons_of_mem _ hin)) _ input hmem]
        refine h.reads _ _ input (fun cell hcell => ?_) ?_
        · exact hother (hreads input (List.mem_cons_of_mem _ hmem) cell hcell)
        · -- the first input has another target
          refine h.frame state first _ fun heq => hapart.1 ?_
          exact heq ▸ List.mem_map_of_mem hmem

end Fieldbus.Machine
