import Mathlib.Data.List.Forall2

/-!
# Computations that may fail

Successful runs of a sequence (`bind_ok_iff`), of a loop over a list (`foldlM_cons_ok_iff`) and of
a traversal of one: the traversal succeeds with the results of its elements (`mapM_ok_iff`), exactly
if each of them does (`exists_mapM_ok_iff`), and a traversal of an append is one of either part
(`mapM_append_ok_iff`).
-/

namespace Fieldbus.Fallible

variable {α β ε : Type} {f : α → Except ε β} {xs : List α} {ys : List β}

theorem bind_ok_iff {x : Except ε α} {b : β} :
    (x >>= f) = .ok b ↔ ∃ a, x = .ok a ∧ f a = .ok b := by
  cases x <;> simp [bind, Except.bind]

theorem pure_ok_iff {a b : α} : (pure a : Except ε α) = .ok b ↔ a = b :=
  ⟨Except.ok.inj, congrArg Except.ok⟩

theorem map_ok_iff {x : Except ε α} {g : α → β} {b : β} :
    x.map g = .ok b ↔ ∃ a, x = .ok a ∧ g a = b := by
  cases x <;> simp [Except.map]

/-- A loop over a list succeeds if its first round does and the others from there. -/
theorem foldlM_cons_ok_iff {f : α → β → Except ε α} {a b : α} {x : β} {xs : List β} :
    (x :: xs).foldlM f a = .ok b ↔ ∃ next, f a x = .ok next ∧ xs.foldlM f next = .ok b := by
  rw [List.foldlM_cons, bind_ok_iff]

/-- A traversal succeeds with the results of its elements. -/
theorem mapM_ok_iff : xs.mapM f = .ok ys ↔ List.Forall₂ (fun x y => f x = .ok y) xs ys := by
  induction xs generalizing ys with
  | nil =>
      rw [List.mapM_nil, pure_ok_iff, List.forall₂_nil_left_iff]
      exact eq_comm
  | cons x xs ih =>
      rw [List.mapM_cons, bind_ok_iff, List.forall₂_cons_left_iff]
      refine exists_congr fun y => ?_
      simp only [bind_ok_iff, pure_ok_iff, ih]
      constructor
      · rintro ⟨hx, ys, hxs, rfl⟩
        exact ⟨ys, hx, hxs, rfl⟩
      · rintro ⟨ys, hx, hxs, rfl⟩
        exact ⟨hx, ys, hxs, rfl⟩

/-- A traversal succeeds if each element does. -/
theorem exists_mapM_ok_iff : (∃ ys, xs.mapM f = .ok ys) ↔ ∀ x ∈ xs, ∃ y, f x = .ok y := by
  simp only [mapM_ok_iff]
  induction xs with
  | nil => simp
  | cons x xs ih =>
      rw [List.forall_mem_cons, ← ih]
      simp only [List.forall₂_cons_left_iff]
      constructor
      · rintro ⟨_, y, ys, hx, hxs, -⟩
        exact ⟨⟨y, hx⟩, ys, hxs⟩
      · rintro ⟨⟨y, hx⟩, ys, hxs⟩
        exact ⟨y :: ys, y, ys, hx, hxs, rfl⟩

/-- Every element has a good partner exactly if they all have at once. -/
theorem exists_forall₂_iff {R : α → β → Prop} {Good : β → Prop} :
    (∃ ys, List.Forall₂ R xs ys ∧ ∀ y ∈ ys, Good y) ↔ ∀ x ∈ xs, ∃ y, R x y ∧ Good y := by
  induction xs with
  | nil => simp
  | cons x xs ih =>
      rw [List.forall_mem_cons, ← ih]
      constructor
      · rintro ⟨_, hall, hgood⟩
        obtain ⟨y, ys, hx, hxs, rfl⟩ := List.forall₂_cons_left_iff.mp hall
        rw [List.forall_mem_cons] at hgood
        exact ⟨⟨y, hx, hgood.1⟩, ys, hxs, hgood.2⟩
      · rintro ⟨⟨y, hx, hy⟩, ys, hxs, hys⟩
        exact ⟨y :: ys, .cons hx hxs, List.forall_mem_cons.mpr ⟨hy, hys⟩⟩

theorem mapM_append_ok_iff {more : List α} :
    (xs ++ more).mapM f = .ok ys ↔
      ∃ first rest, xs.mapM f = .ok first ∧ more.mapM f = .ok rest ∧ ys = first ++ rest := by
  rw [List.mapM_append, bind_ok_iff]
  simp only [bind_ok_iff, pure_ok_iff]
  constructor
  · rintro ⟨first, hfirst, rest, hrest, rfl⟩
    exact ⟨first, rest, hfirst, hrest, rfl⟩
  · rintro ⟨first, rest, hfirst, hrest, rfl⟩
    exact ⟨first, hfirst, rest, hrest, rfl⟩

end Fieldbus.Fallible
