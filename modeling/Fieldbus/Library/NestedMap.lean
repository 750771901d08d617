import Mathlib.Algebra.Ring.Nat
import Mathlib.Data.List.Perm.Basic
import Std.Data.ExtTreeMap

/-!
# Two-level ordered maps

A map from outer keys to ordered maps, as a store keeps per-owner collections. `find` and `put` are
lookup and insertion through both levels, `count` is the number of entries overall, and `mapEntries`
changes every entry. `find_put`, `count_put` and `map_entries_put` are the facts about insertion.
-/

namespace Fieldbus

open Std

/-- An ordered map of ordered maps. -/
abbrev NestedMap (κ ι β : Type) (cmp : κ → κ → Ordering) (cmp' : ι → ι → Ordering) :=
  ExtTreeMap κ (ExtTreeMap ι β cmp') cmp

namespace NestedMap

variable {κ ι β : Type} {cmp : κ → κ → Ordering} {cmp' : ι → ι → Ordering}
  [TransCmp cmp] [TransCmp cmp']

/-- Look an entry up by its outer and inner key. -/
def find (m : NestedMap κ ι β cmp cmp') (outer : κ) (inner : ι) : Option β :=
  m[outer]?.bind fun owned => owned[inner]?

/-- Insert an entry, creating the inner map if need be. -/
def put (m : NestedMap κ ι β cmp cmp') (outer : κ) (inner : ι) (value : β) :
    NestedMap κ ι β cmp cmp' :=
  m.insert outer ((m.getD outer ∅).insert inner value)

/-- The number of entries. -/
def count (m : NestedMap κ ι β cmp cmp') : Nat :=
  m.foldl (fun total _ owned => total + owned.size) 0

variable (m : NestedMap κ ι β cmp cmp') (outer : κ) (inner : ι) (value : β)

@[simp] theorem find_empty : find (∅ : NestedMap κ ι β cmp cmp') outer inner = none := by
  simp [find]

/-- The inner map of an outer key, empty if the key is absent, answers lookups. -/
theorem getD_getElem? : (m.getD outer ∅)[inner]? = m.find outer inner := by
  rw [find, ExtTreeMap.getD_eq_getD_getElem?]
  cases m[outer]? <;> simp

section Lawful

variable [LawfulEqCmp cmp] [LawfulEqCmp cmp'] [DecidableEq κ] [DecidableEq ι]

/-- An inserted entry is found under its keys and disturbs no other. -/
theorem find_put (outer' : κ) (inner' : ι) :
    (m.put outer inner value).find outer' inner' =
      if outer = outer' ∧ inner = inner' then some value else m.find outer' inner' := by
  rw [find, put, ExtTreeMap.getElem?_insert]
  by_cases houter : outer = outer'
  · subst houter
    rw [if_pos (by simp), Option.bind_some, ExtTreeMap.getElem?_insert, getD_getElem?]
    by_cases hinner : inner = inner'
    · rw [if_pos (by simpa using hinner), if_pos ⟨rfl, hinner⟩]
    · rw [if_neg (by simpa using hinner), if_neg (fun h => hinner h.2)]
  · rw [if_neg (by simpa using houter), if_neg (fun h => houter h.1), find]

omit [TransCmp cmp'] [LawfulEqCmp cmp'] [DecidableEq κ] [DecidableEq ι] in
/-- Inserting into a map twice is inserting once. -/
theorem insert_insert (t : ExtTreeMap κ β cmp) (key : κ) (value : β) :
    (t.insert key value).insert key value = t.insert key value := by
  apply ExtTreeMap.ext_getElem?
  intro key'
  simp only [ExtTreeMap.getElem?_insert]
  split <;> rfl

omit [DecidableEq κ] [DecidableEq ι] in
/-- Inserting an entry twice is inserting it once. -/
theorem put_put :
    (m.put outer inner value).put outer inner value = m.put outer inner value := by
  have hinserted : (m.put outer inner value).getD outer ∅ =
      (m.getD outer ∅).insert inner value := by simp [put]
  rw [put, hinserted, put, insert_insert (m.getD outer ∅), insert_insert]

end Lawful

/-! ## Counting -/

omit [TransCmp cmp'] in
/-- The count as a sum over the entries of the outer map. -/
theorem count_eq_sum : m.count = (m.toList.map fun entry => entry.2.size).sum := by
  rw [count, ExtTreeMap.foldl_eq_foldl_toList, List.sum_eq_foldl, List.foldl_map]

section Lawful

variable [LawfulEqCmp cmp]

omit [TransCmp cmp'] in
/-- The entries of a map list each key once. -/
theorem toList_nodup : m.toList.Nodup :=
  m.distinct_keys_toList.imp fun hne heq => hne (by simp [heq])

omit [TransCmp cmp'] in
/-- A map that holds `owned` under `outer` lists that entry and those of the map without the key. -/
theorem toList_perm_of_getElem? {owned : ExtTreeMap ι β cmp'} (h : m[outer]? = some owned) :
    m.toList.Perm ((outer, owned) :: (m.erase outer).toList) := by
  have hfresh : (outer, owned) ∉ (m.erase outer).toList := by
    simp [ExtTreeMap.mem_toList_iff_getElem?_eq_some]
  rw [List.perm_ext_iff_of_nodup (toList_nodup m)
    (List.nodup_cons.mpr ⟨hfresh, toList_nodup _⟩)]
  rintro ⟨key, held⟩
  rw [List.mem_cons, ExtTreeMap.mem_toList_iff_getElem?_eq_some,
    ExtTreeMap.mem_toList_iff_getElem?_eq_some, ExtTreeMap.getElem?_erase, Prod.mk.injEq]
  by_cases hkey : outer = key
  · subst hkey
    simp [h, eq_comm]
  · simp [hkey, Ne.symm hkey]

omit [TransCmp cmp'] in
/-- The count splits into the entries under one outer key and the others. -/
theorem count_split {owned : ExtTreeMap ι β cmp'} (h : m[outer]? = some owned) :
    m.count = owned.size + NestedMap.count (m.erase outer) := by
  rw [count_eq_sum, count_eq_sum, ((toList_perm_of_getElem? m outer h).map _).sum_nat]
  rfl

omit [TransCmp cmp'] in
/-- Without the key there is nothing to remove. -/
theorem erase_of_getElem? (h : m[outer]? = none) : m.erase outer = m := by
  apply ExtTreeMap.ext_getElem?
  intro key
  rw [ExtTreeMap.getElem?_erase]
  split
  · rename_i hkey
    rw [← LawfulEqCmp.eq_of_compare hkey, h]
  · rfl

omit [TransCmp cmp'] in
/-- What is removed does not depend on what was inserted under the same key. -/
theorem erase_insert (owned : ExtTreeMap ι β cmp') :
    (m.insert outer owned).erase outer = m.erase outer := by
  apply ExtTreeMap.ext_getElem?
  intro key
  rw [ExtTreeMap.getElem?_erase, ExtTreeMap.getElem?_erase, ExtTreeMap.getElem?_insert]
  split <;> rfl

/-- Inserting an entry counts it unless its keys were there. -/
theorem count_put [LawfulEqCmp cmp'] :
    (m.put outer inner value).count =
      if m.find outer inner = none then m.count + 1 else m.count := by
  have hinserted : (m.put outer inner value)[outer]? =
      some ((m.getD outer ∅).insert inner value) := by simp [put]
  have hold : m.count = (m.getD outer ∅).size + NestedMap.count (m.erase outer) := by
    cases houter : m[outer]? with
    | none => simp [ExtTreeMap.getD_eq_getD_getElem?, houter, erase_of_getElem? m outer houter]
    | some owned =>
        rw [count_split m outer houter, ExtTreeMap.getD_eq_getD_getElem?, houter, Option.getD_some]
  rw [count_split _ outer hinserted, put, erase_insert, hold, ExtTreeMap.size_insert,
    ← getD_getElem?]
  by_cases hinner : inner ∈ m.getD outer ∅
  · simp [hinner]
  · have hnone : (m.getD outer ∅)[inner]? = none := getElem?_neg _ _ hinner
    rw [if_neg (by simpa using hinner), if_pos hnone]
    omega

end Lawful

/-! ## Changing every entry -/

section MapEntries

variable {γ δ : Type} (f : β → γ)

/-- Change every entry and keep its keys. -/
def mapEntries (m : NestedMap κ ι β cmp cmp') : NestedMap κ ι γ cmp cmp' :=
  ExtTreeMap.map (fun _ owned => owned.map fun _ value => f value) m

omit [TransCmp cmp] [TransCmp cmp'] in
theorem map_entries_map_entries (g : γ → δ) :
    mapEntries g (mapEntries f m) = mapEntries (fun value => g (f value)) m := by
  simp [mapEntries, ExtTreeMap.map_map]

theorem count_map_entries : (mapEntries f m).count = m.count := by
  rw [count_eq_sum, count_eq_sum, mapEntries, ExtTreeMap.toList_map, List.map_map]
  refine congrArg List.sum (List.map_congr_left fun entry _ => ?_)
  exact ExtTreeMap.size_map

variable [LawfulEqCmp cmp] [LawfulEqCmp cmp']

theorem find_map_entries : (mapEntries f m).find outer inner = (m.find outer inner).map f := by
  rw [find, mapEntries, ExtTreeMap.getElem?_map, find]
  cases m[outer]? with
  | none => rfl
  | some owned => simp

omit [TransCmp cmp'] [LawfulEqCmp cmp'] in
/-- Changing the entries of a map commutes with insertion. -/
theorem map_insert (g : κ → β → γ) (t : ExtTreeMap κ β cmp) (key : κ) :
    (t.insert key value).map g = (t.map g).insert key (g key value) := by
  apply ExtTreeMap.ext_getElem?
  intro key'
  rw [ExtTreeMap.getElem?_map, ExtTreeMap.getElem?_insert, ExtTreeMap.getElem?_insert,
    ExtTreeMap.getElem?_map]
  split
  · rename_i hkey
    rw [LawfulEqCmp.eq_of_compare hkey]
    rfl
  · rfl

/-- Maps whose entries are found alike and that are alike once every entry has been changed are the
same: the outer keys without entries are then the same too. -/
theorem eq_of_map_entries {m m' : NestedMap κ ι β cmp cmp'} (h : mapEntries f m = mapEntries f m')
    (hfind : ∀ outer inner, m.find outer inner = m'.find outer inner) : m = m' := by
  apply ExtTreeMap.ext_getElem?
  intro key
  have hkey := congrArg (fun t : NestedMap κ ι γ cmp cmp' => t[key]?) h
  simp only [mapEntries, ExtTreeMap.getElem?_map] at hkey
  cases hm : m[key]? with
  | none =>
      rw [hm, Option.map_none, eq_comm, Option.map_eq_none_iff] at hkey
      exact hkey.symm
  | some owned =>
      rw [hm, Option.map_some, eq_comm, Option.map_eq_some_iff] at hkey
      obtain ⟨owned', hm', -⟩ := hkey
      rw [hm']
      refine congrArg some (ExtTreeMap.ext_getElem? fun key' => ?_)
      have hentry := hfind key key'
      rwa [find, find, hm, hm', Option.bind_some, Option.bind_some] at hentry

theorem map_entries_put : mapEntries f (m.put outer inner value) =
    (mapEntries f m).put outer inner (f value) := by
  have howned : (mapEntries f m).getD outer ∅ = (m.getD outer ∅).map fun _ value => f value := by
    rw [mapEntries, ExtTreeMap.getD_map, ExtTreeMap.getD_eq_getD_getElem?]
    cases m[outer]? with
    | none => exact (ExtTreeMap.map_eq_empty_iff.mpr rfl).symm
    | some owned => rfl
  rw [mapEntries, put, map_insert, map_insert, put, howned]
  rfl

end MapEntries

end NestedMap

end Fieldbus
