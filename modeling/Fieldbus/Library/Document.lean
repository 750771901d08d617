import Mathlib.Data.UInt
import Std.Data.ExtTreeMap
import Fieldbus.Library.Json

/-!
# Records as JSON trees

A `Document` type has a JSON tree for each of its values that reads as that value. Numbers, strings,
lists and maps are documents; a record is one by listing its fields, which `required` and `optional`
look up by name.
-/

namespace Fieldbus

open Std (ExtTreeMap)

class Document (α : Type) where
  toJson : α → Json
  ofJson : Json → Option α
  of_to : ∀ a, ofJson (toJson a) = some a
  not_null : ∀ a, toJson a ≠ .null

namespace Document

attribute [simp] of_to

variable {α : Type} [Document α]

/-! ## Fields -/

/-- The field of an object with the given name. -/
def get (name : String) : Json → Option Json
  | .obj fields => (fields.find? fun f => f.1 = name).map Prod.snd
  | _ => none

theorem get_cons (name name' : String) (v : Json) (fs : List (String × Json)) :
    get name (.obj ((name', v) :: fs)) = if name' = name then some v else get name (.obj fs) := by
  by_cases h : name' = name <;> simp [get, h]

/-- A field that must be there. -/
def required (name : String) (j : Json) : Option α := (get name j).bind ofJson

/-- What stands for a value that may be missing. -/
def optionJson : Option α → Json
  | none => .null
  | some a => toJson a

def ofOption : Json → Option (Option α)
  | .null => some none
  | v => (ofJson v).map some

@[simp] theorem of_option_json (v : Option α) : ofOption (optionJson v) = some v := by
  cases v with
  | none => rfl
  | some a =>
      have hnull := not_null a
      have hread := of_to a
      rw [optionJson]
      unfold ofOption
      split
      · rename_i heq
        exact absurd heq hnull
      · rw [hread]
        rfl

/-- A field that may be missing, or null. -/
def optional (name : String) (j : Json) : Option (Option α) :=
  (get name j).elim (some none) ofOption

@[simp] theorem required_cons (name name' : String) (v : Json) (fs : List (String × Json)) :
    (required name (.obj ((name', v) :: fs)) : Option α) =
      if name' = name then ofJson v else required name (.obj fs) := by
  rw [required, get_cons]
  split <;> rfl

@[simp] theorem optional_cons (name name' : String) (v : Json) (fs : List (String × Json)) :
    (optional name (.obj ((name', v) :: fs)) : Option (Option α)) =
      if name' = name then ofOption v else optional name (.obj fs) := by
  rw [optional, get_cons]
  split <;> rfl

/-! ## Values -/

instance : Document Bool where
  toJson b := .bool b
  ofJson
    | .bool b => some b
    | _ => none
  of_to _ := rfl
  not_null _ := Json.noConfusion

instance : Document String where
  toJson s := .str s
  ofJson
    | .str s => some s
    | _ => none
  of_to _ := rfl
  not_null _ := Json.noConfusion

/-- A number in a range, through the integer that it is. -/
@[reducible] def bounded {β : Type} (toInt : β → Int) (ofInt : Int → β) (min max : Int)
    (hread : ∀ b, ofInt (toInt b) = b) (hrange : ∀ b, min ≤ toInt b ∧ toInt b < max) :
    Document β where
  toJson b := .int (toInt b)
  ofJson
    | .int i => if min ≤ i ∧ i < max then some (ofInt i) else none
    | _ => none
  of_to b := by simp [hread, hrange]
  not_null _ := Json.noConfusion

instance : Document UInt64 :=
  bounded (fun n => n.toNat) (fun i => UInt64.ofNat i.toNat) 0 (2 ^ 64) (fun n => by simp)
    (fun n => by have hlt := n.toNat_lt; omega)

instance : Document UInt32 :=
  bounded (fun n => n.toNat) (fun i => UInt32.ofNat i.toNat) 0 (2 ^ 32) (fun n => by simp)
    (fun n => by have hlt := n.toNat_lt; omega)

instance : Document Int64 :=
  bounded Int64.toInt Int64.ofInt (-2 ^ 63) (2 ^ 63) Int64.ofInt_toInt
    (fun n => ⟨n.le_toInt, n.toInt_lt⟩)

instance : Document Nat where
  toJson n := .int n
  ofJson
    | .int i => if 0 ≤ i then some i.toNat else none
    | _ => none
  of_to n := by simp
  not_null _ := Json.noConfusion

omit [Document α] in
theorem mapM_map {β : Type} {f : α → β} {g : β → Option α} (h : ∀ a, g (f a) = some a)
    (xs : List α) : (xs.map f).mapM g = some xs := by
  induction xs with
  | nil => rfl
  | cons a xs ih => simp [h, ih]

instance : Document (List α) where
  toJson xs := .arr (xs.map toJson)
  ofJson
    | .arr items => items.mapM ofJson
    | _ => none
  of_to xs := mapM_map of_to xs
  not_null _ := Json.noConfusion

omit [Document α] in
theorem of_list_to_list (m : ExtTreeMap String α) : ExtTreeMap.ofList m.toList = m := by
  refine ExtTreeMap.ext_getElem? fun name => ?_
  cases h : m[name]? with
  | none =>
      refine ExtTreeMap.getElem?_ofList_of_contains_eq_false ?_
      rw [ExtTreeMap.map_fst_toList_eq_keys, ExtTreeMap.contains_keys,
        ExtTreeMap.contains_eq_isSome_getElem?, h]
      rfl
  | some v =>
      refine ExtTreeMap.getElem?_ofList_of_mem (k := name) Std.ReflCmp.compare_self ?_
        (ExtTreeMap.mem_toList_iff_getElem?_eq_some.mpr h)
      exact ExtTreeMap.distinct_keys_toList

instance : Document (ExtTreeMap String α) where
  toJson m := .obj (m.toList.map fun entry => (entry.1, toJson entry.2))
  ofJson
    | .obj fields => (fields.mapM fun f => (ofJson f.2).map fun v => (f.1, v)).map fun entries =>
        ExtTreeMap.ofList entries
    | _ => none
  of_to m := by
    have hentries := mapM_map (f := fun entry : String × α => (entry.1, toJson entry.2))
      (g := fun f => (ofJson f.2).map fun v => (f.1, v)) (fun entry => by simp) m.toList
    simp only [hentries, Option.map_some, of_list_to_list]
  not_null _ := Json.noConfusion

end Document

end Fieldbus
