import Fieldbus.Cloud.Store

/-!
# The values of readings

Maps and events with the values of their readings replaced. Replacing the values commutes with
`apply` (`map_value_apply`), so that events with other values amount to the same maps with other
values. `SameButValues` compares maps without the values, and `AsWritten` with the values that
reading back makes of the written ones; every event keeps both.
-/

namespace Fieldbus.Cloud

/-- The envelope with another value in its reading. -/
def Envelope.mapValue (f : F64 → F64) (e : Envelope) : Envelope :=
  { e with reading := { e.reading with value := f e.reading.value } }

/-- The event with another value in its reading, if it has one. -/
def Event.mapValue (f : F64 → F64) : Event → Event
  | .readingAccepted e receivedMs => .readingAccepted (e.mapValue f) receivedMs
  | event => event

/-- The event has no value that the function changes. -/
def Event.Kept (f : F64 → F64) (event : Event) : Prop := event.mapValue f = event

theorem Envelope.map_value_eq {f : F64 → F64} {e : Envelope}
    (h : f e.reading.value = e.reading.value) : e.mapValue f = e := by
  rw [mapValue, h]

theorem Event.kept_accepted {f : F64 → F64} {e : Envelope}
    (h : f e.reading.value = e.reading.value) (receivedMs : Int64) :
    (readingAccepted e receivedMs).Kept f :=
  congrArg (readingAccepted · receivedMs) (Envelope.map_value_eq h)

namespace Store

variable {f g : F64 → F64} {s s' s'' : Store}

/-- The maps with other values in their readings. -/
def mapValue (f : F64 → F64) (s : Store) : Store :=
  { s with readings := s.readings.mapEntries (Envelope.mapValue f) }

theorem map_value_map_value (f g : F64 → F64) (s : Store) :
    (s.mapValue f).mapValue g = s.mapValue fun value => g (f value) := by
  simp only [mapValue, NestedMap.map_entries_map_entries]
  rfl

theorem map_value_apply (f : F64 → F64) (s : Store) (event : Event) :
    (s.apply event).mapValue f = (s.mapValue f).apply (event.mapValue f) := by
  cases event with
  | readingAccepted e receivedMs =>
      simp only [mapValue, apply, Event.mapValue, NestedMap.map_entries_put]
      rfl
  | registered | credentialRotated | firmwarePublished | configPublished => rfl

theorem map_value_fold (f : F64 → F64) (s : Store) (events : List Event) :
    (events.foldl apply s).mapValue f =
      (events.map (Event.mapValue f)).foldl apply (s.mapValue f) := by
  induction events generalizing s with
  | nil => rfl
  | cons event rest ih => rw [List.foldl_cons, ih, map_value_apply, List.map_cons, List.foldl_cons]

theorem map_value_empty (f : F64 → F64) : empty.mapValue f = empty :=
  congrArg (fun readings => { empty with readings }) (Std.ExtTreeMap.map_eq_empty_iff.mpr rfl)

theorem find_map_value (f : F64 → F64) (s : Store) (id : String) (key : SessionKey) :
    (s.mapValue f).readings.find id key = (s.readings.find id key).map (Envelope.mapValue f) :=
  NestedMap.find_map_entries ..

/-! ## Maps without values -/

/-- The maps are the same but for the values of their readings. -/
def SameButValues (s s' : Store) : Prop := (s.mapValue fun _ => ⟨0⟩) = s'.mapValue fun _ => ⟨0⟩

namespace SameButValues

theorem refl (s : Store) : s.SameButValues s := rfl

theorem symm (h : s.SameButValues s') : s'.SameButValues s := Eq.symm h

theorem trans (h : s.SameButValues s') (h' : s'.SameButValues s'') : s.SameButValues s'' :=
  Eq.trans h h'

/-- Other values make the same maps. -/
theorem map_value (f : F64 → F64) (s : Store) : (s.mapValue f).SameButValues s :=
  map_value_map_value f _ s

/-- An event keeps the maps the same. -/
theorem apply (h : s.SameButValues s') (event : Event) :
    (s.apply event).SameButValues (s'.apply event) := by
  unfold SameButValues at h ⊢
  rw [map_value_apply, map_value_apply, h]

theorem fold (h : s.SameButValues s') (events : List Event) :
    (events.foldl Store.apply s).SameButValues (events.foldl Store.apply s') := by
  induction events generalizing s s' with
  | nil => exact h
  | cons event rest ih => exact ih (h.apply event)

theorem devices (h : s.SameButValues s') : s.devices = s'.devices := by
  have hmapped : (s.mapValue fun _ => ⟨0⟩).devices = (s'.mapValue fun _ => ⟨0⟩).devices := by
    rw [show s.mapValue _ = s'.mapValue _ from h]
  exact hmapped

theorem count (h : s.SameButValues s') : s.readingCount = s'.readingCount := by
  unfold SameButValues at h
  have hcount := congrArg readingCount h
  simpa only [readingCount, mapValue, NestedMap.count_map_entries] using hcount

/-- The same readings are stored, with their times and signatures. -/
theorem find (h : s.SameButValues s') (id : String) (key : SessionKey) :
    (s.readings.find id key).map (Envelope.mapValue fun _ => ⟨0⟩) =
      (s'.readings.find id key).map (Envelope.mapValue fun _ => ⟨0⟩) := by
  unfold SameButValues at h
  rw [← find_map_value, ← find_map_value, h]

end SameButValues

/-! ## Maps that were read back -/

/-- The maps are the written ones, of whose readings some may have been read back. -/
structure AsWritten (reread : F64 → F64) (s written : Store) : Prop where
  same : s.SameButValues written
  entry : ∀ id key, s.readings.find id key = written.readings.find id key ∨
    s.readings.find id key = (written.readings.find id key).map (Envelope.mapValue reread)

namespace AsWritten

variable {reread : F64 → F64} {written : Store}

theorem refl (reread : F64 → F64) (s : Store) : s.AsWritten reread s :=
  ⟨.refl s, fun _ _ => .inl rfl⟩

/-- The written maps as they are read back. -/
theorem read_back (reread : F64 → F64) (written : Store) :
    (written.mapValue reread).AsWritten reread written :=
  ⟨.map_value reread written, fun id key => .inr (find_map_value reread written id key)⟩

/-- A new event is written as it is applied. -/
theorem apply (h : s.AsWritten reread written) (event : Event) :
    (s.apply event).AsWritten reread (written.apply event) := by
  refine ⟨h.same.apply event, fun id key => ?_⟩
  cases event with
  | readingAccepted e receivedMs =>
      simp only [Store.apply, NestedMap.find_put]
      split
      · exact .inl rfl
      · exact h.entry id key
  | registered | credentialRotated | firmwarePublished | configPublished => exact h.entry id key

theorem fold (h : s.AsWritten reread written) (events : List Event) :
    (events.foldl Store.apply s).AsWritten reread (events.foldl Store.apply written) := by
  induction events generalizing s written with
  | nil => exact h
  | cons event rest ih => exact ih (h.apply event)

/-- Where all values are read back as they were, the maps are the written ones. -/
theorem eq_of_kept (h : s.AsWritten reread written) (hkept : written.mapValue reread = written) :
    s = written := by
  have hfind : ∀ id key, s.readings.find id key = written.readings.find id key := by
    intro id key
    rcases h.entry id key with hentry | hentry
    · exact hentry
    · rw [hentry, ← find_map_value, hkept]
  have hsame : (s.mapValue fun _ => ⟨0⟩) = written.mapValue fun _ => ⟨0⟩ := h.same
  obtain ⟨devices, readings, firmware, config⟩ := s
  obtain ⟨devices', readings', firmware', config'⟩ := written
  simp only [mapValue, mk.injEq] at hsame
  obtain ⟨rfl, hreadings, rfl, rfl⟩ := hsame
  rw [NestedMap.eq_of_map_entries _ hreadings hfind]

end AsWritten

end Store

end Fieldbus.Cloud
