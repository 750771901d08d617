import Fieldbus.Cloud.Ingest

/-!
# What a store contains

`Within` compares stores by their readings and `Covers` by all entries. The events a call plans
store over no reading (`plan_new`), so that committing any part of them only adds readings;
`ingest_cases` is what this says about a batch, whatever happens to its writes.
-/

namespace Fieldbus.Cloud

variable {c : Crates}

namespace Store

/-- Every reading of the first store is in the second. -/
def Within (s s' : Store) : Prop := ∀ id e, s.lookup id = some e → s'.lookup id = some e

/-- What is in the first store is in the second: the same readings, the same firmware and
configuration metadata, and the same records of devices, but for the figures of health. -/
structure Covers (s s' : Store) : Prop where
  readings : s.Within s'
  devices : ∀ (id : String) d, s.devices[id]? = some d →
    s'.devices[id]?.map registration = some (registration d)
  firmware : ∀ (version : String) m, s.firmware[version]? = some m →
    s'.firmware[version]? = some m
  config : ∀ (version : UInt64) m, s.config[version]? = some m → s'.config[version]? = some m

/-- An equal reading is stored for each one of the batch. -/
def Present (s : Store) (batch : List Envelope) : Prop :=
  ∀ e ∈ batch, ∃ p, s.lookup e.reading.identity = some p ∧ (p.reading == e.reading) = true

/-- The event does not store over a reading. -/
def Unseen (s : Store) : Event → Prop
  | .readingAccepted e _ => s.lookup e.reading.identity = none
  | _ => True

/-- None of the events stores over a reading, not even over one of an earlier event. -/
def New (s : Store) : List Event → Prop
  | [] => True
  | event :: rest => s.Unseen event ∧ (s.apply event).New rest

/-- The event puts something else in the place of an entry: a record with another registration, an
envelope under the identity of another one, or metadata under a published version. -/
def Replaces (s : Store) : Event → Prop
  | .registered d | .credentialRotated d =>
      ∃ d', s.devices[d.deviceId]? = some d' ∧ registration d' ≠ registration d
  | .readingAccepted e _ => ∃ e', s.lookup e.reading.identity = some e' ∧ e' ≠ e
  | .firmwarePublished m => ∃ m', s.firmware[m.version]? = some m' ∧ m' ≠ m
  | .configPublished m => ∃ m', s.config[m.version]? = some m' ∧ m' ≠ m

variable {s s' : Store}

/-- With another value, an event that stores over no reading replaces no more. -/
theorem not_replaces_map_value {event : Event} (hunseen : s.Unseen event)
    (h : ¬ s.Replaces event) (f : F64 → F64) : ¬ s.Replaces (event.mapValue f) := by
  cases event with
  | readingAccepted e receivedMs =>
      rintro ⟨e', he', -⟩
      exact Option.some_ne_none e' (he'.symm.trans hunseen)
  | registered | credentialRotated | firmwarePublished | configPublished => exact h

theorem Within.refl (s : Store) : s.Within s := fun _ _ h => h

theorem Within.trans {s'' : Store} (h : s.Within s') (h' : s'.Within s'') : s.Within s'' :=
  fun id e he => h' id e (h id e he)

/-- What is present stays present where readings are only added. -/
theorem Present.within {batch : List Envelope} (h : s.Present batch) (hwithin : s.Within s') :
    s'.Present batch := by
  intro e he
  obtain ⟨p, hp, heq⟩ := h e he
  exact ⟨p, hwithin _ p hp, heq⟩

/-- An event that stores over no reading of the smaller store may be applied to the larger one. -/
theorem Within.apply_right (h : s.Within s') {event : Event} (hunseen : s.Unseen event) :
    s.Within (s'.apply event) := by
  cases event with
  | readingAccepted e receivedMs =>
      intro id p hp
      rw [lookup_accept, if_neg]
      · exact h id p hp
      · rintro rfl
        exact Option.some_ne_none p (hp.symm.trans hunseen)
  | registered | credentialRotated | firmwarePublished | configPublished => exact h

/-- An event may be applied to both stores. -/
theorem Within.apply (h : s.Within s') (event : Event) :
    (s.apply event).Within (s'.apply event) := by
  cases event with
  | readingAccepted e receivedMs =>
      intro id p hp
      rw [lookup_accept] at hp ⊢
      split at hp
      · rwa [if_pos ‹_›]
      · rw [if_neg ‹_›]
        exact h id p hp
  | registered | credentialRotated | firmwarePublished | configPublished => exact h

/-! ## Covering -/

namespace Covers

theorem refl (s : Store) : s.Covers s :=
  ⟨.refl s, fun _ _ h => by rw [h]; rfl, fun _ _ h => h, fun _ _ h => h⟩

theorem trans {s'' : Store} (h : s.Covers s') (h' : s'.Covers s'') : s.Covers s'' := by
  refine ⟨h.readings.trans h'.readings, fun id d hd => ?_,
    fun version m hm => h'.firmware version m (h.firmware version m hm),
    fun version m hm => h'.config version m (h.config version m hm)⟩
  obtain ⟨d', hd', hsame⟩ := Option.map_eq_some_iff.mp (h.devices id d hd)
  rw [h'.devices id d' hd', hsame]

end Covers

/-- Maps that agree before an insertion in both agree after it. -/
theorem insert_of_getElem? {κ β : Type} {cmp : κ → κ → Ordering} [Std.TransCmp cmp]
    {m m' : Std.ExtTreeMap κ β cmp}
    (h : ∀ (key : κ) (value : β), m[key]? = some value → m'[key]? = some value)
    (key : κ) (value : β) (key' : κ) (value' : β)
    (hvalue : (m.insert key value)[key']? = some value') :
    (m'.insert key value)[key']? = some value' := by
  rw [Std.ExtTreeMap.getElem?_insert] at hvalue ⊢
  split at hvalue
  · rwa [if_pos ‹_›]
  · rw [if_neg ‹_›]
    exact h key' value' hvalue

/-- Inserting what is there or where nothing is keeps the entries. -/
theorem getElem?_insert_of_not_replaced {κ β : Type} {cmp : κ → κ → Ordering} [Std.TransCmp cmp]
    [Std.LawfulEqCmp cmp] {m m' : Std.ExtTreeMap κ β cmp}
    (h : ∀ (key : κ) (value : β), m[key]? = some value → m'[key]? = some value) {key : κ}
    {value : β} (hkept : ¬ ∃ value', m[key]? = some value' ∧ value' ≠ value)
    (key' : κ) (value' : β) (hvalue : m[key']? = some value') :
    (m'.insert key value)[key']? = some value' := by
  rw [Std.ExtTreeMap.getElem?_insert]
  split
  · rename_i hkey
    rw [← Std.LawfulEqCmp.eq_of_compare hkey] at hvalue
    by_contra hne
    exact hkept ⟨value', hvalue, fun heq => hne (congrArg some heq.symm)⟩
  · exact h key' value' hvalue

namespace Covers

/-- A record may be put into both stores. -/
theorem insert_device (h : s.Covers s') (d : DeviceRecord) :
    Covers { s with devices := s.devices.insert d.deviceId d }
      { s' with devices := s'.devices.insert d.deviceId d } := by
  refine ⟨h.readings, fun id d' hd' => ?_, h.firmware, h.config⟩
  dsimp only at hd' ⊢
  rw [Std.ExtTreeMap.getElem?_insert] at hd' ⊢
  split at hd'
  · rw [if_pos ‹_›, Option.map_some, Option.some.inj hd']
  · rw [if_neg ‹_›]
    exact h.devices id d' hd'

/-- A record may be put into the larger store if it is no other registration. -/
theorem insert_device_right (h : s.Covers s') {d : DeviceRecord}
    (hkept : ¬ ∃ d', s.devices[d.deviceId]? = some d' ∧ registration d' ≠ registration d) :
    s.Covers { s' with devices := s'.devices.insert d.deviceId d } := by
  refine ⟨h.readings, fun id d' hd' => ?_, h.firmware, h.config⟩
  dsimp only
  rw [Std.ExtTreeMap.getElem?_insert]
  split
  · rename_i hid
    rw [← Std.LawfulEqCmp.eq_of_compare hid] at hd'
    by_contra hne
    exact hkept ⟨d', hd', fun heq => hne (congrArg some heq.symm)⟩
  · exact h.devices id d' hd'

/-- An event may be applied to both stores. -/
theorem apply (h : s.Covers s') (event : Event) : (s.apply event).Covers (s'.apply event) := by
  cases event with
  | registered d | credentialRotated d => exact h.insert_device d
  | readingAccepted e receivedMs =>
      refine ⟨h.readings.apply _, fun id d hd => ?_, h.firmware, h.config⟩
      obtain ⟨d', hd', hsame⟩ := Option.map_eq_some_iff.mp
        (((registry_accept s receivedMs e).devices id).symm.trans (congrArg _ hd))
      rw [(registry_accept s' receivedMs e).devices id, h.devices id d' hd', hsame]
  | firmwarePublished m =>
      exact ⟨h.readings, h.devices, insert_of_getElem? h.firmware _ _, h.config⟩
  | configPublished m =>
      exact ⟨h.readings, h.devices, h.firmware, insert_of_getElem? h.config _ _⟩

theorem fold (h : s.Covers s') (events : List Event) :
    (events.foldl Store.apply s).Covers (events.foldl Store.apply s') := by
  induction events generalizing s s' with
  | nil => exact h
  | cons event rest ih => exact ih (h.apply event)

/-- An event that replaces nothing of the smaller store may be applied to the larger one. -/
theorem apply_right (h : s.Covers s') {event : Event} (hkept : ¬ s.Replaces event) :
    s.Covers (s'.apply event) := by
  cases event with
  | registered d | credentialRotated d => exact h.insert_device_right hkept
  | readingAccepted e receivedMs =>
      refine ⟨fun id p hp => ?_, fun id d hd => ?_, h.firmware, h.config⟩
      · rw [lookup_accept]
        split
        · rename_i hid
          subst hid
          by_contra hne
          exact hkept ⟨p, hp, fun heq => hne (congrArg some heq.symm)⟩
        · exact h.readings id p hp
      · rw [(registry_accept s' receivedMs e).devices id, h.devices id d hd]
  | firmwarePublished m =>
      exact ⟨h.readings, h.devices, getElem?_insert_of_not_replaced h.firmware hkept, h.config⟩
  | configPublished m =>
      exact ⟨h.readings, h.devices, h.firmware, getElem?_insert_of_not_replaced h.config hkept⟩

end Covers

/-! ## What calls plan -/

/-- Accepted envelopes with distinct new identities store over nothing. -/
theorem new_accepted (receivedMs : Int64) {envelopes : List Envelope}
    (hnodup : (envelopes.map fun e => e.reading.identity).Nodup)
    (hnew : ∀ e ∈ envelopes, s.lookup e.reading.identity = none) :
    s.New (envelopes.map fun e => .readingAccepted e receivedMs) := by
  induction envelopes generalizing s with
  | nil => trivial
  | cons e rest ih =>
      obtain ⟨hfresh, hrest⟩ := List.nodup_cons.mp hnodup
      obtain ⟨he, hnewRest⟩ := List.forall_mem_cons.mp hnew
      refine ⟨he, ih hrest fun e' he' => ?_⟩
      rw [lookup_accept, if_neg]
      · exact hnewRest e' he'
      · intro heq
        exact hfresh (List.mem_map.mpr ⟨e', he', heq.symm⟩)

/-- What a call plans stores over nothing. -/
theorem plan_new {call : Call} {events : List Event} (h : s.plan c call = .ok events) :
    s.New events := by
  cases plan_ok h with
  | ingest _ _ hreviewed _ => exact new_accepted _ hreviewed.nodup hreviewed.new
  | register | rotateCredential | publishFirmware | publishConfig => exact ⟨trivial, trivial⟩
  | reopen => trivial

/-- A batch whose events have all been applied is present. -/
theorem plan_present {batch : List Envelope} {receivedMs : Int64} {events : List Event}
    (h : s.plan c (.ingest batch receivedMs) = .ok events) :
    (events.foldl apply s).Present batch := by
  cases plan_ok h with
  | ingest _ _ hreviewed _ => exact hreviewed.lookup_batch _

/-- Events that store over nothing only add readings. -/
theorem New.within {events : List Event} (h : s.New events) :
    s.Within (events.foldl apply s) := by
  induction events generalizing s with
  | nil => exact .refl s
  | cons event rest ih => exact ((Within.refl s).apply_right h.1).trans (ih h.2)

theorem New.append_left {events more : List Event} (h : s.New (events ++ more)) :
    s.New events := by
  induction events generalizing s with
  | nil => trivial
  | cons event rest ih => exact ⟨h.1, ih h.2⟩

/-- What a call that fails has applied is covered: a plan with an event that could replace something
has nothing else. -/
theorem plan_covers_of_rest {call : Call} {done rest : List Event}
    (h : s.plan c call = .ok (done ++ rest)) (hrest : rest ≠ []) :
    s.Covers (done.foldl apply s) := by
  have hsingle : ∀ event, done ++ rest = [event] → s.Covers (done.foldl apply s) := by
    intro event heq
    rcases List.append_eq_singleton_iff.mp heq with ⟨rfl, -⟩ | ⟨-, hnil⟩
    · exact .refl s
    · exact absurd hnil hrest
  have hnew := (plan_new h).append_left.within
  generalize hplanned : done ++ rest = planned at h
  cases plan_ok h with
  | register | rotateCredential | publishFirmware | publishConfig => exact hsingle _ hplanned
  | @ingest batch receivedMs added _ _ hreviewed _ =>
      obtain ⟨accepted, refused, -, rfl, -⟩ := List.append_eq_map_iff.mp hplanned
      have hregistry : SameRegistry s (s.acceptAll receivedMs accepted) :=
        registry_accept_all receivedMs
      refine ⟨hnew, fun id d hd => ?_, fun version m hm => ?_, fun version m hm => ?_⟩
      · exact (hregistry.devices id).trans (by rw [hd]; rfl)
      · rw [← acceptAll, hregistry.firmware]
        exact hm
      · rw [← acceptAll, hregistry.config]
        exact hm
  | reopen => exact absurd (List.append_eq_nil_iff.mp hplanned).2 hrest

/-- What is stored after envelopes were accepted was stored before or is one of them. -/
theorem lookup_accept_all_cases {receivedMs : Int64} {envelopes : List Envelope}
    {id : String × SessionKey} {p : Envelope}
    (h : (s.acceptAll receivedMs envelopes).lookup id = some p) :
    s.lookup id = some p ∨ p ∈ envelopes ∧ p.reading.identity = id := by
  induction envelopes generalizing s with
  | nil => exact .inl h
  | cons e rest ih =>
      rcases ih (s := s.apply (.readingAccepted e receivedMs)) h with hp | ⟨hp, hid⟩
      · rw [lookup_accept] at hp
        split at hp
        · obtain rfl := Option.some.inj hp
          exact .inr ⟨List.mem_cons_self, ‹_›⟩
        · exact .inl hp
      · exact .inr ⟨List.mem_cons_of_mem e hp, hid⟩

end Store

namespace Server

variable {w : Nat → Write}

/-- A batch is stored in part at most, which adds entries for some of its readings only. If it is
answered with success, an equal reading is stored for each of them. -/
theorem ingest_cases (s : Server) (batch : List Envelope) (receivedMs : Int64) :
    let r := s.ingest c batch receivedMs w
    ∃ done, (∀ e ∈ done, e ∈ batch) ∧ r.1.store = s.store.acceptAll receivedMs done ∧
      s.store.Within r.1.store ∧
      ∀ n, r.2 = .ok n → ∀ e ∈ batch, ∃ p, r.1.store.lookup e.reading.identity = some p ∧
        (p.reading == e.reading) = true := by
  intro r
  have hperform : s.perform c (.ingest batch receivedMs) w = _ := perform_eq (by simp)
  rw [perform, Option.some.injEq] at hperform
  cases hplan : s.store.plan c (.ingest batch receivedMs) with
  | error error =>
      rw [hplan, Prod.mk.injEq] at hperform
      refine ⟨[], by simp, congrArg Server.store hperform.1, ?_, fun n hn => ?_⟩
      · rw [show r.1 = s from hperform.1]
        exact .refl _
      · have hreply := hperform.2
        rw [show (s.ingest c batch receivedMs w).2 = .ok n from hn] at hreply
        simp [Except.map] at hreply
  | ok planned =>
      rw [hplan] at hperform
      have hnew := Store.plan_new hplan
      obtain ⟨done, rest, hsplit, hstore, hreply⟩ := commit_prefix (c := c) (w := w) planned s 0
      have hstate : r.1.store = done.foldl Store.apply s.store :=
        (congrArg (fun p => p.1.store) hperform).trans hstore
      have hwithin : s.store.Within r.1.store := by
        rw [hstate]
        rw [hsplit] at hnew
        exact hnew.append_left.within
      cases Store.plan_ok hplan with
      | @ingest _ _ added _ _ hreviewed _ =>
          obtain ⟨accepted, refused, rfl, rfl, rfl⟩ := List.map_eq_append_iff.mp hsplit
          refine ⟨accepted, fun e he => hreviewed.mem e (List.mem_append_left _ he), hstate,
            hwithin, fun n hn => ?_⟩
          -- a call that succeeds has no events left over
          have hall : refused = [] := by
            have hok := congrArg Prod.snd hperform
            rw [show (s.ingest c batch receivedMs w).2 = .ok n from hn] at hok
            exact List.map_eq_nil_iff.mp (hreply.mp hok.symm)
          subst hall
          rw [List.append_nil] at hreviewed
          rw [hstate]
          exact hreviewed.lookup_batch receivedMs

end Server

end Fieldbus.Cloud
