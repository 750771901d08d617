import Fieldbus.Cloud.Contents
import Fieldbus.Library.Fallible

/-!
# Batches that are sent again

A store that accepted a first part of what a batch leaves to be stored takes the rest when the batch
is sent again (`Takes.resume`). Stores are compared up to the times at which devices were last seen,
since each attempt has its own (`SameButTimes`).
-/

namespace Fieldbus.Cloud

variable {c : Crates}

/-! ## Stores that differ in times -/

/-- A record without the time at which its device was last seen. -/
def DeviceRecord.untimed (d : DeviceRecord) : DeviceRecord := { d with lastSeenMs := none }

namespace Store

/-- The stores differ at most in the times at which devices were last seen. -/
structure SameButTimes (s s' : Store) : Prop where
  readings : s.readings = s'.readings
  devices : ∀ id : String,
    s.devices[id]?.map DeviceRecord.untimed = s'.devices[id]?.map DeviceRecord.untimed
  firmware : s.firmware = s'.firmware
  config : s.config = s'.config

namespace SameButTimes

variable {s s' s'' : Store}

theorem refl (s : Store) : s.SameButTimes s := ⟨rfl, fun _ => rfl, rfl, rfl⟩

theorem symm (h : s.SameButTimes s') : s'.SameButTimes s :=
  ⟨h.readings.symm, fun id => (h.devices id).symm, h.firmware.symm, h.config.symm⟩

theorem trans (h : s.SameButTimes s') (h' : s'.SameButTimes s'') : s.SameButTimes s'' :=
  ⟨h.readings.trans h'.readings, fun id => (h.devices id).trans (h'.devices id),
    h.firmware.trans h'.firmware, h.config.trans h'.config⟩

/-- Accepting an envelope at any two times keeps stores the same but for times. -/
theorem accept (h : s.SameButTimes s') (e : Envelope) (t t' : Int64) :
    (s.apply (.readingAccepted e t)).SameButTimes (s'.apply (.readingAccepted e t')) := by
  refine ⟨?_, fun id => ?_, h.firmware, h.config⟩
  · show s.readings.put _ _ _ = s'.readings.put _ _ _
    rw [h.readings]
  · rw [devices_accept, devices_accept]
    have hid := h.devices id
    split
    · cases hd : s.devices[id]? with
      | none =>
          rw [hd, Option.map_none, eq_comm, Option.map_eq_none_iff] at hid
          rw [hid]
          rfl
      | some d =>
          rw [hd, Option.map_some, eq_comm, Option.map_eq_some_iff] at hid
          obtain ⟨d', hd', heq⟩ := hid
          rw [hd', Option.map_some, Option.map_some, Option.map_some, Option.map_some]
          -- both records take their figures from the reading
          simp only [DeviceRecord.untimed, DeviceRecord.mk.injEq] at heq
          simp [DeviceRecord.untimed, DeviceRecord.seen, heq]
    · exact hid

/-- Accepting envelopes keeps stores the same but for times. -/
theorem acceptAll (h : s.SameButTimes s') (t t' : Int64) (es : List Envelope) :
    (s.acceptAll t es).SameButTimes (s'.acceptAll t' es) := by
  induction es generalizing s s' with
  | nil => exact h
  | cons e rest ih => exact ih (h.accept e t t')

/-- An envelope that is accepted twice in a row is accepted once. -/
theorem repeated (s : Store) (e : Envelope) (t t' t'' : Int64) :
    ((s.apply (.readingAccepted e t)).apply (.readingAccepted e t')).SameButTimes
      (s.apply (.readingAccepted e t'')) := by
  refine ⟨NestedMap.put_put _ _ _ _, fun id => ?_, rfl, rfl⟩
  rw [devices_accept, devices_accept, devices_accept]
  split
  · cases s.devices[id]? <;> rfl
  · rfl

end SameButTimes

theorem acceptAll_append (s : Store) (t : Int64) (first second : List Envelope) :
    s.acceptAll t (first ++ second) = (s.acceptAll t first).acceptAll t second := by
  rw [acceptAll, List.map_append, List.foldl_append]
  rfl

/-- Envelopes that are accepted at two times are accepted at one. -/
theorem SameButTimes.resumed (s : Store) (t t' : Int64) (before rest : List Envelope) :
    ((s.acceptAll t before).acceptAll t' rest).SameButTimes (s.acceptAll t' (before ++ rest)) := by
  rw [acceptAll_append]
  exact ((refl s).acceptAll t t' before).acceptAll t' t' rest

/-- An envelope that comes again at once does so without effect. -/
theorem SameButTimes.rewritten (s : Store) (t t' : Int64) (before : List Envelope) (e : Envelope)
    (later : List Envelope) :
    ((s.acceptAll t (before ++ [e])).acceptAll t' (e :: later)).SameButTimes
      (s.acceptAll t' (before ++ e :: later)) := by
  rw [acceptAll_append]
  exact ((repeated _ e t t' t').acceptAll t' t' later).trans (resumed s t t' before (e :: later))

/-! ## The checks of a second attempt -/

variable {s s' : Store} {batch done rest : List Envelope}

/-- What the checks say of an envelope: an error, or whether it is new. They look at the secret of
its device and at the envelope known under its identity. -/
def verdict (c : Crates) (secretHex : Option String) (known : Option Envelope) (e : Envelope) :
    Except Error Bool :=
  if e.protocolVersion ≠ Cloud.protocolVersion then
    .error (.invalid "unsupported protocol version")
  else match secretHex with
    | none => .error .unauthorized
    | some secretHex => match sign c secretHex e.reading with
      | .error error => .error error
      | .ok signature =>
          if signature ≠ e.signature then .error .unauthorized
          else if !e.reading.value.isFinite || e.reading.quality.isEmpty then
            .error (.invalid "invalid reading")
          else match known with
            | some prior => if prior.reading != e.reading then .error .conflict else .ok false
            | none => .ok true

theorem review_eq_verdict (s : Store) (unseen : List Envelope) (e : Envelope) :
    s.review c unseen e =
      (verdict c (s.devices[e.reading.deviceId]?.map DeviceRecord.secretHex)
        (s.known unseen e.reading) e).map fun new => if new then unseen ++ [e] else unseen := by
  have hknown : s.known unseen e.reading = (s.stored e.reading).or (unseen.find? fun prior =>
      prior.reading.deviceId == e.reading.deviceId && prior.reading.key == e.reading.key) := by
    rw [known]
    congr 2
    funext prior
    simp [Reading.identity, beq_eq_decide]
  unfold review verdict
  split
  · rfl
  · cases s.devices[e.reading.deviceId]? with
    | none => rfl
    | some d =>
        rw [Option.map_some]
        dsimp only
        cases sign c d.secretHex e.reading with
        | error error => rfl
        | ok signature =>
            dsimp only
            split
            · rfl
            · split
              · rfl
              · rw [← hknown]
                cases s.known unseen e.reading with
                | none => rfl
                | some prior =>
                    dsimp only
                    split <;> rfl

/-- What keeps the secrets of records keeps the secret that is found. -/
theorem secret_of_map (f : DeviceRecord → DeviceRecord) (hf : ∀ d, (f d).secretHex = d.secretHex)
    {d d' : Option DeviceRecord} (h : d.map f = d'.map f) :
    d.map DeviceRecord.secretHex = d'.map DeviceRecord.secretHex := by
  have hsecret := congrArg (Option.map DeviceRecord.secretHex) h
  simpa [Function.comp_def, hf] using hsecret

/-- The checks do not look at times. -/
theorem SameButTimes.review (h : s.SameButTimes s') (unseen : List Envelope) (e : Envelope) :
    s.review c unseen e = s'.review c unseen e := by
  have hstored : s.stored e.reading = s'.stored e.reading := by rw [stored, stored, h.readings]
  rw [review_eq_verdict, review_eq_verdict, known, known, hstored,
    secret_of_map DeviceRecord.untimed (fun _ => rfl) (h.devices e.reading.deviceId)]

/-- The envelopes have distinct identities, none of which is stored. -/
structure Fresh (s : Store) (es : List Envelope) : Prop where
  nodup : (es.map fun e => e.reading.identity).Nodup
  new : ∀ e ∈ es, s.lookup e.reading.identity = none

theorem Fresh.left (h : s.Fresh (done ++ rest)) : s.Fresh done := by
  have hnodup := h.nodup
  rw [List.map_append] at hnodup
  exact ⟨hnodup.of_append_left, fun e he => h.new e (List.mem_append_left rest he)⟩

/-- What was accepted is found like what is pending. -/
theorem Fresh.stored (h : s.Fresh done) (t : Int64) (r : Reading) :
    (s.acceptAll t done).stored r = s.known done r := by
  rw [known]
  cases hfind : done.find? fun prior => decide (prior.reading.identity = r.identity) with
  | none =>
      rw [Option.or_none]
      exact lookup_accept_all_of_notMem t (by simpa using hfind)
  | some p =>
      have hp := List.mem_of_find?_eq_some hfind
      have hid : p.reading.identity = r.identity := by simpa using List.find?_some hfind
      have hnone : s.stored r = none := by
        have hnew := h.new p hp
        rwa [hid] at hnew
      have hstored := lookup_accept_all_of_mem (s := s) t h.nodup hp
      rw [hid] at hstored
      rw [hnone, Option.none_or]
      exact hstored

/-- Checking against what was accepted is checking with it pending. -/
theorem Fresh.review (h : s.Fresh done) (t : Int64) (unseen : List Envelope) (e : Envelope) :
    s.review c (done ++ unseen) e =
      ((s.acceptAll t done).review c unseen e).map fun unseen => done ++ unseen := by
  have hregistry : SameRegistry s (s.acceptAll t done) := registry_accept_all t
  have hknown : (s.acceptAll t done).known unseen e.reading =
      s.known (done ++ unseen) e.reading := by
    rw [known, h.stored t, known, known, List.find?_append, Option.or_assoc]
  rw [review_eq_verdict, review_eq_verdict, hknown,
    secret_of_map registration (fun _ => rfl) (hregistry.devices e.reading.deviceId)]
  cases verdict c (s.devices[e.reading.deviceId]?.map DeviceRecord.secretHex)
      (s.known (done ++ unseen) e.reading) e with
  | error error => rfl
  | ok new =>
      cases new with
      | false => rfl
      | true => exact congrArg Except.ok (List.append_assoc _ _ _)

/-- Some first part of a batch leaves any first part of what the batch leaves. -/
theorem review_split {unseen : List Envelope}
    (h : batch.foldlM (s.review c) unseen = .ok (unseen ++ (done ++ rest))) :
    ∃ first second, batch = first ++ second ∧
      first.foldlM (s.review c) unseen = .ok (unseen ++ done) := by
  induction batch generalizing unseen done with
  | nil =>
      have hnil : done ++ rest = [] := by simpa using Except.ok.inj h
      obtain ⟨rfl, -⟩ := List.append_eq_nil_iff.mp hnil
      exact ⟨[], [], rfl, by simp [pure, Except.pure]⟩
  | cons e batch ih =>
      cases done with
      | nil => exact ⟨[], e :: batch, rfl, by simp [pure, Except.pure]⟩
      | cons d done =>
          obtain ⟨next, hreview, h⟩ := Fallible.foldlM_cons_ok_iff.mp h
          rcases review_adds hreview with ⟨-, rfl⟩ | ⟨-, rfl⟩
          · obtain ⟨first, second, rfl, hfirst⟩ := ih h
            refine ⟨e :: first, second, rfl, ?_⟩
            rw [List.foldlM_cons, hreview]
            exact hfirst
          -- the envelope is the first that is left
          · obtain ⟨added, hadded, -⟩ := review_batch_ok h
            rw [List.append_assoc, List.append_cancel_left_eq] at hadded
            obtain ⟨rfl, -⟩ := List.cons.inj hadded
            have hrest : batch.foldlM (s.review c) (unseen ++ [d]) =
                .ok (unseen ++ [d] ++ (done ++ rest)) := by
              rw [List.append_assoc]
              exact h
            obtain ⟨first, second, rfl, hfirst⟩ := ih hrest
            refine ⟨d :: first, second, rfl, ?_⟩
            rw [List.foldlM_cons, hreview, ← List.singleton_append (l := done),
              ← List.append_assoc]
            exact hfirst

/-- Checking a batch against what was accepted is checking it with that pending. -/
theorem Fresh.review_batch (h : s.Fresh done) (t : Int64) (unseen : List Envelope) :
    batch.foldlM (s.review c) (done ++ unseen) =
      (batch.foldlM ((s.acceptAll t done).review c) unseen).map fun unseen => done ++ unseen := by
  induction batch generalizing unseen with
  | nil => rfl
  | cons e batch ih =>
      rw [List.foldlM_cons, List.foldlM_cons, h.review t]
      cases (s.acceptAll t done).review c unseen e with
      | error error => rfl
      | ok next => exact ih next

/-- After what a batch leaves was accepted, the batch leaves nothing. -/
theorem review_again (h : batch.foldlM (s.review c) [] = .ok done) (t : Int64) :
    batch.foldlM ((s.acceptAll t done).review c) [] = .ok [] := by
  obtain ⟨added, hadded, hreviewed⟩ := review_batch_ok h
  obtain rfl : added = done := hadded.symm
  have hfresh : s.Fresh added := ⟨hreviewed.nodup, hreviewed.new⟩
  have hagain : ∀ e ∈ batch, (s.acceptAll t added).review c [] e = .ok [] := by
    intro e he
    obtain ⟨p, hp, heq⟩ := hreviewed.covered e he
    have hreview := hfresh.review (c := c) t [] e
    rw [List.append_nil, review_of_valid (hreviewed.valid e he),
      show s.known added e.reading = some p from hp] at hreview
    cases hnext : (s.acceptAll t added).review c [] e with
    | error error => simp [hnext, bne, heq, Except.map] at hreview
    | ok next =>
        simp only [hnext, bne, heq, Bool.not_true, Bool.false_eq_true, if_false, Except.map,
          Except.ok.injEq, List.self_eq_append_right] at hreview
        rw [hreview]
  clear hreviewed h
  induction batch with
  | nil => rfl
  | cons e batch ih =>
      obtain ⟨he, hrest⟩ := List.forall_mem_cons.mp hagain
      rw [List.foldlM_cons, he]
      exact ih hrest

/-- After a first part of what a batch leaves was accepted, the batch leaves the rest. -/
theorem review_rest (h : batch.foldlM (s.review c) [] = .ok (done ++ rest)) (t : Int64) :
    batch.foldlM ((s.acceptAll t done).review c) [] = .ok rest := by
  have hall : batch.foldlM (s.review c) [] = .ok ([] ++ (done ++ rest)) := h
  obtain ⟨first, second, rfl, hfirst⟩ := review_split hall
  rw [List.nil_append] at hfirst
  obtain ⟨added, hadded, hreviewed⟩ := review_batch_ok hfirst
  obtain rfl : added = done := hadded.symm
  have hfresh : s.Fresh added := ⟨hreviewed.nodup, hreviewed.new⟩
  have hsecond : second.foldlM (s.review c) (added ++ []) = .ok (added ++ rest) := by
    rw [List.foldlM_append, hfirst] at h
    rw [List.append_nil]
    exact h
  rw [hfresh.review_batch t] at hsecond
  rw [List.foldlM_append, review_again hfirst t]
  cases hleft : second.foldlM ((s.acceptAll t added).review c) [] with
  | error error =>
      rw [hleft] at hsecond
      cases hsecond
  | ok left =>
      rw [hleft] at hsecond
      have hsame : left = rest := List.append_cancel_left (Except.ok.inj hsecond)
      rw [← hsame]
      exact hleft

/-- The checks of the batch leave the given envelopes to be stored, and there is room for them. -/
structure Takes (c : Crates) (s : Store) (batch added : List Envelope) : Prop where
  size : ¬ (batch.isEmpty ∨ batch.length > maxBatch)
  review : batch.foldlM (s.review c) [] = .ok added
  room : ¬ s.readingCount + added.length > maxStoredReadings

/-- A batch that passes its checks is taken. -/
theorem takes_of_plan {receivedMs : Int64} {planned : List Event}
    (h : s.plan c (.ingest batch receivedMs) = .ok planned) : ∃ added, s.Takes c batch added := by
  rw [plan] at h
  split at h
  · cases h
  · rename_i hsize
    split at h
    · cases h
    · rename_i unseen hreview
      split at h
      · cases h
      · rename_i hroom
        exact ⟨unseen, hsize, hreview, hroom⟩

theorem Takes.reviewed {added : List Envelope} (h : s.Takes c batch added) :
    s.Reviewed c [] batch added := by
  obtain ⟨added', hadded, hreviewed⟩ := review_batch_ok h.review
  obtain rfl : added' = added := hadded.symm
  exact hreviewed

/-- What a batch plans that is taken. -/
theorem Takes.plan {added : List Envelope} (h : s.Takes c batch added) (receivedMs : Int64) :
    s.plan c (.ingest batch receivedMs) =
      .ok (added.map fun e => .readingAccepted e receivedMs) := by
  rw [Store.plan, if_neg h.size, h.review]
  dsimp only
  rw [if_neg h.room]

/-- A valid envelope with a new identity is taken. -/
theorem takes_singleton {e : Envelope} (hvalid : s.Valid c e)
    (hnew : s.lookup e.reading.identity = none) (hroom : s.readingCount < maxStoredReadings) :
    s.Takes c [e] [e] := by
  refine ⟨by simp [maxBatch], ?_, ?_⟩
  · have hknown : s.known [] e.reading = none := by
      rw [known_nil]
      exact hnew
    rw [List.foldlM_cons, review_of_valid hvalid, hknown]
    rfl
  · rw [List.length_singleton]
    omega

theorem Takes.finite {added : List Envelope} (h : s.Takes c batch added) (t : Int64) :
    ∀ event ∈ added.map fun e => Event.readingAccepted e t, event.Finite := by
  intro event hevent
  obtain ⟨e, he, rfl⟩ := List.mem_map.mp hevent
  exact (h.reviewed.valid e (h.reviewed.mem e he)).finite

/-- A store on which a first part of what a batch leaves was accepted takes the rest. -/
theorem Takes.resume {t : Int64} (h : s.Takes c batch (done ++ rest))
    (hsame : s'.SameButTimes (s.acceptAll t done)) : s'.Takes c batch rest := by
  have hfresh : s.Fresh done := Fresh.left ⟨h.reviewed.nodup, h.reviewed.new⟩
  refine ⟨h.size, ?_, ?_⟩
  · have hreview : s'.review c = (s.acceptAll t done).review c := by
      funext unseen e
      exact hsame.review unseen e
    rw [hreview]
    exact review_rest h.review t
  · have hroom := h.room
    have hcount := count_accept_all t hfresh.nodup hfresh.new
    rw [readingCount, ← hsame.readings] at hcount
    rw [List.length_append] at hroom
    rw [readingCount, hcount]
    omega

/-- The stored readings, and the boot counter and sequence number that each device has. -/
def view (s : Store) : NestedMap String SessionKey Envelope compare sessionOrder ×
    (String → Option (Option UInt64 × Option UInt64)) :=
  (s.readings, fun id => s.devices[id]?.map fun d => (d.bootCounter, d.lastSequence))

theorem SameButTimes.view (h : s.SameButTimes s') : s.view = s'.view := by
  have hposition : ∀ m : Option DeviceRecord, m.map (fun d => (d.bootCounter, d.lastSequence)) =
      (m.map DeviceRecord.untimed).map fun d => (d.bootCounter, d.lastSequence) := by
    intro m
    cases m <;> rfl
  refine Prod.ext h.readings (funext fun id => ?_)
  show s.devices[id]?.map _ = s'.devices[id]?.map _
  rw [hposition, h.devices id, ← hposition]

/-- The stores have the same readings but for those of the batch. -/
def SameOutside (batch : List Envelope) (s s' : Store) : Prop :=
  ∀ id, (∀ e ∈ batch, e.reading.identity ≠ id) → s'.lookup id = s.lookup id

/-- Events that accept envelopes with identities of a batch touch no other reading. -/
theorem same_outside {events : List Event}
    (h : ∀ event ∈ events, ∃ e t, event = .readingAccepted e t ∧
      ∃ e' ∈ batch, e'.reading.identity = e.reading.identity) :
    s.SameOutside batch (events.foldl apply s) := by
  intro id hid
  induction events generalizing s with
  | nil => rfl
  | cons event events ih =>
      obtain ⟨⟨e, t, rfl, e', he', heq⟩, hrest⟩ := List.forall_mem_cons.mp h
      rw [List.foldl_cons, ih hrest, lookup_accept, if_neg (heq ▸ hid e' he')]

/-- Accepted envelopes, as they are read back. -/
theorem fold_accepted_map_value (f : F64 → F64) (s : Store) (t : Int64) (es : List Envelope) :
    ((es.map fun e => Event.readingAccepted e t).map (Event.mapValue f)).foldl apply s =
      s.acceptAll t (es.map (Envelope.mapValue f)) := by
  rw [acceptAll, List.map_map, List.map_map]
  rfl

end Store

end Fieldbus.Cloud
