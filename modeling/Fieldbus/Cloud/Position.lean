import Fieldbus.Cloud.Confluence
import Fieldbus.Cloud.Credentials
import Fieldbus.Cloud.Health
import Fieldbus.Cloud.Resume
import Mathlib.Data.Prod.Lex
import Mathlib.Order.Bounds.Defs

/-!
# Reported positions

`health` and `dashboard` report the boot counter and the sequence number of the reading of a device
that was stored last. `newest_iff` says in which runs this is always the newest of its stored
positions: those in which no batch ends, for a device, with a reading older than another one of it.
-/

namespace Fieldbus.Cloud

variable {c : Crates}

/-- A boot counter and a sequence number, in lexicographic order. -/
abbrev Position := UInt64 ×ₗ UInt64

/-- The position of a reading. -/
def Reading.position (r : Reading) : Position := toLex r.key

theorem Position.le_refl (p : Position) : p ≤ p :=
  Prod.Lex.toLex_le_toLex.mpr (.inr ⟨rfl, UInt64.le_refl _⟩)

theorem Position.le_antisymm {p q : Position} (h : p ≤ q) (h' : q ≤ p) : p = q := by
  obtain ⟨boot, sequence⟩ := p
  obtain ⟨boot', sequence'⟩ := q
  have hle := Prod.Lex.toLex_le_toLex.mp h
  have hge := Prod.Lex.toLex_le_toLex.mp h'
  simp only [UInt64.lt_iff_toNat_lt, UInt64.le_iff_toNat_le, ← UInt64.toNat_inj] at hle hge
  have hboot : boot = boot' := UInt64.toNat_inj.mp (by omega)
  have hsequence : sequence = sequence' := UInt64.toNat_inj.mp (by omega)
  rw [hboot, hsequence]

namespace Store

/-- The positions of the stored readings of a device. -/
def positions (s : Store) (id : String) : Set Position :=
  {p | s.lookup (id, ofLex p) ≠ none}

/-- The figures are the newest stored position of the device, or absent if it has none. -/
def IsNewest (s : Store) (id : String) (bootCounter lastSequence : Option UInt64) : Prop :=
  (bootCounter = none ∧ lastSequence = none ∧ s.positions id = ∅) ∨
    ∃ boot sequence, bootCounter = some boot ∧ lastSequence = some sequence ∧
      IsGreatest (s.positions id) (toLex (boot, sequence))

/-- Health and dashboard report the newest stored position of each device. -/
def ReportsNewest (s : Store) : Prop :=
  ∀ now staleAfterMs,
    (∀ id h, s.health id now staleAfterMs = .ok h → s.IsNewest id h.bootCounter h.lastSequence) ∧
      ∀ h ∈ s.dashboard now staleAfterMs, s.IsNewest h.deviceId h.bootCounter h.lastSequence

variable {s s' : Store} {id : String}

/-- What is reported are the figures of the records. -/
theorem reports_newest_iff : s.ReportsNewest ↔
    ∀ id d, s.devices[id]? = some d → s.IsNewest id d.bootCounter d.lastSequence := by
  constructor
  · intro h id d hd
    obtain ⟨report, hreport, hboot, hsequence⟩ : ∃ report, s.health id 0 0 = .ok report ∧
        report.bootCounter = d.bootCounter ∧ report.lastSequence = d.lastSequence := by
      rw [health, hd]
      exact ⟨_, rfl, rfl, rfl⟩
    rw [← hboot, ← hsequence]
    exact (h 0 0).1 id report hreport
  · intro h now staleAfterMs
    have hhealth : ∀ id report, s.health id now staleAfterMs = .ok report →
        report.deviceId = id ∧ s.IsNewest id report.bootCounter report.lastSequence := by
      intro id report hreport
      rw [health] at hreport
      split at hreport
      · cases hreport
      · rename_i d hd
        obtain rfl := Except.ok.inj hreport
        exact ⟨rfl, h id d hd⟩
    refine ⟨fun id report hreport => (hhealth id report hreport).2, fun report hmem => ?_⟩
    obtain ⟨id, -, hreport⟩ := List.mem_filterMap.mp hmem
    cases hresult : s.health id now staleAfterMs with
    | error error =>
        rw [hresult] at hreport
        cases hreport
    | ok found =>
        rw [hresult] at hreport
        obtain rfl := Option.some.inj hreport
        obtain ⟨hid, hnewest⟩ := hhealth id found hresult
        rwa [hid]

/-- The positions do not depend on the values of readings. -/
theorem SameButValues.positions (h : s.SameButValues s') (id : String) :
    s.positions id = s'.positions id := by
  ext p
  have hfind := h.find id (ofLex p)
  simp only [Store.positions, Set.mem_ofPred_eq, lookup, ne_eq]
  rw [← Option.map_eq_none_iff (f := Envelope.mapValue fun _ => ⟨0⟩), hfind,
    Option.map_eq_none_iff]

/-- Two stores with the same stored positions of a device report the same newest one. -/
theorem IsNewest.unique {boot sequence boot' sequence' : Option UInt64}
    (h : s.IsNewest id boot sequence) (h' : s'.IsNewest id boot' sequence')
    (hsame : s.positions id = s'.positions id) : boot = boot' ∧ sequence = sequence' := by
  rcases h with ⟨rfl, rfl, hempty⟩ | ⟨b, q, rfl, rfl, hgreatest⟩ <;>
    rcases h' with ⟨rfl, rfl, hempty'⟩ | ⟨b', q', rfl, rfl, hgreatest'⟩
  · exact ⟨rfl, rfl⟩
  · rw [← hsame, hempty] at hgreatest'
    exact absurd hgreatest'.1 (Set.notMem_empty _)
  · rw [hsame, hempty'] at hgreatest
    exact absurd hgreatest.1 (Set.notMem_empty _)
  · rw [← hsame] at hgreatest'
    have heq := Position.le_antisymm (hgreatest'.2 hgreatest.1) (hgreatest.2 hgreatest'.1)
    obtain ⟨rfl, rfl⟩ := Prod.mk.inj (toLex.injective heq)
    exact ⟨rfl, rfl⟩

/-- A store with more positions of a device does not report an older one. -/
theorem IsNewest.forward {boot' sequence' : Option UInt64} {boot sequence : UInt64}
    (h : s.IsNewest id (some boot) (some sequence)) (h' : s'.IsNewest id boot' sequence')
    (hmore : s.positions id ⊆ s'.positions id) :
    ∃ b q, boot' = some b ∧ sequence' = some q ∧
      (toLex (boot, sequence) : Position) ≤ toLex (b, q) := by
  rcases h with ⟨hnone, -, -⟩ | ⟨b, q, hb, hq, hgreatest⟩
  · cases hnone
  · obtain rfl := Option.some.inj hb
    obtain rfl := Option.some.inj hq
    rcases h' with ⟨-, -, hempty⟩ | ⟨b', q', rfl, rfl, hgreatest'⟩
    · have hmem := hmore hgreatest.1
      rw [hempty] at hmem
      exact absurd hmem (Set.notMem_empty _)
    · exact ⟨b', q', rfl, rfl, hgreatest'.2 (hmore hgreatest.1)⟩

/-! ## What a batch adds -/

/-- The envelopes of a batch whose identities are not stored, each identity once. -/
def news (s : Store) : List Envelope → List Envelope
  | [] => []
  | e :: rest =>
      if s.lookup e.reading.identity = none then
        e :: (s.news rest).filter fun later => later.reading.identity ≠ e.reading.identity
      else s.news rest

/-- Of each device, the last of the readings that the batch adds is newer than what is stored and
than what the batch adds before it. -/
def InOrder (s : Store) (batch : List Envelope) : Prop :=
  ∀ before e after, s.news batch = before ++ e :: after →
    (∀ later ∈ after, later.reading.deviceId ≠ e.reading.deviceId) →
    (∀ p ∈ s.positions e.reading.deviceId, p ≤ e.reading.position) ∧
      ∀ earlier ∈ before, earlier.reading.deviceId = e.reading.deviceId →
        earlier.reading.position ≤ e.reading.position

variable {batch unseen result added : List Envelope} {receivedMs : Int64}

/-- A batch of one reading is in order if the reading is newer than what is stored. -/
theorem in_order_singleton {e : Envelope}
    (h : ∀ p ∈ s.positions e.reading.deviceId, p ≤ e.reading.position) : s.InOrder [e] := by
  intro before e' after hsplit _
  have hmem : ∀ x ∈ s.news [e], x = e := by
    intro x hx
    rw [news] at hx
    split at hx
    · simpa [news] using hx
    · simp [news] at hx
  have hlength : (s.news [e]).length ≤ 1 := by
    rw [news]
    split <;> simp [news]
  rw [hsplit, List.length_append, List.length_cons] at hlength
  obtain rfl : before = [] := List.eq_nil_of_length_eq_zero (by omega)
  obtain rfl : e' = e := hmem e' (by simp [hsplit])
  exact ⟨h, by simp⟩

theorem known_eq_none_iff {r : Reading} : s.known unseen r = none ↔
    s.lookup r.identity = none ∧ ∀ prior ∈ unseen, prior.reading.identity ≠ r.identity := by
  rw [known, Option.or_eq_none_iff, List.find?_eq_none]
  simp only [decide_eq_true_eq]
  rfl

/-- Envelopes whose identity is not pending do not have that of a pending one either. -/
theorem filter_pending {e prior : Envelope} (hprior : prior ∈ unseen)
    (hid : prior.reading.identity = e.reading.identity) (batch : List Envelope) :
    ((batch.filter fun later => later.reading.identity ≠ e.reading.identity).filter fun later =>
        unseen.all fun prior => prior.reading.identity ≠ later.reading.identity) =
      batch.filter fun later =>
        unseen.all fun prior => prior.reading.identity ≠ later.reading.identity := by
  rw [List.filter_filter]
  refine List.filter_congr fun later _ => ?_
  rw [Bool.eq_iff_iff]
  simp only [ne_eq, List.all_eq_true, decide_eq_true_eq, Bool.and_eq_true]
  constructor
  · exact And.left
  · intro hall
    exact ⟨hall, fun heq => hall prior hprior (hid.trans heq.symm)⟩

/-- One more pending identity is filtered out by itself. -/
theorem filter_pending_append (e : Envelope) (batch : List Envelope) :
    (batch.filter fun later =>
        (unseen ++ [e]).all fun prior => prior.reading.identity ≠ later.reading.identity) =
      (batch.filter fun later => later.reading.identity ≠ e.reading.identity).filter fun later =>
        unseen.all fun prior => prior.reading.identity ≠ later.reading.identity := by
  rw [List.filter_filter]
  refine List.filter_congr fun later _ => ?_
  rw [Bool.eq_iff_iff]
  simp only [ne_eq, List.all_append, List.all_cons, List.all_nil, Bool.and_true, Bool.and_eq_true,
    List.all_eq_true, decide_eq_true_eq]
  exact and_congr_right fun _ => not_congr eq_comm

/-- What the checks of a batch leave is what it adds, but for the identities that were pending. -/
theorem review_news (h : batch.foldlM (s.review c) unseen = .ok result) :
    result = unseen ++ (s.news batch).filter fun e =>
      unseen.all fun prior => prior.reading.identity ≠ e.reading.identity := by
  induction batch generalizing unseen with
  | nil =>
      obtain rfl := Except.ok.inj h
      simp [news]
  | cons e rest ih =>
      obtain ⟨next, hreview, h⟩ := Fallible.foldlM_cons_ok_iff.mp h
      rw [ih h, news]
      rcases review_adds hreview with ⟨hknown, rfl⟩ | ⟨hknown, rfl⟩
      · congr 1
        split
        -- the identity is pending, so that neither `e` nor a later one with it is added
        · rename_i hnew
          rw [ne_eq, known_eq_none_iff, not_and, not_forall] at hknown
          obtain ⟨prior, hprior⟩ := hknown hnew
          rw [Classical.not_imp, not_not] at hprior
          rw [List.filter_cons_of_neg, filter_pending hprior.1 hprior.2]
          simp only [ne_eq, List.all_eq_true, decide_eq_true_eq]
          exact fun hall => hall prior hprior.1 hprior.2
        · rfl
      · obtain ⟨hnew, hpending⟩ := known_eq_none_iff.mp hknown
        rw [if_pos hnew, List.filter_cons_of_pos (by simpa using hpending), List.append_assoc,
          List.singleton_append, filter_pending_append]

/-- What a batch that passes its checks leaves to be stored is what it adds. -/
theorem review_eq_news (h : batch.foldlM (s.review c) [] = .ok result) :
    result = s.news batch := by
  have hall := review_news h
  simpa using hall

/-! ## Accepting what a batch adds -/

/-- The positions after envelopes were accepted. -/
theorem mem_positions_accept_all {p : Position} : p ∈ (s.acceptAll receivedMs added).positions id ↔
    p ∈ s.positions id ∨ ∃ e ∈ added, e.reading.deviceId = id ∧ e.reading.position = p := by
  induction added generalizing s with
  | nil => simp [acceptAll]
  | cons first rest ih =>
      have hfirst : p ∈ (s.apply (.readingAccepted first receivedMs)).positions id ↔
          p ∈ s.positions id ∨ first.reading.deviceId = id ∧ first.reading.position = p := by
        simp only [positions, Set.mem_ofPred_eq, lookup_accept, Reading.identity, Reading.position,
          Prod.mk.injEq]
        by_cases hid : first.reading.deviceId = id ∧ first.reading.key = ofLex p
        · rw [if_pos hid]
          exact iff_of_true (by simp) (.inr ⟨hid.1, congrArg toLex hid.2⟩)
        · rw [if_neg hid]
          refine ⟨.inl, fun h => h.resolve_right fun heq => hid ⟨heq.1, ?_⟩⟩
          exact congrArg ofLex heq.2
      rw [accept_all_cons, ih, hfirst, List.exists_mem_cons_iff, or_assoc]

/-- The record of a device shows the last accepted envelope. -/
theorem devices_accept_all_last {before after : List Envelope} {e : Envelope} {d : DeviceRecord}
    (hlast : ∀ later ∈ after, later.reading.deviceId ≠ e.reading.deviceId)
    (hd : (s.acceptAll receivedMs (before ++ e :: after)).devices[e.reading.deviceId]? = some d) :
    d.bootCounter = some e.reading.bootCounter ∧ d.lastSequence = some e.reading.sequence := by
  have hnone : after.filter (fun e' => e'.reading.deviceId = e.reading.deviceId) = [] :=
    List.filter_eq_nil_iff.mpr (by simpa using hlast)
  simp only [devices_accept_all, List.filter_append, List.filter_cons_of_pos, decide_true, hnone,
    List.foldl_append, Option.map_eq_some_iff] at hd
  obtain ⟨d', -, rfl⟩ := hd
  exact ⟨rfl, rfl⟩

/-- The last envelope of a device. -/
theorem exists_last (h : ∃ e ∈ added, e.reading.deviceId = id) :
    ∃ before e after, added = before ++ e :: after ∧ e.reading.deviceId = id ∧
      ∀ later ∈ after, later.reading.deviceId ≠ id := by
  induction added with
  | nil => simp at h
  | cons first rest ih =>
      by_cases hrest : ∃ e ∈ rest, e.reading.deviceId = id
      · obtain ⟨before, e, after, rfl, he, hlast⟩ := ih hrest
        exact ⟨first :: before, e, after, rfl, he, hlast⟩
      · obtain ⟨e, he, hid⟩ := h
        rcases List.mem_cons.mp he with rfl | he
        · exact ⟨[], e, rest, rfl, hid, fun later hmem heq => hrest ⟨later, hmem, heq⟩⟩
        · exact absurd ⟨e, he, hid⟩ hrest

/-- Accepted envelopes keep the reports newest exactly when, of each device, the last is newer than
what is stored and than those before it. -/
theorem accept_all_reports_iff (h : s.ReportsNewest)
    (hdevices : ∀ e ∈ added, e.reading.deviceId ∈ s.devices) :
    (s.acceptAll receivedMs added).ReportsNewest ↔
      ∀ before e after, added = before ++ e :: after →
        (∀ later ∈ after, later.reading.deviceId ≠ e.reading.deviceId) →
        (∀ p ∈ s.positions e.reading.deviceId, p ≤ e.reading.position) ∧
          ∀ earlier ∈ before, earlier.reading.deviceId = e.reading.deviceId →
            earlier.reading.position ≤ e.reading.position := by
  rw [reports_newest_iff] at h ⊢
  constructor
  · rintro hafter before e after rfl hlast
    have hmem := hdevices e (List.mem_append_right _ List.mem_cons_self)
    obtain ⟨d, hd⟩ : ∃ d, (s.acceptAll receivedMs (before ++ e :: after)).devices[
        e.reading.deviceId]? = some d := by
      rw [← Option.isSome_iff_exists, ← Option.isSome_map (f := registration),
        (registry_accept_all receivedMs).devices, Option.isSome_map]
      exact Std.ExtTreeMap.mem_iff_isSome_getElem?.mp hmem
    obtain ⟨hboot, hsequence⟩ := devices_accept_all_last hlast hd
    rcases hafter _ d hd with ⟨hnone, -, -⟩ | ⟨boot, sequence, hb, hq, hgreatest⟩
    · rw [hboot] at hnone
      cases hnone
    · obtain rfl := Option.some.inj (hboot.symm.trans hb)
      obtain rfl := Option.some.inj (hsequence.symm.trans hq)
      refine ⟨fun p hp => hgreatest.2 (mem_positions_accept_all.mpr (.inl hp)),
        fun earlier hearlier hid => hgreatest.2 (mem_positions_accept_all.mpr (.inr ?_))⟩
      exact ⟨earlier, List.mem_append_left _ hearlier, hid, rfl⟩
  · intro horder id d hd
    by_cases hadded : ∃ e ∈ added, e.reading.deviceId = id
    · obtain ⟨before, e, after, rfl, rfl, hlast⟩ := exists_last hadded
      obtain ⟨hboot, hsequence⟩ := devices_accept_all_last hlast hd
      obtain ⟨hstored, hbefore⟩ := horder before e after rfl hlast
      refine .inr ⟨_, _, hboot, hsequence, ?_, fun p hp => ?_⟩
      · exact mem_positions_accept_all.mpr
          (.inr ⟨e, List.mem_append_right _ List.mem_cons_self, rfl, rfl⟩)
      · rcases mem_positions_accept_all.mp hp with hp | ⟨e', he', hid, rfl⟩
        · exact hstored p hp
        · rcases List.mem_append.mp he' with he' | he'
          · exact hbefore e' he' hid
          · rcases List.mem_cons.mp he' with rfl | he'
            · exact Position.le_refl _
            · exact absurd hid (hlast e' he')
    -- nothing of the device was added
    · have hne : ∀ e ∈ added, e.reading.deviceId ≠ id := fun e he hid => hadded ⟨e, he, hid⟩
      rw [devices_accept_all_of_ne receivedMs hne] at hd
      have hsame : (s.acceptAll receivedMs added).positions id = s.positions id := by
        ext p
        rw [mem_positions_accept_all, or_iff_left]
        rintro ⟨e, he, hid, -⟩
        exact hne e he hid
      have hnewest := h id d hd
      rwa [IsNewest, hsame]

/-- What is reported does not depend on the values of readings. -/
theorem SameButValues.reports_newest (h : s'.SameButValues s) (hreports : s.ReportsNewest) :
    s'.ReportsNewest := by
  rw [reports_newest_iff] at hreports ⊢
  intro id d hd
  rw [h.devices] at hd
  have hnewest := hreports id d hd
  rwa [IsNewest, h.positions id]

/-! ## Runs -/

/-- Only registered devices have stored readings. -/
def Owned (s : Store) : Prop := ∀ id, id ∉ s.devices → s.positions id = ∅

/-- A batch may be stored exactly when the store takes what it adds. -/
theorem acceptable_iff_takes : s.Acceptable c batch ↔ s.Takes c batch (s.news batch) := by
  constructor
  · intro h
    obtain ⟨result, hresult⟩ := review_batch_iff.mpr ⟨h.valid, h.consistent⟩
    obtain ⟨added, hadded, hreviewed⟩ := review_batch_ok hresult
    obtain rfl : added = result := hadded.symm
    have hnonempty := h.nonempty
    have hbounded := h.bounded
    have hcapacity := h.capacity
    rw [← hreviewed.length_eq] at hcapacity
    rw [← review_eq_news hresult]
    refine ⟨?_, hresult, by omega⟩
    rw [List.isEmpty_iff_length_eq_zero]
    omega
  · intro h
    obtain ⟨hvalid, hconsistent⟩ := review_batch_iff.mp ⟨_, h.review⟩
    have hsize := h.size
    have hroom := h.room
    rw [List.isEmpty_iff_length_eq_zero] at hsize
    rw [h.reviewed.length_eq] at hroom
    exact ⟨by omega, by omega, hvalid, hconsistent, by omega⟩

/-- A batch that passes its checks is taken with what it adds. -/
theorem takes_news_of_plan {planned : List Event}
    (h : s.plan c (.ingest batch receivedMs) = .ok planned) : s.Takes c batch (s.news batch) := by
  obtain ⟨added, htakes⟩ := takes_of_plan h
  rwa [← review_eq_news htakes.review]

theorem Within.positions (h : s.Within s') (id : String) : s.positions id ⊆ s'.positions id := by
  intro p hp
  obtain ⟨e, he⟩ := Option.ne_none_iff_exists'.mp hp
  exact Option.ne_none_iff_exists'.mpr ⟨e, h _ e he⟩

/-- Accepting readings of registered devices keeps readings to these. -/
theorem Owned.accept_all (h : s.Owned) (hdevices : ∀ e ∈ added, e.reading.deviceId ∈ s.devices) :
    (s.acceptAll receivedMs added).Owned := by
  intro id hid
  have hnone : id ∉ s.devices := by
    intro hmem
    apply hid
    rw [Std.ExtTreeMap.mem_iff_isSome_getElem?, ← Option.isSome_map (f := registration)] at hmem ⊢
    rwa [(registry_accept_all receivedMs).devices]
  rw [Set.eq_empty_iff_forall_notMem]
  intro p hp
  rcases mem_positions_accept_all.mp hp with hp | ⟨e, he, rfl, -⟩
  · rw [h id hnone] at hp
    exact hp
  · exact hnone (hdevices e he)

/-- What a call plans keeps readings to registered devices. -/
theorem owned_plan {call : Call} {planned : List Event} (h : s.Owned)
    (hplan : s.plan c call = .ok planned) : (planned.foldl apply s).Owned := by
  cases plan_ok hplan with
  | register | rotateCredential =>
      exact fun id hid => h id fun hmem => hid (Std.ExtTreeMap.mem_insert.mpr (.inr hmem))
  | ingest _ _ hreviewed _ => exact h.accept_all hreviewed.mem_devices
  | publishFirmware | publishConfig => exact h
  | reopen => exact h

/-- A record whose figures are the newest may be stored. -/
theorem ReportsNewest.insert {d : DeviceRecord} (h : s.ReportsNewest)
    (hd : s.IsNewest d.deviceId d.bootCounter d.lastSequence) :
    ReportsNewest { s with devices := s.devices.insert d.deviceId d } := by
  rw [reports_newest_iff] at h ⊢
  intro id d' hd'
  rw [Std.ExtTreeMap.getElem?_insert] at hd'
  split at hd'
  · rename_i hid
    obtain rfl := Option.some.inj hd'
    obtain rfl := Std.LawfulEqCmp.eq_of_compare hid
    exact hd
  · exact h id d' hd'

/-- When a call keeps the reports newest. -/
theorem plan_reports_iff {call : Call} {planned : List Event} (hnamed : s.Named)
    (howned : s.Owned) (h : s.ReportsNewest) (hplan : s.plan c call = .ok planned) :
    (planned.foldl apply s).ReportsNewest ↔
      ∀ batch t, call = .ingest batch t → s.InOrder batch := by
  cases plan_ok hplan with
  | @register deviceId secretHex firmwareVersion key hnew _ =>
      refine iff_of_true (h.insert ?_) fun _ _ hcall => by cases hcall
      -- nothing is stored for a new device
      refine .inl ⟨rfl, rfl, howned deviceId fun hmem => ?_⟩
      rw [Std.ExtTreeMap.mem_iff_contains, hnew] at hmem
      cases hmem
  | @rotateCredential id secretHex key d hd _ =>
      refine iff_of_true (h.insert ?_) fun _ _ hcall => by cases hcall
      -- a rotation keeps the figures of the record
      have hname : (d.rotated secretHex).deviceId = id := hnamed id d hd
      rw [hname]
      exact reports_newest_iff.mp h id d hd
  | @ingest batch receivedMs added _ _ hreviewed _ =>
      have htakes := takes_news_of_plan hplan
      have hsame : added = s.news batch := by
        have hevents := Except.ok.inj (hplan.symm.trans (htakes.plan receivedMs))
        refine List.map_injective_iff.mpr (fun e e' heq => ?_) hevents
        exact (Event.readingAccepted.inj heq).1
      rw [hsame]
      refine (accept_all_reports_iff h htakes.reviewed.mem_devices).trans
        ⟨fun h batch' t hcall => ?_, fun h => h batch receivedMs rfl⟩
      obtain ⟨rfl, -⟩ := Call.ingest.inj hcall
      exact h
  | publishFirmware | publishConfig =>
      refine iff_of_true ?_ fun _ _ hcall => by cases hcall
      rw [reports_newest_iff] at h ⊢
      exact h
  | reopen => exact iff_of_true h fun _ _ hcall => by cases hcall

end Store

namespace Server

variable {s s' : Server} {calls : List Call}

variable {reread : F64 → F64}

/-- A call whose writes succeed changes nothing but values of readings, or applies all that it
planned. -/
theorem perform_complete (hc : c.Rereads reread) (ht : c.Total) (h : Recorded c reread s)
    {call : Call} {reply : Except Error Unit}
    (hperform : s.perform c call (fun _ => .complete) = some (s', reply)) :
    (∃ planned, s.store.plan c call = .ok planned ∧
        s'.store = planned.foldl Store.apply s.store) ∨
      (∀ planned batch t, call = .ingest batch t → s.store.plan c call ≠ .ok planned) ∧
        s'.store.SameButValues s.store := by
  by_cases hcall : call = .reopen
  · subst hcall
    obtain ⟨t, hopen, hsame, -⟩ := h.open hc
    simp only [perform, hopen] at hperform
    obtain ⟨rfl, -⟩ := Prod.mk.inj (Option.some.inj hperform)
    exact .inr ⟨by simp, hsame⟩
  · rw [perform_eq hcall, Option.some.injEq] at hperform
    cases hplan : s.store.plan c call with
    | error error =>
        rw [hplan] at hperform
        obtain ⟨rfl, -⟩ := Prod.mk.inj hperform
        exact .inr ⟨by simp, .refl _⟩
    | ok planned =>
        obtain ⟨log, hcommit⟩ := commit_complete ht (plan_finite hplan) s 0
        rw [hplan] at hperform
        obtain ⟨rfl, -⟩ := Prod.mk.inj (hcommit.symm.trans hperform)
        exact .inl ⟨planned, rfl, rfl⟩

/-- What a run keeps besides the reports. -/
structure Tidy (c : Crates) (reread : F64 → F64) (s : Server) : Prop where
  recorded : Recorded c reread s
  owned : s.store.Owned

theorem tidy_fresh (c : Crates) (reread : F64 → F64) : Tidy c reread .fresh :=
  ⟨recorded_fresh reread, fun id _ => Set.eq_empty_iff_forall_notMem.mpr fun p hp =>
    hp (NestedMap.find_empty id (ofLex p))⟩

/-- When a call keeps the reports newest. -/
theorem Tidy.perform (hc : c.Rereads reread) (ht : c.Total) (h : Tidy c reread s) {call : Call}
    {reply : Except Error Unit}
    (hperform : s.perform c call (fun _ => .complete) = some (s', reply)) :
    Tidy c reread s' ∧ (∀ id, s.store.positions id ⊆ s'.store.positions id) ∧
      (s.store.ReportsNewest → (s'.store.ReportsNewest ↔
        ∀ batch t, call = .ingest batch t → s.store.Acceptable c batch →
          s.store.InOrder batch)) := by
  obtain ⟨s₁, reply₁, hperform₁, hrecorded⟩ := h.recorded.perform hc call
  obtain ⟨rfl, -⟩ := Prod.mk.inj (Option.some.inj (hperform₁.symm.trans hperform))
  obtain ⟨events, -, hreplay⟩ := h.recorded
  have hnamed : s.store.Named := by
    rw [Store.Named, hreplay.same.devices]
    exact Store.named_replay events
  rcases perform_complete hc ht h.recorded hperform with
    ⟨planned, hplan, hstore⟩ | ⟨hnone, hsame⟩
  · refine ⟨⟨hrecorded, ?_⟩, ?_, fun hreports => ?_⟩
    · rw [hstore]
      exact Store.owned_plan h.owned hplan
    · rw [hstore]
      exact (Store.plan_new hplan).within.positions
    · rw [hstore, Store.plan_reports_iff hnamed h.owned hreports hplan]
      refine ⟨fun horder batch t hcall _ => horder batch t hcall, ?_⟩
      rintro horder batch t rfl
      exact horder batch t rfl (Store.acceptable_iff_takes.mpr (Store.takes_news_of_plan hplan))
  · have hpositions : ∀ id, s₁.store.positions id = s.store.positions id := hsame.positions
    refine ⟨⟨hrecorded, fun id hid => ?_⟩, fun id => (hpositions id).ge, fun hreports => ?_⟩
    · rw [hpositions]
      rw [hsame.devices] at hid
      exact h.owned id hid
    · refine iff_of_true (hsame.reports_newest hreports) ?_
      rintro batch t rfl hacceptable
      exact absurd ((Store.acceptable_iff_takes.mp hacceptable).plan t) (hnone _ batch t rfl)

/-- The states of a run are tidy, and each has the positions of the earlier ones. -/
theorem Tidy.run (hc : c.Rereads reread) (ht : c.Total) (h : Tidy c reread s)
    (hrun : s.run c calls = some s') :
    Tidy c reread s' ∧ ∀ id, s.store.positions id ⊆ s'.store.positions id := by
  refine run_invariant
    (fun s' => Tidy c reread s' ∧ ∀ id, s.store.positions id ⊆ s'.store.positions id) ?_
    ⟨h, fun _ => subset_rfl⟩ hrun
  intro s₁ call s₂ reply h₁ hperform
  obtain ⟨htidy, hgrows, -⟩ := h₁.1.perform hc ht hperform
  exact ⟨htidy, fun id => (h₁.2 id).trans (hgrows id)⟩

/-- In every state of the run health and dashboard report the newest stored position of each device,
and no report of a device is older than an earlier one. -/
structure TracksNewest (c : Crates) (calls : List Call) : Prop where
  newest : ∀ n s, fresh.run c (calls.take n) = some s → s.store.ReportsNewest
  forward : ∀ n m s s' id now staleAfterMs h h' boot sequence, n ≤ m →
    fresh.run c (calls.take n) = some s → fresh.run c (calls.take m) = some s' →
    s.store.health id now staleAfterMs = .ok h → s'.store.health id now staleAfterMs = .ok h' →
    h.bootCounter = some boot → h.lastSequence = some sequence →
    ∃ boot' sequence', h'.bootCounter = some boot' ∧ h'.lastSequence = some sequence' ∧
      (toLex (boot, sequence) : Position) ≤ toLex (boot', sequence')

theorem run_take_succ {n : Nat} {call : Call} (hrun : fresh.run c (calls.take n) = some s)
    (hcall : calls[n]? = some call) :
    fresh.run c (calls.take (n + 1)) = (s.perform c call fun _ => .complete).map Prod.fst := by
  rw [List.take_add_one, hcall, Option.toList_some, run_append, hrun, Option.bind_some, run,
    List.foldlM_cons]
  cases s.perform c call fun _ => .complete <;> rfl

/-- While every stored batch is in order, the newest positions are reported. -/
theorem newest_of_in_order (hc : c.Rereads reread) (ht : c.Total)
    (horder : ∀ n s batch receivedMs, fresh.run c (calls.take n) = some s →
      calls[n]? = some (.ingest batch receivedMs) → s.store.Acceptable c batch →
      s.store.InOrder batch) (n : Nat) :
    ∀ s, fresh.run c (calls.take n) = some s → s.store.ReportsNewest := by
  induction n with
  | zero =>
      intro s hrun
      obtain rfl := Option.some.inj hrun
      exact Store.reports_newest_iff.mpr fun id d hd => by simp [fresh, Store.empty] at hd
  | succ n ih =>
      intro s' hrun'
      obtain ⟨s, hrun, -⟩ := (recorded_fresh reread).run hc (calls.take n)
      cases hcall : calls[n]? with
      | none =>
          rw [List.take_add_one, hcall, Option.toList_none, List.append_nil] at hrun'
          exact ih s' hrun'
      | some call =>
          obtain ⟨htidy, -⟩ := (tidy_fresh c reread).run hc ht hrun
          rw [run_take_succ hrun hcall, Option.map_eq_some_iff] at hrun'
          obtain ⟨⟨s₁, reply⟩, hperform, rfl⟩ := hrun'
          refine ((htidy.perform hc ht hperform).2.2 (ih s hrun)).mpr ?_
          rintro batch t rfl hacceptable
          exact horder n s batch t hrun hcall hacceptable

/-- Newest positions that are reported later in a run are no older. -/
theorem reports_forward (hc : c.Rereads reread) (ht : c.Total) {n m : Nat} (hle : n ≤ m)
    (hrun : fresh.run c (calls.take n) = some s) (hrun' : fresh.run c (calls.take m) = some s')
    (hnewest : s.store.ReportsNewest) (hnewest' : s'.store.ReportsNewest) {id : String}
    {now staleAfterMs : Int64} {h h' : Health} {boot sequence : UInt64}
    (hhealth : s.store.health id now staleAfterMs = .ok h)
    (hhealth' : s'.store.health id now staleAfterMs = .ok h')
    (hboot : h.bootCounter = some boot) (hsequence : h.lastSequence = some sequence) :
    ∃ boot' sequence', h'.bootCounter = some boot' ∧ h'.lastSequence = some sequence' ∧
      (toLex (boot, sequence) : Position) ≤ toLex (boot', sequence') := by
  have hsplit : calls.take m = calls.take n ++ (calls.drop n).take (m - n) := by
    rw [← List.take_add, Nat.add_sub_cancel' hle]
  rw [hsplit, run_append, hrun, Option.bind_some] at hrun'
  obtain ⟨htidy, -⟩ := (tidy_fresh c reread).run hc ht hrun
  obtain ⟨-, hgrows⟩ := htidy.run hc ht hrun'
  have hold := (hnewest now staleAfterMs).1 id h hhealth
  rw [hboot, hsequence] at hold
  exact hold.forward ((hnewest' now staleAfterMs).1 id h' hhealth') (hgrows id)

/-- Reported positions. In a run whose writes succeed, health and dashboard always report the
greatest stored position of each device, and never an older one than before, exactly when every
batch that is stored ends, for each device, with the newest of the readings it adds, and that is
newer than what is stored. -/
theorem newest_iff (hc : c.Rereads reread) (ht : c.Total) (calls : List Call) :
    TracksNewest c calls ↔ ∀ n s batch receivedMs, fresh.run c (calls.take n) = some s →
      calls[n]? = some (.ingest batch receivedMs) → s.store.Acceptable c batch →
      s.store.InOrder batch := by
  constructor
  · intro h n s batch receivedMs hrun hcall hacceptable
    obtain ⟨htidy, -⟩ := (tidy_fresh c reread).run hc ht hrun
    obtain ⟨s', reply, hperform, -⟩ := htidy.recorded.perform hc (.ingest batch receivedMs)
    have hrun' := run_take_succ hrun hcall
    rw [hperform, Option.map_some] at hrun'
    exact ((htidy.perform hc ht hperform).2.2 (h.newest n s hrun)).mp
      (h.newest (n + 1) s' hrun') batch receivedMs rfl hacceptable
  · intro horder
    have hnewest := newest_of_in_order hc ht horder
    refine ⟨hnewest, ?_⟩
    intro n m s s' id now staleAfterMs h h' boot sequence hle hrun hrun' hhealth hhealth' hboot
      hsequence
    exact reports_forward hc ht hle hrun hrun' (hnewest n s hrun) (hnewest m s' hrun') hhealth
      hhealth' hboot hsequence

/-- The rule at a run with one reading. -/
theorem newest_iff_one :
    ∃ e, signed .reference "00" ⟨"d", "1", 7, 10, 1, ⟨0x3FF0000000000000⟩, "ok"⟩ = .ok e ∧
      TracksNewest .reference [.register "d" "00" "1", .ingest [e] 20] := by
  obtain ⟨signature, hsigned, -⟩ := Store.signed_registered reference_serializes
    (show unhex "00" = .ok [0] from rfl) "1"
    (r := ⟨"d", "1", 7, 10, 1, ⟨0x3FF0000000000000⟩, "ok"⟩) (by decide) (by simp)
  refine ⟨_, hsigned, (newest_iff reference_rereads reference_total _).mpr ?_⟩
  intro n s batch receivedMs hrun hcall _
  match n with
  | 0 => cases hcall
  | 1 =>
      have hfirst : fresh.run .reference [.register "d" "00" "1"] = some _ := run_register rfl rfl
      obtain rfl := Option.some.inj (hfirst.symm.trans hrun)
      obtain ⟨rfl, -⟩ := Call.ingest.inj (Option.some.inj hcall)
      exact Store.in_order_singleton fun p hp =>
        absurd (NestedMap.find_empty "d" (ofLex p)) hp
  | n + 2 => simp at hcall

/-- A reading that arrives late: health reported the sequence number 2 of the session and reports 1
afterwards, although the reading with number 2 is still stored. -/
theorem late_reading_moves_back :
    ∃ e e' s s',
      signed .reference "00" ⟨"d", "1", 1, 10, 1, ⟨0x3FF0000000000000⟩, "ok"⟩ = .ok e ∧
      signed .reference "00" ⟨"d", "1", 2, 20, 1, ⟨0x3FF0000000000000⟩, "ok"⟩ = .ok e' ∧
      fresh.run .reference [.register "d" "00" "1", .ingest [e'] 30] = some s ∧
      s.run .reference [.ingest [e] 40] = some s' ∧
      (s.store.health "d" 40 1000).map Health.lastSequence = .ok (some 2) ∧
      (s'.store.health "d" 40 1000).map Health.lastSequence = .ok (some 1) ∧
      s'.store.lookup ("d", (1, 2)) = some e' := by
  obtain ⟨signature, hsigned, hvalid⟩ := Store.signed_registered reference_serializes
    (show unhex "00" = .ok [0] from rfl) "1"
    (r := ⟨"d", "1", 1, 10, 1, ⟨0x3FF0000000000000⟩, "ok"⟩) (by decide) (by simp)
  obtain ⟨signature', hsigned', hvalid'⟩ := Store.signed_registered reference_serializes
    (show unhex "00" = .ok [0] from rfl) "1"
    (r := ⟨"d", "1", 2, 20, 1, ⟨0x3FF0000000000000⟩, "ok"⟩) (by decide) (by simp)
  set e : Envelope := ⟨protocolVersion, _, signature⟩
  set e' : Envelope := ⟨protocolVersion, _, signature'⟩
  let s₀ : Server := ⟨Store.empty.apply (.registered (.initial "d" "00" "1")),
    lineBytes (Json.print (.registered (.initial "d" "00" "1")))⟩
  have hnone : ∀ id, s₀.store.lookup id = none := fun id => NestedMap.find_empty id.1 id.2
  have hdevice : s₀.store.devices["d"]? = some (.initial "d" "00" "1") := by
    simp [s₀, Store.apply, DeviceRecord.initial]
  have hfirst := perform_single (s := s₀) (c := .reference) (by simp)
    (Store.plan_singleton hvalid' (hnone _) (Nat.le_of_ble_eq_true rfl) 30) rfl
  let s : Server := ⟨s₀.store.apply (.readingAccepted e' 30),
    s₀.log ++ lineBytes (Json.print (.readingAccepted e' 30))⟩
  have hnew : s.store.lookup e.reading.identity = none := by
    rw [Store.lookup_accept, if_neg (by simp [e, e', Reading.identity, Reading.key])]
    exact hnone _
  have hroom : s.store.readingCount < maxStoredReadings := by
    rw [Store.count_accept, if_pos (hnone _)]
    exact Nat.le_of_ble_eq_true rfl
  have hsecond := perform_single (s := s) (c := .reference) (by simp) (Store.plan_singleton
    (hvalid.of_registry (Store.registry_accept _ 30 e')) hnew hroom 40) rfl
  have hregister : fresh.run .reference [.register "d" "00" "1"] = some s₀ := run_register rfl rfl
  refine ⟨e, e', s, ⟨s.store.apply (.readingAccepted e 40),
    s.log ++ lineBytes (Json.print (.readingAccepted e 40))⟩, hsigned, hsigned', ?_, ?_, ?_,
    ?_, ?_⟩
  · have hrun := run_append (c := .reference) fresh [.register "d" "00" "1"] [.ingest [e'] 30]
    rw [hregister, Option.bind_some] at hrun
    refine hrun.trans ?_
    rw [run, List.foldlM_cons, hfirst]
    rfl
  · rw [run, List.foldlM_cons, hsecond]
    rfl
  · rw [Store.health, Store.devices_accept, if_pos rfl, hdevice]
    rfl
  · rw [Store.health, Store.devices_accept, if_pos rfl, Store.devices_accept, if_pos rfl, hdevice]
    rfl
  · rw [Store.lookup_accept, if_neg (by simp [e, Reading.identity, Reading.key]),
      Store.lookup_accept]
    exact if_pos rfl

end Server

end Fieldbus.Cloud
