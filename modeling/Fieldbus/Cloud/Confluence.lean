import Fieldbus.Library.Machine
import Fieldbus.Cloud.Credentials

/-!
# Ingest is independent of order and batching

`Stored` is what accepting envelopes does to a store, in terms of the envelopes alone. It composes
over batches (`Stored.trans`), so two sequences of batches over the same envelopes end in the same
map (`ingest_confluent`).
-/

namespace Fieldbus.Cloud

variable {c : Crates}

namespace Store

/-- Envelopes that may be stored together. -/
structure Storable (c : Crates) (s : Store) (es : List Envelope) : Prop where
  valid : ∀ e ∈ es, s.Valid c e
  consistent : s.Consistent es
  capacity : s.readingCount + (s.newIdentities es).card ≤ maxStoredReadings

/-- The effect of storing envelopes: what was there is kept, what is new is one of them, and each of
them has an equal reading under its identity. -/
structure Stored (s s' : Store) (es : List Envelope) : Prop where
  kept : ∀ id p, s.lookup id = some p → s'.lookup id = some p
  only : ∀ id p, s'.lookup id = some p → s.lookup id = some p ∨ p ∈ es ∧ p.reading.identity = id
  covered : ∀ e ∈ es, ∃ p, s'.lookup e.reading.identity = some p ∧ (p.reading == e.reading) = true
  registry : SameRegistry s s'
  count : s'.readingCount = s.readingCount + (s.newIdentities es).card

variable {s s' s'' : Store} {es more : List Envelope}

theorem mem_newIdentities {id : String × SessionKey} :
    id ∈ s.newIdentities es ↔ (∃ e ∈ es, e.reading.identity = id) ∧ s.lookup id = none := by
  simp only [newIdentities, Finset.mem_filter, List.mem_toFinset, List.mem_map,
    Option.isNone_iff_eq_none, lookup]

/-- An identity is free after envelopes were stored if it was free and is none of theirs. -/
theorem Stored.lookup_none (h : Stored s s' es) {id : String × SessionKey} :
    s'.lookup id = none ↔ s.lookup id = none ∧ ∀ e ∈ es, e.reading.identity ≠ id := by
  constructor
  · intro hnone
    refine ⟨?_, ?_⟩
    · cases hp : s.lookup id with
      | none => rfl
      | some p => exact absurd (hnone.symm.trans (h.kept id p hp)) (Option.some_ne_none p).symm
    · rintro e he rfl
      obtain ⟨p, hp, -⟩ := h.covered e he
      exact Option.some_ne_none p (hp.symm.trans hnone)
  · rintro ⟨hnone, hne⟩
    cases hp : s'.lookup id with
    | none => rfl
    | some p =>
        rcases h.only id p hp with hold | ⟨hmem, hid⟩
        · exact absurd (hnone.symm.trans hold) (Option.some_ne_none p).symm
        · exact absurd hid (hne p hmem)

/-- The new identities of two parts are those of the first and those the second adds to it. -/
theorem Stored.newIdentities_append (h : Stored s s' es) :
    (s.newIdentities (es ++ more)).card =
      (s.newIdentities es).card + (s'.newIdentities more).card := by
  have hunion : s.newIdentities (es ++ more) = s.newIdentities es ∪ s'.newIdentities more := by
    ext id
    simp only [Finset.mem_union, mem_newIdentities, List.mem_append, h.lookup_none]
    constructor
    · rintro ⟨⟨e, he | he, rfl⟩, hnone⟩
      · exact .inl ⟨⟨e, he, rfl⟩, hnone⟩
      · by_cases hin : ∃ e' ∈ es, e'.reading.identity = e.reading.identity
        · exact .inl ⟨hin, hnone⟩
        · exact .inr ⟨⟨e, he, rfl⟩, hnone, by simpa using hin⟩
    · rintro (⟨⟨e, he, rfl⟩, hnone⟩ | ⟨⟨e, he, rfl⟩, hnone, -⟩)
      · exact ⟨⟨e, .inl he, rfl⟩, hnone⟩
      · exact ⟨⟨e, .inr he, rfl⟩, hnone⟩
  have hdisjoint : Disjoint (s.newIdentities es) (s'.newIdentities more) := by
    refine Finset.disjoint_left.mpr fun id hfirst hsecond => ?_
    obtain ⟨⟨e, he, hid⟩, -⟩ := mem_newIdentities.mp hfirst
    exact (h.lookup_none.mp (mem_newIdentities.mp hsecond).2).2 e he hid
  rw [hunion, Finset.card_union_of_disjoint hdisjoint]

/-- Storing one part after the other stores both. -/
theorem Stored.trans (h : Stored s s' es) (h' : Stored s' s'' more) :
    Stored s s'' (es ++ more) := by
  refine ⟨fun id p hp => h'.kept id p (h.kept id p hp), fun id p hp => ?_, fun e he => ?_,
    h.registry.trans h'.registry, ?_⟩
  · rcases h'.only id p hp with hold | ⟨hmem, hid⟩
    · exact (h.only id p hold).imp_right fun ⟨hmem, hid⟩ => ⟨List.mem_append_left _ hmem, hid⟩
    · exact .inr ⟨List.mem_append_right _ hmem, hid⟩
  · rcases List.mem_append.mp he with he | he
    · obtain ⟨p, hp, heq⟩ := h.covered e he
      exact ⟨p, h'.kept _ p hp, heq⟩
    · exact h'.covered e he
  · rw [h'.count, h.count, h.newIdentities_append, Nat.add_assoc]

/-- Registrations decide which envelopes are valid. -/
theorem Valid.of_registry {e : Envelope} (h : s.Valid c e) (hsame : SameRegistry s s') :
    s'.Valid c e :=
  ⟨h.version, Authentic.of_registration h.signed (hsame.devices _), h.finite, h.quality⟩

/-- After a part was stored, the rest may still be stored. -/
theorem Storable.rest (h : Storable c s (es ++ more)) (hstored : Stored s s' es) :
    Storable c s' more := by
  refine ⟨fun e he => (h.valid e (List.mem_append_right _ he)).of_registry hstored.registry,
    ⟨fun e he p hp => ?_, fun e he e' he' hid => ?_⟩, ?_⟩
  · rcases hstored.only e.reading.identity p hp with hold | ⟨hmem, hid⟩
    · exact h.consistent.stored e (List.mem_append_right _ he) p hold
    · exact h.consistent.batch p (List.mem_append_left _ hmem) e (List.mem_append_right _ he) hid
  · exact h.consistent.batch e (List.mem_append_right _ he) e' (List.mem_append_right _ he') hid
  · rw [hstored.count, Nat.add_assoc, ← hstored.newIdentities_append]
    exact h.capacity

/-- A part of what may be stored together may be stored by itself. -/
theorem Storable.left (h : Storable c s (es ++ more)) : Storable c s es := by
  refine ⟨fun e he => h.valid e (List.mem_append_left _ he),
    ⟨fun e he p hp => h.consistent.stored e (List.mem_append_left _ he) p hp,
      fun e he e' he' hid => h.consistent.batch e (List.mem_append_left _ he) e'
        (List.mem_append_left _ he') hid⟩, ?_⟩
  have hsubset : s.newIdentities es ⊆ s.newIdentities (es ++ more) := by
    intro id hid
    obtain ⟨⟨e, he, hident⟩, hnone⟩ := mem_newIdentities.mp hid
    exact mem_newIdentities.mpr ⟨⟨e, List.mem_append_left _ he, hident⟩, hnone⟩
  have hcapacity := h.capacity
  have hcard := Finset.card_le_card hsubset
  omega

/-- Valid envelopes with distinct new identities may be stored together if there is room. -/
theorem storable_of_distinct (hvalid : ∀ e ∈ es, s.Valid c e)
    (hnew : ∀ e ∈ es, s.lookup e.reading.identity = none)
    (hnodup : (es.map fun e => e.reading.identity).Nodup)
    (hroom : s.readingCount + es.length ≤ maxStoredReadings) : Storable c s es := by
  refine ⟨hvalid, ⟨fun e he p hp => ?_, fun e he e' he' hid => ?_⟩, ?_⟩
  · exact absurd ((hnew e he).symm.trans hp) (Option.some_ne_none p).symm
  · obtain rfl := List.inj_on_of_nodup_map hnodup he he' hid
    exact Reading.beq_of_finite (hvalid e he).finite
  · exact (Nat.add_le_add_left (s.newIdentities_card_le es) _).trans hroom

/-- Only the members matter, not their order or number. -/
theorem Storable.of_mem_iff (h : Storable c s es) (hmem : ∀ e, e ∈ es ↔ e ∈ more) :
    Storable c s more := by
  have hids : s.newIdentities more = s.newIdentities es := by
    ext id
    simp only [mem_newIdentities, hmem]
  refine ⟨fun e he => h.valid e ((hmem e).mpr he),
    ⟨fun e he => h.consistent.stored e ((hmem e).mpr he),
      fun e he e' he' => h.consistent.batch e ((hmem e).mpr he) e' ((hmem e').mpr he')⟩, ?_⟩
  rw [hids]
  exact h.capacity

/-- Two ways to store the same envelopes leave the same identities free. -/
theorem Stored.lookup_none_iff (h : Stored s s' es) (h' : Stored s s'' more)
    (hmem : ∀ e, e ∈ es ↔ e ∈ more) (id : String × SessionKey) :
    s'.lookup id = none ↔ s''.lookup id = none := by
  rw [h.lookup_none, h'.lookup_none]
  simp only [hmem]

/-- What they store under an identity was there before or is equal. -/
theorem Stored.lookup_eq (h : Stored s s' es) (h' : Stored s s'' more)
    (hmem : ∀ e, e ∈ es ↔ e ∈ more) {id : String × SessionKey} {p p' : Envelope}
    (hp : s'.lookup id = some p) (hp' : s''.lookup id = some p') :
    p = p' ∨ (p.reading == p'.reading) = true := by
  rcases h.only id p hp with hold | ⟨hin, rfl⟩
  · exact .inl (Option.some.inj ((h'.kept id p hold).symm.trans hp'))
  · obtain ⟨q, hq, heq⟩ := h'.covered p ((hmem p).mp hin)
    obtain rfl := Option.some.inj (hq.symm.trans hp')
    exact .inr (Reading.beq_symm heq)

/-- They store the same reading if the envelopes of an identity carry one. -/
theorem Stored.reading_eq (h : Stored s s' es) (h' : Stored s s'' more)
    (hmem : ∀ e, e ∈ es ↔ e ∈ more)
    (hone : ∀ e ∈ es, ∀ e' ∈ es, e.reading.identity = e'.reading.identity →
      e.reading = e'.reading) (id : String × SessionKey) :
    (s'.lookup id).map Envelope.reading = (s''.lookup id).map Envelope.reading := by
  have hnone := h.lookup_none_iff h' hmem id
  cases hp : s'.lookup id with
  | none => rw [hnone.mp hp]
  | some p =>
      cases hp' : s''.lookup id with
      | none => exact absurd ((hnone.mpr hp').symm.trans hp) (by simp)
      | some p' =>
          rcases h.only id p hp with hold | ⟨hin, hid⟩
          · obtain rfl := Option.some.inj ((h'.kept id p hold).symm.trans hp')
            rfl
          · rcases h'.only id p' hp' with hold | ⟨hin', hid'⟩
            · obtain rfl := Option.some.inj ((h.kept id p' hold).symm.trans hp)
              rfl
            · rw [Option.map_some, Option.map_some,
                hone p hin p' ((hmem p').mpr hin') (hid.trans hid'.symm)]

end Store

/-- A batch with the time at which it is received. -/
abbrev Arrival := Int64 × List Envelope

/-- The envelopes of a sequence of batches. -/
def envelopesOf (arrivals : List Arrival) : List Envelope := arrivals.flatMap Prod.snd

namespace Server

variable {s : Server}

/-- One batch on a store whose writes succeed. -/
def deliver (c : Crates) (s : Server) (arrival : Arrival) : Server × Except Error Nat :=
  s.ingest c arrival.2 arrival.1 fun _ => .complete

/-- The sum of the counts that were answered. -/
def totalAccepted (replies : List (Except Error Nat)) : Nat :=
  (replies.filterMap Except.toOption).sum

@[simp] theorem totalAccepted_ok (n : Nat) (replies : List (Except Error Nat)) :
    totalAccepted (.ok n :: replies) = n + totalAccepted replies := by
  have hcount : Except.toOption (.ok n : Except Error Nat) = some n := rfl
  rw [totalAccepted, List.filterMap_cons_some hcount, List.sum_cons, totalAccepted]

/-- A batch that may be stored is stored, and the answer counts its new identities. -/
theorem deliver_stores (ht : c.Total) {arrival : Arrival} (hnonempty : 1 ≤ arrival.2.length)
    (hbounded : arrival.2.length ≤ maxBatch) (h : Store.Storable c s.store arrival.2) :
    (s.deliver c arrival).2 = .ok (s.store.newIdentities arrival.2).card ∧
      Store.Stored s.store (s.deliver c arrival).1.store arrival.2 := by
  obtain ⟨added, log, hreviewed, hingest⟩ := ingest_of_acceptable ht
    ⟨hnonempty, hbounded, h.valid, h.consistent, h.capacity⟩ arrival.1
  rw [deliver, hingest]
  refine ⟨by rw [hreviewed.length_eq], fun id p hp => hreviewed.lookup_stored _ hp,
    fun id p hp => hreviewed.lookup_only _ hp, hreviewed.lookup_batch _,
    Store.registry_accept_all _, ?_⟩
  rw [← hreviewed.length_eq]
  exact Store.count_accept_all _ hreviewed.nodup hreviewed.new

/-- A sequence of batches that may be stored together is stored, and the answers add up to the
number of new identities. -/
theorem deliver_all (ht : c.Total) {arrivals : List Arrival}
    (hsize : ∀ arrival ∈ arrivals, 1 ≤ arrival.2.length ∧ arrival.2.length ≤ maxBatch)
    (h : Store.Storable c s.store (envelopesOf arrivals)) :
    (∀ reply ∈ Machine.trace (deliver c) s arrivals, ∃ n, reply = .ok n) ∧
      totalAccepted (Machine.trace (deliver c) s arrivals) =
        (s.store.newIdentities (envelopesOf arrivals)).card ∧
      Store.Stored s.store (Machine.final (deliver c) s arrivals).store (envelopesOf arrivals) := by
  induction arrivals generalizing s with
  | nil =>
      refine ⟨by simp, rfl, fun _ _ hp => hp, fun _ _ hp => .inl hp, ?_, .refl _, rfl⟩
      simp [envelopesOf]
  | cons arrival rest ih =>
      obtain ⟨⟨hnonempty, hbounded⟩, hrest⟩ := List.forall_mem_cons.mp hsize
      have hsplit : envelopesOf (arrival :: rest) = arrival.2 ++ envelopesOf rest := rfl
      rw [hsplit] at h ⊢
      obtain ⟨hreply, hstored⟩ := deliver_stores ht hnonempty hbounded h.left
      obtain ⟨hreplies, htotal, hall⟩ := ih hrest (h.rest hstored)
      rw [Machine.trace_cons, Machine.final_cons]
      refine ⟨List.forall_mem_cons.mpr ⟨⟨_, hreply⟩, hreplies⟩, ?_, hstored.trans hall⟩
      rw [hreply, totalAccepted_ok, htotal, hstored.newIdentities_append]

/-- Ingest is independent of order, batching and repetition. Take envelopes that are valid on a
store, agree with each other and with what is stored under their identities, and fit. Any two
sequences of legal batches over exactly these envelopes, received at any times, are answered with
success throughout; the answers add up to the same number, and both end with the same identities,
under which they hold equal readings. Where the envelopes of an identity carry one and the same
reading, so do both stores. -/
theorem ingest_confluent (ht : c.Total) {first second : List Arrival}
    (hsame : ∀ e, e ∈ envelopesOf first ↔ e ∈ envelopesOf second)
    (hfirst : ∀ arrival ∈ first, 1 ≤ arrival.2.length ∧ arrival.2.length ≤ maxBatch)
    (hsecond : ∀ arrival ∈ second, 1 ≤ arrival.2.length ∧ arrival.2.length ≤ maxBatch)
    (h : Store.Storable c s.store (envelopesOf first)) :
    let final := Machine.final (deliver c) s first
    let final' := Machine.final (deliver c) s second
    (∀ reply ∈ Machine.trace (deliver c) s first, ∃ n, reply = .ok n) ∧
      (∀ reply ∈ Machine.trace (deliver c) s second, ∃ n, reply = .ok n) ∧
      totalAccepted (Machine.trace (deliver c) s first) =
        totalAccepted (Machine.trace (deliver c) s second) ∧
      (∀ id, final.store.lookup id = none ↔ final'.store.lookup id = none) ∧
      (∀ id p p', final.store.lookup id = some p → final'.store.lookup id = some p' →
        p = p' ∨ (p.reading == p'.reading) = true) ∧
      ((∀ e ∈ envelopesOf first, ∀ e' ∈ envelopesOf first,
          e.reading.identity = e'.reading.identity → e.reading = e'.reading) →
        ∀ id, (final.store.lookup id).map Envelope.reading =
          (final'.store.lookup id).map Envelope.reading) := by
  obtain ⟨hreplies, htotal, hstored⟩ := deliver_all ht hfirst h
  obtain ⟨hreplies', htotal', hstored'⟩ := deliver_all ht hsecond (h.of_mem_iff hsame)
  refine ⟨hreplies, hreplies', ?_, hstored.lookup_none_iff hstored' hsame,
    fun _ _ _ => hstored.lookup_eq hstored' hsame, hstored.reading_eq hstored' hsame⟩
  have hids : s.store.newIdentities (envelopesOf first) =
      s.store.newIdentities (envelopesOf second) := by
    ext id
    simp only [Store.mem_newIdentities, hsame]
  rw [htotal, htotal', hids]

/-- The rule at two readings, sent in one batch, or in two with a repetition. -/
theorem ingest_confluent_two :
    let s : Server := ⟨Store.empty.apply (.registered (.initial "d" "00" "1")), []⟩
    ∃ e e', signed .reference "00" ⟨"d", "1", 0, 10, 1, ⟨0x3FF0000000000000⟩, "ok"⟩ = .ok e ∧
      signed .reference "00" ⟨"d", "1", 1, 20, 1, ⟨0x4000000000000000⟩, "ok"⟩ = .ok e' ∧
      totalAccepted (Machine.trace (deliver .reference) s [(30, [e, e'])]) =
        totalAccepted (Machine.trace (deliver .reference) s [(30, [e']), (40, [e, e', e])]) := by
  intro s
  obtain ⟨signature, hsigned, hvalid⟩ := Store.signed_registered reference_serializes
    (show unhex "00" = .ok [0] from rfl) "1"
    (r := ⟨"d", "1", 0, 10, 1, ⟨0x3FF0000000000000⟩, "ok"⟩) (by decide) (by simp)
  obtain ⟨signature', hsigned', hvalid'⟩ := Store.signed_registered reference_serializes
    (show unhex "00" = .ok [0] from rfl) "1"
    (r := ⟨"d", "1", 1, 20, 1, ⟨0x4000000000000000⟩, "ok"⟩) (by decide) (by simp)
  refine ⟨_, _, hsigned, hsigned', ?_⟩
  set e : Envelope := ⟨protocolVersion, _, signature⟩
  set e' : Envelope := ⟨protocolVersion, _, signature'⟩
  have hnone : ∀ id, s.store.lookup id = none := fun id => NestedMap.find_empty id.1 id.2
  have hstorable : Store.Storable .reference s.store (envelopesOf [(30, [e, e'])]) := by
    refine Store.storable_of_distinct ?_ (fun _ _ => hnone _) ?_ (Nat.le_of_ble_eq_true rfl)
    · simpa [envelopesOf] using ⟨hvalid, hvalid'⟩
    · simp [envelopesOf, e, e', Reading.identity, Reading.key]
  have hsame : ∀ x, x ∈ envelopesOf [(30, [e, e'])] ↔
      x ∈ envelopesOf [(30, [e']), (40, [e, e', e])] := by
    intro x
    simp only [envelopesOf, List.flatMap_cons, List.flatMap_nil, List.append_nil, List.mem_append,
      List.mem_cons, List.not_mem_nil, or_false]
    tauto
  exact (ingest_confluent reference_total hsame (by simp [maxBatch]) (by simp [maxBatch])
    hstorable).2.2.1

/-- A store that holds another reading under the identity refuses a valid envelope, although it is
the only one of the set and there is room. -/
theorem stored_conflict_is_refused :
    ∃ s e e', fresh.run .reference [.register "d" "00" "1", .ingest [e] 20] = some s ∧
      signed .reference "00" ⟨"d", "1", 0, 10, 1, ⟨0x3FF0000000000000⟩, "ok"⟩ = .ok e ∧
      signed .reference "00" ⟨"d", "1", 0, 10, 1, ⟨0x4000000000000000⟩, "ok"⟩ = .ok e' ∧
      s.store.Valid .reference e' ∧ s.store.readingCount + 1 ≤ maxStoredReadings ∧
      (s.deliver .reference (30, [e'])).2 = .error .conflict := by
  obtain ⟨signature, hsigned, hvalid⟩ := Store.signed_registered reference_serializes
    (show unhex "00" = .ok [0] from rfl) "1"
    (r := ⟨"d", "1", 0, 10, 1, ⟨0x3FF0000000000000⟩, "ok"⟩) (by decide) (by simp)
  obtain ⟨signature', hsigned', hvalid'⟩ := Store.signed_registered reference_serializes
    (show unhex "00" = .ok [0] from rfl) "1"
    (r := ⟨"d", "1", 0, 10, 1, ⟨0x4000000000000000⟩, "ok"⟩) (by decide) (by simp)
  set e : Envelope := ⟨protocolVersion, _, signature⟩
  set e' : Envelope := ⟨protocolVersion, _, signature'⟩
  let s₀ : Server := ⟨Store.empty.apply (.registered (.initial "d" "00" "1")),
    lineBytes (Json.print (.registered (.initial "d" "00" "1")))⟩
  obtain ⟨hacceptable, hcard⟩ := Store.acceptable_singleton hvalid
    (NestedMap.find_empty e.reading.deviceId e.reading.key) (Nat.le_of_ble_eq_true rfl)
  obtain ⟨added, log, hreviewed, hingest⟩ :=
    ingest_of_acceptable (s := s₀) reference_total hacceptable 20
  have hnext : (s₀.store.acceptAll 20 added).Valid .reference e' :=
    hvalid'.of_registry (Store.registry_accept_all 20)
  refine ⟨⟨s₀.store.acceptAll 20 added, log⟩, e, e', ?_, hsigned, hsigned', hnext, ?_, ?_⟩
  · have hfirst : fresh.run .reference [.register "d" "00" "1"] = some s₀ := run_register rfl rfl
    have hrun := run_append (c := .reference) fresh [.register "d" "00" "1"] [.ingest [e] 20]
    rw [hfirst, Option.bind_some] at hrun
    refine hrun.trans ?_
    rw [run, List.foldlM_cons, perform, hingest]
    rfl
  · rw [Store.count_accept_all 20 hreviewed.nodup hreviewed.new, hreviewed.length_eq, hcard]
    exact Nat.le_of_ble_eq_true rfl
  · -- what is stored under the identity equals the first reading, and that is not the second
    obtain ⟨p, hp, heq⟩ := hreviewed.lookup_batch 20 e (List.mem_singleton_self e)
    have hconflict : (p.reading != e'.reading) = true := by
      rw [bne, Bool.not_eq_true']
      refine Bool.eq_false_iff.mpr fun hsame => ?_
      obtain ⟨-, -, -, -, -, hvalue, -⟩ :=
        Reading.beq_iff.mp (Reading.beq_trans (Reading.beq_symm heq) hsame)
      have hdiffer : ¬ ((⟨0x3FF0000000000000⟩ : F64) == ⟨0x4000000000000000⟩) = true := by decide
      exact hdiffer hvalue
    have hreview : (s₀.store.acceptAll 20 added).review .reference [] e' = .error .conflict := by
      have hstored : (s₀.store.acceptAll 20 added).stored e'.reading = some p := hp
      rw [Store.review_of_valid hnext, Store.known_nil, hstored]
      simp only [hconflict, if_true]
    rw [deliver, ingest, if_neg (by simp [maxBatch]), List.foldlM_cons, hreview]
    rfl

end Server

end Fieldbus.Cloud
