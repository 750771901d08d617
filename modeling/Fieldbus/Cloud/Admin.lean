import Fieldbus.Cloud.Contents
import Fieldbus.Cloud.Credentials
import Fieldbus.Cloud.Http
import Fieldbus.Cloud.Signature

/-!
# Requests without the administrator's token

`Presents` says which token a head presents, in terms of its lines, and `admin_authorized_iff` that
the header scan finds exactly that. `OnlyReadings` is what ingest may do to a process.
`handle_without_token` shows that no request without the token does more: the guard list covers all
routes of the table that do.
-/

namespace Fieldbus.Cloud

open Text LineCodec

variable {c : Crates} {j : JsonTexts} {env : Surroundings} {settings : Settings}

/-! ## The token -/

/-- No difference remains when all bytes are equal. -/
theorem difference_eq_zero {pairs : List (UInt8 × UInt8)} {difference : UInt8} :
    pairs.foldl (fun difference (left, right) => difference ||| (left ^^^ right)) difference = 0 ↔
      difference = 0 ∧ ∀ p ∈ pairs, p.1 = p.2 := by
  induction pairs generalizing difference with
  | nil => simp
  | cons p rest ih =>
      rw [List.foldl_cons, ih, UInt8.or_eq_zero_iff, UInt8.xor_eq_zero_iff, List.forall_mem_cons,
        and_assoc]

/-- Lists of one length without a difference are equal. -/
theorem eq_of_zip {left right : List UInt8} (hlength : left.length = right.length)
    (h : ∀ p ∈ left.zip right, p.1 = p.2) : left = right := by
  calc left = (left.zip right).map Prod.fst := (List.map_fst_zip hlength.le).symm
    _ = (left.zip right).map Prod.snd := List.map_congr_left h
    _ = right := List.map_snd_zip hlength.ge

/-- The comparison without an early exit compares. -/
theorem constant_time_hex_equal_iff {actual : List UInt8} {expected : String} :
    constantTimeHexEqual actual expected = true ↔
      hex actual = expected ∧ expected.utf8ByteSize = 64 := by
  rw [constantTimeHexEqual]
  constructor
  · intro h
    split at h
    · cases h
    · rename_i hwell
      rw [not_or, not_not] at hwell
      simp only [Bool.and_eq_true, decide_eq_true_eq, beq_iff_eq] at h
      obtain ⟨hsize, hdifference⟩ := h
      have hencoded := eq_of_zip (by rw [Utf8.encode_length, Utf8.encode_length, hsize])
        (difference_eq_zero.mp hdifference).2
      refine ⟨?_, hwell.1⟩
      rw [← Option.some_inj, ← Utf8.decode_encode, hencoded, Utf8.decode_encode]
  · rintro ⟨rfl, hsize⟩
    rw [if_neg]
    · simp only [decide_true, Bool.true_and, beq_iff_eq]
      refine difference_eq_zero.mpr ⟨rfl, fun p hp => ?_⟩
      obtain ⟨i, hi, rfl⟩ := List.mem_iff_getElem.mp hp
      rw [List.getElem_zip]
    · simpa [hsize] using hex_ascii actual

/-- The line is a header of the given name, in any case, with the given value, white space around it
dropped. -/
def IsHeader (wanted : String) (line value : List Char) : Prop :=
  ∃ name text, line = name ++ ':' :: text ∧ ':' ∉ name ∧
    eqIgnoreAsciiCase name wanted.toList = true ∧ trim Store.isWhitespace text = value

/-- Exactly one of the header lines is an Authorization header, and it bears the token. -/
def Presents (head token : String) : Prop :=
  ∃ before line after, (lines head.toList).drop 1 = before ++ line :: after ∧
    IsHeader "authorization" line ("Bearer ".toList ++ token.toList) ∧
    ∀ other ∈ before ++ after, ∀ value, ¬ IsHeader "authorization" other value

theorem header_value_iff {wanted : String} {line value : List Char} :
    headerValue wanted line = some value ↔ IsHeader wanted line value := by
  rw [headerValue, Option.bind_eq_some_iff, IsHeader]
  constructor
  · rintro ⟨⟨name, text⟩, hsplit, hname⟩
    obtain ⟨hline, hfree⟩ := splitOnce_eq_some_iff.mp hsplit
    dsimp only at hname
    split at hname
    · rename_i heq
      exact ⟨name, text, hline, hfree, heq, Option.some.inj hname⟩
    · cases hname
  · rintro ⟨name, text, hline, hfree, heq, rfl⟩
    exact ⟨(name, text), splitOnce_eq_some_iff.mpr ⟨hline, hfree⟩, if_pos heq⟩

/-- The scan finds one value exactly when one line is an Authorization header. -/
theorem authorization_values_iff {head : String} {value : List Char} :
    authorizationValues head = [value] ↔
      ∃ before line after, (lines head.toList).drop 1 = before ++ line :: after ∧
        IsHeader "authorization" line value ∧
        ∀ other ∈ before ++ after, ∀ value, ¬ IsHeader "authorization" other value := by
  rw [authorizationValues, List.filterMap_eq_cons_iff]
  simp only [header_value_iff, Option.eq_none_iff_forall_ne_some, ne_eq, List.filterMap_eq_nil_iff,
    List.forall_mem_append]
  constructor <;> rintro ⟨before, line, after, hlines, h, h', hafter⟩ <;>
    exact ⟨before, line, after, hlines, h', h, hafter⟩

/-- With a token digest set, a head is authorised exactly when it presents a token with that digest,
and the digest has the length of a SHA-256. -/
theorem admin_authorized_iff {head expected : String}
    (hset : settings.adminTokenSha256 = some expected) (hnonempty : expected ≠ "") :
    adminAuthorized c settings head = true ↔
      ∃ token, Presents head token ∧ hex (c.sha256 (Utf8.encode token)) = expected ∧
        expected.utf8ByteSize = 64 := by
  have hfilter : settings.adminTokenSha256.filter (fun value => !value.isEmpty) =
      some expected := by
    simp [hset, hnonempty]
  rw [adminAuthorized, hfilter]
  dsimp only
  constructor
  · intro h
    split at h
    · rename_i value hvalues
      split at h
      · cases h
      · rename_i token htoken
        rw [strip_front_eq_some_iff] at htoken
        subst htoken
        refine ⟨String.ofList token, authorization_values_iff.mp ?_,
          constant_time_hex_equal_iff.mp h⟩
        rw [hvalues, show (String.ofList token).toList = token from String.toList_ofList]
    · cases h
  · rintro ⟨token, hpresents, hdigest⟩
    rw [authorization_values_iff.mpr hpresents]
    dsimp only
    rw [strip_front_append]
    dsimp only
    rw [String.ofList_toList]
    exact constant_time_hex_equal_iff.mpr hdigest

/-! ## What ingest may do -/

/-- The process has received readings at most. Registrations and metadata are the same and stored
readings are kept. What is new bears a signature of its device's secret, the figures of a device
move only with a new reading of it, and the log grows by lines of such readings, the last of them
perhaps cut short. -/
structure OnlyReadings (c : Crates) (receivedMs : Int64) (s s' : Server) : Prop where
  registry : Store.SameRegistry s.store s'.store
  kept : ∀ id p, s.store.lookup id = some p → s'.store.lookup id = some p
  added : ∀ id p, s'.store.lookup id = some p → s.store.lookup id = some p ∨
    s.store.lookup id = none ∧ p.reading.identity = id ∧ s.store.Authentic c p
  figures : ∀ id : String, s'.store.devices[id]? = s.store.devices[id]? ∨
    ∃ key p, s.store.lookup (id, key) = none ∧ s'.store.lookup (id, key) = some p
  log : ∃ (texts : List String) (written : List UInt8),
    (∀ text ∈ texts, ∃ e, s.store.Authentic c e ∧
      c.toString (.readingAccepted e receivedMs) = .ok text) ∧
    written <+: texts.flatMap Server.lineBytes ∧ s'.log = s.log ++ written

theorem OnlyReadings.refl (receivedMs : Int64) (s : Server) : OnlyReadings c receivedMs s s :=
  ⟨.refl _, fun _ _ hp => hp, fun _ _ hp => .inl hp, fun _ => .inl rfl,
    ⟨[], [], by simp, List.prefix_rfl, by simp⟩⟩

namespace Server

variable {w : Nat → Write} {s : Server}

/-- A commit writes lines of its events, up to a failure in one of them. -/
theorem commit_log (planned : List Event) (s : Server) (index : Nat) :
    ∃ (texts : List String) (written : List UInt8),
      (∀ text ∈ texts, ∃ event ∈ planned, c.toString event = .ok text) ∧
      written <+: texts.flatMap lineBytes ∧
      (commit c w s planned index).1.log = s.log ++ written := by
  induction planned generalizing s index with
  | nil => exact ⟨[], [], by simp, List.prefix_rfl, by simp [commit]⟩
  | cons event rest ih =>
      rw [commit]
      rcases append_cases (c := c) s event (w index) with
        ⟨text, htext, -, happend⟩ | ⟨error, happend⟩ | ⟨text, error, htext, happend⟩
      · rw [happend]
        obtain ⟨texts, written, htexts, hprefix, hlog⟩ :=
          ih ⟨s.store.apply event, s.log ++ lineBytes text⟩ (index + 1)
        refine ⟨text :: texts, lineBytes text ++ written, ?_, ?_, ?_⟩
        · refine List.forall_mem_cons.mpr
            ⟨⟨event, List.mem_cons_self, htext⟩, fun later hlater => ?_⟩
          obtain ⟨source, hsource, hprinted⟩ := htexts later hlater
          exact ⟨source, List.mem_cons_of_mem event hsource, hprinted⟩
        · rw [List.flatMap_cons]
          exact (List.prefix_append_right_inj _).mpr hprefix
        · rw [← List.append_assoc]
          exact hlog
      · rw [happend]
        exact ⟨[], [], by simp, List.prefix_rfl, by simp⟩
      · rw [happend]
        refine ⟨[text], (w index).bytes (lineBytes text), ?_, ?_, rfl⟩
        · exact List.forall_mem_singleton.mpr ⟨event, List.mem_cons_self, htext⟩
        · rw [List.flatMap_singleton]
          cases w index with
          | complete => exact List.prefix_rfl
          | openFailed => exact List.nil_prefix
          | cut written => exact List.take_prefix _ _

/-- Accepting authentic envelopes with distinct new identities adds readings. -/
theorem only_readings_accepted {s s' : Server} {receivedMs : Int64} {accepted : List Envelope}
    (hauthentic : ∀ e ∈ accepted, s.store.Authentic c e)
    (hnew : ∀ e ∈ accepted, s.store.lookup e.reading.identity = none)
    (hnodup : (accepted.map fun e => e.reading.identity).Nodup)
    (hstore : s'.store = s.store.acceptAll receivedMs accepted)
    (hlog : ∃ (texts : List String) (written : List UInt8),
      (∀ text ∈ texts, ∃ e, s.store.Authentic c e ∧
        c.toString (.readingAccepted e receivedMs) = .ok text) ∧
      written <+: texts.flatMap lineBytes ∧ s'.log = s.log ++ written) :
    OnlyReadings c receivedMs s s' := by
  refine ⟨?_, fun id p hp => ?_, fun id p hp => ?_, fun id => ?_, hlog⟩
  · rw [hstore]
    exact Store.registry_accept_all _
  · rw [hstore, Store.lookup_accept_all_of_notMem, hp]
    intro e he hid
    exact Option.some_ne_none p ((hid ▸ hp).symm.trans (hnew e he))
  · rw [hstore] at hp
    refine (Store.lookup_accept_all_cases hp).imp_right fun ⟨hmem, hid⟩ => ?_
    exact ⟨hid ▸ hnew p hmem, hid, hauthentic p hmem⟩
  · by_cases hdevice : ∃ e ∈ accepted, e.reading.deviceId = id
    · obtain ⟨e, he, rfl⟩ := hdevice
      refine .inr ⟨e.reading.key, e, hnew e he, ?_⟩
      rw [hstore]
      exact Store.lookup_accept_all_of_mem receivedMs hnodup he
    · left
      rw [hstore]
      exact Store.devices_accept_all_of_ne receivedMs (by simpa using hdevice)

/-- Ingest adds readings at most, whatever happens to its writes. -/
theorem ingest_only_readings (s : Server) (batch : List Envelope) (receivedMs : Int64)
    (w : Nat → Write) : OnlyReadings c receivedMs s (s.ingest c batch receivedMs w).1 := by
  unfold ingest
  split
  · exact .refl _ _
  · cases hreview : batch.foldlM (s.store.review c) [] with
    | error e => exact .refl _ _
    | ok unseen =>
        dsimp only
        split
        · exact .refl _ _
        · obtain ⟨added, hadded, hreviewed⟩ := Store.review_batch_ok hreview
          obtain rfl : added = unseen := hadded.symm
          have hauthentic : ∀ e ∈ added, s.store.Authentic c e := fun e he =>
            (hreviewed.valid e (hreviewed.mem e he)).signed
          rw [accept_eq]
          obtain ⟨texts, written, htexts, hprefix, hlog⟩ := commit_log (c := c) (w := w)
            (added.map fun e => Event.readingAccepted e receivedMs) s 0
          obtain ⟨done, rest, hsplit, hstore, -⟩ := commit_prefix (c := c) (w := w)
            (added.map fun e => Event.readingAccepted e receivedMs) s 0
          -- the writes may stop anywhere, so a first part of the new readings is accepted
          obtain ⟨accepted, refused, rfl, rfl, rfl⟩ := List.map_eq_append_iff.mp hsplit
          have hmem : ∀ e ∈ accepted, e ∈ accepted ++ refused := fun e he =>
            List.mem_append_left _ he
          have hnodup := hreviewed.nodup
          rw [List.map_append] at hnodup
          refine only_readings_accepted (fun e he => hauthentic e (hmem e he))
            (fun e he => hreviewed.new e (hmem e he)) hnodup.of_append_left hstore
            ⟨texts, written, fun text htext => ?_, hprefix, hlog⟩
          obtain ⟨_, hevent, htext⟩ := htexts text htext
          obtain ⟨e, he, rfl⟩ := List.mem_map.mp hevent
          exact ⟨e, hauthentic e he, htext⟩

end Server

/-! ## Requests -/

variable (env) in
/-- The routes that are not guarded add readings at most. -/
theorem route_only_readings {method path : String} (h : guarded method path = false)
    (body : String) (s : Server) (m : Metrics) :
    OnlyReadings c env.now s (route c j env method path body s m).1 := by
  unfold route
  split
  · exact .refl _ _
  · exact .refl _ _
  · exact absurd h (by decide)
  · exact absurd h (by decide)
  · cases j.envelopes body with
    | error e => exact .refl _ _
    | ok batch =>
        dsimp only
        split
        · have hingest := s.ingest_only_readings (c := c) batch env.now env.write
          rcases hresult : s.ingest c batch env.now env.write with ⟨s', e | n⟩ <;>
            rwa [hresult] at hingest
        · exact .refl _ _
  · exact absurd h (by decide)
  · exact absurd h (by decide)
  · split <;> exact .refl _ _
  · exact .refl _ _

/-- Without the administrator's token, a request adds readings at most. Let a token digest be set to
a text that is not empty. Whatever bytes arrive: if they are not a request, or one whose head does
not present a token with that digest in exactly one Authorization header, then handling them leaves
the registered devices with their secrets and versions, and the firmware and configuration maps, as
they are, and any reading it adds bears a signature of the secret its device has. -/
theorem handle_without_token {expected : String}
    (hset : settings.adminTokenSha256 = some expected) (hnonempty : expected ≠ "")
    {stream : Stream} (hno : ∀ head body, readRequest stream = .ok (head, body) →
      ¬ ∃ token, Presents head token ∧ hex (c.sha256 (Utf8.encode token)) = expected)
    (s : Server) (m : Metrics) :
    OnlyReadings c env.now s (handle c j env settings stream s m).1 := by
  unfold handle
  dsimp only
  cases hrequest : readRequest stream with
  | error e => exact .refl _ _
  | ok request =>
      obtain ⟨head, body⟩ := request
      have hunauthorized : adminAuthorized c settings head = false := by
        rw [← Bool.not_eq_true]
        intro h
        obtain ⟨token, hpresents, hdigest, -⟩ := (admin_authorized_iff hset hnonempty).mp h
        exact hno head body hrequest ⟨token, hpresents, hdigest⟩
      dsimp only
      rw [hunauthorized]
      split
      · exact .refl _ _
      · rename_i hguard
        split
        · exact .refl _ _
        · rw [Bool.not_false, Bool.and_true, Bool.not_eq_true] at hguard
          have hroute := route_only_readings (c := c) (j := j) env hguard body s
            { m with requests := m.requests + 1 }
          split <;> rename_i heq <;> rwa [heq] at hroute

/-- The rule at a registration without headers. -/
theorem handle_without_token_register :
    let texts : JsonTexts := ⟨fun _ => .error "", fun _ => .error "", fun _ => .error "",
      fun _ => .error "", fun _ => "", fun _ => "", fun _ => "", fun _ => "", fun _ => "",
      fun _ => ""⟩
    let expected := "0123456789abcdef0123456789abcdef0123456789abcdef0123456789abcdef"
    let settings : Settings := ⟨some expected, none⟩
    let stream : Stream := ⟨Utf8.encode "POST /register HTTP/1.1\r\n\r\n", none⟩
    let env : Surroundings := ⟨20, fun _ => .complete, none, ⟨0⟩⟩
    OnlyReadings .reference env.now .fresh
      (handle .reference texts env settings stream .fresh .initial).1 := by
  intro texts expected settings stream env
  have hset : settings.adminTokenSha256 = some expected := rfl
  have hrequest : (readRequest stream).toOption =
      some ("POST /register HTTP/1.1\r\n\r\n", "") := by decide +kernel
  refine handle_without_token hset (by decide) (fun head body h => ?_) .fresh .initial
  rw [h] at hrequest
  obtain ⟨rfl, rfl⟩ := Prod.mk.inj (Option.some.inj hrequest)
  rintro ⟨token, ⟨before, line, after, hlines, ⟨name, text, hline, -⟩, -⟩, -⟩
  -- the only header line is the empty one, which has no colon
  have hempty : (lines "POST /register HTTP/1.1\r\n\r\n".toList).drop 1 = [[]] := by decide
  have hmem : line ∈ [[]] := by
    rw [← hempty, hlines]
    exact List.mem_append_right _ List.mem_cons_self
  rw [List.mem_singleton.mp hmem] at hline
  exact List.append_ne_nil_of_right_ne_nil name (List.cons_ne_nil _ _) hline.symm

end Fieldbus.Cloud
