import Fieldbus.Cloud.Resume
import Fieldbus.Cloud.Torn

/-!
# Interrupted batches

An attempt at a batch may fail between two lines of the log. What it has stored is then known to the
next attempt, and what it has only written is written again, which replay does not tell from once.
`retry_converges` concludes that the first attempt to succeed ends like one without faults, in
memory and in the log.
-/

namespace Fieldbus.Cloud

open ByteLines

variable {c : Crates} {reread : F64 → F64}

/-! ## Lines behind a log -/

/-- The log goes on with the complete lines of the given events. -/
def Adds (c : Crates) (log : List UInt8) (events : List Event) (log' : List UInt8) : Prop :=
  ∃ texts, List.Forall₂ (Logs c) events texts ∧ log' = log ++ sealed (texts.map Utf8.encode)

variable {log log' line : List UInt8} {events : List Event}

theorem Adds.refl (c : Crates) (log : List UInt8) : Adds c log [] log :=
  ⟨[], .nil, by simp [sealed]⟩

theorem Adds.trans {log'' : List UInt8} {more : List Event} (h : Adds c log events log')
    (h' : Adds c log' more log'') : Adds c log (events ++ more) log'' := by
  obtain ⟨texts, hlogs, rfl⟩ := h
  obtain ⟨texts', hlogs', rfl⟩ := h'
  refine ⟨texts ++ texts', List.rel_append hlogs hlogs', ?_⟩
  rw [List.map_append, sealed_append, List.append_assoc]

theorem Adds.single {event : Event} {text : String} (h : Logs c event text) (log : List UInt8) :
    Adds c log [event] (log ++ Server.lineBytes text) :=
  ⟨[text], .cons h .nil, by simp [sealed_singleton, Server.lineBytes]⟩

/-- At a line boundary, lines that are added are replayed as they are read back. -/
theorem Adds.open (hc : c.Rereads reread) (h : Adds c log events log')
    (hboundary : AtBoundary log) :
    Store.open c log' = (Store.open c log).map fun s =>
      (events.map (Event.mapValue reread)).foldl Store.apply s := by
  obtain ⟨texts, hlogs, rfl⟩ := h
  rw [open_append hboundary, lines_sealed (logs_one_line hc hlogs)]
  cases Store.open c log with
  | error error => rfl
  | ok s => exact replay_lines hc hlogs s

/-- Behind a begun line, a line that is added spoils the log. -/
theorem Adds.open_torn (hc : c.Rereads reread) (hf : c.Frames) (h : Adds c log events log')
    (hends : Ends log line) (hline : line ≠ []) (hne : events ≠ []) :
    ∃ error, Store.open c log' = .error error := by
  obtain ⟨texts, hlogs, rfl⟩ := h
  cases hlogs with
  | nil => exact absurd rfl hne
  | cons hfirst _ =>
      rename_i event text events texts _
      have hsplit : sealed ((text :: texts).map Utf8.encode) =
          Utf8.encode text ++ newline :: sealed (texts.map Utf8.encode) := by simp [sealed]
      rw [hsplit]
      exact hends.open_torn hc hf hfirst (hfirst.encode_ne_nil hc) (List.prefix_refl _)
        (.inl hline) (.inr ⟨_, rfl⟩)

/-! ## Attempts -/

/-- The write puts nothing of the line into the file or all of it. -/
def Write.AllOrNothing (line : List UInt8) (w : Write) : Prop :=
  w.bytes line = [] ∨ w.bytes line = line

namespace Server

variable {s s' : Server} {planned : List Event} {w : Nat → Write} {batch : List Envelope}

/-- Every write that the call meets is between two lines. -/
def BetweenLines (c : Crates) (s : Server) (call : Call) (w : Nat → Write) : Prop :=
  ∀ planned, s.store.plan c call = .ok planned → ∀ (k : Nat) (event : Event) (text : String),
    planned[k]? = some event → c.toString event = .ok text → (w k).AllOrNothing (lineBytes text)

/-- Failed attempts at a batch, each of which was interrupted between two lines. -/
inductive Interrupted (c : Crates) (batch : List Envelope) : Server → Server → Prop where
  | refl (s : Server) : Interrupted c batch s s
  | attempt {s s₁ s₂ : Server} {receivedMs : Int64} {w : Nat → Write} {error : Error} :
      Interrupted c batch s s₁ → s₁.BetweenLines c (.ingest batch receivedMs) w →
      s₁.ingest c batch receivedMs w = (s₂, .error error) → Interrupted c batch s s₂

/-- A commit that succeeds applies and writes all its events. -/
theorem commit_ok (hfinite : ∀ event ∈ planned, event.Finite) {index : Nat}
    (h : commit c w s planned index = (s', .ok ())) :
    s'.store = planned.foldl Store.apply s.store ∧ Adds c s.log planned s'.log := by
  induction planned generalizing s index with
  | nil =>
      obtain ⟨rfl, -⟩ := Prod.mk.inj h
      exact ⟨rfl, .refl c _⟩
  | cons event rest ih =>
      obtain ⟨hevent, hrest⟩ := List.forall_mem_cons.mp hfinite
      rw [commit] at h
      rcases append_cases (c := c) s event (w index) with
        ⟨text, htext, -, happend⟩ | ⟨error, happend⟩ | ⟨text, error, -, happend⟩
      · rw [happend] at h
        obtain ⟨hstore, hadds⟩ := ih hrest h
        exact ⟨hstore, (Adds.single ⟨hevent, htext⟩ s.log).trans hadds⟩
      · rw [happend] at h
        cases h
      · rw [happend] at h
        cases h

/-- A commit that fails between two lines applies and writes its events up to one that it may have
written without applying it. -/
theorem commit_error (hfinite : ∀ event ∈ planned, event.Finite) {index : Nat}
    (hw : ∀ (k : Nat) (event : Event) (text : String), planned[k]? = some event →
      c.toString event = .ok text → (w (index + k)).AllOrNothing (lineBytes text))
    {error : Error} (h : commit c w s planned index = (s', .error error)) :
    ∃ done event more logged, planned = done ++ event :: more ∧
      s'.store = done.foldl Store.apply s.store ∧ Adds c s.log logged s'.log ∧
      (logged = done ∨ logged = done ++ [event]) := by
  induction planned generalizing s index with
  | nil => cases h
  | cons event rest ih =>
      obtain ⟨hevent, hrest⟩ := List.forall_mem_cons.mp hfinite
      rw [commit] at h
      rcases append_cases (c := c) s event (w index) with
        ⟨text, htext, -, happend⟩ | ⟨error', happend⟩ | ⟨text, error', htext, happend⟩
      · rw [happend] at h
        have hwrest : ∀ (k : Nat) (event : Event) (text : String), rest[k]? = some event →
            c.toString event = .ok text →
            (w (index + 1 + k)).AllOrNothing (lineBytes text) := by
          intro k event' text' hk htext'
          rw [show index + 1 + k = index + (k + 1) by omega]
          exact hw (k + 1) event' text' hk htext'
        obtain ⟨done, next, more, logged, rfl, hstore, hadds, hlogged⟩ := ih hrest hwrest h
        refine ⟨event :: done, next, more, event :: logged, rfl, hstore,
          (Adds.single ⟨hevent, htext⟩ s.log).trans hadds, ?_⟩
        rcases hlogged with rfl | rfl
        · exact .inl rfl
        · exact .inr rfl
      · rw [happend] at h
        obtain ⟨rfl, -⟩ := Prod.mk.inj h
        exact ⟨[], event, rest, [], rfl, rfl, .refl c _, .inl rfl⟩
      · rw [happend] at h
        obtain ⟨rfl, -⟩ := Prod.mk.inj h
        rcases hw 0 event text rfl htext with hnone | hall
        · refine ⟨[], event, rest, [], rfl, rfl, ?_, .inl rfl⟩
          show Adds c s.log [] (s.log ++ (w (index + 0)).bytes (lineBytes text))
          rw [hnone, List.append_nil]
          exact .refl c s.log
        · refine ⟨[], event, rest, [event], rfl, rfl, ?_, .inr rfl⟩
          show Adds c s.log [event] (s.log ++ (w (index + 0)).bytes (lineBytes text))
          rw [hall]
          exact .single ⟨hevent, htext⟩ s.log

/-- An attempt that succeeds passed the checks. -/
theorem ingest_takes {receivedMs : Int64} {n : Nat}
    (h : s.ingest c batch receivedMs w = (s', .ok n)) :
    ∃ added, s.store.Takes c batch added := by
  have hperform : s.perform c (.ingest batch receivedMs) w = _ := perform_eq (by simp)
  rw [perform, h] at hperform
  cases hplan : s.store.plan c (.ingest batch receivedMs) with
  | error error =>
      rw [hplan] at hperform
      cases (Prod.mk.inj (Option.some.inj hperform)).2
  | ok planned => exact Store.takes_of_plan hplan

/-- An attempt that passes the checks commits what they left. -/
theorem ingest_of_takes {added : List Envelope} (h : s.store.Takes c batch added)
    (receivedMs : Int64) (w : Nat → Write) :
    s.ingest c batch receivedMs w =
      ((commit c w s (added.map fun e => .readingAccepted e receivedMs) 0).1,
        (commit c w s (added.map fun e => .readingAccepted e receivedMs) 0).2.map
          fun _ => 0 + added.length) := by
  rw [ingest, if_neg h.size, h.review]
  dsimp only
  rw [if_neg h.room, accept_eq]

/-- An attempt that succeeds accepts and writes what the checks left. -/
theorem ingest_ok {added : List Envelope} (h : s.store.Takes c batch added) {receivedMs : Int64}
    {n : Nat} (hok : s.ingest c batch receivedMs w = (s', .ok n)) :
    s'.store = s.store.acceptAll receivedMs added ∧
      Adds c s.log (added.map fun e => .readingAccepted e receivedMs) s'.log := by
  rw [ingest_of_takes h receivedMs w] at hok
  rcases hcommit : commit c w s (added.map fun e => Event.readingAccepted e receivedMs) 0 with
    ⟨s₁, error | u⟩
  · rw [hcommit] at hok
    cases hok
  · rw [hcommit] at hok
    obtain ⟨rfl, -⟩ := Prod.mk.inj hok
    exact commit_ok (h.finite receivedMs) hcommit

/-- How far failed attempts have come: a first part of what the batch leaves is stored, and what was
written in addition is written again by the rest. -/
structure Progress (c : Crates) (s : Server) (batch added : List Envelope) (receivedMs : Int64)
    (s₁ : Server) (done rest : List Envelope) (logged : List Event) : Prop where
  split : added = done ++ rest
  store : s₁.store.SameButTimes (s.store.acceptAll receivedMs done)
  adds : Adds c s.log logged s₁.log
  rewritten : ∀ (f : F64 → F64) (t : Store),
    (((logged.map (Event.mapValue f)).foldl Store.apply t).acceptAll receivedMs
      (rest.map (Envelope.mapValue f))).SameButTimes
    (t.acceptAll receivedMs (added.map (Envelope.mapValue f)))
  begun : logged = [] → done = []
  mem : ∀ event ∈ logged, ∃ e ∈ added, ∃ t, event = .readingAccepted e t

/-- Storing more of the rest, and writing the same or one envelope more, is progress. -/
theorem Progress.extend {added done before later : List Envelope} {e : Envelope}
    {logged written : List Event} {s₁ s₂ : Server} {receivedMs t : Int64}
    (h : Progress c s batch added receivedMs s₁ done (before ++ e :: later) logged)
    (hstore : s₂.store = s₁.store.acceptAll t before) (hadds : Adds c s₁.log written s₂.log)
    (hwritten : written = before.map (fun e => .readingAccepted e t) ∨
      written = before.map (fun e => .readingAccepted e t) ++ [.readingAccepted e t]) :
    Progress c s batch added receivedMs s₂ (done ++ before) (e :: later) (logged ++ written) where
  split := by rw [h.split, List.append_assoc]
  store := by
    rw [hstore, Store.acceptAll_append]
    exact h.store.acceptAll t receivedMs before
  adds := h.adds.trans hadds
  rewritten := by
    intro f T
    rw [List.map_append, List.foldl_append]
    refine Store.SameButTimes.trans ?_ (h.rewritten f T)
    rw [List.map_append, List.map_cons]
    rcases hwritten with rfl | rfl
    · rw [Store.fold_accepted_map_value]
      exact .resumed _ t receivedMs (before.map (Envelope.mapValue f)) _
    · have htwice := Store.SameButTimes.rewritten
        ((logged.map (Event.mapValue f)).foldl Store.apply T) t receivedMs
        (before.map (Envelope.mapValue f)) (e.mapValue f) (later.map (Envelope.mapValue f))
      rw [Store.acceptAll_append] at htwice
      rw [List.map_append, List.foldl_append, Store.fold_accepted_map_value]
      exact htwice
  begun := by
    intro hnone
    obtain ⟨hlogged, hnone⟩ := List.append_eq_nil_iff.mp hnone
    rw [h.begun hlogged, List.nil_append]
    rcases hwritten with rfl | rfl
    · exact List.map_eq_nil_iff.mp hnone
    · simp at hnone
  mem := by
    intro event hevent
    rcases List.mem_append.mp hevent with hevent | hevent
    · exact h.mem event hevent
    · have hwhole : event ∈ (before ++ [e]).map fun e => .readingAccepted e t := by
        rw [List.map_append]
        rcases hwritten with rfl | rfl
        · exact List.mem_append_left _ hevent
        · exact hevent
      obtain ⟨e', he', rfl⟩ := List.mem_map.mp hwhole
      refine ⟨e', ?_, t, rfl⟩
      rw [h.split]
      simp only [List.mem_append, List.mem_cons] at he' ⊢
      tauto

/-- An attempt that fails between two lines makes progress. -/
theorem Progress.attempt {added done rest : List Envelope} {logged : List Event} {s₁ s₂ : Server}
    {receivedMs t : Int64} (htakes : s.store.Takes c batch added)
    (h : Progress c s batch added receivedMs s₁ done rest logged)
    (hbetween : s₁.BetweenLines c (.ingest batch t) w) {error : Error}
    (hfailed : s₁.ingest c batch t w = (s₂, .error error)) :
    ∃ done rest logged, Progress c s batch added receivedMs s₂ done rest logged := by
  have htakes₁ : s₁.store.Takes c batch rest := (h.split ▸ htakes).resume h.store
  rw [ingest_of_takes htakes₁ t w] at hfailed
  rcases hcommit : commit c w s₁ (rest.map fun e => Event.readingAccepted e t) 0 with
    ⟨s', error' | u⟩
  · rw [hcommit] at hfailed
    obtain ⟨rfl, -⟩ := Prod.mk.inj hfailed
    obtain ⟨events, event, more, written, hsplit, hstore, hadds, hwritten⟩ :=
      commit_error (htakes₁.finite t) (by simpa using hbetween _ (htakes₁.plan t)) hcommit
    obtain ⟨before, after, rfl, rfl, hafter⟩ := List.map_eq_append_iff.mp hsplit
    obtain ⟨e, later, rfl, rfl, -⟩ := List.map_eq_cons_iff.mp hafter
    exact ⟨_, _, _, h.extend hstore hadds hwritten⟩
  · rw [hcommit] at hfailed
    cases hfailed

/-- Failed attempts make progress. -/
theorem Interrupted.progress {added : List Envelope} (htakes : s.store.Takes c batch added)
    (receivedMs : Int64) {s₁ : Server} (h : Interrupted c batch s s₁) :
    ∃ done rest logged, Progress c s batch added receivedMs s₁ done rest logged := by
  induction h with
  | refl =>
      exact ⟨[], added, [], rfl, .refl _, .refl c _, fun _ t => .refl _, fun _ => rfl,
        fun event hevent => absurd hevent List.not_mem_nil⟩
  | attempt _ hbetween hfailed ih =>
      obtain ⟨done, rest, logged, hprogress⟩ := ih
      exact hprogress.attempt htakes hbetween hfailed

/-- After failed attempts, one whose writes succeed does. -/
theorem Interrupted.succeeds (ht : c.Total) {added : List Envelope}
    (htakes : s.store.Takes c batch added) {s₁ : Server} (h : Interrupted c batch s s₁)
    (receivedMs : Int64) :
    ∃ final n, s₁.ingest c batch receivedMs (fun _ => .complete) = (final, .ok n) := by
  obtain ⟨done, rest, logged, rfl, hstore, -⟩ := h.progress htakes receivedMs
  have htakes₁ := htakes.resume hstore
  obtain ⟨log, hcommit⟩ := commit_complete ht (htakes₁.finite receivedMs) s₁ 0
  rw [ingest_of_takes htakes₁ receivedMs, hcommit]
  exact ⟨_, _, rfl⟩

/-- Two continuations of a log can both be opened or neither, and show the same view. -/
theorem open_view (hc : c.Rereads reread) (hf : c.Frames) {log log₁ log₂ line : List UInt8}
    (hends : Ends log line) {events₁ events₂ : List Event} (h₁ : Adds c log events₁ log₁)
    (h₂ : Adds c log events₂ log₂) (hnil : events₁ = [] ↔ events₂ = [])
    (hsame : ∀ t : Store, ((events₁.map (Event.mapValue reread)).foldl Store.apply t).SameButTimes
      ((events₂.map (Event.mapValue reread)).foldl Store.apply t)) :
    (Store.open c log₁).toOption.map Store.view = (Store.open c log₂).toOption.map Store.view := by
  by_cases hline : line = []
  · subst hline
    rw [h₁.open hc hends.at_boundary, h₂.open hc hends.at_boundary]
    cases Store.open c log with
    | error error => rfl
    | ok t => exact congrArg some (hsame t).view
  · by_cases hnone : events₁ = []
    -- nothing was written
    · obtain rfl := hnone
      obtain rfl := hnil.mp rfl
      obtain ⟨_, ⟨⟩, rfl⟩ := h₁
      obtain ⟨_, ⟨⟩, rfl⟩ := h₂
      rfl
    · obtain ⟨error₁, hopen₁⟩ := h₁.open_torn hc hf hends hline hnone
      obtain ⟨error₂, hopen₂⟩ := h₂.open_torn hc hf hends hline (mt hnil.mpr hnone)
      rw [hopen₁, hopen₂]
      rfl

/-- Neither the live store nor what opening the log rebuilds has another reading than before, but
for those of the batch. -/
def Untouched (c : Crates) (batch : List Envelope) (s s' : Server) : Prop :=
  s.store.SameOutside batch s'.store ∧
    ∀ t t', Store.open c s.log = .ok t → Store.open c s'.log = .ok t' → t.SameOutside batch t'

theorem untouched (hc : c.Rereads reread) (hf : c.Frames) {line : List UInt8}
    (hends : Ends s.log line)
    {done : List Envelope} {receivedMs : Int64} {logged : List Event}
    (hstore : s'.store.SameButTimes (s.store.acceptAll receivedMs done))
    (hdone : ∀ e ∈ done, e ∈ batch) (hadds : Adds c s.log logged s'.log)
    (hlogged : ∀ event ∈ logged, ∃ e ∈ batch, ∃ t, event = .readingAccepted e t) :
    Untouched c batch s s' := by
  refine ⟨fun id hid => ?_, fun t t' hopen hopen' => ?_⟩
  · rw [Store.lookup, hstore.readings]
    exact Store.lookup_accept_all_of_notMem receivedMs fun e he => hid e (hdone e he)
  · by_cases hline : line = []
    · subst hline
      rw [hadds.open hc hends.at_boundary, hopen] at hopen'
      obtain rfl := Except.ok.inj hopen'
      refine Store.same_outside fun event hevent => ?_
      obtain ⟨written, hwritten, rfl⟩ := List.mem_map.mp hevent
      obtain ⟨e, he, t, rfl⟩ := hlogged written hwritten
      exact ⟨e.mapValue reread, t, rfl, e, he, rfl⟩
    · by_cases hnone : logged = []
      · obtain rfl := hnone
        obtain ⟨_, ⟨⟩, hlog⟩ := hadds
        have hsame : s'.log = s.log := by simpa [sealed] using hlog
        rw [hsame, hopen] at hopen'
        obtain rfl := Except.ok.inj hopen'
        exact fun _ _ => rfl
      · obtain ⟨error, herror⟩ := hadds.open_torn hc hf hends hline hnone
        rw [herror] at hopen'
        cases hopen'

/-- An interrupted batch converges. Take a process in any state, a batch that it would store without
faults, and failed attempts at that batch, each of which was interrupted between two lines of the
log at any of its events. No attempt touches readings outside the batch, and the first that succeeds
leaves the readings and the positions of devices as the one without faults does, in memory and in
what opening the log rebuilds. -/
theorem retry_converges (hc : c.Rereads reread) (hf : c.Frames) (hs : s.Reached c)
    {receivedMs : Int64}
    {clean s₁ : Server} {n : Nat}
    (hclean : s.ingest c batch receivedMs (fun _ => .complete) = (clean, .ok n))
    (hfailed : Interrupted c batch s s₁) :
    Untouched c batch s s₁ ∧ ∀ t w final m, s₁.ingest c batch t w = (final, .ok m) →
      Untouched c batch s final ∧ final.store.view = clean.store.view ∧
        (Store.open c final.log).toOption.map Store.view =
          (Store.open c clean.log).toOption.map Store.view := by
  obtain ⟨line, hends⟩ := hs.ends hc hf
  obtain ⟨added, htakes⟩ := ingest_takes hclean
  obtain ⟨done, rest, logged, rfl, hstore, hadds, hrewritten, hbegun, hmem⟩ :=
    hfailed.progress htakes receivedMs
  have hbatch : ∀ e ∈ done ++ rest, e ∈ batch := htakes.reviewed.mem
  refine ⟨untouched hc hf hends hstore (fun e he => hbatch e (List.mem_append_left _ he)) hadds
    fun event hevent => ?_, fun t w final m hok => ?_⟩
  · obtain ⟨e, he, t, rfl⟩ := hmem event hevent
    exact ⟨e, hbatch e he, t, rfl⟩
  · obtain ⟨hcleanStore, hcleanAdds⟩ := ingest_ok htakes hclean
    obtain ⟨hfinalStore, hfinalAdds⟩ := ingest_ok (htakes.resume hstore) hok
    have hfinal : final.store.SameButTimes (s.store.acceptAll receivedMs (done ++ rest)) := by
      rw [hfinalStore, Store.acceptAll_append]
      exact hstore.acceptAll t receivedMs rest
    refine ⟨untouched hc hf hends hfinal hbatch (hadds.trans hfinalAdds) fun event hevent => ?_,
      ?_, open_view hc hf hends (hadds.trans hfinalAdds) hcleanAdds ?_ fun T => ?_⟩
    · rcases List.mem_append.mp hevent with hevent | hevent
      · obtain ⟨e, he, t, rfl⟩ := hmem event hevent
        exact ⟨e, hbatch e he, t, rfl⟩
      · obtain ⟨e, he, rfl⟩ := List.mem_map.mp hevent
        exact ⟨e, hbatch e (List.mem_append_right _ he), t, rfl⟩
    · rw [hfinal.view, hcleanStore]
    · simp only [List.append_eq_nil_iff, List.map_eq_nil_iff]
      refine ⟨fun h => ⟨hbegun h.1, h.2⟩, fun h => ⟨?_, h.2⟩⟩
      refine List.eq_nil_iff_forall_not_mem.mpr fun event hevent => ?_
      obtain ⟨e, he, -⟩ := hmem event hevent
      simp [h.1, h.2] at he
    · rw [List.map_append, List.foldl_append, Store.fold_accepted_map_value,
        Store.fold_accepted_map_value]
      exact ((Store.SameButTimes.refl _).acceptAll t receivedMs _).trans (hrewritten reread T)

section OneReading

variable {e : Envelope} {t : Int64} {text : String}

/-- One reading whose line is written, but not synced. -/
theorem ingest_single_unsynced (h : s.store.Takes c [e] [e])
    (htext : c.toString (.readingAccepted e t) = .ok text) (error : String) :
    s.ingest c [e] t (fun _ => .cut (lineBytes text).length error) =
      (⟨s.store, s.log ++ lineBytes text⟩, .error (.io error)) := by
  have happend : s.append c (.readingAccepted e t) (.cut (lineBytes text).length error) =
      (⟨s.store, s.log ++ (lineBytes text).take (lineBytes text).length⟩, .error (.io error)) := by
    rw [append, htext]
  rw [ingest_of_takes h t, List.map_singleton, commit_singleton, happend, List.take_length]
  rfl

theorem between_lines_unsynced (h : s.store.Takes c [e] [e])
    (htext : c.toString (.readingAccepted e t) = .ok text) (error : String) :
    s.BetweenLines c (.ingest [e] t) fun _ => .cut (lineBytes text).length error := by
  intro planned hplan k event text' hevent htext'
  rw [h.plan, Except.ok.injEq] at hplan
  subst hplan
  obtain rfl : .readingAccepted e t = event := by
    cases k with
    | zero => exact Option.some.inj hevent
    | succ k => simp at hevent
  obtain rfl := Except.ok.inj (htext.symm.trans htext')
  exact .inr List.take_length

end OneReading

/-- The rule at a batch of one reading whose line was written, but not synced, before it was sent
again. -/
theorem retry_converges_unsynced :
    let r : Reading := ⟨"d", "1", 0, 10, 1, ⟨0x3FF0000000000000⟩, "ok"⟩
    ∃ e s s₁ clean final, ∃ written,
      signed .framed "00" r = .ok e ∧
      fresh.perform .framed (.register "d" "00" "1") (fun _ => .complete) = some (s, .ok ()) ∧
      s.ingest .framed [e] 20 (fun _ => .complete) = (clean, .ok 1) ∧
      s.ingest .framed [e] 20 (fun _ => .cut written "sync failed") =
        (s₁, .error (.io "sync failed")) ∧
      s₁.ingest .framed [e] 30 (fun _ => .complete) = (final, .ok 1) ∧
      final.store.view = clean.store.view ∧
      (Store.open .framed final.log).toOption.map Store.view =
        (Store.open .framed clean.log).toOption.map Store.view := by
  intro r
  obtain ⟨signature, hsignature⟩ : ∃ signature, signature =
      "047e52ccda4e66ee3ac8addd7714b712613d8b33aa219e61ba8bfedeac3c882f" := ⟨_, rfl⟩
  have hsign : sign .framed "00" r = .ok signature := by
    have hcomputed : (sign .framed "00" r).toOption =
        some "047e52ccda4e66ee3ac8addd7714b712613d8b33aa219e61ba8bfedeac3c882f" := by
      decide +kernel
    cases hresult : sign .framed "00" r with
    | error error =>
        rw [hresult] at hcomputed
        cases hcomputed
    | ok text =>
        rw [hresult] at hcomputed
        rw [hsignature, ← Option.some.inj hcomputed]
  let e : Envelope := ⟨protocolVersion, r, signature⟩
  let registered : Event := .registered (.initial "d" "00" "1")
  let s : Server := ⟨Store.empty.apply registered, lineBytes (Json.print registered)⟩
  have hregistered : Crates.framed.toString registered = .ok (Json.print registered) := by
    apply framed_prints
    rw [Json.is_lone_print]
    decide
  have hfirst : Crates.framed.toString (.readingAccepted e 20) =
      .ok (Json.print (.readingAccepted e 20)) := by
    apply framed_prints
    rw [Json.is_lone_print]
    simp only [e, r, hsignature]
    decide +kernel
  have hagain : Crates.framed.toString (.readingAccepted e 30) =
      .ok (Json.print (.readingAccepted e 30)) := by
    apply framed_prints
    rw [Json.is_lone_print]
    simp only [e, r, hsignature]
    decide +kernel
  have hregister : fresh.perform .framed (.register "d" "00" "1") (fun _ => .complete) =
      some (s, .ok ()) := by
    rw [perform_eq (by simp)]
    show some (commit .framed _ fresh [registered] 0) = _
    rw [commit_singleton, append, hregistered]
    rfl
  have hvalid : s.store.Valid .framed e := Store.valid_registered rfl rfl hsign
    (by decide : F64.isFinite ⟨0x3FF0000000000000⟩ = true) (by simp [e, r])
  have hnew : s.store.lookup e.reading.identity = none :=
    NestedMap.find_empty e.reading.deviceId e.reading.key
  have hroom : s.store.readingCount < maxStoredReadings := Nat.le_of_ble_eq_true rfl
  have htakes := Store.takes_singleton hvalid hnew hroom
  let s₁ : Server := ⟨s.store, s.log ++ lineBytes (Json.print (.readingAccepted e 20))⟩
  have hclean := ingest_single hvalid hnew hroom hfirst
  have hcut := ingest_single_unsynced htakes hfirst "sync failed"
  have hfinal := ingest_single (s := s₁) hvalid hnew hroom hagain
  have hfailed : Interrupted .framed [e] s s₁ :=
    .attempt (.refl s) (between_lines_unsynced htakes hfirst "sync failed") hcut
  have hconverges := retry_converges framed_rereads framed_frames (.perform .fresh hregister) hclean
    hfailed
  exact ⟨e, s, s₁, _, _, _, signed_ok_iff.mpr ⟨rfl, rfl, hsign⟩, hregister, hclean, hcut, hfinal,
    (hconverges.2 30 _ _ _ hfinal).2⟩

end Server

end Fieldbus.Cloud
