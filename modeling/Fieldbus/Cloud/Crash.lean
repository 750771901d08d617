import Fieldbus.Cloud.Contents

/-!
# Short writes and recovery

A write may stop after any number of bytes, and the process may then crash or go on appending.
`intact_run_recovers` says what survives: as long as every append that writes anything starts at a
line boundary and writes at least the whole text of its event, values that are stored are read back
as they were, and a failed append replaces nothing, the log can be opened and what was acknowledged
is recovered. `torn_line_loses_log` is a run in which one byte of a line was written and the whole
log is lost.
-/

namespace Fieldbus.Cloud

open ByteLines
open scoped List

variable {c : Crates} {reread : F64 → F64}

/-! ## Logs whose last line feed may be missing -/

/-- The log consists of the lines of the given events; the last one may lack its line feed. -/
inductive Holds (c : Crates) : List Event → List UInt8 → Prop where
  | complete {events log} : Sealed c events log → Holds c events log
  | torn {events log event text} : Sealed c events log → Logs c event text →
      Holds c (events ++ [event]) (log ++ Utf8.encode text)

/-- The line of an event is not empty. -/
theorem Logs.encode_ne_nil (hc : c.Rereads reread) {event : Event} {text : String}
    (h : Logs c event text) : Utf8.encode text ≠ [] := by
  intro hnil
  obtain rfl := Utf8.encode_eq_nil.mp hnil
  have hblank := hc.notBlank event "" h.finite h.text
  simp [Store.isBlank] at hblank

/-- Opening such a log rebuilds what its events amount to. -/
theorem Holds.open (hc : c.Rereads reread) {events : List Event} {log : List UInt8}
    (h : Holds c events log) : Store.open c log = .ok ((Store.replay events).mapValue reread) := by
  cases h with
  | complete h => exact open_sealed hc h
  | torn h hlogs =>
      obtain ⟨texts, hall, rfl⟩ := h
      rename_i text
      have hboth := List.rel_append hall (.cons hlogs .nil)
      have hlines := replay_lines hc hboth .empty
      rw [List.map_append, ← Store.replay, replay_map_value] at hlines
      rw [Store.open, lines_torn (logs_one_line hc hall)
        (hc.oneLine _ _ hlogs.finite hlogs.text) (hlogs.encode_ne_nil hc)]
      exact hlines

/-- At a line boundary all lines are complete. -/
theorem Holds.sealed_of_at_boundary (hc : c.Rereads reread) {events : List Event} {log : List UInt8}
    (h : Holds c events log) (hboundary : AtBoundary log) : Sealed c events log := by
  cases h with
  | complete h => exact h
  | torn h hlogs =>
      exact absurd hboundary
        (not_at_boundary _ (hc.oneLine _ _ hlogs.finite hlogs.text) (hlogs.encode_ne_nil hc))

/-! ## Appends and calls -/

/-- The write leaves the file as it is, or it starts at a line boundary and covers the whole text of
the event: only the line feed may be missing. An event that is stored is read back as it was, and
one that is not, although its text is written, replaces nothing. -/
def Write.Intact (c : Crates) (reread : F64 → F64) (s : Server) (event : Event) (w : Write) :
    Prop :=
  ∀ text, c.toString event = .ok text →
    w.bytes (Server.lineBytes text) = [] ∨
      AtBoundary s.log ∧ Utf8.encode text <+: w.bytes (Server.lineBytes text) ∧
        (w = .complete → event.Kept reread) ∧ (w ≠ .complete → ¬ s.store.Replaces event)

theorem Write.bytes_prefix (w : Write) (line : List UInt8) : w.bytes line <+: line := by
  cases w with
  | complete => exact List.prefix_refl line
  | openFailed message => exact List.nil_prefix
  | cut written message => exact List.take_prefix written line

/-- A write that succeeds at a line boundary is intact if the event is read back as it was. -/
theorem Write.complete_intact {s : Server} (h : AtBoundary s.log) {event : Event}
    (hkept : event.Kept reread) : Write.complete.Intact c reread s event :=
  fun _ _ => .inr ⟨h, List.prefix_append _ _, fun _ => hkept, fun hne => absurd rfl hne⟩

/-- At a line boundary, bytes that cover the text of an event add the event, and at most its line
feed is missing. -/
theorem Holds.write (hc : c.Rereads reread) {events : List Event} {log : List UInt8}
    (h : Holds c events log) {event : Event} {text : String} (hlogs : Logs c event text)
    (hboundary : AtBoundary log) {w : Write}
    (hcovers : Utf8.encode text <+: w.bytes (Server.lineBytes text)) :
    Holds c (events ++ [event]) (log ++ w.bytes (Server.lineBytes text)) := by
  have hsealed := h.sealed_of_at_boundary hc hboundary
  rcases written_cases hcovers (w.bytes_prefix _) with htext | hline
  · rw [htext]
    exact .torn hsealed hlogs
  · rw [hline]
    exact .complete (hsealed.append hlogs)

namespace Server

variable {s : Server} {events planned : List Event}

/-- An intact append: the log still holds events, the live store changes exactly if the append
succeeds, and then the event is in the log and read back as it was. -/
theorem append_intact (hc : c.Rereads reread) (h : Holds c events s.log) {event : Event}
    (hfinite : event.Finite) {w : Write} (hw : w.Intact c reread s event) :
    (∃ log, s.append c event w = (⟨s.store.apply event, log⟩, .ok ()) ∧
        Holds c (events ++ [event]) log ∧ event.Kept reread) ∨
      ∃ log error more, s.append c event w = (⟨s.store, log⟩, .error error) ∧
        Holds c (events ++ more) log ∧ (more = [] ∨ more = [event] ∧ ¬ s.store.Replaces event) := by
  have hkeep : Holds c (events ++ []) s.log := by rwa [List.append_nil]
  rcases append_cases (c := c) s event w with
    ⟨text, htext, rfl, happend⟩ | ⟨error, happend⟩ | ⟨text, error, htext, happend⟩
  · obtain ⟨hboundary, hcovers, hkept, -⟩ :=
      (hw text htext).resolve_left (by simp [Write.bytes, lineBytes])
    exact .inl ⟨_, happend, h.write hc ⟨hfinite, htext⟩ hboundary hcovers, hkept rfl⟩
  · exact .inr ⟨_, _, [], happend, hkeep, .inl rfl⟩
  · right
    rcases hw text htext with hnone | ⟨hboundary, hcovers, -, hreplaces⟩
    · refine ⟨_, _, [], happend, ?_, .inl rfl⟩
      rwa [hnone, List.append_nil s.log]
    · refine ⟨_, _, [event], happend, h.write hc ⟨hfinite, htext⟩ hboundary hcovers,
        .inr ⟨rfl, hreplaces ?_⟩⟩
      rintro rfl
      rw [append, htext] at happend
      cases (Prod.mk.inj happend).2

/-- Every append of the commit is intact. -/
def IntactCommit (c : Crates) (reread : F64 → F64) (w : Nat → Write) :
    Server → List Event → Nat → Prop
  | _, [], _ => True
  | s, event :: rest, index => (w index).Intact c reread s event ∧
      ∀ s', s.append c event (w index) = (s', .ok ()) →
        IntactCommit c reread w s' rest (index + 1)

/-- What a commit with intact writes leaves behind: a log of the old events and some of the planned
ones that covers the live store once it is read back, and if it succeeds all planned events in
both. -/
theorem commit_intact (hc : c.Rereads reread) {w : Nat → Write} {index : Nat}
    (h : Holds c events s.log) (hcovers : s.store.Covers ((Store.replay events).mapValue reread))
    (hfinite : ∀ event ∈ planned, event.Finite) (hnew : s.store.New planned)
    (hw : IntactCommit c reread w s planned index) :
    ∃ more, let r := commit c w s planned index
      Holds c (events ++ more) r.1.log ∧ more <+ planned ∧
      r.1.store.Covers ((Store.replay (events ++ more)).mapValue reread) ∧
      (r.2 = .ok () → more = planned) := by
  induction planned generalizing s events index with
  | nil =>
      refine ⟨[], ?_, List.Sublist.refl _, ?_, fun _ => rfl⟩
      · rwa [List.append_nil]
      · rwa [List.append_nil]
  | cons event rest ih =>
      obtain ⟨hevent, hrest⟩ := List.forall_mem_cons.mp hfinite
      obtain ⟨hunseen, hnewRest⟩ := hnew
      obtain ⟨hintact, hintactRest⟩ := hw
      have hread : (Store.replay (events ++ [event])).mapValue reread =
          ((Store.replay events).mapValue reread).apply (event.mapValue reread) := by
        rw [replay_append, List.foldl_cons, List.foldl_nil, Store.map_value_apply]
      rcases append_intact hc h hevent hintact with
        ⟨log, hok, hholds, hkept⟩ | ⟨log, error, more, hfail, hholds, hmore⟩
      -- the append succeeded: store and log both gain the event
      · have hcovers' : (s.store.apply event).Covers
            ((Store.replay (events ++ [event])).mapValue reread) := by
          rw [hread, hkept]
          exact hcovers.apply event
        obtain ⟨more, hlog, hsub, hcontains, hreply⟩ :=
          ih (s := ⟨s.store.apply event, log⟩) hholds hcovers' hrest hnewRest
            (hintactRest _ hok)
        rw [List.append_assoc, List.singleton_append] at hlog hcontains
        refine ⟨event :: more, ?_⟩
        rw [commit, hok]
        exact ⟨hlog, hsub.cons_cons event, hcontains, fun h => congrArg _ (hreply h)⟩
      -- the append failed: the log may hold the event, but the store does not
      · refine ⟨more, ?_⟩
        rw [commit, hfail]
        rcases hmore with rfl | ⟨rfl, hreplaces⟩
        · refine ⟨hholds, List.nil_sublist _, ?_, by simp⟩
          rwa [List.append_nil]
        · refine ⟨hholds, List.singleton_sublist.mpr List.mem_cons_self, ?_, by simp⟩
          rw [hread]
          exact hcovers.apply_right (Store.not_replaces_map_value hunseen hreplaces reread)

end Server

/-! ## Runs -/

/-- A run so far: the process with its log, the calls that were answered with success with their
events, and the events of all calls that passed their checks. -/
structure History where
  server : Server
  answered : List Call
  acknowledged : List Event
  attempted : List Event

namespace History

/-- A process on an empty log. -/
def start : History := ⟨.fresh, [], [], []⟩

/-- One call, which meets the given writes. -/
def step (c : Crates) (h : History) (call : Call) (w : Nat → Write) : Option History :=
  (h.server.perform c call w).map fun r =>
    let planned := (h.server.store.plan c call).toOption.getD []
    { server := r.1
      answered := if r.2.isOk then h.answered ++ [call] else h.answered
      acknowledged := if r.2.isOk then h.acknowledged ++ planned else h.acknowledged
      attempted := h.attempted ++ planned }

/-- Every append of the call is intact. -/
def Intact (c : Crates) (reread : F64 → F64) (h : History) (call : Call) (w : Nat → Write) : Prop :=
  ∀ planned, h.server.store.plan c call = .ok planned →
    Server.IntactCommit c reread w h.server planned 0

/-- Runs whose appends are all intact. -/
inductive IntactRun (c : Crates) (reread : F64 → F64) : History → Prop where
  | start : IntactRun c reread .start
  | step {h h' : History} {call : Call} {w : Nat → Write} : IntactRun c reread h →
      h.Intact c reread call w → h.step c call w = some h' → IntactRun c reread h'

/-- The log holds events which contain the acknowledged ones. What they amount to once they are read
back covers the live store, which covers what the acknowledged ones amount to. -/
structure Recoverable (c : Crates) (reread : F64 → F64) (h : History) (events : List Event) :
    Prop where
  holds : Holds c events h.server.log
  covered : h.server.store.Covers ((Store.replay events).mapValue reread)
  covers : (Store.replay h.acknowledged).Covers h.server.store
  acknowledged : h.acknowledged <+ events
  attempted : events <+ h.attempted
  answered : ∀ batch t, .ingest batch t ∈ h.answered → h.server.store.Present batch

variable {h h' : History} {events : List Event}

/-- A restart keeps the log recoverable: the live store becomes what the log amounts to. -/
theorem Recoverable.reopen (hc : c.Rereads reread) (hr : h.Recoverable c reread events)
    {w : Nat → Write} (hstep : h.step c .reopen w = some h') : h'.Recoverable c reread events := by
  simp only [History.step, Server.perform, hr.holds.open hc, Option.map_some,
    Option.some.injEq] at hstep
  subst hstep
  refine ⟨hr.holds, .refl _, ?_, ?_, ?_, fun batch t hmem => ?_⟩
  · simpa [Except.isOk, Except.toBool, Store.plan, Except.toOption] using
      hr.covers.trans hr.covered
  · simpa [Except.isOk, Except.toBool, Store.plan, Except.toOption] using hr.acknowledged
  · simpa [Store.plan, Except.toOption] using hr.attempted
  · rcases List.mem_append.mp hmem with hmem | hmem
    · exact (hr.answered batch t hmem).within hr.covered.readings
    · cases List.mem_singleton.mp hmem

/-- A call whose appends are intact keeps the log recoverable. -/
theorem Recoverable.step (hc : c.Rereads reread) (hr : h.Recoverable c reread events) {call : Call}
    {w : Nat → Write} (hintact : h.Intact c reread call w) (hstep : h.step c call w = some h') :
    ∃ events', h'.Recoverable c reread events' := by
  by_cases hcall : call = .reopen
  · subst hcall
    exact ⟨events, hr.reopen hc hstep⟩
  obtain ⟨hholds, hcovered, hcovers, hacknowledged, hattempted, hanswered⟩ := hr
  rw [History.step, Server.perform_eq hcall, Option.map_some, Option.some.injEq] at hstep
  cases hplan : h.server.store.plan c call with
  | error error =>
      rw [hplan] at hstep
      subst hstep
      refine ⟨events, hholds, hcovered, hcovers, hacknowledged, ?_, hanswered⟩
      simpa [Except.toOption] using hattempted
  | ok planned =>
      obtain ⟨more, hlog, hmore, hcontains, hall⟩ := Server.commit_intact hc hholds hcovered
        (plan_finite hplan) (Store.plan_new hplan) (hintact planned hplan)
      obtain ⟨done, rest, hsplit, hstore, hreply⟩ :=
        Server.commit_prefix (c := c) (w := w) planned h.server 0
      have hnew := Store.plan_new hplan
      rw [hsplit] at hnew
      have hgrows : h.server.store.Within (done.foldl Store.apply h.server.store) :=
        hnew.append_left.within
      rw [hplan] at hstep
      rcases hcommit : Server.commit c w h.server planned 0 with ⟨s', error | u⟩
      · simp only [hcommit] at hlog hcontains hstep hstore hreply
        have hrest : rest ≠ [] := fun hnil => by simpa using hreply.mpr hnil
        have hdone := Store.plan_covers_of_rest (hsplit ▸ hplan) hrest
        rw [← hstore] at hdone hgrows
        subst hstep
        exact ⟨events ++ more, hlog, hcontains, hcovers.trans hdone,
          hacknowledged.trans (List.sublist_append_left events more), hattempted.append hmore,
          fun batch t hmem => (hanswered batch t hmem).within hgrows⟩
      · simp only [hcommit] at hlog hcontains hstep hstore hreply hall
        obtain rfl := hall trivial
        obtain rfl := hreply.mp trivial
        rw [List.append_nil] at hsplit
        obtain rfl := hsplit
        subst hstep
        refine ⟨events ++ more, hlog, hcontains, ?_, hacknowledged.append (.refl _),
          hattempted.append hmore, fun batch t hmem => ?_⟩
        · rw [hstore]
          show (Store.replay (h.acknowledged ++ more)).Covers _
          rw [replay_append]
          exact hcovers.fold more
        · rw [hstore]
          rcases List.mem_append.mp hmem with hmem | hmem
          · exact (hanswered batch t hmem).within hgrows
          · obtain rfl := List.mem_singleton.mp hmem
            exact Store.plan_present hplan

/-- The calls of a run, each with its writes. -/
def run (c : Crates) (h : History) (calls : List (Call × (Nat → Write))) : Option History :=
  calls.foldlM (fun h call => h.step c call.1 call.2) h

theorem plan_register (s : Store) {id : String} (hid : id ∉ s.devices) :
    s.plan .reference (.register id "00" "1") = .ok [.registered (.initial id "00" "1")] := by
  rw [Store.plan, if_neg (by simpa using hid)]
  rfl

section OneEvent

variable (h : History) {call : Call} {event : Event}

/-- A call of one event whose line is written. -/
theorem step_single (hcall : call ≠ .reopen)
    (hplan : h.server.store.plan .reference call = .ok [event]) :
    ∃ h', h.step .reference call (fun _ => .complete) = some h' ∧
      h'.server.store = h.server.store.apply event ∧
      h'.server.log = h.server.log ++ Server.lineBytes (Json.print event) ∧
      h'.answered = h.answered ++ [call] ∧ h'.acknowledged = h.acknowledged ++ [event] := by
  rw [step, Server.perform_eq hcall, hplan]
  exact ⟨_, rfl, rfl, rfl, rfl, rfl⟩

/-- A call of one event of whose line some bytes are written. -/
theorem step_single_cut (hcall : call ≠ .reopen)
    (hplan : h.server.store.plan .reference call = .ok [event]) (written : Nat)
    (message : String) :
    ∃ h', h.step .reference call (fun _ => .cut written message) = some h' ∧
      h'.server.store = h.server.store ∧
      h'.server.log = h.server.log ++ (Server.lineBytes (Json.print event)).take written ∧
      h'.answered = h.answered ∧ h'.acknowledged = h.acknowledged := by
  rw [step, Server.perform_eq hcall, hplan]
  exact ⟨_, rfl, rfl, rfl, rfl, rfl⟩

variable {h}

/-- A call of one event whose append is intact. -/
theorem intact_single (hplan : h.server.store.plan .reference call = .ok [event])
    {w : Nat → Write} (hw : (w 0).Intact .reference reread h.server event) :
    h.Intact .reference reread call w := by
  intro planned hplanned
  obtain rfl := Except.ok.inj (hplan.symm.trans hplanned)
  exact ⟨hw, fun _ _ => trivial⟩

end OneEvent

/-- Recovery after short writes. Take a run whose appends each leave the file as it is, or start at
a line boundary and write at least the whole text of their event; those that succeed store an event
that is read back as it was, and those that fail replace no entry. Opening the log succeeds at any
point. What it rebuilds is, up to values that are read back, what a sequence of events amounts to
that contains the acknowledged events in their order and otherwise only attempted ones. It covers
what the acknowledged events amount to: their readings, their devices with secret, versions and
firmware, and their metadata. Each reading of an acknowledged batch is there. -/
theorem intact_run_recovers (hc : c.Rereads reread) (hrun : IntactRun c reread h) :
    ∃ events t, Store.open c h.server.log = .ok t ∧ t = (Store.replay events).mapValue reread ∧
      h.acknowledged <+ events ∧ events <+ h.attempted ∧
      (Store.replay h.acknowledged).Covers t ∧
      ∀ batch receivedMs, .ingest batch receivedMs ∈ h.answered → t.Present batch := by
  have hrecoverable : ∃ events, h.Recoverable c reread events := by
    induction hrun with
    | start =>
        exact ⟨[], .complete ⟨[], .nil, rfl⟩, Store.map_value_empty reread ▸ .refl _, .refl _,
          .refl _, .refl _, fun batch t hmem => absurd hmem List.not_mem_nil⟩
    | step _ hintact hstep ih =>
        obtain ⟨events, hr⟩ := ih
        exact hr.step hc hintact hstep
  obtain ⟨events, hr⟩ := hrecoverable
  exact ⟨events, _, hr.holds.open hc, rfl, hr.acknowledged, hr.attempted,
    hr.covers.trans hr.covered,
    fun batch t hmem => (hr.answered batch t hmem).within hr.covered.readings⟩

/-- The rule at a reading that is acknowledged and a registration whose line feed is lost in a
crash. -/
theorem intact_run_recovers_crash :
    let lost : Event := .registered (.initial "d2" "00" "1")
    let crash : Write := .cut (Utf8.encode (Json.print lost)).length "crash"
    ∃ e h t, signed .reference "00" ⟨"d1", "1", 0, 10, 1, ⟨0x3FF0000000000000⟩, "ok"⟩ = .ok e ∧
      start.run .reference [(.register "d1" "00" "1", fun _ => .complete),
        (.ingest [e] 20, fun _ => .complete), (.register "d2" "00" "1", fun _ => crash)] = some h ∧
      Store.open .reference h.server.log = .ok t ∧ t.Present [e] ∧
      t.devices["d1"]?.map DeviceRecord.secretHex = some "00" := by
  intro lost crash
  let registered : Event := .registered (.initial "d1" "00" "1")
  obtain ⟨signature, hsigned, hvalid⟩ := Store.signed_registered reference_serializes
    (show unhex "00" = .ok [0] from rfl) "1"
    (r := ⟨"d1", "1", 0, 10, 1, ⟨0x3FF0000000000000⟩, "ok"⟩) (by decide) (by simp)
  set e : Envelope := ⟨protocolVersion, _, signature⟩
  have hnone : "d1" ∉ start.server.store.devices := Std.ExtTreeMap.not_mem_empty
  have hplan₁ := plan_register start.server.store hnone
  obtain ⟨h₁, hstep₁, hstore₁, hlog₁, hanswered₁, hacknowledged₁⟩ :=
    start.step_single (by simp) hplan₁
  have hplan₂ : h₁.server.store.plan .reference (.ingest [e] 20) = .ok [.readingAccepted e 20] := by
    rw [hstore₁]
    exact Store.plan_singleton hvalid (NestedMap.find_empty "d1" e.reading.key)
      (Nat.le_of_ble_eq_true rfl) 20
  obtain ⟨h₂, hstep₂, hstore₂, hlog₂, hanswered₂, hacknowledged₂⟩ := h₁.step_single (by simp) hplan₂
  have hother : "d2" ∉ h₂.server.store.devices := by
    rw [hstore₂, hstore₁]
    simp [Store.apply, start, Server.fresh, Store.empty, DeviceRecord.initial, e]
  have hplan₃ := plan_register h₂.server.store hother
  obtain ⟨h₃, hstep₃, -, -, hanswered₃, hacknowledged₃⟩ :=
    h₂.step_single_cut (by simp) hplan₃ (Utf8.encode (Json.print lost)).length "crash"
  have hboundary : ∀ (log : List UInt8) (text : String),
      AtBoundary (log ++ Server.lineBytes text) := by
    intro log text
    rw [Server.lineBytes, ← List.append_assoc]
    exact at_boundary_newline _
  have hlast : crash.Intact .reference Json.reread h₂.server lost := by
    intro text htext
    obtain rfl : Json.print lost = text := Except.ok.inj htext
    refine .inr ⟨?_, ?_, by simp [crash], fun _ => ?_⟩
    · rw [hlog₂]
      exact hboundary _ _
    · rw [Write.bytes, Server.lineBytes, List.take_left]
    · rintro ⟨d, hd, -⟩
      exact hother (Std.ExtTreeMap.mem_iff_isSome_getElem?.mpr (hd ▸ rfl))
  have hregistered : registered.Kept Json.reread := rfl
  have haccepted : (Event.readingAccepted e 20).Kept Json.reread :=
    Event.kept_accepted Json.reread_one 20
  have hrun : IntactRun .reference Json.reread h₃ :=
    .step (.step (.step .start
      (intact_single hplan₁ (Write.complete_intact at_boundary_nil hregistered)) hstep₁)
      (intact_single hplan₂ (Write.complete_intact (hlog₁ ▸ hboundary _ _) haccepted)) hstep₂)
      (intact_single hplan₃ hlast) hstep₃
  obtain ⟨events, t, hopen, -, -, -, hcovers, hpresent⟩ :=
    intact_run_recovers reference_rereads hrun
  refine ⟨e, h₃, t, hsigned, by simpa [run, hstep₁, hstep₂] using hstep₃, hopen,
    hpresent [e] 20 ?_, ?_⟩
  · rw [hanswered₃, hanswered₂]
    exact List.mem_append_right _ (List.mem_singleton_self _)
  · have hdevice : (Store.replay h₃.acknowledged).devices["d1"]?.map DeviceRecord.secretHex =
        some "00" := by
      rw [hacknowledged₃, hacknowledged₂, hacknowledged₁]
      simp [start, Store.replay, Store.apply, Store.empty, DeviceRecord.initial, e]
    obtain ⟨d, hd, hsecret⟩ := Option.map_eq_some_iff.mp hdevice
    obtain ⟨d', hd', hsame⟩ := Option.map_eq_some_iff.mp (hcovers.devices "d1" d hd)
    rw [hd', Option.map_some, ← hsecret]
    show some (Store.registration d').secretHex = some (Store.registration d).secretHex
    rw [hsame]

/-- A registration of which one byte is written and, in the same process, an acknowledged one: the
log cannot be opened. -/
theorem torn_line_loses_log :
    ∃ h, History.start.run .reference
        [(.register "d1" "00" "1", fun _ => .cut 1 "no space left on device"),
          (.register "d2" "00" "1", fun _ => .complete)] = some h ∧
      h.answered = [.register "d2" "00" "1"] ∧
      ∃ error, Store.open .reference h.server.log = .error error := by
  have hnone : "d1" ∉ start.server.store.devices := Std.ExtTreeMap.not_mem_empty
  obtain ⟨h₁, hstep₁, hstore₁, hlog₁, hanswered₁, -⟩ := start.step_single_cut (by simp)
    (plan_register start.server.store hnone) 1 "no space left on device"
  have hother : "d2" ∉ h₁.server.store.devices := by
    rw [hstore₁]
    exact Std.ExtTreeMap.not_mem_empty
  obtain ⟨h₂, hstep₂, -, hlog₂, hanswered₂, -⟩ :=
    h₁.step_single (by simp) (plan_register h₁.server.store hother)
  obtain ⟨rest₁, hhead₁⟩ := Json.print_head (.registered (.initial "d1" "00" "1"))
  obtain ⟨rest₂, hhead₂⟩ := Json.print_head (.registered (.initial "d2" "00" "1"))
  have hbreaks := Json.print_no_breaks (.registered (.initial "d2" "00" "1"))
  obtain ⟨line, hline⟩ : ∃ line, line = "\x7b\x7b" ++ String.ofList rest₂ := ⟨_, rfl⟩
  -- the torn byte and the next line make up one line
  have hlog : h₂.server.log = sealed [Utf8.encode line] := by
    have hbrace : String.utf8EncodeChar '\x7b' = [0x7b] := by decide
    rw [hlog₂, hlog₁, sealed_singleton, hline, Server.lineBytes, Server.lineBytes, Utf8.encode,
      Utf8.encode, Utf8.encode, hhead₁, hhead₂, String.toList_append, String.toList_ofList]
    simp [hbrace, start, Server.fresh]
  have hone : ∀ text ∈ [Utf8.encode line], OneLine text := by
    rw [List.forall_mem_singleton]
    apply Utf8.encode_one_line
    have hbraces : NoBreaks ['\x7b', '\x7b'] := by decide
    rw [hhead₂, ← List.singleton_append] at hbreaks
    rw [hline, String.toList_append]
    refine hbraces.append fun ch hch => hbreaks ch (List.mem_append_right _ ?_)
    rwa [String.toList_ofList] at hch
  have hblank : Store.isBlank line = false := by
    rw [hline]
    simp [Store.isBlank, Store.isWhitespace]
  -- two opening braces begin no event
  have hparse : Json.parse Json.fromParts line = .error "not the text of an event" := by
    rw [hline, Json.parse_braces]
  refine ⟨h₂, by simp [run, hstep₁, hstep₂], by rw [hanswered₂, hanswered₁]; rfl,
    .invalid "not the text of an event", ?_⟩
  rw [hlog, Store.open, lines_sealed hone]
  simp [Store.replayLine, hblank, Crates.reference, Crates.json, hparse]

end History

end Fieldbus.Cloud
