import Fieldbus.Cloud.Torn

/-!
# Failed calls

A call of one event that is answered with an error leaves the live store as it is, but what it wrote
stays in the log. `failed_call_iff` says when nothing that comes later shows it: calls and restarts,
whatever happens to their writes, and openings of the log. `rotation_survives_failure` is a rotation
that is answered with an error and takes effect at the next restart.
-/

namespace Fieldbus.Cloud

open ByteLines

variable {c : Crates} {reread : F64 → F64}

/-- The call appends one event. -/
def Call.isSingle : Call → Bool
  | .register _ _ _ | .rotateCredential _ _ | .publishFirmware _ | .publishConfig _ => true
  | .ingest _ _ | .reopen => false

/-- What a process shows: its maps, and what opening its log rebuilds. -/
def Server.shown (c : Crates) (s : Server) : Store × Option Store :=
  (s.store, (Store.open c s.log).toOption)

/-- The process after calls and restarts, each with its writes, unless a restart fails. -/
def Server.after (c : Crates) (s : Server) (later : List (Call × (Nat → Write))) : Option Server :=
  later.foldlM (fun s step => (s.perform c step.1 step.2).map Prod.fst) s

/-- A call that is answered with an error leaves the live store as it was, and whatever comes later,
the process shows what it would show without the call. -/
def Server.LeavesNoTrace (c : Crates) (s : Server) (call : Call) (w : Nat → Write) : Prop :=
  ∀ s' error, s.perform c call w = some (s', .error error) → s'.store = s.store ∧
    ∀ later, (s'.after c later).map (shown c) = (s.after c later).map (shown c)

/-- The write succeeds, writes nothing, adds to a log that cannot be opened, or repeats: at a line
boundary it writes the whole line of an event that changes nothing in what the log amounts to. -/
def Write.Harmless (c : Crates) (s : Server) (event : Event) (w : Write) : Prop :=
  ∀ text, c.toString event = .ok text →
    w = .complete ∨ w.bytes (Server.lineBytes text) = [] ∨ (∀ t, Store.open c s.log ≠ .ok t) ∨
      AtBoundary s.log ∧ w.bytes (Server.lineBytes text) = Server.lineBytes text ∧
        ∃ t, Store.open c s.log = .ok t ∧ t.apply event = t

/-! ## One append -/

variable {event : Event} {text : String} {log line bytes : List UInt8}

/-- At a line boundary the whole text of an event that has no value, with or without its line feed,
is replayed on what the log amounts to. -/
theorem open_whole (hc : c.Rereads reread) (hlogs : Logs c event text)
    (hkept : event.Kept reread) (h : AtBoundary log)
    (hbytes : bytes = Utf8.encode text ∨ bytes = Utf8.encode text ++ [newline]) :
    Store.open c (log ++ bytes) = (Store.open c log).map fun s => s.apply event := by
  have hone := hc.oneLine event text hlogs.finite hlogs.text
  have hlines : lines bytes = [Utf8.encode text] := by
    rcases hbytes with rfl | rfl
    · exact lines_text hone (hlogs.encode_ne_nil hc)
    · exact lines_cons hone []
  rw [open_append h, hlines]
  cases Store.open c log with
  | error error => rfl
  | ok s =>
      show List.foldlM (Store.replayLine c) s [Utf8.encode text] = .ok (s.apply event)
      rw [List.foldlM_cons, replay_line hc hlogs, hkept]
      rfl

/-- Bytes of an event's line that do not make up a line by themselves spoil the log. -/
theorem Ends.open_spoiled (hc : c.Rereads reread) (hf : c.Frames) (h : Ends log line)
    (hlogs : Logs c event text) (hne : bytes ≠ []) (hbytes : bytes <+: Server.lineBytes text)
    (hnot : line ≠ [] ∨ ¬ Utf8.encode text <+: bytes) :
    ∃ error, Store.open c (log ++ bytes) = .error error := by
  rcases List.prefix_concat_iff.mp hbytes with rfl | hbegins
  · have hline : line ≠ [] := hnot.resolve_right (not_not.mpr (List.prefix_append _ _))
    exact h.open_torn hc hf hlogs (hlogs.encode_ne_nil hc) (List.prefix_refl _) (.inl hline)
      (.inr ⟨[], rfl⟩)
  · have hpart : line ≠ [] ∨ bytes ≠ Utf8.encode text := by
      refine hnot.imp_right fun hnot heq => hnot ?_
      rw [heq]
    simpa using h.open_torn hc hf hlogs hne hbegins hpart (.inl rfl)

/-- When opening the log does not show the bytes of an event's line. -/
theorem Ends.open_same_iff (hc : c.Rereads reread) (hf : c.Frames) (h : Ends log line)
    (hlogs : Logs c event text) (hkept : event.Kept reread) (hne : bytes ≠ [])
    (hbytes : bytes <+: Server.lineBytes text) :
    (Store.open c (log ++ bytes)).toOption = (Store.open c log).toOption ↔
      (∀ t, Store.open c log ≠ .ok t) ∨
        AtBoundary log ∧ Utf8.encode text <+: bytes ∧
          ∃ t, Store.open c log = .ok t ∧ t.apply event = t := by
  by_cases hwhole : line = [] ∧ Utf8.encode text <+: bytes
  · obtain ⟨rfl, hcovers⟩ := hwhole
    rw [open_whole hc hlogs hkept h.at_boundary (written_cases hcovers hbytes)]
    cases Store.open c log with
    | error error => simp [Except.map, Except.toOption]
    | ok t => simp [Except.map, Except.toOption, h.at_boundary, hcovers]
  · obtain ⟨error, hspoiled⟩ := h.open_spoiled hc hf hlogs hne hbytes (not_and_or.mp hwhole)
    rw [hspoiled]
    cases hopen : Store.open c log with
    | error error => simp [Except.toOption]
    | ok t =>
        refine iff_of_false (by simp [Except.toOption]) ?_
        rintro (hclosed | ⟨hboundary, hcovers, -⟩)
        · exact hclosed t rfl
        · refine hwhole ⟨?_, hcovers⟩
          by_contra hline
          exact h.not_at_boundary hline hboundary

/-! ## Logs that stay spoiled -/

/-- The log cannot be opened, and no bytes of events will mend it. -/
structure Spoiled (c : Crates) (log : List UInt8) : Prop where
  ends : ∃ line, Ends log line
  closed : ∀ t, Store.open c log ≠ .ok t

/-- Bytes of an event's line do not mend a log. -/
theorem Spoiled.write (hc : c.Rereads reread) (hf : c.Frames) (h : Spoiled c log)
    (hlogs : Logs c event text) (hbytes : bytes <+: Server.lineBytes text) :
    Spoiled c (log ++ bytes) := by
  obtain ⟨line, hends⟩ := h.ends
  refine ⟨hends.write hc hf hlogs hbytes, fun t hopen => ?_⟩
  by_cases hne : bytes = []
  · rw [hne, List.append_nil] at hopen
    exact h.closed t hopen
  by_cases hline : line = []
  -- the lines before are those that are not read
  · subst hline
    rw [open_append hends.at_boundary] at hopen
    cases hold : Store.open c log with
    | error error =>
        rw [hold] at hopen
        cases hopen
    | ok s => exact h.closed s hold
  · obtain ⟨error, herror⟩ := hends.open_spoiled hc hf hlogs hne hbytes (.inl hline)
    rw [herror] at hopen
    cases hopen

namespace Server

variable {s s' : Server} {call : Call} {w : Nat → Write}

/-! ## Processes that go on alike -/

/-- The maps are the same. The logs amount to the same up to a line boundary and go on with the same
bytes, or both of them are spoiled. -/
structure GoesOnAs (c : Crates) (s s' : Server) : Prop where
  store : s.store = s'.store
  log : (∃ log log' rest, AtBoundary log ∧ AtBoundary log' ∧
      (Store.open c log).toOption = (Store.open c log').toOption ∧
      s.log = log ++ rest ∧ s'.log = log' ++ rest) ∨ Spoiled c s.log ∧ Spoiled c s'.log

theorem GoesOnAs.refl (s : Server) : GoesOnAs c s s :=
  ⟨rfl, .inl ⟨[], [], s.log, at_boundary_nil, at_boundary_nil, rfl, rfl, rfl⟩⟩

/-- Such processes show the same. -/
theorem GoesOnAs.shown_eq (h : GoesOnAs c s s') : s.shown c = s'.shown c := by
  refine Prod.ext h.store ?_
  show (Store.open c s.log).toOption = (Store.open c s'.log).toOption
  rcases h.log with ⟨log, log', rest, hlog, hlog', hsame, hs, hs'⟩ | ⟨hclosed, hclosed'⟩
  · rw [hs, hs', open_append hlog, open_append hlog']
    cases hopen : Store.open c log with
    | error error =>
        rw [hopen] at hsame
        cases hopen' : Store.open c log' with
        | error error' => rfl
        | ok t =>
            rw [hopen'] at hsame
            cases hsame
    | ok t =>
        rw [hopen] at hsame
        cases hopen' : Store.open c log' with
        | error error =>
            rw [hopen'] at hsame
            cases hsame
        | ok t' =>
            rw [hopen'] at hsame
            obtain rfl : t = t' := Option.some.inj hsame
            rfl
  · cases hopen : Store.open c s.log with
    | ok t => exact absurd hopen (hclosed.closed t)
    | error error =>
        cases hopen' : Store.open c s'.log with
        | ok t => exact absurd hopen' (hclosed'.closed t)
        | error error' => rfl

/-- What an append does to the maps and what it adds to the log does not depend on the log. -/
theorem append_appends (store : Store) (event : Event) (write : Write) :
    ∃ store' more reply, ∀ log,
      append c ⟨store, log⟩ event write = (⟨store', log ++ more⟩, reply) := by
  cases htext : c.toString event with
  | error e =>
      cases write with
      | openFailed message =>
          exact ⟨store, [], .error (.io message), fun log => by simp [append]⟩
      | complete | cut =>
          exact ⟨store, [], .error (.invalid e), fun log => by simp [append, htext]⟩
  | ok text =>
      cases write with
      | complete =>
          exact ⟨store.apply event, lineBytes text, .ok (), fun log => by simp only [append, htext]⟩
      | openFailed message =>
          exact ⟨store, [], .error (.io message), fun log => by simp [append]⟩
      | cut written message =>
          exact ⟨store, (lineBytes text).take written, .error (.io message),
            fun log => by simp only [append, htext]⟩

theorem commit_appends (w : Nat → Write) (store : Store) (planned : List Event) (index : Nat) :
    ∃ store' more reply, ∀ log,
      commit c w ⟨store, log⟩ planned index = (⟨store', log ++ more⟩, reply) := by
  induction planned generalizing store index with
  | nil => exact ⟨store, [], .ok (), fun log => by simp [commit]⟩
  | cons event rest ih =>
      obtain ⟨store₁, first, reply, happend⟩ := append_appends (c := c) store event (w index)
      cases reply with
      | error error =>
          exact ⟨store₁, first, .error error, fun log => by simp only [commit, happend]⟩
      | ok u =>
          obtain ⟨store₂, more, reply, hcommit⟩ := ih store₁ (index + 1)
          refine ⟨store₂, first ++ more, reply, fun log => ?_⟩
          simp only [commit, happend, hcommit, List.append_assoc]

/-- What a call does to the maps and what it adds to the log does not depend on it, unless it is
a restart. -/
theorem perform_appends (hcall : call ≠ .reopen) (store : Store) (w : Nat → Write) :
    ∃ store' more reply, ∀ log,
      perform c ⟨store, log⟩ call w = some (⟨store', log ++ more⟩, reply) := by
  cases hplan : store.plan c call with
  | error error =>
      refine ⟨store, [], .error error, fun log => ?_⟩
      simp only [perform_eq hcall, hplan, List.append_nil]
  | ok planned =>
      obtain ⟨store', more, reply, hcommit⟩ := commit_appends (c := c) w store planned 0
      exact ⟨store', more, reply, fun log => by simp only [perform_eq hcall, hplan, hcommit]⟩

/-- A call takes such processes to such processes, or neither of them comes up. -/
theorem GoesOnAs.perform (hc : c.Rereads reread) (hf : c.Frames) (h : GoesOnAs c s s')
    (call : Call) (w : Nat → Write) :
    (s.perform c call w = none ∧ s'.perform c call w = none) ∨
      ∃ t t' reply, s.perform c call w = some (t, reply) ∧
        s'.perform c call w = some (t', reply) ∧ GoesOnAs c t t' := by
  by_cases hcall : call = .reopen
  · subst hcall
    have hopens : (Store.open c s.log).toOption = (Store.open c s'.log).toOption :=
      congrArg Prod.snd h.shown_eq
    simp only [Server.perform]
    cases hopen : Store.open c s.log with
    | error error =>
        rw [hopen] at hopens
        cases hopen' : Store.open c s'.log with
        | error error' => exact .inl ⟨rfl, rfl⟩
        | ok t =>
            rw [hopen'] at hopens
            cases hopens
    | ok t =>
        rw [hopen] at hopens
        cases hopen' : Store.open c s'.log with
        | error error =>
            rw [hopen'] at hopens
            cases hopens
        | ok t' =>
            rw [hopen'] at hopens
            obtain rfl : t = t' := Option.some.inj hopens
            exact .inr ⟨_, _, _, rfl, rfl, rfl, h.log⟩
  · obtain ⟨store', more, reply, hperform⟩ := perform_appends (c := c) hcall s.store w
    have hs : s.perform c call w = some (⟨store', s.log ++ more⟩, reply) := hperform s.log
    have hs' : s'.perform c call w = some (⟨store', s'.log ++ more⟩, reply) := by
      have h' := hperform s'.log
      rwa [h.store] at h'
    refine .inr ⟨_, _, _, hs, hs', rfl, ?_⟩
    rcases h.log with ⟨log, log', rest, hlog, hlog', hsame, heq, heq'⟩ | ⟨hclosed, hclosed'⟩
    · refine .inl ⟨log, log', rest ++ more, hlog, hlog', hsame, ?_, ?_⟩
      · rw [heq, List.append_assoc]
      · rw [heq', List.append_assoc]
    · have hwrite : ∀ log event text bytes, Spoiled c log → Logs c event text →
          bytes <+: lineBytes text → Spoiled c (log ++ bytes) :=
        fun _ _ _ _ hspoiled hlogs hbytes => hspoiled.write hc hf hlogs hbytes
      exact .inr
        ⟨perform_log_invariant hwrite hclosed hs, perform_log_invariant hwrite hclosed' hs'⟩

/-- Such processes show the same whatever comes later. -/
theorem GoesOnAs.after (hc : c.Rereads reread) (hf : c.Frames) (h : GoesOnAs c s s')
    (later : List (Call × (Nat → Write))) :
    (s.after c later).map (shown c) = (s'.after c later).map (shown c) := by
  induction later generalizing s s' with
  | nil => exact congrArg some h.shown_eq
  | cons step rest ih =>
      rw [Server.after, Server.after, List.foldlM_cons, List.foldlM_cons]
      rcases h.perform hc hf step.1 step.2 with ⟨hnone, hnone'⟩ | ⟨t, t', reply, ht, ht', hnext⟩
      · rw [hnone, hnone']
      · rw [ht, ht']
        exact ih hnext

/-! ## Calls of one event -/

/-- A call of one event plans one event, and one without a value. -/
theorem plan_single (hcall : call.isSingle = true) {planned : List Event}
    (h : s.store.plan c call = .ok planned) (f : F64 → F64) :
    ∃ event, planned = [event] ∧ event.Kept f := by
  cases Store.plan_ok h with
  | register | rotateCredential | publishFirmware | publishConfig => exact ⟨_, rfl, rfl⟩
  | ingest | reopen => cases hcall

/-- After a harmless append that failed, the process goes on as it would without it. -/
theorem GoesOnAs.append (hc : c.Rereads reread) (hf : c.Frames) (hends : Ends s.log line)
    (hfinite : event.Finite) (hkept : event.Kept reread) {write : Write}
    (hharmless : write.Harmless c s event) {error : Error}
    (h : s.append c event write = (s', .error error)) : GoesOnAs c s' s := by
  rcases append_cases (c := c) s event write with
    ⟨text, -, -, happend⟩ | ⟨error', happend⟩ | ⟨text, error', htext, happend⟩
  · rw [happend] at h
    cases h
  · rw [happend] at h
    obtain ⟨rfl, -⟩ := Prod.mk.inj h
    exact .refl s
  · have hlogs : Logs c event text := ⟨hfinite, htext⟩
    rw [happend] at h
    obtain ⟨rfl, -⟩ := Prod.mk.inj h
    rcases hharmless text htext with rfl | hnone | hclosed | ⟨hboundary, hwhole, t, hopen, hsame⟩
    · rw [Server.append, htext] at happend
      cases (Prod.mk.inj happend).2
    · rw [hnone, List.append_nil]
      exact .refl s
    · have hspoiled : Spoiled c s.log := ⟨⟨line, hends⟩, hclosed⟩
      exact ⟨rfl, .inr ⟨hspoiled.write hc hf hlogs (write.bytes_prefix _), hspoiled⟩⟩
    · refine ⟨rfl, .inl ⟨s.log ++ lineBytes text, s.log, [], ?_, hboundary, ?_, ?_, ?_⟩⟩
      · rw [lineBytes, ← List.append_assoc]
        exact at_boundary_newline _
      · have hwritten : Store.open c (s.log ++ lineBytes text) = _ :=
          open_whole hc hlogs hkept hboundary (.inr rfl)
        rw [hwritten, hopen]
        exact congrArg some hsame
      · rw [hwhole, List.append_nil]
      · rw [List.append_nil]

/-- A text without its line feed is shown by the next complete write, whose line it spoils. -/
theorem shown_of_missing_feed (hc : c.Rereads reread) (hf : c.Frames) (hlogs : Logs c event text)
    (hkept : event.Kept reread) (hboundary : AtBoundary s.log) {t : Store}
    (hopen : Store.open c s.log = .ok t) (hcall : call ≠ .reopen)
    (hplan : s.store.plan c call = .ok [event]) :
    ∃ later, (after c ⟨s.store, s.log ++ Utf8.encode text⟩ later).map (shown c) ≠
      (s.after c later).map (shown c) := by
  refine ⟨[(call, fun _ => .complete)], fun hsame => ?_⟩
  have hends : Ends (s.log ++ Utf8.encode text) (Utf8.encode text) :=
    ⟨⟨s.log, hboundary, rfl⟩, hc.oneLine event text hlogs.finite hlogs.text,
      .inr (hf.brace event text hlogs.finite hlogs.text)⟩
  obtain ⟨error, herror⟩ := hends.open_spoiled hc hf hlogs
    (by simp [lineBytes] : lineBytes text ≠ []) (List.prefix_refl _)
    (.inl (hlogs.encode_ne_nil hc))
  have hgood := open_whole hc hlogs hkept hboundary (.inr rfl)
  rw [hopen] at hgood
  have hperform := perform_single hcall hplan hlogs.text
  have hperform' :=
    perform_single (s := ⟨s.store, s.log ++ Utf8.encode text⟩) hcall hplan hlogs.text
  simp only [after, List.foldlM_cons, List.foldlM_nil, hperform, hperform'] at hsame
  have hopens := congrArg Prod.snd (Option.some.inj hsame)
  simp only [shown, lineBytes] at hopens herror
  rw [hgood, herror] at hopens
  cases hopens

/-- Failed calls of one event. Whatever has happened to the process and its writes, a call that is
answered with an error leaves no trace in what comes later exactly when its checks refused it or its
write was harmless: nothing reached the file, the log could not be opened anyway, or at a line
boundary the whole line reached it and the event changes nothing in what the log amounts to. -/
theorem failed_call_iff (hc : c.Rereads reread) (hf : c.Frames) (hs : s.Reached c)
    (hcall : call.isSingle = true) :
    s.LeavesNoTrace c call w ↔
      ∀ event, s.store.plan c call = .ok [event] → (w 0).Harmless c s event := by
  obtain ⟨line, hends⟩ := hs.ends hc hf
  have hreopen : call ≠ .reopen := by
    rintro rfl
    cases hcall
  constructor
  · intro h event hplan text htext
    obtain ⟨_, hevent, hkept⟩ := plan_single hcall hplan reread
    obtain rfl := (List.cons.inj hevent).1
    have hlogs : Logs c event text :=
      ⟨plan_finite hplan event (List.mem_singleton_self event), htext⟩
    cases hw : w 0 with
    | complete => exact .inl rfl
    | openFailed message => exact .inr (.inl rfl)
    | cut written message =>
        by_cases hnone : (lineBytes text).take written = []
        · exact .inr (.inl hnone)
        have hperform : s.perform c call w =
            some (⟨s.store, s.log ++ (lineBytes text).take written⟩, .error (.io message)) := by
          simp only [perform_eq hreopen, hplan, commit_singleton, hw, append, htext]
        obtain ⟨-, hlater⟩ := h _ _ hperform
        have hnow := congrArg Prod.snd (Option.some.inj (hlater []))
        rcases (hends.open_same_iff hc hf hlogs hkept hnone (List.take_prefix _ _)).mp hnow with
          hclosed | ⟨hboundary, hcovers, t, hopen, hsame⟩
        · exact .inr (.inr (.inl hclosed))
        · rcases written_cases hcovers (List.take_prefix _ _) with hfeed | hwhole
          · obtain ⟨later, hshown⟩ :=
              shown_of_missing_feed hc hf hlogs hkept hboundary hopen hreopen hplan
            rw [hfeed] at hlater
            exact absurd (hlater later) hshown
          · exact .inr (.inr (.inr ⟨hboundary, hwhole, t, hopen, hsame⟩))
  · intro h s' error hperform
    rw [perform_eq hreopen, Option.some.injEq] at hperform
    have hgoesOn : GoesOnAs c s' s := by
      cases hplan : s.store.plan c call with
      | error error' =>
          rw [hplan] at hperform
          obtain ⟨rfl, -⟩ := Prod.mk.inj hperform
          exact .refl s
      | ok planned =>
          obtain ⟨event, rfl, hkept⟩ := plan_single hcall hplan reread
          rw [hplan] at hperform
          have happend : s.append c event (w 0) = (s', .error error) := by
            rw [← commit_singleton]
            exact hperform
          exact .append hc hf hends (plan_finite hplan event (List.mem_singleton_self event)) hkept
            (h event hplan) happend
    exact ⟨hgoesOn.store, hgoesOn.after hc hf⟩

/-- The rule at a configuration that is published again: a sync that fails leaves no trace, and a
line feed that is not written does. -/
theorem failed_call_iff_config :
    let config : ConfigMetadata := ⟨1, 10, 20⟩
    let line := lineBytes (Json.print (.configPublished config))
    ∃ s, fresh.perform .framed (.publishConfig config) (fun _ => .complete) = some (s, .ok ()) ∧
      s.LeavesNoTrace .framed (.publishConfig config) (fun _ => .cut line.length "sync failed") ∧
      ¬ s.LeavesNoTrace .framed (.publishConfig config)
        (fun _ => .cut (line.length - 1) "no space left on device") := by
  intro config line
  let event : Event := .configPublished config
  let s : Server := ⟨Store.empty.apply event, [] ++ line⟩
  have htext : Crates.framed.toString event = .ok (Json.print event) := by
    apply framed_prints
    rw [Json.is_lone_print]
    decide
  have hplan : ∀ store : Store, store.plan .framed (.publishConfig config) = .ok [event] :=
    fun _ => rfl
  have hperform : fresh.perform .framed (.publishConfig config) (fun _ => .complete) =
      some (s, .ok ()) := perform_single (by simp) (hplan _) htext
  have hreached : s.Reached .framed := .perform .fresh hperform
  have hempty : Sealed .framed [] fresh.log := ⟨[], .nil, rfl⟩
  have hsealed : Sealed .framed [event] s.log := hempty.append ⟨trivial, htext⟩
  have hopen := open_sealed framed_rereads hsealed
  have hiff := fun w => failed_call_iff (w := w) framed_rereads framed_frames hreached
    (show (Call.publishConfig config).isSingle = true from rfl)
  have hlong : 1 < line.length := by decide +kernel
  refine ⟨s, hperform, (hiff _).mpr ?_, fun h => ?_⟩
  · intro event' hplan' text htext'
    obtain rfl := (List.cons.inj (Except.ok.inj ((hplan s.store).symm.trans hplan'))).1
    obtain rfl := Except.ok.inj (htext.symm.trans htext')
    refine .inr (.inr (.inr ⟨?_, List.take_length, _, hopen, ?_⟩))
    · exact at_boundary_newline _
    · exact congrArg (Store.mk _ _ _) (NestedMap.insert_insert _ _ _)
  · rcases (hiff _).mp h event (hplan _) _ htext with hfull | hnone | hclosed | ⟨-, hwhole, -⟩
    · cases hfull
    · have hlength : (line.take (line.length - 1)).length = 0 := congrArg List.length hnone
      rw [List.length_take] at hlength
      omega
    · exact hclosed _ hopen
    · have hlength : (line.take (line.length - 1)).length = line.length :=
        congrArg List.length hwhole
      rw [List.length_take] at hlength
      omega

/-- A rotation whose sync fails is answered with an error and leaves the live store as it was. The
log held the old secret before and holds the new one afterwards. -/
theorem rotation_survives_failure :
    ∃ s s' : Server, ∃ written before after,
      fresh.run .reference [.register "d" "00" "1"] = some s ∧
      s.perform .reference (.rotateCredential "d" "01") (fun _ => .cut written "sync failed") =
        some (s', .error (.io "sync failed")) ∧
      s'.store = s.store ∧
      Store.open .reference s.log = .ok before ∧ Store.open .reference s'.log = .ok after ∧
      before.devices["d"]?.map DeviceRecord.secretHex = some "00" ∧
      after.devices["d"]?.map DeviceRecord.secretHex = some "01" := by
  let registered : Event := .registered (.initial "d" "00" "1")
  let rotated : Event := .credentialRotated ((DeviceRecord.initial "d" "00" "1").rotated "01")
  let line := lineBytes (Json.print rotated)
  let s : Server := ⟨Store.empty.apply registered, lineBytes (Json.print registered)⟩
  have hempty : Sealed .reference [] [] := ⟨[], .nil, rfl⟩
  have hbefore : Sealed .reference [registered] s.log := by
    have hlogs : Logs .reference registered (Json.print registered) := ⟨trivial, rfl⟩
    have happend := hempty.append hlogs
    rwa [List.nil_append, List.nil_append] at happend
  have hafter : Sealed .reference [registered, rotated] (s.log ++ line) :=
    hbefore.append ⟨trivial, rfl⟩
  have hplan : s.store.plan .reference (.rotateCredential "d" "01") = .ok [rotated] := by
    have hdevice : s.store.devices["d"]? = some (.initial "d" "00" "1") := by
      simp [s, registered, Store.apply, DeviceRecord.initial]
    rw [Store.plan, hdevice]
    rfl
  refine ⟨s, ⟨s.store, s.log ++ line⟩, line.length, _, _, run_register rfl rfl, ?_, rfl,
    open_sealed reference_rereads hbefore, open_sealed reference_rereads hafter, ?_, ?_⟩
  · have hfailed : s.append .reference rotated (.cut line.length "sync failed") =
        (⟨s.store, s.log ++ line.take line.length⟩, .error (.io "sync failed")) := rfl
    rw [List.take_length] at hfailed
    rw [perform_eq (by simp), hplan, ← hfailed]
    exact congrArg some (commit_singleton rotated 0)
  · simp [Store.mapValue, Store.replay, registered, Store.apply, DeviceRecord.initial, Store.empty]
  · simp [Store.mapValue, Store.replay, registered, rotated, Store.apply, DeviceRecord.initial,
      DeviceRecord.rotated, Store.empty]

end Server

end Fieldbus.Cloud
