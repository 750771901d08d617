import Fieldbus.Cloud.Crash

/-!
# Logs after any faults

Whatever happens to its writes, a process leaves a log of complete lines and at most one begun line,
which starts with a brace (`Server.Reached.ends`). `Ends.open_torn` says that bytes of an event that
do not make up its line by themselves spoil the log. Of the JSON crate this uses `Crates.Frames`.
-/

namespace Fieldbus.Cloud

open ByteLines

/-- The opening brace. -/
def brace : UInt8 := 0x7b

/-- Nothing, or bytes that start with a brace. -/
def Begun (line : List UInt8) : Prop := line = [] ∨ line.head? = some brace

/-- The text of an event is an object, and a line that a part of such a text ends is read only when
it is that text: an object without its end, a bare quote inside a string and characters behind the
end are errors. -/
structure Crates.Frames (c : Crates) : Prop where
  brace : ∀ event text, event.Finite → c.toString event = .ok text →
    (Utf8.encode text).head? = some Cloud.brace
  whole : ∀ event text line part read found, event.Finite → c.toString event = .ok text →
    Begun line → part ≠ [] → part <+: Utf8.encode text →
    Utf8.decode (line ++ part) = some read → c.fromStr read = .ok found →
    line = [] ∧ part = Utf8.encode text

variable {c : Crates} {reread : F64 → F64}

/-! ## Lines that are not read -/

/-- A text that starts with a brace is not blank. -/
theorem not_blank_of_brace {text : String} (h : (Utf8.encode text).head? = some brace) :
    Store.isBlank text = false := by
  rw [Utf8.encode] at h
  cases hchars : text.toList with
  | nil => simp [hchars] at h
  | cons ch more =>
      obtain ⟨rest, hbytes⟩ := List.head?_eq_some_iff.mp h
      have hmem : brace ∈ String.utf8EncodeChar ch := by
        cases hfirst : String.utf8EncodeChar ch with
        | nil => simp [String.utf8EncodeChar_ne_nil] at hfirst
        | cons byte tail =>
            rw [hchars, List.flatMap_cons, hfirst, List.cons_append] at hbytes
            rw [(List.cons.inj hbytes).1]
            exact List.mem_cons_self
      have hcode := Utf8.ascii_of_mem hmem (by decide)
      have hspace : Store.isWhitespace ch = false := by
        simp only [Store.isWhitespace, hcode]
        decide
      simp [Store.isBlank, hchars, hspace]

variable {event : Event} {text : String} {line part log : List UInt8}

/-- A part of an event's text begins a line or continues a begun one. -/
theorem Begun.append (hf : c.Frames) (hlogs : Logs c event text) (hbegun : Begun line)
    (hbegins : part <+: Utf8.encode text) : Begun (line ++ part) := by
  rcases hbegun with rfl | hhead
  · cases part with
    | nil => exact .inl rfl
    | cons byte more =>
        obtain ⟨rest, hrest⟩ := hbegins
        right
        rw [← hf.brace event text hlogs.finite hlogs.text, ← hrest]
        rfl
  · exact .inr (by rw [List.head?_append, hhead, Option.some_or])

/-- Such a part has no line breaks. -/
theorem one_line_append (hc : c.Rereads reread) (hlogs : Logs c event text) (hline : OneLine line)
    (hbegins : part <+: Utf8.encode text) : OneLine (line ++ part) := by
  intro byte hbyte
  rcases List.mem_append.mp hbyte with hbyte | hbyte
  · exact hline byte hbyte
  · exact hc.oneLine event text hlogs.finite hlogs.text byte (hbegins.subset hbyte)

/-- A begun line that ends with a part of an event's text is not replayed. -/
theorem replay_part (hf : c.Frames) (hlogs : Logs c event text) (hbegun : Begun line)
    (hpart : part ≠ []) (hbegins : part <+: Utf8.encode text)
    (hnot : line ≠ [] ∨ part ≠ Utf8.encode text) (s : Store) :
    ∃ error, s.replayLine c (line ++ part) = .error error := by
  have hhead := (hbegun.append hf hlogs hbegins).resolve_left
    (List.append_ne_nil_of_right_ne_nil line hpart)
  rw [Store.replayLine]
  cases hread : Utf8.decode (line ++ part) with
  | none => exact ⟨_, rfl⟩
  | some read =>
      rw [← Utf8.encode_of_decode hread] at hhead
      simp only [not_blank_of_brace hhead, Bool.false_eq_true, if_false]
      cases hfound : c.fromStr read with
      | error error => exact ⟨_, rfl⟩
      | ok found =>
          obtain ⟨hline, htext⟩ := hf.whole event text line part read found hlogs.finite hlogs.text
            hbegun hpart hbegins hread hfound
          exact absurd htext (hnot.resolve_left (not_not.mpr hline))

/-- Behind a line boundary the log is replayed on what is before. -/
theorem open_append (h : AtBoundary log) (rest : List UInt8) :
    Store.open c (log ++ rest) =
      Store.open c log >>= fun s => (lines rest).foldlM (Store.replayLine c) s := by
  rw [Store.open, lines_append h, List.foldlM_append]
  rfl

/-! ## Complete lines and a begun one -/

/-- The log is a file of complete lines with a begun line behind them. -/
structure Ends (log line : List UInt8) : Prop where
  complete : ∃ file, AtBoundary file ∧ log = file ++ line
  oneLine : OneLine line
  begun : Begun line

/-- Without a begun line the log is at a line boundary. -/
theorem Ends.at_boundary (h : Ends log []) : AtBoundary log := by
  obtain ⟨⟨file, hfile, rfl⟩, -, -⟩ := h
  rwa [List.append_nil]

/-- A begun line is not a line boundary. -/
theorem Ends.not_at_boundary (h : Ends log line) (hne : line ≠ []) : ¬ AtBoundary log := by
  obtain ⟨⟨file, -, rfl⟩, hline, -⟩ := h
  exact ByteLines.not_at_boundary file hline hne

/-- A part of an event's text that does not make up a line by itself spoils the log. -/
theorem Ends.open_torn (hc : c.Rereads reread) (hf : c.Frames) (h : Ends log line)
    (hlogs : Logs c event text) (hpart : part ≠ []) (hbegins : part <+: Utf8.encode text)
    (hnot : line ≠ [] ∨ part ≠ Utf8.encode text) {rest : List UInt8}
    (hrest : rest = [] ∨ ∃ more, rest = newline :: more) :
    ∃ error, Store.open c (log ++ (part ++ rest)) = .error error := by
  obtain ⟨⟨file, hfile, rfl⟩, hline, hbegun⟩ := h
  obtain ⟨following, hlines⟩ := lines_head (one_line_append hc hlogs hline hbegins)
    (List.append_ne_nil_of_right_ne_nil line hpart) hrest
  rw [List.append_assoc, ← List.append_assoc line, open_append hfile, hlines]
  cases Store.open c file with
  | error error => exact ⟨error, rfl⟩
  | ok s =>
      obtain ⟨error, hbad⟩ := replay_part hf hlogs hbegun hpart hbegins hnot s
      refine ⟨error, ?_⟩
      show List.foldlM (Store.replayLine c) s ((line ++ part) :: following) = .error error
      rw [List.foldlM_cons, hbad]
      rfl

/-- Any bytes of an event's line leave complete lines and a begun one. -/
theorem Ends.write (hc : c.Rereads reread) (hf : c.Frames) (h : Ends log line)
    (hlogs : Logs c event text)
    {bytes : List UInt8} (hbytes : bytes <+: Server.lineBytes text) :
    ∃ line', Ends (log ++ bytes) line' := by
  rcases List.prefix_concat_iff.mp hbytes with rfl | hbegins
  -- the whole line: the log is at a boundary
  · refine ⟨[], ⟨log ++ (Utf8.encode text ++ [newline]), ?_, by simp⟩, ?_, .inl rfl⟩
    · rw [← List.append_assoc]
      exact at_boundary_newline _
    · simp [OneLine]
  -- a part of the text continues the begun line
  · obtain ⟨⟨file, hfile, rfl⟩, hline, hbegun⟩ := h
    exact ⟨line ++ bytes, ⟨file, hfile, List.append_assoc _ _ _⟩,
      one_line_append hc hlogs hline hbegins, hbegun.append hf hlogs hbegins⟩

/-! ## Runs -/

/-- A process after any calls, whatever happened to their writes. -/
inductive Server.Reached (c : Crates) : Server → Prop where
  | fresh : Server.Reached c .fresh
  | perform {s s' : Server} {call : Call} {w : Nat → Write} {reply : Except Error Unit} :
      Server.Reached c s → s.perform c call w = some (s', reply) → Server.Reached c s'

/-- What any bytes of an event's line keep of the log, a commit keeps. -/
theorem Server.commit_log_invariant {P : List UInt8 → Prop}
    (hwrite : ∀ log event text bytes, P log → Logs c event text →
      bytes <+: Server.lineBytes text → P (log ++ bytes))
    {s : Server} {w : Nat → Write} {planned : List Event}
    (hfinite : ∀ event ∈ planned, event.Finite) (h : P s.log) (index : Nat) :
    P (Server.commit c w s planned index).1.log := by
  induction planned generalizing s index with
  | nil => exact h
  | cons event rest ih =>
      obtain ⟨hevent, hrest⟩ := List.forall_mem_cons.mp hfinite
      rw [Server.commit]
      rcases Server.append_cases (c := c) s event (w index) with
        ⟨text, htext, -, happend⟩ | ⟨error, happend⟩ | ⟨text, error, htext, happend⟩
      · rw [happend]
        exact ih (s := ⟨s.store.apply event, s.log ++ Server.lineBytes text⟩) hrest
          (hwrite _ _ _ _ h ⟨hevent, htext⟩ (List.prefix_refl _)) _
      · rw [happend]
        exact h
      · rw [happend]
        exact hwrite _ _ _ _ h ⟨hevent, htext⟩ (Write.bytes_prefix (w index) _)

/-- What any bytes of an event's line keep of the log, a call keeps. -/
theorem Server.perform_log_invariant {P : List UInt8 → Prop}
    (hwrite : ∀ log event text bytes, P log → Logs c event text →
      bytes <+: Server.lineBytes text → P (log ++ bytes))
    {s s' : Server} {call : Call} {w : Nat → Write} {reply : Except Error Unit} (h : P s.log)
    (hperform : s.perform c call w = some (s', reply)) : P s'.log := by
  by_cases hcall : call = .reopen
  · subst hcall
    rw [Server.perform] at hperform
    split at hperform
    · obtain ⟨rfl, -⟩ := Prod.mk.inj (Option.some.inj hperform)
      exact h
    · cases hperform
  · rw [Server.perform_eq hcall, Option.some.injEq] at hperform
    cases hplan : s.store.plan c call with
    | error error =>
        rw [hplan] at hperform
        obtain ⟨rfl, -⟩ := Prod.mk.inj hperform
        exact h
    | ok planned =>
        rw [hplan] at hperform
        have hcommit : Server.commit c w s planned 0 = (s', reply) := hperform
        have hlog := Server.commit_log_invariant hwrite (w := w) (plan_finite hplan) h 0
        rwa [hcommit] at hlog

/-- Whatever happens to its writes, a process leaves complete lines and a begun one. -/
theorem Server.Reached.ends (hc : c.Rereads reread) (hf : c.Frames) {s : Server}
    (h : s.Reached c) : ∃ line, Ends s.log line := by
  induction h with
  | fresh => exact ⟨[], ⟨[], at_boundary_nil, rfl⟩, by simp [OneLine], .inl rfl⟩
  | perform _ hperform ih =>
      refine Server.perform_log_invariant (P := fun log => ∃ line, Ends log line) ?_ ih hperform
      rintro log event text bytes ⟨line, hends⟩ hlogs hbytes
      exact hends.write hc hf hlogs hbytes

/-! ## A crate that frames its texts -/

namespace Json

/-- The text of an event begins with a brace, a quote and the initial of its tag. -/
theorem print_tag (e : Event) : ∃ letter rest, (letter = 'R' ∨ letter = 'C' ∨ letter = 'F') ∧
    (print e).toList = '\x7b' :: '"' :: letter :: rest := by
  cases e with
  | registered | readingAccepted =>
      exact ⟨'R', _, .inl rfl, by rw [print, String.toList_ofList]; rfl⟩
  | credentialRotated | configPublished =>
      exact ⟨'C', _, .inr (.inl rfl), by rw [print, String.toList_ofList]; rfl⟩
  | firmwarePublished => exact ⟨'F', _, .inr (.inr rfl), by rw [print, String.toList_ofList]; rfl⟩

/-- A part of the text of an event could begin here. -/
def startsEvent (bytes : List UInt8) : Bool :=
  bytes.head? == some brace && bytes[1]?.all (· == 0x22) &&
    bytes[2]?.all fun b => 0x41 ≤ b && b ≤ 0x5a

/-- No part of the text of an event could begin inside the text. -/
def isLone (text : String) : Bool := !(Utf8.encode text).tail.tails.any startsEvent

/-- The bytes of a printed event, without the way through the string. -/
theorem is_lone_print (e : Event) : isLone (print e) =
    !((Json.event.print (.of e)).flatMap String.utf8EncodeChar).tail.tails.any startsEvent := by
  rw [isLone, Utf8.encode, print, String.toList_ofList]

theorem starts_event_part {e : Event} {part : List UInt8} (hpart : part ≠ [])
    (h : part <+: Utf8.encode (print e)) : startsEvent part = true := by
  obtain ⟨letter, rest, hletter, hprint⟩ := print_tag e
  obtain ⟨code, hcode, hupper⟩ : ∃ code, String.utf8EncodeChar letter = [code] ∧
      (0x41 ≤ code ∧ code ≤ 0x5a) := by
    rcases hletter with rfl | rfl | rfl
    · exact ⟨0x52, by decide, by decide⟩
    · exact ⟨0x43, by decide, by decide⟩
    · exact ⟨0x46, by decide, by decide⟩
  have hbrace : String.utf8EncodeChar '\x7b' = [brace] := by decide
  have hquote : String.utf8EncodeChar '"' = [0x22] := by decide
  rw [Utf8.encode, hprint, List.flatMap_cons, List.flatMap_cons, List.flatMap_cons, hbrace, hquote,
    hcode] at h
  simp only [List.singleton_append] at h
  rcases part with _ | ⟨first, _ | ⟨second, _ | ⟨third, rest⟩⟩⟩
  · exact absurd rfl hpart
  · obtain ⟨rfl, -⟩ := List.cons_prefix_cons.mp h
    simp [startsEvent]
  · obtain ⟨rfl, hsecond⟩ := List.cons_prefix_cons.mp h
    obtain ⟨rfl, -⟩ := List.cons_prefix_cons.mp hsecond
    simp [startsEvent]
  · obtain ⟨rfl, hsecond⟩ := List.cons_prefix_cons.mp h
    obtain ⟨rfl, hthird⟩ := List.cons_prefix_cons.mp hsecond
    obtain ⟨rfl, -⟩ := List.cons_prefix_cons.mp hthird
    simpa [startsEvent] using hupper

/-- The text is printed. -/
def isWritten (text : String) : Bool :=
  match Json.event.parse text.toList with
  | some (w, []) => Json.event.print w == text.toList
  | _ => false

theorem is_written_print (e : Event) : isWritten (print e) = true := by
  have hparse := Json.event.parse_print (.of e) []
  rw [List.append_nil] at hparse
  simp only [isWritten, print, String.toList_ofList, hparse, beq_self_eq_true]

theorem eq_of_is_written {text : String} (h : isWritten text = true) :
    ∃ w, text.toList = Json.event.print w := by
  rw [isWritten] at h
  split at h
  · exact ⟨_, (eq_of_beq h).symm⟩
  · cases h

end Json

/-- The reference crate, which reads nothing but what it prints, and prints only texts inside which
no other begins. -/
def Crates.framed : Crates :=
  { Crates.reference with
    toString := fun event =>
      if Json.isLone (Json.print event) then .ok (Json.print event)
      else .error "an event begins inside the text"
    fromStr := fun text =>
      if Json.isWritten text ∧ Json.isLone text then Crates.reference.fromStr text
      else .error "not the text of an event" }

theorem framed_toString {event : Event} {text : String}
    (h : Crates.framed.toString event = .ok text) :
    text = Json.print event ∧ Json.isLone text = true := by
  simp only [Crates.framed] at h
  split at h
  · rename_i hlone
    obtain rfl := Except.ok.inj h
    exact ⟨rfl, hlone⟩
  · cases h

theorem framed_fromStr {text : String} {event : Event}
    (h : Crates.framed.fromStr text = .ok event) :
    (∃ w, text.toList = Json.event.print w) ∧ Json.isLone text = true := by
  simp only [Crates.framed] at h
  split at h
  · rename_i hwhole
    exact ⟨Json.eq_of_is_written hwhole.1, hwhole.2⟩
  · cases h

/-- What the crate prints of an event inside which none begins. -/
theorem framed_prints {event : Event} (h : Json.isLone (Json.print event) = true) :
    Crates.framed.toString event = .ok (Json.print event) := by
  simp [Crates.framed, h]

theorem framed_rereads : Crates.framed.Rereads Json.reread := by
  refine ⟨?_, ?_, ?_⟩ <;> intro event text hfinite h <;> obtain ⟨rfl, hlone⟩ := framed_toString h
  · have hread := reference_rereads.fromStr event _ hfinite rfl
    simp only [Crates.framed, Json.is_written_print, hlone, and_self, if_true, hread]
  · exact reference_rereads.oneLine event _ hfinite rfl
  · exact reference_rereads.notBlank event _ hfinite rfl

theorem framed_frames : Crates.framed.Frames := by
  refine ⟨?_, ?_⟩
  · intro event text _ h
    obtain ⟨rfl, -⟩ := framed_toString h
    obtain ⟨rest, hhead⟩ := Json.print_head event
    rw [Utf8.encode, hhead, List.flatMap_cons]
    rfl
  · intro event text line part read found _ h hbegun hpart hbegins hdecode hread
    obtain ⟨rfl, -⟩ := framed_toString h
    obtain ⟨⟨w, hw⟩, hlone⟩ := framed_fromStr hread
    have hbytes := Utf8.encode_of_decode hdecode
    rcases hbegun with rfl | hhead
    -- one text is not the beginning of another
    · obtain rfl : Utf8.encode read = part := hbytes
      obtain ⟨more, hmore⟩ := Utf8.prefix_of_encode hbegins
      have hshort := Json.event.parse_print w more
      have hlong := Json.event.parse_print (.of event) []
      rw [List.append_nil] at hlong
      simp only [Json.print, String.toList_ofList, hw] at hmore
      rw [hmore, hlong] at hshort
      obtain ⟨rfl, -⟩ := Prod.mk.inj (Option.some.inj hshort)
      exact ⟨rfl, by rw [Utf8.encode, Utf8.encode, hw, Json.print, String.toList_ofList]⟩
    -- the part begins inside the text that is read
    · obtain ⟨more, rfl⟩ := List.head?_eq_some_iff.mp hhead
      have hinside : (Utf8.encode read).tail.tails.any Json.startsEvent = true := by
        rw [hbytes, List.any_eq_true]
        refine ⟨part, (List.mem_tails _ _).mpr ⟨more, rfl⟩, ?_⟩
        exact Json.starts_event_part hpart hbegins
      rw [Json.isLone, hinside] at hlone
      cases hlone

end Fieldbus.Cloud
