import Fieldbus.Cloud.Http
import Fieldbus.Library.Fallible

/-!
# The framing of a request

Which byte streams `readRequest` takes a request from. `Framed` is the grammar of a request, with
the syntax of a content length as a parameter. `readRequest_ok_iff` says that the reader accepts
that grammar with the standard library's syntax of a `usize`, which has an optional plus sign;
`readsGrammar_iff` compares this with decimal digits.
-/

namespace Fieldbus.Cloud

open Text

/-- A line with its line feed. -/
def CompleteLine (line : List UInt8) : Prop :=
  ∃ text, ByteLines.newline ∉ text ∧ line = text ++ [ByteLines.newline]

/-- Complete lines of which the last, and no other, is empty. -/
def IsHead (bytes : List UInt8) : Prop :=
  ∃ before : List (List UInt8), (∀ line ∈ before, CompleteLine line ∧ line ≠ emptyLine) ∧
    bytes = before.flatten ++ emptyLine

/-- The header lines of a head. -/
def headerLines (head : String) : List (List Char) := (lines head.toList).drop 1

/-- At most one header names a content length, and it has the given syntax; without one it is
zero. -/
def ContentLength (denotes : List Char → Nat → Prop) (headers : List (List Char)) (n : Nat) :
    Prop :=
  headers.filterMap (headerValue "content-length") = [] ∧ n = 0 ∨
    ∃ value, headers.filterMap (headerValue "content-length") = [value] ∧ denotes value n

/-- The grammar of a request, by the syntax of a content length. -/
structure Framed (denotes : List Char → Nat → Prop) (bytes : List UInt8) (head body : String) :
    Prop where
  head_lines : IsHead (Utf8.encode head)
  head_size : (Utf8.encode head).length ≤ 8192
  not_chunked : ∀ line ∈ headerLines head, headerValue "transfer-encoding" line = none
  body_length : ContentLength denotes (headerLines head) (Utf8.encode body).length
  body_size : (Utf8.encode body).length ≤ 65536
  starts : Utf8.encode head ++ Utf8.encode body <+: bytes

/-- One decimal digit more. -/
def addDigit (total : Nat) (ch : Char) : Nat := total * 10 + (ch.toNat - 48)

/-- The number that decimal digits denote. -/
def decimalValue (digits : List Char) : Nat := digits.foldl addDigit 0

/-- A non-empty text of decimal digits and its number. -/
def Decimal (text : List Char) (n : Nat) : Prop :=
  text ≠ [] ∧ (∀ ch ∈ text, ch.isDigit) ∧ n = decimalValue text

/-- Decimal digits behind a plus sign. -/
def PlusDecimal (text : List Char) (n : Nat) : Prop :=
  ∃ digits, text = '+' :: digits ∧ Decimal digits n

variable {s rest : Stream} {head line out : List UInt8}

/-! ## Lines -/

/-- The first position of an element splits the list before it. -/
theorem idxOf_eq_some_iff {α : Type} [BEq α] [LawfulBEq α] {a : α} {xs : List α} {i : Nat} :
    xs.idxOf? a = some i ↔
      ∃ before after, xs = before ++ a :: after ∧ a ∉ before ∧ before.length = i := by
  induction xs generalizing i with
  | nil => simp
  | cons x xs ih =>
      rw [List.idxOf?_cons]
      by_cases hx : x = a
      · subst hx
        simp only [beq_self_eq_true, if_true, Option.some.injEq]
        constructor
        · rintro rfl
          exact ⟨[], xs, rfl, by simp, rfl⟩
        · rintro ⟨before, after, hsplit, hfree, rfl⟩
          cases before with
          | nil => rfl
          | cons y ys =>
              obtain ⟨rfl, -⟩ := List.cons.inj hsplit
              exact absurd List.mem_cons_self hfree
      · simp only [beq_iff_eq, hx, if_false, Option.map_eq_some_iff, ih]
        constructor
        · rintro ⟨j, ⟨before, after, rfl, hfree, rfl⟩, rfl⟩
          exact ⟨x :: before, after, rfl, by simp [hfree, Ne.symm hx], rfl⟩
        · rintro ⟨before, after, hsplit, hfree, rfl⟩
          cases before with
          | nil => exact absurd (List.cons.inj hsplit).1 hx
          | cons y ys =>
              obtain ⟨rfl, rfl⟩ := List.cons.inj hsplit
              exact ⟨ys.length, ⟨ys, after, rfl, fun h => hfree (List.mem_cons_of_mem _ h), rfl⟩,
                rfl⟩

/-- A complete line that fits the window is read. -/
theorem readLine_complete {text : List UInt8} (htext : ByteLines.newline ∉ text)
    (hlength : text.length < 8193) (more : List UInt8) (failure : Option String) :
    readLine ⟨text ++ ByteLines.newline :: more, failure⟩ =
      .ok (text ++ [ByteLines.newline], ⟨more, failure⟩) := by
  have hwindow : ((text ++ ByteLines.newline :: more).take 8193).idxOf? ByteLines.newline =
      some text.length := by
    refine idxOf_eq_some_iff.mpr ⟨text, more.take (8192 - text.length), ?_, htext, rfl⟩
    rw [List.take_append, List.take_of_length_le (by omega),
      show 8193 - text.length = (8192 - text.length) + 1 by omega, List.take_succ_cons]
  simp only [readLine, hwindow]
  have htake : (text ++ ByteLines.newline :: more).take (text.length + 1) =
      text ++ [ByteLines.newline] := by
    rw [List.take_length_add_append]
    rfl
  have hdrop : (text ++ ByteLines.newline :: more).drop (text.length + 1) = more := by
    rw [List.drop_length_add_append]
    rfl
  rw [htake, hdrop]

/-- What is read is a complete line, or more than a header line may hold, or all that is left of a
stream that the peer has closed. -/
theorem readLine_cases (h : readLine s = .ok (line, rest)) :
    rest.failure = s.failure ∧
      (CompleteLine line ∨ 8192 < line.length ∨ rest.bytes = []) := by
  simp only [readLine] at h
  split at h
  · rename_i i hi
    obtain ⟨rfl, rfl⟩ := Prod.mk.inj (Except.ok.inj h)
    obtain ⟨before, after, hwindow, hfree, rfl⟩ := idxOf_eq_some_iff.mp hi
    refine ⟨rfl, .inl ⟨before, hfree, ?_⟩⟩
    have hbytes : s.bytes = before ++ ByteLines.newline :: (after ++ s.bytes.drop 8193) := by
      calc s.bytes = s.bytes.take 8193 ++ s.bytes.drop 8193 := (List.take_append_drop _ _).symm
        _ = before ++ ByteLines.newline :: (after ++ s.bytes.drop 8193) := by
          rw [hwindow, List.append_assoc, List.cons_append]
    rw [hbytes, List.take_length_add_append]
    rfl
  · split at h
    · rename_i hfull
      obtain ⟨rfl, rfl⟩ := Prod.mk.inj (Except.ok.inj h)
      exact ⟨rfl, .inr (.inl (by omega))⟩
    · split at h
      · cases h
      · obtain ⟨rfl, rfl⟩ := Prod.mk.inj (Except.ok.inj h)
        exact ⟨rfl, .inr (.inr rfl)⟩

/-! ## The head -/

theorem emptyLine_complete : CompleteLine emptyLine :=
  ⟨[ByteLines.carriageReturn], by decide, rfl⟩

theorem CompleteLine.ne_nil (h : CompleteLine line) : line ≠ [] := by
  obtain ⟨text, -, rfl⟩ := h
  simp

theorem IsHead.ne_nil (h : IsHead out) : out ≠ [] := by
  obtain ⟨before, -, rfl⟩ := h
  simp [emptyLine]

theorem isHead_emptyLine : IsHead emptyLine :=
  ⟨[], by simp, rfl⟩

theorem IsHead.cons (hline : CompleteLine line) (hne : line ≠ emptyLine) (h : IsHead out) :
    IsHead (line ++ out) := by
  obtain ⟨before, hbefore, rfl⟩ := h
  refine ⟨line :: before, ?_, by simp⟩
  rintro l (_ | ⟨_, hl⟩)
  · exact ⟨hline, hne⟩
  · exact hbefore l hl

/-- One round of the header loop. -/
theorem readHead_line (h : readLine s = .ok (line, rest)) :
    readHead head s =
      if line.isEmpty ∨ line.length > 8192 ∨ head.length + line.length > 8192 then
        .error (.invalid "invalid or oversized headers")
      else if line = emptyLine then .ok (head ++ line, rest)
      else readHead (head ++ line) rest := by
  rw [readHead]
  split
  · rename_i e he
    rw [h] at he
    cases he
  · rename_i line' rest' h'
    rw [h] at h'
    obtain ⟨rfl, rfl⟩ := Prod.mk.inj (Except.ok.inj h')
    rfl

theorem readHead_error {e : Error} (h : readLine s = .error e) : readHead head s = .error e := by
  rw [readHead]
  split
  · rename_i e' he
    rw [h] at he
    obtain rfl := Except.error.inj he
    rfl
  · rename_i line' rest' h'
    rw [h] at h'
    cases h'

/-- A head is read from the front of the stream, and it is within the limit. -/
theorem readHead_ok (h : readHead head s = .ok (out, rest)) :
    ∃ tail, IsHead tail ∧ out = head ++ tail ∧ out.length ≤ 8192 ∧
      s = ⟨tail ++ rest.bytes, rest.failure⟩ := by
  induction hsize : s.bytes.length using Nat.strong_induction_on generalizing s head with
  | _ size ih =>
      cases hline : readLine s with
      | error e =>
          rw [readHead_error hline] at h
          cases h
      | ok read =>
          obtain ⟨line, next⟩ := read
          rw [readHead_line hline] at h
          split at h
          · cases h
          rename_i hfits
          simp only [not_or, List.isEmpty_iff, not_lt] at hfits
          obtain ⟨hnonempty, hshort, htotal⟩ := hfits
          obtain ⟨hfailure, hcases⟩ := readLine_cases hline
          have hsplit := readLine_split hline
          split at h
          · rename_i hend
            obtain ⟨rfl, rfl⟩ := Prod.mk.inj (Except.ok.inj h)
            refine ⟨line, hend ▸ isHead_emptyLine, rfl, ?_, ?_⟩
            · rw [List.length_append]
              omega
            · rw [← hsplit, hfailure]
          · rename_i hmore
            have hlength := readLine_length hline
            have hpos := List.length_pos_iff.mpr hnonempty
            obtain ⟨tail, htail, rfl, hout, rfl⟩ := ih _ (by omega) h rfl
            have hcomplete : CompleteLine line := by
              rcases hcases with hcomplete | hlong | hclosed
              · exact hcomplete
              · omega
              · -- nothing is left, but the head goes on
                exact absurd (List.append_eq_nil_iff.mp hclosed).1 htail.ne_nil
            refine ⟨line ++ tail, htail.cons hcomplete hmore, by simp, hout, ?_⟩
            rw [List.append_assoc, ← hsplit, hfailure]

/-- A complete line that is short enough is read and appended. -/
theorem readHead_complete {more : List UInt8} (hline : CompleteLine line) (failure : Option String)
    (hsize : head.length + line.length ≤ 8192) :
    readHead head ⟨line ++ more, failure⟩ =
      if line = emptyLine then .ok (head ++ line, ⟨more, failure⟩)
      else readHead (head ++ line) ⟨more, failure⟩ := by
  have hne := hline.ne_nil
  obtain ⟨text, htext, rfl⟩ := hline
  have hlength : (text ++ [ByteLines.newline]).length = text.length + 1 := by simp
  have hread := readLine_complete htext (by omega) more failure
  rw [List.append_assoc, List.singleton_append, readHead_line hread, if_neg]
  simp only [List.isEmpty_iff, hne, false_or, not_or, gt_iff_lt, not_lt]
  omega

/-- A head within the limit is read from a stream that begins with it. -/
theorem readHead_of_head {tail more : List UInt8} (htail : IsHead tail) (failure : Option String)
    (hsize : (head ++ tail).length ≤ 8192) :
    readHead head ⟨tail ++ more, failure⟩ = .ok (head ++ tail, ⟨more, failure⟩) := by
  obtain ⟨before, hbefore, rfl⟩ := htail
  induction before generalizing head with
  | nil =>
      simp only [List.flatten_nil, List.nil_append, List.length_append] at hsize ⊢
      rw [readHead_complete emptyLine_complete failure hsize, if_pos rfl]
  | cons line before ih =>
      obtain ⟨hline, hne⟩ := hbefore line List.mem_cons_self
      simp only [List.flatten_cons, List.append_assoc, List.length_append] at hsize ⊢
      rw [readHead_complete hline failure (by omega), if_neg hne]
      have hsize' : (head ++ line ++ (before.flatten ++ emptyLine)).length ≤ 8192 := by
        simp only [List.length_append]
        omega
      have hrest := ih (fun l hl => hbefore l (List.mem_cons_of_mem _ hl)) hsize'
      rw [List.append_assoc] at hrest
      rw [hrest, List.append_assoc]

/-! ## The headers -/

variable {headers : List (List Char)} {length : Option Nat}

/-- A header line passes if it is not about chunks and, where it names the length, is the first to
do so and has the syntax of a `usize`. -/
theorem scanHeader_ok_iff {line : List Char} {result : Option Nat} :
    scanHeader length line = .ok result ↔
      headerValue "transfer-encoding" line = none ∧
        (headerValue "content-length" line = none ∧ result = length ∨
          ∃ value n, headerValue "content-length" line = some value ∧ length = none ∧
            parseUsize value = some n ∧ result = some n) := by
  unfold scanHeader headerValue
  generalize "transfer-encoding".toList = chunked
  generalize "content-length".toList = named
  cases splitOnce ':' line with
  | none => simpa using eq_comm
  | some parts =>
      obtain ⟨name, value⟩ := parts
      by_cases hchunked : eqIgnoreAsciiCase name chunked
      · simp [hchunked]
      by_cases hnamed : eqIgnoreAsciiCase name named
      swap
      · simpa [hchunked, hnamed] using eq_comm
      cases length with
      | some n => simp [hchunked, hnamed]
      | none =>
          cases hparse : parseUsize (trim Store.isWhitespace value) with
          | none => simp [hchunked, hnamed, hparse]
          | some n => simpa [hchunked, hnamed, hparse] using eq_comm

/-- The header scan passes if no line is about chunks and at most one names the length, in the
syntax of a `usize`. -/
theorem scan_ok_iff {result : Option Nat} :
    headers.foldlM scanHeader length = .ok result ↔
      (∀ line ∈ headers, headerValue "transfer-encoding" line = none) ∧
        (headers.filterMap (headerValue "content-length") = [] ∧ result = length ∨
          ∃ value n, headers.filterMap (headerValue "content-length") = [value] ∧ length = none ∧
            parseUsize value = some n ∧ result = some n) := by
  induction headers generalizing length with
  | nil =>
      simp only [List.foldlM_nil, List.filterMap_nil, pure, Except.pure, Except.ok.injEq]
      simpa using eq_comm
  | cons line rest ih =>
      rw [Fallible.foldlM_cons_ok_iff]
      simp only [scanHeader_ok_iff, ih, List.forall_mem_cons]
      cases hvalue : headerValue "content-length" line with
      | none =>
          rw [List.filterMap_cons_none hvalue]
          simp [and_assoc]
      | some value =>
          rw [List.filterMap_cons_some hvalue]
          simp only [reduceCtorEq, false_and, Option.some.injEq, exists_and_left, exists_eq_left',
            false_or, List.filterMap_eq_nil_iff, ↓existsAndEq, and_true, and_false, exists_const,
            or_false, List.cons.injEq, true_and]
          constructor
          · rintro ⟨n, ⟨hfirst, hnone, hparse⟩, hrest, hfree, rfl⟩
            exact ⟨⟨hfirst, hrest⟩, hfree, hnone, n, hparse, rfl⟩
          · rintro ⟨⟨hfirst, hrest⟩, hfree, hnone, n, hparse, rfl⟩
            exact ⟨n, ⟨hfirst, hnone, hparse⟩, hrest, hfree, rfl⟩

/-- The length that the scan leaves, zero if no header names one. -/
theorem scan_length_iff {n : Nat} :
    (∃ result, headers.foldlM scanHeader none = .ok result ∧ result.getD 0 = n) ↔
      (∀ line ∈ headers, headerValue "transfer-encoding" line = none) ∧
        ContentLength (fun value n => parseUsize value = some n) headers n := by
  simp only [scan_ok_iff, ContentLength]
  constructor
  · rintro ⟨result, ⟨hchunked, ⟨hnone, rfl⟩ | ⟨value, m, hvalue, -, hparse, rfl⟩⟩, rfl⟩
    · exact ⟨hchunked, .inl ⟨hnone, rfl⟩⟩
    · exact ⟨hchunked, .inr ⟨value, hvalue, hparse⟩⟩
  · rintro ⟨hchunked, ⟨hnone, rfl⟩ | ⟨value, hvalue, hparse⟩⟩
    · exact ⟨none, ⟨hchunked, .inl ⟨hnone, rfl⟩⟩, rfl⟩
    · exact ⟨some n, ⟨hchunked, .inr ⟨value, n, hvalue, trivial, hparse, rfl⟩⟩, rfl⟩

/-! ## The request -/

theorem readExact_ok_iff {n : Nat} {bytes : List UInt8} :
    readExact n s = .ok bytes ↔ bytes.length = n ∧ bytes <+: s.bytes := by
  unfold readExact
  split
  · rename_i hshort
    simp only [reduceCtorEq, false_iff, not_and]
    intro hn hprefix
    have hle := hprefix.length_le
    omega
  · rename_i hlong
    rw [Except.ok.injEq]
    constructor
    · rintro rfl
      exact ⟨by rw [List.length_take]; omega, List.take_prefix _ _⟩
    · rintro ⟨rfl, hprefix⟩
      exact (List.prefix_iff_eq_take.mp hprefix).symm

/-- The steps of a successful request. -/
theorem readRequest_steps {head body : String} :
    readRequest s = .ok (head, body) ↔
      ∃ rest length, readHead [] s = .ok (Utf8.encode head, rest) ∧
        (headerLines head).foldlM scanHeader none = .ok length ∧ length.getD 0 ≤ 65536 ∧
          readExact (length.getD 0) rest = .ok (Utf8.encode body) := by
  unfold readRequest
  rw [Fallible.bind_ok_iff]
  constructor
  · rintro ⟨⟨headBytes, rest⟩, hhead, h⟩
    cases hdecode : Utf8.decode headBytes with
    | none => simp [hdecode] at h
    | some text =>
        simp only [hdecode, Fallible.bind_ok_iff] at h
        obtain ⟨length, hscan, h⟩ := h
        split at h
        · cases h
        rename_i hlength
        rw [Fallible.bind_ok_iff] at h
        obtain ⟨bodyBytes, hread, h⟩ := h
        cases hbody : Utf8.decode bodyBytes with
        | none => simp [hbody] at h
        | some bodyText =>
            simp only [hbody, Except.ok.injEq, Prod.mk.injEq] at h
            obtain ⟨rfl, rfl⟩ := h
            obtain rfl := Utf8.decode_eq_some_iff.mp hdecode
            obtain rfl := Utf8.decode_eq_some_iff.mp hbody
            exact ⟨rest, length, hhead, hscan, not_lt.mp hlength, hread⟩
  · rintro ⟨rest, length, hhead, hscan, hlength, hread⟩
    refine ⟨(Utf8.encode head, rest), hhead, ?_⟩
    simp only [Utf8.decode_encode, Fallible.bind_ok_iff]
    refine ⟨length, hscan, ?_⟩
    rw [if_neg (not_lt.mpr hlength), Fallible.bind_ok_iff]
    exact ⟨Utf8.encode body, hread, by simp⟩

/-- A request is read exactly from the streams of the grammar, with lengths in the syntax of a
`usize`. -/
theorem readRequest_ok_iff {head body : String} :
    readRequest s = .ok (head, body) ↔
      Framed (fun value n => parseUsize value = some n) s.bytes head body := by
  rw [readRequest_steps]
  constructor
  · rintro ⟨rest, length, hhead, hscan, hlength, hread⟩
    obtain ⟨tail, htail, heq, hsize, rfl⟩ := readHead_ok hhead
    obtain rfl : Utf8.encode head = tail := heq
    obtain ⟨hbody, hprefix⟩ := readExact_ok_iff.mp hread
    obtain ⟨hchunked, hcontent⟩ := scan_length_iff.mp ⟨length, hscan, hbody.symm⟩
    refine ⟨htail, hsize, hchunked, hcontent, by omega, ?_⟩
    exact (List.prefix_append_right_inj _).mpr hprefix
  · rintro ⟨htail, hsize, hchunked, hcontent, hbody, more, hstarts⟩
    obtain ⟨length, hscan, hlength⟩ := scan_length_iff.mpr ⟨hchunked, hcontent⟩
    have hstream : s = ⟨Utf8.encode head ++ (Utf8.encode body ++ more), s.failure⟩ := by
      rw [← List.append_assoc, hstarts]
    refine ⟨⟨Utf8.encode body ++ more, s.failure⟩, length, ?_, hscan, by omega, ?_⟩
    · have hread := @readHead_of_head [] _ (Utf8.encode body ++ more) htail s.failure hsize
      rwa [List.nil_append, ← hstream] at hread
    · exact readExact_ok_iff.mpr ⟨hlength.symm, List.prefix_append _ _⟩

/-! ## The syntax of a length -/

theorem le_foldl_addDigit (digits : List Char) (total : Nat) :
    total ≤ digits.foldl addDigit total := by
  induction digits generalizing total with
  | nil => exact le_refl total
  | cons ch rest ih =>
      calc total ≤ addDigit total ch := by unfold addDigit; omega
        _ ≤ rest.foldl addDigit (addDigit total ch) := ih _

/-- The digit loop computes the number; the overflow check is that of the result, for the totals
only grow. -/
theorem digits_loop_iff {digits : List Char} {total n : Nat} :
    digits.foldlM (fun total ch =>
      if ch.isDigit ∧ total * 10 + (ch.toNat - 48) < 2 ^ 64 then some (total * 10 + (ch.toNat - 48))
      else none) total = some n ↔
      (∀ ch ∈ digits, ch.isDigit) ∧ n = digits.foldl addDigit total ∧
        (digits = [] ∨ n < 2 ^ 64) := by
  induction digits generalizing total with
  | nil => simpa using eq_comm
  | cons ch rest ih =>
      rw [List.foldlM_cons, List.foldl_cons, List.forall_mem_cons]
      by_cases hstep : ch.isDigit ∧ total * 10 + (ch.toNat - 48) < 2 ^ 64
      · rw [if_pos hstep, Option.bind_eq_bind, Option.bind_some, ih]
        constructor
        · rintro ⟨hdigits, rfl, hlast⟩
          refine ⟨⟨hstep.1, hdigits⟩, rfl, .inr ?_⟩
          rcases hlast with rfl | hlast
          · exact hstep.2
          · exact hlast
        · rintro ⟨⟨-, hdigits⟩, rfl, hlast⟩
          exact ⟨hdigits, rfl, .inr (hlast.resolve_left (List.cons_ne_nil _ _))⟩
      · rw [if_neg hstep, Option.bind_eq_bind, Option.bind_none]
        refine iff_of_false (by simp) ?_
        rintro ⟨⟨hdigit, -⟩, rfl, hlast⟩
        have hle := le_foldl_addDigit rest (addDigit total ch)
        exact hstep ⟨hdigit, lt_of_le_of_lt hle (hlast.resolve_left (List.cons_ne_nil _ _))⟩

/-- The digits of a `usize`, behind the sign. -/
def readDigits (digits : List Char) : Option Nat :=
  if digits = [] then none
  else digits.foldlM (fun total ch =>
    if ch.isDigit ∧ total * 10 + (ch.toNat - 48) < 2 ^ 64 then some (total * 10 + (ch.toNat - 48))
    else none) 0

theorem readDigits_iff {digits : List Char} {n : Nat} :
    readDigits digits = some n ↔ Decimal digits n ∧ n < 2 ^ 64 := by
  unfold readDigits
  by_cases hempty : digits = []
  · simp [hempty, Decimal]
  · rw [if_neg hempty, digits_loop_iff]
    constructor
    · rintro ⟨hdigits, hvalue, hlast⟩
      exact ⟨⟨hempty, hdigits, hvalue⟩, hlast.resolve_left hempty⟩
    · rintro ⟨⟨-, hdigits, hvalue⟩, hlast⟩
      exact ⟨hdigits, hvalue, .inr hlast⟩

theorem parseUsize_plus (digits : List Char) : parseUsize ('+' :: digits) = readDigits digits := rfl

theorem parseUsize_plain {text : List Char} (h : ∀ digits, text ≠ '+' :: digits) :
    parseUsize text = readDigits text := by
  unfold parseUsize
  split
  · rename_i digits
    exact absurd rfl (h digits)
  · rfl

theorem not_decimal_plus (digits : List Char) (n : Nat) : ¬ Decimal ('+' :: digits) n := by
  rintro ⟨-, hdigits, -⟩
  exact absurd (hdigits '+' List.mem_cons_self) (by decide)

theorem PlusDecimal.not_decimal {text : List Char} {n m : Nat} (hplus : PlusDecimal text n) :
    ¬ Decimal text m := by
  obtain ⟨digits, rfl, -⟩ := hplus
  exact not_decimal_plus digits m

/-- The syntax of a `usize` is that of decimal digits, with or without a plus sign. -/
theorem parseUsize_eq_some_iff {text : List Char} {n : Nat} :
    parseUsize text = some n ↔ (Decimal text n ∨ PlusDecimal text n) ∧ n < 2 ^ 64 := by
  by_cases hplus : ∃ digits, text = '+' :: digits
  · obtain ⟨digits, rfl⟩ := hplus
    have hdigits : PlusDecimal ('+' :: digits) n ↔ Decimal digits n := by simp [PlusDecimal]
    rw [parseUsize_plus, readDigits_iff, or_iff_right (not_decimal_plus digits n), hdigits]
  · have hnot : ¬ PlusDecimal text n := by
      rintro ⟨digits, rfl, -⟩
      exact hplus ⟨digits, rfl⟩
    rw [parseUsize_plain fun digits heq => hplus ⟨digits, heq⟩, readDigits_iff, or_iff_left hnot]

/-! ## The grammar -/

variable {head body : String} {bytes : List UInt8}

theorem Framed.congr {denotes denotes' : List Char → Nat → Prop}
    (h : Framed denotes bytes head body)
    (hdenotes : ∀ value, (headerLines head).filterMap (headerValue "content-length") = [value] →
      denotes value (Utf8.encode body).length → denotes' value (Utf8.encode body).length) :
    Framed denotes' bytes head body := by
  refine ⟨h.head_lines, h.head_size, h.not_chunked, ?_, h.body_size, h.starts⟩
  rcases h.body_length with hnone | ⟨value, hvalue, hlength⟩
  · exact .inl hnone
  · exact .inr ⟨value, hvalue, hdenotes value hvalue hlength⟩

/-- The grammar is accepted. -/
theorem readRequest_of_framed (h : Framed Decimal s.bytes head body) :
    readRequest s = .ok (head, body) := by
  refine readRequest_ok_iff.mpr (h.congr fun value _ hdecimal => ?_)
  have hsize := h.body_size
  exact parseUsize_eq_some_iff.mpr ⟨.inl hdecimal, by omega⟩

/-- So is the grammar with a plus sign. -/
theorem readRequest_of_plus (h : Framed PlusDecimal s.bytes head body) :
    readRequest s = .ok (head, body) := by
  refine readRequest_ok_iff.mpr (h.congr fun value _ hplus => ?_)
  have hsize := h.body_size
  exact parseUsize_eq_some_iff.mpr ⟨.inr hplus, by omega⟩

/-- The stream is a request of the grammar but for a plus sign before the length. -/
def PlusSigned (bytes : List UInt8) : Prop :=
  ∃ head body, Framed PlusDecimal bytes head body ∧
    (headerLines head).filterMap (headerValue "content-length") ≠ []

/-- Nothing else is accepted. -/
theorem framed_of_readRequest (hplus : ¬ PlusSigned s.bytes)
    (h : readRequest s = .ok (head, body)) : Framed Decimal s.bytes head body := by
  have hframed := readRequest_ok_iff.mp h
  refine hframed.congr fun value hvalue hparse => ?_
  rcases (parseUsize_eq_some_iff.mp hparse).1 with hdecimal | hsigned
  · exact hdecimal
  · refine absurd ⟨head, body, hframed.congr fun other hother _ => ?_, ?_⟩ hplus
    · rw [hvalue] at hother
      obtain rfl := List.singleton_inj.mp hother
      exact hsigned
    · rw [hvalue]
      exact List.cons_ne_nil _ _

/-! ## How much is read -/

/-- The line that is read does not depend on what follows the window. -/
theorem readLine_take {n : Nat} (hn : 8193 ≤ n) :
    readLine ⟨s.bytes.take n, s.failure⟩ =
      (readLine s).map fun read =>
        (read.1, ⟨read.2.bytes.take (n - read.1.length), read.2.failure⟩) := by
  have hwindow : (s.bytes.take n).take 8193 = s.bytes.take 8193 := by
    rw [List.take_take, min_eq_left hn]
  unfold readLine
  simp only [hwindow]
  cases hindex : (s.bytes.take 8193).idxOf? ByteLines.newline with
  | some i =>
      have hlt : i < (s.bytes.take 8193).length := by
        obtain ⟨before, after, hsplit, -, rfl⟩ := idxOf_eq_some_iff.mp hindex
        rw [hsplit, List.length_append, List.length_cons]
        omega
      rw [List.length_take] at hlt
      have hlength : (s.bytes.take (i + 1)).length = i + 1 := by
        rw [List.length_take]
        omega
      simp only [Except.map, hlength, List.drop_take, List.take_take]
      rw [min_eq_left (by omega)]
  | none =>
      by_cases hfull : (s.bytes.take 8193).length = 8193
      · simp only [hfull, if_true, Except.map, List.drop_take]
      · simp only [hfull, if_false]
        cases s.failure with
        | some e => rfl
        | none => simp [Except.map]

/-- Nor does the head depend on what follows the window of the line after the largest one. -/
theorem readHead_take {begun : List UInt8} {n : Nat} (hbegun : begun.length ≤ 8192)
    (hn : 16385 ≤ n + begun.length) :
    readHead begun ⟨s.bytes.take n, s.failure⟩ =
      (readHead begun s).map fun read =>
        (read.1, ⟨read.2.bytes.take (n + begun.length - read.1.length), read.2.failure⟩) := by
  induction hsize : s.bytes.length using Nat.strong_induction_on generalizing s begun n with
  | _ size ih =>
      have htake := readLine_take (s := s) (n := n) (by omega)
      cases hline : readLine s with
      | error e =>
          rw [hline] at htake
          rw [readHead_error htake, readHead_error hline]
          rfl
      | ok read =>
          obtain ⟨line, next⟩ := read
          rw [hline] at htake
          rw [readHead_line htake, readHead_line hline]
          split
          · rfl
          rename_i hfits
          simp only [not_or, List.isEmpty_iff, not_lt] at hfits
          obtain ⟨hnonempty, hshort, htotal⟩ := hfits
          split
          · simp only [Except.map, List.length_append]
            rw [show n + begun.length - (begun.length + line.length) = n - line.length by omega]
          · have hlength := readLine_length hline
            have hpos := List.length_pos_iff.mpr hnonempty
            have hbegun' : (begun ++ line).length ≤ 8192 := by
              rw [List.length_append]
              omega
            have hn' : 16385 ≤ n - line.length + (begun ++ line).length := by
              rw [List.length_append]
              omega
            rw [ih next.bytes.length (by omega) hbegun' hn' rfl, List.length_append,
              show n - line.length + (begun.length + line.length) = n + begun.length by omega]

theorem readExact_take {length n : Nat} (hn : length ≤ n) :
    readExact length ⟨s.bytes.take n, s.failure⟩ = readExact length s := by
  unfold readExact
  rw [List.length_take, List.take_take, min_eq_left hn]
  by_cases hshort : s.bytes.length < length
  · rw [if_pos hshort, if_pos (by omega)]
  · rw [if_neg hshort, if_neg (by omega)]

/-- Reading a request never looks past the largest head and body, so an endless stream is read like
any of its beginnings of that size. -/
theorem readRequest_take {n : Nat} (hn : 73728 ≤ n) :
    readRequest ⟨s.bytes.take n, s.failure⟩ = readRequest s := by
  have hbegun : ([] : List UInt8).length ≤ 8192 := Nat.zero_le _
  have htake := readHead_take (s := s) hbegun (show 16385 ≤ n + 0 by omega)
  unfold readRequest
  rw [htake]
  cases hhead : readHead [] s with
  | error e => rfl
  | ok read =>
      obtain ⟨out, rest⟩ := read
      obtain ⟨tail, -, -, hout, -⟩ := readHead_ok hhead
      simp only [Except.map, bind, Except.bind, List.length_nil, Nat.add_zero]
      cases Utf8.decode out with
      | none => rfl
      | some text =>
          simp only
          cases ((lines text.toList).drop 1).foldlM scanHeader none with
          | error e => rfl
          | ok length =>
              simp only
              by_cases hlength : length.getD 0 > 65536
              · simp only [hlength, if_true]
              · simp only [hlength, if_false]
                rw [readExact_take (by omega)]

/-! ## The rule -/

/-- The reader stops within its bounds and accepts exactly the grammar. -/
structure ReadsGrammar (s : Stream) : Prop where
  bounded : ∀ n, 73728 ≤ n → readRequest ⟨s.bytes.take n, s.failure⟩ = readRequest s
  accepts_iff : ∀ head body, readRequest s = .ok (head, body) ↔ Framed Decimal s.bytes head body

/-- The reader follows the grammar on every stream but those that would be requests without the
plus sign before their length. -/
theorem readsGrammar_iff (s : Stream) : ReadsGrammar s ↔ ¬ PlusSigned s.bytes := by
  constructor
  · rintro h ⟨head, body, hplus, hnamed⟩
    have hdecimal := (h.accepts_iff head body).mp (readRequest_of_plus hplus)
    rcases hplus.body_length with hnone | ⟨value, hvalue, hsigned⟩
    · exact hnamed hnone.1
    · rcases hdecimal.body_length with hnone | ⟨other, hother, hdigits⟩
      · exact hnamed hnone.1
      · rw [hvalue] at hother
        obtain rfl := List.singleton_inj.mp hother
        exact hsigned.not_decimal hdigits
  · intro hplus
    exact ⟨fun n hn => readRequest_take hn, fun head body =>
      ⟨framed_of_readRequest hplus, readRequest_of_framed⟩⟩

/-- The head of a request whose length has a plus sign. -/
def plusHead : String := "POST /ingest HTTP/1.1\r\nContent-Length: +2\r\n\r\n"

/-- A length with a plus sign is accepted. -/
theorem plus_length_not_grammar :
    (readRequest ⟨Utf8.encode plusHead ++ Utf8.encode "[]", none⟩).toOption =
        some (plusHead, "[]") ∧
      ¬ ReadsGrammar ⟨Utf8.encode plusHead ++ Utf8.encode "[]", none⟩ := by
  have hread : (readRequest ⟨Utf8.encode plusHead ++ Utf8.encode "[]", none⟩).toOption =
      some (plusHead, "[]") := by decide +kernel
  have hvalues : (headerLines plusHead).filterMap (headerValue "content-length") =
      [['+', '2']] := by decide +kernel
  refine ⟨hread, fun h => ?_⟩
  cases hrequest : readRequest ⟨Utf8.encode plusHead ++ Utf8.encode "[]", none⟩ with
  | error e =>
      rw [hrequest] at hread
      cases hread
  | ok read =>
      rw [hrequest] at hread
      obtain rfl := Option.some.inj hread
      rcases ((h.accepts_iff _ _).mp hrequest).body_length with hnone | ⟨value, hvalue, hdigits⟩
      · rw [hvalues] at hnone
        cases hnone.1
      · rw [hvalues] at hvalue
        obtain rfl := List.singleton_inj.mp hvalue
        exact absurd (hdigits.2.1 '+' List.mem_cons_self) (by decide)

end Fieldbus.Cloud
