import Fieldbus.Cloud.Balance
import Fieldbus.Cloud.Framing

/-!
# What is written back

After `response` in `cloud/src/main.rs`. The reader of requests, given the bytes of an answer, finds
in them exactly the head and the body that were written (`answers_framed`), whatever the body.
-/

namespace Fieldbus.Cloud

open Text

/-- What is written on the connection. -/
def Response.text (r : Response) : String :=
  String.join ["HTTP/1.1 ", r.status, "\r\nContent-Type: ", r.contentType, "\r\nContent-Length: ",
    toString r.body.utf8ByteSize, "\r\nConnection: close\r\n\r\n", r.body]

/-- Its bytes. -/
def Response.bytes (r : Response) : List UInt8 := Utf8.encode r.text

/-- The lines before the body. -/
def Response.headLines (r : Response) : List (List Char) :=
  ["HTTP/1.1 ".toList ++ r.status.toList, "Content-Type: ".toList ++ r.contentType.toList,
    "Content-Length: ".toList ++ Nat.toDigits 10 r.body.utf8ByteSize, "Connection: close".toList,
    []]

/-- The text before the body. -/
def Response.head (r : Response) : String :=
  String.ofList (r.headLines.flatMap fun line => line ++ ['\r', '\n'])

/-- The status lines and the content types that are answered with. -/
structure Response.Standard (r : Response) : Prop where
  status : r.status ∈ ["200 OK", "201 Created", "400 Bad Request", "401 Unauthorized",
    "404 Not Found", "409 Conflict"]
  contentType : r.contentType ∈ ["application/json", "text/plain; version=0.0.4"]

variable {c : Crates} {j : JsonTexts} {settings : Settings} {r : Response}

/-! ## The head -/

/-- The head and the body are what is written. -/
theorem text_eq (r : Response) : r.text.toList = r.head.toList ++ r.body.toList := by
  simp [Response.text, Response.head, Response.headLines, String.join]

theorem bytes_eq (r : Response) : r.bytes = Utf8.encode r.head ++ Utf8.encode r.body := by
  simp only [Response.bytes, Utf8.encode, text_eq, List.flatMap_append]

/-- A number is written in decimal. -/
theorem decimal_toDigits (n : Nat) : Decimal (Nat.toDigits 10 n) n := by
  have hdigit (ch : Char) (hch : ch ∈ Nat.toDigits 10 n) : ch.isDigit :=
    Nat.isDigit_of_mem_toDigits (by decide) (by decide) hch
  refine ⟨Nat.toDigits_ne_nil, hdigit, ?_⟩
  have hvalue := Nat.ofDigitChars_ten_toDigits (n := n)
  rw [Nat.ofDigitChars_eq_foldl] at hvalue
  have hstep : (fun total (ch : Char) => 10 * total + (ch.toNat - '0'.toNat)) = addDigit := by
    funext total ch
    simp [addDigit, Nat.mul_comm]
  rw [hstep] at hvalue
  exact hvalue.symm

/-- A line without line feeds is written as a complete line. -/
theorem complete_line {line : List Char} (h : '\n' ∉ line) :
    CompleteLine ((line ++ ['\r', '\n']).flatMap String.utf8EncodeChar) := by
  refine ⟨(line ++ ['\r']).flatMap String.utf8EncodeChar, fun hmem => ?_, by
    rw [show ['\r', '\n'] = ['\r'] ++ ['\n'] from rfl, ← List.append_assoc, List.flatMap_append]
    rfl⟩
  obtain ⟨ch, hch, hbyte⟩ := List.mem_flatMap.mp hmem
  have hcode := Utf8.ascii_of_mem hbyte (by decide)
  obtain rfl : ch = '\n' := Char.toNat_inj.mp hcode
  simp [h] at hch

/-- No line of the head of a standard response has a line feed. -/
theorem Response.Standard.head_lines (h : r.Standard) : ∀ line ∈ r.headLines, '\n' ∉ line := by
  have hstatus : '\n' ∉ r.status.toList := by
    have hall : ∀ status ∈ ["200 OK", "201 Created", "400 Bad Request", "401 Unauthorized",
        "404 Not Found", "409 Conflict"], '\n' ∉ status.toList := by decide
    exact hall _ h.status
  have htype : '\n' ∉ r.contentType.toList := by
    have hall : ∀ kind ∈ ["application/json", "text/plain; version=0.0.4"],
        '\n' ∉ kind.toList := by decide
    exact hall _ h.contentType
  have hdigits : '\n' ∉ Nat.toDigits 10 r.body.utf8ByteSize := by
    intro hmem
    exact absurd (Nat.isDigit_of_mem_toDigits (by decide) (by decide) hmem) (by decide)
  simp [Response.headLines, hstatus, htype, hdigits]

theorem Response.Standard.header_lines (h : r.Standard) :
    headerLines r.head = r.headLines.drop 1 := by
  rw [headerLines, Response.head, String.toList_ofList, lines_crlf h.head_lines]

/-- Only an empty line is written as the line that ends the head. -/
theorem eq_nil_of_emptyLine {line : List Char}
    (h : (line ++ ['\r', '\n']).flatMap String.utf8EncodeChar = emptyLine) : line = [] := by
  have hbytes : Utf8.encode (String.ofList (line ++ ['\r', '\n'])) = Utf8.encode "\r\n" := by
    rw [Utf8.encode, String.toList_ofList, h]
    rfl
  have htext := congrArg Utf8.decode hbytes
  rw [Utf8.decode_encode, Utf8.decode_encode, Option.some_inj] at htext
  have hchars := congrArg String.toList htext
  rw [String.toList_ofList] at hchars
  exact List.append_left_eq_self.mp hchars

/-- The head of a standard response is a head. -/
theorem Response.Standard.isHead (h : r.Standard) : IsHead (Utf8.encode r.head) := by
  refine ⟨(r.headLines.take 4).map
    (fun line => (line ++ ['\r', '\n']).flatMap String.utf8EncodeChar), ?_, ?_⟩
  · intro bytes hbytes
    obtain ⟨line, hline, rfl⟩ := List.mem_map.mp hbytes
    refine ⟨complete_line (h.head_lines line (List.mem_of_mem_take hline)), fun hempty => ?_⟩
    obtain rfl := eq_nil_of_emptyLine hempty
    simp [Response.headLines] at hline
  · have hlines : r.headLines = r.headLines.take 4 ++ [[]] := rfl
    rw [Utf8.encode, Response.head, String.toList_ofList, hlines, List.flatMap_append,
      List.flatMap_append, List.flatMap_assoc]
    rfl

/-- A header line has its value behind the first colon. -/
theorem header_value_line {wanted : String} {name text : List Char} (h : ':' ∉ name) :
    headerValue wanted (name ++ ':' :: text) =
      if eqIgnoreAsciiCase name wanted.toList then some (trim Store.isWhitespace text)
      else none := by
  rw [headerValue, splitOnce_eq_some_iff.mpr ⟨rfl, h⟩]
  rfl

/-- Digits behind a blank are trimmed to the digits. -/
theorem trim_digits {digits : List Char} (h : ∀ ch ∈ digits, ch.isDigit = true) :
    trim Store.isWhitespace (' ' :: digits) = digits := by
  have hplain : ∀ ch ∈ digits, ¬ Store.isWhitespace ch = true := by
    intro ch hch
    have hdigit := Char.isDigit_iff_toNat.mp (h ch hch)
    rw [show '0'.toNat = 48 from rfl, show '9'.toNat = 57 from rfl] at hdigit
    simp only [Store.isWhitespace, Bool.or_eq_true, Bool.and_eq_true, decide_eq_true_eq, beq_iff_eq]
    omega
  have hfront : (' ' :: digits).dropWhile Store.isWhitespace = digits := by
    rw [List.dropWhile_cons_of_pos (by decide)]
    exact List.dropWhile_eq_self_iff.mpr fun hlength => hplain _ (List.getElem_mem _)
  rw [trim, hfront]
  exact List.rdropWhile_eq_self_iff.mpr fun hlast => hplain _ (List.getLast_mem hlast)

/-- What the header lines of a response have for a name: the content type has only its own, the
length has the digits, and the rest nothing. -/
theorem header_values (r : Response) (wanted : String)
    (htype : eqIgnoreAsciiCase "Content-Type".toList wanted.toList = false)
    (hclose : eqIgnoreAsciiCase "Connection".toList wanted.toList = false) :
    (r.headLines.drop 1).filterMap (headerValue wanted) =
      if eqIgnoreAsciiCase "Content-Length".toList wanted.toList then
        [Nat.toDigits 10 r.body.utf8ByteSize] else [] := by
  have hdigits := decimal_toDigits r.body.utf8ByteSize
  have hfirst : headerValue wanted ("Content-Type: ".toList ++ r.contentType.toList) = none := by
    rw [show "Content-Type: ".toList ++ r.contentType.toList =
      "Content-Type".toList ++ ':' :: ' ' :: r.contentType.toList from rfl,
      header_value_line (by decide), if_neg (by rw [htype]; exact Bool.false_ne_true)]
  have hsecond : headerValue wanted
      ("Content-Length: ".toList ++ Nat.toDigits 10 r.body.utf8ByteSize) =
        if eqIgnoreAsciiCase "Content-Length".toList wanted.toList then
          some (Nat.toDigits 10 r.body.utf8ByteSize) else none := by
    rw [show "Content-Length: ".toList ++ Nat.toDigits 10 r.body.utf8ByteSize =
      "Content-Length".toList ++ ':' :: ' ' :: Nat.toDigits 10 r.body.utf8ByteSize from rfl,
      header_value_line (by decide), trim_digits hdigits.2.1]
  have hthird : headerValue wanted "Connection: close".toList = none := by
    rw [show "Connection: close".toList = "Connection".toList ++ ':' :: " close".toList from rfl,
      header_value_line (by decide), if_neg (by rw [hclose]; exact Bool.false_ne_true)]
  have hfourth : headerValue wanted [] = none := rfl
  rw [Response.headLines]
  simp only [List.drop_succ_cons, List.drop_zero, List.filterMap_cons, List.filterMap_nil, hfirst,
    hsecond, hthird, hfourth]
  cases eqIgnoreAsciiCase "Content-Length".toList wanted.toList <;> rfl

/-- The length a standard response states is that of its body. -/
theorem Response.Standard.contentLength (h : r.Standard) :
    ContentLength Decimal (headerLines r.head) (Utf8.encode r.body).length := by
  have hvalues := header_values r "content-length" (by decide) (by decide)
  rw [if_pos (by decide)] at hvalues
  rw [h.header_lines, Utf8.encode_length]
  exact .inr ⟨_, hvalues, decimal_toDigits _⟩

/-- A character takes four bytes at most. -/
theorem length_encoded_le (text : List Char) :
    (text.flatMap String.utf8EncodeChar).length ≤ 4 * text.length := by
  induction text with
  | nil => simp
  | cons ch text ih =>
      have hch := Char.utf8Size_le_four ch
      rw [List.flatMap_cons, List.length_append, List.length_cons, String.length_utf8EncodeChar]
      omega

/-- With a body that a request may have, a standard response is in the grammar of a request. -/
theorem Response.Standard.framed (h : r.Standard) (hbody : (Utf8.encode r.body).length ≤ 65536) :
    Framed Decimal r.bytes r.head r.body := by
  refine ⟨h.isHead, ?_, ?_, h.contentLength, hbody, bytes_eq r ▸ List.prefix_rfl⟩
  · have hstatus : r.status.toList.length ≤ 16 := by
      have hall : ∀ status ∈ ["200 OK", "201 Created", "400 Bad Request", "401 Unauthorized",
          "404 Not Found", "409 Conflict"], status.toList.length ≤ 16 := by decide
      exact hall _ h.status
    have htype : r.contentType.toList.length ≤ 25 := by
      have hall : ∀ kind ∈ ["application/json", "text/plain; version=0.0.4"],
          kind.toList.length ≤ 25 := by decide
      exact hall _ h.contentType
    have hdigits : (Nat.toDigits 10 r.body.utf8ByteSize).length ≤ 5 := by
      rw [Nat.length_toDigits_le_iff (by decide) (by decide), ← Utf8.encode_length]
      omega
    have hbytes := length_encoded_le r.head.toList
    have hlength : r.head.toList.length = (9 + r.status.toList.length + 2) +
        ((14 + r.contentType.toList.length + 2) +
          ((16 + (Nat.toDigits 10 r.body.utf8ByteSize).length + 2) + (19 + (2 + 0)))) := by
      rw [Response.head, String.toList_ofList]
      simp only [Response.headLines, List.flatMap_cons, List.flatMap_nil, List.length_append]
      rfl
    rw [Utf8.encode]
    omega
  · have hvalues := header_values r "transfer-encoding" (by decide) (by decide)
    rw [if_neg (by decide), List.filterMap_eq_nil_iff] at hvalues
    rw [h.header_lines]
    exact hvalues

/-! ## The answers -/

/-- Every answer is standard. -/
theorem answer_standard (c : Crates) (j : JsonTexts) (settings : Settings)
    (state : Server × Metrics) (request : Request) :
    (answer c j settings state request).2.Standard := by
  rw [answer_response]
  unfold handle
  cases readRequest request.stream with
  | error e => exact ⟨by simp, by simp⟩
  | ok read =>
      obtain ⟨head, body⟩ := read
      dsimp only
      generalize splitWhitespace Store.isWhitespace ((lines head.toList).headD []) = words
      generalize String.ofList (words[0]?.getD []) = method
      generalize String.ofList (words[1]?.getD []) = path
      split
      · exact ⟨by simp, by simp⟩
      · split
        · exact ⟨by simp, by simp⟩
        · have hcode := (route_counts c j request.env method path body state.1
            { state.2 with requests := state.2.requests + 1 }).status
          split <;> rename_i heq
          · rw [heq] at hcode
            obtain hok | hcreated := hcode _ _ rfl
            · exact ⟨by simp [hok], by simp⟩
            · exact ⟨by simp [hcreated], by simp⟩
          · rename_i e
            cases e <;> exact ⟨by simp [errorStatus], by simp⟩

/-- Every answer is framed. Whatever the state and the request, the bytes written back are a head
and the body, the head is a block of complete lines ended by its only empty line, and the one length
it states is the number of bytes of the body. Within the limits of a request the server's own reader
takes from these bytes exactly that head and that body. -/
theorem answers_framed (c : Crates) (j : JsonTexts) (settings : Settings)
    (state : Server × Metrics) (request : Request) :
    let r := (answer c j settings state request).2
    r.bytes = Utf8.encode r.head ++ Utf8.encode r.body ∧ IsHead (Utf8.encode r.head) ∧
      ContentLength Decimal (headerLines r.head) (Utf8.encode r.body).length ∧
      ((Utf8.encode r.body).length ≤ 65536 →
        ∀ failure, readRequest ⟨r.bytes, failure⟩ = .ok (r.head, r.body)) := by
  intro r
  have hstandard : r.Standard := answer_standard c j settings state request
  refine ⟨bytes_eq r, hstandard.isHead, hstandard.contentLength, fun hbody failure => ?_⟩
  exact readRequest_of_framed (hstandard.framed hbody)

end Fieldbus.Cloud
