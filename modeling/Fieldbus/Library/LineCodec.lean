import Mathlib.Data.List.Basic

/-!
# Printers with parsers

A `LineCodec` prints values as one-line texts that its parser reads back from the front of any
longer text. The combinators below build such codecs for literals, sequences, alternatives,
decimal numbers and quoted strings with escapes; each carries its own round trip.
-/

namespace Fieldbus

/-- A text without line breaks. -/
def NoBreaks (text : List Char) : Prop := ∀ ch ∈ text, ch ≠ '\n' ∧ ch ≠ '\r'

instance (text : List Char) : Decidable (NoBreaks text) :=
  List.decidableBAll (fun ch => ch ≠ '\n' ∧ ch ≠ '\r') text

theorem NoBreaks.append {first second : List Char} (h : NoBreaks first) (h' : NoBreaks second) :
    NoBreaks (first ++ second) :=
  fun ch hch => (List.mem_append.mp hch).elim (h ch) (h' ch)

/-- A printer of one-line texts and the parser that undoes it. -/
structure LineCodec (α : Type) where
  print : α → List Char
  parse : List Char → Option (α × List Char)
  parse_print : ∀ a rest, parse (print a ++ rest) = some (a, rest)
  one_line : ∀ a, NoBreaks (print a)

namespace LineCodec

variable {α β : Type}

/-- Remove a text from the front of another. -/
def stripFront : List Char → List Char → Option (List Char)
  | [], rest => some rest
  | _ :: _, [] => none
  | expected :: more, ch :: rest => if expected = ch then stripFront more rest else none

@[simp] theorem strip_front_append (text rest : List Char) :
    stripFront text (text ++ rest) = some rest := by
  induction text with
  | nil => rfl
  | cons ch text ih => simp [stripFront, ih]

theorem strip_front_eq_some_iff {text input rest : List Char} :
    stripFront text input = some rest ↔ input = text ++ rest := by
  constructor
  · intro h
    induction text generalizing input with
    | nil => exact Option.some.inj h
    | cons ch text ih =>
        cases input with
        | nil => cases h
        | cons first input =>
            rw [stripFront] at h
            split at h
            · rename_i heq
              rw [heq, ih h, List.cons_append]
            · cases h
  · rintro rfl
    exact strip_front_append text rest

/-- A fixed text in front of a codec. -/
def after (text : String) (codec : LineCodec α) (h : NoBreaks text.toList := by decide) :
    LineCodec α where
  print a := text.toList ++ codec.print a
  parse input := (stripFront text.toList input).bind codec.parse
  parse_print a rest := by simp [codec.parse_print]
  one_line a := h.append (codec.one_line a)

/-- A fixed text behind a codec. -/
def before (codec : LineCodec α) (text : String) (h : NoBreaks text.toList := by decide) :
    LineCodec α where
  print a := codec.print a ++ text.toList
  parse input := (codec.parse input).bind fun r =>
    (stripFront text.toList r.2).map fun rest => (r.1, rest)
  parse_print a rest := by simp [List.append_assoc, codec.parse_print]
  one_line a := (codec.one_line a).append h

/-- Print nothing. -/
def unit : LineCodec Unit where
  print _ := []
  parse input := some ((), input)
  parse_print _ _ := rfl
  one_line _ := fun _ hch => absurd hch List.not_mem_nil

/-- One codec after the other. -/
def seq (first : LineCodec α) (second : LineCodec β) : LineCodec (α × β) where
  print ab := first.print ab.1 ++ second.print ab.2
  parse input := (first.parse input).bind fun r =>
    (second.parse r.2).map fun r' => ((r.1, r'.1), r'.2)
  parse_print ab rest := by simp [List.append_assoc, first.parse_print, second.parse_print]
  one_line ab := (first.one_line ab.1).append (second.one_line ab.2)

/-- A codec through a change of representation. -/
def map (codec : LineCodec α) (build : α → β) (take : β → α) (h : ∀ b, build (take b) = b) :
    LineCodec β where
  print b := codec.print (take b)
  parse input := (codec.parse input).map fun r => (build r.1, r.2)
  parse_print b rest := by simp [codec.parse_print, h]
  one_line b := codec.one_line (take b)

/-- Either of two codecs; the first must not read what the second prints. -/
def either (left : LineCodec α) (right : LineCodec β)
    (h : ∀ b rest, left.parse (right.print b ++ rest) = none) : LineCodec (α ⊕ β) where
  print
    | .inl a => left.print a
    | .inr b => right.print b
  parse input := ((left.parse input).map fun r => (.inl r.1, r.2)).or
    ((right.parse input).map fun r => (.inr r.1, r.2))
  parse_print
    | .inl a, rest => by simp [left.parse_print]
    | .inr b, rest => by simp [right.parse_print, h]
  one_line
    | .inl a => left.one_line a
    | .inr b => right.one_line b

/-- The texts differ at a position that both have. -/
def diverge : List Char → List Char → Bool
  | ch :: text, ch' :: other => if ch = ch' then diverge text other else true
  | _, _ => false

/-- A text is not found where another one stands that differs from it. -/
theorem strip_front_of_diverge {text other : List Char} (h : diverge text other = true)
    (rest : List Char) : stripFront text (other ++ rest) = none := by
  induction text generalizing other with
  | nil => simp [diverge] at h
  | cons ch text ih =>
      cases other with
      | nil => simp [diverge] at h
      | cons ch' other =>
          rw [List.cons_append, stripFront]
          by_cases hch : ch = ch'
          · rw [if_pos hch]
            exact ih (by simpa [diverge, hch] using h)
          · rw [if_neg hch]

/-- A codec behind a tag does not read what stands behind another tag. -/
theorem parse_after_of_diverge {tag tag' : String} {h : NoBreaks tag.toList}
    {codec : LineCodec α} (hdiverge : diverge tag.toList tag'.toList = true)
    (printed rest : List Char) :
    (after tag codec h).parse (tag'.toList ++ printed ++ rest) = none := by
  simp [after, strip_front_of_diverge hdiverge]

/-! ## Numbers -/

/-- A natural number in decimal, with the character that ends it. -/
def nat (stop : Char) (h : stop.isDigit = false := by decide)
    (h' : stop ≠ '\n' ∧ stop ≠ '\r' := by decide) : LineCodec Nat where
  print n := Nat.toDigits 10 n ++ [stop]
  parse input :=
    let digits := input.takeWhile Char.isDigit
    match input.dropWhile Char.isDigit with
    | [] => none
    | ch :: rest =>
        if digits ≠ [] ∧ ch = stop then some (Nat.ofDigitChars 10 digits 0, rest) else none
  parse_print n rest := by
    have hdigits : ∀ ch ∈ Nat.toDigits 10 n, ch.isDigit = true :=
      fun ch hch => Nat.isDigit_of_mem_toDigits (by decide) (by decide) hch
    have htake : (Nat.toDigits 10 n ++ stop :: rest).takeWhile Char.isDigit =
        Nat.toDigits 10 n := by
      rw [List.takeWhile_append_of_pos hdigits, List.takeWhile_cons_of_neg (by simp [h])]
      simp
    have hdrop : (Nat.toDigits 10 n ++ stop :: rest).dropWhile Char.isDigit = stop :: rest := by
      rw [List.dropWhile_append_of_pos hdigits, List.dropWhile_cons_of_neg (by simp [h])]
    simp only [List.append_assoc, List.singleton_append, htake, hdrop]
    rw [if_pos ⟨Nat.toDigits_ne_nil, trivial⟩, Nat.ofDigitChars_ten_toDigits]
  one_line n := by
    intro ch hch
    rcases List.mem_append.mp hch with hch | hch
    · have hdigit : ch.isDigit = true :=
        Nat.isDigit_of_mem_toDigits (by decide) (by decide) hch
      constructor <;> rintro rfl <;> simp at hdigit
    · rw [List.mem_singleton.mp hch]
      exact h'

/-- A decimal number starts with a digit. -/
theorem nat_head (stop : Char) (h : stop.isDigit = false) (h' : stop ≠ '\n' ∧ stop ≠ '\r')
    (n : Nat) : ∃ digit rest, digit.isDigit = true ∧ (nat stop h h').print n = digit :: rest := by
  obtain ⟨digit, rest, hdigits⟩ :=
    List.exists_cons_of_ne_nil (Nat.toDigits_ne_nil (n := n) (b := 10))
  have hdigit : digit.isDigit = true :=
    Nat.isDigit_of_mem_toDigits (b := 10) (n := n) (by decide) (by decide) (by simp [hdigits])
  exact ⟨digit, rest ++ [stop], hdigit, by simp [nat, hdigits]⟩

/-- An integer in decimal, with the character that ends it. -/
def int (stop : Char) (h : stop.isDigit = false := by decide)
    (h' : stop ≠ '\n' ∧ stop ≠ '\r' := by decide) : LineCodec Int :=
  (either (after "-" (nat stop h h')) (nat stop h h') (by
    intro n rest
    obtain ⟨digit, more, hdigit, hprint⟩ := nat_head stop h h' n
    have hne : '-' ≠ digit := by
      rintro rfl
      simp at hdigit
    simp [after, hprint, stripFront, hne])).map
    (fun
      | .inl n => -n
      | .inr n => n)
    (fun i => if i < 0 then .inl (-i).toNat else .inr i.toNat)
    (by
      intro i
      by_cases hi : i < 0
      · simp only [hi, if_true]
        omega
      · simp only [hi, if_false]
        omega)

/-- An integer starts with a minus sign or a digit. -/
theorem int_head (stop : Char) (h : stop.isDigit = false) (h' : stop ≠ '\n' ∧ stop ≠ '\r')
    (i : Int) : ∃ first rest, (first = '-' ∨ first.isDigit = true) ∧
      (int stop h h').print i = first :: rest := by
  by_cases hi : i < 0
  · exact ⟨'-', (nat stop h h').print (-i).toNat, .inl rfl, by simp [int, map, either, after, hi]⟩
  · obtain ⟨digit, rest, hdigit, hprint⟩ := nat_head stop h h' i.toNat
    exact ⟨digit, rest, .inr hdigit, by simp [int, map, either, hi, hprint]⟩

/-- A text without a character, with the character behind it. -/
def upTo (stop : Char) (h' : stop ≠ '\n' ∧ stop ≠ '\r' := by decide) :
    LineCodec {text : List Char // stop ∉ text ∧ NoBreaks text} where
  print text := text.val ++ [stop]
  parse input :=
    let text := input.takeWhile (· ≠ stop)
    match input.dropWhile (· ≠ stop) with
    | [] => none
    | _ :: rest => if h : stop ∉ text ∧ NoBreaks text then some (⟨text, h⟩, rest) else none
  parse_print text rest := by
    obtain ⟨text, hstop, hbreaks⟩ := text
    have hbefore : ∀ ch ∈ text, decide (ch ≠ stop) = true :=
      fun ch hch => decide_eq_true fun heq => hstop (heq ▸ hch)
    have htake : (text ++ stop :: rest).takeWhile (fun ch => decide (ch ≠ stop)) = text := by
      rw [List.takeWhile_append_of_pos hbefore, List.takeWhile_cons_of_neg (by simp),
        List.append_nil]
    have hdrop : (text ++ stop :: rest).dropWhile (fun ch => decide (ch ≠ stop)) =
        stop :: rest := by
      rw [List.dropWhile_append_of_pos hbefore, List.dropWhile_cons_of_neg (by simp)]
    simp only [List.append_assoc, List.singleton_append, htake, hdrop]
    exact dif_pos ⟨hstop, hbreaks⟩
  one_line text := by
    refine NoBreaks.append text.property.2 fun ch hch => ?_
    rw [List.mem_singleton.mp hch]
    exact h'

/-- A value, or a fixed text in its absence; values must not begin with the first character of the
text. -/
def optional (text : String) (codec : LineCodec α)
    (hfirst : ∀ a rest, stripFront text.toList (codec.print a ++ rest) = none)
    (h : NoBreaks text.toList := by decide) : LineCodec (Option α) :=
  (either (after text unit h) codec (by simp [after, hfirst])).map
    (fun
      | .inl () => none
      | .inr a => some a)
    (fun
      | none => .inl ()
      | some a => .inr a)
    (by rintro (_ | a) <;> rfl)

/-! ## Quoted strings -/

/-- The two characters that spell a small code in hexadecimal. -/
def hexPair (code : Nat) : List Char := [Nat.digitChar (code / 16), Nat.digitChar (code % 16)]

/-- A character inside quotes: quotes, backslashes and control characters are escaped. -/
def escape (ch : Char) : List Char :=
  if ch = '"' then ['\\', '"']
  else if ch = '\\' then ['\\', '\\']
  else if ch = '\n' then ['\\', 'n']
  else if ch = '\r' then ['\\', 'r']
  else if ch = '\t' then ['\\', 't']
  else if ch = Char.ofNat 8 then ['\\', 'b']
  else if ch = Char.ofNat 12 then ['\\', 'f']
  else if ch.toNat < 32 then ['\\', 'u', '0', '0'] ++ hexPair ch.toNat
  else [ch]

/-- The value of a hexadecimal digit. -/
def hexValue (ch : Char) : Nat := if ch.isDigit then ch.toNat - 48 else ch.toNat - 87

/-- Read characters up to the closing quote. -/
def unescape : List Char → Option (List Char × List Char)
  | [] => none
  | '"' :: rest => some ([], rest)
  | '\\' :: 'u' :: _ :: _ :: high :: low :: rest =>
      (unescape rest).map fun r => (Char.ofNat (hexValue high * 16 + hexValue low) :: r.1, r.2)
  | '\\' :: ch :: rest =>
      (unescape rest).map fun r =>
        ((match ch with
          | 'n' => '\n'
          | 'r' => '\r'
          | 't' => '\t'
          | 'b' => Char.ofNat 8
          | 'f' => Char.ofNat 12
          | other => other) :: r.1, r.2)
  | ch :: rest => (unescape rest).map fun r => (ch :: r.1, r.2)

/-- An escaped character is read back. -/
theorem unescape_escape (ch : Char) (rest : List Char) :
    unescape (escape ch ++ rest) = (unescape rest).map fun r => (ch :: r.1, r.2) := by
  unfold escape
  -- the seven characters with an escape letter of their own
  iterate 7
    split
    · rename_i h
      subst h
      simp [unescape]
  split
  · rename_i hcontrol
    have hvalue : ∀ d < 16, hexValue (Nat.digitChar d) = d := by decide
    have hcode : hexValue (Nat.digitChar (ch.toNat / 16)) * 16 +
        hexValue (Nat.digitChar (ch.toNat % 16)) = ch.toNat := by
      rw [hvalue _ (by omega), hvalue _ (by omega)]
      omega
    simp only [hexPair, List.cons_append, List.nil_append, unescape, hcode, Char.ofNat_toNat]
  · rename_i hquote hslash _ _ _ _ _ _
    rw [List.singleton_append, unescape]
    · exact hquote
    · exact fun _ _ _ _ _ h => absurd h hslash
    · exact fun _ _ h => absurd h hslash

/-- An escaped character has no line breaks. -/
theorem escape_no_breaks (ch : Char) : NoBreaks (escape ch) := by
  unfold escape
  repeat' split
  iterate 7 decide
  · rename_i hcontrol
    have hdigit : ∀ d < 16, Nat.digitChar d ≠ '\n' ∧ Nat.digitChar d ≠ '\r' := by decide
    refine NoBreaks.append (by decide) ?_
    intro c hc
    rcases List.mem_cons.mp hc with rfl | hc
    · exact hdigit _ (by omega)
    · rw [List.mem_singleton.mp hc]
      exact hdigit _ (by omega)
  · rename_i hline hreturn _ _ _ _
    intro c hc
    rw [List.mem_singleton.mp hc]
    exact ⟨hline, hreturn⟩

/-- The escaped characters of a text, up to the closing quote. -/
theorem unescape_text (text rest : List Char) :
    unescape (text.flatMap escape ++ '"' :: rest) = some (text, rest) := by
  induction text with
  | nil => simp [unescape]
  | cons ch text ih =>
      rw [List.flatMap_cons, List.append_assoc, unescape_escape, ih]
      rfl

/-- A string in quotes. -/
def quoted : LineCodec String where
  print s := '"' :: s.toList.flatMap escape ++ ['"']
  parse
    | '"' :: rest => (unescape rest).map fun r => (String.ofList r.1, r.2)
    | _ => none
  parse_print s rest := by
    rw [List.append_assoc, List.cons_append, List.singleton_append]
    simp [unescape_text]
  one_line s := by
    refine NoBreaks.append ?_ (by decide)
    intro ch hch
    rcases List.mem_cons.mp hch with rfl | hch
    · decide
    · obtain ⟨source, -, hmem⟩ := List.mem_flatMap.mp hch
      exact escape_no_breaks source ch hmem

end LineCodec

end Fieldbus
