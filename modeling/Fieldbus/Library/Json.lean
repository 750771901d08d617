import Fieldbus.Library.LineCodec

/-!
# JSON trees

Trees of JSON values without fractions, the printer that sets every element on a line of its own
(`Json.pretty`), and a parser (`Json.parse`) that skips whitespace between tokens and reads back
what is printed, from the front of any longer text that does not go on with a digit
(`parse_pretty`). Braces are written by their codes.
-/

namespace Fieldbus

open LineCodec

inductive Json where
  | null
  | bool (b : Bool)
  | int (i : Int)
  | str (s : String)
  | arr (items : List Json)
  | obj (fields : List (String × Json))

namespace Json

/-! ## Printing -/

/-- The start of a line at the given depth. -/
def newline (depth : Nat) : List Char := '\n' :: List.replicate (2 * depth) ' '

def intText (i : Int) : List Char :=
  if i < 0 then '-' :: Nat.toDigits 10 (-i).toNat else Nat.toDigits 10 i.toNat

def boolText (b : Bool) : List Char := if b then "true".toList else "false".toList

mutual

/-- The text of a value, whose elements stand one level deeper. -/
def pretty (depth : Nat) : Json → List Char
  | .null => "null".toList
  | .bool b => boolText b
  | .int i => intText i
  | .str s => quoted.print s
  | .arr [] => ['[', ']']
  | .arr (v :: vs) => '[' :: (newline (depth + 1) ++ v.pretty (depth + 1) ++ prettyItems depth vs)
  | .obj [] => ['\x7b', '\x7d']
  | .obj ((name, v) :: fs) =>
      '\x7b' :: (newline (depth + 1) ++ quoted.print name ++ [':', ' '] ++
        v.pretty (depth + 1) ++ prettyFields depth fs)

/-- The elements of an array after the first, and its end. -/
def prettyItems (depth : Nat) : List Json → List Char
  | [] => newline depth ++ [']']
  | v :: vs => ',' :: (newline (depth + 1) ++ v.pretty (depth + 1) ++ prettyItems depth vs)

/-- The fields of an object after the first, and its end. -/
def prettyFields (depth : Nat) : List (String × Json) → List Char
  | [] => newline depth ++ ['\x7d']
  | (name, v) :: fs =>
      ',' :: (newline (depth + 1) ++ quoted.print name ++ [':', ' '] ++
        v.pretty (depth + 1) ++ prettyFields depth fs)

end

/-! ## Parsing -/

def isSpace (ch : Char) : Bool := ch == ' ' || ch == '\n' || ch == '\r' || ch == '\t'

/-- Skip whitespace. -/
def skip (input : List Char) : List Char := input.dropWhile isSpace

def natural (input : List Char) : Option (Nat × List Char) :=
  let digits := input.takeWhile Char.isDigit
  if digits = [] then none
  else some (Nat.ofDigitChars 10 digits 0, input.dropWhile Char.isDigit)

def number : List Char → Option (Int × List Char)
  | '-' :: rest => (natural rest).map fun r => (-(r.1 : Int), r.2)
  | input => (natural input).map fun r => ((r.1 : Int), r.2)

/-- A value that is no string, array or object. -/
def literal (input : List Char) : Option (Json × List Char) :=
  ((stripFront "null".toList input).map fun rest => (.null, rest)).or
    (((stripFront "true".toList input).map fun rest => (.bool true, rest)).or
      (((stripFront "false".toList input).map fun rest => (.bool false, rest)).or
        ((number input).map fun r => (.int r.1, r.2))))

mutual

/-- A value at the front of the input. -/
def value : Nat → List Char → Option (Json × List Char)
  | 0, _ => none
  | fuel + 1, input =>
      match skip input with
      | '"' :: rest => (unescape rest).map fun r => (.str (String.ofList r.1), r.2)
      | '[' :: rest =>
          match skip rest with
          | ']' :: rest => some (.arr [], rest)
          | rest => (items fuel rest).map fun r => (.arr r.1, r.2)
      | '\x7b' :: rest =>
          match skip rest with
          | '\x7d' :: rest => some (.obj [], rest)
          | rest => (fields fuel rest).map fun r => (.obj r.1, r.2)
      | rest => literal rest

/-- The elements of an array, some, and its end. -/
def items : Nat → List Char → Option (List Json × List Char)
  | 0, _ => none
  | fuel + 1, input =>
      (value fuel input).bind fun v =>
        match skip v.2 with
        | ',' :: rest => (items fuel rest).map fun r => (v.1 :: r.1, r.2)
        | ']' :: rest => some ([v.1], rest)
        | _ => none

/-- The fields of an object, some, and its end. -/
def fields : Nat → List Char → Option (List (String × Json) × List Char)
  | 0, _ => none
  | fuel + 1, input =>
      (quoted.parse (skip input)).bind fun name =>
        match skip name.2 with
        | ':' :: rest =>
            (value fuel rest).bind fun v =>
              match skip v.2 with
              | ',' :: rest => (fields fuel rest).map fun r => ((name.1, v.1) :: r.1, r.2)
              | '\x7d' :: rest => some ([(name.1, v.1)], rest)
              | _ => none
        | _ => none

end

/-- The value at the front of a text, with what is left of the text. -/
def parse (text : List Char) : Option (Json × List Char) := value text.length text

/-! ## What is printed is read -/

/-- The text does not go on with a digit. -/
def Stops (rest : List Char) : Prop := ∀ ch ∈ rest.head?, ch.isDigit = false

theorem skip_newline (depth : Nat) (input : List Char) :
    skip (newline depth ++ input) = skip input := by
  refine List.dropWhile_append_of_pos fun ch hch => ?_
  rcases List.mem_cons.mp hch with rfl | hch
  · rfl
  · rw [List.eq_of_mem_replicate hch]
    rfl

theorem skip_cons {ch : Char} (h : isSpace ch = false) (rest : List Char) :
    skip (ch :: rest) = ch :: rest := List.dropWhile_cons_of_neg (by simp [h])

theorem natural_digits (n : Nat) {rest : List Char} (hrest : Stops rest) :
    natural (Nat.toDigits 10 n ++ rest) = some (n, rest) := by
  have hdigits : ∀ ch ∈ Nat.toDigits 10 n, ch.isDigit = true :=
    fun ch hch => Nat.isDigit_of_mem_toDigits (by decide) (by decide) hch
  have hend : rest.takeWhile Char.isDigit = [] ∧ rest.dropWhile Char.isDigit = rest := by
    cases rest with
    | nil => exact ⟨rfl, rfl⟩
    | cons ch rest =>
        have hstop : ch.isDigit = false := hrest ch rfl
        exact ⟨List.takeWhile_cons_of_neg (by simp [hstop]),
          List.dropWhile_cons_of_neg (by simp [hstop])⟩
  have htake : (Nat.toDigits 10 n ++ rest).takeWhile Char.isDigit = Nat.toDigits 10 n := by
    rw [List.takeWhile_append_of_pos hdigits, hend.1, List.append_nil]
  rw [natural, htake, List.dropWhile_append_of_pos hdigits, hend.2,
    if_neg Nat.toDigits_ne_nil, Nat.ofDigitChars_ten_toDigits]

/-- An integer starts with a minus sign or a digit, and its text reads as it. -/
theorem int_text_spec (i : Int) :
    (∃ ch rest, (ch = '-' ∨ ch.isDigit = true) ∧ intText i = ch :: rest) ∧
      ∀ rest, Stops rest → number (intText i ++ rest) = some (i, rest) := by
  by_cases hi : i < 0
  · refine ⟨⟨'-', Nat.toDigits 10 (-i).toNat, .inl rfl, if_pos hi⟩, fun rest hrest => ?_⟩
    rw [intText, if_pos hi, List.cons_append, number, natural_digits _ hrest, Option.map_some,
      Int.toNat_of_nonneg (by omega), Int.neg_neg]
  · obtain ⟨digit, more, hdigits⟩ :=
      List.exists_cons_of_ne_nil (Nat.toDigits_ne_nil (n := i.toNat) (b := 10))
    have hdigit : digit.isDigit = true := Nat.isDigit_of_mem_toDigits (b := 10) (n := i.toNat)
      (by decide) (by decide) (by simp [hdigits])
    have hne : digit ≠ '-' := by
      rintro rfl
      simp at hdigit
    refine ⟨⟨digit, more, .inr hdigit, by rw [intText, if_neg hi, hdigits]⟩, fun rest hrest => ?_⟩
    have hread := natural_digits i.toNat hrest
    rw [hdigits] at hread
    rw [intText, if_neg hi, hdigits, List.cons_append, number, ← List.cons_append, hread,
      Option.map_some, Int.toNat_of_nonneg (by omega)]
    simpa using hne

/-- A value whose first character opens no string, array or object. -/
theorem value_literal {ch : Char} (hspace : isSpace ch = false)
    (h : ch ≠ '"' ∧ ch ≠ '[' ∧ ch ≠ '\x7b') (fuel : Nat) (rest : List Char) :
    value (fuel + 1) (ch :: rest) = literal (ch :: rest) := by
  rw [value, skip_cons hspace]
  split
  · rename_i heq
    exact absurd (List.cons.inj heq).1 h.1
  · rename_i heq
    exact absurd (List.cons.inj heq).1 h.2.1
  · rename_i heq
    exact absurd (List.cons.inj heq).1 h.2.2
  · rfl

theorem value_newline (fuel depth : Nat) (input : List Char) :
    value fuel (newline depth ++ input) = value fuel input := by
  cases fuel with
  | zero => rfl
  | succ fuel => rw [value, value, skip_newline]

theorem value_space (fuel : Nat) (input : List Char) :
    value fuel (' ' :: input) = value fuel input := by
  cases fuel with
  | zero => rfl
  | succ fuel => rw [value, value]; rfl

theorem literal_int (i : Int) {rest : List Char} (hrest : Stops rest) (fuel : Nat) :
    value (fuel + 1) (intText i ++ rest) = some (.int i, rest) := by
  obtain ⟨⟨ch, more, hch, hprint⟩, hread⟩ := int_text_spec i
  have hread := hread rest hrest
  rw [hprint, List.cons_append] at hread ⊢
  -- the first character is none of those that begin anything else
  have hne (other : Char) (hother : other ≠ '-' ∧ other.isDigit = false) : ch ≠ other := by
    rintro rfl
    obtain rfl | hdigit := hch
    · exact hother.1 rfl
    · rw [hother.2] at hdigit
      cases hdigit
  have hspace : isSpace ch = false := by
    simp [isSpace, hne ' ' (by decide), hne '\n' (by decide), hne '\r' (by decide),
      hne '\t' (by decide)]
  rw [value_literal hspace ⟨hne _ (by decide), hne _ (by decide), hne _ (by decide)⟩, literal,
    hread]
  simp [stripFront, (hne 'n' (by decide)).symm, (hne 't' (by decide)).symm,
    (hne 'f' (by decide)).symm]

mutual

/-- How much fuel the text of a value takes. -/
def size : Json → Nat
  | .arr items => 1 + itemsSize items
  | .obj fields => 1 + fieldsSize fields
  | _ => 1

def itemsSize : List Json → Nat
  | [] => 0
  | v :: vs => 1 + v.size + itemsSize vs

def fieldsSize : List (String × Json) → Nat
  | [] => 0
  | (_, v) :: fs => 1 + v.size + fieldsSize fs

end

mutual

/-- The text of a value is at least as long. -/
theorem size_le (depth : Nat) (j : Json) : j.size ≤ (j.pretty depth).length := by
  cases j with
  | null => simp [size, pretty]
  | bool b => cases b <;> simp [size, pretty, boolText]
  | int i =>
      obtain ⟨⟨ch, rest, -, hprint⟩, -⟩ := int_text_spec i
      simp [size, pretty, hprint]
  | str s => simp [size, pretty, quoted]
  | arr vs =>
      cases vs with
      | nil => simp [size, itemsSize, pretty]
      | cons v vs =>
          have hv := size_le (depth + 1) v
          have hvs := items_size_le depth vs
          simp only [size, itemsSize, pretty, newline, List.length_cons, List.length_append]
          omega
  | obj fs =>
      cases fs with
      | nil => simp [size, fieldsSize, pretty]
      | cons f fs =>
          obtain ⟨name, v⟩ := f
          have hv := size_le (depth + 1) v
          have hfs := fields_size_le depth fs
          simp only [size, fieldsSize, pretty, newline, List.length_cons, List.length_append]
          omega

theorem items_size_le (depth : Nat) (vs : List Json) :
    itemsSize vs ≤ (prettyItems depth vs).length := by
  cases vs with
  | nil => simp [itemsSize]
  | cons v vs =>
      have hv := size_le (depth + 1) v
      have hvs := items_size_le depth vs
      simp only [itemsSize, prettyItems, newline, List.length_cons, List.length_append]
      omega

theorem fields_size_le (depth : Nat) (fs : List (String × Json)) :
    fieldsSize fs ≤ (prettyFields depth fs).length := by
  cases fs with
  | nil => simp [fieldsSize]
  | cons f fs =>
      obtain ⟨name, v⟩ := f
      have hv := size_le (depth + 1) v
      have hfs := fields_size_le depth fs
      simp only [fieldsSize, prettyFields, newline, List.length_cons, List.length_append]
      omega

end

/-- With this much fuel every value that takes no more is read from its text. -/
def ReadsValues (fuel : Nat) : Prop :=
  ∀ (j : Json) (depth : Nat) (rest : List Char), j.size ≤ fuel → Stops rest →
    value fuel (j.pretty depth ++ rest) = some (j, rest)

def ReadsItems (fuel : Nat) : Prop :=
  ∀ (v : Json) (vs : List Json) (depth : Nat) (rest : List Char), itemsSize (v :: vs) ≤ fuel →
    items fuel (newline (depth + 1) ++ v.pretty (depth + 1) ++ prettyItems depth vs ++ rest) =
      some (v :: vs, rest)

def ReadsFields (fuel : Nat) : Prop :=
  ∀ (name : String) (v : Json) (fs : List (String × Json)) (depth : Nat) (rest : List Char),
    fieldsSize ((name, v) :: fs) ≤ fuel →
    fields fuel (newline (depth + 1) ++ quoted.print name ++ [':', ' '] ++ v.pretty (depth + 1) ++
      prettyFields depth fs ++ rest) = some ((name, v) :: fs, rest)

theorem stops_cons {ch : Char} (h : ch.isDigit = false) (rest : List Char) :
    Stops (ch :: rest) := by
  intro other hother
  cases hother
  exact h

theorem reads_items {fuel : Nat} (hvalues : ReadsValues fuel) (hitems : ReadsItems fuel) :
    ReadsItems (fuel + 1) := by
  intro v vs depth rest hfuel
  simp only [itemsSize] at hfuel
  cases vs with
  | nil =>
      have hv := hvalues v (depth + 1) (newline depth ++ ']' :: rest) (by omega)
        (stops_cons (by decide) _)
      simp only [prettyItems, List.append_assoc, List.singleton_append, items, value_newline, hv,
        Option.bind_some, skip_newline]
      rfl
  | cons v' vs =>
      have hv := hvalues v (depth + 1)
        (',' :: (newline (depth + 1) ++ v'.pretty (depth + 1) ++ prettyItems depth vs ++ rest))
        (by omega) (stops_cons (by decide) _)
      have hvs := hitems v' vs depth rest (by simp only [itemsSize] at hfuel ⊢; omega)
      simp only [prettyItems, List.append_assoc, List.cons_append] at hv hvs ⊢
      simp only [items, value_newline, hv, Option.bind_some, skip_cons (show isSpace ',' = false
        from rfl), hvs, Option.map_some]

/-- A quoted text is read after the start of a line. -/
theorem quoted_newline (depth : Nat) (s : String) (rest : List Char) :
    quoted.parse (skip (newline depth ++ (quoted.print s ++ rest))) = some (s, rest) := by
  have hquote : quoted.print s = '"' :: (s.toList.flatMap escape ++ ['"']) := rfl
  have hread := quoted.parse_print s rest
  rw [skip_newline, hquote, List.cons_append, skip_cons (by decide), ← List.cons_append, ← hquote,
    hread]

theorem reads_fields {fuel : Nat} (hvalues : ReadsValues fuel) (hfields : ReadsFields fuel) :
    ReadsFields (fuel + 1) := by
  intro name v fs depth rest hfuel
  simp only [fieldsSize] at hfuel
  have hcolon : isSpace ':' = false := rfl
  cases fs with
  | nil =>
      have hv := hvalues v (depth + 1) (newline depth ++ '\x7d' :: rest) (by omega)
        (stops_cons (by decide) _)
      simp only [prettyFields, List.append_assoc, List.cons_append, List.nil_append, fields,
        quoted_newline, Option.bind_some, skip_cons hcolon, value_space, hv]
      rw [skip_newline]
      rfl
  | cons f fs =>
      obtain ⟨name', v'⟩ := f
      have hv := hvalues v (depth + 1)
        (',' :: (newline (depth + 1) ++ quoted.print name' ++ [':', ' '] ++
          v'.pretty (depth + 1) ++ prettyFields depth fs ++ rest))
        (by omega) (stops_cons (by decide) _)
      have hfs := hfields name' v' fs depth rest (by simp only [fieldsSize] at hfuel ⊢; omega)
      simp only [prettyFields, List.append_assoc, List.cons_append, List.nil_append] at hv hfs ⊢
      simp only [fields, quoted_newline, Option.bind_some, skip_cons hcolon, value_space, hv,
        skip_cons (show isSpace ',' = false from rfl), hfs, Option.map_some]

/-- The text of a value begins with neither whitespace nor the end of an array. -/
theorem pretty_head (depth : Nat) (j : Json) :
    ∃ ch more, j.pretty depth = ch :: more ∧ isSpace ch = false ∧ ch ≠ ']' := by
  cases j with
  | null => exact ⟨_, _, rfl, by decide, by decide⟩
  | bool b => cases b <;> exact ⟨_, _, rfl, by decide, by decide⟩
  | int i =>
      obtain ⟨⟨ch, more, hch, hprint⟩, -⟩ := int_text_spec i
      refine ⟨ch, more, hprint, ?_, ?_⟩
      · obtain rfl | hdigit := hch
        · rfl
        · have hne (other : Char) (hother : other.isDigit = false) : ch ≠ other := by
            rintro rfl
            rw [hother] at hdigit
            cases hdigit
          simp [isSpace, hne ' ' rfl, hne '\n' rfl, hne '\r' rfl, hne '\t' rfl]
      · rintro rfl
        simp at hch
  | str s => exact ⟨_, _, rfl, by decide, by decide⟩
  | arr vs => cases vs <;> exact ⟨_, _, rfl, by decide, by decide⟩
  | obj fs => cases fs <;> exact ⟨_, _, rfl, by decide, by decide⟩

theorem items_newline (fuel depth : Nat) (input : List Char) :
    items fuel (newline depth ++ input) = items fuel input := by
  cases fuel with
  | zero => rfl
  | succ fuel => rw [items, items, value_newline]

theorem fields_newline (fuel depth : Nat) (input : List Char) :
    fields fuel (newline depth ++ input) = fields fuel input := by
  cases fuel with
  | zero => rfl
  | succ fuel => rw [fields, fields, skip_newline]

/-- An array with elements. -/
theorem value_array {rest more : List Char} {ch : Char} (h : skip rest = ch :: more)
    (hne : ch ≠ ']') (fuel : Nat) :
    value (fuel + 1) ('[' :: rest) = (items fuel (ch :: more)).map fun r => (.arr r.1, r.2) := by
  simp only [value, skip_cons (show isSpace '[' = false from rfl), h]
  split
  · rename_i heq
    exact absurd (List.cons.inj heq).1 hne
  · rfl

/-- An object with fields. -/
theorem value_object {rest more : List Char} {ch : Char} (h : skip rest = ch :: more)
    (hne : ch ≠ '\x7d') (fuel : Nat) :
    value (fuel + 1) ('\x7b' :: rest) =
      (fields fuel (ch :: more)).map fun r => (.obj r.1, r.2) := by
  simp only [value, skip_cons (show isSpace '\x7b' = false from rfl), h]
  split
  · rename_i heq
    exact absurd (List.cons.inj heq).1 hne
  · rfl

/-- An object is read whatever follows its end. -/
theorem reads_object {fuel : Nat} (hfields : ReadsFields fuel) (fs : List (String × Json))
    (depth : Nat) (rest : List Char) (hfuel : (Json.obj fs).size ≤ fuel + 1) :
    value (fuel + 1) ((Json.obj fs).pretty depth ++ rest) = some (.obj fs, rest) := by
  cases fs with
  | nil => rfl
  | cons f fs =>
      obtain ⟨name, v⟩ := f
      have hfs := hfields name v fs depth rest (by simp only [size] at hfuel; omega)
      have hquote : quoted.print name = '"' :: (name.toList.flatMap escape ++ ['"']) := rfl
      simp only [List.append_assoc] at hfs
      rw [fields_newline, hquote, List.cons_append] at hfs
      have hskip : skip (newline (depth + 1) ++ quoted.print name ++ [':', ' '] ++
          v.pretty (depth + 1) ++ prettyFields depth fs ++ rest) = '"' ::
            (name.toList.flatMap escape ++ ['"'] ++ ([':', ' '] ++ (v.pretty (depth + 1) ++
              (prettyFields depth fs ++ rest)))) := by
        simp only [List.append_assoc]
        rw [skip_newline, hquote, List.cons_append, skip_cons (by decide)]
        simp only [List.append_assoc]
      rw [pretty, List.cons_append, value_object hskip (by decide), hfs]
      rfl

theorem reads_values {fuel : Nat} (hitems : ReadsItems fuel) (hfields : ReadsFields fuel) :
    ReadsValues (fuel + 1) := by
  intro j depth rest hfuel hrest
  cases j with
  | null => rfl
  | bool b => cases b <;> rfl
  | int i => exact literal_int i hrest fuel
  | str s =>
      have hquote : (Json.str s).pretty depth = '"' :: (s.toList.flatMap escape ++ ['"']) := rfl
      rw [hquote, List.cons_append, value, skip_cons (by decide)]
      simp [unescape_text]
  | arr vs =>
      cases vs with
      | nil => rfl
      | cons v vs =>
          have hvs := hitems v vs depth rest (by simp only [size] at hfuel; omega)
          obtain ⟨ch, more, hhead, hspace, hne⟩ := pretty_head (depth + 1) v
          simp only [List.append_assoc] at hvs
          rw [items_newline, hhead, List.cons_append] at hvs
          have hskip : skip (newline (depth + 1) ++ v.pretty (depth + 1) ++
              prettyItems depth vs ++ rest) = ch :: (more ++ (prettyItems depth vs ++ rest)) := by
            simp only [List.append_assoc]
            rw [skip_newline, hhead, List.cons_append, skip_cons hspace]
          rw [pretty, List.cons_append, value_array hskip hne, hvs]
          rfl
  | obj fs => exact reads_object hfields fs depth rest hfuel

/-- Every value is read from its text. -/
theorem reads_all (fuel : Nat) : ReadsValues fuel ∧ ReadsItems fuel ∧ ReadsFields fuel := by
  induction fuel with
  | zero =>
      refine ⟨fun j _ _ hfuel _ => ?_, fun v vs _ _ hfuel => ?_, fun name v fs _ _ hfuel => ?_⟩
      · cases j <;> simp [size] at hfuel
      · simp [itemsSize] at hfuel
      · simp [fieldsSize] at hfuel
  | succ fuel ih =>
      obtain ⟨hvalues, hitems, hfields⟩ := ih
      exact ⟨reads_values hitems hfields, reads_items hvalues hitems,
        reads_fields hvalues hfields⟩

/-- The parser reads back what is printed, at the front of any text that does not go on with a
digit. -/
theorem parse_pretty (j : Json) (depth : Nat) {rest : List Char} (hrest : Stops rest) :
    parse (j.pretty depth ++ rest) = some (j, rest) := by
  have hsize := size_le depth j
  exact (reads_all _).1 j depth rest (by rw [List.length_append]; omega) hrest

/-- An object is read at the front of any text. -/
theorem parse_object (fs : List (String × Json)) (depth : Nat) (rest : List Char) :
    parse ((Json.obj fs).pretty depth ++ rest) = some (.obj fs, rest) := by
  have hsize := size_le depth (.obj fs)
  have hlength : ((Json.obj fs).pretty depth ++ rest).length = _ := List.length_append
  rw [parse]
  cases hfuel : ((Json.obj fs).pretty depth ++ rest).length with
  | zero =>
      rw [size] at hsize
      omega
  | succ fuel => exact reads_object (reads_all fuel).2.2 fs depth rest (by omega)

end Json

end Fieldbus
