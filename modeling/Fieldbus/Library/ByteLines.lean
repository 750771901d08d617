import Mathlib.Data.List.Basic

/-!
# Newline-terminated lines of a byte file

`lines` cuts a byte sequence the way `BufRead::lines` does: at line feeds, dropping one carriage
return before a line feed, and with a last line that may lack its line feed. `lines_sealed` says
that a file of complete lines is read back line by line, and `lines_torn` that a last line without
its line feed still counts.
-/

namespace Fieldbus.ByteLines

/-- The line feed. -/
def newline : UInt8 := 10
/-- The carriage return. -/
def carriageReturn : UInt8 := 13

/-- Drop the carriage return that precedes a line feed. -/
def stripReturn (line : List UInt8) : List UInt8 :=
  if line.getLast? = some carriageReturn then line.dropLast else line

/-- The lines of the bytes that follow the begun line `current`. -/
def linesFrom (current : List UInt8) : List UInt8 → List (List UInt8)
  | [] => if current = [] then [] else [current]
  | byte :: rest =>
      if byte = newline then stripReturn current :: linesFrom [] rest
      else linesFrom (current ++ [byte]) rest

/-- The lines of a file. -/
def lines (file : List UInt8) : List (List UInt8) := linesFrom [] file

/-- A text that fits on one line: no line feed and no carriage return. -/
def OneLine (text : List UInt8) : Prop :=
  ∀ byte ∈ text, byte ≠ newline ∧ byte ≠ carriageReturn

/-- The texts, each with its line feed. -/
def sealed (texts : List (List UInt8)) : List UInt8 :=
  texts.flatMap fun text => text ++ [newline]

theorem sealed_append (first second : List (List UInt8)) :
    sealed (first ++ second) = sealed first ++ sealed second :=
  List.flatMap_append

theorem sealed_singleton (text : List UInt8) : sealed [text] = text ++ [newline] := by
  simp [sealed]

variable {text : List UInt8} {texts : List (List UInt8)}

/-- A line without line feeds is collected as it stands. -/
theorem lines_from_text (h : OneLine text) (current rest : List UInt8) :
    linesFrom current (text ++ rest) = linesFrom (current ++ text) rest := by
  induction text generalizing current with
  | nil => simp
  | cons byte text ih =>
      have hbyte := (h byte List.mem_cons_self).1
      rw [List.cons_append, linesFrom, if_neg hbyte,
        ih (fun b hb => h b (List.mem_cons_of_mem byte hb)), List.append_assoc]
      rfl

/-- A one-line text keeps its last byte. -/
theorem strip_return (h : OneLine text) : stripReturn text = text := by
  rw [stripReturn, if_neg]
  intro hlast
  exact (h carriageReturn (List.mem_of_getLast? hlast)).2 rfl

/-- A complete line is the first line of the file. -/
theorem lines_cons (h : OneLine text) (rest : List UInt8) :
    lines (text ++ newline :: rest) = text :: lines rest := by
  rw [lines, lines_from_text h, List.nil_append, linesFrom, if_pos rfl, strip_return h, lines]

/-- A file of complete lines followed by anything. -/
theorem lines_sealed_append (h : ∀ text ∈ texts, OneLine text) (rest : List UInt8) :
    lines (sealed texts ++ rest) = texts ++ lines rest := by
  induction texts with
  | nil => rfl
  | cons text texts ih =>
      have htail := ih fun t ht => h t (List.mem_cons_of_mem text ht)
      have hcons : sealed (text :: texts) ++ rest = text ++ newline :: (sealed texts ++ rest) := by
        simp [sealed]
      rw [hcons, lines_cons (h text List.mem_cons_self), htail, List.cons_append]

/-- A file of complete lines is read back line by line. -/
theorem lines_sealed (h : ∀ text ∈ texts, OneLine text) : lines (sealed texts) = texts := by
  simpa [lines, linesFrom] using lines_sealed_append h []

/-- A text without a line feed is one line. -/
theorem lines_text (h : OneLine text) (hne : text ≠ []) : lines text = [text] := by
  rw [lines, ← List.append_nil text, lines_from_text h]
  simp [linesFrom, hne]

/-- A last line without its line feed still counts. -/
theorem lines_torn (h : ∀ text ∈ texts, OneLine text) (htext : OneLine text) (hne : text ≠ []) :
    lines (sealed texts ++ text) = texts ++ [text] := by
  rw [lines_sealed_append h, lines_text htext hne]

/-! ## Where a file ends -/

/-- The file is empty or ends with a line feed, so that appended bytes begin a line. -/
def AtBoundary (file : List UInt8) : Prop := file = [] ∨ file.getLast? = some newline

@[simp] theorem at_boundary_nil : AtBoundary [] := .inl rfl

@[simp] theorem at_boundary_newline (file : List UInt8) : AtBoundary (file ++ [newline]) :=
  .inr (by simp)

/-- Behind a line feed a new line begins. -/
theorem lines_from_append {file : List UInt8} (h : file.getLast? = some newline)
    (current rest : List UInt8) :
    linesFrom current (file ++ rest) = linesFrom current file ++ lines rest := by
  induction file generalizing current with
  | nil => cases h
  | cons byte file ih =>
      rw [List.cons_append, linesFrom, linesFrom]
      cases file with
      | nil =>
          obtain rfl : byte = newline := by simpa using h
          rw [if_pos rfl, if_pos rfl]
          simp [lines, linesFrom]
      | cons next more =>
          rw [List.getLast?_cons_cons] at h
          split <;> rw [ih h]
          rfl

/-- What is appended at a line boundary adds its lines. -/
theorem lines_append {file : List UInt8} (h : AtBoundary file) (rest : List UInt8) :
    lines (file ++ rest) = lines file ++ lines rest := by
  rcases h with rfl | hlast
  · rfl
  · exact lines_from_append hlast [] rest

/-- A text followed by nothing or by a line feed is the first line. -/
theorem lines_head (h : OneLine text) (hne : text ≠ []) {rest : List UInt8}
    (hrest : rest = [] ∨ ∃ more, rest = newline :: more) :
    ∃ following, lines (text ++ rest) = text :: following := by
  rcases hrest with rfl | ⟨more, rfl⟩
  · exact ⟨[], by rw [List.append_nil, lines_text h hne]⟩
  · exact ⟨lines more, lines_cons h more⟩

/-- A file whose last line lacks its line feed does not end at a line boundary. -/
theorem not_at_boundary (file : List UInt8) (h : OneLine text) (hne : text ≠ []) :
    ¬ AtBoundary (file ++ text) := by
  rintro (hnil | hlast)
  · exact hne (List.append_eq_nil_iff.mp hnil).2
  · rw [List.getLast?_append_of_ne_nil file hne] at hlast
    exact (h newline (List.mem_of_getLast? hlast)).1 rfl

/-- What is written of a line when nothing but its line feed may be missing. -/
theorem written_cases {written : List UInt8} (h : text <+: written)
    (hline : written <+: text ++ [newline]) : written = text ∨ written = text ++ [newline] := by
  obtain ⟨rest, rfl⟩ := h
  rw [List.prefix_append_right_inj] at hline
  cases rest with
  | nil => exact .inl (List.append_nil text)
  | cons byte rest =>
      obtain ⟨rfl, hrest⟩ := List.cons_prefix_cons.mp hline
      obtain rfl := List.prefix_nil.mp hrest
      exact .inr rfl

end Fieldbus.ByteLines
