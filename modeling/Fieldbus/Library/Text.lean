import Mathlib.Data.List.DropRight
import Mathlib.Data.List.TakeWhile

/-!
# Texts as lists of characters

The operations of Rust's `str` that a header parser uses. What counts as white space is a parameter.
-/

namespace Fieldbus.Text

/-- Drop the carriage return that precedes a line feed. -/
def stripReturn (line : List Char) : List Char :=
  if line.getLast? = some '\r' then line.dropLast else line

/-- The lines of the characters that follow the begun line `current`. -/
def linesFrom (current : List Char) : List Char → List (List Char)
  | [] => if current = [] then [] else [current]
  | ch :: rest =>
      if ch = '\n' then stripReturn current :: linesFrom [] rest
      else linesFrom (current ++ [ch]) rest

/-- `str::lines`. -/
def lines (text : List Char) : List (List Char) := linesFrom [] text

/-- `str::split_once` at a character. -/
def splitOnce (sep : Char) (text : List Char) : Option (List Char × List Char) :=
  match text.dropWhile (· ≠ sep) with
  | [] => none
  | _ :: after => some (text.takeWhile (· ≠ sep), after)

/-- `str::eq_ignore_ascii_case`. -/
def eqIgnoreAsciiCase (a b : List Char) : Bool := a.map Char.toLower == b.map Char.toLower

/-- `str::trim`. -/
def trim (isSpace : Char → Bool) (text : List Char) : List Char :=
  (text.dropWhile isSpace).rdropWhile isSpace

/-- `str::split_whitespace`. -/
def splitWhitespace (isSpace : Char → Bool) (text : List Char) : List (List Char) :=
  (text.splitOnP isSpace).filter fun word => !word.isEmpty

/-- Characters that are no line feed go to the begun line. -/
theorem linesFrom_append {text : List Char} (h : '\n' ∉ text) (current rest : List Char) :
    linesFrom current (text ++ rest) = linesFrom (current ++ text) rest := by
  induction text generalizing current with
  | nil => simp
  | cons ch text ih =>
      rw [List.mem_cons, not_or] at h
      obtain ⟨hch, htext⟩ := h
      rw [List.cons_append, linesFrom, if_neg (Ne.symm hch), ih htext, List.append_assoc]
      rfl

/-- Texts without line feeds, each ended by a carriage return and a line feed, are the lines. -/
theorem lines_crlf {texts : List (List Char)} (h : ∀ text ∈ texts, '\n' ∉ text) :
    lines (texts.flatMap fun text => text ++ ['\r', '\n']) = texts := by
  unfold lines
  induction texts with
  | nil => rfl
  | cons text texts ih =>
      obtain ⟨htext, hrest⟩ := List.forall_mem_cons.mp h
      rw [List.flatMap_cons, List.append_assoc, linesFrom_append htext]
      simp [linesFrom, stripReturn, ih hrest]

/-- A text is split at its first separator. -/
theorem splitOnce_eq_some_iff {sep : Char} {text before after : List Char} :
    splitOnce sep text = some (before, after) ↔ text = before ++ sep :: after ∧ sep ∉ before := by
  constructor
  · intro h
    have hparts := List.takeWhile_append_dropWhile (p := (· ≠ sep)) (l := text)
    have hhead := List.head?_dropWhile_not (· ≠ sep) text
    rw [splitOnce] at h
    split at h
    · cases h
    · rename_i first rest hrest
      obtain ⟨rfl, rfl⟩ : text.takeWhile (· ≠ sep) = before ∧ rest = after := by simpa using h
      rw [hrest] at hhead
      obtain rfl : first = sep := by simpa using hhead
      refine ⟨by rw [← hrest, hparts], fun hmem => ?_⟩
      simpa using List.mem_takeWhile_imp hmem
  · rintro ⟨rfl, hfree⟩
    have hbefore : ∀ ch ∈ before, decide (ch ≠ sep) = true := by
      intro ch hch
      simpa using fun heq : ch = sep => hfree (heq ▸ hch)
    rw [splitOnce, List.dropWhile_append_of_pos hbefore, List.takeWhile_append_of_pos hbefore]
    simp

end Fieldbus.Text
