import Mathlib.Data.List.Basic
import Fieldbus.Library.DebugText
import Fieldbus.Library.Fallible
import Fieldbus.Host.Runner

/-!
# The command line

The argument parsers of `host/src/main.rs`, after `parse_opts`, `parse_u64` and the loop of
`cmd_report`. A command line that `parseOpts` accepts is a list of pairs, and the value of an option
is that of the last pair that bears its flag (`parse_opts_iff`).
-/

namespace Fieldbus.Cli

open Fallible

/-- Default location of the frozen manifest, relative to the repository root. -/
def defaultPath : String := "manifest/frozen.json"

def usage : String :=
  "fieldbus-node: periodic CAN control node with a simulated bus\n\nUSAGE:\n" ++
  "  fieldbus-node run [OPTIONS]\n" ++
  "  fieldbus-node control cpu-hog [OPTIONS]\n" ++
  "  fieldbus-node control can-corrupt [OPTIONS]\n" ++
  "  fieldbus-node control sensor-freeze [OPTIONS]\n" ++
  "  fieldbus-node report --out PATH --positive PATH... --control PATH...\n\n" ++
  "OPTIONS (run and control):\n" ++
  "  --cycles N          periods to execute        (default: manifest loop.cycles)\n" ++
  "  --period-us N       period length             (default: manifest loop.target_period_us)\n" ++
  "  --seed N            simulated-noise seed      (default: manifest loop.seed)\n" ++
  "  --mode MODE         real-time | virtual-time  (default: real-time)\n" ++
  "  --manifest PATH     frozen manifest           (default: manifest/frozen.json)\n" ++
  "  --run-id NAME       label written into the result file\n" ++
  "  --out PATH          where to write the JSON result (required)\n\n" ++
  "The three control subcommands each inject exactly one named fault class and\n" ++
  "are the only way to reach any fault. Every mode is a simulation: no CAN\n" ++
  "hardware is involved and nothing here is hardware in the loop.\n"

/-! ## Numbers -/

/-- Why `str::parse::<u64>` fails. -/
inductive ParseIntError where
  | empty
  | invalidDigit
  | posOverflow

def ParseIntError.text : ParseIntError → String
  | .empty => "cannot parse integer from empty string"
  | .invalidDigit => "invalid digit found in string"
  | .posOverflow => "number too large to fit in target type"

/-- Decimal digits, with the overflow check of each. -/
def readDigits : List Char → Nat → Except ParseIntError UInt64
  | [], total => .ok (UInt64.ofNat total)
  | ch :: rest, total =>
      if ch.isDigit then
        if total * 10 + (ch.toNat - 48) < 2 ^ 64 then readDigits rest (total * 10 + (ch.toNat - 48))
        else .error .posOverflow
      else .error .invalidDigit

/-- `str::parse::<u64>`: decimal digits behind an optional plus sign. -/
def parse (s : String) : Except ParseIntError UInt64 :=
  match s.toList with
  | [] => .error .empty
  | ['+'] => .error .invalidDigit
  | '+' :: digits => readDigits digits 0
  | digits => readDigits digits 0

def parseU64 (s flag : String) : Except String UInt64 :=
  (parse s).mapError fun e =>
    flag ++ " wants a non-negative integer, got " ++ debugText s ++ ": " ++ e.text

/-! ## Pairs -/

section Pairs

variable {α : Type} (set : α → String → String → Except String α) (single : String → String)

/-- The loop over flags and their values; `single` is what it says of a flag without a value. -/
def parsePairs (o : α) : List String → Except String α
  | [] => .ok o
  | [flag] => .error (single flag)
  | flag :: value :: rest => do parsePairs (← set o flag value) rest

/-- The arguments that pairs are given by. -/
def arguments (pairs : List (String × String)) : List String :=
  pairs.flatMap fun p => [p.1, p.2]

@[simp] theorem arguments_cons (p : String × String) (rest : List (String × String)) :
    arguments (p :: rest) = p.1 :: p.2 :: arguments rest := rfl

theorem arguments_ne_singleton (pairs : List (String × String)) (flag : String) :
    arguments pairs ≠ [flag] := by
  cases pairs with
  | nil => simp [arguments]
  | cons p rest => simp

/-- The loop succeeds on pairs each of which it accepts. -/
theorem parse_pairs_iff (o o' : α) (args : List String) :
    parsePairs set single o args = .ok o' ↔ ∃ pairs, args = arguments pairs ∧
      pairs.foldlM (fun o p => set o p.1 p.2) o = .ok o' := by
  fun_induction parsePairs set single o args with
  | case1 o =>
      constructor
      · exact fun h => ⟨[], rfl, h⟩
      · rintro ⟨pairs, hargs, h⟩
        cases pairs with
        | nil => exact h
        | cons p rest => cases hargs
  | case2 o flag =>
      constructor
      · exact fun h => nomatch h
      · rintro ⟨pairs, hargs, -⟩
        exact absurd hargs.symm (arguments_ne_singleton pairs flag)
  | case3 o flag value rest ih =>
      rw [bind_ok_iff]
      constructor
      · rintro ⟨next, hset, hrest⟩
        obtain ⟨pairs, rfl, hpairs⟩ := (ih next).mp hrest
        exact ⟨(flag, value) :: pairs, rfl, foldlM_cons_ok_iff.mpr ⟨next, hset, hpairs⟩⟩
      · rintro ⟨pairs, hargs, h⟩
        cases pairs with
        | nil => cases hargs
        | cons p pairs =>
            obtain ⟨rfl, rfl, rfl⟩ : flag = p.1 ∧ value = p.2 ∧ rest = arguments pairs := by
              simpa using hargs
            obtain ⟨next, hset, hpairs⟩ := foldlM_cons_ok_iff.mp h
            exact ⟨next, hset, (ih next).mpr ⟨pairs, rfl, hpairs⟩⟩

/-- If one more pair changes what the pairs so far stand for into what they stand for with it, a
list of pairs leads to what it stands for. -/
theorem foldlM_describes {described : List (String × String) → α} {Good : String → String → Prop}
    (hset : ∀ pairs flag value o, set (described pairs) flag value = .ok o ↔
      Good flag value ∧ o = described (pairs ++ [(flag, value)]))
    (before pairs : List (String × String)) (o : α) :
    pairs.foldlM (fun o p => set o p.1 p.2) (described before) = .ok o ↔
      (∀ p ∈ pairs, Good p.1 p.2) ∧ o = described (before ++ pairs) := by
  induction pairs generalizing before with
  | nil =>
      rw [List.foldlM_nil, pure_ok_iff, List.append_nil, eq_comm]
      simp
  | cons p rest ih =>
      simp only [foldlM_cons_ok_iff, hset]
      constructor
      · rintro ⟨_, ⟨hp, rfl⟩, hrest⟩
        obtain ⟨hall, rfl⟩ := (ih _).mp hrest
        exact ⟨List.forall_mem_cons.mpr ⟨hp, hall⟩, by simp⟩
      · rintro ⟨hall, rfl⟩
        obtain ⟨hp, hrest⟩ := List.forall_mem_cons.mp hall
        exact ⟨_, ⟨hp, rfl⟩, (ih _).mpr ⟨hrest, by simp⟩⟩

/-- What a parser makes of the arguments, if it describes pairs. -/
theorem parse_pairs_describes {described : List (String × String) → α}
    {Good : String → String → Prop}
    (hset : ∀ pairs flag value o, set (described pairs) flag value = .ok o ↔
      Good flag value ∧ o = described (pairs ++ [(flag, value)]))
    (args : List String) (o : α) :
    parsePairs set single (described []) args = .ok o ↔ ∃ pairs, args = arguments pairs ∧
      (∀ p ∈ pairs, Good p.1 p.2) ∧ o = described pairs := by
  rw [parse_pairs_iff]
  exact exists_congr fun pairs => and_congr_right fun _ => foldlM_describes set hset [] pairs o

/-- The value of a flag in a list of pairs: that of the last one that bears it. -/
def lastValue (pairs : List (String × String)) (flag : String) : Option String :=
  pairs.foldl (fun last p => if p.1 = flag then some p.2 else last) none

theorem last_value_append (pairs : List (String × String)) (flag value flag' : String) :
    lastValue (pairs ++ [(flag, value)]) flag' =
      if flag = flag' then some value else lastValue pairs flag' := by
  rw [lastValue, List.foldl_append]
  rfl

/-- A flag that no later pair bears. -/
theorem last_value_cons {flag : String} (value : String) {rest : List (String × String)}
    (h : ∀ p ∈ rest, p.1 ≠ flag) : lastValue ((flag, value) :: rest) flag = some value := by
  rw [lastValue, List.foldl_cons, if_pos rfl]
  induction rest with
  | nil => rfl
  | cons p rest ih =>
      rw [List.foldl_cons, if_neg (h p List.mem_cons_self)]
      exact ih fun q hq => h q (List.mem_cons_of_mem _ hq)

/-- The values of a flag in a list of pairs, in order. -/
def allValues (pairs : List (String × String)) (flag : String) : List String :=
  (pairs.filter fun p => p.1 = flag).map Prod.snd

theorem all_values_append (pairs : List (String × String)) (flag value flag' : String) :
    allValues (pairs ++ [(flag, value)]) flag' =
      if flag = flag' then allValues pairs flag' ++ [value] else allValues pairs flag' := by
  rw [allValues, List.filter_append, List.map_append]
  by_cases h : flag = flag' <;> simp [allValues, h]

end Pairs

/-! ## Options of a run -/

/-- Options shared by `run` and the three controls. -/
structure Opts where
  cycles : Option UInt64
  periodUs : Option UInt64
  seed : Option UInt64
  mode : Mode
  manifest : String
  runId : Option String
  out : Option String

/-- The options before any argument. -/
def Opts.initial : Opts where
  cycles := none
  periodUs := none
  seed := none
  mode := .realTime
  manifest := defaultPath
  runId := none
  out := none

def parseMode (value : String) : Except String Mode :=
  if value = "real-time" then .ok .realTime
  else if value = "virtual-time" then .ok .virtual
  else .error ("--mode must be real-time or virtual-time, got " ++ debugText value)

/-- The flags that take a value. -/
def flags : List String :=
  ["--cycles", "--period-us", "--seed", "--mode", "--manifest", "--run-id", "--out"]

def unknownOption (flag : String) : String :=
  "unknown option " ++ debugText flag ++ "\n\n" ++ usage

/-- One flag with its value. -/
def Opts.set (o : Opts) (flag value : String) : Except String Opts :=
  if flag = "--cycles" then (parseU64 value flag).map fun n => { o with cycles := some n }
  else if flag = "--period-us" then
    (parseU64 value flag).map fun n => { o with periodUs := some n }
  else if flag = "--seed" then (parseU64 value flag).map fun n => { o with seed := some n }
  else if flag = "--mode" then (parseMode value).map fun mode => { o with mode := mode }
  else if flag = "--manifest" then .ok { o with manifest := value }
  else if flag = "--run-id" then .ok { o with runId := some value }
  else if flag = "--out" then .ok { o with out := some value }
  else .error (unknownOption flag)

/-- What is said of a flag that no value follows. -/
def missingValue (flag : String) : String :=
  if flag ∈ flags then flag ++ " needs a value" else unknownOption flag

def parseOpts (args : List String) : Except String Opts :=
  parsePairs Opts.set missingValue .initial args

/-! ## What a command line means -/

/-- The flag is known, and its value is of the right kind. -/
def Accepts (flag value : String) : Prop :=
  if flag = "--cycles" ∨ flag = "--period-us" ∨ flag = "--seed" then ∃ n, parse value = .ok n
  else if flag = "--mode" then ∃ mode, parseMode value = .ok mode
  else flag = "--manifest" ∨ flag = "--run-id" ∨ flag = "--out"

/-- The options that pairs stand for. -/
def Opts.ofPairs (pairs : List (String × String)) : Opts where
  cycles := (lastValue pairs "--cycles").bind fun v => (parse v).toOption
  periodUs := (lastValue pairs "--period-us").bind fun v => (parse v).toOption
  seed := (lastValue pairs "--seed").bind fun v => (parse v).toOption
  mode := ((lastValue pairs "--mode").bind fun v => (parseMode v).toOption).getD .realTime
  manifest := (lastValue pairs "--manifest").getD defaultPath
  runId := lastValue pairs "--run-id"
  out := lastValue pairs "--out"

theorem parse_u64_eq_ok_iff {s flag : String} {n : UInt64} :
    parseU64 s flag = .ok n ↔ parse s = .ok n := by
  unfold parseU64
  cases parse s <;> simp [Except.mapError]

/-- A flag whose value is a number. -/
theorem set_number {flag value : String} {o : Opts} {f : UInt64 → Opts}
    (described : Option UInt64 → Opts) (hf : ∀ n, described (some n) = f n) :
    (parseU64 value flag).map f = .ok o ↔
      (∃ n, parse value = .ok n) ∧ o = described (parse value).toOption := by
  rw [map_ok_iff]
  simp only [parse_u64_eq_ok_iff]
  cases hn : parse value with
  | error e => simp
  | ok n => simp [Except.toOption, hf, eq_comm]

/-- One more pair. -/
theorem set_of_pairs (pairs : List (String × String)) (flag value : String) (o : Opts) :
    (Opts.ofPairs pairs).set flag value = .ok o ↔
      Accepts flag value ∧ o = .ofPairs (pairs ++ [(flag, value)]) := by
  have hlast := last_value_append pairs flag value
  unfold Opts.set
  split_ifs with hcycles hperiod hseed hmode hmanifest hrun hout
  · subst hcycles
    simpa [Accepts, Opts.ofPairs, hlast] using
      set_number (fun n => { Opts.ofPairs pairs with cycles := n }) fun _ => rfl
  · subst hperiod
    simpa [Accepts, Opts.ofPairs, hlast] using
      set_number (fun n => { Opts.ofPairs pairs with periodUs := n }) fun _ => rfl
  · subst hseed
    simpa [Accepts, Opts.ofPairs, hlast] using
      set_number (fun n => { Opts.ofPairs pairs with seed := n }) fun _ => rfl
  · subst hmode
    rw [map_ok_iff]
    cases hparse : parseMode value with
    | error e => simp [Accepts, hparse]
    | ok mode => simp [Accepts, Opts.ofPairs, hlast, hparse, Except.toOption, eq_comm]
  · subst hmanifest
    simp [Accepts, Opts.ofPairs, hlast, eq_comm]
  · subst hrun
    simp [Accepts, Opts.ofPairs, hlast, eq_comm]
  · subst hout
    simp [Accepts, Opts.ofPairs, hlast, eq_comm]
  -- no other flag is known
  · simp_all [Accepts]

/-- What `parse_opts` accepts, and what it makes of it: pairs of a known flag and a value of the
right kind, where the value of an option is that of the last pair that bears its flag. -/
theorem parse_opts_iff (args : List String) (o : Opts) :
    parseOpts args = .ok o ↔ ∃ pairs, args = arguments pairs ∧
      (∀ p ∈ pairs, Accepts p.1 p.2) ∧ o = .ofPairs pairs := by
  exact parse_pairs_describes Opts.set missingValue set_of_pairs args o

/-! ## Options of a report -/

/-- Where the evidence goes, and the result files it is assembled from. -/
structure ReportOpts where
  out : Option String
  positives : List String
  controls : List String

/-- One flag with its value. -/
def ReportOpts.set (o : ReportOpts) (flag value : String) : Except String ReportOpts :=
  if flag = "--out" then .ok { o with out := some value }
  else if flag = "--positive" then .ok { o with positives := o.positives ++ [value] }
  else if flag = "--control" then .ok { o with controls := o.controls ++ [value] }
  else .error ("unknown report option " ++ debugText flag ++ "\n\n" ++ usage)

def parseReport (args : List String) : Except String ReportOpts :=
  parsePairs ReportOpts.set (fun flag => flag ++ " needs a value") ⟨none, [], []⟩ args

/-- The options that pairs stand for. -/
def ReportOpts.ofPairs (pairs : List (String × String)) : ReportOpts where
  out := lastValue pairs "--out"
  positives := allValues pairs "--positive"
  controls := allValues pairs "--control"

theorem report_set_of_pairs (pairs : List (String × String)) (flag value : String)
    (o : ReportOpts) :
    (ReportOpts.ofPairs pairs).set flag value = .ok o ↔
      (flag = "--out" ∨ flag = "--positive" ∨ flag = "--control") ∧
        o = .ofPairs (pairs ++ [(flag, value)]) := by
  have hlast := last_value_append pairs flag value
  have hall := all_values_append pairs flag value
  unfold ReportOpts.set
  split_ifs with hout hpositive hcontrol
  · subst hout
    simp [ReportOpts.ofPairs, hlast, hall, eq_comm]
  · subst hpositive
    simp [ReportOpts.ofPairs, hlast, hall, eq_comm]
  · subst hcontrol
    simp [ReportOpts.ofPairs, hlast, hall, eq_comm]
  · simp_all

/-- What `cmd_report` accepts: the files to assemble are all that are given, in order. -/
theorem parse_report_iff (args : List String) (o : ReportOpts) :
    parseReport args = .ok o ↔ ∃ pairs, args = arguments pairs ∧
      (∀ p ∈ pairs, p.1 = "--out" ∨ p.1 = "--positive" ∨ p.1 = "--control") ∧
      o = .ofPairs pairs := by
  exact parse_pairs_describes ReportOpts.set _ report_set_of_pairs args o

end Fieldbus.Cli
