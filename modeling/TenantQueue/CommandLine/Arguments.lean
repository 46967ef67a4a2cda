import TenantQueue.Text.Numeral
import TenantQueue.Text.Raw
import TenantQueue.Text.Terminal

/-! The arguments of the load test command. Four settings take a value, in the same argument after
an equals sign or in the next one; there are two flags besides, and nothing else. A setting whose
value is the next argument is only looked at when the argument after that is one of those known, or
when there are no more. -/
namespace TenantQueue.CommandLine
open Text

inductive Setting where
  | profile | rounds | cycles | workers
  deriving DecidableEq, Repr

namespace Setting

def name : Setting → String
  | .profile => "profile"
  | .rounds => "rounds"
  | .cycles => "cycles"
  | .workers => "workers"

def all : List Setting := [.profile, .rounds, .cycles, .workers]

def ofName? (name : String) : Option Setting := all.find? (·.name = name)

def usage (s : Setting) : String := "--" ++ s.name ++ " <" ++ s.name.toUpper ++ ">"

end Setting

inductive Stop where
  | help
  | unexpected (argument : String)
  | unexpectedValue (flag value : String)
  | repeated (argument : String)
  | missingValue (setting : Setting)
  | invalidValue (setting : Setting) (value : String) (fault : NumeralFault)
  | notText
  deriving DecidableEq, Repr

def helpLines : List String :=
  ["Measure per-namespace fairness against a global FIFO",
    "",
    "Usage: fairq-loadtest [OPTIONS]",
    "",
    "Options:",
    "      --profile <PROFILE>  TOML profile mapping item keys to processing milliseconds",
    "      --rounds <ROUNDS>    Rounds per queue flavour [default: 10]",
    "      --cycles <CYCLES>    Times each item is processed per round [default: 10]",
    "      --workers <WORKERS>  Worker threads (defaults to FAIRQ_WORKERS)",
    "      --json               Print the report as JSON",
    "  -h, --help               Print help"]

def Stop.message : Stop → String
  | .help => String.join (helpLines.map (· ++ "\n"))
  | .unexpected argument => "error: unexpected argument '" ++ shown argument ++ "' found"
  | .unexpectedValue flag value =>
    "error: unexpected value '" ++ shown value ++ "' for '" ++ flag ++
      "' found; no more were expected"
  | .repeated argument => "error: the argument '" ++ argument ++ "' cannot be used multiple times"
  | .missingValue setting =>
    "error: a value is required for '" ++ setting.usage ++ "' but none was supplied"
  | .invalidValue setting value fault =>
    "error: invalid value '" ++ shown value ++ "' for '" ++ setting.usage ++ "': " ++ fault.message
  | .notText => "error: invalid UTF-8 was detected in one or more arguments"

inductive Word where
  /-- Two dashes alone. -/
  | divider
  | long (name : RawText) (value : Option RawText)
  | short (letters : RawText)
  | plain
  deriving DecidableEq, Repr

def dash : UInt8 := 45

def equalsSign : UInt8 := 61

def Word.ofRaw (argument : RawText) : Word :=
  match argument.bytes with
  | a :: b :: rest =>
    if a = dash ∧ b = dash then
      if rest = [] then .divider
      else
        let name := rest.takeWhile (· ≠ equalsSign)
        .long ⟨name⟩ ((rest.drop name.length).tail?.map RawText.mk)
    else if a = dash then .short ⟨b :: rest⟩
    else .plain
  | _ => .plain

structure Arguments where
  profile : Option RawText
  rounds : Nat
  cycles : Nat
  workers : Option Nat
  json : Bool
  deriving DecidableEq, Repr

structure Reading where
  profile : Option RawText := none
  rounds : Option Nat := none
  cycles : Option Nat := none
  workers : Option Nat := none
  json : Bool := false
  /-- A setting whose value is an argument of its own, and that value if it was read. -/
  pending : Option (Setting × Option RawText) := none
  deriving Repr

namespace Reading

def natural (setting : Setting) (value : RawText) : Except Stop Nat :=
  match value.text? with
  | none => .error .notText
  | some text => (readUnsigned wordLimit text.toList).mapError (.invalidValue setting text)

def has (r : Reading) : Setting → Bool
  | .profile => r.profile.isSome
  | .rounds => r.rounds.isSome
  | .cycles => r.cycles.isSome
  | .workers => r.workers.isSome

def set (r : Reading) (setting : Setting) (value : RawText) : Except Stop Reading :=
  if r.has setting then .error (.repeated setting.usage)
  else match setting with
    | .profile =>
      if value.bytes = [] then .error (.missingValue setting)
      else .ok { r with profile := some value }
    | .rounds => (natural setting value).map fun n => { r with rounds := some n }
    | .cycles => (natural setting value).map fun n => { r with cycles := some n }
    | .workers => (natural setting value).map fun n => { r with workers := some n }

def resolve (r : Reading) : Except Stop Reading :=
  match r.pending with
  | none => .ok r
  | some (setting, none) => .error (.missingValue setting)
  | some (setting, some value) => { r with pending := none }.set setting value

def flag (r : Reading) (name : String) (value : Option RawText)
    (act : Reading → Except Stop Reading) : Except Stop Reading :=
  match value with
  | some value => .error (.unexpectedValue ("--" ++ name) value.lossy)
  | none => r.resolve.bind act

def setJson (r : Reading) : Except Stop Reading :=
  if r.json then .error (.repeated "--json") else .ok { r with json := true }

def helpWanted (_ : Reading) : Except Stop Reading := .error .help

def long (r : Reading) (name : RawText) (value : Option RawText) : Except Stop Reading :=
  if name = .ofString "json" then r.flag "json" value setJson
  else if name = .ofString "help" then r.flag "help" value helpWanted
  else match name.text?.bind Setting.ofName?, value with
    | none, _ => .error (.unexpected ("--" ++ name.lossy))
    | some setting, some value => r.resolve.bind fun r => r.set setting value
    | some setting, none => r.resolve.map fun r => { r with pending := some (setting, none) }

/-- Only the first letter matters, and only one letter is known. -/
def short (r : Reading) (letters : RawText) : Except Stop Reading :=
  match RawText.characters letters.bytes with
  | (first, true) :: _ =>
    if first = [104] then r.resolve.bind helpWanted
    else .error (.unexpected ("-" ++ RawText.lossy ⟨first⟩))
  | _ => .error (.unexpected ("-" ++ letters.lossy))

def plain (r : Reading) (argument : RawText) : Except Stop Reading :=
  match r.pending with
  | some (setting, none) => .ok { r with pending := some (setting, some argument) }
  | _ => .error (.unexpected argument.lossy)

def words : List RawText → Reading → Except Stop Reading
  | [], r => r.resolve
  | argument :: rest, r =>
    match Word.ofRaw argument with
    | .divider =>
      match rest with
      | [] => r.resolve
      | next :: _ => .error (.unexpected next.lossy)
    | .long name value => (r.long name value).bind (words rest)
    | .short letters => (r.short letters).bind (words rest)
    | .plain => (r.plain argument).bind (words rest)

end Reading

def Arguments.read (arguments : List RawText) : Except Stop Arguments :=
  (Reading.words arguments {}).map fun r =>
    { profile := r.profile, rounds := r.rounds.getD 10, cycles := r.cycles.getD 10,
      workers := r.workers, json := r.json }

end TenantQueue.CommandLine
