/-!
The command line. Options stand before or behind the subcommand, in any order and each at most once on
either side; a value behind wins over one before. A value stands behind an equals sign or as the next
argument, where it must not look like an option but may look like a subcommand.
-/

namespace DocCoverage

/-- What a run is asked to do. Without a subcommand it checks and stops at the first gap. -/
inductive Subcommand
  | check (keepGoing : Bool)
  | inventory
deriving DecidableEq, Repr

/-- What the arguments ask for. -/
structure Invocation where
  json : Bool
  logJson : Bool
  repo : String
  config : Option String
  command : Option Subcommand
deriving DecidableEq, Repr

/-- Why the arguments do not ask for a run. -/
inductive Refusal
  | unknownArgument
  | invalidSubcommand
  | invalidValue
  | repeatedOption
  | unwantedValue
  | help
  | version
deriving DecidableEq, Repr

/-- The exit code of a program that was refused a run. Asking for help is no misuse. -/
def Refusal.exit : Refusal → Nat
  | help | version => 0
  | _ => 2

namespace Invocation

/-- Where an argument stands: before any subcommand, or behind one. -/
inductive Side
  | before
  | check
  | inventory
deriving DecidableEq, Repr

/-- The options without a value. -/
inductive Flag
  | json
  | logJson
  | keepGoing
deriving DecidableEq, Repr

/-- The options with a value. -/
inductive Slot
  | repo
  | config
deriving DecidableEq, Repr

/-- The options given on one side. -/
structure Options where
  json : Bool := false
  logJson : Bool := false
  keepGoing : Bool := false
  repo : Option String := none
  config : Option String := none
deriving DecidableEq, Repr

/-- A value that has been asked for or given and not been stored yet. -/
inductive Pending
  | nothing
  | awaited (slot : Slot)
  | given (slot : Slot) (value : String)
deriving DecidableEq, Repr

/-- What an argument is by its look. -/
inductive Shape
  | flag (flag : Flag) (value : Bool)
  | slot (slot : Slot) (value : Option String)
  | help (value : Bool)
  | version (value : Bool)
  | unknown
  | rest
  | plain
deriving DecidableEq, Repr

/-- The shape of a long option by its name, and the text behind its equals sign. -/
def longShape (side : Side) (name : String) (value : Option String) : Shape :=
  match name with
  | "json" => .flag .json value.isSome
  | "log-json" => .flag .logJson value.isSome
  | "keep-going" => if side = .check then .flag .keepGoing value.isSome else .unknown
  | "repo" => .slot .repo value
  | "config" => .slot .config value
  | "help" => .help value.isSome
  | "version" => if side = .before then .version value.isSome else .unknown
  | _ => .unknown

/-- The shape of an argument. A lone `-` is plain. -/
def shapeOf (side : Side) (arg : String) : Shape :=
  match arg.toList with
  | ['-', '-'] => .rest
  | '-' :: '-' :: long =>
    let name := String.ofList (long.takeWhile (· != '='))
    match long.dropWhile (· != '=') with
    | [] => longShape side name none
    | _ :: value => longShape side name (some (String.ofList value))
  | '-' :: 'h' :: _ => .help false
  | '-' :: 'V' :: _ => if side = .before then .version false else .unknown
  | '-' :: _ :: _ => .unknown
  | _ => .plain

namespace Options

/-- The options with a flag raised, which must not have been raised yet. -/
def raise (o : Options) : Flag → Except Refusal Options
  | .json => if o.json then .error .repeatedOption else .ok { o with json := true }
  | .logJson => if o.logJson then .error .repeatedOption else .ok { o with logJson := true }
  | .keepGoing =>
    if o.keepGoing then .error .repeatedOption else .ok { o with keepGoing := true }

/-- The value in a slot. -/
def get? (o : Options) : Slot → Option String
  | .repo => o.repo
  | .config => o.config

/-- The options with a value in a slot. The slot must be free and the value not empty. -/
def fill (o : Options) (slot : Slot) (value : String) : Except Refusal Options :=
  if (o.get? slot).isSome then .error .repeatedOption
  else if value = "" then .error .invalidValue
  else
    match slot with
    | .repo => .ok { o with repo := some value }
    | .config => .ok { o with config := some value }

/-- Stores a pending value. -/
def settle (o : Options) : Pending → Except Refusal Options
  | .nothing => .ok o
  | .awaited _ => .error .invalidValue
  | .given slot value => o.fill slot value

end Options

/-- Reads an argument that is not plain. -/
def option (o : Options) (pending : Pending) : Shape → Except Refusal (Options × Pending)
  | .flag flag value => do
    if value then throw .unwantedValue
    let o ← (← o.settle pending).raise flag
    return (o, .nothing)
  | .slot slot (some value) => do
    let o ← (← o.settle pending).fill slot value
    return (o, .nothing)
  | .slot slot none => do
    let o ← o.settle pending
    return (o, .awaited slot)
  | .help value => do
    if value then throw .unwantedValue
    let _ ← o.settle pending
    throw .help
  | .version value => do
    if value then throw .unwantedValue
    let _ ← o.settle pending
    throw .version
  | .unknown | .rest | .plain => throw .unknownArgument

/-- The side that a subcommand opens. -/
def sideOf? (arg : String) : Option Side :=
  match arg with
  | "check" => some .check
  | "inventory" => some .inventory
  | _ => none

/-- The refusal of a plain argument that nothing awaits. -/
def strayRefusal (side : Side) : Refusal :=
  if side = .before then .invalidSubcommand else .unknownArgument

/-- Reads what stands behind `--`: nothing may. -/
def readRest (side : Side) (o : Options) (pending : Pending) :
    List String → Except Refusal Options
  | [] => o.settle pending
  | arg :: _ =>
    if (sideOf? arg).isSome || arg = "help" then throw .unknownArgument
    else throw (strayRefusal side)

/-- Reads the options behind a subcommand. -/
def readBehind (side : Side) (o : Options) (pending : Pending) :
    List String → Except Refusal Options
  | [] => o.settle pending
  | arg :: args =>
    match shapeOf side arg, pending with
    | .rest, _ => readRest side o pending args
    | .plain, .awaited slot => readBehind side o (.given slot arg) args
    | .plain, _ => throw (strayRefusal side)
    | shape, _ => do
      let (o, pending) ← option o pending shape
      readBehind side o pending args

/-- Reads what stands behind `help`: names of subcommands that help can be given on. No subcommand
has subcommands of its own. -/
def readHelp : List String → Refusal
  | [] => .help
  | arg :: args =>
    if (sideOf? arg).isSome || arg = "help" then
      match args with
      | [] => .help
      | _ => .invalidSubcommand
    else .invalidSubcommand

/-- Reads the options before a subcommand, the subcommand, and the options behind it. A value pending
before the subcommand is stored last. -/
def readBefore (o : Options) (pending : Pending) :
    List String → Except Refusal (Options × Option (Side × Options))
  | [] => do
    let o ← o.settle pending
    return (o, none)
  | arg :: args =>
    match shapeOf .before arg, pending with
    | .rest, _ => do
      let o ← readRest .before o pending args
      return (o, none)
    | .plain, .awaited slot => readBefore o (.given slot arg) args
    | .plain, _ =>
      match sideOf? arg with
      | some side => do
        let behind ← readBehind side {} .nothing args
        let o ← o.settle pending
        return (o, some (side, behind))
      | none => throw (if arg = "help" then readHelp args else .invalidSubcommand)
    | shape, _ => do
      let (o, pending) ← option o pending shape
      readBefore o pending args

/-- The invocation that the options of both sides make. -/
def assemble (o : Options) : Option (Side × Options) → Invocation
  | none => ⟨o.json, o.logJson, o.repo.getD ".", o.config, none⟩
  | some (side, behind) =>
    ⟨o.json || behind.json, o.logJson || behind.logJson, (behind.repo.or o.repo).getD ".",
      behind.config.or o.config,
      some (if side = .inventory then .inventory else .check behind.keepGoing)⟩

/-- Reads the arguments of the program. -/
def read (args : List String) : Except Refusal Invocation := do
  let (o, behind) ← readBefore {} .nothing args
  return assemble o behind

end Invocation
end DocCoverage
