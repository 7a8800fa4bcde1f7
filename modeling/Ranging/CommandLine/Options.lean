import Ranging.Strategy.Parse
import Ranging.Text.Number

/-!
# Command line options

Options are read from left to right and the first problem decides. A value follows its option as
the next argument, which must not look like an option itself, or is attached to it: after an
equals sign, or directly after the letter of a short option. Letters of options without a value
may be joined.
-/

namespace Ranging.CommandLine

/-- What a user can choose. -/
structure Options where
  /-- Everything random derives from it; zero stands for the time of the clock. -/
  seed : UInt64 := 42
  anchors : Nat := 8
  scenario : String := "all"
  /-- The number of consecutive seeds. -/
  seeds : Nat := 1
  /-- Length of a run, in seconds. -/
  duration : Float := 5.0
  strategy : Option Strategy := none
  /-- The path of a document with settings. -/
  config : Option String := none
  verbose : Bool := false
  json : Bool := false
  /-- The path to which a trace is written. -/
  tracePath : Option String := none

/-- Why no options come of the arguments. -/
inductive Stop where
  /-- The arguments are wrong. -/
  | usage
  /-- The user asks for help. -/
  | help
deriving DecidableEq

/-- The options that there are. -/
inductive Key where
  | seed
  | anchors
  | scenario
  | seeds
  | duration
  | matching
  | config
  | verbose
  | json
  | trace
  | help
deriving DecidableEq

namespace Key

/-- All options, in the order in which help lists them. -/
def all : List Key :=
  [.seed, .anchors, .scenario, .seeds, .duration, .matching, .config, .verbose, .json, .trace,
    .help]

/-- The long name. -/
def long : Key → String
  | .seed => "seed"
  | .anchors => "anchors"
  | .scenario => "scenario"
  | .seeds => "seeds"
  | .duration => "duration"
  | .matching => "matching"
  | .config => "config"
  | .verbose => "verbose"
  | .json => "json"
  | .trace => "export"
  | .help => "help"

/-- The letter, if there is one. -/
def short? : Key → Option Char
  | .seed => some 's'
  | .anchors => some 'a'
  | .scenario => some 'S'
  | .duration => some 'd'
  | .matching => some 'm'
  | .config => some 'c'
  | .verbose => some 'v'
  | .help => some 'h'
  | .seeds | .json | .trace => none

/-- The option is followed by a value. -/
def takesValue : Key → Bool
  | .verbose | .json | .help => false
  | _ => true

end Key

namespace Options

/-- Set an option that has no value. -/
def setFlag (o : Options) : Key → Except Stop Options
  | .verbose => .ok { o with verbose := true }
  | .json => .ok { o with json := true }
  | .help => .error .help
  | _ => .error .usage

/-- A text that is not empty. -/
def path? (text : String) : Option String :=
  if text.isEmpty then none else some text

/-- Set an option to a value, unless the value is wrong. -/
def setValue? (o : Options) (value : String) : Key → Option Options
  | .seed => do return { o with seed := (← Text.natBelow? UInt64.size value).toUInt64 }
  | .anchors => do return { o with anchors := ← Text.natBelow? UInt64.size value }
  | .scenario => some { o with scenario := value }
  | .seeds => do return { o with seeds := ← Text.natBelow? UInt64.size value }
  | .duration => do return { o with duration := ← Text.float? value }
  | .matching => do return { o with strategy := some (← (Strategy.parse value).toOption) }
  | .config => do return { o with config := some (← path? value) }
  | .trace => do return { o with tracePath := some (← path? value) }
  | .verbose | .json | .help => none

end Options

/-- Options that have been read, and which of them were given. -/
structure Given where
  options : Options := {}
  keys : List Key := []

namespace Given

/-- Note that an option is given, which may happen only once. -/
def mark (g : Given) (key : Key) : Except Stop Given :=
  if g.keys.contains key then .error .usage else .ok { g with keys := key :: g.keys }

/-- Take an option without a value. -/
def flag (g : Given) (key : Key) : Except Stop Given := do
  let options ← g.options.setFlag key
  return { ← g.mark key with options }

/-- Take an option with its value. -/
def value (g : Given) (key : Key) (text : String) : Except Stop Given := do
  match g.options.setValue? text key with
  | some options => return { ← g.mark key with options }
  | none => throw .usage

end Given

/-- An option whose value must be the next argument. -/
abbrev Pending := Option Key

/-- An argument that can only be an option: it starts with a dash and is more than that. -/
def looksLikeOption (arg : String) : Bool :=
  arg.startsWith "-" && arg ≠ "-"

/-- Take an argument that starts with two dashes. -/
def takeLong (g : Given) (arg : List Char) : Except Stop (Given × Pending) := do
  let (name, rest) := arg.span (· ≠ '=')
  let some key := Key.all.find? (·.long = String.ofList name) | throw .usage
  match rest with
  | [] =>
    if key.takesValue then return (g, some key)
    else return (← g.flag key, none)
  | _ :: text =>
    if key.takesValue then return (← g.value key (String.ofList text), none)
    else throw .usage

/-- Take the letters after a single dash. -/
def takeShort (g : Given) : List Char → Except Stop (Given × Pending)
  | [] => return (g, none)
  | letter :: rest => do
    let some key := Key.all.find? (·.short? = some letter) | throw .usage
    if key.takesValue then
      match rest with
      | [] => return (g, some key)
      | '=' :: text => return (← g.value key (String.ofList text), none)
      | text => return (← g.value key (String.ofList text), none)
    else takeShort (← g.flag key) rest

/-- Take all arguments. -/
def take (g : Given) (pending : Pending) : List String → Except Stop Given
  | [] => if pending.isSome then .error .usage else .ok g
  | arg :: rest => do
    match pending with
    | some key =>
      if looksLikeOption arg then throw .usage
      take (← g.value key arg) none rest
    | none =>
      match arg.toList with
      | ['-', '-'] => if rest.isEmpty then return g else throw .usage
      | '-' :: '-' :: name =>
        let (g, pending) ← takeLong g name
        take g pending rest
      | '-' :: letter :: letters =>
        let (g, pending) ← takeShort g (letter :: letters)
        take g pending rest
      | _ => throw .usage

/-- The options that the arguments give. -/
def Options.parse (args : List String) : Except Stop Options :=
  (take {} none args).map (·.options)

end Ranging.CommandLine
