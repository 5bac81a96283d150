import ChatCommands.Text.Blank
import ChatCommands.Text.Word

/-!
# Arguments of the command-line tool

Options may stand anywhere, with their values behind an equals sign or as the next
argument.  Behind two dashes nothing is an option any more.
-/

namespace ChatCommands.Tool

/-- What the tool is asked to do. -/
inductive Job where
  /-- Print the payloads of a manifest, or that of one root. -/
  | schema (manifest : String) (root : Option String)
  /-- Compile every manifest at or below a path. -/
  | check (path : String)
  /-- Print the usage lines of a manifest behind a trigger. -/
  | usage (manifest : String) (trigger : Option String)
  /-- Compare a snapshot with a manifest. -/
  | diff (snapshot manifest : String)
deriving DecidableEq

/-- Everything that the arguments say. -/
structure Arguments where
  job : Job
  verbose : Bool
  config : Option String
deriving DecidableEq

/-- Why there is nothing to do. -/
inductive Stop where
  | help
  | version
  | misuse
deriving DecidableEq

/-- An option with its short form; some options have a value, which may have to
be nonempty. -/
structure OptionSpec where
  name : String
  short : Option Char := none
  hasValue : Bool := true
  isPath : Bool := false

/-- The options that every job has. -/
def sharedOptions : List OptionSpec :=
  [{ name := "config", short := some 'c', isPath := true },
   { name := "verbose", short := some 'v', hasValue := false },
   { name := "help", short := some 'h', hasValue := false }]

/-- The options that stand before the name of a job. -/
def outerOptions : List OptionSpec :=
  { name := "version", short := some 'V', hasValue := false } :: sharedOptions

/-- Options with their values, and the other arguments in order. -/
structure Given where
  options : List (String × String) := []
  others : List String := []

namespace Given

/-- The value of an option. -/
def value? (g : Given) (name : String) : Option String :=
  (g.options.find? (·.1 == name)).map (·.2)

/-- Adds an option, which can be given only once. -/
def add (g : Given) (option : OptionSpec) (value : String) : Except Stop Given :=
  if option.name == "help" then .error .help
  else if option.name == "version" then .error .version
  else if (g.value? option.name).isSome || (option.isPath && value == "") then .error .misuse
  else .ok { g with options := g.options ++ [(option.name, value)] }

end Given

/-- Whether an argument has the form of an option. -/
def looksLikeOption (arg : String) : Bool :=
  Text.startsWith arg "-" && arg != "-"

/-- The value of an option as the next argument. -/
def nextValue : List String → Except Stop (String × List String)
  | [] => .error .misuse
  | arg :: rest => if looksLikeOption arg then .error .misuse else .ok (arg, rest)

/-- An option by its long name. -/
def readLong (specs : List OptionSpec) (g : Given) (arg : String) (rest : List String) :
    Except Stop (Given × List String) := do
  let (name, value) := match Text.splitOnce '=' arg with
    | some (name, value) => (name, some value)
    | none => (arg, none)
  match specs.find? (·.name == name) with
  | none => .error .misuse
  | some spec =>
    match spec.hasValue, value with
    | true, some value => return (← g.add spec value, rest)
    | true, none =>
      let (value, rest) ← nextValue rest
      return (← g.add spec value, rest)
    | false, none => return (← g.add spec "", rest)
    | false, some _ => .error .misuse

/-- Options by their letters, of which the last one may have a value. -/
def readShort (specs : List OptionSpec) (g : Given) (rest : List String) :
    List Char → Except Stop (Given × List String)
  | [] => .ok (g, rest)
  | c :: cs =>
    match specs.find? (·.short == some c) with
    | none => .error .misuse
    | some spec =>
      if spec.hasValue then do
        match cs with
        | [] =>
          let (value, rest) ← nextValue rest
          return (← g.add spec value, rest)
        | '=' :: value => return (← g.add spec (String.ofList value), rest)
        | value => return (← g.add spec (String.ofList value), rest)
      else do
        readShort specs (← g.add spec "") rest cs

/-- Reads one option at the front of arguments. -/
def readOption (specs : List OptionSpec) (g : Given) (arg : String) (rest : List String) :
    Except Stop (Given × List String) :=
  match Text.dropLead ['-', '-'] arg.toList with
  | some long => readLong specs g (String.ofList long) rest
  | none => readShort specs g rest (arg.toList.drop 1)

/-- Reads the arguments of a job that takes up to `limit` arguments besides its
options. -/
def readJob (specs : List OptionSpec) (limit : Nat) :
    Nat → Given → List String → Except Stop Given
  | 0, g, _ => .ok g
  | _, g, [] => .ok g
  | fuel + 1, g, arg :: rest =>
    let other (g : Given) (arg : String) : Except Stop Given :=
      if g.others.length < limit && arg != "" then .ok { g with others := g.others ++ [arg] }
      else .error .misuse
    if arg == "--" then rest.foldlM other g
    else if looksLikeOption arg then do
      let (g, rest) ← readOption specs g arg rest
      readJob specs limit fuel g rest
    else do
      readJob specs limit fuel (← other g arg) rest

/-- The jobs by name, with their own options and the greatest number of their other
arguments. -/
def jobs : List (String × List OptionSpec × Nat) :=
  [("schema", [{ name := "root" }], 1), ("check", [], 1),
   ("usage", [{ name := "prefix" }], 1), ("diff", [], 2)]

/-- The job of a name. -/
def Job.ofGiven (name : String) (g : Given) : Except Stop Job :=
  match name, g.others with
  | "schema", [manifest] => .ok (.schema manifest (g.value? "root"))
  | "check", [] => .ok (.check ".")
  | "check", [path] => .ok (.check path)
  | "usage", [manifest] => .ok (.usage manifest (g.value? "prefix"))
  | "diff", [snapshot, manifest] => .ok (.diff snapshot manifest)
  | _, _ => .error .misuse

/-- The answer to a request for help, which names one job or none. -/
def askedHelp : List String → Stop
  | [] => .help
  | [name] => if name == "help" || jobs.any (·.1 == name) then .help else .misuse
  | _ => .misuse

/-- The arguments behind the name of a job.  Options behind the name go before
those in front of it. -/
def readBehind (outer : Given) (name : String) (args : List String) : Except Stop Arguments :=
  if name == "help" then .error (askedHelp args)
  else
    match jobs.find? (·.1 == name) with
    | none => .error .misuse
    | some (_, specs, limit) => do
      let g ← readJob (specs ++ sharedOptions) limit args.length {} args
      let job ← Job.ofGiven name g
      return {
        job
        verbose := (g.value? "verbose").isSome || (outer.value? "verbose").isSome
        config := (g.value? "config").or (outer.value? "config") }

/-- Reads arguments behind the options before the name of the job. -/
def readFrom : Nat → Given → List String → Except Stop Arguments
  | 0, _, _ => .error .misuse
  | _, _, [] => .error .misuse
  | fuel + 1, g, arg :: rest =>
    if arg == "--" then .error .misuse
    else if looksLikeOption arg then do
      let (g, rest) ← readOption outerOptions g arg rest
      readFrom fuel g rest
    else readBehind g arg rest

/-- Reads arguments. -/
def Arguments.read (args : List String) : Except Stop Arguments :=
  readFrom (args.length + 1) {} args

end ChatCommands.Tool
