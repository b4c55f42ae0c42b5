import FlagLine.Host.Path
import FlagLine.Data.Value
/-!
# Reading the command line's arguments

The options are `--config`/`-c`, `--config-dir`, `--theme`/`-t` and `--granularity`/`-g`,
each with a value, the switches `--no-color`, `--print`/`-p`, and `--help`/`-h` and
`--version`/`-V`, which stop with a message. Every other argument is a word of the
command line to edit. A long option may be shortened to any prefix that names only it,
and may carry its value after `=`; a short option may carry its value joined to it, and
short switches may be joined together. A negative number, an argument with a space in it
and everything after `--` are words, not options. The words are taken as one run: the
first run of words before an option, or else the words after the last option; any other
words are not recognised. Paths are normalised as paths, and the granularity is an
integer as a decimal text.
-/

namespace FlagLine.Cli

/-- What an option sets. -/
inductive Setting where
  | help
  | config
  | configDir
  | theme
  | granularity
  | noColor
  | printResult
  | version
  deriving DecidableEq, Repr, Inhabited

/-- The option strings and what they set, in the order they are defined. -/
def optionStrings : List (String × Setting) :=
  [("-h", .help), ("--help", .help), ("--config", .config), ("-c", .config),
   ("--config-dir", .configDir), ("--theme", .theme), ("-t", .theme),
   ("--granularity", .granularity), ("-g", .granularity), ("--no-color", .noColor),
   ("--print", .printResult), ("-p", .printResult), ("--version", .version), ("-V", .version)]

def Setting.takesValue : Setting → Bool
  | .config | .configDir | .theme | .granularity => true
  | _ => false

def Setting.title : Setting → String
  | .help => "-h/--help"
  | .config => "--config/-c"
  | .configDir => "--config-dir"
  | .theme => "--theme/-t"
  | .granularity => "--granularity/-g"
  | .noColor => "--no-color"
  | .printResult => "--print/-p"
  | .version => "--version/-V"

/-- An option found in an argument: what it sets, the option string, and a value given
with it. -/
structure Found where
  setting : Setting
  name : String
  joined : Option String
  deriving DecidableEq, Repr, Inhabited

/-- An argument as read: a word, the separator `--`, or an option, known or not. -/
inductive Arg where
  | word (s : String)
  | separator
  | option (found : Option Found) (text : String)
  deriving DecidableEq, Repr, Inhabited

/-- The options an argument may abbreviate: a long option by prefix up to any `=`, a short
one by its first two characters with the rest as its value. -/
def candidates (s : String) : List Found :=
  if s.startsWith "--" then
    let (pre, joined) := match Text.splitFirst? ['='] s.toList with
      | some (a, b) => (String.ofList a, some (String.ofList b))
      | none => (s, none)
    optionStrings.filterMap (fun (o, k) => if o.startsWith pre then some ⟨k, o, joined⟩ else none)
  else
    let short := String.ofList (s.toList.take 2)
    optionStrings.filterMap (fun (o, k) =>
      if o == short then some ⟨k, o, some (String.ofList (s.toList.drop 2))⟩
      else if o.startsWith s then some ⟨k, o, none⟩ else none)

/-- Whether an argument reads as a negative number: a minus, then digits with at most one
point that has digits after it, optionally ending in a newline. -/
def isNegativeNumber (s : String) : Bool :=
  match s.toList with
  | '-' :: rest =>
    let body := if rest.getLast? == some '\n' then rest.dropLast else rest
    let (whole, frac) := match Text.splitFirst? ['.'] body with
      | some (a, b) => (a, some b)
      | none => (body, none)
    match frac with
    | none => !whole.isEmpty && whole.all Text.isDecimal
    | some f => whole.all Text.isDecimal && !f.isEmpty && f.all Text.isDecimal
  | _ => false

/-- How an argument reads; an abbreviation that names several options is an error. -/
def readArg (s : String) : Except String Arg :=
  if s.isEmpty || !s.startsWith "-" then .ok (.word s)
  else match optionStrings.lookup s with
  | some k => .ok (.option (some ⟨k, s, none⟩) s)
  | none =>
    if s.length == 1 then .ok (.word s)
    else
      let byEquals : Option Found := match Text.splitFirst? ['='] s.toList with
        | some (a, b) => (optionStrings.lookup (String.ofList a)).map (⟨·, String.ofList a, some (String.ofList b)⟩)
        | none => none
      match byEquals with
      | some f => .ok (.option (some f) s)
      | none =>
        match candidates s with
        | [f] => .ok (.option (some f) s)
        | [] =>
          if isNegativeNumber s || s.toList.contains ' ' then .ok (.word s) else .ok (.option none s)
        | fs =>
          let names := ", ".intercalate (fs.map Found.name)
          .error s!"ambiguous option: {s} could match {names}"

/-- The arguments as read; everything after the first `--` is a word. -/
def readArgs : List String → Except String (List Arg)
  | [] => .ok []
  | "--" :: rest => .ok (.separator :: rest.map Arg.word)
  | s :: rest => do
    let a ← readArg s
    pure (a :: (← readArgs rest))

/-- What the arguments ask for. -/
structure Options where
  command : List String := []
  config : Option String := none
  configDir : Option String := none
  theme : Option String := none
  granularity : Option Int := none
  noColor : Bool := false
  printResult : Bool := false
  deriving DecidableEq, Repr, Inhabited

/-- How reading the arguments ends: with options, with help or the version asked for, or
with an error. -/
inductive Parsed where
  | options (o : Options)
  | help
  | version
  | error (message : String)
  deriving DecidableEq, Repr, Inhabited

def digitValue (c : Char) : Nat :=
  match Text.decimalRanges.find? (fun r => r.1 ≤ c.toNat && c.toNat ≤ r.2) with
  | some r => (c.toNat - r.1) % 10
  | none => 0

/-- The integer a text writes: blanks around, an optional sign, and decimal digits with
single underscores between them. -/
def integerOf? (s : String) : Option Int :=
  let cs := Text.strip s.toList
  let (negative, ds) := match cs with
    | '-' :: r => (true, r)
    | '+' :: r => (false, r)
    | r => (false, r)
  let groups := ds.splitOn '_'
  if ds.isEmpty || groups.any List.isEmpty || !(ds.all (fun c => c == '_' || Text.isDecimal c)) then none
  else
    let n : Nat := (ds.filter (· != '_')).foldl (fun acc c => 10 * acc + digitValue c) 0
    some (if negative then -(n : Int) else n)

def apply (o : Options) (k : Setting) (value : String) : Except String Options :=
  match k with
  | .config => .ok { o with config := some (Path.normal value) }
  | .configDir => .ok { o with configDir := some (Path.normal value) }
  | .theme => .ok { o with theme := some value }
  | .granularity =>
    match integerOf? value with
    | some n => .ok { o with granularity := some n }
    | none => .error s!"argument {k.title}: invalid int value: {quoteText value}"
  | .noColor => .ok { o with noColor := true }
  | .printResult => .ok { o with printResult := true }
  | _ => .ok o

/-- The settings of an option argument with their values, and how many of the arguments
after it they used; joined short switches are read one after another, each taking one
unit of `fuel`. -/
def takeOption : Nat → Found → List Arg → Except String (List (Setting × String) × Nat)
  | 0, _, _ => .ok ([], 0)
  | fuel + 1, f, rest =>
    match f.joined with
    | some v =>
      if f.setting.takesValue then .ok ([(f.setting, v)], 0)
      else if !f.name.startsWith "--" && !v.isEmpty then
        let next := "-" ++ (String.ofList (v.toList.take 1))
        match optionStrings.lookup next with
        | some k =>
          let more := String.ofList (v.toList.drop 1)
          match takeOption fuel ⟨k, next, if more.isEmpty then none else some more⟩ rest with
          | .ok (ss, used) => .ok ((f.setting, "") :: ss, used)
          | .error e => .error e
        | none => .error s!"argument {f.setting.title}: ignored explicit argument {quoteText v}"
      else .error s!"argument {f.setting.title}: ignored explicit argument {quoteText v}"
    | none =>
      if f.setting.takesValue then
        match rest with
        | .word w :: _ => .ok ([(f.setting, w)], 1)
        | _ => .error s!"argument {f.setting.title}: expected one argument"
      else .ok ([(f.setting, "")], 0)

/-- The words of a run with the first separator taken out. -/
def runWords (run : List Arg) : List String :=
  let ws := run.filterMap (fun a => match a with
    | .word w => some w
    | .separator => some "--"
    | .option _ t => some t)
  ws.erase "--"

/-- Reads the arguments from a position, given the options so far, whether the words are
already taken, the words not recognised, and the current run of words. -/
def consume : List Arg → Options → Bool → List String → List Arg → Parsed
  | [], o, taken, extras, run =>
    let (o, extras) := if taken then (o, extras ++ runWords run) else ({ o with command := runWords run }, extras)
    let listed := " ".intercalate extras
    if extras.isEmpty then .options o else .error s!"unrecognized arguments: {listed}"
  | .option found text :: rest, o, taken, extras, run =>
    let (o, taken, extras) :=
      if run.isEmpty then (o, taken, extras)
      else if taken then (o, taken, extras ++ runWords run)
      else ({ o with command := runWords run }, true, extras)
    match found with
    | none => consume rest o taken (extras ++ [text]) []
    | some f =>
      match takeOption (text.length + 1) f rest with
      | .error e => .error e
      | .ok (settings, used) =>
        let step : Except Parsed Options := settings.foldlM (fun o (k, v) =>
          match k with
          | .help => .error .help
          | .version => .error .version
          | _ => (apply o k v).mapError Parsed.error) o
        match step with
        | .error p => p
        | .ok o => consume (rest.drop used) o taken extras []
  | a :: rest, o, taken, extras, run => consume rest o taken extras (run ++ [a])
termination_by args => args.length
decreasing_by
  all_goals simp only [List.length_cons, List.length_drop]
  all_goals omega

def parse (args : List String) : Parsed :=
  match readArgs args with
  | .error e => .error e
  | .ok as => consume as {} false [] []

end FlagLine.Cli
