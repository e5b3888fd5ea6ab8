/-! The arguments of the program: which command they ask for. Each level, that of the program and
that of a command, has options of its own. An option has a letter and a name; a value follows it as
the next argument, unless that starts with a dash, or is attached to it. An option with a value is
given once. -/
namespace LiteModel

inductive Command where
  | exportModel (config : Option String) (model output : String) (description : Option String)
  | inspect (file : String)
deriving DecidableEq, Repr

inductive CommandLine where
  | run (command : Command)
  | version
  | help
  | refused
deriving DecidableEq, Repr

namespace CommandLine

inductive Effect where
  | count
  | version
  | help
  | path
  | text
deriving DecidableEq, Repr

structure Flag where
  letter : Char
  name : String
  effect : Effect
deriving DecidableEq, Repr

def programFlags : List Flag :=
  [⟨'c', "config", .path⟩, ⟨'v', "verbose", .count⟩, ⟨'V', "version", .version⟩,
    ⟨'h', "help", .help⟩]

def commandFlags : List Flag :=
  [⟨'c', "config", .path⟩, ⟨'v', "verbose", .count⟩, ⟨'h', "help", .help⟩]

def exportFlags : List Flag :=
  [⟨'m', "model", .path⟩, ⟨'o', "output", .path⟩, ⟨'d', "description", .text⟩] ++ commandFlags

def inspectFlags : List Flag := ⟨'f', "file", .path⟩ :: commandFlags

abbrev Values := List (String × String)

inductive LevelEnd where
  | complete (values : Values)
  | name (values : Values) (name : String) (rest : List String)
  | version
  | help
  | refused
deriving DecidableEq, Repr

inductive Reading where
  | go (values : Values)
  | pending (flag : Flag)
  | stop (ending : LevelEnd)
deriving DecidableEq, Repr

def store? (values : Values) (flag : Flag) (value : String) : Option Values :=
  if (values.lookup flag.name).isSome then none
  else if value.isEmpty && flag.effect != .text then none
  else some ((flag.name, value) :: values)

def stored (values : Values) (flag : Flag) (value : String) : Reading :=
  match store? values flag value with
  | some values => .go values
  | none => .stop .refused

def letters (flags : List Flag) (values : Values) : List Char → Reading
  | [] => .go values
  | c :: rest =>
    match flags.find? (·.letter == c) with
    | none => .stop .refused
    | some flag =>
      match flag.effect, rest with
      | .count, rest => letters flags values rest
      | .version, _ => .stop .version
      | .help, _ => .stop .help
      | _, [] => .pending flag
      | _, '=' :: value => stored values flag (String.ofList value)
      | _, value => stored values flag (String.ofList value)

def named (flags : List Flag) (values : Values) (text : List Char) : Reading :=
  let name := String.ofList (text.takeWhile (· != '='))
  match flags.find? (·.name == name), text.dropWhile (· != '=') with
  | none, _ => .stop .refused
  | some flag, [] =>
    match flag.effect with
    | .count => .go values
    | .version => .stop .version
    | .help => .stop .help
    | _ => .pending flag
  | some flag, _ :: value =>
    match flag.effect with
    | .path | .text => stored values flag (String.ofList value)
    | _ => .stop .refused

def isOption (argument : String) : Bool :=
  match argument.toList with
  | '-' :: _ :: _ => true
  | _ => false

def options (flags : List Flag) (values : Values) (argument : String) : Reading :=
  match argument.toList with
  | '-' :: '-' :: text => named flags values text
  | _ :: text => letters flags values text
  | [] => .stop .refused

def level (flags : List Flag) (values : Values) : List String → LevelEnd
  | [] => .complete values
  | "--" :: rest => if rest.isEmpty then .complete values else .refused
  | argument :: rest =>
    if isOption argument then
      match options flags values argument, rest with
      | .go values, rest => level flags values rest
      | .stop ending, _ => ending
      | .pending _, [] => .refused
      | .pending flag, value :: rest =>
        if isOption value then .refused
        else match store? values flag value with
          | some values => level flags values rest
          | none => .refused
    else .name values argument rest

def command (flags : List Flag) (make? : Values → Option Command) (above : Values)
    (arguments : List String) : CommandLine :=
  match level flags [] arguments with
  | .complete values =>
    match make? (values ++ above) with
    | some command => .run command
    | none => .refused
  | .help => .help
  | _ => .refused

def exportModel? (values : Values) : Option Command := do
  return .exportModel (values.lookup "config") (← values.lookup "model")
    (← values.lookup "output") (values.lookup "description")

def inspect? (values : Values) : Option Command := do
  return .inspect (← values.lookup "file")

def isTopic (arguments : List String) : Bool :=
  [[], ["export"], ["inspect"], ["help"]].contains arguments

def ofArguments (arguments : List String) : CommandLine :=
  match level programFlags [] arguments with
  | .name values "export" rest => command exportFlags exportModel? values rest
  | .name values "inspect" rest => command inspectFlags inspect? values rest
  | .name _ "help" rest => if isTopic rest then .help else .refused
  | .version => .version
  | .help => .help
  | _ => .refused

end CommandLine

end LiteModel
