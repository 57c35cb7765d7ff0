import Marginalia.CommandLine.Options
import Marginalia.Text
import Marginalia.Unicode.Word

/-!
# Commands

There are three commands: `list` shows the notes of a project, `count` counts them, and `watch`
shows them again whenever files change.  `Invocation.read` finds out what a command line asks for,
as far as that can be told from the words alone.
-/

namespace Marginalia.CommandLine

/-- How much is logged. -/
inductive LogLevel where
  | warning
  | debug
deriving DecidableEq, Inhabited

/-- What `list` is asked for. -/
structure ListOptions where
  scope? : Option Text := none
  file? : Option Text := none
  hidden : List Text := []
  doneLast? : Option Bool := none
  expand : Bool := true
deriving DecidableEq, Inhabited

/-- A command. -/
inductive Command where
  | list (options : ListOptions)
  /-- Counts all tags, or one. -/
  | count (tag? : Option Text)
  | watch
deriving DecidableEq, Inhabited

/-- A command for a project folder. -/
structure Call where
  command : Command
  root : Text := "."
  /-- Whether there are arguments that nobody asked for. -/
  hasExtra : Bool := false
deriving DecidableEq, Inhabited

/-- What a command line asks for. -/
inductive Demand where
  | call (call : Call)
  | help
  | usage (fault : UsageFault)
deriving DecidableEq

/-- What a command line asks for, with the log level if it was set before that was clear. -/
structure Invocation where
  level? : Option LogLevel := none
  demand : Demand
deriving DecidableEq

/-- A switch that is given, or a request for help. -/
inductive Given (α : Type) where
  | help
  | option (set : α → α)

/-- The switches that ask for help. -/
def helpSwitches (α : Type) : List (Text × Switch (Given α)) :=
  [("-h", .flag .help), ("--help", .flag .help)]

/-- A switch that sets something. -/
def flag {α : Type} (name : Text) (set : α → α) : Text × Switch (Given α) :=
  (name, .flag (.option set))

/-- A switch that sets something to its value. -/
def valued {α : Type} (name : Text) (set : Text → α → α) : Text × Switch (Given α) :=
  (name, .value fun value => .option (set value))

/-- Whether help is asked for. -/
def wantsHelp {α : Type} (given : List (Given α)) : Bool := given.any fun
  | .help => true
  | .option _ => false

/-- The options that switches set one after the other. -/
def settle {α : Type} (start : α) (given : List (Given α)) : α :=
  given.foldl (fun options given => match given with
    | .help => options
    | .option set => set options) start

/-- The switches before the command. -/
def commonSwitches : List (Text × Switch (Given LogLevel)) :=
  [flag "-v" fun _ => .debug, flag "--verbose" fun _ => .debug] ++ helpSwitches LogLevel

/-- The switches of `list`. -/
def listSwitches : List (Text × Switch (Given ListOptions)) :=
  [valued "--scope" fun value options => { options with scope? := some value },
   valued "--file" fun value options => { options with file? := some value },
   valued "--hide" fun value options => { options with hidden := options.hidden ++ [value] },
   flag "--sort-done-last" fun options => { options with doneLast? := some true },
   flag "--no-sort-done-last" fun options => { options with doneLast? := some false },
   flag "--expand" fun options => { options with expand := true },
   flag "--collapse" fun options => { options with expand := false }] ++ helpSwitches ListOptions

/-- The switches of `count`. -/
def countSwitches : List (Text × Switch (Given (Option Text))) :=
  [valued "--tag" fun value _ => some value] ++ helpSwitches (Option Text)

/-- What the arguments of a command ask for. -/
def demandOf {α : Type} (switches : List (Text × Switch (Given α))) (start : α)
    (command : α → Command) (arguments : List Text) : Demand :=
  match parse switches true arguments with
  | .error fault => .usage fault
  | .ok parsed =>
    if wantsHelp parsed.meanings then .help
    else .call
      { command := command (settle start parsed.meanings)
        root := parsed.arguments.headD "."
        hasExtra := 1 < parsed.arguments.length }

/-- What the arguments of a command with a name ask for, if there is such a command. -/
def demandNamed? (name : Text) (arguments : List Text) : Option Demand :=
  if name = "list" then some (demandOf listSwitches {} .list arguments)
  else if name = "count" then some (demandOf countSwitches none .count arguments)
  else if name = "watch" then
    some (demandOf (helpSwitches Unit) () (fun _ => .watch) arguments)
  else none

/-- Whether a name begins with something other than a letter or digit. -/
def beginsOddly : Text → Bool
  | [] => false
  | p :: _ => !Unicode.isAlphanumeric p.code

/-- What a command line asks for. -/
def Invocation.read (arguments : List Text) : Invocation :=
  if arguments.isEmpty then { demand := .usage .noArguments }
  else match parse commonSwitches false arguments with
    | .error fault => { demand := .usage fault }
    | .ok parsed =>
      if wantsHelp parsed.meanings then { demand := .help }
      else match parsed.arguments with
        | [] => { demand := .usage .badArguments }
        | name :: rest =>
          match demandNamed? name rest with
          | some demand => { level? := some (settle .warning parsed.meanings), demand }
          | none =>
            { demand := .usage (if beginsOddly name then .noArguments else .badArguments) }

end Marginalia.CommandLine
