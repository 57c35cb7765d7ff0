import Marginalia.CommandLine.Run
import Marginalia.Markup.Reading

/-!
# Layout for a plain console

How the output of a command is laid out where no colors can be shown, and what is said of warnings
and of the way in which a command ended.
-/

namespace Marginalia.CommandLine

/-- A line of an outline, given the rest of its branch. -/
def branchLines (last : Bool) (branch : Branch) : List Text :=
  let start : Text := if last then "└── " else "├── "
  let bar : Text := if last then "    " else "│   "
  let count := branch.leaves.length
  (start ++ Markup.plain branch.label) :: branch.leaves.zipIdx.map fun (leaf, n) =>
    bar ++ (if n + 1 = count then ("└── " : Text) else "├── ") ++ Markup.plain leaf

/-- The lines of an outline. -/
def outlineLines (outline : Outline) : List Text :=
  let count := outline.branches.length
  Markup.plain outline.label :: outline.branches.zipIdx.flatMap fun (branch, n) =>
    branchLines (n + 1 = count) branch

/-- The lines of something for the console. -/
def Printed.lines : Printed → List Text
  | markup text => [Markup.plain text]
  | tree outline => outlineLines outline
  | table columns rows => (columns :: rows).map (Text.join "  ")
  | rule title => [("── " : Text) ++ title ++ (" ──" : Text)]

/-- What is said of a warning. -/
def warningLine : Warning → Text
  | .malformedSettings _ => "Ignoring malformed settings"
  | .unreadableSettings _ => "Could not read settings file"
  | .unusableTags _ => "Tag configuration is invalid, no tags will be matched"
  | .skipped path fault =>
    ("Skipping " : Text) ++ path ++ (match fault.message? path with
      | some message => (": " : Text) ++ message
      | none => [])
  | .abandonedBatch => "Error in watcher callback"

/-- What is said of a command line that is not understood. -/
def usageLine : UsageFault → Text
  | .noArguments => "Missing command."
  | .noSuchOption => "No such option."
  | .badOptionUse => "An option lacks its value, or takes none."
  | .badValue none => "Invalid value."
  | .badValue (some message) => message
  | .badArguments => "Unknown command or unexpected arguments."

/-- How commands are used. -/
def helpLines : List Text :=
  ["Usage: marginalia [-v] COMMAND [ROOT] [OPTIONS]",
   "  list   [--scope project|current] [--file FILE] [--hide TAG]...",
   "         [--sort-done-last|--no-sort-done-last] [--expand|--collapse]",
   "  count  [--tag TAG]",
   "  watch"]

/-- What is said at the end of a command. -/
def Ending.lines : Ending → List Text
  | done => []
  | help => helpLines
  | usage problem => [usageLine problem]
  | fault _ => ["The command could not be carried out."]

/-- The code with which a command exits. -/
def Ending.exitCode : Ending → UInt32
  | done | help => 0
  | usage _ => 2
  | fault _ => 1

end Marginalia.CommandLine
