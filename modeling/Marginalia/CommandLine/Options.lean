import Marginalia.Text

/-!
# Options of a command line

A command knows some switches by name.  A switch stands for itself or takes a value; a long switch
has it in the same argument after an equals sign or in the next argument, a short one in the rest
of its argument or in the next.  Short switches may share one argument.  Two dashes alone end the
switches, and a single dash is no switch.

`parse` sorts the arguments into the meanings of the switches, in order, and the arguments that
are left.  Where switches have to come first, everything from the first other argument on is left.
-/

namespace Marginalia.CommandLine

/-- Why a command line is not understood. -/
inductive UsageFault where
  /-- There are no arguments at all. -/
  | noArguments
  | noSuchOption
  /-- A switch lacks its value, or is given one that it does not take. -/
  | badOptionUse
  /-- A value does not fit, perhaps for a reason to be told. -/
  | badValue (message? : Option Text)
  /-- There are too many or too few arguments, or no such command. -/
  | badArguments
deriving DecidableEq

/-- A switch and what it means. -/
inductive Switch (α : Type) where
  | flag (meaning : α)
  | value (meaning : Text → α)

/-- What the arguments of a command say. -/
structure Parsed (α : Type) where
  /-- The meanings of the switches, in order. -/
  meanings : List α := []
  /-- The other arguments. -/
  arguments : List Text := []
deriving DecidableEq

variable {α : Type}

/-- Adds meanings in front. -/
def Parsed.mean (meanings : List α) (parsed : Parsed α) : Parsed α :=
  { parsed with meanings := meanings ++ parsed.meanings }

/-- Adds an argument in front. -/
def Parsed.argue (argument : Text) (parsed : Parsed α) : Parsed α :=
  { parsed with arguments := argument :: parsed.arguments }

/-- Whether an argument begins like a switch. -/
def isSwitch : Text → Bool
  | .char '-' :: _ :: _ => true
  | _ => false

/-- Whether an argument begins like a long switch. -/
def isLong : Text → Bool
  | .char '-' :: .char '-' :: _ => true
  | _ => false

/-- The name of a switch and the value that an equals sign gives it. -/
def splitValue (argument : Text) : Text × Option Text :=
  match argument.dropWhile (· != .char '=') with
  | [] => (argument, none)
  | _ :: value => (argument.takeWhile (· != .char '='), some value)

/-- The long switch of a name. -/
def long? (switches : List (Text × Switch α)) (name : Text) : Option (Switch α) :=
  if name.length ≤ 2 then none else switches.lookup name

/-- The meanings of short switches that share an argument; the last may still want a value. -/
def cluster (switches : List (Text × Switch α)) :
    Text → Except UsageFault (List α × Option (Text → α))
  | [] => .ok ([], none)
  | letter :: rest =>
    match switches.lookup [.char '-', letter] with
    | none => .error .noSuchOption
    | some (.flag meaning) =>
      (cluster switches rest).map fun (meanings, wanting) => (meaning :: meanings, wanting)
    | some (.value meaning) =>
      if rest.isEmpty then .ok ([], some meaning) else .ok ([meaning rest], none)

/-- What a switch means on its own, and whether it still wants a value. -/
def meaningOf (switches : List (Text × Switch α)) (argument : Text) :
    Except UsageFault (List α × Option (Text → α)) :=
  let (name, value?) := splitValue argument
  match long? switches name, value? with
  | some (.flag meaning), none => .ok ([meaning], none)
  | some (.flag _), some _ => .error .badOptionUse
  | some (.value meaning), some value => .ok ([meaning value], none)
  | some (.value meaning), none => .ok ([], some meaning)
  | none, _ => if isLong argument then .error .noSuchOption else cluster switches (argument.drop 1)

/-- Sorts the arguments of a command. -/
def parse (switches : List (Text × Switch α)) (mixed : Bool) :
    List Text → Except UsageFault (Parsed α)
  | [] => .ok {}
  | argument :: rest =>
    if argument = "--" then .ok { arguments := rest }
    else if isSwitch argument then
      match meaningOf switches argument with
      | .error fault => .error fault
      | .ok (meanings, none) => (parse switches mixed rest).map (·.mean meanings)
      | .ok (meanings, some meaning) =>
        match rest with
        | [] => .error .badOptionUse
        | value :: rest =>
          (parse switches mixed rest).map (·.mean (meanings ++ [meaning value]))
    else if mixed then (parse switches mixed rest).map (·.argue argument)
    else .ok { arguments := argument :: rest }

/-- Arguments that are no switches are all left. -/
theorem parse_of_no_switch {switches : List (Text × Switch α)} {arguments : List Text}
    (h : ∀ a ∈ arguments, isSwitch a = false) :
    parse switches true arguments = .ok { arguments } := by
  induction arguments with
  | nil => rfl
  | cons a rest ih =>
    have ha : isSwitch a = false := h a (by simp)
    have hd : a ≠ ("--" : Text) := by
      rintro rfl
      exact absurd ha (by decide)
    have hr := ih fun b hb => h b (by simp [hb])
    simp [parse, hd, ha, hr, Except.map, Parsed.argue]

end Marginalia.CommandLine
