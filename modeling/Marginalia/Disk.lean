import Marginalia.Path
import Marginalia.Text.Utf8

/-!
# Disks

A disk holds items at places: files with their bytes, links with the path they point to, and
folders.  A place is the list of names that leads to it from the root, and the root itself is
always a folder.

`Disk.locate` follows a path from the root, through links, to the place it means; it takes at
most `linkLimit` links on the way.  What is read from a disk does not depend on the order in which
its items are listed, as long as no place is taken twice.
-/

namespace Marginalia

/-- What stands at a place. -/
inductive Item where
  | file (content : List UInt8)
  | link (target : Text)
  | folder
deriving DecidableEq, Inhabited

/-- A place on a disk: the names that lead to it from the root. -/
abbrev Place := List Text

/-- A disk: the items below the root with their places. -/
structure Disk where
  items : List (Place × Item) := []
deriving DecidableEq, Inhabited

namespace Disk

/-- Why a path leads nowhere, or not to what was asked for. -/
inductive Fault where
  | notFound
  /-- Something on the way, or asked to be a folder, is none. -/
  | notFolder
  | isFolder
  | tooManyLinks
  | nameTooLong
  /-- The path holds a null character. -/
  | nullInPath
  /-- The path cannot be written in bytes. -/
  | noBytes
deriving DecidableEq

/-- Whether a fault lies in the text of the path, so that no disk was asked. -/
def Fault.isMalformedPath : Fault → Bool
  | nullInPath | noBytes => true
  | _ => false

/-- How many links one path may go through. -/
def linkLimit : Nat := 40

/-- The longest name, in bytes. -/
def nameLimit : Nat := 255

/-- The longest path, in bytes. -/
def pathLimit : Nat := 4095

/-- What stands at a place. -/
def item? (disk : Disk) (place : Place) : Option Item :=
  if place.isEmpty then some .folder else disk.items.lookup place

/-- The names that the target of a link goes through; a slash at the end asks for a folder. -/
def targetParts (target : Text) : List Text :=
  let parts := (Text.splitOn (.char '/') target).filter fun part => !part.isEmpty
  if target.getLast? = some (.char '/') then parts ++ [Path.dot] else parts

/-- Goes from a place through some names; where there is a link, `follow` goes on from its start
through its target and the rest of the names. -/
def walkWith (disk : Disk) (follow : Place → List Text → Except Fault Place) :
    (place : Place) → (parts : List Text) → Except Fault Place
  | place, [] => .ok place
  | place, part :: rest =>
    if disk.item? place ≠ some .folder then .error .notFolder
    else if part = Path.dot then walkWith disk follow place rest
    else if part = Path.dotDot then walkWith disk follow place.dropLast rest
    else if nameLimit < Utf8.size part then .error .nameTooLong
    else match disk.item? (place ++ [part]) with
      | none => .error .notFound
      | some (.link target) =>
        follow (if Path.originOf target = .relative then place else []) (targetParts target ++ rest)
      | some _ => walkWith disk follow (place ++ [part]) rest

/-- Goes from a place through some names and at most so many links. -/
def walk (disk : Disk) : (links : Nat) → Place → List Text → Except Fault Place
  | 0 => walkWith disk fun _ _ => .error .tooManyLinks
  | links + 1 => walkWith disk (walk disk links)

/-- Whether a code point can be written in bytes: lone surrogates can not, but those that stand
for single bytes. -/
def hasBytes : CodePoint → Bool
  | .char _ => true
  | .surrogate offset => 0x480 ≤ offset.val && offset.val < 0x500

/-- What is malformed about the text of a path. -/
def malformed? (path : Path) : Option Fault :=
  let text := path.toText
  if !text.all hasBytes then some .noBytes
  else if text.contains (.char '\x00') then some .nullInPath
  else none

/-- The place that a path from the root means. -/
def locate (disk : Disk) (path : Path) : Except Fault Place :=
  match malformed? path with
  | some fault => .error fault
  | none =>
    if pathLimit < Utf8.size path.toText then .error .nameTooLong
    else disk.walk linkLimit [] path.parts

/-- Goes from a place through some names without asking whether they exist, so that a double dot
takes back any name; links are followed with `follow`. -/
def realWith (disk : Disk) (follow : Place → List Text → Option Place) :
    (place : Place) → (parts : List Text) → Option Place
  | place, [] => some place
  | place, part :: rest =>
    if part = Path.dot then realWith disk follow place rest
    else if part = Path.dotDot then realWith disk follow place.dropLast rest
    else match disk.item? (place ++ [part]) with
      | some (.link target) =>
        match follow (if Path.originOf target = .relative then place else [])
          (targetParts target) with
        | some real => realWith disk follow real rest
        | none => none
      | _ => realWith disk follow (place ++ [part]) rest

/-- The same, with links nested at most so deep. -/
def realWithin (disk : Disk) : (depth : Nat) → Place → List Text → Option Place
  | 0 => realWith disk fun _ _ => none
  | depth + 1 => realWith disk (realWithin disk depth)

/-- The place that a path from the root stands for when all links are taken out of it, unless they
lead in a circle.  There may be nothing at that place. -/
def realPlace (disk : Disk) (path : Path) : Option Place :=
  disk.realWithin disk.items.length [] path.parts

/-- What a path means, links followed. -/
def find (disk : Disk) (path : Path) : Except Fault Item := do
  match disk.item? (← disk.locate path) with
  | some item => return item
  | none => throw .notFound

/-- The bytes of the file that a path means. -/
def read (disk : Disk) (path : Path) : Except Fault (List UInt8) := do
  match ← disk.find path with
  | .file content => return content
  | _ => throw .isFolder

/-- Whether a path means a file; a path that leads nowhere does not, but a name that is too long
is a fault. -/
def isFile (disk : Disk) (path : Path) : Except Fault Bool :=
  match disk.find path with
  | .ok (.file _) => .ok true
  | .ok _ => .ok false
  | .error .nameTooLong => .error .nameTooLong
  | .error _ => .ok false

/-- Whether a path means a folder. -/
def isFolder (disk : Disk) (path : Path) : Bool :=
  match disk.find path with
  | .ok .folder => true
  | _ => false

/-- The items below a place, with the names that lead to them from there. -/
def below (disk : Disk) (place : Place) : List (List Text × Item) :=
  disk.items.filterMap fun (other, item) =>
    if place.isPrefixOf other && place.length < other.length then
      some (other.drop place.length, item)
    else none

/-- The root is a folder on every disk. -/
theorem item?_root (disk : Disk) : disk.item? [] = some .folder := rfl

/-- A path without names means the root. -/
theorem walk_nil (disk : Disk) (links : Nat) (place : Place) :
    disk.walk links place [] = .ok place := by
  cases links <;> rfl

end Disk

end Marginalia
