import Marginalia.Text
import Marginalia.Binary64

/-!
# JSON values

A JSON value as it was written: an object keeps its members in order, repeated keys included.
Looking up a key gives the last of its values.
-/

namespace Marginalia

/-- A JSON value. -/
inductive Json where
  | null
  | bool (b : Bool)
  | integer (i : Int)
  | real (x : Binary64)
  | string (t : Text)
  | array (items : List Json)
  | object (members : List (Text × Json))
deriving Inhabited

namespace Json

/-- The value of a key among members: the last one given. -/
def lookup (key : Text) (members : List (Text × Json)) : Option Json :=
  members.foldl (fun found (k, v) => if k = key then some v else found) none

/-- The value of a key in an object. -/
def get? (value : Json) (key : Text) : Option Json :=
  match value with
  | object members => lookup key members
  | _ => none

/-- A member added at the end hides the earlier ones with its key. -/
theorem lookup_append_self (key : Text) (members : List (Text × Json)) (value : Json) :
    lookup key (members ++ [(key, value)]) = some value := by
  simp [lookup, List.foldl_append]

end Json

end Marginalia
