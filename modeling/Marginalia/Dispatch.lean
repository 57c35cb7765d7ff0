import Marginalia.Changes
import Marginalia.Warning

/-!
# Dispatching changes

Batches of changes are dispatched to a handler of file events.  The events of a batch are handed
over in order, each when the call for the one before has ended; the first call that fails is the
last of its batch, and nothing comes of the failure but a warning.  The next batch is dispatched all
the same.

What a handler does with an event is its own affair: it may have a state, which a call that fails
may change as well, and each batch finds it in a world of its own.
-/

namespace Marginalia

/-- What a handler makes of a file event in a world: its state afterwards, and whether the call
fails. -/
abbrev Handler (World State : Type) := World → State → FileEvent → State × Bool

/-- What came of a batch: the calls that were made, and what was warned of. -/
structure Dispatch where
  calls : List FileEvent := []
  warnings : List Warning := []
deriving DecidableEq

namespace Dispatch

variable {World State : Type}

/-- Hands events to a handler, up to the first call that fails. -/
def ofEvents (handle : Handler World State) (world : World) :
    State → List FileEvent → State × Dispatch
  | state, [] => (state, {})
  | state, event :: rest =>
    match handle world state event with
    | (state, true) => (state, { calls := [event], warnings := [.abandonedBatch] })
    | (state, false) =>
      let (state, later) := ofEvents handle world state rest
      (state, { later with calls := event :: later.calls })

/-- Dispatches batches of changes, each in its world. -/
def ofBatches (handle : Handler World State) :
    State → List (World × List Change) → State × List Dispatch
  | state, [] => (state, [])
  | state, (world, changes) :: rest =>
    let (state, dispatch) := ofEvents handle world state (Changes.events changes)
    let (state, later) := ofBatches handle state rest
    (state, dispatch :: later)

end Dispatch

end Marginalia
