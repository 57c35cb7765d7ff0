import Marginalia.Text

/-!
# Observers

Observers subscribe to topics and are called whenever a topic is published.  Who is called is
settled when publishing begins: whatever an observer then does to the subscriptions counts for
the next time.  An observer that fails is reported, and the others are called all the same.

An observer is known by its name, and its behaviour is the one that was given with the name first.
It may subscribe, end subscriptions and, if it is patient enough to wait, publish in turn.
A subscription is ended by its key; ending one takes away the first subscription of that observer
to that topic, whichever key that one has.

Observers that publish in turn could go on for ever, so they are held to a limit on the number of
calls in a run: once it is reached, no observer publishes any more (`Observers.publish`).
-/

namespace Marginalia

/-- What is done with subscriptions. -/
inductive Observation where
  | publish (topic : Text)
  /-- Subscribes an observer, with its behaviour and with a key to end the subscription. -/
  | subscribe (key topic observer : Text) (waits fails : Bool) (actions : List Observation)
  /-- Ends the subscription of a key. -/
  | unsubscribe (key : Text)
deriving Inhabited

/-- What an observer does when it is called. -/
structure Behaviour where
  /-- Whether those who call it wait for it, so that it can publish. -/
  waits : Bool := false
  /-- Whether it fails in the end. -/
  fails : Bool := false
  actions : List Observation := []
deriving Inhabited

/-- A subscription of an observer to a topic. -/
structure Subscription where
  topic : Text
  observer : Text
deriving DecidableEq, Inhabited

/-- The observers and their subscriptions, with what happened to them in a run. -/
structure Observers where
  behaviours : List (Text × Behaviour) := []
  subscriptions : List Subscription := []
  /-- The subscriptions by their keys, the latest first. -/
  keys : List (Text × Subscription) := []
  /-- The observers that were called, last first. -/
  calls : List Text := []
  /-- The topics in which an observer failed, last first. -/
  failures : List Text := []
deriving Inhabited

namespace Observers

/-- The observers of a topic, in the order in which they subscribed. -/
def of (o : Observers) (topic : Text) : List Text :=
  (o.subscriptions.filter (·.topic = topic)).map (·.observer)

/-- What an observer does. -/
def behaviour (o : Observers) (observer : Text) : Behaviour :=
  (o.behaviours.lookup observer).getD {}

/-- Adds a subscription. -/
def subscribe (o : Observers) (key topic observer : Text) (behaviour : Behaviour) : Observers :=
  let known := (o.behaviours.lookup observer).isSome
  { o with
    behaviours := if known then o.behaviours else o.behaviours ++ [(observer, behaviour)]
    subscriptions := o.subscriptions ++ [{ topic, observer }]
    keys := (key, { topic, observer }) :: o.keys }

/-- Ends the subscription of a key, if the key is known: the first that is like it goes. -/
def unsubscribe (o : Observers) (key : Text) : Observers :=
  match o.keys.lookup key with
  | some subscription => { o with subscriptions := o.subscriptions.erase subscription }
  | none => o

/-- Does what an observer does, given how it publishes. -/
def perform (limit : Nat) (publish : Text → Observers → Observers) (waits : Bool) :
    Observers → List Observation → Observers
  | o, [] => o
  | o, action :: rest =>
    let o := match action with
      | .publish topic => if waits && o.calls.length < limit then publish topic o else o
      | .subscribe key topic observer waits fails actions =>
        o.subscribe key topic observer { waits, fails, actions }
      | .unsubscribe key => o.unsubscribe key
    perform limit publish waits o rest

/-- Calls an observer of a topic, given how it publishes. -/
def call (limit : Nat) (publish : Text → Observers → Observers) (topic : Text) (o : Observers)
    (observer : Text) : Observers :=
  let behaviour := o.behaviour observer
  let o := perform limit publish behaviour.waits { o with calls := observer :: o.calls }
    behaviour.actions
  if behaviour.fails then { o with failures := topic :: o.failures } else o

/-- Publishes a topic, and in turn at most so deep. -/
def publishWithin (limit : Nat) : (depth : Nat) → Text → Observers → Observers
  | 0, topic, o => (o.of topic).foldl (call limit (fun _ o => o) topic) o
  | depth + 1, topic, o => (o.of topic).foldl (call limit (publishWithin limit depth) topic) o

/-- Publishes a topic.  Publishing in turn takes a call each time, so the limit on calls is depth
enough. -/
def publish (limit : Nat) (topic : Text) (o : Observers) : Observers :=
  publishWithin limit limit topic o

/-- Does one thing with the subscriptions, with no calls made before. -/
def step (limit : Nat) (o : Observers) (action : Observation) : Observers :=
  let o := { o with calls := [], failures := [] }
  match action with
  | .publish topic => publish limit topic o
  | .subscribe key topic observer waits fails actions =>
    o.subscribe key topic observer { waits, fails, actions }
  | .unsubscribe key => o.unsubscribe key

/-- A new subscription comes last. -/
theorem of_subscribe (o : Observers) (key topic observer : Text) (behaviour : Behaviour) :
    (o.subscribe key topic observer behaviour).of topic = o.of topic ++ [observer] := by
  simp [of, subscribe, List.filter_append]

/-- A key that nobody was given ends no subscription. -/
theorem unsubscribe_of_lookup_eq_none {o : Observers} {key : Text}
    (h : o.keys.lookup key = none) : o.unsubscribe key = o := by
  simp [unsubscribe, h]

end Observers

end Marginalia
