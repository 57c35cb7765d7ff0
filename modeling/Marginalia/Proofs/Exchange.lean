import Mathlib.Data.List.Basic
import Marginalia.Observers

/-!
# Publications, one call at a time

Observers do what they like while a publication is under way: they subscribe and end subscriptions,
also their own and those of others that are still to be called, they fail, and they publish, also
the very topic that they are being told of.  An `Exchange` follows all this one event at a time.  It
keeps, beside the observers, every publication that has begun with the observers that it still has
to call; nothing is assumed of what happens between two of its calls, so that an observer may also
act on what it remembers, and publications may overlap.

Whatever happens, a publication calls those who observed its topic when it began, one after the
other, and it goes on alike whether an observer has failed or not; each failure is noted once.  The
runs of `Observers.publish` are among these runs: `Minutes` writes down their events.
-/

namespace Marginalia

namespace Observers

/-- Ending a subscription leaves all but the subscriptions as they are. -/
theorem unsubscribe_eq (o : Observers) (key : Text) :
    ∃ subscriptions, o.unsubscribe key = { o with subscriptions } := by
  unfold unsubscribe
  split
  · exact ⟨_, rfl⟩
  · exact ⟨o.subscriptions, rfl⟩

@[simp] theorem calls_unsubscribe (o : Observers) (key : Text) :
    (o.unsubscribe key).calls = o.calls := by
  obtain ⟨subscriptions, h⟩ := o.unsubscribe_eq key
  rw [h]

@[simp] theorem failures_unsubscribe (o : Observers) (key : Text) :
    (o.unsubscribe key).failures = o.failures := by
  obtain ⟨subscriptions, h⟩ := o.unsubscribe_eq key
  rw [h]

@[simp] theorem keys_unsubscribe (o : Observers) (key : Text) :
    (o.unsubscribe key).keys = o.keys := by
  obtain ⟨subscriptions, h⟩ := o.unsubscribe_eq key
  rw [h]

end Observers

/-- A publication that has begun. -/
structure Delivery where
  topic : Text
  /-- The observers still to be called. -/
  left : List Text
  /-- The observer that is being called. -/
  calling : Option Text := none
deriving DecidableEq, Inhabited

/-- Whether all observers of a publication have been called and have come to their ends. -/
def Delivery.IsOver (d : Delivery) : Prop := d.left = [] ∧ d.calling = none

instance (d : Delivery) : Decidable d.IsOver := inferInstanceAs (Decidable (_ ∧ _))

/-- Observers, with the publications that have begun, the earliest first. -/
structure Exchange where
  observers : Observers
  deliveries : List Delivery := []

namespace Exchange

/-- What happens in an exchange. -/
inductive Event where
  | subscribe (key topic observer : Text) (behaviour : Behaviour)
  | unsubscribe (key : Text)
  /-- A publication begins. -/
  | publish (topic : Text)
  /-- The publication of a number calls an observer. -/
  | call (number : Nat) (observer : Text)
  /-- The observer that the publication of a number is calling comes to its end. -/
  | finish (number : Nat) (failed : Bool)

/-- An exchange before any publication. -/
def ofObservers (o : Observers) : Exchange := { observers := o }

/-- Notes that an observer was called. -/
def noteCall (o : Observers) (observer : Text) : Observers :=
  { o with calls := observer :: o.calls }

/-- Notes that an observer of a topic failed, if it did. -/
def noteFailure (o : Observers) (topic : Text) (failed : Bool) : Observers :=
  if failed then { o with failures := topic :: o.failures } else o

/-- An exchange after an event, if that can happen.  Who is called in a publication is settled when
it begins; it calls them in order, the next one when the one before has come to its end. -/
def step (x : Exchange) : Event → Option Exchange
  | .subscribe key topic observer behaviour =>
    some { x with observers := x.observers.subscribe key topic observer behaviour }
  | .unsubscribe key => some { x with observers := x.observers.unsubscribe key }
  | .publish topic =>
    some { x with deliveries := x.deliveries ++ [{ topic, left := x.observers.of topic }] }
  | .call number observer =>
    match x.deliveries[number]? with
    | some ⟨topic, next :: left, none⟩ =>
      if next = observer then
        some {
          observers := noteCall x.observers observer
          deliveries := x.deliveries.set number ⟨topic, left, some observer⟩ }
      else none
    | _ => none
  | .finish number failed =>
    match x.deliveries[number]? with
    | some ⟨topic, left, some _⟩ =>
      some {
        observers := noteFailure x.observers topic failed
        deliveries := x.deliveries.set number ⟨topic, left, none⟩ }
    | _ => none

/-- An exchange after a list of events, if they can happen one after the other. -/
def run (x : Exchange) (events : List Event) : Option Exchange := events.foldlM step x

/-! ## What is read off a list of events -/

/-- The topics that are published. -/
def published (events : List Event) : List Text :=
  events.filterMap fun
    | .publish topic => some topic
    | _ => none

/-- The observers that are called. -/
def called (events : List Event) : List Text :=
  events.filterMap fun
    | .call _ observer => some observer
    | _ => none

/-- The observers that are called by the publication of a number. -/
def calledBy (number : Nat) (events : List Event) : List Text :=
  events.filterMap fun
    | .call m observer => if m = number then some observer else none
    | _ => none

/-- The publications whose calls failed, once for each call. -/
def failedIn (events : List Event) : List Nat :=
  events.filterMap fun
    | .finish number true => some number
    | _ => none

variable {x y z : Exchange} {event : Event} {events past rest : List Event} {number : Nat}
  {topic observer : Text} {d : Delivery}

@[simp] theorem run_nil : x.run [] = some x := rfl

@[simp] theorem run_cons : x.run (event :: rest) = (x.step event).bind (·.run rest) := rfl

/-- A run can be taken in two parts. -/
theorem run_append : x.run (past ++ rest) = (x.run past).bind (·.run rest) := by
  simp only [run, List.foldlM_append]
  rfl

/-- Who is called in two parts of a run is called in the first, and then in the second. -/
theorem calledBy_append : calledBy number (past ++ rest) =
    calledBy number past ++ calledBy number rest :=
  List.filterMap_append

/-! ## What an event does -/

/-- The next observer of a publication is called when the one before has come to its end. -/
theorem step_call (h : x.step (.call number observer) = some y) :
    ∃ topic left, x.deliveries[number]? = some ⟨topic, observer :: left, none⟩ ∧
      y = { observers := noteCall x.observers observer
            deliveries := x.deliveries.set number ⟨topic, left, some observer⟩ } := by
  simp only [step] at h
  split at h
  case h_1 topic next left hd =>
    split at h
    case isTrue hnext =>
      subst hnext
      cases h
      exact ⟨topic, left, hd, rfl⟩
    case isFalse => cases h
  case h_2 => cases h

/-- The next observer of a publication can be called when no call of it is open. -/
theorem step_call_eq {left : List Text}
    (hd : x.deliveries[number]? = some ⟨topic, observer :: left, none⟩) :
    x.step (.call number observer) =
      some { observers := noteCall x.observers observer
             deliveries := x.deliveries.set number ⟨topic, left, some observer⟩ } := by
  simp [step, hd]

/-- An observer comes to its end in the publication that is calling it. -/
theorem step_finish {failed : Bool} (h : x.step (.finish number failed) = some y) :
    ∃ topic left observer, x.deliveries[number]? = some ⟨topic, left, some observer⟩ ∧
      y = { observers := noteFailure x.observers topic failed
            deliveries := x.deliveries.set number ⟨topic, left, none⟩ } := by
  simp only [step] at h
  split at h
  case h_1 topic left observer hd =>
    cases h
    exact ⟨topic, left, observer, hd, rfl⟩
  case h_2 => cases h

/-- An open call can end, well or with a failure. -/
theorem step_finish_eq {left : List Text} (failed : Bool)
    (hd : x.deliveries[number]? = some ⟨topic, left, some observer⟩) :
    x.step (.finish number failed) =
      some { observers := noteFailure x.observers topic failed
             deliveries := x.deliveries.set number ⟨topic, left, none⟩ } := by
  simp [step, hd]

/-- Setting a publication that is there to one of its topic leaves the topics as they are. -/
theorem topics_set {d' : Delivery} (hd : x.deliveries[number]? = some d)
    (htopic : d'.topic = d.topic) :
    (x.deliveries.set number d').map (·.topic) = x.deliveries.map (·.topic) := by
  apply List.ext_getElem?
  intro m
  by_cases hm : number = m
  · subst hm
    obtain ⟨hlt, rfl⟩ := List.getElem?_eq_some_iff.1 hd
    simp [hlt, htopic]
  · simp [List.getElem?_set_ne hm]

/-- The publications of an exchange are those that have begun. -/
theorem topics_step (h : x.step event = some y) :
    y.deliveries.map (·.topic) = x.deliveries.map (·.topic) ++ published [event] := by
  cases event with
  | subscribe key topic observer behaviour => cases h; simp [published]
  | unsubscribe key => cases h; simp [published]
  | publish topic => cases h; simp [published]
  | call number observer =>
    obtain ⟨topic, left, hd, rfl⟩ := step_call h
    simpa [published] using topics_set hd rfl
  | finish number failed =>
    obtain ⟨topic, left, observer, hd, rfl⟩ := step_finish h
    simpa [published] using topics_set hd rfl

/-- Publications stay, and those of a run are added in order. -/
theorem topics_run (h : x.run events = some y) :
    y.deliveries.map (·.topic) = x.deliveries.map (·.topic) ++ published events := by
  induction events generalizing x with
  | nil => cases h; simp [published]
  | cons event rest ih =>
    obtain ⟨z, hz, hrest⟩ := Option.bind_eq_some_iff.1 (run_cons ▸ h)
    rw [ih hrest, topics_step hz, List.append_assoc]
    simp [published, ← List.filterMap_append]

/-- The next publication is numbered by how many have begun. -/
theorem length_deliveries (h : x.run events = some y) :
    y.deliveries.length = x.deliveries.length + (published events).length := by
  have := congrArg List.length (topics_run h)
  simpa using this

/-! ## A publication keeps to those it has to call -/

/-- An event takes from those still to be called whom it calls, and nobody else. -/
theorem left_step (h : x.step event = some y) (hd : x.deliveries[number]? = some d) :
    ∃ d', y.deliveries[number]? = some d' ∧ calledBy number [event] ++ d'.left = d.left := by
  have hlt : number < x.deliveries.length := (List.getElem?_eq_some_iff.1 hd).1
  cases event with
  | subscribe key topic observer behaviour => cases h; exact ⟨d, hd, rfl⟩
  | unsubscribe key => cases h; exact ⟨d, hd, rfl⟩
  | publish topic =>
    cases h
    exact ⟨d, by simpa [List.getElem?_append_left hlt] using hd, rfl⟩
  | call m observer =>
    obtain ⟨topic, left, hm, rfl⟩ := step_call h
    by_cases hnumber : m = number
    · subst hnumber
      obtain rfl : d = ⟨topic, observer :: left, none⟩ := Option.some.inj (hd.symm.trans hm)
      exact ⟨⟨topic, left, some observer⟩, by simp [hlt], by simp [calledBy]⟩
    · exact ⟨d, by simpa [List.getElem?_set_ne hnumber] using hd, by simp [calledBy, hnumber]⟩
  | finish m failed =>
    obtain ⟨topic, left, observer, hm, rfl⟩ := step_finish h
    by_cases hnumber : m = number
    · subst hnumber
      obtain rfl : d = ⟨topic, left, some observer⟩ := Option.some.inj (hd.symm.trans hm)
      exact ⟨⟨topic, left, none⟩, by simp [hlt], by simp [calledBy]⟩
    · exact ⟨d, by simpa [List.getElem?_set_ne hnumber] using hd, by simp [calledBy]⟩

/-- Of those who are left for a publication, a run takes the first ones, in order. -/
theorem left_run (h : x.run events = some y) (hd : x.deliveries[number]? = some d) :
    ∃ d', y.deliveries[number]? = some d' ∧ calledBy number events ++ d'.left = d.left := by
  induction events generalizing x d with
  | nil => cases h; exact ⟨d, hd, rfl⟩
  | cons event rest ih =>
    obtain ⟨z, hz, hrest⟩ := Option.bind_eq_some_iff.1 (run_cons ▸ h)
    obtain ⟨d₁, hd₁, hleft₁⟩ := left_step hz hd
    obtain ⟨d', hd', hleft⟩ := ih hrest hd₁
    refine ⟨d', hd', ?_⟩
    rw [show event :: rest = [event] ++ rest from rfl, calledBy_append, List.append_assoc,
      hleft, hleft₁]

/-- A publication that has not begun calls nobody. -/
theorem calledBy_eq_nil (h : x.run events = some y) (hnumber : y.deliveries.length ≤ number) :
    calledBy number events = [] := by
  induction events generalizing x with
  | nil => rfl
  | cons event rest ih =>
    obtain ⟨z, hz, hrest⟩ := Option.bind_eq_some_iff.1 (run_cons ▸ h)
    have hlength := length_deliveries hrest
    rw [show event :: rest = [event] ++ rest from rfl, calledBy_append, ih hrest, List.append_nil]
    cases event with
    | call m observer =>
      obtain ⟨topic, left, hm, rfl⟩ := step_call hz
      have hlt : m < x.deliveries.length := (List.getElem?_eq_some_iff.1 hm).1
      have hne : m ≠ number := by simp at hlength; omega
      simp [calledBy, hne]
    | _ => rfl

/-- Whom a publication has called and whom it still has to call are together those who observed its
topic when it began. -/
theorem calledBy_append_left (hpast : x.run past = some y)
    (h : y.run (.publish topic :: rest) = some z) :
    ∃ d, z.deliveries[y.deliveries.length]? = some d ∧
      calledBy y.deliveries.length (past ++ .publish topic :: rest) ++ d.left =
        y.observers.of topic := by
  have hbegun : y.step (.publish topic) =
      some { y with deliveries := y.deliveries ++ [{ topic, left := y.observers.of topic }] } := rfl
  rw [run_cons, hbegun, Option.bind_some] at h
  have hnew : (y.deliveries ++ [{ topic, left := y.observers.of topic }])[y.deliveries.length]? =
      some { topic, left := y.observers.of topic } := by simp
  obtain ⟨d, hd, hleft⟩ := left_run h hnew
  refine ⟨d, hd, ?_⟩
  have hrest : calledBy y.deliveries.length (.publish topic :: rest) =
      calledBy y.deliveries.length rest := rfl
  rw [calledBy_append, calledBy_eq_nil hpast (Nat.le_refl _), List.nil_append, hrest]
  exact hleft

/-- A publication that is not over goes on: it calls its next observer, or the one that it is
calling comes to its end.  Failing makes no difference to that but for the note of it. -/
theorem goes_on (hd : x.deliveries[number]? = some d) (hover : ¬ d.IsOver) :
    (∃ observer left, d = ⟨d.topic, observer :: left, none⟩ ∧
      (x.step (.call number observer)).isSome) ∨
    (∃ y, x.step (.finish number false) = some y ∧
      x.step (.finish number true) =
        some { y with observers := noteFailure y.observers d.topic true }) := by
  obtain ⟨topic, left, calling⟩ := d
  cases calling with
  | some observer =>
    exact .inr ⟨_, step_finish_eq false hd, step_finish_eq true hd⟩
  | none =>
    cases left with
    | nil => exact absurd ⟨rfl, rfl⟩ hover
    | cons observer left => exact .inl ⟨observer, left, rfl, by simp [step_call_eq hd]⟩

/-! ## What is noted -/

/-- A failure is not a call. -/
@[simp] theorem calls_noteFailure (o : Observers) (topic : Text) (failed : Bool) :
    (noteFailure o topic failed).calls = o.calls := by
  cases failed <;> rfl

@[simp] theorem keys_noteFailure (o : Observers) (topic : Text) (failed : Bool) :
    (noteFailure o topic failed).keys = o.keys := by
  cases failed <;> rfl

@[simp] theorem of_noteFailure (o : Observers) (topic other : Text) (failed : Bool) :
    (noteFailure o topic failed).of other = o.of other := by
  cases failed <;> rfl

/-- The observers after an event that can happen.  A call that fails is noted under the topic of the
publication that made it. -/
def observersAfter (x : Exchange) : Event → Observers
  | .subscribe key topic observer behaviour => x.observers.subscribe key topic observer behaviour
  | .unsubscribe key => x.observers.unsubscribe key
  | .publish _ => x.observers
  | .call _ observer => noteCall x.observers observer
  | .finish number failed => noteFailure x.observers (x.deliveries.map (·.topic))[number]! failed

/-- An event does nothing else to the observers. -/
theorem observers_step (h : x.step event = some y) : y.observers = x.observersAfter event := by
  cases event with
  | subscribe key topic observer behaviour => cases h; rfl
  | unsubscribe key => cases h; rfl
  | publish topic => cases h; rfl
  | call number observer =>
    obtain ⟨topic, left, -, rfl⟩ := step_call h
    rfl
  | finish number failed =>
    obtain ⟨topic, left, observer, hd, rfl⟩ := step_finish h
    simp [observersAfter, hd, List.getElem!_eq_getElem?_getD]

/-- What a step adds to the calls. -/
theorem calls_step (h : x.step event = some y) :
    y.observers.calls = (called [event]).reverse ++ x.observers.calls := by
  rw [observers_step h]
  cases event <;> simp [observersAfter, called, noteCall, Observers.subscribe]

/-- Each call is noted, and nothing else. -/
theorem calls_run (h : x.run events = some y) :
    y.observers.calls = (called events).reverse ++ x.observers.calls := by
  induction events generalizing x with
  | nil => cases h; rfl
  | cons event rest ih =>
    obtain ⟨z, hz, hrest⟩ := Option.bind_eq_some_iff.1 (run_cons ▸ h)
    rw [ih hrest, calls_step hz, ← List.append_assoc, ← List.reverse_append]
    simp [called, ← List.filterMap_append]

/-- What a step adds to the failures. -/
theorem failures_step (h : x.step event = some y) :
    y.observers.failures =
      ((failedIn [event]).map ((x.deliveries.map (·.topic))[·]!)).reverse ++
        x.observers.failures := by
  rw [observers_step h]
  cases event with
  | finish number failed => cases failed <;> rfl
  | _ => simp [observersAfter, failedIn, noteCall, Observers.subscribe]

/-- A call that fails belongs to a publication that has begun, and the topic of that stays. -/
theorem topic_of_mem_failedIn (h : x.step event = some y) (hrest : y.run rest = some z)
    (hnumber : number ∈ failedIn [event]) :
    (z.deliveries.map (·.topic))[number]! = (x.deliveries.map (·.topic))[number]! := by
  cases event with
  | finish m failed =>
    obtain ⟨topic, left, observer, hd, -⟩ := step_finish h
    obtain rfl : number = m := by
      cases failed with
      | false => simp [failedIn] at hnumber
      | true => simpa [failedIn] using hnumber
    have hlt : number < (x.deliveries.map (·.topic)).length := by
      simpa using (List.getElem?_eq_some_iff.1 hd).1
    rw [topics_run hrest, topics_step h, List.append_assoc, List.getElem!_eq_getElem?_getD,
      List.getElem?_append_left hlt, ← List.getElem!_eq_getElem?_getD]
  | _ => simp [failedIn] at hnumber

/-- Each failure is noted once, with its topic, and nothing else. -/
theorem failures_run (h : x.run events = some y) :
    y.observers.failures =
      ((failedIn events).map ((y.deliveries.map (·.topic))[·]!)).reverse ++
        x.observers.failures := by
  induction events generalizing x with
  | nil => cases h; rfl
  | cons event rest ih =>
    obtain ⟨z, hz, hrest⟩ := Option.bind_eq_some_iff.1 (run_cons ▸ h)
    have hsplit : failedIn (event :: rest) = failedIn [event] ++ failedIn rest := by
      simp [failedIn, ← List.filterMap_append]
    have htopics : (failedIn [event]).map ((y.deliveries.map (·.topic))[·]!) =
        (failedIn [event]).map ((x.deliveries.map (·.topic))[·]!) :=
      List.map_congr_left fun number hnumber => topic_of_mem_failedIn hz hrest hnumber
    rw [ih hrest, failures_step hz, hsplit, List.map_append, htopics, List.reverse_append,
      List.append_assoc]

/-- What is seen of the publications in a run of events from the observers `o` to the exchange
`x`. -/
structure Accounts (o : Observers) (events : List Event) (x : Exchange) : Prop where
  /-- Whom a publication has called and whom it still has to call are those who observed its topic
  when it began, in their order. -/
  snapshot : ∀ past topic rest, events = past ++ .publish topic :: rest →
    ∃ y d, (ofObservers o).run past = some y ∧ x.deliveries[(published past).length]? = some d ∧
      calledBy (published past).length events ++ d.left = y.observers.of topic
  /-- A publication that is not over can go on, in the same way whether an observer fails or not. -/
  goes_on : ∀ number d, x.deliveries[number]? = some d → ¬ d.IsOver →
    (∃ observer left, d = ⟨d.topic, observer :: left, none⟩ ∧
      (x.step (.call number observer)).isSome) ∨
    (∃ y, x.step (.finish number false) = some y ∧
      x.step (.finish number true) =
        some { y with observers := noteFailure y.observers d.topic true })
  calls : x.observers.calls = (called events).reverse ++ o.calls
  /-- Each call that failed is noted once, under the topic of its publication. -/
  failures : x.observers.failures =
    ((failedIn events).map ((published events)[·]!)).reverse ++ o.failures

/-- **Accounts.**  Whatever a run brings, each publication has called those that its snapshot named,
one after the other, as far as it has come. -/
theorem accounts_of_run {o : Observers} (h : (ofObservers o).run events = some x) :
    Accounts o events x where
  snapshot := by
    rintro past topic rest rfl
    rw [run_append] at h
    obtain ⟨y, hy, hrest⟩ := Option.bind_eq_some_iff.1 h
    have hlength : y.deliveries.length = (published past).length := by
      simpa [ofObservers] using length_deliveries hy
    obtain ⟨d, hd, hleft⟩ := calledBy_append_left hy hrest
    rw [hlength] at hd hleft
    exact ⟨y, d, hy, hd, hleft⟩
  goes_on := fun _ _ => goes_on
  calls := calls_run h
  failures := by
    have htopics : x.deliveries.map (·.topic) = published events := topics_run h
    rw [failures_run h, htopics]
    rfl

/-- A publication that is over has called exactly those who observed its topic when it began. -/
theorem Accounts.calledBy_eq {o : Observers} (h : Accounts o events x)
    (hover : ∀ d ∈ x.deliveries, d.IsOver) (hevents : events = past ++ .publish topic :: rest) :
    ∃ y, (ofObservers o).run past = some y ∧
      calledBy (published past).length events = y.observers.of topic := by
  obtain ⟨y, d, hy, hd, hleft⟩ := h.snapshot past topic rest hevents
  refine ⟨y, hy, ?_⟩
  rwa [(hover d (List.mem_of_getElem? hd)).1, List.append_nil] at hleft

end Exchange

/-! ## How deep publications go -/

namespace Observers

variable {o : Observers} {limit depth : Nat} {publish publish' : Text → Observers → Observers}
  {topic observer : Text}

/-- No call is taken back. -/
def Grows (publish : Text → Observers → Observers) : Prop :=
  ∀ topic o, o.calls.length ≤ (publish topic o).calls.length

/-- What an observer does adds calls and takes none away. -/
theorem Grows.perform (hgrows : Grows publish) (limit : Nat) (waits : Bool) (o : Observers)
    (actions : List Observation) :
    o.calls.length ≤ (perform limit publish waits o actions).calls.length := by
  induction actions generalizing o with
  | nil => exact Nat.le_refl _
  | cons action rest ih =>
    refine Nat.le_trans ?_ (ih _)
    cases action with
    | publish topic =>
      show _ ≤ (if _ then _ else _ : Observers).calls.length
      split
      · exact hgrows topic o
      · exact Nat.le_refl _
    | subscribe key topic observer waits' fails actions => exact Nat.le_refl _
    | unsubscribe key => exact Nat.le_of_eq (congrArg List.length (calls_unsubscribe o key)).symm

/-- To call an observer adds at least that call. -/
theorem Grows.call (hgrows : Grows publish) (topic observer : Text) (o : Observers) :
    o.calls.length < (call limit publish topic o observer).calls.length := by
  have h := hgrows.perform limit (o.behaviour observer).waits
    { o with calls := observer :: o.calls } (o.behaviour observer).actions
  simp only [Observers.call]
  split
  · exact h
  · exact h

/-- To call several adds theirs. -/
theorem Grows.calls (hgrows : Grows publish) (topic : Text) (left : List Text) :
    o.calls.length ≤ (left.foldl (Observers.call limit publish topic) o).calls.length := by
  induction left generalizing o with
  | nil => exact Nat.le_refl _
  | cons observer left ih => exact Nat.le_trans (Nat.le_of_lt (hgrows.call topic observer o)) ih

/-- So does publishing, however deep. -/
theorem grows_publishWithin (limit depth : Nat) : Grows (publishWithin limit depth) := by
  induction depth with
  | zero => exact fun topic o => Grows.calls (fun _ _ => Nat.le_refl _) topic (o.of topic)
  | succ depth ih => exact fun topic o => ih.calls topic (o.of topic)

/-- What an observer does depends only on how it publishes below the limit. -/
theorem perform_congr (hgrows : Grows publish)
    (heq : ∀ topic o', o.calls.length ≤ o'.calls.length → o'.calls.length < limit →
      publish topic o' = publish' topic o') (waits : Bool) (actions : List Observation) :
    perform limit publish waits o actions = perform limit publish' waits o actions := by
  induction actions generalizing o with
  | nil => rfl
  | cons action rest ih =>
    cases action with
    | publish topic =>
      simp only [perform]
      by_cases hgoes : (waits && o.calls.length < limit) = true
      · have hlt : o.calls.length < limit := by simpa using (Bool.and_eq_true_iff.1 hgoes).2
        rw [if_pos hgoes, if_pos hgoes, ← heq topic o (Nat.le_refl _) hlt]
        exact ih fun t o' hle => heq t o' (Nat.le_trans (hgrows topic o) hle)
      · rw [if_neg hgoes, if_neg hgoes]
        exact ih heq
    | subscribe key topic observer waits' fails actions => exact ih heq
    | unsubscribe key =>
      exact ih fun t o' hle =>
        heq t o'
          (Nat.le_trans (Nat.le_of_eq (congrArg List.length (calls_unsubscribe o key)).symm) hle)

/-- The calls of a publication depend only on how observers publish after more calls, below the
limit. -/
theorem calls_congr (hgrows : Grows publish) (topic : Text) (left : List Text)
    (heq : ∀ t o', o.calls.length < o'.calls.length → o'.calls.length < limit →
      publish t o' = publish' t o') :
    left.foldl (call limit publish topic) o = left.foldl (call limit publish' topic) o := by
  induction left generalizing o with
  | nil => rfl
  | cons observer left ih =>
    have hcall : call limit publish topic o observer = call limit publish' topic o observer := by
      have hacts := perform_congr (o := { o with calls := observer :: o.calls }) hgrows
        (fun t o' hmore => heq t o' (Nat.lt_of_succ_le hmore)) (o.behaviour observer).waits
        (o.behaviour observer).actions
      simp only [call, hacts]
    rw [List.foldl_cons, List.foldl_cons, ← hcall]
    exact ih fun t o' hlt => heq t o' (Nat.lt_trans (hgrows.call topic observer o) hlt)

/-- Publications need not be let deeper than there are calls below the limit. -/
theorem publishWithin_succ (h : limit ≤ depth + o.calls.length) :
    publishWithin limit (depth + 1) topic o = publishWithin limit depth topic o := by
  induction depth generalizing topic o with
  | zero =>
    refine calls_congr (grows_publishWithin limit 0) topic (o.of topic) fun t o' hmore hlimit => ?_
    omega
  | succ depth ih =>
    refine calls_congr (grows_publishWithin limit (depth + 1)) topic (o.of topic)
      fun t o' hmore _ => ?_
    exact ih (by omega)

/-- The limit on calls is depth enough: letting publications go deeper changes nothing. -/
theorem publishWithin_eq_publish (hdepth : limit ≤ depth) (topic : Text) (o : Observers) :
    publishWithin limit depth topic o = o.publish limit topic := by
  induction hdepth with
  | refl => rfl
  | step hle ih => rw [publishWithin_succ (Nat.le_trans hle (Nat.le_add_right _ _)), ih]

end Observers

/-! ## A publication by observers with fixed behaviours -/

/-- An exchange with the events that led to it. -/
structure Minutes where
  exchange : Exchange
  events : List Exchange.Event := []

namespace Minutes

open Exchange (Event)

/-- Lets an event happen and writes it down. -/
def note (r : Minutes) (event : Event) : Minutes :=
  { exchange := (r.exchange.step event).getD r.exchange, events := r.events ++ [event] }

/-- Does what an observer does, given how it publishes. -/
def perform (limit : Nat) (publish : Text → Minutes → Minutes) (waits : Bool) :
    Minutes → List Observation → Minutes
  | r, [] => r
  | r, action :: rest =>
    let r := match action with
      | .publish topic =>
        if waits && r.exchange.observers.calls.length < limit then publish topic r else r
      | .subscribe key topic observer waits fails actions =>
        r.note (.subscribe key topic observer { waits, fails, actions })
      | .unsubscribe key => r.note (.unsubscribe key)
    perform limit publish waits r rest

/-- Calls an observer in the publication of a number. -/
def call (limit : Nat) (publish : Text → Minutes → Minutes) (number : Nat) (r : Minutes)
    (observer : Text) : Minutes :=
  let behaviour := r.exchange.observers.behaviour observer
  (perform limit publish behaviour.waits (r.note (.call number observer)) behaviour.actions).note
    (.finish number behaviour.fails)

/-- Publishes a topic, and in turn at most so deep. -/
def publishWithin (limit : Nat) : (depth : Nat) → Text → Minutes → Minutes
  | 0, topic, r =>
    (r.exchange.observers.of topic).foldl
      (call limit (fun _ r => r) r.exchange.deliveries.length) (r.note (.publish topic))
  | depth + 1, topic, r =>
    (r.exchange.observers.of topic).foldl
      (call limit (publishWithin limit depth) r.exchange.deliveries.length)
        (r.note (.publish topic))

/-- The minutes of a publication. -/
def publication (limit : Nat) (topic : Text) (o : Observers) : Minutes :=
  publishWithin limit limit topic { exchange := .ofObservers o }

/-- The minutes `s` continue the minutes `r`: all that they add can happen, their observers are `o`,
and their publications are those that are `known` and more that are over. -/
structure Continues (r s : Minutes) (known : List Delivery) (o : Observers) : Prop where
  events : ∃ more, s.events = r.events ++ more ∧ r.exchange.run more = some s.exchange
  observers : s.exchange.observers = o
  deliveries : ∃ added, s.exchange.deliveries = known ++ added ∧ ∀ d ∈ added, d.IsOver

variable {r s t : Minutes} {event : Event} {y : Exchange} {o o' : Observers} {limit number : Nat}
  {publish : Text → Minutes → Minutes} {publish' : Text → Observers → Observers}
  {topic observer : Text} {known : List Delivery}

/-- Minutes note an event with what comes of it. -/
theorem note_eq (h : r.exchange.step event = some y) :
    r.note event = { exchange := y, events := r.events ++ [event] } := by
  simp [note, h]

theorem Continues.refl : Continues r r r.exchange.deliveries r.exchange.observers :=
  ⟨⟨[], by simp, rfl⟩, rfl, ⟨[], by simp, by simp⟩⟩

/-- What happens, written down, continues the minutes. -/
theorem continues_note (event : Event) (h : r.exchange.step event = some y) :
    Continues r (r.note event) y.deliveries y.observers := by
  rw [note_eq h]
  exact ⟨⟨[event], rfl, by simp [h]⟩, rfl, ⟨[], by simp, by simp⟩⟩

/-- Minutes that continue a continuation continue the first ones, if what is then changed in the
publications is among the known ones. -/
theorem Continues.change (change : List Delivery → List Delivery) (h : Continues r s known o)
    (h' : Continues s t (change s.exchange.deliveries) o')
    (hchange : ∀ added, change (known ++ added) = change known ++ added) :
    Continues r t (change known) o' := by
  obtain ⟨more, hmore, hrun⟩ := h.events
  obtain ⟨more', hmore', hrun'⟩ := h'.events
  obtain ⟨added, hadded, hover⟩ := h.deliveries
  obtain ⟨added', hadded', hover'⟩ := h'.deliveries
  refine ⟨⟨more ++ more', ?_, ?_⟩, h'.observers, ⟨added ++ added', ?_, ?_⟩⟩
  · rw [hmore', hmore, List.append_assoc]
  · rw [Exchange.run_append, hrun]
    exact hrun'
  · rw [hadded', hadded, hchange, List.append_assoc]
  · intro d hd
    rcases List.mem_append.1 hd with hd | hd
    · exact hover d hd
    · exact hover' d hd

/-- What goes on from something that goes on goes on from the first. -/
theorem Continues.trans (h : Continues r s known o)
    (h' : Continues s t s.exchange.deliveries o') : Continues r t known o' :=
  h.change id h' fun _ => rfl

/-- A change to a publication that was known is a change to what is known. -/
theorem Continues.set {d : Delivery} (h : Continues r s known o)
    (h' : Continues s t (s.exchange.deliveries.set number d) o') (hlt : number < known.length) :
    Continues r t (known.set number d) o' :=
  h.change (·.set number d) h' fun _ => List.set_append_left _ _ hlt

/-- A publication that is over need not be known. -/
theorem Continues.forget {d : Delivery} (h : Continues r s (known ++ [d]) o) (hd : d.IsOver) :
    Continues r s known o := by
  obtain ⟨added, hadded, hover⟩ := h.deliveries
  refine ⟨h.events, h.observers, ⟨d :: added, ?_, ?_⟩⟩
  · rw [hadded, List.append_assoc]
    rfl
  · intro e he
    rcases List.mem_cons.1 he with rfl | he
    · exact hd
    · exact hover e he

/-- Publications with minutes do what publications do. -/
def Follows (publish : Text → Minutes → Minutes) (publish' : Text → Observers → Observers) : Prop :=
  ∀ topic r, Continues r (publish topic r) r.exchange.deliveries
    (publish' topic r.exchange.observers)

/-- What an observer does between its call and its end. -/
theorem Follows.perform (hpublish : Follows publish publish') (limit : Nat) (waits : Bool)
    (r : Minutes) (actions : List Observation) :
    Continues r (perform limit publish waits r actions) r.exchange.deliveries
      (Observers.perform limit publish' waits r.exchange.observers actions) := by
  induction actions generalizing r with
  | nil => exact .refl
  | cons action rest ih =>
    cases action with
    | publish topic =>
      simp only [Minutes.perform, Observers.perform]
      by_cases hgoes : (waits && r.exchange.observers.calls.length < limit) = true
      · rw [if_pos hgoes, if_pos hgoes]
        have hfirst := hpublish topic r
        rw [← hfirst.observers]
        exact hfirst.trans (ih _)
      · rw [if_neg hgoes, if_neg hgoes]
        exact ih r
    | subscribe key topic observer waits' fails actions =>
      have hfirst : Continues r (r.note _) _ _ :=
        continues_note (.subscribe key topic observer ⟨waits', fails, actions⟩) rfl
      simp only [Minutes.perform, Observers.perform]
      exact hfirst.trans (ih _)
    | unsubscribe key =>
      have hfirst : Continues r (r.note _) _ _ := continues_note (.unsubscribe key) rfl
      simp only [Minutes.perform, Observers.perform]
      exact hfirst.trans (ih _)

/-- A call of the next observer of a publication, before that comes to its end. -/
theorem Follows.acting (hpublish : Follows publish publish') {left : List Text}
    (hd : r.exchange.deliveries[number]? = some ⟨topic, observer :: left, none⟩) (limit : Nat)
    (waits : Bool) (actions : List Observation) :
    Continues r (Minutes.perform limit publish waits (r.note (.call number observer)) actions)
      (r.exchange.deliveries.set number ⟨topic, left, some observer⟩)
      (Observers.perform limit publish' waits (Exchange.noteCall r.exchange.observers observer)
        actions) := by
  have hbegins := continues_note _ (Exchange.step_call_eq hd)
  have hacts := hpublish.perform limit waits (r.note (.call number observer)) actions
  rw [hbegins.observers] at hacts
  exact hbegins.trans hacts

/-- A call of the next observer of a publication, from its beginning to its end. -/
theorem Follows.call (hpublish : Follows publish publish') (limit : Nat) {left : List Text}
    (hd : r.exchange.deliveries[number]? = some ⟨topic, observer :: left, none⟩) :
    Continues r (Minutes.call limit publish number r observer)
      (r.exchange.deliveries.set number ⟨topic, left, none⟩)
      (Observers.call limit publish' topic r.exchange.observers observer) := by
  have hlt : number < r.exchange.deliveries.length := (List.getElem?_eq_some_iff.1 hd).1
  have hacts := hpublish.acting hd limit (r.exchange.observers.behaviour observer).waits
    (r.exchange.observers.behaviour observer).actions
  simp only [Minutes.call]
  generalize Minutes.perform limit publish _ _ _ = t at hacts
  have hcalling : t.exchange.deliveries[number]? = some ⟨topic, left, some observer⟩ := by
    obtain ⟨added, hadded, -⟩ := hacts.deliveries
    rw [hadded, List.getElem?_append_left (by simpa using hlt)]
    simp [hlt]
  have hends := continues_note _
    (Exchange.step_finish_eq (r.exchange.observers.behaviour observer).fails hcalling)
  rw [hacts.observers] at hends
  have hwhole := hacts.set hends (by simpa using hlt)
  rwa [List.set_set] at hwhole

/-- The calls of a publication, one after the other. -/
theorem Follows.calls (hpublish : Follows publish publish') (limit : Nat) (left : List Text)
    (hd : r.exchange.deliveries[number]? = some ⟨topic, left, none⟩) :
    Continues r (left.foldl (Minutes.call limit publish number) r)
      (r.exchange.deliveries.set number ⟨topic, [], none⟩)
      (left.foldl (Observers.call limit publish' topic) r.exchange.observers) := by
  have hlt : number < r.exchange.deliveries.length := (List.getElem?_eq_some_iff.1 hd).1
  induction left generalizing r with
  | nil =>
    have hset : r.exchange.deliveries.set number ⟨topic, [], none⟩ = r.exchange.deliveries := by
      obtain ⟨_, hget⟩ := List.getElem?_eq_some_iff.1 hd
      rw [← hget, List.set_getElem_self]
    rw [hset]
    exact .refl
  | cons observer left ih =>
    have hcall := hpublish.call limit hd
    simp only [List.foldl_cons]
    generalize Minutes.call limit publish number r observer = s at hcall
    obtain ⟨added, hadded, -⟩ := hcall.deliveries
    have hlt' : number < s.exchange.deliveries.length := by
      rw [hadded]
      simp
      omega
    have hnext : s.exchange.deliveries[number]? = some ⟨topic, left, none⟩ := by
      rw [hadded, List.getElem?_append_left (by simpa using hlt)]
      simp [hlt]
    have hrest := ih hnext hlt'
    rw [hcall.observers] at hrest
    have hwhole := hcall.set hrest (by simpa using hlt)
    rwa [List.set_set] at hwhole

/-- A publication from its beginning on, given how those do that are made in turn. -/
theorem Follows.begun (hpublish : Follows publish publish') (limit : Nat) (topic : Text)
    (r : Minutes) :
    Continues (r.note (.publish topic))
      ((r.exchange.observers.of topic).foldl
        (Minutes.call limit publish r.exchange.deliveries.length) (r.note (.publish topic)))
      ((r.note (.publish topic)).exchange.deliveries.set r.exchange.deliveries.length
        ⟨topic, [], none⟩)
      ((r.exchange.observers.of topic).foldl (Observers.call limit publish' topic)
        r.exchange.observers) := by
  apply hpublish.calls limit (r := r.note (.publish topic))
  show (r.exchange.deliveries ++ [_])[_]? = _
  simp

/-- To publish is to begin a publication and to make all of its calls. -/
theorem Follows.publication (hpublish : Follows publish publish') (limit : Nat) (topic : Text)
    (r : Minutes) :
    Continues r
      ((r.exchange.observers.of topic).foldl
        (Minutes.call limit publish r.exchange.deliveries.length) (r.note (.publish topic)))
      r.exchange.deliveries
      ((r.exchange.observers.of topic).foldl (Observers.call limit publish' topic)
        r.exchange.observers) := by
  have hbegins : Continues r (r.note (.publish topic)) _ _ := continues_note _ rfl
  have hwhole := hbegins.set (hpublish.begun limit topic r) (by simp)
  rw [List.set_append_right _ _ (Nat.le_refl _), Nat.sub_self, List.set_cons_zero] at hwhole
  exact hwhole.forget ⟨rfl, rfl⟩

/-- So do publications that follow one another only so deep. -/
theorem follows_publishWithin (limit depth : Nat) :
    Follows (publishWithin limit depth) (Observers.publishWithin limit depth) := by
  induction depth with
  | zero => exact fun topic r => Follows.publication (fun _ _ => .refl) limit topic r
  | succ depth ih => exact fun topic r => ih.publication limit topic r

/-- The first thing in the minutes of a publication is that it begins. -/
theorem head_publishWithin (limit depth : Nat) (topic : Text) (r : Minutes) :
    ∃ more, (publishWithin limit depth topic r).events = r.events ++ .publish topic :: more := by
  have hcalls : ∃ more, (publishWithin limit depth topic r).events =
      (r.note (.publish topic)).events ++ more := by
    cases depth with
    | zero =>
      have hfollows : Follows (fun _ r => r) fun _ o => o := fun _ _ => .refl
      exact (hfollows.begun limit topic r).events.imp fun _ h => h.1
    | succ depth =>
      exact ((follows_publishWithin limit depth).begun limit topic r).events.imp fun _ h => h.1
  obtain ⟨more, hmore⟩ := hcalls
  refine ⟨more, ?_⟩
  rw [hmore]
  show (r.events ++ [_]) ++ more = _
  rw [List.append_assoc]
  rfl

/-- The minutes of a publication tell what the publication does, down to the last of those that are
made in turn. -/
theorem publication_spec (limit : Nat) (topic : Text) (o : Observers) :
    (Exchange.ofObservers o).run (publication limit topic o).events =
        some (publication limit topic o).exchange ∧
      (publication limit topic o).exchange.observers = o.publish limit topic ∧
      ∀ d ∈ (publication limit topic o).exchange.deliveries, d.IsOver := by
  have h := follows_publishWithin limit limit topic { exchange := .ofObservers o }
  obtain ⟨more, hmore, hrun⟩ := h.events
  obtain ⟨added, hadded, hover⟩ := h.deliveries
  refine ⟨?_, h.observers, ?_⟩
  · rw [publication, hmore]
    exact hrun
  · rw [publication, hadded]
    exact hover

end Minutes

namespace Exchange

open Minutes (publication)

/-- **Publications keep to those who observed when they began.**  In any run of events each
publication calls exactly the observers that its topic had when it began, in their order and once
for each subscription, whatever is subscribed, unsubscribed and published meanwhile; whether an
observer fails makes no difference but for one note of it, and no publication is ever stuck.  The
minutes of a publication by observers with fixed behaviours are such a run, and in it all
publications have come to their ends. -/
theorem publications_keep_to_observers (o : Observers) :
    (∀ events x, (ofObservers o).run events = some x → Accounts o events x) ∧
    ∀ limit topic,
      let r := publication limit topic o
      (∃ more, r.events = .publish topic :: more) ∧
      (ofObservers o).run r.events = some r.exchange ∧
      r.exchange.observers = o.publish limit topic ∧
      ∀ past t rest, r.events = past ++ .publish t :: rest →
        ∃ y, (ofObservers o).run past = some y ∧
          calledBy (published past).length r.events = y.observers.of t := by
  refine ⟨fun events x h => accounts_of_run h, fun limit topic => ?_⟩
  obtain ⟨hrun, hobservers, hover⟩ := Minutes.publication_spec limit topic o
  refine ⟨?_, hrun, hobservers, fun past t rest hevents => ?_⟩
  · exact Minutes.head_publishWithin limit limit topic _
  · exact (accounts_of_run hrun).calledBy_eq hover hevents

/-- One observer that subscribed to a topic twice, with another one in between.  Each time it is
called it ends a subscription of its own and that of the other one, publishes the topic again,
subscribes a third observer and fails. -/
def restless : Observers :=
  (({} : Observers).subscribe "a" "t" "a"
    { waits := true, fails := true, actions := [.unsubscribe "a", .unsubscribe "b", .publish "t",
      .subscribe "c" "t" "c" false false []] }).subscribe "b" "t" "b" {} |>.subscribe "d" "t" "a" {}

/-- Its publication calls the three that were there, and those that it makes in turn call fewer. -/
theorem publications_keep_to_observers_restless :
    ∃ x, (ofObservers restless).run (publication 50 "t" restless).events = some x ∧
      Accounts restless (publication 50 "t" restless).events x ∧
      calledBy 0 (publication 50 "t" restless).events = ["a", "b", "a"] ∧
      x.observers.failures = ["t", "t", "t"] := by
  obtain ⟨hall, hpublish⟩ := publications_keep_to_observers restless
  obtain ⟨⟨more, hmore⟩, hrun, hobservers, hcalled⟩ := hpublish 50 "t"
  obtain ⟨y, hy, hcalls⟩ := hcalled [] "t" more hmore
  cases hy
  refine ⟨_, hrun, hall _ _ hrun, hcalls, ?_⟩
  rw [hobservers]
  decide +kernel

end Exchange

end Marginalia
