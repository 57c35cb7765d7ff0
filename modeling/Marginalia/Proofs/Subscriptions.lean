import Mathlib.Data.List.Basic
import Mathlib.Data.List.Induction
import Mathlib.Data.List.Nodup
import Marginalia.Proofs.Exchange

/-!
# Which subscriptions an exchange still has

Each subscription comes with a key of its own, and it is `live` until that key is used.  The
observers keep no keys with their subscriptions, though: using a key takes away the first
subscription of the same observer to the same topic.  Where an observer has several subscriptions to
a topic, that can be another one, and using a key twice can take away two of them.

The two ways of going wrong are told in `Misses`.  As long as no key misses, every publication calls
exactly the observers of the live subscriptions to its topic; and when one does, the next
publication of that topic can be wrong (`live_observers_called_iff`).
-/

namespace Marginalia

namespace Exchange

/-- A subscription with the key that it was given. -/
structure Registration where
  key : Text
  subscription : Subscription
deriving DecidableEq

/-- All subscriptions that are made. -/
def registered (events : List Event) : List Registration :=
  events.filterMap fun
    | .subscribe key topic observer _ => some ⟨key, ⟨topic, observer⟩⟩
    | _ => none

/-- The keys that are used. -/
def ended (events : List Event) : List Text :=
  events.filterMap fun
    | .unsubscribe key => some key
    | _ => none

/-- The subscriptions whose own keys have not been used since, in the order in which they were
made. -/
def live : List Event → List Registration
  | [] => []
  | .subscribe key topic observer _ :: rest =>
    if (ended rest).contains key then live rest else ⟨key, ⟨topic, observer⟩⟩ :: live rest
  | _ :: rest => live rest

/-- The observers of a topic among some registrations. -/
def observersOf (topic : Text) (registrations : List Registration) : List Text :=
  (registrations.filter (·.subscription.topic = topic)).map (·.subscription.observer)

/-- Using a key takes away another subscription than its own. -/
inductive Misses (past : List Event) (key : Text) : Prop
  /-- Its own is not live any more, but another one of the observer to the topic is. -/
  | spent (own other : Registration) (hown : own ∈ registered past) (hkey : own.key = key)
      (hspent : own ∉ live past) (hother : other ∈ live past)
      (hlike : other.subscription = own.subscription)
  /-- Another one of the observer to the topic came earlier, and that of another observer between
  them. -/
  | displaced (before between after : List Registration) (first another own : Registration)
      (hlive : live past = before ++ first :: (between ++ own :: after)) (hkey : own.key = key)
      (hlike : first.subscription = own.subscription) (hanother : another ∈ between)
      (htopic : another.subscription.topic = own.subscription.topic)
      (hunlike : another.subscription.observer ≠ own.subscription.observer)

/-- Whatever happens from then on, a publication of any topic calls the observers of the live
subscriptions to it, in order, once for each. -/
def CallsLive (past : List Event) : Prop :=
  ∀ topic rest z d, (ofObservers {}).run (past ++ .publish topic :: rest) = some z →
    z.deliveries[(published past).length]? = some d → d.IsOver →
    calledBy (published past).length (past ++ .publish topic :: rest) =
      observersOf topic (live past)

variable {x y z : Exchange} {event : Event} {events past rest : List Event}
  {key topic observer : Text}
  {behaviour : Behaviour} {own r : Registration} {number : Nat} {subscription : Subscription}

/-! ## Live subscriptions -/

/-- What is ended in two runs, one behind the other. -/
theorem ended_append (past rest : List Event) : ended (past ++ rest) = ended past ++ ended rest :=
  List.filterMap_append

/-- What is registered in two runs, one behind the other. -/
theorem registered_append (past rest : List Event) :
    registered (past ++ rest) = registered past ++ registered rest :=
  List.filterMap_append

/-- The observers of two lists of registrations, one behind the other. -/
theorem observersOf_append (topic : Text) (a b : List Registration) :
    observersOf topic (a ++ b) = observersOf topic a ++ observersOf topic b := by
  simp [observersOf]

/-- A new subscription is live. -/
theorem live_subscribe :
    live (past ++ [.subscribe key topic observer behaviour]) =
      live past ++ [⟨key, ⟨topic, observer⟩⟩] := by
  induction past with
  | nil => simp [live, ended]
  | cons event rest ih =>
    cases event with
    | subscribe k t o b =>
      have hended : ended (rest ++ [.subscribe key topic observer behaviour]) = ended rest := by
        simp [ended]
      simp only [List.cons_append, live, hended, ih]
      split <;> rfl
    | _ => exact ih

/-- Using a key ends what was subscribed with it. -/
theorem live_unsubscribe :
    live (past ++ [.unsubscribe key]) = (live past).filter (·.key ≠ key) := by
  induction past with
  | nil => rfl
  | cons event rest ih =>
    cases event with
    | subscribe k t o b =>
      have hended : ended (rest ++ [.unsubscribe key]) = ended rest ++ [key] := by
        simp [ended]
      simp only [List.cons_append, live, hended, ih]
      by_cases hk : k ∈ ended rest
      · simp [hk]
      · by_cases hkey : k = key
        · subst hkey
          simp [hk]
        · simp [hk, hkey]
    | _ => exact ih

/-- Nothing else makes a difference. -/
theorem live_append (h : registered rest = []) (h' : ended rest = []) :
    live (past ++ rest) = live past := by
  induction past with
  | nil =>
    induction rest with
    | nil => rfl
    | cons event rest ih =>
      cases event with
      | subscribe k t o b => simp [registered] at h
      | unsubscribe k => simp [ended] at h'
      | _ => exact ih h h'
  | cons event past ih =>
    cases event with
    | subscribe k t o b => simp only [List.cons_append, live, ended_append, h', List.append_nil, ih]
    | _ => exact ih

/-- Live subscriptions have been made. -/
theorem live_sublist : (live events).Sublist (registered events) := by
  induction events with
  | nil => exact .slnil
  | cons event rest ih =>
    cases event with
    | subscribe k t o b =>
      simp only [live]
      split
      · exact ih.cons _
      · exact ih.cons_cons _
    | _ => exact ih

/-! ## What taking a subscription away does -/

/-- Taking the first of several like elements away, when another one was meant, makes no difference
if those between them are like them as well. -/
theorem cons_append_eq_append_cons_iff {α : Type} {a b : List α} {c : α} :
    a ++ c :: b = c :: (a ++ b) ↔ ∀ e ∈ a, e = c := by
  induction a with
  | nil => simp
  | cons e a ih =>
    rw [List.cons_append, List.cons_append, List.cons.injEq, List.forall_mem_cons]
    constructor
    · rintro ⟨rfl, h⟩
      exact ⟨rfl, ih.1 h⟩
    · rintro ⟨rfl, h⟩
      exact ⟨rfl, ih.2 h⟩

/-- Erasing the first occurrence is as good as erasing this one, just if nothing but its like stands
between the two. -/
theorem erase_append_cons_eq_iff {α : Type} [BEq α] [LawfulBEq α] {a b : List α} {c : α} :
    (a ++ c :: b).erase c = a ++ b ↔ ∀ a₁ a₂, a = a₁ ++ c :: a₂ → ∀ e ∈ a₂, e = c := by
  induction a with
  | nil => simp
  | cons e a ih =>
    by_cases he : e = c
    · subst he
      rw [List.cons_append, List.cons_append, List.erase_cons_head, cons_append_eq_append_cons_iff]
      constructor
      · intro h a₁ a₂ hsplit e' he'
        cases a₁ with
        | nil =>
          cases hsplit
          exact h e' he'
        | cons d a₁ =>
          cases hsplit
          exact h e' (List.mem_append_right _ (List.mem_cons_of_mem _ he'))
      · intro h
        exact h [] a rfl
    · rw [List.cons_append, List.cons_append, List.erase_cons_tail (by simpa using he),
        List.cons.injEq, ih]
      constructor
      · rintro ⟨-, h⟩ a₁ a₂ hsplit
        cases a₁ with
        | nil =>
          cases hsplit
          exact absurd rfl he
        | cons d a₁ =>
          cases hsplit
          exact h a₁ a₂ rfl
      · intro h
        exact ⟨rfl, fun a₁ a₂ hsplit => h (e :: a₁) a₂ (by rw [hsplit, List.cons_append])⟩

/-- The observers of a topic when the first subscription like another one is taken away. -/
theorem observers_erase (subscriptions : List Subscription) (subscription : Subscription)
    (topic : Text) :
    ((subscriptions.erase subscription).filter (·.topic = topic)).map (·.observer) =
      if subscription.topic = topic then
        ((subscriptions.filter (·.topic = topic)).map (·.observer)).erase subscription.observer
      else (subscriptions.filter (·.topic = topic)).map (·.observer) := by
  induction subscriptions with
  | nil => simp
  | cons s rest ih =>
    by_cases hs : s = subscription
    · subst hs
      by_cases htopic : s.topic = topic
      · simp [htopic]
      · simp [htopic]
    · rw [List.erase_cons_tail (by simpa using hs)]
      by_cases htopic : s.topic = topic
      · rw [List.filter_cons_of_pos (by simpa using htopic), List.filter_cons_of_pos
          (by simpa using htopic), List.map_cons, List.map_cons, ih]
        split
        case isTrue hsub =>
          have hne : s.observer ≠ subscription.observer := by
            intro h
            exact hs (by cases s; cases subscription; simp_all)
          rw [List.erase_cons_tail (by simpa using hne)]
        case isFalse => rfl
      · rw [List.filter_cons_of_neg (by simpa using htopic), List.filter_cons_of_neg
          (by simpa using htopic), ih]

/-- What an exchange has of each topic is what is live of it. -/
def Agrees (x : Exchange) (past : List Event) : Prop :=
  ∀ topic, x.observers.of topic = observersOf topic (live past)

/-- A subscription that is ended leaves the list of its topic, and no other one. -/
theorem of_unsubscribe {o : Observers} (hlookup : o.keys.lookup key = some subscription)
    (topic : Text) :
    (o.unsubscribe key).of topic =
      if subscription.topic = topic then (o.of topic).erase subscription.observer
      else o.of topic := by
  simp only [Observers.unsubscribe, hlookup, Observers.of]
  exact observers_erase o.subscriptions subscription topic

/-- The keys are those that were given. -/
theorem keys_step (h : x.step event = some y) :
    y.observers.keys =
      ((registered [event]).map fun r => (r.key, r.subscription)).reverse ++ x.observers.keys := by
  rw [observers_step h]
  cases event <;> simp [observersAfter, registered, noteCall, Observers.subscribe]

/-- Each registration is noted under its key, the last one first. -/
theorem keys_run (h : x.run events = some y) :
    y.observers.keys =
      ((registered events).map fun r => (r.key, r.subscription)).reverse ++ x.observers.keys := by
  induction events generalizing x with
  | nil => cases h; rfl
  | cons event rest ih =>
    obtain ⟨z, hz, hrest⟩ := Option.bind_eq_some_iff.1 (run_cons ▸ h)
    rw [ih hrest, keys_step hz, ← List.append_assoc, ← List.reverse_append, ← List.map_append,
      ← registered_append]
    rfl

/-- A key that was given once is known with the subscription that it was given to. -/
theorem lookup_keys (h : (ofObservers {}).run events = some x)
    (hkeys : ((registered events).map (·.key)).Nodup) (hown : own ∈ registered events) :
    x.observers.keys.lookup own.key = some own.subscription := by
  obtain ⟨before, after, hsplit⟩ := List.append_of_mem hown
  rw [keys_run h, hsplit, List.lookup_eq_some_iff]
  refine ⟨(after.map fun r => (r.key, r.subscription)).reverse,
    (before.map fun r => (r.key, r.subscription)).reverse, by simp [ofObservers],
      fun entry hentry => ?_⟩
  obtain ⟨r, hr, rfl⟩ := List.mem_map.1 (List.mem_reverse.1 hentry)
  rw [hsplit, List.map_append, List.map_cons] at hkeys
  have hnodup := (List.nodup_cons.1 (List.nodup_append.1 hkeys).2.1).1
  have hne : own.key ≠ r.key := fun he => hnodup (he ▸ List.mem_map_of_mem hr)
  simpa using hne

/-- A key that was never given is not known. -/
theorem lookup_keys_eq_none (h : (ofObservers {}).run events = some x)
    (hkey : ∀ r ∈ registered events, r.key ≠ key) : x.observers.keys.lookup key = none := by
  rw [keys_run h, List.lookup_eq_none_iff]
  intro entry hentry
  have hmem : entry ∈ ((registered events).map fun r => (r.key, r.subscription)).reverse := by
    simpa [ofObservers] using hentry
  obtain ⟨r, hr, rfl⟩ := List.mem_map.1 (List.mem_reverse.1 hmem)
  simpa using (hkey r hr).symm

/-! ## What a key takes away -/

/-- No two registrations share a key. -/
theorem eq_of_key_eq (hkeys : ((registered events).map (·.key)).Nodup) {a b : Registration}
    (ha : a ∈ registered events) (hb : b ∈ registered events) (h : a.key = b.key) : a = b :=
  List.inj_on_of_nodup_map hkeys ha hb h

/-- Who is registered for a topic. -/
theorem mem_observersOf {registrations : List Registration} :
    observer ∈ observersOf topic registrations ↔
      ∃ r ∈ registrations, r.subscription = ⟨topic, observer⟩ := by
  simp only [observersOf, List.mem_map, List.mem_filter, decide_eq_true_eq]
  constructor
  · rintro ⟨r, ⟨hr, rfl⟩, rfl⟩
    exact ⟨r, hr, rfl⟩
  · rintro ⟨r, hr, hsubscription⟩
    exact ⟨r, ⟨hr, by rw [hsubscription]⟩, by rw [hsubscription]⟩

/-- An observer of a topic among some comes from a registration among them, with the others of the
topic before and after it. -/
theorem exists_of_observersOf_eq {registrations : List Registration} {a b : List Text}
    (h : observersOf topic registrations = a ++ observer :: b) :
    ∃ before r after, registrations = before ++ r :: after ∧ r.subscription = ⟨topic, observer⟩ ∧
      observersOf topic before = a ∧ observersOf topic after = b := by
  obtain ⟨l₁, l₂, hl, ha, hb⟩ := List.map_eq_append_iff.1 h
  obtain ⟨r, l₃, rfl, hr, hb⟩ := List.map_eq_cons_iff.1 hb
  obtain ⟨before, rest, rfl, hbefore, hrest⟩ := List.filter_eq_append_iff.1 hl
  obtain ⟨others, after, rfl, hothers, htopic, hafter⟩ := List.filter_eq_cons_iff.1 hrest
  have hnone : others.filter (·.subscription.topic = topic) = [] :=
    List.filter_eq_nil_iff.2 hothers
  refine ⟨before ++ others, r, after, by rw [List.append_assoc], ?_, ?_, ?_⟩
  · have htopic : r.subscription.topic = topic := by simpa using htopic
    rw [← htopic, ← hr]
  · rw [observersOf_append, observersOf, observersOf, hnone, hbefore, ha, List.map_nil,
      List.append_nil]
  · rw [observersOf, hafter, hb]

/-- Taking away the first subscription like one that is live takes away that one, as far as one can
see, unless another observer of the topic comes in between. -/
theorem erase_live_iff {before after : List Registration} (own : Registration) :
    (observersOf own.subscription.topic (before ++ own :: after)).erase own.subscription.observer =
        observersOf own.subscription.topic (before ++ after) ↔
      ∀ front first between, before = front ++ first :: between →
        first.subscription = own.subscription → ∀ another ∈ between,
          another.subscription.topic = own.subscription.topic →
            another.subscription.observer = own.subscription.observer := by
  have hown : observersOf own.subscription.topic (own :: after) =
      own.subscription.observer :: observersOf own.subscription.topic after := by
    simp [observersOf]
  rw [observersOf_append, observersOf_append, hown, erase_append_cons_eq_iff]
  constructor
  · rintro h front first between rfl hlike another hanother htopic
    have hfirst : observersOf own.subscription.topic (first :: between) =
        own.subscription.observer :: observersOf own.subscription.topic between := by
      simp [observersOf, hlike]
    refine h (observersOf own.subscription.topic front) (observersOf own.subscription.topic between)
      ?_ _ ?_
    · rw [observersOf_append, hfirst]
    · exact mem_observersOf.2 ⟨another, hanother, by rw [← htopic]⟩
  · intro h a₁ a₂ hsplit observer hobserver
    obtain ⟨front, first, between, hbefore, hlike, -, rfl⟩ := exists_of_observersOf_eq hsplit
    obtain ⟨another, hanother, hsubscription⟩ := mem_observersOf.1 hobserver
    have := h front first between hbefore hlike another hanother (by rw [hsubscription])
    rwa [hsubscription] at this

/-- What using a key does to the observers of a topic. -/
theorem agrees_unsubscribe (h : (ofObservers {}).run past = some x)
    (hkeys : ((registered past).map (·.key)).Nodup) (hagrees : Agrees x past)
    (hown : own ∈ registered past) :
    Agrees { x with observers := x.observers.unsubscribe own.key }
      (past ++ [.unsubscribe own.key]) ↔
      (observersOf own.subscription.topic (live past)).erase own.subscription.observer =
        observersOf own.subscription.topic ((live past).filter (·.key ≠ own.key)) := by
  have hof (topic : Text) := of_unsubscribe (lookup_keys h hkeys hown) topic
  constructor
  · intro hafter
    have := hafter own.subscription.topic
    rw [live_unsubscribe] at this
    rw [← this, ← hagrees]
    simpa using (hof own.subscription.topic).symm
  · intro heq topic
    show (x.observers.unsubscribe own.key).of topic = _
    rw [hof, live_unsubscribe, hagrees]
    split
    case isTrue htopic => rw [← htopic, heq]
    case isFalse htopic =>
      -- only the registration of the key goes, and that is to another topic
      simp only [observersOf, List.filter_filter]
      congr 1
      apply List.filter_congr
      intro r hr
      have hne : r.subscription.topic = topic → r.key ≠ own.key := by
        intro hr' hkey
        rw [eq_of_key_eq hkeys (live_sublist.subset hr) hown hkey] at hr'
        exact htopic hr'
      by_cases hr' : r.subscription.topic = topic
      · simp [hr', hne hr']
      · simp [hr']

/-- Keys that are registered once live once. -/
theorem live_nodup (hkeys : ((registered past).map (·.key)).Nodup) : (live past).Nodup :=
  List.Nodup.of_map (·.key) ((live_sublist.map (·.key)).nodup hkeys)

/-- A live subscription is found at one place. -/
theorem eq_of_live_eq (hkeys : ((registered past).map (·.key)).Nodup)
    {before after front back : List Registration} (h : live past = before ++ own :: after)
    (h' : live past = front ++ own :: back) : before = front := by
  have hnodup := live_nodup hkeys
  rw [h] at hnodup
  have hfront : own ∉ before := fun hm =>
    (List.nodup_append.1 hnodup).2.2 own hm own List.mem_cons_self rfl
  have hback : own ∉ after := (List.nodup_cons.1 (List.nodup_append.1 hnodup).2.1).1
  exact ((List.append_cons_inj_of_notMem hfront hback).1 (h.symm.trans h')).1

/-- Taking a live subscription away by its key leaves those before and after it. -/
theorem filter_live (hkeys : ((registered past).map (·.key)).Nodup)
    {before after : List Registration} (h : live past = before ++ own :: after) :
    (live past).filter (·.key ≠ own.key) = before ++ after := by
  have hnodup := (live_sublist.map (·.key)).nodup hkeys
  rw [h, List.map_append, List.map_cons] at hnodup
  have hfront : ∀ r ∈ before, r.key ≠ own.key := fun r hr he =>
    (List.nodup_append.1 hnodup).2.2 _ (List.mem_map_of_mem hr) _ List.mem_cons_self he
  have hback : ∀ r ∈ after, r.key ≠ own.key := fun r hr he =>
    (List.nodup_cons.1 (List.nodup_append.1 hnodup).2.1).1 (he ▸ List.mem_map_of_mem hr)
  rw [h, List.filter_append, List.filter_cons_of_neg (by simp),
    List.filter_eq_self.2 fun r hr => by simpa using hfront r hr,
    List.filter_eq_self.2 fun r hr => by simpa using hback r hr]

/-- A key whose subscription is live misses when that is displaced. -/
theorem misses_iff_of_live (hkeys : ((registered past).map (·.key)).Nodup)
    (hown : own ∈ registered past) {before after : List Registration}
    (hlive : live past = before ++ own :: after) :
    Misses past own.key ↔
      ¬ ∀ front first between, before = front ++ first :: between →
        first.subscription = own.subscription → ∀ another ∈ between,
          another.subscription.topic = own.subscription.topic →
            another.subscription.observer = own.subscription.observer := by
  have hmem : own ∈ live past := hlive ▸ List.mem_append_right _ List.mem_cons_self
  constructor
  · intro hmisses hall
    cases hmisses with
    | spent own' other hown' hkey hspent =>
      rw [eq_of_key_eq hkeys hown' hown hkey] at hspent
      exact hspent hmem
    | displaced front between after' first another own' hlive' hkey hlike hanother htopic hunlike =>
      have hmem' : own' ∈ live past := by simp [hlive']
      obtain rfl := eq_of_key_eq hkeys (live_sublist.subset hmem') hown hkey
      have hbefore : before = front ++ first :: between :=
        eq_of_live_eq hkeys hlive (by rw [hlive', List.append_assoc, List.cons_append])
      exact hunlike (hall front first between hbefore hlike another hanother htopic)
  · intro hnot
    push Not at hnot
    obtain ⟨front, first, between, hbefore, hlike, another, hanother, htopic, hunlike⟩ := hnot
    refine .displaced front between after first another own ?_ rfl hlike hanother htopic hunlike
    rw [hlive, hbefore, List.append_assoc, List.cons_append]

/-- A key whose subscription is not live any more misses when another one like that is. -/
theorem misses_iff_of_not_live (hkeys : ((registered past).map (·.key)).Nodup)
    (hown : own ∈ registered past) (hlive : own ∉ live past) :
    Misses past own.key ↔
      own.subscription.observer ∈ observersOf own.subscription.topic (live past) := by
  rw [mem_observersOf]
  constructor
  · intro hmisses
    cases hmisses with
    | spent own' other hown' hkey hspent hother hlike =>
      rw [eq_of_key_eq hkeys hown' hown hkey] at hlike
      exact ⟨other, hother, hlike⟩
    | displaced front between after' first another own' hlive' hkey =>
      have hmem' : own' ∈ live past := by simp [hlive']
      rw [eq_of_key_eq hkeys (live_sublist.subset hmem') hown hkey] at hmem'
      exact absurd hmem' hlive
  · rintro ⟨other, hother, hlike⟩
    exact .spent own other hown rfl hlive hother hlike

/-- **When one subscription ends.**  Using a key takes away what it should, exactly if it does not
miss. -/
theorem agrees_unsubscribe_iff (h : (ofObservers {}).run past = some x)
    (hkeys : ((registered past).map (·.key)).Nodup) (hagrees : Agrees x past) :
    Agrees { x with observers := x.observers.unsubscribe key } (past ++ [.unsubscribe key]) ↔
      ¬ Misses past key := by
  by_cases hkey : ∃ own ∈ registered past, own.key = key
  · obtain ⟨own, hown, rfl⟩ := hkey
    rw [agrees_unsubscribe h hkeys hagrees hown]
    by_cases hlive : own ∈ live past
    · obtain ⟨before, after, hsplit⟩ := List.append_of_mem hlive
      rw [misses_iff_of_live hkeys hown hsplit, filter_live hkeys hsplit, hsplit, erase_live_iff,
        not_not]
    · have hfilter : (live past).filter (·.key ≠ own.key) = live past := by
        refine List.filter_eq_self.2 fun r hr => ?_
        have hne : r.key ≠ own.key := fun he =>
          hlive (eq_of_key_eq hkeys (live_sublist.subset hr) hown he ▸ hr)
        simpa using hne
      rw [misses_iff_of_not_live hkeys hown hlive, hfilter, List.erase_eq_self_iff]
  · -- a key that nobody was given is not known, and no subscription of it can go wrong
    have hnone : ∀ r ∈ registered past, r.key ≠ key := fun r hr he => hkey ⟨r, hr, he⟩
    refine iff_of_true (fun topic => ?_) fun hmisses => ?_
    · show (x.observers.unsubscribe key).of topic = _
      have hfilter : (live past).filter (·.key ≠ key) = live past :=
        List.filter_eq_self.2 fun r hr => by simpa using hnone r (live_sublist.subset hr)
      rw [Observers.unsubscribe_of_lookup_eq_none (lookup_keys_eq_none h hnone), live_unsubscribe,
        hfilter, hagrees]
    · cases hmisses with
      | spent own other hown hkey' => exact hnone own hown hkey'
      | displaced before between after first another own hlive hkey' =>
        exact hnone own (live_sublist.subset (by simp [hlive])) hkey'

/-! ## Publications call those that are live -/

/-- Whatever happens but the use of a key, what an exchange has stays what is live. -/
theorem Agrees.step (hagrees : Agrees x past) (h : x.step event = some y)
    (hevent : ∀ key, event ≠ .unsubscribe key) : Agrees y (past ++ [event]) := by
  have hsame (hof : ∀ topic, (x.observersAfter event).of topic = x.observers.of topic)
      (hregistered : registered [event] = []) (hended : ended [event] = []) :
      Agrees y (past ++ [event]) := by
    intro topic
    rw [observers_step h, hof, live_append hregistered hended, hagrees]
  cases event with
  | subscribe key t observer behaviour =>
    cases h
    intro topic
    rw [live_subscribe, observersOf_append, ← hagrees]
    show (x.observers.subscribe key t observer behaviour).of topic = _
    by_cases htopic : t = topic
    · subst htopic
      rw [Observers.of_subscribe]
      simp [observersOf]
    · simp [Observers.of, Observers.subscribe, observersOf, htopic]
  | unsubscribe key => exact absurd rfl (hevent key)
  | publish topic => exact hsame (fun _ => rfl) rfl rfl
  | call number observer => exact hsame (fun _ => rfl) rfl rfl
  | finish number failed =>
    refine hsame (fun topic => of_noteFailure _ _ topic failed) ?_ ?_
    · cases failed <;> rfl
    · cases failed <;> rfl

/-- Keys that are registered once in a run are registered once in its beginning. -/
theorem registered_nodup_of_append (h : ((registered (past ++ rest)).map (·.key)).Nodup) :
    ((registered past).map (·.key)).Nodup := by
  rw [registered_append, List.map_append] at h
  exact (List.nodup_append.1 h).1

/-- As long as no key misses, what an exchange has is what is live. -/
theorem agrees_of_not_misses (h : (ofObservers {}).run past = some x)
    (hkeys : ((registered past).map (·.key)).Nodup)
    (hmisses : ∀ before key, before ++ [.unsubscribe key] <+: past → ¬ Misses before key) :
    Agrees x past := by
  induction past using List.reverseRecOn generalizing x with
  | nil =>
    cases h
    exact fun topic => rfl
  | append_singleton past event ih =>
    rw [run_append] at h
    obtain ⟨y, hy, hevent⟩ := Option.bind_eq_some_iff.1 h
    have hkeys' := registered_nodup_of_append hkeys
    have hagrees := ih hy hkeys' fun before key hbefore =>
      hmisses before key (hbefore.trans (List.prefix_append _ _))
    obtain ⟨z, hstep, hz⟩ := Option.bind_eq_some_iff.1 (run_cons ▸ hevent)
    cases hz
    by_cases hkey : ∃ key, event = .unsubscribe key
    · obtain ⟨key, rfl⟩ := hkey
      cases hstep
      exact (agrees_unsubscribe_iff hy hkeys' hagrees).2 (hmisses past key (List.prefix_refl _))
    · exact hagrees.step hstep fun key hkey' => hkey ⟨key, hkey'⟩

/-- The calls that are left to a publication, each coming to its end at once. -/
def completing (number : Nat) (left : List Text) : List Event :=
  left.flatMap fun observer => [.call number observer, .finish number false]

/-- A publication can be completed. -/
theorem run_completing {left : List Text}
    (hd : x.deliveries[number]? = some ⟨topic, left, none⟩) :
    ∃ y, x.run (completing number left) = some y ∧
      y.deliveries[number]? = some ⟨topic, [], none⟩ := by
  induction left generalizing x with
  | nil => exact ⟨x, rfl, hd⟩
  | cons observer left ih =>
    have hlt : number < x.deliveries.length := (List.getElem?_eq_some_iff.1 hd).1
    obtain ⟨y, hy, hcalling⟩ : ∃ y, x.step (.call number observer) = some y ∧
        y.deliveries[number]? = some ⟨topic, left, some observer⟩ :=
      ⟨_, step_call_eq hd, by simp [hlt]⟩
    have hlt' : number < y.deliveries.length := (List.getElem?_eq_some_iff.1 hcalling).1
    obtain ⟨z, hz, hnext⟩ : ∃ z, y.step (.finish number false) = some z ∧
        z.deliveries[number]? = some ⟨topic, left, none⟩ :=
      ⟨_, step_finish_eq false hcalling, by simp [hlt']⟩
    obtain ⟨w, hw, hover⟩ := ih hnext
    refine ⟨w, ?_, hover⟩
    show x.run (.call number observer :: .finish number false :: completing number left) = _
    rw [run_cons, hy, Option.bind_some, run_cons, hz, Option.bind_some, hw]

/-- A publication calls the observers of the live subscriptions exactly if these are what the
exchange has. -/
theorem callsLive_iff (h : (ofObservers {}).run past = some x) :
    CallsLive past ↔ Agrees x past := by
  have hlength : x.deliveries.length = (published past).length := by
    simpa [ofObservers] using length_deliveries h
  constructor
  · intro hcalls topic
    obtain ⟨y, hy, hbegun⟩ : ∃ y, x.step (.publish topic) = some y ∧
        y.deliveries[(published past).length]? = some ⟨topic, x.observers.of topic, none⟩ :=
      ⟨_, rfl, by simp [← hlength]⟩
    obtain ⟨z, hz, hover⟩ := run_completing hbegun
    have hrest :
        x.run (.publish topic :: completing (published past).length (x.observers.of topic)) =
          some z := by
      rw [run_cons, hy, Option.bind_some, hz]
    have hrun : (ofObservers {}).run (past ++ .publish topic ::
        completing (published past).length (x.observers.of topic)) = some z := by
      rw [run_append, h, Option.bind_some, hrest]
    obtain ⟨d, hd, hleft⟩ := calledBy_append_left h hrest
    rw [hlength] at hd hleft
    obtain rfl : ⟨topic, [], none⟩ = d := Option.some.inj (hover.symm.trans hd)
    rw [List.append_nil] at hleft
    exact hleft.symm.trans (hcalls topic _ z _ hrun hover ⟨rfl, rfl⟩)
  · intro hagrees topic rest z d hz hd hover
    rw [run_append, h, Option.bind_some] at hz
    obtain ⟨d', hd', hleft⟩ := calledBy_append_left h hz
    rw [hlength] at hd' hleft
    obtain rfl : d = d' := Option.some.inj (hd.symm.trans hd')
    rwa [hover.1, List.append_nil, hagrees] at hleft

/-- **When publications call the observers of the live subscriptions.**  At every point of a run
they do, if and only if no key that is used in it misses. -/
theorem live_observers_called_iff (h : (ofObservers {}).run events = some x)
    (hkeys : ((registered events).map (·.key)).Nodup) :
    (∀ past, past <+: events → CallsLive past) ↔
      ∀ past key, past ++ [.unsubscribe key] <+: events → ¬ Misses past key := by
  have hrun : ∀ past, past <+: events →
      ∃ y, (ofObservers {}).run past = some y ∧ ((registered past).map (·.key)).Nodup := by
    rintro past ⟨rest, rfl⟩
    rw [run_append] at h
    obtain ⟨y, hy, -⟩ := Option.bind_eq_some_iff.1 h
    exact ⟨y, hy, registered_nodup_of_append hkeys⟩
  -- At each point of the run, publications call the right observers just if the exchange has them.
  constructor
  · intro hcalls past key hbefore
    have hpast := (List.prefix_append past [.unsubscribe key]).trans hbefore
    obtain ⟨y, hy, hkeys'⟩ := hrun past hpast
    obtain ⟨z, hz, -⟩ := hrun _ hbefore
    have hagrees := (callsLive_iff hy).1 (hcalls past hpast)
    have hafter := (callsLive_iff hz).1 (hcalls _ hbefore)
    rw [run_append, hy] at hz
    cases hz
    exact (agrees_unsubscribe_iff hy hkeys' hagrees).1 hafter
  · intro hmisses past hpast
    obtain ⟨y, hy, hkeys'⟩ := hrun past hpast
    exact (callsLive_iff hy).2 (agrees_of_not_misses hy hkeys' fun before key hbefore =>
      hmisses before key (hbefore.trans hpast))

/-- No key misses where no observer ever subscribes to a topic again. -/
theorem not_misses_of_nodup (h : ((registered past).map (·.subscription)).Nodup) :
    ¬ Misses past key := by
  have heq : ∀ a ∈ registered past, ∀ b ∈ registered past, a.subscription =
      b.subscription → a = b :=
    fun a ha b hb => List.inj_on_of_nodup_map h ha hb
  intro hmisses
  cases hmisses with
  | spent own other hown _ hspent hother hlike =>
    exact hspent (heq other (live_sublist.subset hother) own hown hlike ▸ hother)
  | displaced before between after first another own hlive _ hlike =>
    have hnodup := (live_sublist.map (·.subscription)).nodup h
    rw [hlive, List.map_append, List.map_cons, hlike] at hnodup
    exact (List.nodup_cons.1 (List.nodup_append.1 hnodup).2.1).1 (by simp)

/-- Two observers subscribe, the key of the first is used twice, and the topic is published. -/
def tidy : List Event :=
  [.subscribe "u" "t" "h" {}, .subscribe "v" "t" "g" {}, .unsubscribe "u", .unsubscribe "u",
    .publish "t", .call 0 "g", .finish 0 false]

/-- The other one is called. -/
theorem live_observers_called_tidy :
    (∃ x, (ofObservers {}).run tidy = some x ∧ x.observers.calls = ["g"]) ∧
      ((registered tidy).map (·.key)).Nodup ∧
      (∀ past key, past ++ [.unsubscribe key] <+: tidy → ¬ Misses past key) ∧
      ∀ past, past <+: tidy → CallsLive past := by
  have hkeys : ((registered tidy).map (·.key)).Nodup := by decide
  have hdistinct : ((registered tidy).map (·.subscription)).Nodup := by decide
  obtain ⟨x, hx, hcalls⟩ : ∃ x, (ofObservers {}).run tidy = some x ∧ x.observers.calls = ["g"] :=
    ⟨_, rfl, rfl⟩
  have hmisses : ∀ past key, past ++ [.unsubscribe key] <+: tidy → ¬ Misses past key := by
    intro past key hbefore
    apply not_misses_of_nodup
    obtain ⟨rest, hrest⟩ := (List.prefix_append past [.unsubscribe key]).trans hbefore
    rw [← hrest, registered_append, List.map_append] at hdistinct
    exact (List.nodup_append.1 hdistinct).1
  exact ⟨⟨x, hx, hcalls⟩, hkeys, hmisses, (live_observers_called_iff hx hkeys).2 hmisses⟩

/-- An observer subscribes twice, and the key of its first subscription is used twice. -/
def forgetful : List Event :=
  [.subscribe "u" "t" "h" {}, .subscribe "v" "t" "h" {}, .unsubscribe "u", .unsubscribe "u"]

/-- Its second subscription is live, but a publication calls nobody. -/
theorem second_subscription_is_lost :
    observersOf "t" (live forgetful) = ["h"] ∧ ¬ CallsLive forgetful ∧
      (((((({} : Observers).subscribe "u" "t" "h" {}).subscribe "v" "t" "h" {}).unsubscribe
        "u").unsubscribe "u").publish 50 "t").calls = [] := by
  refine ⟨by decide, fun hcalls => ?_, by decide +kernel⟩
  have hcalled := hcalls "t" [] _ _ rfl rfl ⟨rfl, rfl⟩
  exact absurd hcalled (by decide)

end Exchange

end Marginalia
