import Cortex.Control.Errors
import Cortex.Library.Dict
import Cortex.Library.History

/-!
# The decisions of a turn

A `TurnContext` announces decisions, parks a callback until one is answered, and takes
answers from the loop that reads requests.  Every section that runs under the lock, and
every look at an event of `threading`, is one step; the steps of any number of calls
interleave.

An answer is filed whenever the decision was announced, and nothing ever takes an
announcement back.  So `resolve` keeps its promise exactly as long as nobody answers a
decision twice, or after its callback has left.
-/

namespace Cortex.Worker.Decisions

open Control (Text)

/-! ## The sections of the calls -/

/-- `DECISION_DENY`. -/
def decisionDeny : Text := "deny".toList

/-- `EVENT_DECISION_REQUIRED`. -/
def eventDecisionRequired : Text := "decision.required".toList

/-- The identity of a `threading.Event`. -/
abbrev Gate := ℕ

/-- How far a callback is that parked in `await_decision`. -/
inductive Park
  | waiting
  /-- It leaves with a denial, after the timeout or because the turn was canceled. -/
  | givenUp (timedOut : Bool)
  | released
  /-- Its gate is gone, its choice not taken yet. -/
  | unregistered

/-- A callback in `await_decision`; `rounds` are the rounds after which its timeout is over. -/
structure Waiter where
  gate : Gate
  decisionId : Text
  rounds : Option ℕ
  park : Park

/-- A `TurnContext` with the calls that are under way: the callbacks that parked, and the
gates that `resolve` and `release_all` are about to set. -/
structure TurnContext where
  gates : Dict (Prod.fst : Text × Gate → Text)
  choices : Dict (Prod.fst : Text × Text → Text)
  announced : List Text
  canceled : Bool
  nextGate : Gate
  isSet : List Gate
  setting : List Gate
  waiters : Dict Waiter.gate

def TurnContext.initial : TurnContext := ⟨.empty, .empty, [], false, 0, [], [], .empty⟩

inductive Section
  | emit (kind : Text) (decisionId : Option Text)
  /-- The first section of `await_decision`. -/
  | await (decisionId : Text) (rounds : Option ℕ)
  /-- `gate.wait` returns false. -/
  | wait (gate : Gate)
  /-- `gate.wait` returns true. -/
  | wake (gate : Gate)
  /-- The `finally` of `await_decision`. -/
  | leave (gate : Gate)
  /-- The last section of `await_decision`. -/
  | take (gate : Gate)
  | resolve (decisionId choice : Text)
  | set (gate : Gate)
  | cancel
  /-- The section of `release_all`. -/
  | releaseAll
  deriving DecidableEq

/-- What a call returns at the end of the section, if it is decided there. -/
inductive Outcome
  | underWay
  | returned (decisionId choice : Text) (timedOut : Bool)
  | delivered (delivered : Bool)
  deriving DecidableEq

/-- The id that `emit` adds to the announced ones. -/
def announcedBy (kind : Text) (decisionId : Option Text) : List Text :=
  if kind = eventDecisionRequired then (decisionId.filter fun id => id ≠ []).toList else []

namespace TurnContext

/-- A section of `await_decision`, of the callback that parked at this gate. -/
def atGate (s : TurnContext) (gate : Gate)
    (run : Waiter → Option (TurnContext × Outcome)) : Option (TurnContext × Outcome) :=
  (s.waiters.get? gate).bind run

/-- The first section of `await_decision`: an answer that is there is taken at once. -/
def await (s : TurnContext) (decisionId : Text) (rounds : Option ℕ) : TurnContext × Outcome :=
  match s.choices.get? decisionId with
  | some existing =>
      ({ s with choices := s.choices.erase decisionId }, .returned decisionId existing.2 false)
  | none =>
      ({ s with
          gates := s.gates.set (decisionId, s.nextGate)
          nextGate := s.nextGate + 1
          waiters := s.waiters.set ⟨s.nextGate, decisionId, rounds, .waiting⟩ }, .underWay)

/-- A round of the loop of `await_decision` whose `gate.wait` returned false. -/
def wait (s : TurnContext) (w : Waiter) : Option (TurnContext × Outcome) :=
  match w.park with
  | .waiting =>
      if s.canceled then
        some ({ s with waiters := s.waiters.set { w with park := .givenUp false } }, .underWay)
      else
        match w.rounds with
        | none => some (s, .underWay)
        | some 0 =>
            some ({ s with waiters := s.waiters.set { w with park := .givenUp true } }, .underWay)
        | some (n + 1) =>
            some ({ s with waiters := s.waiters.set { w with rounds := some n } }, .underWay)
  | _ => none

def wake (s : TurnContext) (w : Waiter) : Option (TurnContext × Outcome) :=
  match w.park with
  | .waiting =>
      if w.gate ∈ s.isSet then
        some ({ s with waiters := s.waiters.set { w with park := .released } }, .underWay)
      else none
  | _ => none

def leave (s : TurnContext) (w : Waiter) : Option (TurnContext × Outcome) :=
  match w.park with
  | .givenUp timedOut =>
      some ({ s with
          gates := s.gates.erase w.decisionId
          waiters := s.waiters.erase w.gate }, .returned w.decisionId decisionDeny timedOut)
  | .released =>
      some ({ s with
          gates := s.gates.erase w.decisionId
          waiters := s.waiters.set { w with park := .unregistered } }, .underWay)
  | _ => none

def take (s : TurnContext) (w : Waiter) : Option (TurnContext × Outcome) :=
  match w.park with
  | .unregistered =>
      some ({ s with
          choices := s.choices.erase w.decisionId
          waiters := s.waiters.erase w.gate },
        .returned w.decisionId (((s.choices.get? w.decisionId).map Prod.snd).getD decisionDeny)
          false)
  | _ => none

/-- The section of `resolve`; its gate is set afterwards. -/
def resolve (s : TurnContext) (decisionId choice : Text) : TurnContext × Outcome :=
  let gate := s.gates.get? decisionId
  if gate.isNone ∧ decisionId ∉ s.announced then (s, .delivered false)
  else
    ({ s with
        choices := s.choices.set (decisionId, choice)
        setting := (gate.map Prod.snd).toList ++ s.setting }, .delivered true)

def setGate (s : TurnContext) (gate : Gate) : Option (TurnContext × Outcome) :=
  if gate ∈ s.setting then
    some ({ s with isSet := gate :: s.isSet, setting := s.setting.erase gate }, .underWay)
  else none

/-- The section of `release_all`, which `cancel` calls. -/
def releaseAll (s : TurnContext) : Option (TurnContext × Outcome) :=
  if s.canceled then
    some ({ s with setting := s.gates.values.map Prod.snd ++ s.setting }, .underWay)
  else none

/-- A section, if a call is where it runs. -/
def run (s : TurnContext) : Section → Option (TurnContext × Outcome)
  | .emit kind decisionId =>
      some ({ s with announced := announcedBy kind decisionId ++ s.announced }, .underWay)
  | .await decisionId rounds => some (s.await decisionId rounds)
  | .wait gate => s.atGate gate s.wait
  | .wake gate => s.atGate gate s.wake
  | .leave gate => s.atGate gate s.leave
  | .take gate => s.atGate gate s.take
  | .resolve decisionId choice => some (s.resolve decisionId choice)
  | .set gate => s.setGate gate
  | .cancel => some ({ s with canceled := true }, .underWay)
  | .releaseAll => s.releaseAll

end TurnContext

/-- A section that ran, with its outcome. -/
abbrev Event := Section × Outcome

def Step (s : TurnContext) (event : Event) (s' : TurnContext) : Prop :=
  s.run event.1 = some (s', event.2)

/-! ## What a section can do -/

/-- What happens in a section. -/
inductive Ran (s : TurnContext) : Event → TurnContext → Prop
  | emitted (kind : Text) (decisionId : Option Text) :
      Ran s (.emit kind decisionId, .underWay)
        { s with announced := announcedBy kind decisionId ++ s.announced }
  | answered {decisionId choice : Text} (rounds : Option ℕ)
      (hchoice : s.choices.get? decisionId = some (decisionId, choice)) :
      Ran s (.await decisionId rounds, .returned decisionId choice false)
        { s with choices := s.choices.erase decisionId }
  | parked {decisionId : Text} (rounds : Option ℕ)
      (hchoice : s.choices.get? decisionId = none) :
      Ran s (.await decisionId rounds, .underWay)
        { s with
          gates := s.gates.set (decisionId, s.nextGate)
          nextGate := s.nextGate + 1
          waiters := s.waiters.set ⟨s.nextGate, decisionId, rounds, .waiting⟩ }
  | waited {w : Waiter} (hw : s.waiters.get? w.gate = some w) (hpark : w.park = .waiting) :
      Ran s (.wait w.gate, .underWay) s
  | counted {w : Waiter} (rounds : ℕ) (hw : s.waiters.get? w.gate = some w)
      (hpark : w.park = .waiting) :
      Ran s (.wait w.gate, .underWay)
        { s with waiters := s.waiters.set { w with rounds := some rounds } }
  | gaveUp {w : Waiter} (timedOut : Bool) (hw : s.waiters.get? w.gate = some w)
      (hpark : w.park = .waiting) (hcanceled : timedOut = false → s.canceled = true) :
      Ran s (.wait w.gate, .underWay)
        { s with waiters := s.waiters.set { w with park := .givenUp timedOut } }
  | woke {w : Waiter} (hw : s.waiters.get? w.gate = some w) (hpark : w.park = .waiting)
      (hset : w.gate ∈ s.isSet) :
      Ran s (.wake w.gate, .underWay)
        { s with waiters := s.waiters.set { w with park := .released } }
  | denied {w : Waiter} {timedOut : Bool} (hw : s.waiters.get? w.gate = some w)
      (hpark : w.park = .givenUp timedOut) :
      Ran s (.leave w.gate, .returned w.decisionId decisionDeny timedOut)
        { s with
          gates := s.gates.erase w.decisionId
          waiters := s.waiters.erase w.gate }
  | left {w : Waiter} (hw : s.waiters.get? w.gate = some w) (hpark : w.park = .released) :
      Ran s (.leave w.gate, .underWay)
        { s with
          gates := s.gates.erase w.decisionId
          waiters := s.waiters.set { w with park := .unregistered } }
  | took {w : Waiter} (choice : Text) (hw : s.waiters.get? w.gate = some w)
      (hpark : w.park = .unregistered)
      (hchoice : s.choices.get? w.decisionId = some (w.decisionId, choice) ∨
        s.choices.get? w.decisionId = none ∧ choice = decisionDeny) :
      Ran s (.take w.gate, .returned w.decisionId choice false)
        { s with
          choices := s.choices.erase w.decisionId
          waiters := s.waiters.erase w.gate }
  | refused {decisionId : Text} (choice : Text) (hgate : s.gates.get? decisionId = none)
      (hannounced : decisionId ∉ s.announced) :
      Ran s (.resolve decisionId choice, .delivered false) s
  | delivered {decisionId : Text} (choice : Text) (gate : Option Gate)
      (hgate : s.gates.get? decisionId = gate.map fun g => (decisionId, g))
      (hasked : gate.isSome ∨ decisionId ∈ s.announced) :
      Ran s (.resolve decisionId choice, .delivered true)
        { s with
          choices := s.choices.set (decisionId, choice)
          setting := gate.toList ++ s.setting }
  | wasSet {gate : Gate} (hsetting : gate ∈ s.setting) :
      Ran s (.set gate, .underWay)
        { s with isSet := gate :: s.isSet, setting := s.setting.erase gate }
  | canceled : Ran s (.cancel, .underWay) { s with canceled := true }
  | releasing (hcanceled : s.canceled = true) :
      Ran s (.releaseAll, .underWay)
        { s with setting := s.gates.values.map Prod.snd ++ s.setting }

variable {s s' : TurnContext} {event : Event} {events : List Event}

private theorem atGate_eq_some {gate : Gate} {run : Waiter → Option (TurnContext × Outcome)}
    {result : TurnContext × Outcome} (h : s.atGate gate run = some result) :
    ∃ w, w.gate = gate ∧ s.waiters.get? w.gate = some w ∧ run w = some result := by
  obtain ⟨w, hw, hrun⟩ := Option.bind_eq_some_iff.1 h
  obtain rfl := Dict.key_of_get? hw
  exact ⟨w, rfl, hw, hrun⟩

private theorem pair_of_get? {ν : Type} {d : Dict (Prod.fst : Text × ν → Text)} {k : Text}
    {entry : Text × ν} (h : d.get? k = some entry) : entry = (k, entry.2) :=
  Prod.ext (Dict.key_of_get? h) rfl

/-- Every section does one of these. -/
theorem Step.ran (h : Step s event s') : Ran s event s' := by
  obtain ⟨sec, outcome⟩ := event
  cases sec with
  | emit kind decisionId =>
      cases h
      exact .emitted kind decisionId
  | await decisionId rounds =>
      simp only [Step, TurnContext.run, TurnContext.await] at h
      split at h
      · rename_i existing hchoice
        cases h
        exact .answered rounds (hchoice.trans (congrArg some (pair_of_get? hchoice)))
      · rename_i hchoice
        cases h
        exact .parked rounds hchoice
  | wait gate =>
      obtain ⟨w, rfl, hw, hrun⟩ := atGate_eq_some h
      unfold TurnContext.wait at hrun
      split at hrun
      · rename_i hpark
        split at hrun
        · rename_i hcanceled
          cases hrun
          exact .gaveUp false hw hpark fun _ => hcanceled
        · split at hrun <;> cases hrun
          · exact .waited hw hpark
          · exact .gaveUp true hw hpark Bool.noConfusion
          · exact .counted _ hw hpark
      · cases hrun
  | wake gate =>
      obtain ⟨w, rfl, hw, hrun⟩ := atGate_eq_some h
      unfold TurnContext.wake at hrun
      split at hrun
      · rename_i hpark
        split at hrun
        · rename_i hset
          cases hrun
          exact .woke hw hpark hset
        · cases hrun
      · cases hrun
  | leave gate =>
      obtain ⟨w, rfl, hw, hrun⟩ := atGate_eq_some h
      unfold TurnContext.leave at hrun
      split at hrun
      · rename_i timedOut hpark
        cases hrun
        exact .denied hw hpark
      · rename_i hpark
        cases hrun
        exact .left hw hpark
      · cases hrun
  | take gate =>
      obtain ⟨w, rfl, hw, hrun⟩ := atGate_eq_some h
      unfold TurnContext.take at hrun
      split at hrun
      · rename_i hpark
        cases hrun
        refine .took _ hw hpark ?_
        cases hchoice : s.choices.get? w.decisionId with
        | none => exact .inr ⟨rfl, rfl⟩
        | some entry => exact .inl (congrArg some (pair_of_get? hchoice))
      · cases hrun
  | resolve decisionId choice =>
      simp only [Step, TurnContext.run, TurnContext.resolve] at h
      split at h
      · rename_i hnobody
        cases h
        exact .refused choice (Option.isNone_iff_eq_none.1 hnobody.1) hnobody.2
      · rename_i hasked
        cases h
        cases hgate : s.gates.get? decisionId with
        | none =>
            refine .delivered choice none hgate (.inr ?_)
            by_contra hannounced
            exact hasked ⟨by rw [hgate]; rfl, hannounced⟩
        | some entry =>
            refine .delivered choice (some entry.2) ?_ (.inl rfl)
            exact hgate.trans (congrArg some (pair_of_get? hgate))
  | set gate =>
      simp only [Step, TurnContext.run, TurnContext.setGate] at h
      split at h
      · rename_i hsetting
        cases h
        exact .wasSet hsetting
      · cases h
  | cancel =>
      cases h
      exact .canceled
  | releaseAll =>
      simp only [Step, TurnContext.run, TurnContext.releaseAll] at h
      split at h
      · rename_i hcanceled
        cases h
        exact .releasing hcanceled
      · cases h

/-! ## What the events tell -/

/-- The turn announced a decision with this id. -/
def Announced (id : Text) (events : List Event) : Prop :=
  id ≠ [] ∧ (.emit eventDecisionRequired (some id), .underWay) ∈ events

/-- A `resolve` with this choice returns true. -/
def Delivered (id choice : Text) (events : List Event) : Prop :=
  (.resolve id choice, .delivered true) ∈ events

/-- An `await_decision` has returned: its question was answered or given up. -/
def Ended (id : Text) (events : List Event) : Prop :=
  ∃ sec choice timedOut, (sec, .returned id choice timedOut) ∈ events

def Canceled (events : List Event) : Prop := (.cancel, .underWay) ∈ events

def Section.awaits : Section → Option Text
  | .await id _ => some id
  | _ => none

def awaited (events : List Event) : List Text := events.filterMap fun event => event.1.awaits

/-- No decision is awaited twice. -/
def AwaitedOnce (events : List Event) : Prop := (awaited events).Nodup

instance (events : List Event) : Decidable (AwaitedOnce events) :=
  inferInstanceAs (Decidable (awaited events).Nodup)

theorem AwaitedOnce.earlier (h : AwaitedOnce (event :: events)) : AwaitedOnce events := by
  unfold AwaitedOnce awaited at h
  rw [List.filterMap_cons] at h
  cases hid : event.1.awaits with
  | none => rwa [hid] at h
  | some id =>
      rw [hid] at h
      exact h.of_cons

theorem AwaitedOnce.fresh {id : Text} {rounds : Option ℕ} {outcome : Outcome}
    (h : AwaitedOnce ((.await id rounds, outcome) :: events)) : id ∉ awaited events :=
  (List.nodup_cons.1 h).1

theorem mem_announcedBy {kind id : Text} {decisionId : Option Text} :
    id ∈ announcedBy kind decisionId ↔
      kind = eventDecisionRequired ∧ decisionId = some id ∧ id ≠ [] := by
  unfold announcedBy
  split
  · rename_i hkind
    simp only [Option.mem_toList, Option.filter_eq_some_iff, decide_eq_true_eq,
      hkind, true_and]
  · rename_i hkind
    simp only [List.not_mem_nil, hkind, false_and]

section Along

variable {id choice : Text}

theorem Announced.later (h : Announced id events) : Announced id (event :: events) :=
  ⟨h.1, .tail _ h.2⟩

theorem Delivered.later (h : Delivered id choice events) : Delivered id choice (event :: events) :=
  .tail _ h

theorem Ended.later (h : Ended id events) : Ended id (event :: events) := by
  obtain ⟨sec, choice, timedOut, hmem⟩ := h
  exact ⟨sec, choice, timedOut, .tail _ hmem⟩

theorem Canceled.later (h : Canceled events) : Canceled (event :: events) := .tail _ h

theorem ended_cons {sec : Section} {timedOut : Bool} :
    Ended id ((sec, .returned id choice timedOut) :: events) :=
  ⟨sec, choice, timedOut, .head _⟩

end Along

/-! ## The maps and the events -/

/-- What the maps hold is what the events put there. -/
structure Told (events : List Event) (s : TurnContext) : Prop where
  announced : ∀ id, id ∈ s.announced ↔ Announced id events
  canceled : s.canceled = true → Canceled events
  denied : ∀ gate w, s.waiters.get? gate = some w → w.park = .givenUp false → Canceled events
  chosen : ∀ id choice, s.choices.get? id = some (id, choice) → Delivered id choice events
  /-- An answer is there until the question has ended. -/
  kept : ∀ id choice, Delivered id choice events → s.choices.get? id ≠ none ∨ Ended id events

theorem told_initial : Told [] .initial where
  announced id := ⟨fun h => (List.not_mem_nil h).elim, fun h => (List.not_mem_nil h.2).elim⟩
  canceled h := Bool.noConfusion h
  denied gate w h := by cases h
  chosen id choice h := by cases h
  kept id choice h := (List.not_mem_nil h).elim

private theorem announced_cons {id : Text} :
    Announced id (event :: events) ↔
      id ≠ [] ∧ event = (.emit eventDecisionRequired (some id), .underWay) ∨
        Announced id events := by
  simp only [Announced, List.mem_cons, eq_comm (a := event), and_or_left]

private theorem told_announced (h : Ran s event s')
    (hs : ∀ id, id ∈ s.announced ↔ Announced id events) (id : Text) :
    id ∈ s'.announced ↔ Announced id (event :: events) := by
  rw [announced_cons, ← hs id]
  cases h with
  | emitted kind decisionId =>
      simp only [List.mem_append, mem_announcedBy, Prod.mk.injEq, Section.emit.injEq, and_true]
      tauto
  | _ => simp

private theorem told_canceled (h : Ran s event s') (hs : s.canceled = true → Canceled events)
    (hcanceled : s'.canceled = true) : Canceled (event :: events) := by
  cases h with
  | canceled => exact .head _
  | _ => exact (hs hcanceled).later

private theorem told_denied (h : Ran s event s') (hs : Told events s) {gate : Gate} {w : Waiter}
    (hw : s'.waiters.get? gate = some w) (hpark : w.park = .givenUp false) :
    Canceled (event :: events) := by
  -- a waiter that was not changed is one of before
  have hold : ∀ {u : Waiter}, u.park ≠ .givenUp false →
      (s.waiters.set u).get? gate = some w → Canceled events := by
    intro u hu hget
    rw [Dict.get?_set] at hget
    split at hget
    · cases hget
      exact absurd hpark hu
    · exact hs.denied gate w hget hpark
  have herased : ∀ {gate' : Gate}, (s.waiters.erase gate').get? gate = some w →
      Canceled events := by
    intro gate' hget
    rw [Dict.get?_erase] at hget
    split at hget
    · cases hget
    · exact hs.denied gate w hget hpark
  refine Canceled.later ?_
  cases h with
  | parked rounds hchoice => exact hold Park.noConfusion hw
  | counted rounds hu hwaiting => exact hold (by simp [hwaiting]) hw
  | gaveUp timedOut hu hwaiting hcanceled =>
      cases timedOut with
      | false => exact hs.canceled (hcanceled rfl)
      | true => exact hold (by simp) hw
  | woke hu hwaiting hset => exact hold Park.noConfusion hw
  | left hu hreleased => exact hold Park.noConfusion hw
  | denied hu hgivenUp => exact herased hw
  | took choice hu hunregistered hchoice => exact herased hw
  | _ => exact hs.denied gate w hw hpark

private theorem told_chosen (h : Ran s event s')
    (hs : ∀ id choice, s.choices.get? id = some (id, choice) → Delivered id choice events)
    {id choice : Text} (hchoice : s'.choices.get? id = some (id, choice)) :
    Delivered id choice (event :: events) := by
  have herased : ∀ {id' : Text}, (s.choices.erase id').get? id = some (id, choice) →
      Delivered id choice (event :: events) := by
    intro id' hget
    rw [Dict.get?_erase] at hget
    split at hget
    · cases hget
    · exact (hs id choice hget).later
  cases h with
  | answered rounds hexisting => exact herased hchoice
  | took taken hu hunregistered htaken => exact herased hchoice
  | delivered new gate hgate hasked =>
      rw [Dict.get?_set] at hchoice
      split at hchoice
      · cases hchoice
        exact .head _
      · exact (hs id choice hchoice).later
  | _ => exact (hs id choice hchoice).later

private theorem told_kept (h : Ran s event s')
    (hs : ∀ id choice, Delivered id choice events → s.choices.get? id ≠ none ∨ Ended id events)
    {id choice : Text} (hdelivered : Delivered id choice (event :: events)) :
    s'.choices.get? id ≠ none ∨ Ended id (event :: events) := by
  have hearlier : ∀ {id' : Text}, Delivered id choice events →
      (id = id' → Ended id (event :: events)) →
      (s.choices.erase id').get? id ≠ none ∨ Ended id (event :: events) := by
    intro id' hd hended
    rw [Dict.get?_erase]
    split
    · rename_i hid
      exact .inr (hended hid)
    · exact (hs id choice hd).imp_right Ended.later
  rcases List.mem_cons.1 hdelivered with hnow | hd
  · subst hnow
    cases h with
    | delivered new gate hgate hasked =>
        refine .inl ?_
        simp
  · cases h with
    | answered rounds hexisting =>
        refine hearlier hd fun hid => ?_
        rw [hid]
        exact ended_cons
    | took taken hu hunregistered htaken =>
        refine hearlier hd fun hid => ?_
        rw [hid]
        exact ended_cons
    | delivered new gate hgate hasked =>
        rw [Dict.get?_set]
        split
        · exact .inl (Option.some_ne_none _)
        · exact (hs id choice hd).imp_right Ended.later
    | _ => exact (hs id choice hd).imp_right Ended.later

theorem Told.step (hs : Told events s) (h : Ran s event s') : Told (event :: events) s' where
  announced := told_announced h hs.announced
  canceled := told_canceled h hs.canceled
  denied _ _ := told_denied h hs
  chosen _ _ := told_chosen h hs.chosen
  kept _ _ := told_kept h hs.kept

/-! ## The parked callbacks -/

/-- When no decision is awaited twice: each gate belongs to one callback, and a gate that is set
means an answer or the end of the turn. -/
structure Parked (events : List Event) (s : TurnContext) : Prop where
  awaited : ∀ gate w, s.waiters.get? gate = some w → w.decisionId ∈ awaited events
  single : ∀ gate gate' w w', s.waiters.get? gate = some w → s.waiters.get? gate' = some w' →
    w.decisionId = w'.decisionId → gate = gate'
  registered : ∀ id gate, s.gates.get? id = some (id, gate) →
    ∃ w, s.waiters.get? gate = some w ∧ w.decisionId = id ∧ w.park ≠ .unregistered
  fresh : ∀ gate, gate ∈ s.setting ∨ gate ∈ s.isSet ∨ s.waiters.get? gate ≠ none →
    gate < s.nextGate
  answered : ∀ gate w, s.waiters.get? gate = some w →
    w.park = .released ∨ w.park = .unregistered ∨ gate ∈ s.isSet ∨ gate ∈ s.setting →
    s.canceled = true ∨ s.choices.get? w.decisionId ≠ none

theorem parked_initial : Parked [] .initial where
  awaited gate w h := by cases h
  single gate gate' w w' h := by cases h
  registered id gate h := by cases h
  fresh gate h := by
    rcases h with h | h | h
    · exact (List.not_mem_nil h).elim
    · exact (List.not_mem_nil h).elim
    · exact absurd rfl h
  answered gate w h := by cases h

theorem mem_awaited_cons {id : Text} (h : id ∈ awaited events) :
    id ∈ awaited (event :: events) := by
  unfold awaited at h ⊢
  rw [List.filterMap_cons]
  split
  · exact h
  · exact .tail _ h

/-- A callback was there before with the same decision, or it parks right now. -/
theorem Ran.waiter {gate : Gate} {w : Waiter} (h : Ran s event s')
    (hw : s'.waiters.get? gate = some w) :
    (∃ u, s.waiters.get? gate = some u ∧ u.decisionId = w.decisionId) ∨
      gate = s.nextGate ∧ w.park = .waiting ∧
        ∃ rounds, event = (.await w.decisionId rounds, .underWay) := by
  have hset : ∀ {u v : Waiter}, s.waiters.get? u.gate = some u →
      (s.waiters.set v).get? gate = some w → v.gate = u.gate → v.decisionId = u.decisionId →
      ∃ u, s.waiters.get? gate = some u ∧ u.decisionId = w.decisionId := by
    intro u v hu hget hgate hid
    rw [Dict.get?_set] at hget
    split at hget
    · rename_i heq
      cases hget
      exact ⟨u, by rw [heq, hgate, hu], hid.symm⟩
    · exact ⟨w, hget, rfl⟩
  have herased : ∀ {gate' : Gate}, (s.waiters.erase gate').get? gate = some w →
      ∃ u, s.waiters.get? gate = some u ∧ u.decisionId = w.decisionId := by
    intro gate' hget
    rw [Dict.get?_erase] at hget
    split at hget
    · cases hget
    · exact ⟨w, hget, rfl⟩
  cases h with
  | parked rounds hchoice =>
      rw [Dict.get?_set] at hw
      split at hw
      · rename_i hgate
        cases hw
        exact .inr ⟨hgate, rfl, rounds, rfl⟩
      · exact .inl ⟨w, hw, rfl⟩
  | counted rounds hu hwaiting => exact .inl (hset hu hw rfl rfl)
  | gaveUp timedOut hu hwaiting hcanceled => exact .inl (hset hu hw rfl rfl)
  | woke hu hwaiting hisSet => exact .inl (hset hu hw rfl rfl)
  | left hu hreleased => exact .inl (hset hu hw rfl rfl)
  | denied hu hgivenUp => exact .inl (herased hw)
  | took choice hu hunregistered hchoice => exact .inl (herased hw)
  | _ => exact .inl ⟨w, hw, rfl⟩

section ParkedStep

variable (h : Ran s event s') (honce : AwaitedOnce (event :: events)) (hs : Parked events s)
include h honce hs

omit honce in
private theorem parked_awaited {gate : Gate} {w : Waiter} (hw : s'.waiters.get? gate = some w) :
    w.decisionId ∈ awaited (event :: events) := by
  rcases h.waiter hw with ⟨u, hu, hid⟩ | ⟨-, -, rounds, rfl⟩
  · rw [← hid]
    exact mem_awaited_cons (hs.awaited gate u hu)
  · exact List.mem_cons_self

private theorem parked_single {gate gate' : Gate} {w w' : Waiter}
    (hw : s'.waiters.get? gate = some w) (hw' : s'.waiters.get? gate' = some w')
    (hid : w.decisionId = w'.decisionId) : gate = gate' := by
  rcases h.waiter hw with ⟨u, hu, huw⟩ | ⟨hgate, -, rounds, hevent⟩
  · rcases h.waiter hw' with ⟨u', hu', huw'⟩ | ⟨hgate', -, rounds, rfl⟩
    · exact hs.single gate gate' u u' hu hu' (huw.trans (hid.trans huw'.symm))
    · refine absurd (hs.awaited gate u hu) ?_
      rw [huw, hid]
      exact honce.fresh
  · rcases h.waiter hw' with ⟨u', hu', huw'⟩ | ⟨hgate', -, -⟩
    · subst hevent
      refine absurd (hs.awaited gate' u' hu') ?_
      rw [huw', ← hid]
      exact honce.fresh
    · exact hgate.trans hgate'.symm

omit honce in
private theorem parked_registered {id : Text} {gate : Gate}
    (hgate : s'.gates.get? id = some (id, gate)) :
    ∃ w, s'.waiters.get? gate = some w ∧ w.decisionId = id ∧ w.park ≠ .unregistered := by
  have hset : ∀ {u v : Waiter}, s.waiters.get? u.gate = some u →
      s.gates.get? id = some (id, gate) → v.gate = u.gate → v.decisionId = u.decisionId →
      v.park ≠ .unregistered →
      ∃ w, (s.waiters.set v).get? gate = some w ∧ w.decisionId = id ∧ w.park ≠ .unregistered := by
    intro u v hu hget hv hid hpark
    obtain ⟨w, hw, hwid, hwpark⟩ := hs.registered id gate hget
    rw [Dict.get?_set]
    split
    · rename_i heq
      refine ⟨v, rfl, ?_, hpark⟩
      rw [heq, hv, hu] at hw
      cases hw
      exact hid.trans hwid
    · exact ⟨w, hw, hwid, hwpark⟩
  -- the callback at this gate is another one than one with another decision
  have hother : ∀ {u w : Waiter}, s.waiters.get? u.gate = some u → s.waiters.get? gate = some w →
      w.decisionId = id → id ≠ u.decisionId → gate ≠ u.gate := by
    rintro u w hu hw rfl hne rfl
    rw [hu] at hw
    cases hw
    exact hne rfl
  cases h with
  | parked rounds hchoice =>
      rw [Dict.get?_set] at hgate
      split at hgate
      · rename_i hid
        cases hgate
        exact ⟨_, by rw [Dict.get?_set, if_pos rfl], rfl, Park.noConfusion⟩
      · obtain ⟨w, hw, hwid, hwpark⟩ := hs.registered id gate hgate
        refine ⟨w, ?_, hwid, hwpark⟩
        have hlt := hs.fresh gate (.inr (.inr (by rw [hw]; exact Option.some_ne_none _)))
        rw [Dict.get?_set, if_neg (Nat.ne_of_lt hlt), hw]
  | counted rounds hu hwaiting => exact hset hu hgate rfl rfl (by simp [hwaiting])
  | gaveUp timedOut hu hwaiting hcanceled => exact hset hu hgate rfl rfl Park.noConfusion
  | woke hu hwaiting hisSet => exact hset hu hgate rfl rfl Park.noConfusion
  | left hu hreleased =>
      rw [Dict.get?_erase] at hgate
      split at hgate
      · cases hgate
      · rename_i hne
        obtain ⟨w, hw, hwid, hwpark⟩ := hs.registered id gate hgate
        refine ⟨w, ?_, hwid, hwpark⟩
        rw [Dict.get?_set, if_neg (hother hu hw hwid hne), hw]
  | denied hu hgivenUp =>
      rw [Dict.get?_erase] at hgate
      split at hgate
      · cases hgate
      · rename_i hne
        obtain ⟨w, hw, hwid, hwpark⟩ := hs.registered id gate hgate
        refine ⟨w, ?_, hwid, hwpark⟩
        rw [Dict.get?_erase, if_neg (hother hu hw hwid hne), hw]
  | took choice hu hunregistered hchoice =>
      obtain ⟨w, hw, hwid, hwpark⟩ := hs.registered id gate hgate
      refine ⟨w, ?_, hwid, hwpark⟩
      rw [Dict.get?_erase, if_neg, hw]
      rintro rfl
      rw [hu] at hw
      cases hw
      exact hwpark hunregistered
  | _ => exact hs.registered id gate hgate

omit honce in
private theorem parked_fresh {gate : Gate}
    (hgate : gate ∈ s'.setting ∨ gate ∈ s'.isSet ∨ s'.waiters.get? gate ≠ none) :
    gate < s'.nextGate := by
  have hwaiter : s'.waiters.get? gate ≠ none → gate < s.nextGate ∨ gate = s.nextGate ∧
      ∃ id rounds, event = (.await id rounds, .underWay) := by
    intro hne
    obtain ⟨w, hw⟩ := Option.ne_none_iff_exists'.1 hne
    rcases h.waiter hw with ⟨u, hu, -⟩ | ⟨hgate, -, rounds, hevent⟩
    · exact .inl (hs.fresh gate (.inr (.inr (by rw [hu]; exact Option.some_ne_none _))))
    · exact .inr ⟨hgate, _, rounds, hevent⟩
  -- a gate that is registered belongs to a callback
  have hregistered : ∀ {id : Text}, s.gates.get? id = some (id, gate) → gate < s.nextGate := by
    intro id hget
    obtain ⟨w, hw, -⟩ := hs.registered id gate hget
    exact hs.fresh gate (.inr (.inr (by rw [hw]; exact Option.some_ne_none _)))
  cases h with
  | parked rounds hchoice =>
      rcases hgate with hgate | hgate | hgate
      · exact Nat.lt_succ_of_lt (hs.fresh gate (.inl hgate))
      · exact Nat.lt_succ_of_lt (hs.fresh gate (.inr (.inl hgate)))
      · rcases hwaiter hgate with hlt | ⟨heq, -⟩
        · exact Nat.lt_succ_of_lt hlt
        · exact Nat.lt_succ_of_le (Nat.le_of_eq heq)
  | delivered choice registered hget hasked =>
      rcases hgate with hgate | hgate | hgate
      · rcases List.mem_append.1 hgate with hgate | hgate
        · rw [Option.mem_toList] at hgate
          rw [hgate] at hget
          exact hregistered hget
        · exact hs.fresh gate (.inl hgate)
      · exact hs.fresh gate (.inr (.inl hgate))
      · exact hs.fresh gate (.inr (.inr hgate))
  | wasSet hsetting =>
      rcases hgate with hgate | hgate | hgate
      · exact hs.fresh gate (.inl (List.mem_of_mem_erase hgate))
      · rcases List.mem_cons.1 hgate with rfl | hgate
        · exact hs.fresh _ (.inl hsetting)
        · exact hs.fresh gate (.inr (.inl hgate))
      · exact hs.fresh gate (.inr (.inr hgate))
  | releasing hcanceled =>
      rcases hgate with hgate | hgate | hgate
      · rcases List.mem_append.1 hgate with hgate | hgate
        · obtain ⟨⟨id, _⟩, hmem, rfl⟩ := List.mem_map.1 hgate
          exact hregistered (Dict.get?_eq_some.2 ⟨hmem, rfl⟩)
        · exact hs.fresh gate (.inl hgate)
      · exact hs.fresh gate (.inr (.inl hgate))
      · exact hs.fresh gate (.inr (.inr hgate))
  | _ =>
      rcases hgate with hgate | hgate | hgate
      · exact hs.fresh gate (.inl hgate)
      · exact hs.fresh gate (.inr (.inl hgate))
      · rcases hwaiter hgate with hlt | ⟨-, id, rounds, hevent⟩
        · exact hlt
        · cases hevent

private theorem parked_answered {gate : Gate} {w : Waiter} (hw : s'.waiters.get? gate = some w)
    (hwakes : w.park = .released ∨ w.park = .unregistered ∨ gate ∈ s'.isSet ∨
      gate ∈ s'.setting) :
    s'.canceled = true ∨ s'.choices.get? w.decisionId ≠ none := by
  have herased : ∀ {id : Text}, w.decisionId ≠ id →
      s.canceled = true ∨ s.choices.get? w.decisionId ≠ none →
      s.canceled = true ∨ (s.choices.erase id).get? w.decisionId ≠ none := by
    intro id hne
    rw [Dict.get?_erase, if_neg hne]
    exact fun h => h
  cases h with
  | answered rounds hchoice =>
      refine herased ?_ (hs.answered gate w hw hwakes)
      rintro rfl
      exact honce.fresh (hs.awaited gate w hw)
  | parked rounds hchoice =>
      rw [Dict.get?_set] at hw
      split at hw
      · rename_i hgate
        cases hw
        -- nothing is about to set a gate that is new
        have hnew : ¬(gate ∈ s.isSet ∨ gate ∈ s.setting) := by
          rintro (hmem | hmem)
          · exact absurd (hs.fresh gate (.inr (.inl hmem))) (by simp [hgate])
          · exact absurd (hs.fresh gate (.inl hmem)) (by simp [hgate])
        rcases hwakes with hpark | hpark | hmem
        · cases hpark
        · cases hpark
        · exact absurd hmem hnew
      · exact hs.answered gate w hw hwakes
  | counted rounds hu hwaiting =>
      rw [Dict.get?_set] at hw
      split at hw
      · rename_i hgate
        cases hw
        subst hgate
        have hbefore := hs.answered _ _ hu hwakes
        exact hbefore
      · exact hs.answered gate w hw hwakes
  | gaveUp timedOut hu hwaiting hcanceled =>
      rw [Dict.get?_set] at hw
      split at hw
      · rename_i hgate
        cases hw
        subst hgate
        rcases hwakes with hpark | hpark | hmem
        · cases hpark
        · cases hpark
        · have hbefore := hs.answered _ _ hu (.inr (.inr hmem))
          exact hbefore
      · exact hs.answered gate w hw hwakes
  | woke hu hwaiting hset =>
      rw [Dict.get?_set] at hw
      split at hw
      · rename_i hgate
        cases hw
        subst hgate
        have hbefore := hs.answered _ _ hu (.inr (.inr (.inl hset)))
        exact hbefore
      · exact hs.answered gate w hw hwakes
  | left hu hreleased =>
      rw [Dict.get?_set] at hw
      split at hw
      · rename_i hgate
        cases hw
        subst hgate
        have hbefore := hs.answered _ _ hu (.inl hreleased)
        exact hbefore
      · exact hs.answered gate w hw hwakes
  | denied hu hgivenUp =>
      rw [Dict.get?_erase] at hw
      split at hw
      · cases hw
      · exact hs.answered gate w hw hwakes
  | took choice hu hunregistered hchoice =>
      rw [Dict.get?_erase] at hw
      split at hw
      · cases hw
      · rename_i hne
        refine herased ?_ (hs.answered gate w hw hwakes)
        intro hid
        exact hne (hs.single _ _ _ _ hw hu hid)
  | @delivered id choice registered hget hasked =>
      rw [Dict.get?_set]
      split
      · exact .inr (Option.some_ne_none _)
      · rename_i hne
        refine hs.answered gate w hw (hwakes.imp_right (Or.imp_right (Or.imp_right ?_)))
        intro hmem
        rcases List.mem_append.1 hmem with hmem | hmem
        · rw [Option.mem_toList] at hmem
          rw [hmem] at hget
          obtain ⟨u, hu, hid, -⟩ := hs.registered id gate hget
          rw [show s.waiters.get? gate = some w from hw] at hu
          cases hu
          exact absurd hid hne
        · exact hmem
  | wasSet hsetting =>
      refine hs.answered gate w hw (hwakes.imp_right (Or.imp_right ?_))
      rintro (hmem | hmem)
      · rcases List.mem_cons.1 hmem with rfl | hmem
        · exact .inr hsetting
        · exact .inl hmem
      · exact .inr (List.mem_of_mem_erase hmem)
  | canceled => exact .inl rfl
  | releasing hcanceled => exact .inl hcanceled
  | _ => exact hs.answered gate w hw hwakes

theorem Parked.step : Parked (event :: events) s' where
  awaited _ _ hw := parked_awaited h hs hw
  single _ _ _ _ hw hw' hid := parked_single h honce hs hw hw' hid
  registered _ _ hgate := parked_registered h hs hgate
  fresh _ hgate := parked_fresh h hs hgate
  answered _ _ hw hwakes := parked_answered h honce hs hw hwakes

end ParkedStep

/-! ## What an answer reaches -/

/-- This id takes no answer: it was never announced, has its answer, or its question has ended. -/
def Closed (id : Text) (events : List Event) : Prop :=
  ¬Announced id events ∨ (∃ choice, Delivered id choice events) ∨ Ended id events

/-- Delivered answers reach exactly their questions. -/
structure ReachesItsQuestion (events : List Event) : Prop where
  /-- What `await_decision` returns was delivered, or is a denial. -/
  approved : ∀ {later sec id choice timedOut earlier},
    events = later ++ (sec, .returned id choice timedOut) :: earlier → choice ≠ decisionDeny →
    Delivered id choice earlier
  once : ∀ {later id choice choice' earlier},
    events = later ++ (.resolve id choice, .delivered true) :: earlier →
    ¬Delivered id choice' earlier
  taken : ∀ {sec id choice timedOut choice'},
    (sec, .returned id choice timedOut) ∈ events → Delivered id choice' events →
    choice = choice' ∨ timedOut = true ∨ Canceled events
  /-- An answer that nobody takes is refused, and changes nothing. -/
  refused : ∀ {later id choice outcome earlier s s'},
    events = later ++ (.resolve id choice, outcome) :: earlier → Closed id earlier →
    History Step .initial earlier s → Step s (.resolve id choice, outcome) s' →
    outcome = .delivered false ∧ s' = s

/-- An answer to an announced decision comes while no other one is there and its question has not
ended; an answer to any other id comes while nothing waits for it. -/
def Timely (s : TurnContext) (earlier : List Event) : Section → Prop
  | .resolve id _ =>
      (Announced id earlier → s.choices.get? id = none ∧ ¬Ended id earlier) ∧
        (¬Announced id earlier → s.gates.get? id = none)
  | _ => True

theorem told_of_history (h : History Step .initial events s) : Told events s :=
  h.induction told_initial fun hs hstep => hs.step hstep.ran

theorem parked_of_history (h : History Step .initial events s) (honce : AwaitedOnce events) :
    Parked events s := by
  induction h with
  | nil => exact parked_initial
  | cons _ hs ih => exact (ih honce.earlier).step hs.ran honce

theorem AwaitedOnce.of_append {later earlier : List Event} (h : AwaitedOnce (later ++ earlier)) :
    AwaitedOnce earlier := by
  induction later with
  | nil => exact h
  | cons event later ih => exact ih h.earlier

theorem Step.unique {s s₁ s₂ : TurnContext} {event : Event} (h : Step s event s₁)
    (h' : Step s event s₂) : s₁ = s₂ :=
  (Prod.mk.inj (Option.some.inj (h.symm.trans h'))).1

section Resolve

variable {id choice : Text} {outcome : Outcome}

/-- A timely answer that nobody takes is refused. -/
theorem Told.refused (hs : Told events s) (htimely : Timely s events (.resolve id choice))
    (hclosed : Closed id events) (hstep : Step s (.resolve id choice, outcome) s') :
    outcome = .delivered false ∧ s' = s := by
  cases hstep.ran with
  | refused _ hgate hannounced => exact ⟨rfl, rfl⟩
  | delivered _ gate hgate hasked =>
      have hannounced : Announced id events := by
        by_contra hnot
        rw [htimely.2 hnot] at hgate
        rcases hasked with hsome | hmem
        · obtain ⟨g, rfl⟩ := Option.isSome_iff_exists.1 hsome
          cases hgate
        · exact hnot ((hs.announced id).1 hmem)
      obtain ⟨hnone, hended⟩ := htimely.1 hannounced
      rcases hclosed with hnot | ⟨given, hgiven⟩ | hend
      · exact absurd hannounced hnot
      · exact ((hs.kept id given hgiven).elim (absurd hnone) fun hend => absurd hend hended)
      · exact absurd hend hended

/-- An answer that is only taken where its question is open is timely. -/
theorem Told.timely (hs : Told events s) (hstep : Step s (.resolve id choice, outcome) s')
    (hrefused : Closed id events → outcome = .delivered false) :
    Timely s events (.resolve id choice) := by
  cases hstep.ran with
  | refused _ hgate hannounced =>
      exact ⟨fun h => absurd ((hs.announced id).2 h) hannounced, fun _ => hgate⟩
  | delivered _ gate hgate hasked =>
      have hopen : ¬Closed id events := fun hclosed => by cases hrefused hclosed
      refine ⟨fun _ => ⟨?_, fun hended => hopen (.inr (.inr hended))⟩,
        fun hnot => absurd (.inl hnot) hopen⟩
      by_contra hne
      obtain ⟨entry, hentry⟩ := Option.ne_none_iff_exists'.1 hne
      rw [pair_of_get? hentry] at hentry
      exact hopen (.inr (.inl ⟨entry.2, hs.chosen id entry.2 hentry⟩))

end Resolve

/-- Of two events of a trace that differ, one is the earlier. -/
private theorem earlier_or_later {first second : Event} (hfirst : first ∈ events)
    (hsecond : second ∈ events) :
    first = second ∨ (∃ later earlier, events = later ++ first :: earlier ∧ second ∈ earlier) ∨
      ∃ later earlier, events = later ++ second :: earlier ∧ first ∈ earlier := by
  induction events with
  | nil => cases hfirst
  | cons event earlier ih =>
      rcases List.mem_cons.1 hfirst with rfl | hbefore
      · rcases List.mem_cons.1 hsecond with rfl | hsecond
        · exact .inl rfl
        · exact .inr (.inl ⟨[], earlier, rfl, hsecond⟩)
      · rcases List.mem_cons.1 hsecond with rfl | hsecond
        · exact .inr (.inr ⟨[], earlier, rfl, hbefore⟩)
        · rcases ih hbefore hsecond with heq | ⟨later, rest, rfl, hmem⟩ | ⟨later, rest, rfl, hmem⟩
          · exact .inl heq
          · exact .inr (.inl ⟨event :: later, rest, rfl, hmem⟩)
          · exact .inr (.inr ⟨event :: later, rest, rfl, hmem⟩)

section Timely

/-- Every answer of the run is timely. -/
def AnswersTimely (events : List Event) : Prop :=
  ∀ later sec outcome earlier m, events = later ++ (sec, outcome) :: earlier →
    History Step .initial earlier m → Timely m earlier sec

variable (h : History Step .initial events s)
include h

private theorem approved_of_history {later earlier : List Event} {sec : Section}
    {id choice : Text} {timedOut : Bool}
    (hevents : events = later ++ (sec, .returned id choice timedOut) :: earlier)
    (hchoice : choice ≠ decisionDeny) : Delivered id choice earlier := by
  subst hevents
  obtain ⟨m, m', hearlier, hstep, -⟩ := h.step_at
  have htold := told_of_history hearlier
  cases hstep.ran with
  | answered rounds hexisting => exact htold.chosen id choice hexisting
  | denied hw hpark => exact absurd rfl hchoice
  | took _ hw hpark htaken =>
      rcases htaken with hexisting | ⟨-, hdeny⟩
      · exact htold.chosen _ choice hexisting
      · exact absurd hdeny hchoice

variable (htimely : AnswersTimely events)
include htimely

omit h in
private theorem refused_of_timely {later earlier : List Event} {id choice : Text}
    {outcome : Outcome} {m m' : TurnContext}
    (hevents : events = later ++ (.resolve id choice, outcome) :: earlier)
    (hclosed : Closed id earlier) (hearlier : History Step .initial earlier m)
    (hstep : Step m (.resolve id choice, outcome) m') : outcome = .delivered false ∧ m' = m :=
  (told_of_history hearlier).refused (htimely _ _ _ _ m hevents hearlier) hclosed hstep

private theorem open_of_timely {later earlier : List Event} {id choice : Text}
    (hevents : events = later ++ (.resolve id choice, .delivered true) :: earlier) :
    ¬Closed id earlier := by
  intro hclosed
  have hcut := h
  rw [hevents] at hcut
  obtain ⟨m, m', hearlier, hstep, -⟩ := hcut.step_at
  cases (refused_of_timely htimely hevents hclosed hearlier hstep).1

private theorem delivered_unique {id choice choice' : Text} (hd : Delivered id choice events)
    (hd' : Delivered id choice' events) : choice = choice' := by
  rcases earlier_or_later hd hd' with heq | ⟨later, earlier, hevents, hmem⟩ |
    ⟨later, earlier, hevents, hmem⟩
  · cases heq
    rfl
  · exact absurd (.inr (.inl ⟨choice', hmem⟩)) (open_of_timely h htimely hevents)
  · exact absurd (.inr (.inl ⟨choice, hmem⟩)) (open_of_timely h htimely hevents)

private theorem taken_of_timely (honce : AwaitedOnce events) {sec : Section}
    {id choice choice' : Text} {timedOut : Bool}
    (hreturned : (sec, .returned id choice timedOut) ∈ events)
    (hd : Delivered id choice' events) :
    choice = choice' ∨ timedOut = true ∨ Canceled events := by
  rcases earlier_or_later hreturned hd with heq | ⟨later, earlier, hevents, hmem⟩ |
    ⟨later, earlier, hevents, hmem⟩
  · cases heq
  · -- the answer was there when the callback returned
    have hlater : ∀ {event}, event ∈ earlier → event ∈ events := by
      intro event hevent
      rw [hevents]
      exact List.mem_append_right later (.tail _ hevent)
    have hcut := h
    rw [hevents] at hcut honce
    obtain ⟨m, m', hearlier, hstep, -⟩ := hcut.step_at
    have htold := told_of_history hearlier
    have hparked := parked_of_history hearlier honce.of_append.earlier
    cases hstep.ran with
    | answered rounds hexisting =>
        exact .inl (delivered_unique h htimely (hlater (htold.chosen id choice hexisting)) hd)
    | @denied w _ hw hpark =>
        cases timedOut with
        | true => exact .inr (.inl rfl)
        | false => exact .inr (.inr (hlater (htold.denied w.gate w hw hpark)))
    | @took w _ hw hpark htaken =>
        rcases htaken with hexisting | ⟨hnone, -⟩
        · exact .inl (delivered_unique h htimely (hlater (htold.chosen _ choice hexisting)) hd)
        · rcases hparked.answered w.gate w hw (.inr (.inl hpark)) with hcanceled | hsome
          · exact .inr (.inr (hlater (htold.canceled hcanceled)))
          · exact absurd hnone hsome
  · exact absurd (.inr (.inr ⟨sec, choice, timedOut, hmem⟩)) (open_of_timely h htimely hevents)

end Timely

/-- In a run of a turn, where no decision is awaited twice, delivered answers reach exactly their
questions if and only if every answer is timely. -/
theorem reaches_its_question_iff (h : History Step .initial events s)
    (honce : AwaitedOnce events) : ReachesItsQuestion events ↔ AnswersTimely events := by
  constructor
  · intro hreaches later sec outcome earlier m hevents hearlier
    have hcut := h
    rw [hevents] at hcut
    obtain ⟨m₀, m', hearlier₀, hstep, -⟩ := hcut.step_at
    obtain rfl : m = m₀ := hearlier.unique hearlier₀ Step.unique
    cases sec with
    | resolve id choice =>
        refine (told_of_history hearlier).timely hstep fun hclosed => ?_
        exact (hreaches.refused hevents hclosed hearlier hstep).1
    | _ => trivial
  · intro htimely
    exact {
      approved := fun hevents hchoice => approved_of_history h hevents hchoice
      once := fun hevents hd => open_of_timely h htimely hevents (.inr (.inl ⟨_, hd⟩))
      taken := fun hreturned hd => taken_of_timely h htimely honce hreturned hd
      refused := fun hevents hclosed hearlier hstep =>
        refused_of_timely htimely hevents hclosed hearlier hstep }

/-! ## Two runs -/

/-- Run sections from the start, the latest first. -/
def replay : List Section → Option (List Event × TurnContext)
  | [] => some ([], .initial)
  | sec :: earlier =>
      (replay earlier).bind fun (events, s) =>
        (s.run sec).map fun (s', outcome) => ((sec, outcome) :: events, s')

theorem history_replay {sections : List Section} (h : replay sections = some (events, s)) :
    History Step .initial events s := by
  induction sections generalizing events s with
  | nil =>
      cases h
      exact .nil
  | cons sec earlier ih =>
      obtain ⟨⟨earlierEvents, m⟩, hearlier, hrun⟩ := Option.bind_eq_some_iff.1 h
      obtain ⟨⟨s', outcome⟩, hrun, heq⟩ := Option.map_eq_some_iff.1 hrun
      cases heq
      exact (ih hearlier).cons hrun

/-- `CHOICE_APPROVE_ONCE`. -/
def approveOnce : Text := "approve_once".toList

def decision1 : Text := "decision-1".toList

/-- The callback parks, and is woken by its answer. -/
def parkedThenAnswered : List Section :=
  [.take 0, .leave 0, .wake 0, .set 0, .resolve decision1 approveOnce, .wait 0,
    .await decision1 none, .emit eventDecisionRequired (some decision1)]

/-- The events of `parkedThenAnswered`. -/
def answeredInTime : List Event :=
  [(.take 0, .returned decision1 approveOnce false), (.leave 0, .underWay), (.wake 0, .underWay),
    (.set 0, .underWay), (.resolve decision1 approveOnce, .delivered true), (.wait 0, .underWay),
    (.await decision1 none, .underWay),
    (.emit eventDecisionRequired (some decision1), .underWay)]

theorem exists_replay {sections : List Section} {events : List Event}
    (h : (replay sections).map Prod.fst = some events) :
    ∃ s, History Step .initial events s := by
  obtain ⟨⟨events, s⟩, hreplay, rfl⟩ := Option.map_eq_some_iff.1 h
  exact ⟨s, history_replay hreplay⟩

theorem reaches_its_question_iff_in_time :
    (replay parkedThenAnswered).map Prod.fst = some answeredInTime ∧
      (ReachesItsQuestion answeredInTime ↔ AnswersTimely answeredInTime) := by
  have hreplay : (replay parkedThenAnswered).map Prod.fst = some answeredInTime := by decide
  obtain ⟨s, h⟩ := exists_replay hreplay
  exact ⟨hreplay, reaches_its_question_iff h (by decide)⟩

/-- The answer is given twice, before the callback asks. -/
def answeredTwice : List Event :=
  [(.await decision1 none, .returned decision1 decisionDeny false),
    (.resolve decision1 decisionDeny, .delivered true),
    (.resolve decision1 approveOnce, .delivered true),
    (.emit eventDecisionRequired (some decision1), .underWay)]

/-- Both answers are delivered, and only the second is returned. -/
theorem answered_twice :
    (∃ s, History Step .initial answeredTwice s) ∧ AwaitedOnce answeredTwice ∧
      ¬ReachesItsQuestion answeredTwice := by
  refine ⟨exists_replay (by decide : (replay (answeredTwice.map Prod.fst)).map Prod.fst = _),
    by decide, fun hreaches => ?_⟩
  exact hreaches.once (show answeredTwice = [_] ++ _ :: _ from rfl) (.head _)

end Cortex.Worker.Decisions
