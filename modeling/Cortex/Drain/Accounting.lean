import Cortex.Drain.Pass
import Cortex.Library.History
import Mathlib.Data.List.Basic
import Mathlib.Data.List.Nodup

/-!
# No notification is dropped silently

After a pass, every notification event past the first cursor is still ahead, held
back, in the delivery ledger, finally answered, or evicted and counted: provided
that none of the calls that stand outside a guard raised while the pass held the
event in its hands.
-/

namespace Cortex.Drain

open Control

variable {Failure : Type} {answers : Answers Failure}

def TransportDeliveryDrain.retryIds (d : TransportDeliveryDrain) : List Text := d.retry.map Prod.fst

/-- Where an event is after a pass, if it was not dropped silently. -/
def World.Accounts (w : World) (e : RunEvent) : Prop :=
  w.drain.cursor < e.cursor ∨ e.id ∈ w.drain.retryIds ∨
    (∃ row ∈ w.tables.deliveries, row.eventId = e.id) ∨
    (∃ answer ∈ w.answered, answer.1 = e.id ∧ answer.2.retryable = false) ∨
    e.id ∈ w.evicted

/-- Every event at risk is accounted for, or among the events that the pass holds in its
hands; the log and the cursor are as given. -/
structure Covered (start : ℤ) (log : List RunEvent) (cursor : ℤ) (held : List Text) (w : World) :
    Prop where
  atLog : w.tables.events = log
  atCursor : w.drain.cursor = cursor
  counted : w.drain.retriesDropped = w.evicted.length
  accounted : ∀ e ∈ log, e.type ∈ notificationTypes → start < e.cursor →
    e.id ∉ w.drain.undeliverable → e.id ∈ held ∨ w.Accounts e

/-- What is accounted for in `w` is accounted for in `w'`. -/
structure Onward (w w' : World) : Prop where
  log : w'.tables.events = w.tables.events
  cursor : w'.drain.cursor = w.drain.cursor
  counted : w.drain.retriesDropped = w.evicted.length →
    w'.drain.retriesDropped = w'.evicted.length
  retry : ∀ id ∈ w.drain.retryIds, id ∈ w'.drain.retryIds ∨ id ∈ w'.evicted
  undeliverable : w.drain.undeliverable ⊆ w'.drain.undeliverable
  deliveries : ∀ row ∈ w.tables.deliveries,
    ∃ row' ∈ w'.tables.deliveries, row'.eventId = row.eventId
  answered : w.answered ⊆ w'.answered
  evicted : w.evicted ⊆ w'.evicted

/-- The same, when the retry set is left as it is. -/
structure Steady (w w' : World) : Prop extends Onward w w' where
  sameRetry : w'.drain.retry = w.drain.retry

section Frames

variable {start cursor : ℤ} {log : List RunEvent} {held : List Text} {w w' : World}

theorem Covered.hold {held' : List Text} (hw : Covered start log cursor held w)
    (h : held ⊆ held') : Covered start log cursor held' w :=
  { hw with
    accounted := fun e he htype hcursor hbound =>
      (hw.accounted e he htype hcursor hbound).imp_left fun hmem => h hmem }

/-- A property of the world that the steps of a pass keep that move neither its cursor nor its
retry set. -/
def Stable (P : World → Prop) : Prop := ∀ {w w'}, P w → Steady w w' → P w'

theorem Stable.and {P Q : World → Prop} (hP : Stable P) (hQ : Stable Q) :
    Stable fun w => P w ∧ Q w :=
  fun hw h => ⟨hP hw.1 h, hQ hw.2 h⟩

/-- The events have rows in the delivery ledger. -/
def Filed (ids : List Text) (w : World) : Prop :=
  ∀ id ∈ ids, ∃ row ∈ w.tables.deliveries, row.eventId = id

/-- An event leaves the hands of the pass when it is accounted for, or was never at risk. -/
theorem Covered.release {id : Text} (hw : Covered start log cursor (id :: held) w)
    (h : ∀ e ∈ log, e.id = id → e.type ∈ notificationTypes → e.id ∉ w.drain.undeliverable →
      w.Accounts e) : Covered start log cursor held w :=
  { hw with
    accounted := fun e he htype hcursor hbound => by
      rcases hw.accounted e he htype hcursor hbound with hheld | haccounted
      · rcases List.mem_cons.1 hheld with hid | hheld
        · exact .inr (h e he hid htype hbound)
        · exact .inl hheld
      · exact .inr haccounted }

end Frames

/-! ## The calls -/

section Calls

variable {P R : World → Prop} {query : Query} {work : Work}

end Calls

/-! ## The parts of a pass -/

section Parts

variable {start cursor : ℤ} {log : List RunEvent} {held : List Text} {R : World → Prop}
  {work : Work} {bindings : List Binding}

theorem Onward.holdBack {w : World} (excess : ℕ) (id : Text) (notBefore : Instant) :
    Onward w (w.holdBack excess id notBefore) where
  log := rfl
  cursor := rfl
  counted := fun h => by simp [World.holdBack, h]
  retry := fun other hother => by
    -- an entry of the old set stays in it, or is among those taken off its front
    obtain ⟨entry, hentry, rfl⟩ := List.mem_map.1 hother
    rw [← List.take_append_drop excess w.drain.retry] at hentry
    rcases List.mem_append.1 hentry with hevicted | hkept
    · exact .inr (List.mem_append_right _ (List.mem_map_of_mem hevicted))
    · exact .inl (List.mem_map_of_mem (List.mem_append_left _ hkept))
  undeliverable := List.Subset.refl _
  deliveries := fun row hrow => ⟨row, hrow, rfl⟩
  answered := List.Subset.refl _
  evicted := List.subset_append_left _ _

/-- The retries that a pass walks: those that the ledger has not already resumed. -/
def owed (skip : List Text) (entries : List (Text × Instant)) : List Text :=
  (entries.map Prod.fst).filter fun id => id ∉ skip

/-- The calls that a pass makes for a retry outside the guard answer. -/
def Answers.AnswersRetry (answers : Answers Failure) (id : Text) : Prop :=
  answers.raises (.deadline (.retry id)) = none ∧ answers.raises (.getRunEvent (.retry id)) = none ∧
    answers.raises (.getRun (.retry id)) = none ∧ answers.raises (.notBefore (.retry id)) = none

/-- Where a pass ends: the cursor is on an event of the log, or has not moved. -/
def Ended (start : ℤ) (log : List RunEvent) (w : World) : Prop :=
  ∃ cursor, (cursor = start ∨ ∃ e ∈ log, e.cursor = cursor) ∧ Covered start log cursor [] w

/-- The calls that a pass makes for a new event outside the guard answer. -/
def Answers.AnswersNew (answers : Answers Failure) (e : RunEvent) : Prop :=
  e.type ∈ notificationTypes → answers.raises (.getRun (.new e.id)) = none ∧
    answers.raises (.notBefore (.new e.id)) = none

/-- A pass whose calls outside the guards answer: those it makes while it walks the retry set,
and those it makes for a new notification. -/
structure Answers.Guarded (answers : Answers Failure) (w : World) : Prop where
  retriesStart : w.drain.retry ≠ [] → answers.raises .retriesStart = none
  retries : ∀ id ∈ w.drain.retryIds, answers.AnswersRetry id
  new : ∀ e ∈ w.tables.events, w.drain.cursor < e.cursor → answers.AnswersNew e

/-- What a pass leaves alone until it empties the retry set. -/
def Begun (w₀ w : World) : Prop :=
  w.drain.retry = w₀.drain.retry ∧ w.drain.cursor = w₀.drain.cursor ∧
    w.tables.events = w₀.tables.events

end Parts

/-! ## Any sequence of passes -/

/-- Other commands commit between two passes: events are appended, and no row of the delivery
ledger is deleted. -/
structure Tables.Grows (t t' : Tables) : Prop where
  events : ∃ new, t'.events = t.events ++ new
  deliveries : ∀ row ∈ t.deliveries, ∃ row' ∈ t'.deliveries, row'.eventId = row.eventId

inductive Event (Failure : Type)
  | pass (answers : Answers Failure)
  | commit (tables : Tables)

inductive Step : World → Event Failure → World → Prop
  | pass {w : World} {answers : Answers Failure} :
      Step w (.pass answers) (finalState (drain answers) w)
  | commit {w : World} {tables : Tables} :
      w.tables.Grows tables → Step w (.commit tables) { w with tables }

/-- The calls outside the guards answer in every pass. -/
def Event.Guarded (w : World) : Event Failure → Prop
  | .pass answers => answers.Guarded w
  | .commit _ => True

/-- A drain as it is constructed. -/
def World.begin (tables : Tables) (cursor : ℤ) (batch : ℕ) : World where
  tables := tables
  drain := { cursor, batch }

/-- A committed event comes after every event of the log, so it is ahead of the cursor. -/
theorem Ended.commit {start : ℤ} {w : World} {tables : Tables} (h : Ended start w.tables.events w)
    (hgrows : w.tables.Grows tables) : Ended start tables.events { w with tables } := by
  obtain ⟨cursor, hcursor, hcovered⟩ := h
  obtain ⟨new, hnew⟩ := hgrows.events
  have hascending := tables.ascending
  rw [hnew] at hascending
  refine ⟨cursor, hcursor.imp_right ?_, rfl, hcovered.atCursor,
    hcovered.counted, fun e he htype hstart hbound => ?_⟩
  · rintro ⟨e, he, heq⟩
    exact ⟨e, hnew ▸ List.mem_append_left _ he, heq⟩
  · rw [hnew] at he
    rcases List.mem_append.1 he with hold | hlate
    · rcases hcovered.accounted e hold htype hstart hbound with hheld | haccounted
      · cases hheld
      · rcases haccounted with hahead | hretry | ⟨row, hrow, hid⟩ | hrest
        · exact .inr (.inl hahead)
        · exact .inr (.inr (.inl hretry))
        · obtain ⟨row', hrow', hid'⟩ := hgrows.deliveries row hrow
          exact .inr (.inr (.inr (.inl ⟨row', hrow', hid'.trans hid⟩)))
        · exact .inr (.inr (.inr (.inr hrest)))
    · refine .inr (.inl ?_)
      rw [hcovered.atCursor]
      rcases hcursor with rfl | ⟨last, hlast, rfl⟩
      · exact hstart
      · exact (List.pairwise_append.1 hascending).2.2 last hlast e hlate

end Cortex.Drain
