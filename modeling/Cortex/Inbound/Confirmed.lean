import Cortex.Inbound.Poller
import Mathlib.Data.List.Pairwise

/-!
# The poller confirms only what it handed over

A poll with offset `o` confirms every update below `o`.  The invariant is that all received
updates below the offset of the poller were handled (`Caught`).  A reply keeps it because
its updates start at the offset; an answered update keeps it because the loop over a reply
has handled whatever was received before it: either it was below the offset, or the Bot API
had put it into the same reply (`Waits`).
-/

namespace Cortex.Inbound

variable {Update : Type} {updateId : Update → Option ℤ} {trace earlier : List (Event Update)}
  {p : Poller} {l : Locals} {id : ℤ}

/-! ## What one event adds -/

@[simp] theorem received_replied {us : List Update} :
    Received updateId (.replied us :: trace) id ↔
      some id ∈ us.map updateId ∨ Received updateId trace id := by
  simp [Received]

@[simp] theorem received_answered {update : Update} {handling : Handling} :
    Received updateId (.answered update handling :: trace) id ↔ Received updateId trace id := by
  simp [Received]

@[simp] theorem received_started :
    Received updateId (.started :: trace) id ↔ Received updateId trace id := by
  simp [Received]

@[simp] theorem received_polled {offset : Option ℤ} :
    Received updateId (.polled offset :: trace) id ↔ Received updateId trace id := by
  simp [Received]

@[simp] theorem received_failed {error : String} :
    Received updateId (.failed error :: trace) id ↔ Received updateId trace id := by
  simp [Received]

@[simp] theorem received_cleared :
    Received updateId (.cleared :: trace) id ↔ Received updateId trace id := by
  simp [Received]

@[simp] theorem received_left {outcome : Outcome} :
    Received updateId (.left outcome :: trace) id ↔ Received updateId trace id := by
  simp [Received]

theorem WasHandled.cons (h : WasHandled updateId trace id) (event : Event Update) :
    WasHandled updateId (event :: trace) id := by
  obtain ⟨update, handling, hmem, hid, hreturned⟩ := h
  exact ⟨update, handling, .tail _ hmem, hid, hreturned⟩

theorem wasHandled_answered {update : Update} {handling : Handling}
    (hid : updateId update = some id) (h : handling.Returned) :
    WasHandled updateId (.answered update handling :: trace) id :=
  ⟨update, handling, .head _, hid, h⟩

/-! ## The invariant -/

/-- Every received update below the offset was handled. -/
def Caught (updateId : Update → Option ℤ) (trace : List (Event Update)) (offset : Option ℤ) : Prop :=
  ∀ o ∈ offset, ∀ id, Received updateId trace id → id < o → WasHandled updateId trace id

/-- What an event promises about the earlier ones. -/
def Promises (updateId : Update → Option ℤ) : Event Update → List (Event Update) → Prop
  | .polled offset, earlier => Caught updateId earlier offset
  | .answered update handling, earlier => handling.Returned → ∀ id ∈ updateId update,
      ∀ j, Received updateId earlier j → j < id → WasHandled updateId earlier j
  | .failed _, earlier => streak earlier < maxConsecutiveFailures
  | .left .failed, earlier => streak earlier = maxConsecutiveFailures
  | _, _ => True

/-- The received updates that come before a waiting one were handled or wait as well. -/
def Waits (updateId : Update → Option ℤ) (trace : List (Event Update)) (rest : List Update) : Prop :=
  ∀ id ∈ rest.filterMap updateId, ∀ j, Received updateId trace j → j < id →
    WasHandled updateId trace j ∨ j ∈ rest.filterMap updateId

/-- What holds in the middle of a turn. -/
structure Sound (updateId : Update → Option ℤ) (trace : List (Event Update)) (p : Poller) : Prop where
  caught : Caught updateId trace p.offset
  promises : Along (Promises updateId) trace

/-- What holds between two turns. -/
structure Inv (updateId : Update → Option ℤ) (trace : List (Event Update)) (s : Loop) : Prop
    extends Sound updateId trace s.poller where
  streaks : ∀ run ∈ s.running, streak trace = run.2.consecutive ∧
    run.2.consecutive < maxConsecutiveFailures
  given_up : streak trace = maxConsecutiveFailures → trace.head? = some (.left .failed)

/-- An event that is neither a reply nor an answer. -/
def Event.Quiet : Event Update → Prop
  | .replied _ => False
  | .answered _ _ => False
  | _ => True

theorem received_quiet {event : Event Update} (h : event.Quiet) :
    Received updateId (event :: trace) id ↔ Received updateId trace id := by
  cases event <;> first | exact h.elim | simp

theorem Caught.quiet {event : Event Update} {offset : Option ℤ} (h : Caught updateId trace offset)
    (hquiet : event.Quiet) : Caught updateId (event :: trace) offset := by
  intro o ho id hreceived hlt
  exact (h o ho id ((received_quiet hquiet).1 hreceived) hlt).cons event

/-- A quiet event keeps what it keeps its promise in. -/
theorem Sound.quiet (event : Event Update) (h : Sound updateId trace p) (hquiet : event.Quiet)
    (hpromise : Promises updateId event trace) : Sound updateId (event :: trace) p :=
  ⟨h.caught.quiet hquiet, hpromise, h.promises⟩

/-- Other fields of the poller than the offset. -/
theorem Sound.same {p' : Poller} (h : Sound updateId trace p) (hoffset : p'.offset = p.offset) :
    Sound updateId trace p' :=
  ⟨hoffset ▸ h.caught, h.promises⟩

/-! ## The updates of a reply -/

/-- A reply of the Bot API. -/
theorem Sound.replied {us : List Update} (h : Sound updateId (.polled p.offset :: trace) p)
    (hbot : AsReturned updateId trace p.offset us) :
    Sound updateId (.replied us :: .polled p.offset :: trace) p ∧
      Waits updateId (.replied us :: .polled p.offset :: trace) us := by
  have hcaught : Caught updateId (.replied us :: .polled p.offset :: trace) p.offset := by
    intro o ho id hreceived hlt
    rcases received_replied.1 hreceived with hnew | hold
    · have hge : o ≤ id := hbot.fromOffset id (by simpa using hnew) o ho
      omega
    · exact (h.caught o ho id hold hlt).cons _
  refine ⟨⟨hcaught, trivial, h.promises⟩, fun id hid j hreceived hlt => ?_⟩
  rcases received_replied.1 hreceived with hnew | hold
  · exact .inr (by simpa using hnew)
  · by_cases hbelow : ∃ o ∈ p.offset, j < o
    · obtain ⟨o, ho, hjo⟩ := hbelow
      exact .inl (hcaught o ho j hreceived hjo)
    · have habove : ∀ o ∈ p.offset, o ≤ j := fun o ho => by
        by_contra hjo
        exact hbelow ⟨o, ho, Int.not_le.1 hjo⟩
      exact .inr (hbot.earliest id hid j (received_polled.1 hold) hlt habove)

/-- What waits before the first of the waiting updates was handled. -/
theorem Waits.first {update : Update} {rest : List Update}
    (h : Waits updateId trace (update :: rest))
    (hascending : ((update :: rest).filterMap updateId).Pairwise (· < ·))
    (hid : updateId update = some id) {j : ℤ} (hreceived : Received updateId trace j)
    (hlt : j < id) : WasHandled updateId trace j := by
  rw [List.filterMap_cons_some hid, List.pairwise_cons] at hascending
  rcases h id (by simp [hid]) j hreceived hlt with hhandled | hwaits
  · exact hhandled
  · rw [List.filterMap_cons_some hid] at hwaits
    rcases List.mem_cons.1 hwaits with rfl | hlater
    · exact absurd hlt (Int.lt_irrefl _)
    · exact absurd (hascending.1 j hlater) (by omega)

/-- The next update after one that was handled. -/
theorem Waits.next {update : Update} {rest : List Update} {handling : Handling}
    (h : Waits updateId trace (update :: rest)) (hreturned : handling.Returned) :
    Waits updateId (.answered update handling :: trace) rest := by
  intro id hid j hreceived hlt
  have hmem : id ∈ (update :: rest).filterMap updateId := by
    rw [List.filterMap_cons]
    split
    · exact hid
    · exact .tail _ hid
  rcases h id hmem j (received_answered.1 hreceived) hlt with hhandled | hwaits
  · exact .inl (hhandled.cons _)
  · cases hupdate : updateId update with
    | none => exact .inr (by rwa [List.filterMap_cons_none hupdate] at hwaits)
    | some first =>
        rw [List.filterMap_cons_some hupdate] at hwaits
        rcases List.mem_cons.1 hwaits with rfl | hlater
        · exact .inl (wasHandled_answered hupdate hreturned)
        · exact .inr hlater

/-- An answer keeps the offset where it was. -/
theorem Sound.answered {update : Update} {handling : Handling} (h : Sound updateId trace p)
    (hpromise : Promises updateId (.answered update handling) trace) :
    Sound updateId (.answered update handling :: trace) p := by
  refine ⟨fun o ho id hreceived hlt => ?_, hpromise, h.promises⟩
  exact (h.caught o ho id (received_answered.1 hreceived) hlt).cons _

/-- The offset moves past an update whose handler returned. -/
theorem Sound.confirm {update : Update} {handling : Handling}
    (h : Sound updateId (.answered update handling :: trace) p) (hreturned : handling.Returned)
    (hbefore : ∀ id ∈ updateId update, ∀ j, Received updateId trace j → j < id →
      WasHandled updateId trace j) :
    Sound updateId (.answered update handling :: trace) (p.confirm (updateId update)) := by
  refine ⟨?_, h.promises⟩
  cases hupdate : updateId update with
  | none => exact h.caught
  | some id =>
      intro o ho j hreceived hlt
      obtain rfl : id + 1 = o := by simpa [Poller.confirm] using ho
      rcases Int.lt_or_eq_of_le (Int.lt_add_one_iff.1 hlt) with hbelow | rfl
      · exact (hbefore id hupdate j (received_answered.1 hreceived) hbelow).cons _
      · exact wasHandled_answered hupdate hreturned

theorem streak_answered {update : Update} {handling : Handling} :
    streak (.answered update handling :: trace) = streak trace := rfl

/-- The loop over the updates of a reply, with what happened before. -/
theorem handleAll_append (handling : ℕ → Handling) (us : List Update) (i : ℕ) (p : Poller)
    (trace earlier : List (Event Update)) :
    handleAll updateId handling i us p (trace ++ earlier) =
      ((handleAll updateId handling i us p trace).1,
        (handleAll updateId handling i us p trace).2.1 ++ earlier,
        (handleAll updateId handling i us p trace).2.2) := by
  induction us generalizing i p trace with
  | nil => rfl
  | cons update rest ih =>
      unfold handleAll
      cases handling i with
      | returned category =>
          dsimp only
          split
          · rfl
          · exact ih (i + 1) _ (.answered update (.returned category) :: trace)
      | raised error => rfl
      | aborted => rfl

/-- The failures that a reply adds to the streak. -/
def Batch.strikes : Batch → ℕ
  | .interrupted => 1
  | _ => 0

/-- The trace of a reply ends with what was there before it. -/
theorem handleAll_suffix (handling : ℕ → Handling) (us : List Update) (i : ℕ) (p : Poller)
    (trace : List (Event Update)) :
    trace <:+ (handleAll updateId handling i us p trace).2.1 := by
  rw [← List.nil_append trace, handleAll_append]
  exact List.suffix_append _ _

theorem handleAll_spec (handling : ℕ → Handling) {us : List Update} (i : ℕ)
    (h : Sound updateId trace p) (hascending : (us.filterMap updateId).Pairwise (· < ·))
    (hwaits : Waits updateId trace us) (hstreak : streak trace < maxConsecutiveFailures) :
    Sound updateId (handleAll updateId handling i us p trace).2.1
        (handleAll updateId handling i us p trace).1 ∧
      streak (handleAll updateId handling i us p trace).2.1 =
        streak trace + (handleAll updateId handling i us p trace).2.2.strikes := by
  induction us generalizing i p trace with
  | nil => exact ⟨h, rfl⟩
  | cons update rest ih =>
      have hbefore : ∀ id ∈ updateId update, ∀ j, Received updateId trace j → j < id →
          WasHandled updateId trace j := fun id hid j => hwaits.first hascending hid
      have hanswered : Sound updateId (.answered update (handling i) :: trace) p :=
        h.answered fun _ => hbefore
      have hfailed : ∀ error, Sound updateId (.failed error :: .answered update (handling i) :: trace)
          (p.recordFailure error) :=
        fun error => (hanswered.quiet (.failed error) trivial hstreak).same rfl
      unfold handleAll
      dsimp only
      cases hhandling : handling i with
      | returned category =>
          dsimp only
          rw [hhandling] at hanswered hfailed
          split
          · exact ⟨hfailed _, rfl⟩
          · rename_i hcategory
            have hrest : (rest.filterMap updateId).Pairwise (· < ·) := by
              rw [List.filterMap_cons] at hascending
              split at hascending
              · exact hascending
              · exact (List.pairwise_cons.1 hascending).2
            exact ih (i + 1) (hanswered.confirm hcategory hbefore) hrest (hwaits.next hcategory)
              hstreak
      | raised error =>
          rw [hhandling] at hfailed
          exact ⟨hfailed error, rfl⟩
      | aborted =>
          rw [hhandling] at hanswered
          exact ⟨hanswered, rfl⟩

/-! ## A turn -/

theorem Inv.leaves (trace : List (Event Update)) {outcome : Outcome}
    (h : Sound updateId (trace ++ earlier) p)
    (hstreak : streak (trace ++ earlier) < maxConsecutiveFailures ∧ outcome ≠ .failed ∨
      streak (trace ++ earlier) = maxConsecutiveFailures ∧ outcome = .failed) :
    Inv updateId ((leave p trace outcome).trace ++ earlier) ⟨p, none⟩ := by
  have hpromise : Promises updateId (.left outcome) (trace ++ earlier) := by
    rcases hstreak with ⟨-, hother⟩ | ⟨heq, rfl⟩
    · cases outcome <;> first | exact absurd rfl hother | trivial
    · exact heq
  refine ⟨h.quiet _ trivial hpromise, nofun, fun hfull => ?_⟩
  rcases hstreak with ⟨hlt, -⟩ | ⟨-, rfl⟩
  · exact absurd hfull (Nat.ne_of_lt hlt)
  · rfl

/-- A turn that ends in a failure. -/
theorem Inv.strikes (trace : List (Event Update)) {maxIterations : Option ℤ}
    (h : Sound updateId (trace ++ earlier) p)
    (hstreak : streak (trace ++ earlier) = l.consecutive + 1)
    (hbound : l.consecutive < maxConsecutiveFailures) :
    Inv updateId ((strike p trace l).trace ++ earlier)
      ⟨(strike p trace l).poller, (strike p trace l).next.toOption.map fun l => (maxIterations, l)⟩ := by
  unfold strike
  split
  · rename_i hfull
    exact .leaves _ h (.inr ⟨by omega, rfl⟩)
  · rename_i hroom
    refine ⟨h, ?_, fun hfull => ?_⟩
    · rintro run ⟨rfl⟩
      exact ⟨hstreak, by dsimp only; omega⟩
    · exact absurd hfull (by dsimp only; omega)

/-- A turn that ends without a failure. -/
theorem Inv.goesOn {maxIterations : Option ℤ} {l' : Locals} (h : Sound updateId trace p)
    (hstreak : streak trace = l'.consecutive) (hbound : l'.consecutive < maxConsecutiveFailures) :
    Inv updateId trace ⟨p, some (maxIterations, l')⟩ := by
  refine ⟨h, ?_, fun hfull => ?_⟩
  · rintro run ⟨rfl⟩
    exact ⟨hstreak, hbound⟩
  · exact absurd hfull (by omega)

/-- The reply was one of the Bot API, whatever happened in its turn since. -/
theorem FromBotApi.asReturned {us : List Update} {offset : Option ℤ}
    (h : FromBotApi updateId (trace ++ earlier))
    (hsuffix : [.replied us, .polled offset] <:+ trace) : AsReturned updateId earlier offset us := by
  obtain ⟨later, rfl⟩ := hsuffix
  have hat : later ++ [.replied us, .polled offset] ++ earlier =
      later ++ .replied us :: .polled offset :: earlier := by simp
  exact h.at hat us offset earlier rfl rfl

theorem suffix_afterReply (l : Locals) (result : Poller × List (Event Update) × Batch) :
    result.2.1 <:+ (afterReply l result).trace := by
  obtain ⟨p, trace, batch⟩ := result
  cases batch with
  | done => exact List.suffix_cons _ _
  | interrupted =>
      change trace <:+ (strike p trace l).trace
      unfold strike
      split
      · exact List.suffix_cons _ _
      · exact List.suffix_rfl
  | aborted => exact List.suffix_cons _ _

/-- A turn whose poll is answered. -/
theorem Inv.replies {maxIterations : Option ℤ} {us : List Update} {handling : ℕ → Handling}
    (hasked : Sound updateId (.polled p.offset :: trace) p)
    (hstreak : streak trace = l.consecutive) (hlt : streak trace < maxConsecutiveFailures)
    (hbot : FromBotApi updateId ((afterReply l
      (handleAll updateId handling 0 us p [.replied us, .polled p.offset])).trace ++ trace)) :
    Inv updateId ((afterReply l
        (handleAll updateId handling 0 us p [.replied us, .polled p.offset])).trace ++ trace)
      ⟨(afterReply l (handleAll updateId handling 0 us p [.replied us, .polled p.offset])).poller,
        (afterReply l (handleAll updateId handling 0 us p
          [.replied us, .polled p.offset])).next.toOption.map fun l => (maxIterations, l)⟩ := by
  have hreply : AsReturned updateId trace p.offset us :=
    hbot.asReturned ((handleAll_suffix _ _ _ _ _).trans (suffix_afterReply l _))
  have hspec := handleAll_spec handling 0 (hasked.replied hreply).1 hreply.ascending
    (hasked.replied hreply).2 hlt
  rw [show Event.replied us :: .polled p.offset :: trace =
    [.replied us, .polled p.offset] ++ trace from rfl, handleAll_append] at hspec
  generalize handleAll updateId handling 0 us p [.replied us, .polled p.offset] = result at hspec ⊢
  obtain ⟨p', new, batch⟩ := result
  obtain ⟨hsound, hadded⟩ := hspec
  cases batch with
  | done => exact .goesOn (hsound.quiet .cleared trivial trivial) rfl (Nat.zero_lt_succ 4)
  | interrupted => exact .strikes _ hsound (hadded.trans (congrArg Nat.succ hstreak)) (hstreak ▸ hlt)
  | aborted => exact .leaves _ hsound (.inl ⟨lt_of_eq_of_lt hadded hlt, nofun⟩)

theorem Inv.turns {maxIterations : Option ℤ} (h : Inv updateId trace ⟨p, some (maxIterations, l)⟩)
    (r : Reading Update)
    (hbot : FromBotApi updateId ((iterate updateId maxIterations p l r).trace ++ trace)) :
    Inv updateId ((iterate updateId maxIterations p l r).trace ++ trace)
      ⟨(iterate updateId maxIterations p l r).poller,
        (iterate updateId maxIterations p l r).next.toOption.map fun l => (maxIterations, l)⟩ := by
  obtain ⟨hstreak, hbound⟩ := h.streaks _ rfl
  have hsound : Sound updateId trace p := h.toSound
  have hasked : Sound updateId (.polled p.offset :: trace) p := hsound.quiet _ trivial hsound.caught
  have hlt : streak trace < maxConsecutiveFailures := hstreak ▸ hbound
  have hfailed : ∀ error, Sound updateId (.failed error :: .polled p.offset :: trace)
      (p.recordFailure error) := fun error =>
    (hasked.quiet (.failed error) trivial hlt).same rfl
  unfold iterate at hbot ⊢
  split
  · exact .leaves _ hsound (.inl ⟨hlt, nofun⟩)
  split
  · exact .leaves _ hsound (.inl ⟨hlt, nofun⟩)
  rw [if_neg ‹_›, if_neg ‹_›] at hbot
  cases hgate : r.dispatchEnabled with
  | none => exact .leaves _ hsound (.inl ⟨hlt, nofun⟩)
  | some enabled =>
      cases enabled with
      | false => exact .leaves _ hsound (.inl ⟨hlt, nofun⟩)
      | true =>
          rw [hgate] at hbot
          dsimp only at hbot ⊢
          cases hpolled : r.polled with
          | gateClosed => exact .leaves [.polled p.offset] hasked (.inl ⟨hlt, nofun⟩)
          | aborted => exact .leaves [.polled p.offset] hasked (.inl ⟨hlt, nofun⟩)
          | lineBusy => exact .goesOn (hasked.same rfl) hstreak hbound
          | workerBusy =>
              dsimp only
              split
              · exact .goesOn (hasked.same rfl) hstreak hbound
              · exact .strikes [.failed _, .polled p.offset] ((hfailed _).same rfl)
                  (congrArg Nat.succ hstreak) hbound
          | raised error =>
              exact .strikes [.failed error, .polled p.offset] (hfailed error)
                (congrArg Nat.succ hstreak) hbound
          | replied reply =>
              rw [hpolled] at hbot
              dsimp only at hbot ⊢
              exact .replies (hasked.same rfl) hstreak hlt hbot

/-! ## Runs -/

theorem inv_new : Inv updateId [] Loop.new :=
  ⟨⟨nofun, trivial⟩, nofun, nofun⟩

theorem Inv.step {s s' : Loop} {events : List (Event Update)} (h : Inv updateId trace s)
    (hstep : Step updateId s events s') (hbot : FromBotApi updateId (events ++ trace)) :
    Inv updateId (events ++ trace) s' := by
  cases hstep with
  | start p maxIterations =>
      exact .goesOn (h.toSound.quiet .started trivial trivial) rfl (Nat.zero_lt_succ 4)
  | turn p maxIterations l r => exact h.turns r hbot

theorem inv_of_history {s : Loop} {events : List (List (Event Update))}
    (h : History (Step updateId) Loop.new events s) (hbot : FromBotApi updateId events.flatten) :
    Inv updateId events.flatten s := by
  induction h with
  | nil => exact inv_new
  | cons _ hstep ih =>
      rw [List.flatten_cons] at hbot ⊢
      exact (ih hbot.of_append).step hstep hbot

/-- What a trace of the poller promises when the replies in it are those of the Bot API. -/
structure Confirms (updateId : Update → Option ℤ) (trace : List (Event Update)) (s : Loop) :
    Prop where
  /-- A poll confirms only updates that were handled. -/
  confirmed : ∀ later earlier o, trace = later ++ .polled (some o) :: earlier →
    ∀ id < o, Received updateId earlier id → WasHandled updateId earlier id
  /-- An update is handled only after the earlier ones. -/
  unskipped : ∀ later earlier update handling id,
    trace = later ++ .answered update handling :: earlier → handling.Returned →
    updateId update = some id →
    ∀ j < id, Received updateId earlier j → WasHandled updateId earlier j
  /-- An update that was not handled is asked for again. -/
  asked : ∀ id, Received updateId trace id → ¬WasHandled updateId trace id →
    ∀ o ∈ s.poller.offset, o ≤ id
  /-- A run that goes on has not failed so often. -/
  bounded : s.running.isSome = true → streak trace < maxConsecutiveFailures
  /-- The last failure of a streak ends the run. -/
  ended : streak trace = maxConsecutiveFailures → trace.head? = some (.left .failed)
  /-- No failure follows so many. -/
  last : ∀ later earlier error, trace = later ++ .failed error :: earlier →
    streak earlier < maxConsecutiveFailures

/-- The poller confirms only what it handed over, skips nothing, and gives up in time. -/
theorem confirms_only_handled {s : Loop} {events : List (List (Event Update))}
    (h : History (Step updateId) Loop.new events s) (hbot : FromBotApi updateId events.flatten) :
    Confirms updateId events.flatten s := by
  have hinv := inv_of_history h hbot
  refine ⟨?_, ?_, ?_, ?_, hinv.given_up, ?_⟩
  · intro later earlier o htrace id hlt hreceived
    exact hinv.promises.at htrace o rfl id hreceived hlt
  · intro later earlier update handling id htrace hreturned hid j hlt hreceived
    exact hinv.promises.at htrace hreturned id hid j hreceived hlt
  · intro id hreceived hnot o ho
    by_contra hlt
    exact hnot (hinv.caught o ho id hreceived (Int.not_le.1 hlt))
  · intro hrunning
    obtain ⟨run, hrun⟩ := Option.isSome_iff_exists.1 hrunning
    obtain ⟨hstreak, hlt⟩ := hinv.streaks run hrun
    exact hstreak ▸ hlt
  · intro later earlier error htrace
    exact hinv.promises.at htrace

/-- The reply to the second of two updates is not persisted at first. -/
def firstTurn : Reading ℤ where
  polled := .replied (.mapping (some "ok") (some [some 5, some 6]))
  handling := fun i => .returned (if i = 0 then none else some "reply_not_persisted")

def secondTurn : Reading ℤ where
  polled := .replied (.mapping (some "ok") (some [some 6]))

/-- What happens in these turns. -/
def retriedTrace : List (Event ℤ) :=
  [.cleared, .answered 6 (.returned none), .replied [6], .polled (some 6), .failed "RuntimeError",
    .answered 6 (.returned (some "reply_not_persisted")), .answered 5 (.returned none),
    .replied [5, 6], .polled none, .started]

private theorem fromBotApi_retried : FromBotApi some retriedTrace := by
  refine ⟨nofun, nofun, ?_, nofun, nofun, nofun, nofun, ?_, nofun, nofun, trivial⟩
  · rintro us offset rest ⟨rfl⟩ ⟨rfl⟩
    refine ⟨by decide, by decide, fun id hid j hreceived hlt hfrom => ?_⟩
    have hge : 6 ≤ j := hfrom 6 rfl
    obtain rfl : id = 6 := by simpa using hid
    omega
  · rintro us offset rest ⟨rfl⟩ ⟨rfl⟩
    refine ⟨by decide, by decide, fun id hid j hreceived hlt hfrom => ?_⟩
    simp [Received] at hreceived

theorem confirms_only_handled_retried : ∃ s : Loop, s.poller.offset = some 7 ∧
    s.running.isSome = true ∧ Confirms some retriedTrace s := by
  have hturn : Step some _ _ _ := .turn {} none {} firstTurn
  have hhistory := ((History.nil.cons (.start {} none)).cons hturn).cons
    (.turn _ none _ secondTurn)
  exact ⟨_, rfl, rfl, confirms_only_handled hhistory fromBotApi_retried⟩

end Cortex.Inbound
