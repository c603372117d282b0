import Cortex.Fallback.Library

/-!
# The weekly fallback runs

A run takes recommendations as its items.  An item is leased for its one model
call (`deciding`), leased again to verify the answer (`verifying`), and ends as
`done` or `stale`.  `World` keeps, besides the tables, the inputs whose model
call was begun and those whose begun call was released, so that a theorem can
count them.
-/

namespace Cortex.Fallback

open Control Time Transaction

inductive RunState
  | running | completed
  deriving DecidableEq

inductive Trigger
  | schedule | operator
  deriving DecidableEq

inductive DigestState
  | none | pending | suppressed
  deriving DecidableEq

/-- A row of `xhs_fallback_runs`; `started_at` is the registry spelling of `startedAt`. -/
structure Run where
  id : ℕ
  state : RunState
  trigger : Trigger
  startedAt : Civil
  finishedAt : Option Stamp
  itemCap : ℕ
  model : Text
  effort : Text
  summary : List ℕ
  digestState : DigestState
  revision : ℕ

inductive ItemState
  | pending | deciding | verifying | done | stale
  deriving DecidableEq

/-- The item still has a stage to go through. -/
def ItemState.isOpen : ItemState → Bool
  | pending | deciding | verifying => true
  | done | stale => false

inductive CallState
  | notStarted | mayHaveStarted | finished
  deriving DecidableEq

structure Item (Digest : Type) where
  id : ℕ
  runId : ℕ
  recommendationId : ℕ
  ordinal : ℕ
  expectedRevision : ℕ
  inputSha256 : Digest
  state : ItemState
  callState : CallState
  proposal : Option Text
  verification : Option Text
  applied : Option Applied
  usage : Option Text
  attempts : ℕ
  nextAttemptAt : Text
  leaseUntil : Option Stamp
  lastError : Option Text
  revision : ℕ

/-- The calls of the `gpt` provider that were counted on a day. -/
structure Usage where
  day : Text
  calls : ℕ

instance : Keyed Run ℕ := ⟨Run.id⟩
instance {Digest : Type} : Keyed (Item Digest) ℕ := ⟨Item.id⟩
instance : Keyed Usage Text := ⟨Usage.day⟩

structure Tables (Digest : Type) where
  library : Library
  runs : Table Run
  items : Table (Item Digest)
  usage : Table Usage

/-- The tables, with the inputs whose call was begun and whose begun call was released. -/
structure World (Digest : Type) where
  tables : Tables Digest
  begun : List (ℕ × Digest)
  released : List (ℕ × Digest)

/-- What a command reads besides the tables: the clock, one reading after the other, and fresh
ids. -/
structure Readings where
  clock : ℕ → Civil
  newId : ℕ → ℕ

def runSpacingSeconds : ℕ := 7 * 86400

def maxRunItems : ℕ := 100

def verifyMaxAttempts : ℕ := 3

def metadataMaxBytes : ℕ := 16384

/-- `VERIFY_RETRY_SECONDS`, by the number of attempts made. -/
def verifyRetrySeconds (attempts : ℕ) : ℕ := if max attempts 1 = 1 then 600 else 3600

def isFailureCategory (category : Text) : Bool :=
  category ∈ ["auth", "payment", "rate_limited", "transient", "outcome_unknown", "upstream_error",
    "not_found", "invalid_response", "url_expired"].map String.toList

def isRetryableFailure (category : Text) : Bool :=
  category ∈ ["rate_limited", "transient", "outcome_unknown"].map String.toList

section Commands

variable {Digest : Type} [DecidableEq Digest] (platform : Platform Digest)

/-! ## Runs -/

/-- `ORDER BY started_at DESC, id DESC LIMIT 1`. -/
def lastStarted : List Run → Option Run
  | [] => none
  | run :: rest =>
      match lastStarted rest with
      | none => some run
      | some last =>
          if formatRegistryTime run.startedAt < formatRegistryTime last.startedAt ∨
              run.startedAt.micros = last.startedAt.micros ∧ run.id ≤ last.id then some last
          else some run

inductive Refusal
  | running | tooSoon | nothingSelected
  deriving DecidableEq

/-- `_xhs_fallback_start_refusal`. -/
def startRefusal (t : Tables Digest) (now : Civil) : Except StoreError (Option Refusal) :=
  match lastStarted t.runs.rows with
  | none => pure none
  | some last => do
      let nextStart ← orRaise (last.startedAt.addSeconds runSpacingSeconds) .overflowError
      if ∃ run ∈ t.runs.rows, run.state = .running then
        pure (some .running)
      else
        pure (if now.micros < nextStart.micros then some .tooSoon else none)

/-- An earlier run took this input, and its item did not go stale before its call. -/
def IsTaken (t : Tables Digest) (recommendationId : ℕ) (digest : Digest) : Prop :=
  ∃ item ∈ t.items.rows, item.recommendationId = recommendationId ∧ item.inputSha256 = digest ∧
    ¬(item.state = .stale ∧ item.callState = .notStarted)

instance (t : Tables Digest) (recommendationId : ℕ) (digest : Digest) :
    Decidable (IsTaken t recommendationId digest) := by
  unfold IsTaken
  infer_instance

/-- The loop of `_xhs_fallback_selection`: at most `cap` inputs that no run took, and how many
were reviewed. -/
def fallbackSelection (t : Tables Digest) :
    ℕ → List Recommendation → Except StoreError (List (Recommendation × Digest) × ℕ)
  | _, [] => pure ([], 0)
  | cap, r :: rest => do
      let digest ← fallbackDigest platform t.library r
      if IsTaken t r.id digest then do
        let (selected, reviewed) ← fallbackSelection t cap rest
        pure (selected, reviewed + 1)
      else
        match cap with
        | 0 => fallbackSelection t 0 rest
        | cap + 1 => do
            let (selected, reviewed) ← fallbackSelection t cap rest
            pure ((r, digest) :: selected, reviewed)

def newItem (readings : Readings) (runId ordinal : ℕ) (r : Recommendation) (digest : Digest)
    (now : Stamp) : Item Digest where
  id := readings.newId ordinal
  runId := runId
  recommendationId := r.id
  ordinal := ordinal
  expectedRevision := r.revision
  inputSha256 := digest
  state := .pending
  callState := .notStarted
  proposal := none
  verification := none
  applied := none
  usage := none
  attempts := 0
  nextAttemptAt := now
  leaseUntil := none
  lastError := none
  revision := 0

/-- The items of a new run, in the order of selection. -/
def insertItems (readings : Readings) (runId : ℕ) (now : Stamp) :
    ℕ → List (Recommendation × Digest) → Table (Item Digest) →
      Except StoreError (Table (Item Digest))
  | _, [], items => pure items
  | ordinal, (r, digest) :: rest, items => do
      require (∀ i ∈ items.rows, i.runId = runId → i.recommendationId ≠ r.id ∧ i.ordinal ≠ ordinal)
        .integrityError
      let items ← orRaise (items.insert? (newItem readings runId ordinal r digest now))
        .integrityError
      insertItems readings runId now (ordinal + 1) rest items

structure StartAnswer where
  run : Option Run
  refusal : Option Refusal

/-- `start_xhs_fallback_run`. -/
def startRun (t : Tables Digest) (readings : Readings) (trigger : Trigger) (itemCap : ℤ)
    (model effort : Text) : Except StoreError (Tables Digest × StartAnswer) := do
  require (1 ≤ itemCap) (.valueError "item_cap is invalid")
  let cap := min itemCap.toNat maxRunItems
  let model ← requiredText model "model" 128
  require (1 ≤ effort.length ∧ effort.length ≤ 16 ∧ effort.all fun c => 'a' ≤ c ∧ c ≤ 'z')
    (.valueError "effort is invalid")
  match ← startRefusal t (readings.clock 0) with
  | some refusal => pure (t, { run := none, refusal := some refusal })
  | none => do
      let library ← applyFallbackRules platform t.library ruleBatchMax
        (formatRegistryTime (readings.clock 1))
      let t := { t with library }
      let (selected, _) ← fallbackSelection platform t cap (fallbackCandidates t.library)
      if selected = [] then
        pure (t, { run := none, refusal := some .nothingSelected })
      else do
        let now := readings.clock 2
        let run : Run :=
          { id := readings.newId 0, state := .running, trigger, startedAt := now
            finishedAt := none, itemCap := cap, model, effort, summary := []
            digestState := .none, revision := 0 }
        require (∀ r ∈ t.runs.rows, r.state ≠ .running) .integrityError
        let runs ← orRaise (t.runs.insert? run) .integrityError
        let items ← insertItems readings run.id (formatRegistryTime now) 1 selected t.items
        pure ({ t with runs, items }, { run := some run, refusal := none })

/-! ## Items -/

/-- The `CHECK`s of `xhs_fallback_items`. -/
def Item.Check (i : Item Digest) : Prop :=
  i.attempts ≤ 3 ∧ (i.leaseUntil ≠ none → i.state = .deciding ∨ i.state = .verifying) ∧
  (i.state = .deciding → i.leaseUntil ≠ none) ∧
  (i.state = .pending → i.callState = .notStarted ∧ i.proposal = none) ∧
  (i.state = .verifying → i.proposal ≠ none) ∧ (i.proposal ≠ none → i.callState = .finished) ∧
  (i.applied ≠ none ↔ i.state = .done)

omit [DecidableEq Digest] in
instance (i : Item Digest) : Decidable i.Check := by
  unfold Item.Check
  infer_instance

/-- `_xhs_fallback_item`. -/
def fallbackItem (t : Tables Digest) (itemId : ℕ) : Except StoreError (Item Digest) :=
  orRaise (t.items.get? itemId) (.notFound "xhs fallback item")

/-- `_xhs_fallback_update`: the row, with its next revision. -/
def updateItem (t : Tables Digest) (item : Item Digest) :
    Except StoreError (Tables Digest × Item Digest) := do
  let item := { item with revision := item.revision + 1 }
  require item.Check (.valueError "xhs_fallback_items update is inconsistent")
  let items := t.items.update (fun i => i.id = item.id) (fun i => { item with id := i.id })
  pure ({ t with items }, item)

/-- `_xhs_fallback_leased`. -/
def leasedItem (t : Tables Digest) (itemId : ℕ) (expectedRevision : ℤ) (states : List ItemState) :
    Except StoreError (Item Digest) := do
  let item ← fallbackItem t itemId
  require (0 ≤ expectedRevision)
    (.valueError "expected_revision must be a non-negative integer")
  require (item.revision = expectedRevision) .revisionConflict
  require (item.state ∈ states ∧ item.leaseUntil ≠ none) (.invalidTransition "state" "leased")
  pure item

/-- `_xhs_fallback_current`. -/
def isCurrent (t : Tables Digest) (item : Item Digest) : Except StoreError Bool :=
  match (fallbackCandidates t.library).find? fun r => r.id = item.recommendationId with
  | none => pure false
  | some r =>
      if r.revision = item.expectedRevision then do
        let digest ← fallbackDigest platform t.library r
        pure (decide (digest = item.inputSha256))
      else pure false

/-- `run_summary`: the counts of the applied actions, and of the items that went stale. -/
def runSummary (applied : List (Option Applied)) : List ℕ :=
  [some Applied.blogQueued, some .paperCorrected, some .paperKept, some .excluded,
    some .needsOperator, none].map fun a => applied.count a

/-- `_xhs_fallback_maybe_complete`. -/
def maybeComplete (t : Tables Digest) (runId : ℕ) (now : Stamp) :
    Except StoreError (Tables Digest) :=
  if ∃ i ∈ t.items.rows, i.runId = runId ∧ i.state.isOpen = true then pure t
  else do
    let run ← orRaise (t.runs.get? runId) (.notFound "xhs fallback run")
    if run.state ≠ .running then pure t
    else
      let applied := (t.items.rows.filter fun i => i.runId = runId).map Item.applied
      let digestState :=
        if some Applied.needsOperator ∈ applied then DigestState.pending else .suppressed
      let runs := t.runs.update (fun r => r.id = runId)
        (fun r => { r with
          state := .completed, finishedAt := some now, summary := runSummary applied, digestState
          revision := r.revision + 1 })
      pure { t with runs }

/-- `_xhs_fallback_stale`, over the item with the columns that the end writes. -/
def staleItem (t : Tables Digest) (item : Item Digest) (now : Stamp) :
    Except StoreError (Tables Digest × Item Digest) := do
  let (t, item) ← updateItem t { item with state := .stale }
  let t ← maybeComplete t item.runId now
  pure (t, item)

/-- `_json_text`: the text of a JSON value, of at most `maximum` bytes. -/
def jsonText (value : Text) (name : String) (maximum : ℕ) : Except StoreError Text := do
  require ((value.map Char.utf8Size).sum ≤ maximum) (.valueError (name ++ " is too large"))
  pure value

/-- Write a JSON column if it is given. -/
def jsonColumn (column value : Option Text) (name : String) (maximum : ℕ) :
    Except StoreError (Option Text) :=
  match value with
  | none => pure column
  | some value => some <$> jsonText value name maximum

structure Ending where
  proposal : Option Text := none
  usage : Option Text := none
  verification : Option Text := none
  lastError : Option Text := none

/-- The columns that the end of an item writes besides its state. -/
def endedColumns (item : Item Digest) (decision : Decision) (ending : Ending) :
    Except StoreError (Item Digest) := do
  let unknown : Bool :=
    match decision with
    | .exclude reasonCode _ | .needsOperator reasonCode _ => reasonCode = .outcomeUnknown
    | _ => false
  let proposal ← jsonColumn item.proposal ending.proposal "proposal" metadataMaxBytes
  let usage ← jsonColumn item.usage ending.usage "usage" 4096
  let verification ← jsonColumn item.verification ending.verification "verification"
    metadataMaxBytes
  pure { item with
    leaseUntil := none
    -- every end of a call but an unknown outcome means it returned
    callState :=
      if item.state = .deciding then
        if unknown ∧ ending.proposal = none then .mayHaveStarted else .finished
      else item.callState
    proposal, usage, verification
    lastError := ending.lastError.or item.lastError }

/-- `_xhs_fallback_conclude`. -/
def concludeItem (t : Tables Digest) (item : Item Digest) (decision : Decision)
    (ending : Ending) (now : Stamp) : Except StoreError (Tables Digest × Item Digest) := do
  let decision ← checkDecision platform decision
  let ended ← endedColumns item decision ending
  if ← isCurrent platform t item then do
    let (library, applied) ← fallbackEffect platform t.library item.recommendationId item.runId
      decision now
    let (t, updated) ← updateItem { t with library }
      { ended with state := .done, applied := some applied }
    let t ← maybeComplete t item.runId now
    pure (t, updated)
  else staleItem t ended now

inductive Stage
  | decide | verify
  deriving DecidableEq

/-- `ORDER BY i.state = 'pending', i.ordinal`. -/
def DueBefore (i i' : Item Digest) : Prop :=
  i.state ≠ .pending ∧ i'.state = .pending ∨
    (i.state = .pending ↔ i'.state = .pending) ∧ i.ordinal ≤ i'.ordinal

omit [DecidableEq Digest] in
instance : DecidableRel (@DueBefore Digest) := fun i i' => by
  unfold DueBefore
  infer_instance

/-- A stage of a running run that is due, or whose lease has expired. -/
def IsDue (t : Tables Digest) (now : Stamp) (i : Item Digest) : Prop :=
  (∃ run ∈ t.runs.rows, run.id = i.runId ∧ run.state = .running) ∧
  ((i.leaseUntil = none ∧ (i.state = .pending ∨ i.state = .verifying) ∧ i.nextAttemptAt ≤ now) ∨
    (i.leaseUntil.any fun lease => decide (lease ≤ now)) = true)

omit [DecidableEq Digest] in
instance (t : Tables Digest) (now : Stamp) (i : Item Digest) : Decidable (IsDue t now i) := by
  unfold IsDue
  infer_instance

def dueItem (t : Tables Digest) (now : Stamp) : Option (Item Digest) :=
  ((t.items.rows.filter fun i => IsDue t now i).insertionSort DueBefore).head?

/-- The loop of `claim_xhs_fallback_item`: each turn ends an item or leases one, so the number of
items is fuel enough. -/
def claimLoop (nowValue : Civil) (leaseSeconds : ℕ) :
    ℕ → Tables Digest → Except StoreError (Tables Digest × Option (Item Digest × Stage))
  | 0, _ => throw (.runtimeError "the loop has not ended")
  | fuel + 1, t =>
      let now := formatRegistryTime nowValue
      match dueItem t now with
      | none => pure (t, none)
      | some item =>
          if item.state = .deciding ∧ item.callState = .mayHaveStarted then do
            let (t, _) ← concludeItem platform t item (.needsOperator .outcomeUnknown none) {} now
            claimLoop nowValue leaseSeconds fuel t
          else do
            if ← isCurrent platform t item then
              if item.state = .verifying ∧ verifyMaxAttempts ≤ item.attempts then do
                let (t, _) ← concludeItem platform t item (.needsOperator .fetchFailed none) {} now
                claimLoop nowValue leaseSeconds fuel t
              else do
                let lease ← orRaise (nowValue.addSeconds leaseSeconds) .overflowError
                let leaseUntil := some (formatRegistryTime lease)
                if item.state = .verifying then do
                  let (t, item) ← updateItem t
                    { item with leaseUntil, attempts := item.attempts + 1 }
                  pure (t, some (item, .verify))
                else do
                  let (t, item) ← updateItem t
                    { item with state := .deciding, callState := .notStarted, leaseUntil }
                  pure (t, some (item, .decide))
            else do
              let (t, _) ← staleItem t { item with leaseUntil := none } now
              claimLoop nowValue leaseSeconds fuel t

/-- `claim_xhs_fallback_item`. -/
def claimItem (t : Tables Digest) (readings : Readings) (leaseSeconds : ℤ) :
    Except StoreError (Tables Digest × Option (Item Digest × Stage)) := do
  require (1 ≤ leaseSeconds ∧ leaseSeconds ≤ 86400)
    (.valueError "lease_seconds must be between 1 and 86400")
  claimLoop platform (readings.clock 0) leaseSeconds.toNat (t.items.rows.length + 1) t

/-- The UTC day of a reading. -/
def utcDay (now : Civil) : Text := (formatRegistryTime now).take 10

/-- `_xhs_reserve_usage` of one `gpt` call: the day it counts on, or nothing at the cap. -/
def reserveUsage (usage : Table Usage) (cap : ℤ) (now : Civil) :
    Except StoreError (Option (Table Usage × Text)) := do
  require (0 ≤ cap) (.valueError "usage cap or calls are invalid")
  let day := utcDay now
  match usage.get? day with
  | none => do
      if cap < 1 then pure none
      else do
        let usage ← orRaise (usage.insert? { day, calls := 1 }) .integrityError
        pure (some (usage, day))
  | some row =>
      if cap < row.calls + 1 then pure none
      else
        let usage := usage.update (fun u => u.day = day) (fun u => { u with calls := u.calls + 1 })
        pure (some (usage, day))

/-- `_xhs_refund_usage` of one `gpt` call. -/
def refundUsage (usage : Table Usage) (day : Text) : Except StoreError (Table Usage) := do
  require (day.length = 10 ∧ ∀ i < 10, day[i]?.any fun c =>
      if i = 4 ∨ i = 7 then c = '-' else c.isDigit) (.valueError "usage day is invalid")
  pure (usage.update (fun u => u.day = day) (fun u => { u with calls := u.calls - 1 }))

/-- Midnight of the next UTC day. -/
def tomorrow (now : Civil) : Except StoreError Civil := do
  let later ← orRaise (now.addSeconds 86400) .overflowError
  pure { later with
    hour := 0, minute := 0, second := 0, microsecond := 0
    validTime := by decide }

/-- `begin_xhs_fallback_call`. -/
def beginCall (t : Tables Digest) (readings : Readings) (itemId : ℕ) (expectedRevision cap : ℤ) :
    Except StoreError (Tables Digest × Item Digest × Option Text) := do
  let item ← leasedItem t itemId expectedRevision [.deciding]
  require (item.callState = .notStarted) (.invalidTransition "call_state" "may_have_started")
  match ← reserveUsage t.usage cap (readings.clock 0) with
  | none => do
      let next ← tomorrow (readings.clock 1)
      let (t, item) ← updateItem t
        { item with state := .pending, leaseUntil := none, nextAttemptAt := formatRegistryTime next }
      pure (t, item, none)
  | some (usage, day) => do
      let (t, item) ← updateItem { t with usage } { item with callState := .mayHaveStarted }
      pure (t, item, some day)

/-- `record_xhs_fallback_proposal`. -/
def recordProposal (t : Tables Digest) (readings : Readings) (itemId : ℕ) (expectedRevision : ℤ)
    (proposal : Text) (usage : Option Text) : Except StoreError (Tables Digest × Item Digest) := do
  let item ← leasedItem t itemId expectedRevision [.deciding]
  require (item.callState = .mayHaveStarted) (.invalidTransition "call_state" "finished")
  let proposal ← jsonText proposal "proposal" metadataMaxBytes
  let usage ← jsonColumn none usage "usage" 4096
  updateItem t
    { item with
      state := .verifying, callState := .finished, leaseUntil := none
      nextAttemptAt := formatRegistryTime (readings.clock 0), attempts := 0
      proposal := some proposal, usage }

/-- When a released item is due: after the delay, at the time named, or at once. -/
def dueAgain (now : Civil) (notBefore : Option Text) (delaySeconds : Option ℤ) :
    Except StoreError Text :=
  match delaySeconds, notBefore with
  | some delay, _ => do
      let next ← orRaise (now.addSeconds delay.toNat) .overflowError
      pure (formatRegistryTime next)
  | none, none => pure (formatRegistryTime now)
  | none, some notBefore => requiredText notBefore "not_before" 64

def refunded (usage : Table Usage) : Option Text → Except StoreError (Table Usage)
  | none => pure usage
  | some day => refundUsage usage day

/-- `release_xhs_fallback_item`. -/
def releaseItem (t : Tables Digest) (readings : Readings) (itemId : ℕ) (expectedRevision : ℤ)
    (notBefore refundDay : Option Text) (delaySeconds : Option ℤ) :
    Except StoreError (Tables Digest × Item Digest) := do
  require (∀ delay ∈ delaySeconds, 1 ≤ delay ∧ delay ≤ 86400)
    (.valueError "delay_seconds must be between 1 and 86400")
  require (delaySeconds = none ∨ notBefore = none)
    (.valueError "name not_before or delay_seconds, not both")
  let item ← leasedItem t itemId expectedRevision [.deciding, .verifying]
  let nextAttemptAt ← dueAgain (readings.clock 0) notBefore delaySeconds
  if item.state = .verifying then
    updateItem t { item with leaseUntil := none, nextAttemptAt, attempts := item.attempts - 1 }
  else do
    let usage ← refunded t.usage refundDay
    updateItem { t with usage }
      { item with state := .pending, callState := .notStarted, leaseUntil := none, nextAttemptAt }

/-- `fail_xhs_fallback_verification`. -/
def failVerification (t : Tables Digest) (readings : Readings) (itemId : ℕ)
    (expectedRevision : ℤ) (category : Text) (verification : Option Text) :
    Except StoreError (Tables Digest × Item Digest) := do
  require (isFailureCategory category = true) (.valueError "failure category is unsupported")
  let item ← leasedItem t itemId expectedRevision [.verifying]
  if isRetryableFailure category ∧ item.attempts < verifyMaxAttempts then do
    let next ← orRaise ((readings.clock 0).addSeconds (verifyRetrySeconds item.attempts))
      .overflowError
    updateItem t
      { item with
        leaseUntil := none, lastError := some category
        nextAttemptAt := formatRegistryTime next }
  else
    concludeItem platform t item (.needsOperator .fetchFailed none)
      { verification, lastError := some category } (formatRegistryTime (readings.clock 0))

/-- `apply_xhs_fallback_result`. -/
def applyResult (t : Tables Digest) (readings : Readings) (itemId : ℕ) (expectedRevision : ℤ)
    (decision : Decision) (proposal usage verification : Option Text) :
    Except StoreError (Tables Digest × Item Digest) := do
  let decision ← checkDecision platform decision
  let item ← leasedItem t itemId expectedRevision [.deciding, .verifying]
  require (item.state = .deciding → item.callState = .mayHaveStarted)
    (.invalidTransition "call_state" "finished")
  require (proposal ≠ none → item.state = .deciding)
    (.valueError "a proposal is recorded when the call ends")
  concludeItem platform t item decision { proposal, usage, verification }
    (formatRegistryTime (readings.clock 0))

end Commands

end Cortex.Fallback
