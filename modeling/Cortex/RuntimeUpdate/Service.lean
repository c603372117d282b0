import Cortex.Library.History
import Cortex.RuntimeUpdate.Directory

/-!
# The commands of the runtime-update service

Every command holds the service's lock, so its steps are not interleaved with
another command's.  A pointer, registry, journal, manager or pin write and the
removal of a managed directory are one step each.  The registry that a command
has read is its own copy until it writes it back.

`activate` keeps the journal from before its first write until after its last
one; `rollback` keeps none.  `_recover_activation_unlocked` runs first in
`activate`, `rollback`, `status` and `prune`.
-/

namespace Cortex.RuntimeUpdate

open Control Transaction Procedure

abbrev M := Procedure Directory RuntimeUpdateError

section Commands

variable (P : Platform) (readings : Readings)

/-! ## Import and staging -/

/-- The slot of a release's artifact: the one that is there, or a new one. -/
def provideSlot (d : Directory) (release : Manifest) : M Digest :=
  match d.slots.get? release.artifactSha256 with
  | some slot => pure slot.contentTree
  | none => do
      lift (require readings.extracted (.verification "candidate worker entrypoint is missing"))
      match readings.moduleRefusal release with
      | some message => raise (.verification message)
      | none => do
          let slot := ⟨release, P.contentTree release.artifactSha256⟩
          write fun d => { d with slots := d.slots.set slot }
          pure slot.contentTree

/-- `import_release`. -/
def importRelease (request : ReleaseImport) : M Digest := do
  lift (checkImport P readings request)
  let release := request.manifest
  let d ← read
  let accepted := d.manager.catalogSequence
  let catalogDigest := P.catalogDigest request.catalog
  lift (require (accepted ≤ request.catalog.sequence) (.catalogReplay "catalog replay rejected"))
  lift (require (¬ (request.catalog.sequence = accepted ∧
      d.manager.catalogDigest ≠ none ∧ d.manager.catalogDigest ≠ some catalogDigest))
    (.catalogReplay "catalog sequence equivocation rejected"))
  let treeDigest ← provideSlot P readings d release
  let registry := d.registry.set
    { releaseId := release.releaseId
      status := .verified
      releaseSequence := release.releaseSequence
      slotDigest := release.artifactSha256
      manifestDigest := P.manifestDigest release
      contentTreeDigest := treeDigest
      candidateGeneration := none }
  write fun d => { d with registry }
  write fun d =>
    { d with
      manager :=
        { d.manager with
          catalogSequence := request.catalog.sequence, catalogDigest := some catalogDigest } }
  pure release.artifactSha256

/-- `_provision_interpreter`: reuse a root that has its pin, or stage it anew. -/
def provisionInterpreter (manifest : Manifest) : M Unit := do
  let archive := manifest.runtimeArchive
  let d ← read
  if archive ∈ d.interpreterPins ∧ archive ∈ d.interpreters then do
    lift (require readings.interpreterVerified
      (.activation "staged interpreter verification failed"))
    lift (interpreterContained readings)
  else do
    if archive ∈ d.interpreterPins ∨ archive ∈ d.interpreters then do
      write fun d => { d with interpreters := d.interpreters.filter fun a => a ≠ archive }
      write fun d => { d with interpreterPins := d.interpreterPins.filter fun a => a ≠ archive }
    lift (require readings.archivePresent (.activation "release runtime archive is missing"))
    lift (require readings.interpreterExpanded
      (.activation "release interpreter could not be staged"))
    write fun d => { d with interpreters := archive :: d.interpreters }
    lift (require readings.interpreterMeasured
      (.activation "staged interpreter was not measured"))
    lift (interpreterContained readings)
    write fun d => { d with interpreterPins := archive :: d.interpreterPins }

/-- `stage`. -/
def stage (releaseId : ReleaseId) : M Pointer := do
  lift (safeName releaseId "release identifier")
  let d ← read
  let record ← lift (orRaise (d.registry.get? releaseId)
    (.activation "release is not eligible for staging"))
  lift (require (record.status ∈ [.verified, .staged, .quarantined])
    (.activation "release is not eligible for staging"))
  let generation := readings.newGeneration
  lift (require readings.stateCopied .copyState)
  write fun d => { d with generations := (releaseId, generation) :: d.generations }
  let registry :=
    d.registry.set { record with candidateGeneration := some generation, status := .staged }
  let candidate ← lift (candidateOf registry releaseId)
  let d ← read
  let manifest ← lift (verifyCandidate P d readings candidate registry false)
  rescue
    (do
      provisionInterpreter readings manifest
      let d ← read
      lift (verifyInterpreterRoot d readings manifest))
    -- The new generation goes: no interpreter backs it.
    (fun error => do
      write fun d =>
        { d with generations := d.generations.filter fun g => g ≠ (releaseId, generation) }
      raise error)
  write fun d => { d with registry }
  pure candidate

/-! ## Activation and rollback -/

/-- `_recover_activation_unlocked`. -/
def recoverActivation : M Unit := do
  let d ← read
  match d.journal with
  | none => pure ()
  | some journal => do
      write fun d => { d with active := journal.oldActive }
      let registry := d.registry
      if (registry.get? journal.candidate.releaseId).isSome then
        write fun d =>
          { d with registry := registry.mark journal.candidate.releaseId .quarantined }
      write fun d => { d with journal := none }

/-- One probe that has to answer `True`. -/
def checkHealth (n : ℕ) (message : String) : M Unit :=
  match readings.probe n with
  | .healthy => pure ()
  | .unhealthy => raise (.activation message)
  | .raises => raise .probe

/-- What `activate` decides before its first write. -/
inductive Admission
  /-- The release is active already. -/
  | active (pointer : Pointer)
  | admitted (candidate : Pointer)

/-- The checks of `activate`. -/
def admitActivation (d : Directory) (releaseId : ReleaseId) :
    Except RuntimeUpdateError Admission := do
  require (d.manager.frozen = false) (.activation "runtime activation is frozen")
  require (d.attempts.values = []) (.activation "runtime activation requires no active attempts")
  let candidate ← candidateOf d.registry releaseId
  let _ ← verifyCandidate P d readings candidate d.registry true
  requireApproval readings candidate d.registry
  match d.active with
  | none => pure (.admitted candidate)
  | some active => do
      if active.releaseId = releaseId then
        pure (.active active)
      else do
        require (active.releaseSequence ≤ candidate.releaseSequence)
          (.activation "runtime downgrade is forbidden")
        pure (.admitted candidate)

/-- The steps of `activate` between the journal's first write and its removal. -/
def switchActive (d : Directory) (candidate : Pointer) : M Unit :=
  rescue
    (do
      checkHealth readings 0 "candidate health probe failed"
      write fun d' => { d' with registry := d.registry.mark candidate.releaseId .certified }
      write fun d' => { d' with active := some candidate }
      write fun d' =>
        { d' with journal := some ⟨.activePointerSwitched, d.active, candidate⟩ }
      checkHealth readings 1 "candidate post-activation health probe failed")
    (fun error => do
      write fun d' => { d' with active := d.active }
      write fun d' => { d' with registry := d.registry.mark candidate.releaseId .quarantined }
      write fun d' => { d' with journal := none }
      raise (match error with
        | .probe => .activation "candidate health probe failed"
        | error => error))

/-- The registry after an activation: the old active release is the last known good one. -/
def activatedRegistry (registry : Registry) (old : Option Pointer) (candidate : Pointer) :
    Registry :=
  match old with
  | none => registry.mark candidate.releaseId .active
  | some old => (registry.mark old.releaseId .lastKnownGood).mark candidate.releaseId .active

/-- `activate`. -/
def activate (releaseId : ReleaseId) : M Pointer := do
  recoverActivation
  let d ← read
  match ← lift (admitActivation P readings d releaseId) with
  | .active pointer => pure pointer
  | .admitted candidate => do
      write fun d' => { d' with journal := some ⟨.prepared, d.active, candidate⟩ }
      switchActive readings d candidate
      match d.active with
      | none => pure ()
      | some old => write fun d' => { d' with lastKnownGood := some old }
      write fun d' => { d' with registry := activatedRegistry d.registry d.active candidate }
      write fun d' => { d' with journal := none }
      pure candidate

/-- The checks of `rollback`, which give the pointer to go back to. -/
def admitRollback (d : Directory) : Except RuntimeUpdateError Pointer := do
  require (d.attempts.values = []) (.activation "runtime rollback requires no active attempts")
  let pointer ← orRaise d.lastKnownGood (.activation "last-known-good runtime is unavailable")
  let _ ← verifyCandidate P d readings pointer d.registry true
  requireApproval readings pointer d.registry
  require ((pointer.releaseId, pointer.generationId) ∈ d.generations)
    (.activation "last-known-good health probe failed")
  match readings.probe 0 with
  | .healthy => pure pointer
  | .unhealthy => throw (.activation "last-known-good health probe failed")
  | .raises => throw .probe

/-- The registry after a rollback. -/
def restoredRegistry (registry : Registry) (pointer : Pointer) (current : Option Pointer) :
    Registry :=
  match current with
  | none => registry.mark pointer.releaseId .active
  | some current =>
      (registry.mark pointer.releaseId .active).mark current.releaseId .lastKnownGood

/-- `rollback`. -/
def rollback : M Pointer := do
  recoverActivation
  let d ← read
  let pointer ← lift (admitRollback P readings d)
  write fun d' => { d' with active := some pointer }
  write fun d' => { d' with lastKnownGood := d.active }
  write fun d' => { d' with registry := restoredRegistry d.registry pointer d.active }
  pure pointer

/-! ## Attempts, freezing, status and retention -/

/-- `pin_attempt`. -/
def pinAttempt (attemptId : Text) (expectedPin : Option AttemptPin) : M AttemptPin := do
  lift (safeName attemptId "attempt identifier")
  let d ← read
  let active ← lift (orRaise d.active (.activation "active runtime is unavailable"))
  let pin ← lift (attemptPinFromIdentity P d readings attemptId active.releaseId
    active.slotDigest active.generationId)
  lift (require (expectedPin = none ∨ expectedPin = some pin)
    (.activation "active runtime changed before pin commit"))
  let existing ← lift (attemptPin P d readings attemptId)
  lift (require (existing = none ∨ existing = some pin)
    (.activation "attempt is already pinned to another runtime"))
  write fun d => { d with attempts := d.attempts.set pin }
  pure pin

/-- `finish_attempt`. -/
def finishAttempt (attemptId : Text) (pin : AttemptPin) : M Unit := do
  let d ← read
  match ← lift (attemptPin P d readings attemptId) with
  | none => pure ()
  | some current => do
      lift (require (current = pin) (.activation "attempt pin ownership mismatch"))
      write fun d => { d with attempts := d.attempts.erase attemptId }

/-- `freeze` and `thaw`. -/
def setFrozen (frozen : Bool) : M Unit :=
  write fun d => { d with manager := { d.manager with frozen } }

/-- What `status` reports. -/
structure StatusReport where
  frozen : Bool
  catalogSequence : ℤ
  active : Option Pointer
  lastKnownGood : Option Pointer
  activeAttempts : ℕ
  releases : List Record

/-- `status`. -/
def status : M StatusReport := do
  recoverActivation
  let d ← read
  pure
    { frozen := d.manager.frozen
      catalogSequence := d.manager.catalogSequence
      active := d.active
      lastKnownGood := d.lastKnownGood
      activeAttempts := d.attempts.values.length
      releases := d.registry.values }

/-- The release ids that a pointer or a pin protects. -/
def namedReleases (d : Directory) : List ReleaseId :=
  (d.active.toList ++ d.lastKnownGood.toList).map Pointer.releaseId ++
    d.attempts.values.map AttemptPin.releaseId

/-- The release ids that `prune` keeps: the named ones and the latest `retain` others. -/
def protectedReleases (d : Directory) (retain : ℕ) : List ReleaseId :=
  let candidates := d.registry.values.filter fun r => r.releaseId ∉ namedReleases d
  let latest := candidates.insertionSort fun r r' => r'.releaseSequence ≤ r.releaseSequence
  namedReleases d ++ (latest.take retain).map Record.releaseId

/-- The release ids that `prune` removes, sorted. -/
def removedReleases (d : Directory) (retain : ℕ) : List ReleaseId :=
  let known := d.registry.values.map Record.releaseId
  (known.filter fun r => r ∉ protectedReleases d retain).insertionSort fun r r' => r ≤ r'

/-- The slots of the releases that `prune` keeps. -/
def keptDigests (d : Directory) (retain : ℕ) : List Digest :=
  (d.registry.values.filter fun r => r.releaseId ∈ protectedReleases d retain).map
    Record.slotDigest

/-- One round of the loop of `prune`. -/
def removeRelease (d : Directory) (kept : List Digest) (releaseId : ReleaseId) : M Unit := do
  write fun d' => { d' with generations := d'.generations.filter fun g => g.1 ≠ releaseId }
  match d.registry.get? releaseId with
  | none => pure ()
  | some record =>
      if record.slotDigest ∈ kept then
        pure ()
      else
        write fun d' => { d' with slots := d'.slots.erase record.slotDigest }

/-- The archives that the manifests of the registry's slots name. -/
def referencedArchives (d : Directory) (registry : Registry) : List Digest :=
  registry.values.filterMap fun record =>
    (d.slots.get? record.slotDigest).map fun slot => slot.manifest.runtimeArchive

/-- `_prune_interpreters`. -/
def pruneInterpreters (registry : Registry) : M Unit := do
  let d ← read
  let referenced := referencedArchives d registry
  write fun d => { d with interpreters := d.interpreters.filter fun a => a ∈ referenced }
  write fun d => { d with interpreterPins := d.interpreterPins.filter fun a => a ∈ referenced }

/-- `prune`. -/
def prune (retainCandidates : ℤ) : M (List ReleaseId) := do
  lift (require (0 ≤ retainCandidates) (.activation "candidate retention must be non-negative"))
  recoverActivation
  let d ← read
  let removed := removedReleases d retainCandidates.toNat
  each (removeRelease d (keptDigests d retainCandidates.toNat)) removed
  let registry := removed.foldl Dict.erase d.registry
  pruneInterpreters registry
  write fun d => { d with registry }
  pure removed

end Commands

/-! ## Runs -/

inductive Call
  | importRelease (request : ReleaseImport)
  | stage (releaseId : ReleaseId)
  | activate (releaseId : ReleaseId)
  | recoverActivation
  | rollback
  | pinAttempt (attemptId : Text) (expectedPin : Option AttemptPin)
  | finishAttempt (attemptId : Text) (pin : AttemptPin)
  | freeze
  | thaw
  | status
  | prune (retainCandidates : ℤ)

inductive Reply
  | slot (digest : Digest)
  | candidate (candidate : Pointer)
  | pin (pin : AttemptPin)
  | done
  | report (report : StatusReport)
  | removed (releases : List ReleaseId)

section Runs

variable (P : Platform)

def perform (readings : Readings) : Call → M Reply
  | .importRelease request => Reply.slot <$> importRelease P readings request
  | .stage releaseId => Reply.candidate <$> stage P readings releaseId
  | .activate releaseId => Reply.candidate <$> activate P readings releaseId
  | .recoverActivation => (fun _ => .done) <$> recoverActivation
  | .rollback => Reply.candidate <$> rollback P readings
  | .pinAttempt attemptId expectedPin => Reply.pin <$> pinAttempt P readings attemptId expectedPin
  | .finishAttempt attemptId pin => (fun _ => .done) <$> finishAttempt P readings attemptId pin
  | .freeze => (fun _ => .done) <$> setFrozen true
  | .thaw => (fun _ => .done) <$> setFrozen false
  | .status => Reply.report <$> status
  | .prune retainCandidates => Reply.removed <$> prune retainCandidates

/-- A command that ran to its end, or crashed after some of its steps. -/
structure Event where
  call : Call
  readings : Readings
  crash : Option ℕ

/-- The directory that an event leaves. -/
def after (d : Directory) (event : Event) : Directory :=
  match event.crash with
  | none => (perform P event.readings event.call d).final
  | some k => (perform P event.readings event.call d).crashed k

def Step (d : Directory) (event : Event) (d' : Directory) : Prop :=
  d' = after P d event

/-- The directory after events, the latest first. -/
def run (d : Directory) : List Event → Directory
  | [] => d
  | event :: earlier => after P (run d earlier) event

theorem history_run (d : Directory) (events : List Event) :
    History (Step P) d events (run P d events) := by
  induction events with
  | nil => exact .nil
  | cons event earlier ih => exact ih.cons rfl

end Runs

end Cortex.RuntimeUpdate
