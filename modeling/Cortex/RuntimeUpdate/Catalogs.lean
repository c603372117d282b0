import Cortex.Library.Trace
import Cortex.RuntimeUpdate.CrashAtomic

/-!
# The sequences of catalogs and of releases

`import_release` compares the sequence of its catalog with the high-water mark of the
manager file, writes the registry and only then the manager file.  A catalog whose import got
as far as the manager file is recorded, and no release comes from an older one after it.

A crash between the two writes leaves a release in the registry whose catalog the mark does
not know.  An older catalog, or another one of the same sequence, then passes the comparison
(`catalog_replayed`).  Where no such crash falls on a catalog that is new to the mark, the
catalogs of all releases that were put in the registry ascend.

`activate` compares the candidate with the active release, and what it leaves active is never
below what was active before the call.
-/

namespace Cortex.RuntimeUpdate

open Control Procedure Transaction

variable {P : Platform} {d s : Directory} {event : Event} {events earlier : List Event}
  {request : ReleaseImport} {readings : Readings} {catalog accepted : Catalog}

/-! ## How far an import got -/

/-- The durable steps that an event made. -/
def stepsMade (P : Platform) (d : Directory) (event : Event) : ℕ :=
  let steps := (perform P event.readings event.call d).passed.length
  match event.crash with
  | none => steps
  | some k => min k steps

/-- The registry write of `import_release`, counted from one: a new slot is written before it. -/
def registryWrite (d : Directory) (request : ReleaseImport) : ℕ :=
  match d.slots.get? request.manifest.artifactSha256 with
  | some _ => 1
  | none => 2

/-- The event put a release of this catalog in the registry. -/
def Puts (P : Platform) (d : Directory) (event : Event) (catalog : Catalog) : Prop :=
  ∃ request, event.call = .importRelease request ∧ request.catalog = catalog ∧
    registryWrite d request ≤ stepsMade P d event

/-- The same, and the manager file says so. -/
def Records (P : Platform) (d : Directory) (event : Event) (catalog : Catalog) : Prop :=
  ∃ request, event.call = .importRelease request ∧ request.catalog = catalog ∧
    registryWrite d request < stepsMade P d event

/-- The high-water mark is that of this catalog. -/
def Manager.Marks (manager : Manager) (P : Platform) (catalog : Catalog) : Prop :=
  manager.catalogSequence = catalog.sequence ∧ manager.catalogDigest = some (P.catalogDigest catalog)

/-- The event put a release in the registry and crashed before the manager file knew its
catalog. -/
def LosesMark (P : Platform) (d : Directory) (event : Event) : Prop :=
  ∃ catalog, Puts P d event catalog ∧ ¬ Records P d event catalog ∧ ¬ d.manager.Marks P catalog

/-- The replay checks of `import_release`. -/
structure Manager.Admits (manager : Manager) (P : Platform) (catalog : Catalog) : Prop where
  ascends : manager.catalogSequence ≤ catalog.sequence
  agrees : catalog.sequence = manager.catalogSequence →
    manager.catalogDigest = none ∨ manager.catalogDigest = some (P.catalogDigest catalog)

/-- The directory after the manager write of an import. -/
def marked (P : Platform) (catalog : Catalog) (d : Directory) : Directory :=
  { d with
    manager :=
      { d.manager with
        catalogSequence := catalog.sequence, catalogDigest := some (P.catalogDigest catalog) } }

/-- The slot of an import: the checks of a new one come before its step. -/
private theorem provideSlot_run (P : Platform) (readings : Readings) (release : Manifest)
    (d : Directory) :
    (∃ error, provideSlot P readings d release d = ⟨[], d, .error error⟩) ∨
      ∃ before s tree,
        before.length + 1 = (match d.slots.get? release.artifactSha256 with
          | some _ => 1
          | none => 2) ∧
        (∀ s' ∈ before, s'.manager = d.manager) ∧ s.manager = d.manager ∧
        provideSlot P readings d release d = ⟨before, s, .ok tree⟩ := by
  unfold provideSlot
  cases d.slots.get? release.artifactSha256 with
  | some slot => exact .inr ⟨[], d, slot.contentTree, rfl, nofun, rfl, rfl⟩
  | none =>
      cases hextracted : readings.extracted with
      | false => exact .inl ⟨_, rfl⟩
      | true =>
          cases hmodule : readings.moduleRefusal release with
          | some message => exact .inl ⟨.verification message, rfl⟩
          | none => exact .inr ⟨[d], { d with slots := d.slots.set ⟨release, P.contentTree release.artifactSha256⟩ },
            _, rfl, List.forall_mem_singleton.2 rfl, rfl, rfl⟩

/-- An import is refused before its first step, or it is admitted and goes through all of them. -/
theorem importRelease_run (P : Platform) (readings : Readings) (request : ReleaseImport)
    (d : Directory) :
    (∃ error, importRelease P readings request d = ⟨[], d, .error error⟩) ∨
      d.manager.Admits P request.catalog ∧
        ∃ before s registry, before.length + 1 = registryWrite d request ∧
          (∀ s' ∈ before, s'.manager = d.manager) ∧ s.manager = d.manager ∧
          importRelease P readings request d =
            ⟨before ++ [s, { s with registry }],
              marked P request.catalog { s with registry },
              .ok request.manifest.artifactSha256⟩ := by
  unfold importRelease
  cases hcheck : checkImport P readings request with
  | error error => exact .inl ⟨error, rfl⟩
  | ok _ =>
      rw [bind_run_ok d (lift_run d _), bind_run_ok d (read_run d)]
      by_cases hascends : d.manager.catalogSequence ≤ request.catalog.sequence
      case neg => exact .inl ⟨_, refuse_run d hascends⟩
      by_cases hagrees : ¬ (request.catalog.sequence = d.manager.catalogSequence ∧
          d.manager.catalogDigest ≠ none ∧
            d.manager.catalogDigest ≠ some (P.catalogDigest request.catalog))
      case neg =>
        rw [require_run d hascends]
        exact .inl ⟨_, refuse_run d hagrees⟩
      rw [require_run d hascends, require_run d hagrees]
      rcases provideSlot_run P readings request.manifest d with ⟨error, hrun⟩ |
        ⟨before, s, tree, hlength, hbefore, hmanager, hrun⟩
      · rw [bind_run_error d hrun]
        exact .inl ⟨error, rfl⟩
      · rw [bind_run_ok d hrun]
        refine .inr ⟨⟨hascends, ?_⟩, before, s, _, hlength, hbefore, hmanager, rfl⟩
        intro hsequence
        by_contra hdigest
        exact hagrees ⟨hsequence, not_or.1 hdigest⟩

/-! ## The other commands -/

/-- The high-water mark is the one of `d`. -/
def SameMark (d s : Directory) : Prop :=
  s.manager.catalogSequence = d.manager.catalogSequence ∧
    s.manager.catalogDigest = d.manager.catalogDigest

/-- What a step keeps that leaves the manager file alone and writes no journal. -/
def Indifferent (I : Directory → Prop) : Prop :=
  ∀ s s' : Directory, s'.manager = s.manager → s'.journal = s.journal ∨ s'.journal = none →
    I s → I s'

theorem indifferent_mark : Indifferent (SameMark d) := by
  intro s s' hmanager _ hs
  unfold SameMark
  rw [hmanager]
  exact hs

theorem indifferent_idle : Indifferent fun s => s.journal = none := by
  rintro s s' - (hjournal | hjournal) hs
  · exact hjournal.trans hs
  · exact hjournal

section Commands

variable {I : Directory → Prop} {releaseId : ReleaseId} (hI : Indifferent I)

include hI

private theorem Indifferent.write {f : Directory → Directory}
    (hmanager : ∀ s, (f s).manager = s.manager)
    (hjournal : ∀ s, (f s).journal = s.journal ∨ (f s).journal = none) :
    Keeps I (Procedure.write f : M Unit) :=
  .write fun s hs => hI s (f s) (hmanager s) (hjournal s) hs

private theorem Indifferent.provisionInterpreter (manifest : Manifest) :
    Keeps I (provisionInterpreter readings manifest) := by
  unfold RuntimeUpdate.provisionInterpreter
  refine .bind .read fun _ => ?_
  have hrest : Keeps I (do
      lift (require readings.archivePresent (.activation "release runtime archive is missing"))
      lift (require readings.interpreterExpanded
        (.activation "release interpreter could not be staged"))
      Procedure.write fun d => { d with interpreters := manifest.runtimeArchive :: d.interpreters }
      lift (require readings.interpreterMeasured
        (.activation "staged interpreter was not measured"))
      lift (interpreterContained readings)
      Procedure.write fun d =>
        { d with interpreterPins := manifest.runtimeArchive :: d.interpreterPins } : M Unit) := by
    refine .bind (.lift _) fun _ => .bind (.lift _) fun _ => ?_
    refine .bind (hI.write (fun _ => rfl) fun _ => .inl rfl) fun _ => .bind (.lift _) fun _ => ?_
    exact .bind (.lift _) fun _ => hI.write (fun _ => rfl) fun _ => .inl rfl
  split
  · exact .bind (.lift _) fun _ => .lift _
  · split
    · refine .bind (hI.write (fun _ => rfl) fun _ => .inl rfl) fun _ => ?_
      exact .bind (hI.write (fun _ => rfl) fun _ => .inl rfl) fun _ => hrest
    · exact hrest

private theorem Indifferent.stage : Keeps I (stage P readings releaseId) := by
  unfold RuntimeUpdate.stage
  refine .bind (.lift _) fun _ => .bind .read fun _ => ?_
  refine .bind (.lift _) fun record => .bind (.lift _) fun _ => .bind (.lift _) fun _ => ?_
  refine .bind (hI.write (fun _ => rfl) fun _ => .inl rfl) fun _ => ?_
  refine .bind (.lift _) fun candidate => .bind .read fun _ => .bind (.lift _) fun manifest => ?_
  refine .bind (.rescue ?_ fun error => ?_) fun _ => ?_
  · refine .bind (hI.provisionInterpreter manifest) fun _ => ?_
    exact .bind .read fun _ => .lift _
  · exact .bind (hI.write (fun _ => rfl) fun _ => .inl rfl) fun _ => .raise _
  · exact .bind (hI.write (fun _ => rfl) fun _ => .inl rfl) fun _ => .pure _

private theorem Indifferent.recoverActivation : Keeps I recoverActivation := by
  unfold RuntimeUpdate.recoverActivation
  refine .bind .read fun d' => ?_
  split
  · exact .pure _
  · refine .bind (hI.write (fun _ => rfl) fun _ => .inl rfl) fun _ => ?_
    dsimp only
    split
    · refine .bind (hI.write (fun _ => rfl) fun _ => .inl rfl) fun _ => ?_
      exact hI.write (fun _ => rfl) fun _ => .inr rfl
    · exact hI.write (fun _ => rfl) fun _ => .inr rfl

private theorem Indifferent.rollback : Keeps I (rollback P readings) := by
  unfold RuntimeUpdate.rollback
  refine .bind hI.recoverActivation fun _ => .bind .read fun d' => .bind (.lift _) fun pointer => ?_
  refine .bind (hI.write (fun _ => rfl) fun _ => .inl rfl) fun _ => .bind (hI.write (fun _ => rfl) fun _ => .inl rfl) fun _ => ?_
  exact .bind (hI.write (fun _ => rfl) fun _ => .inl rfl) fun _ => .pure _

private theorem Indifferent.pinAttempt (attemptId : Text) (expectedPin : Option AttemptPin) :
    Keeps I (pinAttempt P readings attemptId expectedPin) := by
  unfold RuntimeUpdate.pinAttempt
  refine .bind (.lift _) fun _ => .bind .read fun _ => .bind (.lift _) fun _ => ?_
  refine .bind (.lift _) fun _ => .bind (.lift _) fun _ => .bind (.lift _) fun _ => ?_
  exact .bind (.lift _) fun _ => .bind (hI.write (fun _ => rfl) fun _ => .inl rfl) fun _ => .pure _

private theorem Indifferent.finishAttempt (attemptId : Text) (pin : AttemptPin) :
    Keeps I (finishAttempt P readings attemptId pin) := by
  unfold RuntimeUpdate.finishAttempt
  refine .bind .read fun _ => .bind (.lift _) fun current => ?_
  split
  · exact .pure _
  · exact .bind (.lift _) fun _ => hI.write (fun _ => rfl) fun _ => .inl rfl

private theorem Indifferent.prune (retainCandidates : ℤ) :
    Keeps I (prune retainCandidates) := by
  unfold RuntimeUpdate.prune
  refine .bind (.lift _) fun _ => .bind hI.recoverActivation fun _ => .bind .read fun d' => ?_
  refine .bind (.each _ fun releaseId => ?_) fun _ => .bind ?_ fun _ => ?_
  · unfold removeRelease
    refine .bind (hI.write (fun _ => rfl) fun _ => .inl rfl) fun _ => ?_
    split
    · exact .pure _
    · split
      · exact .pure _
      · exact hI.write (fun _ => rfl) fun _ => .inl rfl
  · unfold pruneInterpreters
    refine .bind .read fun _ => .bind (hI.write (fun _ => rfl) fun _ => .inl rfl) fun _ => hI.write (fun _ => rfl) fun _ => .inl rfl
  · exact .bind (hI.write (fun _ => rfl) fun _ => .inl rfl) fun _ => .pure _

/-- Neither an import nor an activation, with the manager's switch apart. -/
theorem Indifferent.perform {call : Call}
    (hfrozen : ∀ s frozen, I s → I { s with manager := { s.manager with frozen } })
    (himport : ∀ request, call ≠ .importRelease request)
    (hactivate : ∀ releaseId, call ≠ .activate releaseId) :
    Keeps I (perform P readings call) := by
  cases call with
  | importRelease request => exact absurd rfl (himport request)
  | stage releaseId => exact hI.stage.map _
  | activate releaseId => exact absurd rfl (hactivate releaseId)
  | recoverActivation => exact hI.recoverActivation.map _
  | rollback => exact hI.rollback.map _
  | pinAttempt attemptId expectedPin => exact (hI.pinAttempt attemptId expectedPin).map _
  | finishAttempt attemptId pin => exact (hI.finishAttempt attemptId pin).map _
  | freeze => exact Keeps.map _ (.write fun s hs => hfrozen s true hs)
  | thaw => exact Keeps.map _ (.write fun s hs => hfrozen s false hs)
  | status =>
      refine Keeps.map _ (.bind hI.recoverActivation fun _ => ?_)
      exact .bind .read fun _ => .pure _
  | prune retainCandidates => exact (hI.prune retainCandidates).map _

end Commands

private theorem checkHealth_mark (n : ℕ) (message : String) :
    Keeps (SameMark d) (checkHealth readings n message) := by
  unfold checkHealth
  split
  · exact .pure _
  · exact .raise _
  · exact .raise _

private theorem switchActive_mark (d' : Directory) (candidate : Pointer) :
    Keeps (SameMark d) (switchActive readings d' candidate) := by
  unfold switchActive
  refine .rescue ?_ fun error => ?_
  · refine .bind (checkHealth_mark _ _) fun _ => .bind (.write fun _ hs => hs) fun _ => ?_
    refine .bind (.write fun _ hs => hs) fun _ => .bind (.write fun _ hs => hs) fun _ => ?_
    exact checkHealth_mark _ _
  · refine .bind (.write fun _ hs => hs) fun _ => .bind (.write fun _ hs => hs) fun _ => ?_
    exact .bind (.write fun _ hs => hs) fun _ => .raise _

private theorem activate_mark {releaseId : ReleaseId} :
    Keeps (SameMark d) (activate P readings releaseId) := by
  unfold activate
  refine .bind indifferent_mark.recoverActivation fun _ => .bind .read fun d' => ?_
  refine .bind (.lift _) fun admission => ?_
  split
  · exact .pure _
  · refine .bind (.write fun _ hs => hs) fun _ => .bind (switchActive_mark _ _) fun _ => ?_
    dsimp only
    split
    · refine .bind (.write fun _ hs => hs) fun _ => ?_
      exact .bind (.write fun _ hs => hs) fun _ => .pure _
    · refine .bind (.write fun _ hs => hs) fun _ => .bind (.write fun _ hs => hs) fun _ => ?_
      exact .bind (.write fun _ hs => hs) fun _ => .pure _

/-- A command that is no import keeps the mark at each of its steps. -/
theorem perform_mark {call : Call} (himport : ∀ request, call ≠ .importRelease request) :
    Keeps (SameMark d) (perform P readings call) := by
  by_cases hactivate : ∃ releaseId, call = .activate releaseId
  · obtain ⟨releaseId, rfl⟩ := hactivate
    exact activate_mark.map _
  · exact indifferent_mark.perform (fun _ _ hs => hs) himport (not_exists.1 hactivate)

/-! ## One event -/

theorem SameMark.of_manager (h : s.manager = d.manager) : SameMark d s :=
  ⟨congrArg Manager.catalogSequence h, congrArg Manager.catalogDigest h⟩

theorem registryWrite_pos (d : Directory) (request : ReleaseImport) :
    0 < registryWrite d request := by
  unfold registryWrite
  split
  · exact Nat.zero_lt_one
  · exact Nat.zero_lt_two

/-- An import stopped before the registry write, between the two writes, or was recorded. -/
theorem import_cases (readings : Readings) (crash : Option ℕ) :
    let event : Event := ⟨.importRelease request, readings, crash⟩
    stepsMade P d event < registryWrite d request ∧ SameMark d (after P d event) ∨
      d.manager.Admits P request.catalog ∧
        (crash ≠ none ∧ stepsMade P d event = registryWrite d request ∧
            SameMark d (after P d event) ∨
          registryWrite d request < stepsMade P d event ∧
            (after P d event).manager.Marks P request.catalog) := by
  intro event
  have hpassed : (perform P readings (.importRelease request) d).passed =
      (importRelease P readings request d).passed := (map_run d _ _).1
  have hfinal : (perform P readings (.importRelease request) d).final =
      (importRelease P readings request d).final := (map_run d _ _).2
  rcases importRelease_run P readings request d with ⟨error, hrun⟩ |
    ⟨hadmits, before, s, registry, hlength, hbefore, hmanager, hrun⟩
  · left
    rw [hrun] at hpassed hfinal
    cases crash with
    | none =>
        refine ⟨?_, .of_manager (congrArg Directory.manager hfinal)⟩
        rw [show stepsMade P d event = 0 from congrArg List.length hpassed]
        exact registryWrite_pos d request
    | some k =>
        refine ⟨?_, .of_manager ?_⟩
        · rw [show stepsMade P d event = min k 0 from congrArg (min k ·.length) hpassed, Nat.min_zero]
          exact registryWrite_pos d request
        · rw [show after P d event = d from
            (Outcome.crashed_of_le (hpassed ▸ Nat.zero_le k)).trans hfinal]
  · rw [hrun] at hpassed hfinal
    have hsteps : (perform P readings (.importRelease request) d).passed.length =
        registryWrite d request + 1 := by
      rw [hpassed, List.length_append, ← hlength]
      rfl
    cases crash with
    | none =>
        refine .inr ⟨hadmits, .inr ⟨?_, ?_⟩⟩
        · exact (Nat.lt_succ_self _).trans_eq hsteps.symm
        · rw [show after P d event = _ from hfinal]
          exact ⟨rfl, rfl⟩
    | some k =>
        have hmade : stepsMade P d event = min k (registryWrite d request + 1) :=
          congrArg (min k) hsteps
        have hafter : after P d event = Outcome.crashed (ε := RuntimeUpdateError)
            ⟨before ++ [s, { s with registry }], marked P request.catalog { s with registry },
              .ok ()⟩ k := by
          change (perform P readings (.importRelease request) d).crashed k = _
          unfold Outcome.crashed
          rw [hpassed, hfinal]
        rcases Nat.lt_or_ge k before.length with hk | hk
        · refine .inl ⟨by omega, .of_manager ?_⟩
          rw [hafter]
          exact hbefore _ (Outcome.crashed_before hk)
        · obtain ⟨i, rfl⟩ := Nat.exists_eq_add_of_le hk
          rw [Outcome.crashed_append] at hafter
          -- The steps from the registry write on: before it, after it, after the manager write.
          match i with
          | 0 => exact .inl ⟨by omega, .of_manager (hafter ▸ hmanager)⟩
          | 1 => exact .inr ⟨hadmits, .inl ⟨nofun, by omega, .of_manager (hafter ▸ hmanager)⟩⟩
          | i + 2 => exact .inr ⟨hadmits, .inr ⟨by omega, hafter ▸ ⟨rfl, rfl⟩⟩⟩

/-- An event leaves the mark, or moves it to a catalog that it admitted. -/
theorem after_mark (P : Platform) (d : Directory) (event : Event) :
    SameMark d (after P d event) ∨
      ∃ catalog, d.manager.Admits P catalog ∧ (after P d event).manager.Marks P catalog := by
  by_cases himport : ∃ request, event.call = .importRelease request
  · obtain ⟨request, hcall⟩ := himport
    obtain ⟨call, readings, crash⟩ := event
    cases hcall
    rcases import_cases readings crash with ⟨-, hsame⟩ | ⟨hadmits, ⟨-, -, hsame⟩ | ⟨-, hmarks⟩⟩
    · exact .inl hsame
    · exact .inl hsame
    · exact .inr ⟨_, hadmits, hmarks⟩
  · left
    exact (perform_mark (not_exists.1 himport)).left ⟨rfl, rfl⟩ (after_mem_left P d event)

theorem Puts.admits (h : Puts P d event catalog) : d.manager.Admits P catalog := by
  obtain ⟨call, readings, crash⟩ := event
  obtain ⟨request, hcall, rfl, hmade⟩ := h
  cases hcall
  rcases import_cases readings crash with ⟨hbefore, -⟩ | ⟨hadmits, -⟩
  · exact absurd hmade (Nat.not_le_of_lt hbefore)
  · exact hadmits

theorem Records.marks (h : Records P d event catalog) :
    (after P d event).manager.Marks P catalog := by
  obtain ⟨call, readings, crash⟩ := event
  obtain ⟨request, hcall, rfl, hmade⟩ := h
  cases hcall
  rcases import_cases readings crash with ⟨hbefore, -⟩ | ⟨-, ⟨-, heq, -⟩ | ⟨-, hmarks⟩⟩
  · exact absurd hbefore (Nat.lt_asymm hmade)
  · exact absurd hmade (heq ▸ Nat.lt_irrefl _)
  · exact hmarks

/-- A put catalog is marked, or the event lost its mark. -/
theorem Puts.marks (h : Puts P d event catalog) (hkept : ¬ LosesMark P d event) :
    (after P d event).manager.Marks P catalog := by
  by_cases hrecords : Records P d event catalog
  · exact hrecords.marks
  have hbefore : d.manager.Marks P catalog := by
    by_contra hother
    exact hkept ⟨catalog, h, hrecords, hother⟩
  obtain ⟨call, readings, crash⟩ := event
  obtain ⟨request, hcall, rfl, hmade⟩ := h
  cases hcall
  rcases import_cases readings crash with ⟨-, hsame⟩ | ⟨-, ⟨-, -, hsame⟩ | ⟨-, hmarks⟩⟩
  · exact ⟨hsame.1.trans hbefore.1, hsame.2.trans hbefore.2⟩
  · exact ⟨hsame.1.trans hbefore.1, hsame.2.trans hbefore.2⟩
  · exact hmarks

/-- Only a crash loses a mark. -/
theorem LosesMark.crashed (h : LosesMark P d event) : event.crash ≠ none := by
  obtain ⟨call, readings, crash⟩ := event
  obtain ⟨-, ⟨request, hcall, rfl, hmade⟩, hunrecorded, -⟩ := h
  cases hcall
  rcases import_cases readings crash with ⟨hbefore, -⟩ | ⟨-, ⟨hcrash, -⟩ | ⟨hafter, -⟩⟩
  · exact absurd hmade (Nat.not_le_of_lt hbefore)
  · exact hcrash
  · exact absurd ⟨request, rfl, rfl, hafter⟩ hunrecorded

/-! ## Runs -/

/-- The later catalog has no lower sequence, and another payload only with a higher one. -/
def Precedes (P : Platform) (accepted catalog : Catalog) : Prop :=
  accepted.sequence ≤ catalog.sequence ∧
    (accepted.sequence = catalog.sequence → P.catalogDigest accepted = P.catalogDigest catalog)

/-- Some event of the run accepted the catalog. -/
def Seen (P : Platform) (accepts : Directory → Event → Catalog → Prop) :
    List Event → Catalog → Prop
  | [], _ => False
  | event :: earlier, catalog =>
      accepts (run P .initial earlier) event catalog ∨ Seen P accepts earlier catalog

/-- Every release that was put in the registry came from a catalog that all the catalogs
accepted before it precede. -/
def Ascending (P : Platform) (accepts : Directory → Event → Catalog → Prop)
    (events : List Event) : Prop :=
  Along (fun event earlier => ∀ catalog, Puts P (run P .initial earlier) event catalog →
    ∀ accepted, Seen P accepts earlier accepted → Precedes P accepted catalog) events

/-- No activation leaves a release active that is below the one before the call. -/
def NeverDowngrades (P : Platform) (events : List Event) : Prop :=
  Along (fun event earlier => ∀ releaseId, event.call = .activate releaseId →
    ∀ old ∈ (run P .initial earlier).active,
      ∀ new ∈ (after P (run P .initial earlier) event).active,
        old.releaseSequence ≤ new.releaseSequence) events

/-- The mark is not below this catalog. -/
def Manager.Dominates (manager : Manager) (P : Platform) (accepted : Catalog) : Prop :=
  accepted.sequence ≤ manager.catalogSequence ∧
    (accepted.sequence = manager.catalogSequence →
      manager.catalogDigest = some (P.catalogDigest accepted))

theorem Manager.Dominates.precedes {manager : Manager} (h : manager.Dominates P accepted)
    (hadmits : manager.Admits P catalog) : Precedes P accepted catalog := by
  obtain ⟨hle, hdigest⟩ := h
  refine ⟨Int.le_trans hle hadmits.ascends, fun heq => ?_⟩
  have hmark : accepted.sequence = manager.catalogSequence :=
    Int.le_antisymm hle (heq ▸ hadmits.ascends)
  rcases hadmits.agrees (heq ▸ hmark) with hnone | hsome
  · rw [hdigest hmark] at hnone
    cases hnone
  · exact Option.some.inj ((hdigest hmark).symm.trans hsome)

theorem Manager.Marks.dominates {manager : Manager} (h : manager.Marks P catalog)
    (hprecedes : Precedes P accepted catalog) : manager.Dominates P accepted := by
  refine ⟨h.1 ▸ hprecedes.1, fun heq => ?_⟩
  rw [h.2, hprecedes.2 (heq.trans h.1)]

/-- The mark dominates every accepted catalog, if each was marked when it was accepted. -/
theorem dominates_of_marked {accepts : Directory → Event → Catalog → Prop}
    (h : Along (fun event earlier => ∀ catalog, accepts (run P .initial earlier) event catalog →
      (after P (run P .initial earlier) event).manager.Marks P catalog) events) :
    ∀ accepted, Seen P accepts events accepted →
      (run P .initial events).manager.Dominates P accepted := by
  induction events with
  | nil => exact fun _ hseen => hseen.elim
  | cons event earlier ih =>
      rintro accepted (haccepts | hseen)
      · exact (h.1 accepted haccepts).dominates ⟨Int.le_refl _, fun _ => rfl⟩
      · have hbefore := ih h.2 accepted hseen
        rcases after_mark P (run P .initial earlier) event with hsame | ⟨catalog, hadmits, hmarks⟩
        · exact ⟨hsame.1 ▸ hbefore.1, fun heq => hsame.2.trans (hbefore.2 (heq.trans hsame.1))⟩
        · exact hmarks.dominates (hbefore.precedes hadmits)

theorem ascending_of_marked {accepts : Directory → Event → Catalog → Prop}
    (h : Along (fun event earlier => ∀ catalog, accepts (run P .initial earlier) event catalog →
      (after P (run P .initial earlier) event).manager.Marks P catalog) events) :
    Ascending P accepts events := by
  induction events with
  | nil => trivial
  | cons event earlier ih =>
      refine ⟨fun catalog hputs accepted hseen => ?_, ih h.2⟩
      exact (dominates_of_marked h.2 accepted hseen).precedes hputs.admits

/-! ## Activations -/

/-- The event is no activation that crashed. -/
def WholeActivation (event : Event) : Prop :=
  ∀ releaseId, event.call = .activate releaseId → event.crash = none

theorem admitActivation_sequence {releaseId : ReleaseId} {candidate old : Pointer}
    (h : admitActivation P readings d releaseId = .ok (.admitted candidate))
    (hold : d.active = some old) : old.releaseSequence ≤ candidate.releaseSequence := by
  simp only [admitActivation, bind_eq_ok] at h
  obtain ⟨-, -, -, -, candidate', -, -, -, -, -, h⟩ := h
  rw [hold] at h
  dsimp only at h
  split at h
  · cases h
  · simp only [bind_eq_ok, require_eq_ok] at h
    obtain ⟨-, hsequence, h⟩ := h
    cases h
    exact hsequence

/-- Only a crashed activation leaves a journal. -/
theorem after_idle (hidle : d.journal = none) (hwhole : WholeActivation event) :
    (after P d event).journal = none := by
  obtain ⟨call, readings, crash⟩ := event
  by_cases hactivate : ∃ releaseId, call = .activate releaseId
  · obtain ⟨releaseId, rfl⟩ := hactivate
    obtain rfl : crash = none := hwhole releaseId rfl
    change ((perform P readings (.activate releaseId)) d).final.journal = none
    rw [perform, (map_run d _ _).2]
    rcases activate_final P readings releaseId d with hfinal | ⟨candidate, -, hfinal | hfinal⟩
    · rw [hfinal, recovered_noJournal]
    · rw [hfinal]
      rfl
    · rw [hfinal]
      rfl
  · by_cases himport : ∃ request, call = .importRelease request
    · obtain ⟨request, rfl⟩ := himport
      have hmem := after_mem_left P d ⟨.importRelease request, readings, crash⟩
      rw [perform, left_map] at hmem
      exact ((importRelease_quiet P readings request d (.refl d)).1 _ hmem).journal.trans hidle
    · have hkeeps : Keeps (fun s => s.journal = none) (perform P readings call) :=
        indifferent_idle.perform (fun _ _ hs => hs) (not_exists.1 himport) (not_exists.1 hactivate)
      exact hkeeps.left hidle (after_mem_left P d ⟨call, readings, crash⟩)

theorem run_idle (hwhole : ∀ event ∈ events, WholeActivation event) :
    (run P .initial events).journal = none := by
  induction events with
  | nil => rfl
  | cons event earlier ih =>
      exact after_idle (ih fun event hevent => hwhole event (.tail _ hevent)) (hwhole _ (.head _))

theorem activate_ascends {releaseId : ReleaseId} {old new : Pointer} (hidle : d.journal = none)
    (hold : d.active = some old)
    (hnew : (activate P readings releaseId d).final.active = some new) :
    old.releaseSequence ≤ new.releaseSequence := by
  have hkept : d.active = some new → old.releaseSequence ≤ new.releaseSequence := by
    intro hsame
    rw [hold] at hsame
    cases hsame
    exact Nat.le_refl _
  rcases activate_final P readings releaseId d with hfinal | ⟨candidate, hadmitted, hfinal⟩
  · rw [hfinal, recovered_idle hidle] at hnew
    exact hkept hnew
  · rw [recovered_idle hidle] at hadmitted hfinal
    rcases hfinal with hfinal | hfinal
    · rw [hfinal] at hnew
      exact hkept hnew
    · rw [hfinal] at hnew
      cases hnew
      exact admitActivation_sequence hadmitted hold

theorem never_downgrades (hwhole : ∀ event ∈ events, WholeActivation event) :
    NeverDowngrades P events := by
  induction events with
  | nil => trivial
  | cons event earlier ih =>
      have hearlier : ∀ event ∈ earlier, WholeActivation event :=
        fun event hevent => hwhole event (.tail _ hevent)
      refine ⟨fun releaseId hcall old hold new hnew => ?_, ih hearlier⟩
      obtain ⟨call, readings, crash⟩ := event
      cases hcall
      obtain rfl : crash = none := hwhole _ (.head _) releaseId rfl
      have hactive : (activate P readings releaseId (run P .initial earlier)).final.active =
          some new := by
        rw [← (map_run _ _ Reply.candidate).2]
        exact hnew
      exact activate_ascends (run_idle hearlier) hold hactive

/-- In every run whose activations do not crash, no release comes from a catalog that a
recorded one forbids and no activation downgrades; and where no crash loses a mark, every
catalog that put a release in the registry counts as accepted. -/
theorem catalogs_ascend {events : List Event} (hwhole : ∀ event ∈ events, WholeActivation event) :
    Ascending P (Records P) events ∧ NeverDowngrades P events ∧
      (Along (fun event earlier => ¬ LosesMark P (run P .initial earlier) event) events →
        Ascending P (Puts P) events) := by
  have hrecorded : ∀ events, Along (fun event earlier => ∀ catalog,
      Records P (run P .initial earlier) event catalog →
        (after P (run P .initial earlier) event).manager.Marks P catalog) events := by
    intro events
    induction events with
    | nil => trivial
    | cons event earlier ih => exact ⟨fun _ hrecords => hrecords.marks, ih⟩
  refine ⟨ascending_of_marked (hrecorded events), never_downgrades hwhole, fun hkept => ?_⟩
  exact ascending_of_marked (hkept.mono fun _ _ hkept _ hputs => hputs.marks hkept)

/-! ## A catalog that the mark does not know -/

/-- The import of a release from the second catalog crashes between its two writes. -/
def halfImported : List Event :=
  [⟨.importRelease (plainImport (plainManifest "b" "2" 2)), willing, some 2⟩]

/-- After it, a release comes from the first catalog. -/
def replayed : List Event :=
  ⟨.importRelease (plainImport (plainManifest "a" "1" 1)), willing, none⟩ :: halfImported

/-- After it, a release comes from another catalog of the same sequence. -/
def equivocated : List Event :=
  ⟨.importRelease (plainImport (plainManifest "a" "1" 2)), willing, none⟩ :: halfImported

private theorem puts_halfImported :
    Puts plainPlatform .initial ⟨.importRelease (plainImport (plainManifest "b" "2" 2)), willing,
      some 2⟩ (plainImport (plainManifest "b" "2" 2)).catalog :=
  ⟨_, rfl, rfl, by decide⟩

/-- Both releases are in the registry, the later from an older catalog, or from another of the
same sequence. -/
theorem catalog_replayed :
    (∀ event ∈ replayed ++ equivocated, event.crash ≠ none →
        ∃ request, event.call = .importRelease request) ∧
      (∀ releaseId ∈ [['a'], ['b']],
        ((run plainPlatform .initial replayed).registry.get? releaseId).isSome ∧
          ((run plainPlatform .initial equivocated).registry.get? releaseId).isSome) ∧
      ¬ Ascending plainPlatform (Puts plainPlatform) replayed ∧
      ¬ Ascending plainPlatform (Puts plainPlatform) equivocated := by
  refine ⟨?_, by decide, ?_, ?_⟩
  · intro event hevent _
    simp only [replayed, equivocated, halfImported, List.cons_append, List.nil_append,
      List.mem_cons, List.not_mem_nil, or_false] at hevent
    rcases hevent with rfl | rfl | rfl | rfl
    · exact ⟨_, rfl⟩
    · exact ⟨_, rfl⟩
    · exact ⟨_, rfl⟩
    · exact ⟨_, rfl⟩
  · rintro ⟨hputs, -⟩
    have hlater := hputs _ ⟨_, rfl, rfl, by decide⟩ _ (.inl puts_halfImported)
    exact absurd hlater.1 (by decide)
  · rintro ⟨hputs, -⟩
    have hlater := hputs _ ⟨_, rfl, rfl, by decide⟩ _ (.inl puts_halfImported)
    exact absurd (hlater.2 rfl) (by decide)

/-- The second release is imported again, and the crash between the two writes loses no mark. -/
def againImported : List Event :=
  ⟨.importRelease (plainImport (plainManifest "b" "2" 2)), willing, some 1⟩ :: twoInstalled

private theorem kept_againImported :
    Along (fun event earlier => ¬ LosesMark plainPlatform (run plainPlatform .initial earlier) event)
      againImported := by
  refine ⟨?_, ?_⟩
  · rintro ⟨catalog, ⟨request, hcall, rfl, -⟩, -, hunmarked⟩
    cases hcall
    exact hunmarked ⟨by decide, by decide⟩
  · exact ⟨fun h => h.crashed rfl, fun h => h.crashed rfl, fun h => h.crashed rfl,
      fun h => h.crashed rfl, fun h => h.crashed rfl, fun h => h.crashed rfl, trivial⟩

theorem catalogs_ascend_againImported :
    NeverDowngrades plainPlatform againImported ∧
      Ascending plainPlatform (Puts plainPlatform) againImported := by
  have hwhole : ∀ event ∈ againImported, WholeActivation event := by
    rintro event (_ | ⟨_, hevent⟩) releaseId hcall
    · cases hcall
    · have hcrash : twoInstalled.all (fun event => event.crash.isNone) = true := by decide
      exact Option.isNone_iff_eq_none.1 (List.all_eq_true.1 hcrash _ hevent)
  obtain ⟨-, hnever, hascending⟩ := catalogs_ascend hwhole
  exact ⟨hnever, hascending kept_againImported⟩

end Cortex.RuntimeUpdate
