import Cortex.Artifacts.Effects

/-!
# The artifact history is append-only and fenced

Over every sequence of commands: the versions of an artifact are numbered without
a gap, a version is committed by one completion and never changes afterwards, and
the head was moved once from each of its revisions.
-/

namespace Cortex.Artifacts

open Control Time Transaction

variable {Digest : Type} [DecidableEq Digest] {platform : Platform Digest}
  {requestHash : Request → Digest}

/-- What is on record stays as it is: requests, committed versions, completed actions and
snapshots. -/
structure Preserved (w w' : World Digest) : Prop where
  versions : ∀ v ∈ w.tables.versions, ∃ v' ∈ w'.tables.versions, VersionKept v v'
  actions : ∀ a ∈ w.tables.actions, ∃ a' ∈ w'.tables.actions, ActionKept a a'
  snapshots : ∀ s ∈ w.tables.snapshots, s ∈ w'.tables.snapshots
  requests : ∀ r ∈ w.requests, r ∈ w'.requests

section Preserved

omit [DecidableEq Digest]

variable {w m w' : World Digest}

theorem Preserved.refl (w : World Digest) : Preserved w w :=
  ⟨fun v hv => ⟨v, hv, .refl v⟩, fun a ha => ⟨a, ha, .refl a⟩, fun _ hs => hs, fun _ hr => hr⟩

theorem Preserved.committed (h : Preserved w w') {v : Version} (hv : v ∈ w.tables.versions)
    (hstate : v.state = .committed) : v ∈ w'.tables.versions := by
  obtain ⟨v', hv', hkept⟩ := h.versions v hv
  exact hkept.committed hstate ▸ hv'

theorem Preserved.completed (h : Preserved w w') {a : Action Digest} (ha : a ∈ w.tables.actions)
    (hstate : a.state = .completed) : a ∈ w'.tables.actions := by
  obtain ⟨a', ha', hkept⟩ := h.actions a ha
  exact hkept.completed hstate ▸ ha'

private theorem Changed.preserved {f : Version → Version} {g : Action Digest → Action Digest}
    (h : Changed w w' f g) : Preserved w w' where
  versions v hv := ⟨f v, h.versions.kept hv⟩
  actions a ha := ⟨g a, h.actions.kept ha⟩
  snapshots s hs := by rw [h.snapshots]; exact hs
  requests r hr := by rw [h.requests]; exact hr

/-- A command that changes rows in place keeps the invariant and the record. -/
theorem Kept.step (hk : Kept w) (h : (∃ f g, Changed w w' f g) ∧ Heads w w') :
    Kept w' ∧ Preserved w w' := by
  obtain ⟨⟨f, g, hchanged⟩, hheads⟩ := h
  exact ⟨hk.changed hchanged hheads, hchanged.preserved⟩

end Preserved

variable {s s' : Store Digest}

/-- What one committed command keeps. -/
private theorem execCall_kept {call : Call} {caller : Caller} {readings : Readings}
    {result : CommandResult (Response Digest)} (hk : Kept s.tables)
    (h : execCall platform requestHash s call caller readings = .ok (s', result)) :
    Kept s'.tables ∧ Preserved s.tables s'.tables := by
  -- A replayed command changes nothing, so only the bodies are to be looked at.
  have hcommand : ∀ {operation : Operation} {request : Request} {statusCode : ℕ} {now : Civil}
      {body : Except StoreError (World Digest × Response Digest)},
      command requestHash s caller operation request statusCode now body = .ok (s', result) →
      (∀ w' response, body = .ok (w', response) → Kept w' ∧ Preserved s.tables w') →
      Kept s'.tables ∧ Preserved s.tables s'.tables := by
    intro operation request statusCode now body hrun hbody
    rcases command_eq_ok hrun with ⟨-, rfl⟩ | ⟨-, -, heq⟩
    · exact ⟨hk, .refl _⟩
    · exact hbody _ _ heq
  cases call with
  | createArtifact workspaceId threadId runId attemptId kind title =>
      simp only [execCall, bind_eq_ok] at h
      obtain ⟨_, -, _, -, h⟩ := h
      refine hcommand h fun w' response hbody => ?_
      simp only [bind_eq_ok, pure_eq_ok, Prod.mk.injEq] at hbody
      obtain ⟨⟨w₁, row⟩, hbody, rfl, -⟩ := hbody
      obtain ⟨hkept, hversions, hactions, hsnapshots, hrequests⟩ := hk.createArtifact hbody
      refine ⟨hkept, ?_, ?_, ?_, ?_⟩
      · rw [hversions]
        exact fun v hv => ⟨v, hv, .refl v⟩
      · rw [hactions]
        exact fun a ha => ⟨a, ha, .refl a⟩
      · rw [hsnapshots]
        exact fun _ hs => hs
      · rw [hrequests]
        exact fun _ hr => hr
  | requestVersion request =>
      simp only [execCall, bind_eq_ok] at h
      obtain ⟨_, -, _, -, h⟩ := h
      refine hcommand h fun w' response hbody => ?_
      simp only [bind_eq_ok, pure_eq_ok, Prod.mk.injEq] at hbody
      obtain ⟨⟨w₁, version, action⟩, hbody, rfl, -⟩ := hbody
      obtain ⟨hkept, hversions, hactions, hsnapshots, hrequests⟩ := hk.requestVersion hbody
      refine ⟨hkept, fun v hv => ⟨v, hversions v hv, .refl v⟩,
        fun a ha => ⟨a, hactions a ha, .refl a⟩, ?_, ?_⟩
      · rw [hsnapshots]
        exact fun _ hs => hs
      · rw [hrequests]
        exact fun _ hr => .tail _ hr
  | claim actionId workerId leaseSeconds =>
      simp only [execCall, bind_eq_ok] at h
      obtain ⟨_, -, _, -, h⟩ := h
      refine hcommand h fun w' response hbody => ?_
      simp only [bind_eq_ok, pure_eq_ok, Prod.mk.injEq] at hbody
      obtain ⟨⟨w₁, action⟩, hbody, rfl, -⟩ := hbody
      obtain ⟨⟨g, hchanged⟩, hheads⟩ := claimMaterialization_changed hk hbody
      exact hk.step ⟨⟨id, g, hchanged⟩, hheads⟩
  | complete actionId workerId claimEpoch result =>
      simp only [execCall, bind_eq_ok] at h
      obtain ⟨_, -, _, -, h⟩ := h
      refine hcommand h fun w' response hbody => ?_
      simp only [bind_eq_ok, pure_eq_ok, Prod.mk.injEq] at hbody
      obtain ⟨⟨w₁, version, action⟩, hbody, rfl, -⟩ := hbody
      exact hk.step (completeMaterialization_changed hk hbody)
  | fail actionId workerId claimEpoch failureCategory =>
      simp only [execCall, bind_eq_ok] at h
      obtain ⟨_, -, _, -, h⟩ := h
      refine hcommand h fun w' response hbody => ?_
      simp only [bind_eq_ok, pure_eq_ok, Prod.mk.injEq] at hbody
      obtain ⟨⟨w₁, action⟩, hbody, rfl, -⟩ := hbody
      exact hk.step (failMaterialization_changed hk hbody)
  | retry actionId =>
      simp only [execCall] at h
      refine hcommand h fun w' response hbody => ?_
      simp only [bind_eq_ok, pure_eq_ok, Prod.mk.injEq] at hbody
      obtain ⟨⟨w₁, action⟩, hbody, rfl, -⟩ := hbody
      exact hk.step (retryMaterialization_changed hk hbody)
  | advanceHead artifactId versionId expectedHeadRevision runId attemptId =>
      simp only [execCall, bind_eq_ok] at h
      obtain ⟨_, -, h⟩ := h
      refine hcommand h fun w' response hbody => ?_
      simp only [bind_eq_ok, pure_eq_ok, Prod.mk.injEq] at hbody
      obtain ⟨⟨w₁, row⟩, hbody, rfl, -⟩ := hbody
      obtain ⟨hchanged, hheads⟩ := advanceHead_changed hbody
      exact hk.step ⟨⟨id, id, hchanged⟩, hheads⟩
  | createSnapshot workspaceId runId attemptId name versionIds =>
      simp only [execCall, bind_eq_ok] at h
      obtain ⟨_, -, _, -, h⟩ := h
      refine hcommand h fun w' response hbody => ?_
      simp only [bind_eq_ok, pure_eq_ok, Prod.mk.injEq] at hbody
      obtain ⟨⟨w₁, row⟩, hbody, rfl, -⟩ := hbody
      obtain ⟨hkept, hversions, hactions, hsnapshots, hrequests⟩ := hk.createSnapshot hbody
      refine ⟨hkept, ?_, ?_, hsnapshots, ?_⟩
      · rw [hversions]
        exact fun v hv => ⟨v, hv, .refl v⟩
      · rw [hactions]
        exact fun a ha => ⟨a, ha, .refl a⟩
      · rw [hrequests]
        exact fun _ hr => hr

/-- What one committed event keeps. -/
theorem Step.kept {event : Event × Option (CommandResult (Response Digest))} (hk : Kept s.tables)
    (h : Step platform requestHash s event s') :
    Kept s'.tables ∧ Preserved s.tables s'.tables := by
  obtain ⟨event, reply⟩ := event
  cases event with
  | command call caller readings =>
      simp only [Step, Commits, exec, bind_eq_ok, pure_eq_ok, Prod.mk.injEq] at h
      obtain ⟨⟨s₁, result⟩, hcall, rfl, -⟩ := h
      exact execCall_kept hk hcall
  | fenceRun runId settledAt =>
      simp only [Step, Commits, exec, pure_eq_ok, Prod.mk.injEq] at h
      obtain ⟨rfl, -⟩ := h
      exact hk.step (fenceMaterializations_changed hk)
  | fenceAttempt runId attemptId settledAt =>
      simp only [Step, Commits, exec, pure_eq_ok, Prod.mk.injEq] at h
      obtain ⟨rfl, -⟩ := h
      exact hk.step (fenceMaterializations_changed hk)

/-- The store without artifacts. -/
def start : Store Digest where
  tables :=
    { tables := { artifacts := .empty, versions := .empty, actions := .empty, snapshots := .empty }
      requests := []
      claims := []
      completions := []
      advances := [] }
  receipts := .empty

omit [DecidableEq Digest] in
private theorem start_kept : Kept (start : Store Digest).tables := by
  constructor <;> simp [start, World.versionsOf, Table.empty, Table.mem_def]

variable {events later earlier : List (Event × Option (CommandResult (Response Digest)))}

theorem kept_of_history (h : History (Step platform requestHash) start events s) :
    Kept s.tables :=
  h.invariant (P := fun s => Kept s.tables) start_kept fun hk hstep => (Step.kept hk hstep).1

/-! ## The history of the artifacts -/

/-- What an artifact's history looks like at any time. -/
structure AppendOnly (w : World Digest) : Prop where
  /-- The logical versions of an artifact are 1, 2, …, in the order of their requests. -/
  numbered : ∀ artifactId, (w.versionsOf artifactId).map Version.logicalVersion =
    List.range' 1 (w.versionsOf artifactId).length
  /-- A version is committed exactly when its one action is completed. -/
  committed : ∀ v ∈ w.tables.versions, ∃ a ∈ w.tables.actions, a.versionId = v.id ∧
    (∀ b ∈ w.tables.actions, b.versionId = v.id → b = a) ∧
    (v.state = .committed ↔ a.state = .completed)
  /-- A version is what was requested, and what was written for it is too. -/
  requested : ∀ v ∈ w.tables.versions, (∃ r ∈ w.requests, r.1 = v.id) ∧
    ∀ r ∈ w.requests, r.1 = v.id → Matches v r.2 ∧
      (v.state = .committed → ∃ a ∈ w.tables.actions, a.versionId = v.id ∧
        ∃ result, a.result = some result ∧ result.request.sha256 = r.2.sha256 ∧
          result.request.byteLength = r.2.byteLength.toNat ∧
          result.request.mediaType = r.2.mediaType ∧ result.request.parents = r.2.parents)
  /-- A version is committed by one completion, of the holder of the latest claim. -/
  completed : ∀ v ∈ w.tables.versions,
    (v.state = .committed ↔ ∃ c ∈ w.completions, c.versionId = v.id)
  oneCompletion : (w.completions.map Completion.versionId).Nodup
  latestClaim : ∀ c ∈ w.completions, c.claim ∈ w.claims ∧
    ∀ d ∈ w.claims, d.actionId = c.claim.actionId → d = c.claim ∨ d.epoch < c.claim.epoch
  /-- The head is committed, and was moved once from each earlier revision. -/
  head : ∀ a ∈ w.tables.artifacts, ∀ versionId, a.headVersionId = some versionId →
    IsCommitted w a.id versionId
  headRevision : ∀ a ∈ w.tables.artifacts, a.headRevision = (w.advancesOf a.id).length ∧
    (w.advancesOf a.id).map Advance.expectedRevision = (List.range a.headRevision).reverse
  parents : ∀ v ∈ w.tables.versions, ∀ p ∈ v.parents, ParentKept w p
  members : ∀ s ∈ w.tables.snapshots, ∀ m ∈ s.members, MemberKept w m

omit [DecidableEq Digest] in
private theorem Kept.appendOnly {w : World Digest} (hk : Kept w) : AppendOnly w where
  numbered := hk.numbered
  committed := by
    intro v hv
    obtain ⟨a, ha, hid⟩ := hk.actionOf v hv
    refine ⟨a, ha, hid, fun b hb hbid => ?_, (hk.linked a ha v hv hid.symm).completed⟩
    exact hk.eq_of_version hb ha (hbid.trans hid.symm)
  requested := by
    intro v hv
    refine ⟨hk.requested v hv, fun r hr hrid => ?_⟩
    obtain ⟨v', hv', hid, hmatches⟩ := hk.requests r hr
    obtain rfl : v' = v := Table.eq_of_key hv' hv (hid.trans hrid)
    refine ⟨hmatches, fun hstate => ?_⟩
    obtain ⟨a, ha, haid⟩ := hk.actionOf v' hv
    have hlinked := hk.linked a ha v' hv haid.symm
    obtain ⟨result, hresult, hrequest⟩ := hlinked.result (hlinked.completed.1 hstate)
    obtain ⟨-, hsha, hlength, hmedia⟩ := hlinked.request
    refine ⟨a, ha, haid, result, hresult, ?_, ?_, ?_, ?_⟩
    · rw [hrequest]
      exact hsha.trans hmatches.sha256
    · rw [hrequest]
      exact hlength.trans hmatches.byteLength
    · rw [hrequest]
      exact hmedia.trans hmatches.mediaType
    · rw [hrequest]
      exact hmatches.parents
  completed := by
    intro v hv
    obtain ⟨a, ha, hid⟩ := hk.actionOf v hv
    have hclaims := hk.claimsOf a ha
    rw [(hk.linked a ha v hv hid.symm).completed, hclaims.completed]
    constructor
    · rintro ⟨c, hc, hcid⟩
      exact ⟨c, hc, ((hclaims.completion c hc hcid).1).trans hid⟩
    · rintro ⟨c, hc, hcv⟩
      obtain ⟨b, hb, hbid⟩ := hk.completed c hc
      have hversion := ((hk.claimsOf b hb).completion c hc hbid.symm).1
      obtain rfl := hk.eq_of_version hb ha (hversion.symm.trans (hcv.trans hid.symm))
      exact ⟨c, hc, hbid.symm⟩
  oneCompletion := hk.oneCompletion
  latestClaim := by
    intro c hc
    obtain ⟨a, ha, haid⟩ := hk.completed c hc
    have hclaims := hk.claimsOf a ha
    obtain ⟨-, hepoch, hmem⟩ := hclaims.completion c hc haid.symm
    refine ⟨hmem, fun d hd hdid => ?_⟩
    have hle := hclaims.latest d hd (hdid.trans haid.symm)
    rcases hle.lt_or_eq with hlt | heq
    · exact .inr (hepoch ▸ hlt)
    · left
      refine List.inj_on_of_nodup_map hk.oneHolder hd hmem ?_
      rw [hdid, heq, hepoch]
  head := by
    intro a ha versionId hhead
    rw [(hk.heads a ha).head, Option.map_eq_some_iff] at hhead
    obtain ⟨advance, hadvance, rfl⟩ := hhead
    obtain ⟨hmem, hid⟩ := List.mem_filter.1 (List.mem_of_mem_head? hadvance)
    simp only [decide_eq_true_eq] at hid
    exact hid ▸ hk.advanced advance hmem
  headRevision := by
    intro a ha
    have hadvances := (hk.heads a ha).advances
    refine ⟨?_, hadvances⟩
    have hlength := congrArg List.length hadvances
    simpa using hlength.symm
  parents := hk.parents
  members := hk.members

/-- In every run, the history of the artifacts is as `AppendOnly` says, and from any state on the
committed rows stay as they are. -/
theorem append_only (hearlier : History (Step platform requestHash) start earlier s)
    (hlater : History (Step platform requestHash) s later s') :
    AppendOnly s'.tables ∧
      (∀ v ∈ s.tables.tables.versions, v.state = .committed → v ∈ s'.tables.tables.versions) ∧
      (∀ a ∈ s.tables.tables.actions, a.state = .completed → a ∈ s'.tables.tables.actions) ∧
      (∀ sn ∈ s.tables.tables.snapshots, sn ∈ s'.tables.tables.snapshots) := by
  have hk := kept_of_history hearlier
  have hk' : Kept s'.tables := hlater.invariant (P := fun t => Kept t.tables) hk
    fun hk hstep => (Step.kept hk hstep).1
  refine ⟨hk'.appendOnly, ?_, ?_, ?_⟩
  · intro v hv hstate
    refine (hlater.invariant (P := fun t => Kept t.tables ∧ v ∈ t.tables.tables.versions)
      ⟨hk, hv⟩ ?_).2
    rintro t event t' ⟨hkt, hmem⟩ hstep
    exact ⟨(Step.kept hkt hstep).1, (Step.kept hkt hstep).2.committed hmem hstate⟩
  · intro a ha hstate
    refine (hlater.invariant (P := fun t => Kept t.tables ∧ a ∈ t.tables.tables.actions)
      ⟨hk, ha⟩ ?_).2
    rintro t event t' ⟨hkt, hmem⟩ hstep
    exact ⟨(Step.kept hkt hstep).1, (Step.kept hkt hstep).2.completed hmem hstate⟩
  · intro sn hsn
    refine (hlater.invariant (P := fun t => Kept t.tables ∧ sn ∈ t.tables.tables.snapshots)
      ⟨hk, hsn⟩ ?_).2
    rintro t event t' ⟨hkt, hmem⟩ hstep
    exact ⟨(Step.kept hkt hstep).1, (Step.kept hkt hstep).2.snapshots sn hmem⟩

/-! ### A first version -/

/-- Hashes that keep what they are of. -/
abbrev Hashed := Request ⊕ MaterializationRequest

def plainPlatform : Platform Hashed where
  isNfc _ := true
  isOther _ := false
  casefold := id
  materializationHash := .inr

/-- Noon of a day in May 2026. -/
def noon : Civil where
  year := 2026
  month := 5
  day := 1
  hour := 12
  minute := 0
  second := 0
  microsecond := 0
  validDate := by decide
  validTime := Civil.validTime_noon

/-- One active run of one thread, whose sources are ready. -/
def oneRun (newId : ℕ) : Readings where
  clock _ := noon
  newId n := newId + n
  run id := if id = 1 then some ⟨1, some 1, "running", true⟩ else none
  attempt id := if id = 1 then some ⟨1, "running", true⟩ else none
  thread id := if id = 1 then some ⟨1, some 1⟩ else none
  isWorkspace id := id = 1
  sources _ _ _ := .ok ()
  documents _ := .ok ⟨[], []⟩

def worker (key : String) : Caller := ⟨"worker".toList, key.toList⟩

def draft : VersionRequest where
  artifactId := 10
  logicalVersion := 1
  runId := 1
  attemptId := 1
  sourceIds := ["s1".toList]
  researchEngineRefs := []
  generator := ⟨"g".toList, "1".toList⟩
  tool := ⟨"t".toList, "1".toList⟩
  parents := []
  rootId := "root".toList
  relativePath := "a.md".toList
  sha256 := List.replicate 64 'a'
  byteLength := 5
  mediaType := "text/plain".toList
  advanceHead := true
  expectedHeadRevision := some 0

/-- A version is requested, claimed and completed, the latest first. -/
def firstVersion : List Event :=
  [.command (.complete 21 "w".toList 1 ⟨draft.materialization 20, false, none⟩)
      (worker "key-complete-000") (oneRun 40),
    .command (.claim 21 "w".toList 60) (worker "key-claim-000000") (oneRun 30),
    .command (.requestVersion draft) (worker "key-request-0000") (oneRun 20),
    .command (.createArtifact 1 1 1 1 "note".toList "Notes".toList) (worker "key-create-00000")
      (oneRun 10)]

def storeAfter (events : List Event) : Store Hashed :=
  (runCalls (exec plainPlatform Sum.inl) start events).2

set_option maxRecDepth 8000 in
theorem append_only_firstVersion :
    (storeAfter firstVersion).tables.tables.versions.rows.map Version.state = [.committed] ∧
      (storeAfter firstVersion).tables.tables.artifacts.rows.map Artifact.headVersionId =
        [some 20] ∧
      AppendOnly (storeAfter firstVersion).tables :=
  ⟨by decide +kernel, by decide +kernel,
    (append_only (history_runCalls (exec plainPlatform Sum.inl) start firstVersion) .nil).1⟩

end Cortex.Artifacts
