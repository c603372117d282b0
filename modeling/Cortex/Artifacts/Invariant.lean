import Cortex.Artifacts.Commands

/-!
# What holds of artifacts, versions and actions together

`Kept` collects what every committed command keeps.  `Changed` is the shape of all
commands that add no row: versions and actions are changed in place, a version
keeps what was requested of it, and a committed version and a completed action
stay as they are.
-/

namespace Cortex.Artifacts

open Control Time Transaction

variable {Digest : Type}

/-! ## The invariant -/

/-- The version is what was requested. -/
structure Matches (v : Version) (r : VersionRequest) : Prop where
  artifactId : v.artifactId = r.artifactId
  logicalVersion : (v.logicalVersion : ℤ) = r.logicalVersion
  sha256 : v.sha256 = r.sha256
  byteLength : v.byteLength = r.byteLength.toNat
  mediaType : v.mediaType = r.mediaType
  parents : v.parents = r.parents

/-- The states of a version and of its action belong together. -/
structure Linked (a : Action Digest) (v : Version) : Prop where
  completed : v.state = .committed ↔ a.state = .completed
  failed : v.state = .failed ↔ a.state = .failed
  result : a.state = .completed → ∃ result, a.result = some result ∧ result.request = a.request v
  request : a.operationId = v.id ∧ a.sha256 = v.sha256 ∧ a.byteLength = v.byteLength ∧
    a.mediaType = v.mediaType

/-- The claims and completions of an action are those of its columns. -/
structure ClaimsKept (w : World Digest) (a : Action Digest) : Prop where
  latest : ∀ c ∈ w.claims, c.actionId = a.id → c.epoch ≤ a.claimEpoch
  holder : ∀ owner, a.claimOwner = some owner → ⟨a.id, owner, a.claimEpoch⟩ ∈ w.claims
  claimed : a.state = .claimed ↔ a.claimOwner.isSome = true
  -- `materialized` is passed through within the transaction of a completion.
  settled : a.state ≠ .materialized
  completed : a.state = .completed ↔ ∃ c ∈ w.completions, c.claim.actionId = a.id
  completion : ∀ c ∈ w.completions, c.claim.actionId = a.id →
    c.versionId = a.versionId ∧ c.claim.epoch = a.claimEpoch ∧ c.claim ∈ w.claims

/-- The versions of an artifact, in the order of their requests. -/
def World.versionsOf (w : World Digest) (artifactId : ℕ) : List Version :=
  w.tables.versions.rows.filter fun v => v.artifactId = artifactId

/-- The head advances of an artifact, the latest first. -/
def World.advancesOf (w : World Digest) (artifactId : ℕ) : List Advance :=
  w.advances.filter fun a => a.artifactId = artifactId

/-- A committed version of an artifact. -/
def IsCommitted (w : World Digest) (artifactId versionId : ℕ) : Prop :=
  ∃ v ∈ w.tables.versions, v.id = versionId ∧ v.artifactId = artifactId ∧ v.state = .committed

/-- The head of an artifact was moved from every earlier revision in turn. -/
structure HeadKept (w : World Digest) (a : Artifact) : Prop where
  advances : (w.advancesOf a.id).map Advance.expectedRevision = (List.range a.headRevision).reverse
  head : a.headVersionId = (w.advancesOf a.id).head?.map Advance.versionId

/-- A parent is committed, with the hash that was expected of it. -/
def ParentKept (w : World Digest) (p : ParentInput) : Prop :=
  ∃ v ∈ w.tables.versions, v.id = p.versionId ∧ v.state = .committed ∧ v.sha256 = p.sha256

/-- A member of a snapshot is a committed version. -/
def MemberKept (w : World Digest) (m : SnapshotMember) : Prop :=
  ∃ v ∈ w.tables.versions, v.id = m.versionId ∧ v.artifactId = m.artifactId ∧
    v.state = .committed ∧ v.logicalVersion = m.logicalVersion ∧ v.sha256 = m.sha256

structure Kept (w : World Digest) : Prop where
  numbered : ∀ artifactId, (w.versionsOf artifactId).map Version.logicalVersion =
    List.range' 1 (w.versionsOf artifactId).length
  actionOf : ∀ v ∈ w.tables.versions, ∃ a ∈ w.tables.actions, a.versionId = v.id
  versionOf : ∀ a ∈ w.tables.actions, ∃ v ∈ w.tables.versions, v.id = a.versionId
  oneAction : (w.tables.actions.rows.map Action.versionId).Nodup
  linked : ∀ a ∈ w.tables.actions, ∀ v ∈ w.tables.versions, v.id = a.versionId → Linked a v
  requested : ∀ v ∈ w.tables.versions, ∃ r ∈ w.requests, r.1 = v.id
  requests : ∀ r ∈ w.requests, ∃ v ∈ w.tables.versions, v.id = r.1 ∧ Matches v r.2
  claimsOf : ∀ a ∈ w.tables.actions, ClaimsKept w a
  claimed : ∀ c ∈ w.claims, ∃ a ∈ w.tables.actions, a.id = c.actionId
  oneHolder : (w.claims.map fun c => (c.actionId, c.epoch)).Nodup
  completed : ∀ c ∈ w.completions, ∃ a ∈ w.tables.actions, a.id = c.claim.actionId
  oneCompletion : (w.completions.map Completion.versionId).Nodup
  heads : ∀ a ∈ w.tables.artifacts, HeadKept w a
  advanced : ∀ a ∈ w.advances, IsCommitted w a.artifactId a.versionId
  owned : ∀ a ∈ w.advances, ∃ artifact ∈ w.tables.artifacts, artifact.id = a.artifactId
  parents : ∀ v ∈ w.tables.versions, ∀ p ∈ v.parents, ParentKept w p
  members : ∀ s ∈ w.tables.snapshots, ∀ m ∈ s.members, MemberKept w m

/-! ## Changes in place -/

/-- A version keeps what was requested of it, and altogether once it is committed. -/
structure VersionKept (v v' : Version) : Prop where
  id : v'.id = v.id
  artifactId : v'.artifactId = v.artifactId
  logicalVersion : v'.logicalVersion = v.logicalVersion
  sha256 : v'.sha256 = v.sha256
  byteLength : v'.byteLength = v.byteLength
  mediaType : v'.mediaType = v.mediaType
  parents : v'.parents = v.parents
  committed : v.state = .committed → v' = v

/-- An action keeps its request, and altogether once it is completed. -/
structure ActionKept (a a' : Action Digest) : Prop where
  id : a'.id = a.id
  versionId : a'.versionId = a.versionId
  completed : a.state = .completed → a' = a

theorem VersionKept.refl (v : Version) : VersionKept v v :=
  ⟨rfl, rfl, rfl, rfl, rfl, rfl, rfl, fun _ => rfl⟩

theorem ActionKept.refl (a : Action Digest) : ActionKept a a := ⟨rfl, rfl, fun _ => rfl⟩

/-- The rows of a table were changed one by one, as `R` allows. -/
def MapsTo {ρ κ : Type} [Keyed ρ κ] (R : ρ → ρ → Prop) (t t' : Table ρ) (f : ρ → ρ) : Prop :=
  t'.rows = t.rows.map f ∧ ∀ r ∈ t, R r (f r)

section MapsTo

variable {ρ κ : Type} [Keyed ρ κ] {R : ρ → ρ → Prop} {t t' t'' : Table ρ} {f g : ρ → ρ}

theorem MapsTo.mem (h : MapsTo R t t' f) {r' : ρ} (hr' : r' ∈ t') :
    ∃ r ∈ t, r' = f r ∧ R r r' := by
  rw [Table.mem_def, h.1] at hr'
  obtain ⟨r, hr, rfl⟩ := List.mem_map.1 hr'
  exact ⟨r, hr, rfl, h.2 r hr⟩

theorem MapsTo.kept (h : MapsTo R t t' f) {r : ρ} (hr : r ∈ t) : f r ∈ t' ∧ R r (f r) := by
  refine ⟨?_, h.2 r hr⟩
  rw [Table.mem_def, h.1]
  exact List.mem_map_of_mem hr

theorem MapsTo.same (hR : ∀ r, R r r) : MapsTo R t t id :=
  ⟨(List.map_id _).symm, fun r _ => hR r⟩

/-- A column that the changes keep has the same entries. -/
private theorem MapsTo.map_eq (h : MapsTo R t t' f) {β : Type} {column : ρ → β}
    (hcolumn : ∀ r r', R r r' → column r' = column r) :
    t'.rows.map column = t.rows.map column := by
  rw [h.1, List.map_map]
  exact List.map_congr_left fun r hr => hcolumn r (f r) (h.2 r hr)

end MapsTo

/-- Rows of versions and actions are changed in place; the rest of the record stays, except that
claims and completions may be added. -/
structure Changed (w w' : World Digest) (f : Version → Version) (g : Action Digest → Action Digest) :
    Prop where
  versions : MapsTo VersionKept w.tables.versions w'.tables.versions f
  actions : MapsTo ActionKept w.tables.actions w'.tables.actions g
  snapshots : w'.tables.snapshots = w.tables.snapshots
  requests : w'.requests = w.requests
  linked : ∀ a ∈ w.tables.actions, ∀ v ∈ w.tables.versions, v.id = a.versionId → Linked a v →
    Linked (g a) (f v)
  claimsOf : ∀ a ∈ w.tables.actions, ClaimsKept w a → ClaimsKept w' (g a)
  claims : w'.claims = w.claims ∨ ∃ c : Claim, w'.claims = c :: w.claims ∧
    (∃ a ∈ w.tables.actions, a.id = c.actionId) ∧
      ∀ d ∈ w.claims, d.actionId = c.actionId → d.epoch < c.epoch
  completions : w'.completions = w.completions ∨ ∃ c : Completion,
    w'.completions = c :: w.completions ∧
      (∃ a ∈ w.tables.actions, a.id = c.claim.actionId) ∧
      ∀ d ∈ w.completions, d.versionId ≠ c.versionId

/-- The heads are as they were, or one was moved to a committed version. -/
inductive Heads (w w' : World Digest) : Prop
  | same : w'.tables.artifacts = w.tables.artifacts → w'.advances = w.advances → Heads w w'
  | moved (a : Artifact) (versionId : ℕ) (now : Stamp) : a ∈ w.tables.artifacts →
      w'.tables.artifacts.rows = w.tables.artifacts.rows.map (fun r => if r.id = a.id then
        { r with headVersionId := some versionId, headRevision := r.headRevision + 1,
                 updatedAt := now } else r) →
      w'.advances = ⟨a.id, versionId, a.headRevision⟩ :: w.advances →
      IsCommitted w' a.id versionId → Heads w w'

variable {w w' : World Digest} {f : Version → Version} {g : Action Digest → Action Digest}

private theorem Changed.isCommitted (h : Changed w w' f g) {artifactId versionId : ℕ}
    (hc : IsCommitted w artifactId versionId) : IsCommitted w' artifactId versionId := by
  obtain ⟨v, hv, hid, hartifact, hstate⟩ := hc
  obtain ⟨hmem, hkept⟩ := h.versions.kept hv
  rw [hkept.committed hstate] at hmem
  exact ⟨v, hmem, hid, hartifact, hstate⟩

private theorem versionsOf_changed (h : Changed w w' f g) (artifactId : ℕ) :
    (w'.versionsOf artifactId).map Version.logicalVersion =
      (w.versionsOf artifactId).map Version.logicalVersion := by
  unfold World.versionsOf
  rw [h.versions.1]
  have hrows := h.versions.2
  simp only [Table.mem_def] at hrows
  generalize w.tables.versions.rows = rows at hrows ⊢
  induction rows with
  | nil => rfl
  | cons v rest ih =>
      have hkept := hrows v (.head _)
      have hrest := ih fun r hr => hrows r (.tail _ hr)
      rw [List.map_cons, List.filter_cons, List.filter_cons, hkept.artifactId]
      split
      · rw [List.map_cons, List.map_cons, hkept.logicalVersion, hrest]
      · exact hrest

theorem HeadKept.of_advances {a : Artifact} (h : HeadKept w a)
    (hadvances : w'.advancesOf a.id = w.advancesOf a.id) : HeadKept w' a :=
  ⟨by rw [hadvances]; exact h.advances, by rw [hadvances]; exact h.head⟩

/-- The heads stay in step with the advances. -/
theorem Heads.kept (h : Heads w w') (hkept : ∀ a ∈ w.tables.artifacts, HeadKept w a) :
    ∀ a ∈ w'.tables.artifacts, HeadKept w' a := by
  intro a' ha'
  cases h with
  | same hartifacts hadvances =>
      rw [hartifacts] at ha'
      refine (hkept a' ha').of_advances ?_
      rw [World.advancesOf, World.advancesOf, hadvances]
  | moved a versionId now ha hrows hadvances _ =>
      rw [Table.mem_def, hrows] at ha'
      obtain ⟨r, hr, rfl⟩ := List.mem_map.1 ha'
      have hold := hkept r hr
      by_cases hid : r.id = a.id
      · obtain rfl : r = a := Table.eq_of_key hr ha hid
        rw [if_pos rfl]
        have hlist : w'.advancesOf r.id = ⟨r.id, versionId, r.headRevision⟩ :: w.advancesOf r.id := by
          rw [World.advancesOf, hadvances, List.filter_cons, if_pos (by simp)]
          rfl
        constructor
        · change (w'.advancesOf r.id).map _ = (List.range (r.headRevision + 1)).reverse
          rw [hlist, List.map_cons, hold.advances, List.range_succ, List.reverse_append]
          rfl
        · change some versionId = (w'.advancesOf r.id).head?.map Advance.versionId
          rw [hlist]
          rfl
      · rw [if_neg hid]
        refine hold.of_advances ?_
        rw [World.advancesOf, hadvances, List.filter_cons, if_neg]
        · rfl
        · simpa using fun heq : a.id = r.id => hid heq.symm

/-- A command that adds no row keeps the invariant. -/
theorem Kept.changed (hk : Kept w) (h : Changed w w' f g) (hheads : Heads w w') : Kept w' where
  numbered artifactId := by
    have hmap := versionsOf_changed h artifactId
    have hlength := congrArg List.length hmap
    simp only [List.length_map] at hlength
    rw [hmap, hlength]
    exact hk.numbered artifactId
  actionOf := by
    intro v' hv'
    obtain ⟨v, hv, -, hvk⟩ := h.versions.mem hv'
    obtain ⟨a, ha, hid⟩ := hk.actionOf v hv
    obtain ⟨ha', hak⟩ := h.actions.kept ha
    exact ⟨g a, ha', by rw [hak.versionId, hid, hvk.id]⟩
  versionOf := by
    intro a' ha'
    obtain ⟨a, ha, -, hak⟩ := h.actions.mem ha'
    obtain ⟨v, hv, hid⟩ := hk.versionOf a ha
    obtain ⟨hv', hvk⟩ := h.versions.kept hv
    exact ⟨f v, hv', by rw [hvk.id, hid, hak.versionId]⟩
  oneAction := by
    rw [h.actions.map_eq fun _ _ hr => hr.versionId]
    exact hk.oneAction
  linked := by
    intro a' ha' v' hv' hid
    obtain ⟨a, ha, rfl, hak⟩ := h.actions.mem ha'
    obtain ⟨v, hv, rfl, hvk⟩ := h.versions.mem hv'
    rw [hvk.id, hak.versionId] at hid
    exact h.linked a ha v hv hid (hk.linked a ha v hv hid)
  requested := by
    intro v' hv'
    obtain ⟨v, hv, -, hvk⟩ := h.versions.mem hv'
    rw [h.requests, hvk.id]
    exact hk.requested v hv
  requests := by
    intro r hr
    rw [h.requests] at hr
    obtain ⟨v, hv, hid, hm⟩ := hk.requests r hr
    obtain ⟨hv', hvk⟩ := h.versions.kept hv
    exact ⟨f v, hv', hvk.id.trans hid, hvk.artifactId.trans hm.artifactId,
      by rw [hvk.logicalVersion]; exact hm.logicalVersion, hvk.sha256.trans hm.sha256,
      hvk.byteLength.trans hm.byteLength, hvk.mediaType.trans hm.mediaType,
      hvk.parents.trans hm.parents⟩
  claimsOf := by
    intro a' ha'
    obtain ⟨a, ha, rfl, -⟩ := h.actions.mem ha'
    exact h.claimsOf a ha (hk.claimsOf a ha)
  claimed := by
    have hold : ∀ c : Claim, (∃ a ∈ w.tables.actions, a.id = c.actionId) →
        ∃ a ∈ w'.tables.actions, a.id = c.actionId := by
      rintro c ⟨a, ha, hid⟩
      exact ⟨g a, (h.actions.kept ha).1, (h.actions.kept ha).2.id.trans hid⟩
    intro c hc
    rcases h.claims with hsame | ⟨new, hnew, hexists, -⟩
    · rw [hsame] at hc
      exact hold c (hk.claimed c hc)
    · rw [hnew] at hc
      rcases List.mem_cons.1 hc with rfl | hc
      · exact hold c hexists
      · exact hold c (hk.claimed c hc)
  oneHolder := by
    rcases h.claims with hsame | ⟨new, hnew, -, hlatest⟩
    · rw [hsame]
      exact hk.oneHolder
    · rw [hnew, List.map_cons, List.nodup_cons]
      refine ⟨fun hmem => ?_, hk.oneHolder⟩
      obtain ⟨d, hd, heq⟩ := List.mem_map.1 hmem
      simp only [Prod.mk.injEq] at heq
      exact absurd heq.2 (hlatest d hd heq.1).ne
  completed := by
    have hold : ∀ c : Completion, (∃ a ∈ w.tables.actions, a.id = c.claim.actionId) →
        ∃ a ∈ w'.tables.actions, a.id = c.claim.actionId := by
      rintro c ⟨a, ha, hid⟩
      exact ⟨g a, (h.actions.kept ha).1, (h.actions.kept ha).2.id.trans hid⟩
    intro c hc
    rcases h.completions with hsame | ⟨new, hnew, hexists, -⟩
    · rw [hsame] at hc
      exact hold c (hk.completed c hc)
    · rw [hnew] at hc
      rcases List.mem_cons.1 hc with rfl | hc
      · exact hold c hexists
      · exact hold c (hk.completed c hc)
  oneCompletion := by
    rcases h.completions with hsame | ⟨new, hnew, -, hfirst⟩
    · rw [hsame]
      exact hk.oneCompletion
    · rw [hnew, List.map_cons, List.nodup_cons]
      refine ⟨fun hmem => ?_, hk.oneCompletion⟩
      obtain ⟨d, hd, heq⟩ := List.mem_map.1 hmem
      exact hfirst d hd heq
  heads := hheads.kept hk.heads
  advanced := by
    intro a ha
    cases hheads with
    | same _ hadvances =>
        rw [hadvances] at ha
        exact h.isCommitted (hk.advanced a ha)
    | moved r versionId _ _ _ hadvances hcommitted =>
        rw [hadvances] at ha
        rcases List.mem_cons.1 ha with rfl | ha
        · exact hcommitted
        · exact h.isCommitted (hk.advanced a ha)
  owned := by
    intro a ha
    cases hheads with
    | same hartifacts hadvances =>
        rw [hartifacts]
        rw [hadvances] at ha
        exact hk.owned a ha
    | moved r versionId now hr hrows hadvances _ =>
        have hkeep : ∀ x ∈ w.tables.artifacts, ∃ y ∈ w'.tables.artifacts, y.id = x.id := by
          intro x hx
          simp only [Table.mem_def, hrows]
          refine ⟨_, List.mem_map_of_mem hx, ?_⟩
          split <;> rfl
        rw [hadvances] at ha
        rcases List.mem_cons.1 ha with rfl | ha
        · exact hkeep r hr
        · obtain ⟨x, hx, hid⟩ := hk.owned a ha
          obtain ⟨y, hy, hyid⟩ := hkeep x hx
          exact ⟨y, hy, hyid.trans hid⟩
  parents := by
    intro v' hv' p hp
    obtain ⟨v, hv, -, hvk⟩ := h.versions.mem hv'
    rw [hvk.parents] at hp
    obtain ⟨parent, hparent, hid, hstate, hhash⟩ := hk.parents v hv p hp
    obtain ⟨hmem, hpk⟩ := h.versions.kept hparent
    rw [hpk.committed hstate] at hmem
    exact ⟨parent, hmem, hid, hstate, hhash⟩
  members := by
    intro s hs m hm
    rw [h.snapshots] at hs
    obtain ⟨v, hv, hid, hartifact, hstate, hrest⟩ := hk.members s hs m hm
    obtain ⟨hmem, hvk⟩ := h.versions.kept hv
    rw [hvk.committed hstate] at hmem
    exact ⟨v, hmem, hid, hartifact, hstate, hrest⟩

end Cortex.Artifacts
