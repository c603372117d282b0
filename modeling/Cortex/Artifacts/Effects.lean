import Cortex.Artifacts.Invariant

/-!
# What each command does

Claims, failures, retries, fences, completions and head advances change rows in
place (`Changed`); requests, artifacts and snapshots add one.
-/

namespace Cortex.Artifacts

open Control Time Transaction

variable {Digest : Type} {w w' : World Digest} {a a' : Action Digest} {v v' : Version}

/-! ## Statements that change rows in place -/

section Statements

variable {ρ κ : Type} [Keyed ρ κ] {R : ρ → ρ → Prop} {t t' : Table ρ} {p : ρ → Prop}
  [DecidablePred p] {f : ρ → ρ}

theorem MapsTo.update (hkey : ∀ r, Keyed.key (f r) = Keyed.key r) (hR : ∀ r, R r r)
    (hchange : ∀ r ∈ t, p r → R r (f r)) :
    MapsTo R t (t.update p f hkey) fun r => if p r then f r else r := by
  refine ⟨rfl, fun r hr => ?_⟩
  beta_reduce
  split
  · exact hchange r hr ‹_›
  · exact hR r

theorem MapsTo.updateRow [DecidableEq κ] {k : κ}
    {hkey : ∀ r, Keyed.key (f r) = Keyed.key r} (hR : ∀ r, R r r)
    (h : t.updateRow? k p f hkey = some t')
    (hchange : ∀ r ∈ t, Keyed.key r = k → p r → R r (f r)) :
    MapsTo R t t' fun r => if Keyed.key r = k then f r else r := by
  obtain ⟨row, hrow, hk, hp, -, hrows⟩ := Table.updateRow?_eq_some h
  refine ⟨hrows, fun r hr => ?_⟩
  beta_reduce
  split
  · rename_i hrk
    obtain rfl := Table.eq_of_key hr hrow (hrk.trans hk.symm)
    exact hchange r hr hrk hp
  · exact hR r

private theorem MapsTo.comp {t'' : Table ρ} {g : ρ → ρ} (hR : ∀ a b c, R a b → R b c → R a c)
    (h : MapsTo R t t' f) (h' : MapsTo R t' t'' g) : MapsTo R t t'' (g ∘ f) := by
  refine ⟨?_, fun r hr => ?_⟩
  · rw [h'.1, h.1, List.map_map]
  · exact hR r (f r) _ (h.2 r hr) (h'.2 (f r) (h.kept hr).1)

end Statements

theorem Kept.eq_of_version (hk : Kept w) (ha : a ∈ w.tables.actions) (ha' : a' ∈ w.tables.actions)
    (h : a.versionId = a'.versionId) : a = a' :=
  List.inj_on_of_nodup_map hk.oneAction ha ha' h

/-- A version whose state moves while it is open. -/
theorem VersionKept.moves {state : VersionState} {provenance : Option Provenance}
    {committedAt : Option Stamp} (hopen : v.state ≠ .committed) :
    VersionKept v { v with state, provenance, committedAt } :=
  ⟨rfl, rfl, rfl, rfl, rfl, rfl, rfl, fun h => absurd h hopen⟩

/-! ## Claims and completions of an action -/

/-- An action of which nothing new is on record is as it was. -/
theorem ClaimsKept.frame (h : ClaimsKept w a)
    (hclaims : w'.claims = w.claims ∨
      ∃ c : Claim, w'.claims = c :: w.claims ∧ c.actionId ≠ a.id)
    (hcompletions : w'.completions = w.completions ∨
      ∃ c : Completion, w'.completions = c :: w.completions ∧ c.claim.actionId ≠ a.id) :
    ClaimsKept w' a := by
  have hclaim : ∀ c : Claim, c.actionId = a.id → (c ∈ w'.claims ↔ c ∈ w.claims) := by
    intro c hc
    rcases hclaims with hsame | ⟨new, hnew, hother⟩
    · rw [hsame]
    · rw [hnew, List.mem_cons]
      exact or_iff_right fun heq => hother (heq ▸ hc)
  have hcompletion : ∀ c : Completion, c.claim.actionId = a.id →
      (c ∈ w'.completions ↔ c ∈ w.completions) := by
    intro c hc
    rcases hcompletions with hsame | ⟨new, hnew, hother⟩
    · rw [hsame]
    · rw [hnew, List.mem_cons]
      exact or_iff_right fun heq => hother (heq ▸ hc)
  constructor
  · intro c hc hid
    exact h.latest c ((hclaim c hid).1 hc) hid
  · intro owner howner
    exact (hclaim _ rfl).2 (h.holder owner howner)
  · exact h.claimed
  · exact h.settled
  · rw [h.completed]
    constructor
    · rintro ⟨c, hc, hid⟩
      exact ⟨c, (hcompletion c hid).2 hc, hid⟩
    · rintro ⟨c, hc, hid⟩
      exact ⟨c, (hcompletion c hid).1 hc, hid⟩
  · intro c hc hid
    obtain ⟨hversion, hepoch, hmem⟩ := h.completion c ((hcompletion c hid).1 hc) hid
    exact ⟨hversion, hepoch, (hclaim c.claim hid).2 hmem⟩

/-- An action that gives up its claim without completing. -/
theorem ClaimsKept.closed (h : ClaimsKept w a) (hopen : a.state ≠ .completed) (hid : a'.id = a.id)
    (hepoch : a.claimEpoch ≤ a'.claimEpoch) (howner : a'.claimOwner = none)
    (hstate : a'.state = .pending ∨ a'.state = .failed) (hclaims : w'.claims = w.claims)
    (hcompletions : w'.completions = w.completions) : ClaimsKept w' a' := by
  have hnone : ∀ c ∈ w'.completions, c.claim.actionId ≠ a'.id := by
    intro c hc hc'
    rw [hcompletions] at hc
    exact hopen (h.completed.2 ⟨c, hc, hc'.trans hid⟩)
  have hnot : a'.state ≠ .completed ∧ a'.state ≠ .claimed ∧ a'.state ≠ .materialized := by
    rcases hstate with hs | hs <;> simp [hs]
  constructor
  · intro c hc hc'
    rw [hclaims] at hc
    exact (h.latest c hc (hc'.trans hid)).trans hepoch
  · intro owner ho
    simp [howner] at ho
  · simp [howner, hnot]
  · exact hnot.2.2
  · refine iff_of_false hnot.1 ?_
    rintro ⟨c, hc, hc'⟩
    exact hnone c hc hc'
  · intro c hc hc'
    exact absurd hc' (hnone c hc)

/-- The action and the version that is not its own are changed by nobody. -/
private theorem Linked.of_states (h : Linked a v) (ha : a'.state = a.state ∨
    a.state ≠ .completed ∧ a.state ≠ .failed ∧ a'.state ≠ .completed ∧ a'.state ≠ .failed)
    (hresult : a.state = .completed → a' = a) (hrequest : a'.operationId = a.operationId ∧
      a'.sha256 = a.sha256 ∧ a'.byteLength = a.byteLength ∧ a'.mediaType = a.mediaType) :
    Linked a' v := by
  obtain ⟨hop, hsha, hlength, hmedia⟩ := hrequest
  constructor
  · rcases ha with hs | ⟨hc, -, hc', -⟩
    · rw [hs]
      exact h.completed
    · exact iff_of_false (fun hv => hc (h.completed.1 hv)) hc'
  · rcases ha with hs | ⟨-, hf, -, hf'⟩
    · rw [hs]
      exact h.failed
    · exact iff_of_false (fun hv => hf (h.failed.1 hv)) hf'
  · intro hs
    have hold : a.state = .completed := by
      rcases ha with hs' | ⟨-, -, hc', -⟩
      · exact hs' ▸ hs
      · exact absurd hs hc'
    rw [hresult hold]
    exact h.result hold
  · rw [hop, hsha, hlength, hmedia]
    exact h.request

/-- Action and version fail together, or become pending together. -/
theorem Linked.moves (h : Linked a v) {state : VersionState} {f : Action Digest}
    (hstate : state = .failed ∧ f.state = .failed ∨
      state = .pendingMaterialization ∧ f.state = .pending)
    (hrequest : f.operationId = a.operationId ∧ f.sha256 = a.sha256 ∧
      f.byteLength = a.byteLength ∧ f.mediaType = a.mediaType) :
    Linked f { v with state } := by
  obtain ⟨hop, hsha, hlength, hmedia⟩ := hrequest
  constructor
  · rcases hstate with ⟨rfl, hs⟩ | ⟨rfl, hs⟩ <;> simp [hs]
  · rcases hstate with ⟨rfl, hs⟩ | ⟨rfl, hs⟩ <;> simp [hs]
  · intro hs
    rcases hstate with ⟨-, hs'⟩ | ⟨-, hs'⟩ <;> simp [hs'] at hs
  · rw [hop, hsha, hlength, hmedia]
    exact h.request

/-- The state of the version of an open action. -/
theorem Linked.pending (h : Linked a v) (hc : a.state ≠ .completed) (hf : a.state ≠ .failed) :
    v.state = .pendingMaterialization := by
  cases hv : v.state with
  | pendingMaterialization => rfl
  | committed => exact absurd (h.completed.1 hv) hc
  | failed => exact absurd (h.failed.1 hv) hf

/-! ## The commands that change rows in place -/

section Lookup

variable {versionId actionId artifactId : ℕ} {owner : Artifact}

private theorem artifactVersion_eq_ok (h : artifactVersion w.tables versionId = .ok v) :
    v ∈ w.tables.versions ∧ v.id = versionId :=
  Table.get?_eq_some.1 (orRaise_eq_ok.1 h)

private theorem materializationAction_eq_ok (h : materializationAction w.tables actionId = .ok a) :
    a ∈ w.tables.actions ∧ a.id = actionId :=
  Table.get?_eq_some.1 (orRaise_eq_ok.1 h)

private theorem artifact_eq_ok (h : artifact w.tables artifactId = .ok owner) :
    owner ∈ w.tables.artifacts ∧ owner.id = artifactId :=
  Table.get?_eq_some.1 (orRaise_eq_ok.1 h)

end Lookup

theorem claimMaterialization_changed {readings : Readings} {actionId : ℕ} {workerId : Text}
    {leaseSeconds : ℕ} {row : Action Digest} (hk : Kept w)
    (h : claimMaterialization w readings actionId workerId leaseSeconds = .ok (w', row)) :
    (∃ g, Changed w w' id g) ∧ Heads w w' := by
  simp only [claimMaterialization, bind_eq_ok, require_eq_ok, orRaise_eq_ok, pure_eq_ok,
    Prod.mk.injEq] at h
  obtain ⟨action, haction, version, -, _, -, _, -, _, -, _, -, _, -, expiresAt, -, actions,
    hactions, row, hrow, rfl, rfl⟩ := h
  obtain ⟨old, hold, hkey, hopen, hget, -⟩ := Table.updateRow?_eq_some hactions
  rw [hget, Option.some.injEq] at hrow
  subst hrow
  have hkey : old.id = actionId := hkey
  -- An action that can be claimed is neither completed nor failed.
  have hstates : old.state ≠ .completed ∧ old.state ≠ .failed := by
    rcases hopen with hs | ⟨hs, -⟩ <;> simp [hs]
  have hsame : ∀ a ∈ w.tables.actions, a.id = actionId → a = old := by
    intro a ha hid
    exact Table.eq_of_key ha hold (hid.trans hkey.symm)
  refine ⟨⟨_, ⟨MapsTo.same VersionKept.refl, MapsTo.updateRow ActionKept.refl hactions ?_, rfl, rfl,
    ?_, ?_, .inr ⟨_, rfl, ⟨old, hold, hkey⟩, ?_⟩, .inl rfl⟩⟩, .same rfl rfl⟩
  · intro a ha hid _
    obtain rfl := hsame a ha hid
    exact ⟨rfl, rfl, fun hs => absurd hs hstates.1⟩
  · intro a ha v hv hid hlinked
    change Linked (if a.id = actionId then _ else a) v
    split
    · rename_i hida
      obtain rfl := hsame a ha hida
      exact hlinked.of_states (.inr ⟨hstates.1, hstates.2, by simp, by simp⟩)
        (fun hs => absurd hs hstates.1) ⟨rfl, rfl, rfl, rfl⟩
    · exact hlinked
  · intro a ha hclaims
    change ClaimsKept _ (if a.id = actionId then _ else a)
    split
    · rename_i hida
      obtain rfl := hsame a ha hida
      have hnone : ∀ c ∈ w.completions, c.claim.actionId ≠ a.id := by
        intro c hc hc'
        exact hstates.1 (hclaims.completed.2 ⟨c, hc, hc'⟩)
      constructor
      · intro c hc hcid
        rcases List.mem_cons.1 hc with rfl | hc
        · exact le_rfl
        · exact (hclaims.latest c hc hcid).trans (Nat.le_succ _)
      · intro owner howner
        obtain rfl : workerId = owner := by simpa using howner
        rw [← hida]
        exact .head _
      · simp
      · simp
      · refine iff_of_false (by simp) ?_
        rintro ⟨c, hc, hc'⟩
        exact hnone c hc hc'
      · intro c hc hc'
        exact absurd hc' (hnone c hc)
    · rename_i hida
      exact hclaims.frame (.inr ⟨_, rfl, fun heq => hida heq.symm⟩) (.inl rfl)
  · intro d hd hdid
    exact Nat.lt_succ_of_le ((hk.claimsOf old hold).latest d hd (hdid.trans hkey.symm))

/-- An open action and its version fail, or failed ones become pending again. -/
theorem Kept.closes {state : VersionState} (hk : Kept w) (pa : Action Digest → Prop)
    [DecidablePred pa] (pv : Version → Prop) [DecidablePred pv]
    (change : Action Digest → Action Digest)
    (hkey : ∀ r, Keyed.key (change r) = Keyed.key r)
    (hpair : ∀ a ∈ w.tables.actions, ∀ v ∈ w.tables.versions, v.id = a.versionId → (pa a ↔ pv v))
    (hopen : ∀ a ∈ w.tables.actions, pa a → a.state ≠ .completed)
    (hversion : ∀ a, (change a).versionId = a.versionId)
    (hrequest : ∀ a, (change a).operationId = a.operationId ∧ (change a).sha256 = a.sha256 ∧
      (change a).byteLength = a.byteLength ∧ (change a).mediaType = a.mediaType)
    (hepoch : ∀ a, a.claimEpoch ≤ (change a).claimEpoch)
    (howner : ∀ a ∈ w.tables.actions, pa a → (change a).claimOwner = none)
    (hstate : ∀ a, state = .failed ∧ (change a).state = .failed ∨
      state = .pendingMaterialization ∧ (change a).state = .pending) :
    Changed w { w with tables := { w.tables with
        actions := w.tables.actions.update pa change hkey
        versions := w.tables.versions.update pv fun v => { v with state } } }
      (fun v => if pv v then { v with state } else v) (fun a => if pa a then change a else a) where
  versions := by
    refine MapsTo.update (p := pv) (f := fun v => { v with state }) (fun _ => rfl)
      VersionKept.refl ?_
    intro v hv hpv
    obtain ⟨a, ha, hid⟩ := hk.actionOf v hv
    have hpa := (hpair a ha v hv hid.symm).2 hpv
    exact VersionKept.moves fun hs =>
      hopen a ha hpa ((hk.linked a ha v hv hid.symm).completed.1 hs)
  actions := MapsTo.update hkey ActionKept.refl
    fun a ha hpa => ⟨hkey a, hversion a, fun hs => absurd hs (hopen a ha hpa)⟩
  snapshots := rfl
  requests := rfl
  linked := by
    intro a ha v hv hid hlinked
    by_cases hpa : pa a
    · rw [if_pos hpa, if_pos ((hpair a ha v hv hid).1 hpa)]
      exact hlinked.moves (hstate a) (hrequest a)
    · rw [if_neg hpa, if_neg fun hpv => hpa ((hpair a ha v hv hid).2 hpv)]
      exact hlinked
  claimsOf := by
    intro a ha hclaims
    split
    · rename_i hpa
      refine hclaims.closed (hopen a ha hpa) (hkey a) (hepoch a) (howner a ha hpa) ?_ rfl rfl
      exact (hstate a).symm.imp And.right And.right
    · exact hclaims.frame (.inl rfl) (.inl rfl)
  claims := .inl rfl
  completions := .inl rfl

theorem failMaterialization_changed {readings : Readings} {actionId : ℕ} {workerId category : Text}
    {claimEpoch : ℤ} {row : Action Digest} (hk : Kept w)
    (h : failMaterialization w readings actionId workerId claimEpoch category = .ok (w', row)) :
    (∃ f g, Changed w w' f g) ∧ Heads w w' := by
  simp only [failMaterialization, bind_eq_ok, require_eq_ok, orRaise_eq_ok, pure_eq_ok,
    Prod.mk.injEq] at h
  obtain ⟨action, haction, _, hfence, row, -, rfl, -⟩ := h
  obtain ⟨hmem, hactionId⟩ := materializationAction_eq_ok haction
  simp only [claimFenceIsCurrent, decide_eq_true_eq] at hfence
  obtain ⟨howner, hepoch, -⟩ := hfence
  refine ⟨⟨_, _, hk.closes _ _ _ _ ?_ ?_ (fun _ => rfl) (fun _ => ⟨rfl, rfl, rfl, rfl⟩)
    (fun _ => le_rfl) (fun _ _ _ => rfl) fun _ => .inl ⟨rfl, rfl⟩⟩, .same rfl rfl⟩
  · intro a ha v hv hid
    have hlinked := hk.linked a ha v hv hid
    constructor
    · rintro ⟨hida, hstate, -⟩
      obtain rfl := Table.eq_of_key ha hmem (hida.trans hactionId.symm)
      exact ⟨hid, hlinked.pending (by simp [hstate]) (by simp [hstate])⟩
    · rintro ⟨hvid, hstate⟩
      obtain rfl := hk.eq_of_version ha hmem (hid.symm.trans hvid)
      -- The fence holds only while the action is claimed.
      have hclaimed := (hk.claimsOf a ha).claimed.2 (by simp [howner])
      exact ⟨hactionId, hclaimed, howner, hepoch⟩
  · rintro a ha ⟨-, hstate, -⟩
    simp [hstate]
theorem retryMaterialization_changed {readings : Readings} {actionId : ℕ} {row : Action Digest}
    (hk : Kept w) (h : retryMaterialization w readings actionId = .ok (w', row)) :
    (∃ f g, Changed w w' f g) ∧ Heads w w' := by
  simp only [retryMaterialization, bind_eq_ok, require_eq_ok, orRaise_eq_ok, pure_eq_ok,
    Prod.mk.injEq] at h
  obtain ⟨action, haction, _, hfailed, version, hversion, _, -, _, -, row, -, rfl, -⟩ := h
  obtain ⟨hmem, hactionId⟩ := materializationAction_eq_ok haction
  obtain ⟨-, hversionId⟩ := artifactVersion_eq_ok hversion
  refine ⟨⟨_, _, hk.closes _ _ _ _ ?_ ?_ (fun _ => rfl) (fun _ => ⟨rfl, rfl, rfl, rfl⟩)
    (fun _ => le_rfl) ?_ fun _ => .inr ⟨rfl, rfl⟩⟩, .same rfl rfl⟩
  · intro a ha v hv hid
    have hlinked := hk.linked a ha v hv hid
    constructor
    · rintro ⟨hida, hstate⟩
      obtain rfl := Table.eq_of_key ha hmem (hida.trans hactionId.symm)
      exact ⟨hid.trans hversionId.symm, hlinked.failed.2 hstate⟩
    · rintro ⟨hvid, hstate⟩
      exact ⟨(hk.eq_of_version ha hmem (hid.symm.trans (hvid.trans hversionId))) ▸ hactionId,
        hlinked.failed.1 hstate⟩
  · rintro a ha ⟨-, hstate⟩
    simp [hstate]
  · rintro a ha ⟨-, hstate⟩
    change a.claimOwner = none
    have hclaimed := (hk.claimsOf a ha).claimed
    rw [hstate] at hclaimed
    simpa using hclaimed

theorem fenceMaterializations_changed {category : String} {selected : Version → Bool}
    {settledAt : Stamp} (hk : Kept w) :
    (∃ f g, Changed w (fenceMaterializations w category selected settledAt) f g) ∧
      Heads w (fenceMaterializations w category selected settledAt) := by
  refine ⟨⟨_, _, hk.closes _ _ _ _ ?_ ?_ (fun _ => rfl) (fun _ => ⟨rfl, rfl, rfl, rfl⟩)
    (fun _ => Nat.le_succ _) (fun _ _ _ => rfl) fun _ => .inl ⟨rfl, rfl⟩⟩, .same rfl rfl⟩
  · intro a ha v hv hid
    constructor
    · rintro ⟨⟨v', hv', hid', hselected, hstate⟩, hopen⟩
      obtain rfl := Table.eq_of_key hv hv' (hid.trans hid'.symm)
      exact ⟨hselected, hstate, a, ha, hid.symm, hopen⟩
    · rintro ⟨hselected, hstate, a', ha', hid', hopen⟩
      obtain rfl := hk.eq_of_version ha ha' (hid.symm.trans hid'.symm)
      exact ⟨⟨v, hv, hid, hselected, hstate⟩, hopen⟩
  · rintro a ha ⟨-, hstate⟩
    rcases hstate with hs | hs <;> simp [hs]

/-! ## Moving a head -/

private theorem writeHead_eq_ok {artifactId versionId expected : ℕ} {now : Stamp}
    {moved : Option (World Digest)} (h : writeHead w artifactId versionId expected now = .ok moved) :
    moved = none ∨ ∃ artifacts, moved = some { w with
        tables := { w.tables with artifacts }
        advances := ⟨artifactId, versionId, expected⟩ :: w.advances } ∧
      ∃ a ∈ w.tables.artifacts, a.id = artifactId ∧ a.headRevision = expected ∧
        artifacts.rows = w.tables.artifacts.rows.map (fun r => if r.id = a.id then
          { r with headVersionId := some versionId, headRevision := r.headRevision + 1,
                   updatedAt := now } else r) := by
  unfold writeHead at h
  split at h
  · simp only [pure_eq_ok] at h
    exact .inl h.symm
  · rename_i artifacts hartifacts
    obtain ⟨a, ha, hid, hrevision, -, hrows⟩ := Table.updateRow?_eq_some hartifacts
    have hid : a.id = artifactId := hid
    simp only [bind_eq_ok, pure_eq_ok] at h
    obtain ⟨-, -, rfl⟩ := h
    refine .inr ⟨artifacts, rfl, a, ha, hid, hrevision, ?_⟩
    rw [hid]
    exact hrows

theorem advanceHead_changed {readings : Readings} {artifactId versionId expected runId attemptId : ℕ}
    {row : Artifact}
    (h : advanceHead w readings artifactId versionId expected runId attemptId = .ok (w', row)) :
    Changed w w' id id ∧ Heads w w' := by
  simp only [advanceHead, bind_eq_ok, require_eq_ok] at h
  obtain ⟨_, -, _, -, version, hversion, _, ⟨hartifact, hcommitted⟩, moved, hmoved, h⟩ := h
  obtain ⟨hmem, hid⟩ := artifactVersion_eq_ok hversion
  rcases writeHead_eq_ok hmoved with rfl | ⟨artifacts, rfl, a, ha, hida, hrevision, hrows⟩
  · simp at h
  · simp only [bind_eq_ok, pure_eq_ok, Prod.mk.injEq] at h
    obtain ⟨current, -, rfl, -⟩ := h
    refine ⟨⟨MapsTo.same VersionKept.refl, MapsTo.same ActionKept.refl, rfl, rfl,
      fun _ _ _ _ _ hlinked => hlinked, fun _ _ hclaims => hclaims.frame (.inl rfl) (.inl rfl),
      .inl rfl, .inl rfl⟩, ?_⟩
    refine .moved a versionId _ ha hrows ?_ ⟨version, hmem, hid, hartifact.trans hida.symm,
      hcommitted⟩
    rw [hida, hrevision]

/-! ## Completing -/

private theorem writeRequestedHead_eq_ok {owner : Artifact} {versionId : ℕ} {expected : Option ℕ}
    {now : Stamp} {reply : World Digest × Bool × Option ℕ}
    (h : writeRequestedHead w owner versionId expected now = .ok reply) :
    reply.1 = w ∨ ∃ artifacts revision, reply.1 = { w with
        tables := { w.tables with artifacts }
        advances := ⟨owner.id, versionId, revision⟩ :: w.advances } ∧
      ∃ a ∈ w.tables.artifacts, a.id = owner.id ∧ a.headRevision = revision ∧
        artifacts.rows = w.tables.artifacts.rows.map (fun r => if r.id = a.id then
          { r with headVersionId := some versionId, headRevision := r.headRevision + 1,
                   updatedAt := now } else r) := by
  unfold writeRequestedHead at h
  split at h
  · simp only [pure_eq_ok] at h
    exact .inl (h ▸ rfl)
  · rename_i revision
    simp only [bind_eq_ok] at h
    obtain ⟨moved, hmoved, h⟩ := h
    rcases writeHead_eq_ok hmoved with rfl | ⟨artifacts, rfl, hrows⟩
    · simp only [pure_eq_ok] at h
      exact .inl (h ▸ rfl)
    · simp only [pure_eq_ok] at h
      subst h
      exact .inr ⟨artifacts, revision, rfl, hrows⟩

/-- The columns of an action that a completion writes. -/
def Action.complete (a : Action Digest) (result : MaterializedAsset) (now : Stamp)
    (headAdvanced : Bool) (observed : Option ℕ) : Action Digest :=
  { a with
    state := .completed
    claimOwner := none
    claimExpiresAt := none
    result := some result
    failureCategory := none
    completedAt := some now
    headAdvanced := some headAdvanced
    observedHeadRevision := observed }

/-- The claimed action and its pending version are completed together. -/
theorem Kept.completes {action : Action Digest} {version : Version} {workerId : Text}
    {provenance : Provenance} (result : MaterializedAsset) (now : Stamp) (headAdvanced : Bool)
    (observed : Option ℕ) (hk : Kept w) (ha : action ∈ w.tables.actions)
    (hv : version ∈ w.tables.versions) (hid : version.id = action.versionId)
    (hclaimed : action.state = .claimed) (howner : action.claimOwner = some workerId)
    (hresult : result.request = action.request version)
    (hversions : MapsTo VersionKept w.tables.versions w'.tables.versions fun v =>
      if v.id = version.id then
        { v with state := .committed, provenance := some provenance, committedAt := some now }
      else v)
    (hactions : w'.tables.actions.rows = w.tables.actions.rows.map fun a =>
      if a.id = action.id then a.complete result now headAdvanced observed else a)
    (hsnapshots : w'.tables.snapshots = w.tables.snapshots) (hrequests : w'.requests = w.requests)
    (hclaims : w'.claims = w.claims)
    (hcompletions : w'.completions =
      ⟨version.id, action.id, workerId, action.claimEpoch⟩ :: w.completions) :
    ∃ f g, Changed w w' f g := by
  have hopen : action.state ≠ .completed := by simp [hclaimed]
  have hsame : ∀ a ∈ w.tables.actions, a.id = action.id → a = action := fun a ha' heq =>
    Table.eq_of_key ha' ha heq
  have hnone : ∀ c ∈ w.completions, c.claim.actionId ≠ action.id := by
    intro c hc heq
    exact hopen ((hk.claimsOf action ha).completed.2 ⟨c, hc, heq⟩)
  refine ⟨_, _, hversions, ⟨hactions, ?_⟩, hsnapshots, hrequests, ?_, ?_, .inl hclaims,
    .inr ⟨_, hcompletions, ⟨action, ha, rfl⟩, ?_⟩⟩
  · intro a ha'
    split
    · rename_i heq
      obtain rfl := hsame a ha' heq
      exact ⟨rfl, rfl, fun hs => absurd hs hopen⟩
    · exact ActionKept.refl a
  · intro a ha' v hv' hvid hlinked
    by_cases heq : a.id = action.id
    · obtain rfl := hsame a ha' heq
      obtain rfl := Table.eq_of_key hv' hv (hvid.trans hid.symm)
      rw [if_pos rfl, if_pos rfl]
      exact ⟨by simp [Action.complete], by simp [Action.complete],
        fun _ => ⟨result, rfl, hresult⟩, hlinked.request⟩
    · rw [if_neg heq, if_neg]
      · exact hlinked
      · intro hvv
        exact heq (congrArg Action.id
          (hk.eq_of_version ha' ha (hvid.symm.trans (hvv.trans hid))))
  · intro a ha' hclaimsOf
    split
    · rename_i heq
      obtain rfl := hsame a ha' heq
      have hfirst : ∀ c ∈ w'.completions, c.claim.actionId = a.id →
          c = ⟨version.id, a.id, workerId, a.claimEpoch⟩ := by
        intro c hc hcid
        rw [hcompletions] at hc
        rcases List.mem_cons.1 hc with rfl | hc
        · rfl
        · exact absurd hcid (hnone c hc)
      constructor
      · intro c hc
        rw [hclaims] at hc
        exact hclaimsOf.latest c hc
      · intro owner ho
        cases ho
      · simp [Action.complete]
      · simp [Action.complete]
      · refine iff_of_true rfl ⟨⟨version.id, a.id, workerId, a.claimEpoch⟩, ?_, rfl⟩
        rw [hcompletions]
        exact .head _
      · intro c hc hcid
        obtain rfl := hfirst c hc hcid
        refine ⟨hid, rfl, ?_⟩
        rw [hclaims]
        exact hclaimsOf.holder workerId howner
    · rename_i heq
      exact hclaimsOf.frame (.inl hclaims) (.inr ⟨_, hcompletions, fun h => heq h.symm⟩)
  · intro d hd hdid
    -- Another completion of the version would be one of the action.
    obtain ⟨b, hb, hbid⟩ := hk.completed d hd
    obtain ⟨hversion, -, -⟩ := (hk.claimsOf b hb).completion d hd hbid.symm
    obtain rfl := hk.eq_of_version hb ha (hversion.symm.trans (hdid.trans hid))
    exact hnone d hd hbid.symm

theorem completeMaterialization_changed [DecidableEq Digest] {platform : Platform Digest}
    {readings : Readings} {actionId : ℕ} {workerId : Text} {claimEpoch : ℤ}
    {result : MaterializedAsset} {committed : Version} {row : Action Digest} (hk : Kept w)
    (h : completeMaterialization platform w readings actionId workerId claimEpoch result =
      .ok (w', committed, row)) :
    (∃ f g, Changed w w' f g) ∧ Heads w w' := by
  simp only [completeMaterialization, bind_eq_ok] at h
  obtain ⟨action, haction, version, hversion, h⟩ := h
  obtain ⟨hmem, hactionId⟩ := materializationAction_eq_ok haction
  obtain ⟨hvmem, hvid⟩ := artifactVersion_eq_ok hversion
  split at h
  · simp only [bind_eq_ok, require_eq_ok, pure_eq_ok, Prod.mk.injEq] at h
    obtain ⟨_, -, rfl, -, -⟩ := h
    exact ⟨⟨id, id, MapsTo.same VersionKept.refl, MapsTo.same ActionKept.refl, rfl, rfl,
      fun _ _ _ _ _ hlinked => hlinked, fun _ _ hclaims => hclaims, .inl rfl, .inl rfl⟩,
      .same rfl rfl⟩
  · simp only [bind_eq_ok, require_eq_ok, orRaise_eq_ok, pure_eq_ok, Prod.mk.injEq] at h
    obtain ⟨_, hfence, owner, howner, _, -, _, -, documents, -, _, -, _, ⟨-, hresult⟩,
      materialized, hmaterialized, versions, hversions, ⟨w₁, headAdvanced, observed⟩, hhead,
      actions, hactions, row, -, committed, -, rfl, -, -⟩ := h
    obtain ⟨hownerMem, hownerId⟩ := artifact_eq_ok howner
    obtain ⟨old, hold, hkey, ⟨hstate, hclaimOwner, -⟩, -, hrows⟩ :=
      Table.updateRow?_eq_some hmaterialized
    obtain rfl : old = action := Table.eq_of_key hold hmem (hkey.trans hactionId.symm)
    -- Moving the head leaves the versions, the actions and the record of claims alone.
    have hhead' := writeRequestedHead_eq_ok hhead
    dsimp only at hhead'
    have hsame : w₁.tables.actions = materialized ∧ w₁.tables.versions = versions ∧
        w₁.tables.snapshots = w.tables.snapshots ∧ w₁.requests = w.requests ∧
        w₁.claims = w.claims ∧ w₁.completions = w.completions := by
      rcases hhead' with heq | ⟨artifacts, revision, heq, -⟩
      · rw [heq]
        exact ⟨rfl, rfl, rfl, rfl, rfl, rfl⟩
      · rw [heq]
        exact ⟨rfl, rfl, rfl, rfl, rfl, rfl⟩
    obtain ⟨hmat, hver, hsnap, hreq, hcl, hcomp⟩ := hsame
    obtain ⟨-, -, -, -, -, hrows'⟩ := Table.updateRow?_eq_some hactions
    obtain ⟨old', hold', hkey', hpending, -, -⟩ := Table.updateRow?_eq_some hversions
    obtain rfl : old' = version := Table.eq_of_key hold' hvmem hkey'
    have hmaps := MapsTo.updateRow (R := VersionKept) VersionKept.refl hversions
      fun v _ _ hv => VersionKept.moves (by simp [hv])
    refine ⟨Kept.completes result (formatTime (readings.clock 1)) headAdvanced observed hk hmem
      hvmem hvid hstate hclaimOwner hresult (hver ▸ hmaps) ?_ hsnap hreq hcl ?_, ?_⟩
    · change actions.rows = _
      rw [hrows', hmat, hrows, List.map_map]
      refine List.map_congr_left fun a ha => ?_
      by_cases heq : a.id = actionId
      · simp only [Function.comp_apply, Keyed.key, heq, hactionId, if_true]
        simp only [Action.complete, heq]
      · simp only [Function.comp_apply, Keyed.key, heq, hactionId, if_false]
    · change _ :: w₁.completions = _
      rw [hcomp, hactionId]
    · rcases hhead' with heq | ⟨artifacts, revision, heq, a, ha, hida, hrevision, hrowsA⟩
      · refine .same ?_ ?_
        · change w₁.tables.artifacts = _
          rw [heq]
        · change w₁.advances = _
          rw [heq]
      · refine .moved a old'.id (formatTime (readings.clock 1)) ha ?_ ?_ ?_
        · change w₁.tables.artifacts.rows = _
          rw [heq]
          exact hrowsA
        · change w₁.advances = _
          rw [heq, hida, hrevision]
        · have hmem' := (hmaps.kept hvmem).1
          have hkeyv : Keyed.key old' = old'.id := rfl
          rw [if_pos hkeyv, ← hver] at hmem'
          obtain ⟨-, hvArtifact⟩ := artifact_eq_ok howner
          exact ⟨_, hmem', rfl, by rw [hida]; exact hvArtifact.symm, rfl⟩

/-! ## The commands that add a row -/

theorem Kept.createArtifact {readings : Readings} {workspaceId threadId runId attemptId : ℕ}
    {kind title : Text} {row : Artifact} (hk : Kept w)
    (h : createArtifact w readings workspaceId threadId runId attemptId kind title =
      .ok (w', row)) :
    Kept w' ∧ w'.tables.versions = w.tables.versions ∧ w'.tables.actions = w.tables.actions ∧
      w'.tables.snapshots = w.tables.snapshots ∧ w'.requests = w.requests := by
  simp only [Artifacts.createArtifact, bind_eq_ok, require_eq_ok, orRaise_eq_ok, pure_eq_ok,
    Prod.mk.injEq] at h
  obtain ⟨thread, -, _, -, _, -, artifacts, hinsert, rfl, -⟩ := h
  obtain ⟨-, hfresh⟩ := Table.rows_insert hinsert
  refine ⟨{ hk with claimsOf := ?_, heads := ?_, owned := ?_ }, rfl, rfl, rfl, rfl⟩
  · exact fun a ha => (hk.claimsOf a ha).frame (.inl rfl) (.inl rfl)
  · intro a ha
    rcases (Table.mem_insert hinsert).1 ha with hold | rfl
    · exact (hk.heads a hold).of_advances rfl
    · -- No advance is of an artifact that did not exist.
      have hnone : w.advancesOf (readings.newId 0) = [] := by
        refine List.filter_eq_nil_iff.2 fun advance hadvance heq => ?_
        obtain ⟨old, hold, hid⟩ := hk.owned advance hadvance
        simp only [decide_eq_true_eq] at heq
        exact hfresh old hold (hid.trans heq)
      constructor
      · change (w.advancesOf (readings.newId 0)).map _ = _
        rw [hnone]
        rfl
      · change none = (w.advancesOf (readings.newId 0)).head?.map _
        rw [hnone]
        rfl
  · intro a ha
    obtain ⟨old, hold, hid⟩ := hk.owned a ha
    exact ⟨old, (Table.mem_insert hinsert).2 (.inl hold), hid⟩

private theorem foldr_max_range (n : ℕ) : (List.range' 1 n).foldr max 0 = n := by
  induction n with
  | zero => rfl
  | succ n ih =>
      have hmax : ∀ (l : List ℕ) (a b : ℕ), l.foldr max (max a b) = max (l.foldr max a) b := by
        intro l a b
        induction l with
        | nil => rfl
        | cons x l ih => simp only [List.foldr_cons, ih, max_assoc]
      rw [List.range'_1_concat, List.foldr_append]
      simp only [List.foldr_cons, List.foldr_nil]
      rw [max_comm, hmax, ih]
      omega

/-- The next version has the next number. -/
private theorem nextVersion_eq (hk : Kept w) (artifactId : ℕ) :
    nextVersion w.tables.versions artifactId = (w.versionsOf artifactId).length + 1 := by
  rw [nextVersion]
  change ((w.versionsOf artifactId).map Version.logicalVersion).foldr max 0 + 1 = _
  rw [hk.numbered artifactId, foldr_max_range]

private theorem validateParents_eq_ok {owner : Artifact} {parents : List ParentInput} {u : Unit}
    (h : validateParents w.tables owner parents = .ok u) : ∀ p ∈ parents, ParentKept w p := by
  induction parents with
  | nil => simp
  | cons parent rest ih =>
      simp only [validateParents, bind_eq_ok, require_eq_ok] at h
      obtain ⟨version, hversion, _, -, _, -, _, hcommitted, _, hhash, h⟩ := h
      obtain ⟨hmem, hid⟩ := artifactVersion_eq_ok hversion
      intro p hp
      rcases List.mem_cons.1 hp with rfl | hp
      · exact ⟨version, hmem, hid, hcommitted, hhash⟩
      · exact ih h p hp

private theorem snapshotMembers_eq_ok {workspaceId : ℕ} {versionIds : List ℕ}
    {members : List SnapshotMember}
    (h : snapshotMembers w.tables workspaceId versionIds = .ok members) :
    ∀ m ∈ members, MemberKept w m := by
  induction versionIds generalizing members with
  | nil =>
      simp only [snapshotMembers, pure_eq_ok] at h
      simp [← h]
  | cons versionId rest ih =>
      simp only [snapshotMembers, bind_eq_ok, require_eq_ok, pure_eq_ok] at h
      obtain ⟨version, hversion, owner, howner, _, -, _, hcommitted, others, hothers, rfl⟩ := h
      obtain ⟨hmem, -⟩ := artifactVersion_eq_ok hversion
      obtain ⟨-, hid⟩ := artifact_eq_ok howner
      intro m hm
      rcases List.mem_cons.1 hm with rfl | hm
      · exact ⟨version, hmem, rfl, hid.symm, hcommitted, rfl, rfl⟩
      · exact ih hothers m hm

/-- What a request adds is a version that nobody has claimed or completed. -/
theorem Kept.requestVersion {platform : Platform Digest} {readings : Readings}
    {request : VersionRequest} {row : Version} {action : Action Digest} (hk : Kept w)
    (h : requestVersion platform w readings request = .ok (w', row, action)) :
    Kept w' ∧ (∀ v ∈ w.tables.versions, v ∈ w'.tables.versions) ∧
      (∀ a ∈ w.tables.actions, a ∈ w'.tables.actions) ∧
      w'.tables.snapshots = w.tables.snapshots ∧ w'.requests = (row.id, request) :: w.requests := by
  simp only [Artifacts.requestVersion, bind_eq_ok, require_eq_ok, orRaise_eq_ok, pure_eq_ok,
    Prod.mk.injEq] at h
  obtain ⟨owner, -, _, -, _, -, _, hnext, _, -, _, hparents, versions, hversions, actions,
    hactions, rfl, hrow, haction⟩ := h
  rw [hrow] at hversions
  rw [haction] at hactions
  obtain ⟨hvrows, hvfresh⟩ := Table.rows_insert hversions
  obtain ⟨harows, hafresh⟩ := Table.rows_insert hactions
  have hvmem : ∀ v ∈ w.tables.versions, v ∈ versions := fun v hv =>
    (Table.mem_insert hversions).2 (.inl hv)
  have hamem : ∀ a ∈ w.tables.actions, a ∈ actions := fun a ha =>
    (Table.mem_insert hactions).2 (.inl ha)
  have hnewVersion : row ∈ versions := (Table.mem_insert hversions).2 (.inr rfl)
  have hnewAction : action ∈ actions := (Table.mem_insert hactions).2 (.inr rfl)
  have hpair : action.versionId = row.id := by
    rw [← hrow, ← haction]
  have hrowId : readings.newId 0 = row.id := by
    rw [← hrow]
  -- No action of the table is for the new version.
  have hother : ∀ a ∈ w.tables.actions, a.versionId ≠ row.id := by
    intro a ha heq
    obtain ⟨v, hv, hid⟩ := hk.versionOf a ha
    exact hvfresh v hv (hid.trans heq)
  refine ⟨{ hk with
    numbered := ?_, actionOf := ?_, versionOf := ?_, oneAction := ?_, linked := ?_
    requested := ?_, requests := ?_, claimsOf := ?_, claimed := ?_, completed := ?_, heads := ?_
    advanced := ?_, parents := ?_, members := ?_ }, hvmem, hamem, rfl, by rw [← hrowId]⟩
  · intro artifactId
    have hcolumns : row.artifactId = request.artifactId ∧
        row.logicalVersion = nextVersion w.tables.versions request.artifactId := by
      rw [← hrow]
      exact ⟨rfl, rfl⟩
    change (versions.rows.filter fun v => v.artifactId = artifactId).map _ =
      List.range' 1 (versions.rows.filter fun v => v.artifactId = artifactId).length
    rw [hvrows, List.filter_append, List.map_append, List.length_append]
    by_cases hartifact : row.artifactId = artifactId
    · have hone : [row].filter (fun v => v.artifactId = artifactId) = [row] := by simp [hartifact]
      have hnumbered := hk.numbered artifactId
      have hnext' := nextVersion_eq hk artifactId
      rw [show artifactId = request.artifactId from hartifact.symm.trans hcolumns.1,
        ← hcolumns.2] at hnext'
      rw [show request.artifactId = artifactId from hcolumns.1.symm.trans hartifact] at hnext'
      unfold World.versionsOf at hnumbered hnext'
      rw [hone, List.length_singleton, List.range'_1_concat, List.map_singleton, hnext', hnumbered,
        Nat.add_comm 1]
    · have hone : [row].filter (fun v => v.artifactId = artifactId) = [] := by simp [hartifact]
      rw [hone, List.map_nil, List.append_nil, List.length_nil, Nat.add_zero]
      exact hk.numbered artifactId
  · intro v hv
    rcases (Table.mem_insert hversions).1 hv with hold | rfl
    · obtain ⟨a, ha, hid⟩ := hk.actionOf v hold
      exact ⟨a, hamem a ha, hid⟩
    · exact ⟨action, hnewAction, hpair⟩
  · intro a ha
    rcases (Table.mem_insert hactions).1 ha with hold | rfl
    · obtain ⟨v, hv, hid⟩ := hk.versionOf a hold
      exact ⟨v, hvmem v hv, hid⟩
    · exact ⟨row, hnewVersion, hpair.symm⟩
  · change (actions.rows.map Action.versionId).Nodup
    rw [harows, List.map_append, List.nodup_append]
    refine ⟨hk.oneAction, by simp, ?_⟩
    intro versionId hmem versionId' hmem'
    obtain ⟨a, ha, rfl⟩ := List.mem_map.1 hmem
    simp only [List.map_cons, List.map_nil, List.mem_singleton] at hmem'
    rw [hmem', hpair]
    exact hother a ha
  · intro a ha v hv hid
    rcases (Table.mem_insert hactions).1 ha with hold | rfl
    · rcases (Table.mem_insert hversions).1 hv with hvold | rfl
      · exact hk.linked a hold v hvold hid
      · exact absurd hid.symm (hother a hold)
    · rcases (Table.mem_insert hversions).1 hv with hvold | rfl
      · exact absurd (hid.trans hpair) (hvfresh v hvold)
      · rw [← hrow, ← haction]
        exact ⟨by simp, by simp, by simp, rfl, rfl, rfl, rfl⟩
  · intro v hv
    rcases (Table.mem_insert hversions).1 hv with hold | rfl
    · obtain ⟨r, hr, hid⟩ := hk.requested v hold
      exact ⟨r, .tail _ hr, hid⟩
    · exact ⟨_, .head _, hrowId⟩
  · intro r hr
    rcases List.mem_cons.1 hr with rfl | hr
    · refine ⟨row, hnewVersion, hrowId.symm, ?_⟩
      rw [← hrow]
      exact ⟨rfl, hnext.symm, rfl, rfl, rfl, rfl⟩
    · obtain ⟨v, hv, hid, hmatches⟩ := hk.requests r hr
      exact ⟨v, hvmem v hv, hid, hmatches⟩
  · intro a ha
    rcases (Table.mem_insert hactions).1 ha with hold | rfl
    · exact (hk.claimsOf a hold).frame (.inl rfl) (.inl rfl)
    · have hnoClaim : ∀ c ∈ w.claims, c.actionId ≠ a.id := by
        intro c hc heq
        obtain ⟨b, hb, hid⟩ := hk.claimed c hc
        exact hafresh b hb (hid.trans heq)
      have hnoCompletion : ∀ c ∈ w.completions, c.claim.actionId ≠ a.id := by
        intro c hc heq
        obtain ⟨b, hb, hid⟩ := hk.completed c hc
        exact hafresh b hb (hid.trans heq)
      have hfresh : a.state = .pending ∧ a.claimOwner = none := by
        rw [← haction]
        exact ⟨rfl, rfl⟩
      constructor
      · exact fun c hc heq => absurd heq (hnoClaim c hc)
      · intro o ho
        simp [hfresh.2] at ho
      · simp [hfresh]
      · simp [hfresh]
      · refine iff_of_false (by simp [hfresh]) ?_
        rintro ⟨c, hc, heq⟩
        exact hnoCompletion c hc heq
      · exact fun c hc heq => absurd heq (hnoCompletion c hc)
  · intro c hc
    obtain ⟨a, ha, hid⟩ := hk.claimed c hc
    exact ⟨a, hamem a ha, hid⟩
  · intro c hc
    obtain ⟨a, ha, hid⟩ := hk.completed c hc
    exact ⟨a, hamem a ha, hid⟩
  · exact fun a ha => (hk.heads a ha).of_advances rfl
  · intro a ha
    obtain ⟨v, hv, hrest⟩ := hk.advanced a ha
    exact ⟨v, hvmem v hv, hrest⟩
  · intro v hv p hp
    have hkept : ParentKept w p := by
      rcases (Table.mem_insert hversions).1 hv with hold | rfl
      · exact hk.parents v hold p hp
      · rw [← hrow] at hp
        exact validateParents_eq_ok hparents p hp
    obtain ⟨parent, hparent, hrest⟩ := hkept
    exact ⟨parent, hvmem parent hparent, hrest⟩
  · intro s hs m hm
    obtain ⟨v, hv, hrest⟩ := hk.members s hs m hm
    exact ⟨v, hvmem v hv, hrest⟩

theorem Kept.createSnapshot {readings : Readings} {workspaceId runId attemptId : ℕ} {name : Text}
    {versionIds : List ℕ} {row : Snapshot} (hk : Kept w)
    (h : createSnapshot w readings workspaceId runId attemptId name versionIds = .ok (w', row)) :
    Kept w' ∧ w'.tables.versions = w.tables.versions ∧ w'.tables.actions = w.tables.actions ∧
      (∀ s ∈ w.tables.snapshots, s ∈ w'.tables.snapshots) ∧ w'.requests = w.requests := by
  simp only [Artifacts.createSnapshot, bind_eq_ok, require_eq_ok, orRaise_eq_ok, pure_eq_ok,
    Prod.mk.injEq] at h
  obtain ⟨_, -, run, -, thread, -, _, -, _, -, members, hmembers, _, -, snapshots, hinsert, rfl,
    -⟩ := h
  refine ⟨{ hk with claimsOf := ?_, heads := ?_, members := ?_ }, rfl, rfl, ?_, rfl⟩
  · exact fun a ha => (hk.claimsOf a ha).frame (.inl rfl) (.inl rfl)
  · exact fun a ha => (hk.heads a ha).of_advances rfl
  · intro s hs m hm
    rcases (Table.mem_insert hinsert).1 hs with hold | rfl
    · exact hk.members s hold m hm
    · exact snapshotMembers_eq_ok hmembers m (List.mem_mergeSort.1 hm)
  · exact fun s hs => (Table.mem_insert hinsert).2 (.inl hs)

end Cortex.Artifacts
