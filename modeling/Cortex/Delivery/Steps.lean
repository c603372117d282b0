import Cortex.Delivery.Ledger
import Cortex.Library.History

/-!
# What one delivery command can do

`exec` collects the six commands of the ledger.  `step_cases` takes a committed
command apart once: it leaves the chunks alone, or it writes one chunk along one
arrow of `Moved`.
-/

namespace Cortex.Delivery

open Control Time Transaction

variable {Digest : Type}

inductive Call (Digest : Type)
  | claim (chunkIndex : ℕ) (workerId : Text) (leaseSeconds : ℕ)
  | beginSend (chunkIndex : ℕ) (workerId : Text) (claimEpoch expectedRevision : ℕ)
      (observedDigest : Digest)
  | complete (chunkIndex : ℕ) (workerId : Text) (claimEpoch expectedRevision : ℕ)
      (receiptDigest : Digest) (transportWindowId : Option Text)
  | release (chunkIndex : ℕ) (workerId : Text) (claimEpoch expectedRevision : ℕ)
      (proof : ReleaseProof) (retryAfterMs : Option ℕ)
  | fail (chunkIndex : ℕ) (workerId : Text) (claimEpoch expectedRevision : ℕ) (category : Text)
  | resolve (chunkIndex : ℕ) (resolution : ResolutionKind) (expectedRevision : ℕ) (caller : Caller)

inductive Reply
  | claim (claim : ChunkClaim)
  | decision (decision : SendDecision)
  | resolution (claim : ChunkClaim) (replayed : Bool)

section

variable [DecidableEq Digest] (frozen : Frozen Digest) (requestHash : ResolutionRequest → Digest)

/-- One command, with its readings. -/
def exec (l : Ledger Digest) (input : Call Digest × Readings) :
    Except StoreError (Ledger Digest × Reply) :=
  let readings := input.2
  match input.1 with
  | .claim chunkIndex workerId leaseSeconds => do
      let (l, claim) ← claimChunk l readings chunkIndex workerId leaseSeconds
      pure (l, .claim claim)
  | .beginSend chunkIndex workerId claimEpoch expectedRevision observedDigest => do
      let (l, decision) ← beginChunkSend frozen l readings chunkIndex workerId claimEpoch
        expectedRevision observedDigest
      pure (l, .decision decision)
  | .complete chunkIndex workerId claimEpoch expectedRevision receiptDigest windowId => do
      let (l, claim) ← completeChunk l readings chunkIndex workerId claimEpoch expectedRevision
        receiptDigest windowId
      pure (l, .claim claim)
  | .release chunkIndex workerId claimEpoch expectedRevision proof retryAfterMs => do
      let (l, claim) ← releaseChunk l readings chunkIndex workerId claimEpoch expectedRevision
        proof retryAfterMs
      pure (l, .claim claim)
  | .fail chunkIndex workerId claimEpoch expectedRevision category => do
      let (l, claim) ← failChunk l readings chunkIndex workerId claimEpoch expectedRevision category
      pure (l, .claim claim)
  | .resolve chunkIndex resolution expectedRevision caller => do
      let (l, claim, replayed) ←
        resolveChunk requestHash l readings chunkIndex resolution expectedRevision caller
      pure (l, .resolution claim replayed)

/-- One committed command of the ledger. -/
abbrev Step : Ledger Digest → (Call Digest × Readings) × Reply → Ledger Digest → Prop :=
  Commits (exec frozen requestHash)

end

/-- A committed command and its reply. -/
abbrev Event (Digest : Type) := (Call Digest × Readings) × Reply

namespace Event

/-- A send permit issued for a chunk. -/
def permits (chunkIndex : ℕ) : Event Digest → Bool
  | ((.beginSend i _ _ _ _, _), .decision (.sendPermitted _ _ _)) => i == chunkIndex
  | _ => false

/-- A release of a chunk that the provider proved not sent. -/
def provesUnsent (chunkIndex : ℕ) : Event Digest → Bool
  | ((.release i _ _ _ .providerProvedBeforeSend _, _), _) => i == chunkIndex
  | _ => false

/-- A new decision of the operator to send a chunk again. -/
def retries (chunkIndex : ℕ) : Event Digest → Bool
  | ((.resolve i .retry _ _, _), .resolution _ false) => i == chunkIndex
  | _ => false

/-- The event is counted for no chunk other than this one. -/
def Spares (chunkIndex : ℕ) (e : Event Digest) : Prop :=
  e.permits chunkIndex = false ∧ e.provesUnsent chunkIndex = false ∧ e.retries chunkIndex = false

end Event

/-- The arrows of the chunk state machine, with what each is counted for. -/
inductive Moved (e : Event Digest) (chunkIndex : ℕ) (c c' : Chunk Digest) : Prop
  | claimed : e.Spares chunkIndex → c.val.state = .pending ∨ c.val.state = .claimed →
      c'.val.state = .claimed → c'.val.claimEpoch = c.val.claimEpoch + 1 → Moved e chunkIndex c c'
  | permitted : e.permits chunkIndex = true → e.provesUnsent chunkIndex = false →
      e.retries chunkIndex = false → c.val.state = .claimed → c'.val.state = .sendingUnknown →
      c'.val.claimEpoch = c.val.claimEpoch → Moved e chunkIndex c c'
  | closed : e.Spares chunkIndex → c.val.state = .claimed ∨ c.val.state = .sendingUnknown →
      c'.val.state = .delivered ∨ c'.val.state = .failed →
      c'.val.claimEpoch = c.val.claimEpoch → Moved e chunkIndex c c'
  | released : e.Spares chunkIndex → c.val.state = .claimed → c'.val.state = .pending →
      c'.val.claimEpoch = c.val.claimEpoch → Moved e chunkIndex c c'
  | returned : e.permits chunkIndex = false →
      e.provesUnsent chunkIndex = true ∨ e.retries chunkIndex = true →
      c.val.state = .sendingUnknown → c'.val.state = .pending →
      c'.val.claimEpoch = c.val.claimEpoch → Moved e chunkIndex c c'

/-- What a committed command does to the chunks; a chunk is claimed after all the earlier ones
are delivered. -/
inductive Effect (e : Event Digest) (chunks chunks' : List (Chunk Digest)) : Prop
  | unchanged : chunks' = chunks → (∀ chunkIndex, e.Spares chunkIndex) → Effect e chunks chunks'
  | wrote (chunkIndex : ℕ) (c c' : Chunk Digest) : chunks[chunkIndex]? = some c →
      chunks' = chunks.set chunkIndex c' → Moved e chunkIndex c c' →
      (c.val.claimEpoch < c'.val.claimEpoch →
        ∀ d ∈ chunks.take chunkIndex, d.val.state = .delivered) →
      (∀ other, other ≠ chunkIndex → e.Spares other) → Effect e chunks chunks'

/-! ## The commands -/

theorem chunkRow_eq_ok {l : Ledger Digest} {chunkIndex : ℕ} {row : Chunk Digest} :
    chunkRow l chunkIndex = .ok row ↔ l.chunks[chunkIndex]? = some row := orRaise_eq_ok

theorem writeChunk_eq_ok {l l' : Ledger Digest} {chunkIndex : ℕ} {columns : Columns Digest}
    {now : Stamp} {claim : ChunkClaim}
    (h : writeChunk l chunkIndex columns now = .ok (l', claim)) :
    ∃ hcheck : columns.Check, l'.chunks = l.chunks.set chunkIndex ⟨columns, hcheck⟩ := by
  unfold writeChunk at h
  split at h
  · rename_i hcheck
    simp only [refreshParent, bind_eq_ok, pure_eq_ok, Prod.mk.injEq] at h
    obtain ⟨_, ⟨-, -, rfl⟩, rfl, -⟩ := h
    exact ⟨hcheck, rfl⟩
  · simp at h

theorem requireFence_eq_ok {row : Chunk Digest} {source : ChunkState} {target : String}
    {workerId : Text} {claimEpoch expectedRevision : ℕ} {liveAt : Option Stamp} {u : Unit}
    (h : requireFence row source target workerId claimEpoch expectedRevision liveAt = .ok u) :
    row.val.state = source := by
  rw [requireFence, require_eq_ok] at h
  exact h.1

/-- One written chunk, which keeps its epoch. -/
theorem Effect.write {e : Event Digest} {l l' : Ledger Digest} {chunkIndex : ℕ} {row : Chunk Digest}
    {columns : Columns Digest} {now : Stamp} {claim : ChunkClaim}
    (hrow : l.chunks[chunkIndex]? = some row)
    (hwrite : writeChunk l chunkIndex columns now = .ok (l', claim))
    (hepoch : columns.claimEpoch = row.val.claimEpoch)
    (hmoved : ∀ c' : Chunk Digest, c'.val = columns → Moved e chunkIndex row c')
    (hspares : ∀ other, other ≠ chunkIndex → e.Spares other) : Effect e l.chunks l'.chunks := by
  obtain ⟨hcheck, hchunks⟩ := writeChunk_eq_ok hwrite
  refine .wrote chunkIndex row ⟨columns, hcheck⟩ hrow hchunks (hmoved _ rfl) ?_ hspares
  intro hlt
  rw [hepoch] at hlt
  exact absurd hlt (lt_irrefl _)

private theorem claim_effect {l l' : Ledger Digest} {readings : Readings} {chunkIndex : ℕ}
    {workerId : Text} {leaseSeconds : ℕ} {claim : ChunkClaim} {e : Event Digest}
    (hspares : ∀ other, e.Spares other)
    (h : claimChunk l readings chunkIndex workerId leaseSeconds = .ok (l', claim)) :
    Effect e l.chunks l'.chunks := by
  simp only [claimChunk, bind_eq_ok] at h
  obtain ⟨-, -, -, -, -, -, expires, -, row, hrow, h⟩ := h
  rw [chunkRow_eq_ok] at hrow
  split at h
  · simp only [pure_eq_ok, Prod.mk.injEq] at h
    exact .unchanged (h.1 ▸ rfl) hspares
  · rename_i hstate
    simp only [bind_eq_ok, require_eq_ok] at h
    obtain ⟨-, horder, h⟩ := h
    split at h
    · simp only [pure_eq_ok, Prod.mk.injEq] at h
      exact .unchanged (h.1 ▸ rfl) hspares
    · split at h
      · simp only [pure_eq_ok, Prod.mk.injEq] at h
        exact .unchanged (h.1 ▸ rfl) hspares
      · obtain ⟨hcheck, hchunks⟩ := writeChunk_eq_ok h
        refine .wrote chunkIndex row ⟨_, hcheck⟩ hrow hchunks ?_ (fun _ => horder)
          fun other _ => hspares other
        refine .claimed (hspares _) ?_ rfl rfl
        cases hrowstate : row.val.state <;> simp [hrowstate] at hstate ⊢

section

variable [DecidableEq Digest] {frozen : Frozen Digest} {requestHash : ResolutionRequest → Digest}

private theorem beginSend_effect {l l' : Ledger Digest} {readings : Readings} {chunkIndex : ℕ}
    {workerId : Text} {claimEpoch expectedRevision : ℕ} {observedDigest : Digest}
    {decision : SendDecision}
    (h : beginChunkSend frozen l readings chunkIndex workerId claimEpoch expectedRevision
      observedDigest = .ok (l', decision)) :
    Effect ((.beginSend chunkIndex workerId claimEpoch expectedRevision observedDigest, readings),
      .decision decision) l.chunks l'.chunks := by
  simp only [beginChunkSend, bind_eq_ok] at h
  obtain ⟨-, -, -, -, -, -, row, hrow, _, hfence, -, -, h⟩ := h
  rw [chunkRow_eq_ok] at hrow
  have hstate := requireFence_eq_ok hfence
  split at h
  · simp only [bind_eq_ok, pure_eq_ok, Prod.mk.injEq] at h
    obtain ⟨_, hfail, rfl, rfl⟩ := h
    have hspares : ∀ other, Event.Spares other
        ((.beginSend chunkIndex workerId claimEpoch expectedRevision observedDigest, readings),
          .decision .capabilityMismatch) := fun _ => ⟨rfl, rfl, rfl⟩
    refine .write hrow hfail rfl (fun c' hc' => ?_) fun other _ => hspares other
    exact .closed (hspares _) (.inl hstate) (.inr (by rw [hc'])) (by rw [hc'])
  · simp only [bind_eq_ok] at h
    obtain ⟨deadline, -, h⟩ := h
    split at h
    · simp only [bind_eq_ok, pure_eq_ok, Prod.mk.injEq] at h
      obtain ⟨_, hfail, rfl, rfl⟩ := h
      have hspares : ∀ other, Event.Spares other
          ((.beginSend chunkIndex workerId claimEpoch expectedRevision observedDigest, readings),
            .decision .capabilityExpired) := fun _ => ⟨rfl, rfl, rfl⟩
      refine .write hrow hfail rfl (fun c' hc' => ?_) fun other _ => hspares other
      exact .closed (hspares _) (.inl hstate) (.inr (by rw [hc'])) (by rw [hc'])
    · simp only [bind_eq_ok, pure_eq_ok, Prod.mk.injEq] at h
      obtain ⟨_, hwrite, rfl, rfl⟩ := h
      refine .write hrow hwrite rfl (fun c' hc' => ?_) fun other hother => ?_
      · refine .permitted ?_ rfl rfl hstate (by rw [hc']) (by rw [hc'])
        simp [Event.permits]
      · simp [Event.Spares, Event.permits, Event.provesUnsent, Event.retries, hother.symm]

private theorem resolve_effect {l l' : Ledger Digest} {readings : Readings} {chunkIndex : ℕ}
    {resolution : ResolutionKind} {expectedRevision : ℕ} {caller : Caller} {claim : ChunkClaim}
    {replayed : Bool}
    (h : resolveChunk requestHash l readings chunkIndex resolution expectedRevision caller =
      .ok (l', claim, replayed)) :
    Effect ((.resolve chunkIndex resolution expectedRevision caller, readings),
      .resolution claim replayed) l.chunks l'.chunks := by
  simp only [resolveChunk, bind_eq_ok] at h
  obtain ⟨-, -, _, -, -, -, h⟩ := h
  split at h
  · simp only [bind_eq_ok, pure_eq_ok, Prod.mk.injEq] at h
    obtain ⟨-, -, rfl, rfl, rfl⟩ := h
    refine .unchanged rfl fun other => ⟨rfl, rfl, ?_⟩
    cases resolution <;> rfl
  · simp only [bind_eq_ok, pure_eq_ok, Prod.mk.injEq] at h
    obtain ⟨⟨l₁, claim₁⟩, hresolve, rfl, rfl, rfl⟩ := h
    simp only [resolveSendingUnknown, bind_eq_ok, require_eq_ok, orRaise_eq_ok] at hresolve
    obtain ⟨row, hrow, -, hstate, -, -, resolutions, -, hwrite⟩ := hresolve
    rw [chunkRow_eq_ok] at hrow
    change Effect _ { l with resolutions := resolutions }.chunks l₁.chunks
    change { l with resolutions := resolutions }.chunks[chunkIndex]? = some row at hrow
    cases resolution with
    | assumeDelivered =>
        have hspares : ∀ other, @Event.Spares Digest other
            ((.resolve chunkIndex .assumeDelivered expectedRevision caller, readings),
              .resolution claim₁ false) := fun _ => ⟨rfl, rfl, rfl⟩
        refine .write hrow hwrite rfl (fun c' hc' => ?_) fun other _ => hspares other
        exact .closed (hspares _) (.inr hstate) (.inl (by rw [hc'])) (by rw [hc'])
    | retry =>
        refine .write hrow hwrite rfl (fun c' hc' => ?_) fun other hother => ?_
        · refine .returned rfl (.inr ?_) hstate (by rw [hc']) (by rw [hc'])
          simp [Event.retries]
        · simp [Event.Spares, Event.permits, Event.provesUnsent, Event.retries, hother.symm]

/-- A committed command leaves the chunks alone, or writes one of them along an arrow. -/
theorem step_cases {l l' : Ledger Digest} {e : Event Digest} (h : Step frozen requestHash l e l') :
    Effect e l.chunks l'.chunks := by
  obtain ⟨⟨call, readings⟩, reply⟩ := e
  unfold Step Commits at h
  cases call with
  | claim chunkIndex workerId leaseSeconds =>
      simp only [exec, bind_eq_ok, pure_eq_ok, Prod.mk.injEq] at h
      obtain ⟨_, hclaim, rfl, rfl⟩ := h
      exact claim_effect (fun _ => ⟨rfl, rfl, rfl⟩) hclaim
  | beginSend chunkIndex workerId claimEpoch expectedRevision observedDigest =>
      simp only [exec, bind_eq_ok, pure_eq_ok, Prod.mk.injEq] at h
      obtain ⟨_, hbegin, rfl, rfl⟩ := h
      exact beginSend_effect hbegin
  | complete chunkIndex workerId claimEpoch expectedRevision receiptDigest windowId =>
      simp only [exec, completeChunk, bind_eq_ok, pure_eq_ok, Prod.mk.injEq] at h
      obtain ⟨_, ⟨-, -, -, -, -, -, _, -, row, hrow, _, hfence, -, -, hwrite⟩, rfl, rfl⟩ := h
      rw [chunkRow_eq_ok] at hrow
      refine .write hrow hwrite rfl (fun c' hc' => ?_) fun other _ => ⟨rfl, rfl, rfl⟩
      exact .closed ⟨rfl, rfl, rfl⟩ (.inr (requireFence_eq_ok hfence)) (.inl (by rw [hc']))
        (by rw [hc'])
  | release chunkIndex workerId claimEpoch expectedRevision proof retryAfterMs =>
      simp only [exec, releaseChunk, bind_eq_ok, pure_eq_ok, Prod.mk.injEq] at h
      obtain ⟨_, ⟨-, -, -, -, -, -, -, -, _, -, row, hrow, _, hfence, hwrite⟩, rfl, rfl⟩ := h
      rw [chunkRow_eq_ok] at hrow
      have hstate := requireFence_eq_ok hfence
      cases proof with
      | rpcNotStarted =>
          refine .write hrow hwrite rfl (fun c' hc' => ?_) fun other _ => ⟨rfl, rfl, rfl⟩
          exact .released ⟨rfl, rfl, rfl⟩ hstate (by rw [hc']) (by rw [hc'])
      | providerProvedBeforeSend =>
          refine .write hrow hwrite rfl (fun c' hc' => ?_) fun other hother => ?_
          · refine .returned rfl (.inl ?_) hstate (by rw [hc']) (by rw [hc'])
            simp [Event.provesUnsent]
          · simp [Event.Spares, Event.permits, Event.provesUnsent, Event.retries, hother.symm]
  | fail chunkIndex workerId claimEpoch expectedRevision category =>
      simp only [exec, failChunk, bind_eq_ok, pure_eq_ok, Prod.mk.injEq] at h
      obtain ⟨_, ⟨-, -, -, -, -, -, _, -, -, -, row, hrow, _, hfence, hfail⟩, rfl, rfl⟩ := h
      rw [chunkRow_eq_ok] at hrow
      refine .write hrow hfail rfl (fun c' hc' => ?_) fun other _ => ⟨rfl, rfl, rfl⟩
      exact .closed ⟨rfl, rfl, rfl⟩ (.inr (requireFence_eq_ok hfence)) (.inr (by rw [hc']))
        (by rw [hc'])
  | resolve chunkIndex resolution expectedRevision caller =>
      simp only [exec, bind_eq_ok, pure_eq_ok, Prod.mk.injEq] at h
      obtain ⟨_, hresolve, rfl, rfl⟩ := h
      exact resolve_effect hresolve

end

end Cortex.Delivery
