import Cortex.Delivery.Sending

/-!
# What a turn of the loop does to its chunk

A permit that the client knows to be refused is released, so that its chunk is
`Waiting` for the next pass.  A send whose outcome is unknown leaves the chunk
`sending_unknown`, and no turn changes or sends such a chunk.
-/

namespace Cortex.Delivery

open Control Time Transaction

variable {Digest : Type} {l l' : Ledger Digest} {i : ℕ}

/-! ## Commands write the chunk they name -/

/-- At most the chunk at an index was written. -/
def Writes (i : ℕ) (l l' : Ledger Digest) : Prop :=
  l'.chunks = l.chunks ∨ ∃ row, l'.chunks = l.chunks.set i row

theorem Writes.refl (i : ℕ) (l : Ledger Digest) : Writes i l l := .inl rfl

theorem Writes.trans {m : Ledger Digest} (h : Writes i l m) (h' : Writes i m l') :
    Writes i l l' := by
  rcases h' with hsame | ⟨row, hset⟩
  · rw [Writes, hsame]
    exact h
  · rcases h with hsame | ⟨old, hset'⟩
    · exact .inr ⟨row, by rw [hset, hsame]⟩
    · exact .inr ⟨row, by rw [hset, hset', List.set_set]⟩

/-- The other chunks are as they were. -/
theorem Writes.other (h : Writes i l l') {j : ℕ} (hj : j ≠ i) : l'.chunks[j]? = l.chunks[j]? := by
  rcases h with hsame | ⟨row, hset⟩
  · rw [hsame]
  · rw [hset, List.getElem?_set_ne hj.symm]

/-- The row that a write leaves. -/
private theorem writeChunk_row {columns : Columns Digest} {now : Stamp} {claim : ChunkClaim}
    (h : writeChunk l i columns now = .ok (l', claim)) :
    ∃ row : Chunk Digest, row.val = columns ∧ l'.chunks = l.chunks.set i row := by
  obtain ⟨hcheck, hchunks⟩ := writeChunk_eq_ok h
  exact ⟨⟨columns, hcheck⟩, rfl, hchunks⟩

private theorem writeChunk_writes {columns : Columns Digest} {now : Stamp} {claim : ChunkClaim}
    (h : writeChunk l i columns now = .ok (l', claim)) : Writes i l l' := by
  obtain ⟨row, -, hchunks⟩ := writeChunk_row h
  exact .inr ⟨row, hchunks⟩

private theorem claimChunk_writes {readings : Readings} {workerId : Text} {leaseSeconds : ℕ}
    {claim : ChunkClaim} (h : claimChunk l readings i workerId leaseSeconds = .ok (l', claim)) :
    Writes i l l' := by
  simp only [claimChunk, bind_eq_ok] at h
  obtain ⟨_, -, _, -, _, -, expires, -, row, hrow, h⟩ := h
  split at h
  · simp only [pure_eq_ok, Prod.mk.injEq] at h
    exact .inl (h.1 ▸ rfl)
  · simp only [bind_eq_ok] at h
    obtain ⟨_, -, h⟩ := h
    split at h
    · simp only [pure_eq_ok, Prod.mk.injEq] at h
      exact .inl (h.1 ▸ rfl)
    · split at h
      · simp only [pure_eq_ok, Prod.mk.injEq] at h
        exact .inl (h.1 ▸ rfl)
      · exact writeChunk_writes h

private theorem releaseChunk_eq_ok {readings : Readings} {workerId : Text} {epoch revision : ℕ}
    {proof : ReleaseProof} {retryAfterMs : Option ℕ} {claim : ChunkClaim}
    (h : releaseChunk l readings i workerId epoch revision proof retryAfterMs = .ok (l', claim)) :
    Writes i l l' ∧ ∃ row, l.chunks[i]? = some row ∧ row.val.state = proof.source := by
  simp only [releaseChunk, bind_eq_ok] at h
  obtain ⟨_, -, _, -, _, -, _, -, retry, -, row, hrow, _, hfence, h⟩ := h
  exact ⟨writeChunk_writes h, row, chunkRow_eq_ok.1 hrow, requireFence_eq_ok hfence⟩

private theorem completeChunk_writes {readings : Readings} {workerId : Text} {epoch revision : ℕ}
    {receipt : Digest} {windowId : Option Text} {claim : ChunkClaim}
    (h : completeChunk l readings i workerId epoch revision receipt windowId = .ok (l', claim)) :
    Writes i l l' := by
  simp only [completeChunk, bind_eq_ok] at h
  obtain ⟨_, -, _, -, _, -, _, -, row, -, _, -, _, -, h⟩ := h
  exact writeChunk_writes h

private theorem failChunk_writes {readings : Readings} {workerId category : Text} {epoch revision : ℕ}
    {claim : ChunkClaim}
    (h : failChunk l readings i workerId epoch revision category = .ok (l', claim)) :
    Writes i l l' := by
  simp only [failChunk, failChunkRow, bind_eq_ok] at h
  obtain ⟨_, -, _, -, _, -, _, -, _, -, row, -, _, -, h⟩ := h
  exact writeChunk_writes h

section Begin

variable [DecidableEq Digest] {frozen : Frozen Digest} {readings : Readings} {workerId : Text}
  {epoch revision : ℕ} {observed : Digest} {decision : SendDecision}

private theorem beginChunkSend_eq_ok
    (h : beginChunkSend frozen l readings i workerId epoch revision observed = .ok (l', decision)) :
    Writes i l l' ∧ ∃ row, l.chunks[i]? = some row ∧ row.val.state = .claimed := by
  simp only [beginChunkSend, bind_eq_ok] at h
  obtain ⟨_, -, _, -, _, -, row, hrow, _, hfence, _, -, h⟩ := h
  refine ⟨?_, row, chunkRow_eq_ok.1 hrow, requireFence_eq_ok hfence⟩
  split at h
  · simp only [failChunkRow, bind_eq_ok, pure_eq_ok, Prod.mk.injEq] at h
    obtain ⟨_, hwrite, rfl, -⟩ := h
    exact writeChunk_writes hwrite
  · simp only [bind_eq_ok] at h
    obtain ⟨deadline, -, h⟩ := h
    split at h
    · simp only [failChunkRow, bind_eq_ok, pure_eq_ok, Prod.mk.injEq] at h
      obtain ⟨_, hwrite, rfl, -⟩ := h
      exact writeChunk_writes hwrite
    · simp only [bind_eq_ok, pure_eq_ok, Prod.mk.injEq] at h
      obtain ⟨_, hwrite, rfl, -⟩ := h
      exact writeChunk_writes hwrite

/-- A chunk whose permit is held by a worker under an epoch and a revision. -/
structure Permitted (l : Ledger Digest) (i : ℕ) (workerId : Text) (revision epoch : ℕ) : Prop where
  index : i < 100
  worker : transportWorkerId workerId = .ok ()
  positive : 1 ≤ epoch
  row : ∃ row, l.chunks[i]? = some row ∧ row.val.state = .sendingUnknown ∧
    row.val.claimOwner = some workerId ∧ row.val.claimEpoch = epoch ∧ row.val.revision = revision

private theorem beginChunkSend_permitted {windowId : Option Text} {revision' epoch' : ℕ}
    (h : beginChunkSend frozen l readings i workerId epoch revision observed =
      .ok (l', .sendPermitted revision' epoch' windowId)) :
    Permitted l' i workerId revision' epoch' := by
  simp only [beginChunkSend, bind_eq_ok] at h
  obtain ⟨_, hindex, _, hworker, _, hepoch, row, hrow, _, hfence, _, -, h⟩ := h
  rw [chunkRow_eq_ok] at hrow
  rw [requireFence, require_eq_ok] at hfence
  simp only [transportChunkIndex, require_eq_ok] at hindex
  simp only [transportClaimEpoch, require_eq_ok] at hepoch
  split at h
  · simp only [bind_eq_ok, pure_eq_ok, Prod.mk.injEq] at h
    obtain ⟨_, -, -, hdecision⟩ := h
    cases hdecision
  · simp only [bind_eq_ok] at h
    obtain ⟨deadline, -, h⟩ := h
    split at h
    · simp only [bind_eq_ok, pure_eq_ok, Prod.mk.injEq] at h
      obtain ⟨_, -, -, hdecision⟩ := h
      cases hdecision
    · simp only [bind_eq_ok, pure_eq_ok, Prod.mk.injEq, SendDecision.sendPermitted.injEq] at h
      obtain ⟨⟨m, claim⟩, hwrite, rfl, rfl, rfl, -⟩ := h
      have hclaim : claim.revision = row.val.revision + 1 ∧
          claim.claimEpoch = row.val.claimEpoch := by
        unfold writeChunk at hwrite
        split at hwrite
        · simp only [bind_eq_ok, pure_eq_ok, Prod.mk.injEq] at hwrite
          obtain ⟨_, -, -, rfl⟩ := hwrite
          exact ⟨rfl, rfl⟩
        · simp at hwrite
      obtain ⟨new, hnew, hchunks⟩ := writeChunk_row hwrite
      refine ⟨hindex, hworker, ?_, new, ?_, ?_, ?_, ?_, ?_⟩
      · rw [hclaim.2, hfence.2.2.1]
        exact hepoch
      · rw [hchunks, List.getElem?_set_self]
        exact (List.getElem?_eq_some_iff.1 hrow).1
      · rw [hnew]
      · rw [hnew]
        exact hfence.2.1
      · rw [hnew]
        exact hclaim.2.symm
      · rw [hnew]
        exact hclaim.1.symm

end Begin

/-! ## A refused permit is given back -/

/-- A chunk that nothing keeps from being claimed and sent. -/
structure Waiting (l : Ledger Digest) (i : ℕ) : Prop where
  index : i < 100
  earlier : ∀ earlier ∈ l.chunks.take i, earlier.val.state = .delivered
  row : ∃ row, l.chunks[i]? = some row ∧ row.val.state = .pending ∧ row.val.retryNotBefore = none

private theorem writeChunk_isOk {columns : Columns Digest} {row : Chunk Digest} (now : Stamp)
    (hrow : l.chunks[i]? = some row) (hcheck : columns.Check) :
    ∃ (l' : Ledger Digest) (new : Chunk Digest), new.val = columns ∧
      writeChunk l i columns now = .ok (l', chunkClaim new (.state columns.state)) ∧
      l'.chunks = l.chunks.set i new := by
  obtain ⟨new, hnew⟩ : ∃ new : Chunk Digest, new = ⟨columns, hcheck⟩ := ⟨_, rfl⟩
  have hne : (l.chunks.set i new).map (fun c => c.val.state) ≠ [] := by
    intro hnil
    have hlt := (List.getElem?_eq_some_iff.1 hrow).1
    have hset := List.map_eq_nil_iff.1 hnil
    rw [List.set_eq_nil_iff] at hset
    rw [hset] at hlt
    exact absurd hlt (Nat.not_lt_zero i)
  have hrequire : require ((l.chunks.set i new).map (fun c => c.val.state) ≠ [])
      (StoreError.runtimeError "transport delivery projection is incomplete") = .ok () :=
    require_eq_ok.2 hne
  unfold writeChunk
  rw [dif_pos hcheck, ← hnew]
  simp only [refreshParent, hrequire, ok_bind]
  exact ⟨_, new, by rw [hnew], rfl, rfl⟩

/-- The release of a held permit commits. -/
theorem Permitted.release {workerId : Text} {revision epoch : ℕ}
    (h : Permitted l i workerId revision epoch) (readings : Readings)
    (hearlier : ∀ earlier ∈ l.chunks.take i, earlier.val.state = .delivered) :
    ∃ l' claim, releaseChunk l readings i workerId epoch revision .providerProvedBeforeSend none =
      .ok (l', claim) ∧ Waiting l' i := by
  obtain ⟨hindex, hworker, hepoch, row, hrow, hstate, howner, hrowEpoch, hrevision⟩ := h
  have hcheck : { row.val with
      state := .pending, revision := row.val.revision + 1, claimOwner := none
      claimExpiresAt := none, retryNotBefore := none : Columns Digest }.Check := by
    have hold := row.property
    simp only [Columns.Check, hstate] at hold
    exact ⟨rfl, rfl, hold.2.2.2.1, hold.2.2.2.2.1, hold.2.2.2.2.2.1, hold.2.2.2.2.2.2⟩
  obtain ⟨l', new, hnew, hwrite, hchunks⟩ :=
    writeChunk_isOk (formatRegistryTime readings.now) hrow hcheck
  refine ⟨l', chunkClaim new (.state .pending), ?_, hindex, ?_, new, ?_, by rw [hnew], by rw [hnew]⟩
  · simp only [releaseChunk, bind_eq_ok]
    refine ⟨(), require_eq_ok.2 hindex, (), hworker, (), require_eq_ok.2 hepoch, (),
      require_eq_ok.2 (by simp), none, rfl, row, chunkRow_eq_ok.2 hrow, (), ?_, hwrite⟩
    rw [requireFence, require_eq_ok]
    exact ⟨hstate, howner, hrowEpoch, hrevision, by simp [ReleaseProof.source]⟩
  · rw [hchunks, List.take_set_of_le (le_refl i)]
    exact hearlier
  · rw [hchunks, List.getElem?_set_self]
    exact (List.getElem?_eq_some_iff.1 hrow).1

/-- A chunk that a worker has just claimed. -/
structure Claimed (l : Ledger Digest) (i : ℕ) (workerId : Text) (claim : ChunkClaim)
    (expiresAt : Stamp) : Prop where
  status : claim.status = .state .claimed
  owner : claim.claimOwner = some workerId
  positive : 1 ≤ claim.claimEpoch
  row : ∃ row, l.chunks[i]? = some row ∧ row.val.state = .claimed ∧
    row.val.claimOwner = some workerId ∧ row.val.claimEpoch = claim.claimEpoch ∧
    row.val.revision = claim.revision ∧ row.val.claimExpiresAt = some expiresAt

/-- Any worker can claim a waiting chunk at any later time. -/
theorem Waiting.claim (h : Waiting l i) {readings : Readings} {workerId : Text} {leaseSeconds : ℕ}
    {expires : Civil} (hworker : transportWorkerId workerId = .ok ())
    (hlease : 1 ≤ leaseSeconds ∧ leaseSeconds ≤ 3600)
    (hexpires : readings.now.addSeconds leaseSeconds = some expires) :
    ∃ l' claim, claimChunk l readings i workerId leaseSeconds = .ok (l', claim) ∧
      Claimed l' i workerId claim (formatRegistryTime expires) := by
  obtain ⟨hindex, hearlier, row, hrow, hstate, hretry⟩ := h
  have hcheck : { row.val with
      state := .claimed, revision := row.val.revision + 1, claimOwner := some workerId
      claimEpoch := row.val.claimEpoch + 1
      claimExpiresAt := some (formatRegistryTime expires)
      retryNotBefore := none : Columns Digest }.Check := by
    have hold := row.property
    simp only [Columns.Check, hstate] at hold
    exact ⟨by simp, by simp, rfl, hold.2.2.1, hold.2.2.2.1, hold.2.2.2.2.1, hold.2.2.2.2.2⟩
  obtain ⟨l', new, hnew, hwrite, hchunks⟩ :=
    writeChunk_isOk (formatRegistryTime readings.now) hrow hcheck
  refine ⟨l', chunkClaim new (.state .claimed), ?_, rfl, by rw [chunkClaim, hnew], ?_, new, ?_,
    by rw [hnew], by rw [hnew], rfl, rfl, by rw [hnew]⟩
  · simp only [claimChunk, bind_eq_ok]
    refine ⟨(), require_eq_ok.2 hindex, (), hworker, (), require_eq_ok.2 hlease, expires,
      orRaise_eq_ok.2 hexpires, row, chunkRow_eq_ok.2 hrow, ?_⟩
    rw [if_neg (by simp [hstate])]
    simp only [bind_eq_ok]
    refine ⟨(), require_eq_ok.2 hearlier, ?_⟩
    rw [if_neg (by simp [hstate]), if_neg (by simp [hretry])]
    exact hwrite
  · rw [chunkClaim, hnew]
    exact Nat.succ_pos _
  · rw [hchunks, List.getElem?_set_self]
    exact (List.getElem?_eq_some_iff.1 hrow).1

/-- A chunk just claimed gets its permit while the lease lives and the projection is in force. -/
theorem Claimed.begin [DecidableEq Digest] {frozen : Frozen Digest} {workerId : Text}
    {claim : ChunkClaim} {expiresAt : Stamp} (h : Claimed l i workerId claim expiresAt)
    (hindex : i < 100) (hworker : transportWorkerId workerId = .ok ()) {readings : Readings}
    (hverified : readings.projectionVerified = true)
    (hlive : formatRegistryTime readings.now < expiresAt) {deadline : Civil}
    (hdeadline : readings.now.addSeconds frozen.rpcTimeoutSeconds = some deadline)
    (hcapabilities : ∀ capability ∈ frozen.capabilities, capability.1 = i →
      ¬capability.2 ≤ formatRegistryTime deadline) :
    ∃ l' revision epoch windowId, beginChunkSend frozen l readings i workerId claim.claimEpoch
      claim.revision frozen.capabilityBindingDigest =
        .ok (l', .sendPermitted revision epoch windowId) := by
  obtain ⟨-, -, hpositive, row, hrow, hstate, howner, hepoch, hrevision, hexpires⟩ := h
  have hcheck : { row.val with
      state := .sendingUnknown, revision := row.val.revision + 1
      claimExpiresAt := none : Columns Digest }.Check := by
    have hold := row.property
    simp only [Columns.Check, hstate] at hold
    exact ⟨hold.1, rfl, hold.2.2.1, hold.2.2.2.1, hold.2.2.2.2.1, hold.2.2.2.2.2⟩
  obtain ⟨l', new, -, hwrite, -⟩ :=
    writeChunk_isOk (formatRegistryTime readings.now) hrow hcheck
  refine ⟨l', new.val.revision, new.val.claimEpoch, readings.transportWindowId, ?_⟩
  simp only [beginChunkSend, bind_eq_ok]
  refine ⟨(), require_eq_ok.2 hindex, (), hworker, (), require_eq_ok.2 hpositive, row,
    chunkRow_eq_ok.2 hrow, (), ?_, (), require_eq_ok.2 hverified, ?_⟩
  · rw [requireFence, require_eq_ok]
    refine ⟨hstate, howner, hepoch, hrevision, fun now hnow => ⟨expiresAt, hexpires, ?_⟩⟩
    simp only [Option.mem_def, Option.some.injEq] at hnow
    exact hnow ▸ hlive
  · rw [if_neg (not_not.2 rfl)]
    simp only [bind_eq_ok]
    refine ⟨deadline, orRaise_eq_ok.2 hdeadline, ?_⟩
    rw [if_neg]
    · simp only [bind_eq_ok, pure_eq_ok]
      exact ⟨_, hwrite, rfl⟩
    · rintro ⟨capability, hmem, hchunk, hexpired⟩
      exact hcapabilities capability hmem hchunk hexpired

/-! ## What a send knows -/

section Send

variable [DecidableEq Digest] {frozen : Frozen Digest} {destination : Destination} {port : Port}
  {receiptDigest : Text → Digest} {chunk : WireChunk} {readings : ChunkReadings Digest}
  {send : SendReadings Digest} {sent : Sent}

/-- The frame was never handed over, or the worker declined to start the call. -/
def Sent.Refused (sent : Sent) : Prop :=
  sent.answer = none ∨ sent.answer = some operationConflict

/-- The frame was handed over, and the answer is none of those that the protocol defines. -/
def Sent.Unanswered (sent : Sent) : Prop :=
  ∃ answer, sent.answer = some answer ∧ answer ≠ operationConflict ∧
    ∀ result, answer = .result result → result.isValid = false

/-- Nothing but the line keeps the frame from the supervisor. -/
structure Cleared (frozen : Frozen Digest) (destination : Destination) (chunk : WireChunk)
    (send : SendReadings Digest) : Prop where
  matched : send.destinationMatches = some true
  capability : send.capabilityDigest = some frozen.capabilityBindingDigest
  built : buildsRequest chunk destination = true
  gate : send.gateOpen = some true

/-- A cleared send whose refusal, if there is one, is accepted by Control. -/
structure Guarded (frozen : Frozen Digest) (destination : Destination) (chunk : WireChunk)
    (readings : ChunkReadings Digest) : Prop where
  cleared : Cleared frozen destination chunk readings.send
  released : readings.send.lineFree = false ∨ readings.send.answer = operationConflict →
    readings.settle.isSome = true

private theorem sendChunk_cleared (h : Cleared frozen destination chunk send) :
    sendChunk frozen chunk destination send = receive (request send) := by
  unfold sendChunk
  simp only [h.matched, h.capability, h.built]
  simp

/-- A refusal that is not of the line looks like an unknown outcome. -/
theorem sendChunk_not_cleared (h : ¬Cleared frozen destination chunk send) :
    (sendChunk frozen chunk destination send).answer = none ∧
      ∃ error, error ≠ .refusedBeforeSend ∧
        (sendChunk frozen chunk destination send).outcome = .error error := by
  unfold sendChunk
  split
  · exact ⟨rfl, _, by simp, rfl⟩
  · exact ⟨rfl, _, by simp, rfl⟩
  · rename_i hmatched
    split
    · exact ⟨rfl, _, by simp, rfl⟩
    · rename_i digest hdigest
      by_cases hsame : digest = frozen.capabilityBindingDigest
      · rw [if_neg (not_not.2 hsame)]
        by_cases hbuilt : buildsRequest chunk destination = true
        · rw [if_neg (by simp [hbuilt])]
          cases hgate : send.gateOpen with
          | none =>
              have hrequest : request send = (none, .error .other) := by
                rw [request, hgate]
              rw [hrequest]
              exact ⟨rfl, _, by simp, rfl⟩
          | some isOpen =>
              cases isOpen with
              | false =>
                  have hrequest : request send = (none, .error .transportGateClosed) := by
                    rw [request, hgate]
                  rw [hrequest]
                  exact ⟨rfl, _, by simp, rfl⟩
              | true => exact absurd ⟨hmatched, hsame ▸ hdigest, hbuilt, hgate⟩ h
        · rw [if_pos (by simpa using hbuilt)]
          exact ⟨rfl, _, by simp, rfl⟩
      · rw [if_pos hsame]
        exact ⟨rfl, _, by simp, rfl⟩

/-- A cleared send that is refused is known to be refused, by a busy line or by the worker. -/
theorem sendChunk_refused (h : Cleared frozen destination chunk send)
    (hrefused : (sendChunk frozen chunk destination send).Refused) :
    (sendChunk frozen chunk destination send).outcome = .error .refusedBeforeSend ∧
      (send.lineFree = false ∨ send.answer = operationConflict) := by
  rw [sendChunk_cleared h] at hrefused ⊢
  unfold request at hrefused ⊢
  simp only [h.gate] at hrefused ⊢
  by_cases hline : send.lineFree = true
  · simp only [hline, if_true] at hrefused ⊢
    cases hanswer : send.answer with
    | protocolError category =>
        simp only [hanswer] at hrefused ⊢
        by_cases hcategory : category = refusedBeforeSendCategory
        · rw [hcategory]
          exact ⟨by simp [receive], .inr rfl⟩
        · rcases hrefused with hnone | hconflict
          · simp [receive] at hnone
          · simp only [receive, operationConflict, Option.some.injEq,
              WorkerAnswer.protocolError.injEq] at hconflict
            exact absurd hconflict hcategory
    | result r => simp [hanswer, Sent.Refused, operationConflict, receive] at hrefused
    | unreadable => simp [hanswer, Sent.Refused, operationConflict, receive] at hrefused
    | raises => simp [hanswer, Sent.Refused, operationConflict, receive] at hrefused
  · simp only [Bool.not_eq_true] at hline
    simp [hline, receive]

/-- A cleared send is refused by a busy line and by a worker that declines the call. -/
theorem Cleared.refused (h : Cleared frozen destination chunk send)
    (hwhy : send.lineFree = false ∨ send.answer = operationConflict) :
    (sendChunk frozen chunk destination send).Refused := by
  rw [sendChunk_cleared h]
  unfold request
  simp only [h.gate]
  by_cases hline : send.lineFree = true
  · rcases hwhy with hbusy | hconflict
    · rw [hline] at hbusy
      cases hbusy
    · right
      simp [hline, hconflict, operationConflict, receive]
  · left
    simp only [Bool.not_eq_true] at hline
    simp [hline, receive]

/-- A send without an answer of the protocol is taken for unknown. -/
theorem sendChunk_unanswered (h : (sendChunk frozen chunk destination send).Unanswered) :
    ∃ error, error ≠ .refusedBeforeSend ∧
      (sendChunk frozen chunk destination send).outcome = .error error := by
  by_cases hcleared : Cleared frozen destination chunk send
  · rw [sendChunk_cleared hcleared] at h ⊢
    unfold request at h ⊢
    simp only [hcleared.gate] at h ⊢
    by_cases hline : send.lineFree = true
    · simp only [hline, if_true] at h ⊢
      obtain ⟨answer, hsent, hconflict, hvalid⟩ := h
      cases hanswer : send.answer with
      | protocolError category =>
          simp only [hanswer] at hsent ⊢
          simp only [receive, Option.some.injEq] at hsent
          have hcategory : category ≠ refusedBeforeSendCategory := by
            rintro rfl
            exact hconflict hsent.symm
          exact ⟨.outcomeUnknown, by simp, by simp [receive, hcategory]⟩
      | result r =>
          simp only [hanswer, receive, Option.some.injEq] at hsent
          exact ⟨.outcomeUnknown, by simp, by simp [receive, parseSendResult, hvalid r hsent.symm]⟩
      | unreadable => exact ⟨.outcomeUnknown, by simp, rfl⟩
      | raises => exact ⟨.outcomeUnknown, by simp, rfl⟩
    · simp only [Bool.not_eq_true] at hline
      obtain ⟨answer, hsent, -⟩ := h
      simp [hline, receive] at hsent
  · exact (sendChunk_not_cleared hcleared).2

/-! ## One turn of the loop -/

omit [DecidableEq Digest] in
private theorem claimChunk_earlier {r : Readings} {workerId : Text} {leaseSeconds : ℕ} {claim : ChunkClaim}
    (h : claimChunk l r i workerId leaseSeconds = .ok (l', claim))
    (hstatus : claim.status = .state .pending ∨ claim.status = .state .claimed) :
    ∀ earlier ∈ l'.chunks.take i, earlier.val.state = .delivered := by
  have hwrites := claimChunk_writes h
  have htake : l'.chunks.take i = l.chunks.take i := by
    rcases hwrites with hsame | ⟨row, hset⟩
    · rw [hsame]
    · rw [hset, List.take_set_of_le (le_refl i)]
  rw [htake]
  simp only [claimChunk, bind_eq_ok] at h
  obtain ⟨_, -, _, -, _, -, expires, -, row, hrow, h⟩ := h
  split at h
  · rename_i hclosed
    simp only [pure_eq_ok, Prod.mk.injEq] at h
    obtain ⟨-, rfl⟩ := h
    simp only [chunkClaim, ClaimStatus.state.injEq] at hstatus
    rcases hstatus with hs | hs <;> simp [hs] at hclosed
  · simp only [bind_eq_ok, require_eq_ok] at h
    exact h.choose_spec.1

/-- What a turn with a permitted send went through. -/
def WentThrough (frozen : Frozen Digest) (destination : Destination) (port : Port)
    (receiptDigest : Text → Digest) (i : ℕ) (chunk : WireChunk) (readings : ChunkReadings Digest)
    (turn : Turn Digest) (sent : Sent) : Prop :=
  ∃ (m : Ledger Digest) (revision epoch : ℕ) (windowId : Option Text),
    Permitted m i port.workerId revision epoch ∧
    (∀ earlier ∈ m.chunks.take i, earlier.val.state = .delivered) ∧
    sent = sendChunk frozen chunk destination readings.send ∧
    turn.ledger = (settle port receiptDigest m i revision epoch windowId readings.settle sent).1 ∧
    turn.next = .ok (settle port receiptDigest m i revision epoch windowId readings.settle sent).2

private theorem permitTurn_attempt {claim : ChunkClaim} {observed : Digest}
    (hearlier : ∀ earlier ∈ l.chunks.take i, earlier.val.state = .delivered)
    (h : (permitTurn frozen destination port receiptDigest l i chunk claim observed
      readings).attempt = some sent) :
    WentThrough frozen destination port receiptDigest i chunk readings
      (permitTurn frozen destination port receiptDigest l i chunk claim observed readings) sent := by
  unfold permitTurn at h ⊢
  split at h
  · simp at h
  · simp at h
  · simp at h
  · rename_i m revision epoch windowId hbegin
    simp only [Option.some.injEq] at h
    unfold control at hbegin
    split at hbegin
    · cases hbegin
    · refine ⟨m, revision, epoch, windowId, beginChunkSend_permitted hbegin, ?_, h.symm, ?_, ?_⟩
      · rcases (beginChunkSend_eq_ok hbegin).1 with hsame | ⟨row, hset⟩
        · rw [hsame]
          exact hearlier
        · rw [hset, List.take_set_of_le (le_refl i)]
          exact hearlier
      · simp only [h]
      · simp only [h]

omit [DecidableEq Digest] in
private theorem giveBack_attempt {claim : ChunkClaim} {result : DeliveryResult} :
    (giveBack port l i claim readings result).attempt = none := by
  unfold giveBack
  split <;> rfl

private theorem sendTurn_attempt {firstClaim : Option ChunkClaim}
    (h : (sendTurn frozen destination port receiptDigest l i chunk firstClaim readings).attempt =
      some sent) :
    WentThrough frozen destination port receiptDigest i chunk readings
      (sendTurn frozen destination port receiptDigest l i chunk firstClaim readings) sent := by
  unfold sendTurn at h ⊢
  cases hclaim : turnClaim port l i firstClaim readings with
  | error error => simp [hclaim] at h
  | ok claimed =>
      obtain ⟨m, claim⟩ := claimed
      simp only [hclaim] at h ⊢
      have hearlier : claim.status = .state .pending ∨ claim.status = .state .claimed →
          ∀ earlier ∈ m.chunks.take i, earlier.val.state = .delivered := by
        intro hstatus
        by_cases hi : i = 0
        · subst hi
          simp
        · rw [turnClaim, if_neg hi] at hclaim
          dsimp only at hclaim
          unfold control at hclaim
          split at hclaim
          · cases hclaim
          · exact claimChunk_earlier hclaim hstatus
      have hopen : (∀ earlier ∈ m.chunks.take i, earlier.val.state = .delivered) →
          (claimedTurn frozen destination port receiptDigest m i chunk claim readings).attempt =
            some sent →
          WentThrough frozen destination port receiptDigest i chunk readings
            (claimedTurn frozen destination port receiptDigest m i chunk claim readings) sent := by
        intro hearlier h
        unfold claimedTurn at h ⊢
        split at h
        · simp at h
        · rename_i howner
          rw [if_neg howner]
          split at h
          · simp [giveBack_attempt] at h
          · split at h
            · simp [giveBack_attempt] at h
            · rename_i hsame
              rw [if_neg hsame]
              exact permitTurn_attempt hearlier h
      split at h
      · simp at h
      · simp at h
      · simp at h
      · simp at h
      · rename_i hstatus
        exact hopen (hearlier (.inl hstatus)) h
      · rename_i hstatus
        exact hopen (hearlier (.inr hstatus)) h

/-! ## One turn keeps the other chunks, and an unknown one -/

omit [DecidableEq Digest] in
private theorem report_writes {settled : Option Readings} {result : Option DeliveryResult}
    {call : Readings → Except StoreError (Ledger Digest × ChunkClaim)}
    (hcall : ∀ r l' claim, call r = .ok (l', claim) → Writes i l l') :
    Writes i l (report l i settled call result).1 := by
  unfold report
  split
  · rename_i l' claim hcontrol
    unfold control at hcontrol
    split at hcontrol
    · cases hcontrol
    · exact hcall _ _ _ hcontrol
  · exact .refl i l

omit [DecidableEq Digest] in
private theorem settle_writes {revision epoch : ℕ} {windowId : Option Text} {settled : Option Readings} :
    Writes i l (settle port receiptDigest l i revision epoch windowId settled sent).1 := by
  unfold settle
  split
  · exact report_writes fun _ _ _ h => (releaseChunk_eq_ok h).1
  · exact .refl i l
  · exact report_writes fun _ _ _ h => completeChunk_writes h
  · exact report_writes fun _ _ _ h => (releaseChunk_eq_ok h).1
  · exact report_writes fun _ _ _ h => (releaseChunk_eq_ok h).1
  · exact report_writes fun _ _ _ h => failChunk_writes h

omit [DecidableEq Digest] in
private theorem turnClaim_writes {firstClaim : Option ChunkClaim} {claim : ChunkClaim}
    (h : turnClaim port l i firstClaim readings = .ok (l', claim)) : Writes i l l' := by
  unfold turnClaim at h
  split at h
  · simp only [Except.ok.injEq, Prod.mk.injEq] at h
    exact .inl (h.1 ▸ rfl)
  · unfold control at h
    split at h
    · cases h
    · exact claimChunk_writes h

omit [DecidableEq Digest] in
private theorem giveBack_writes {claim : ChunkClaim} {result : DeliveryResult} :
    Writes i l (giveBack port l i claim readings result).ledger := by
  unfold giveBack
  split
  · rename_i l' claim' hcontrol
    unfold control at hcontrol
    split at hcontrol
    · cases hcontrol
    · exact (releaseChunk_eq_ok hcontrol).1
  · exact .refl i l

private theorem permitTurn_writes {claim : ChunkClaim} {observed : Digest} :
    Writes i l (permitTurn frozen destination port receiptDigest l i chunk claim observed
      readings).ledger := by
  have hbegin : ∀ {m : Ledger Digest} {decision : SendDecision},
      (control readings.begin fun r => beginChunkSend frozen l r i port.workerId claim.claimEpoch
        claim.revision observed) = .ok (m, decision) → Writes i l m := by
    intro m decision h
    unfold control at h
    split at h
    · cases h
    · exact (beginChunkSend_eq_ok h).1
  unfold permitTurn
  split
  · exact .refl i l
  · exact hbegin ‹_›
  · exact hbegin ‹_›
  · exact (hbegin ‹_›).trans settle_writes

private theorem claimedTurn_writes {claim : ChunkClaim} :
    Writes i l (claimedTurn frozen destination port receiptDigest l i chunk claim
      readings).ledger := by
  unfold claimedTurn
  split
  · exact .refl i l
  · split
    · exact giveBack_writes
    · split
      · exact giveBack_writes
      · exact permitTurn_writes

private theorem sendTurn_writes {firstClaim : Option ChunkClaim} :
    Writes i l (sendTurn frozen destination port receiptDigest l i chunk firstClaim
      readings).ledger := by
  unfold sendTurn
  split
  · exact .refl i l
  · rename_i m claim hclaim
    have hwrites := turnClaim_writes hclaim
    split
    · exact hwrites
    · exact hwrites
    · exact hwrites
    · exact hwrites
    · exact hwrites.trans claimedTurn_writes
    · exact hwrites.trans claimedTurn_writes

/-- A chunk whose sending is unknown. -/
def IsUnknown (l : Ledger Digest) (i : ℕ) : Prop :=
  ∃ row, l.chunks[i]? = some row ∧ row.val.state = .sendingUnknown

omit [DecidableEq Digest] in
theorem IsUnknown.state (h : IsUnknown l i) {row : Chunk Digest} (hrow : l.chunks[i]? = some row) :
    row.val.state = .sendingUnknown := by
  obtain ⟨row', hrow', hstate⟩ := h
  rw [hrow, Option.some.injEq] at hrow'
  rw [hrow']
  exact hstate

omit [DecidableEq Digest] in
private theorem turnClaim_unknown (hunknown : IsUnknown l i) {firstClaim : Option ChunkClaim}
    {claim : ChunkClaim} (h : turnClaim port l i firstClaim readings = .ok (l', claim)) :
    l' = l := by
  unfold turnClaim at h
  split at h
  · simp only [Except.ok.injEq, Prod.mk.injEq] at h
    exact h.1.symm
  · unfold control at h
    split at h
    · cases h
    · simp only [claimChunk, bind_eq_ok] at h
      obtain ⟨_, -, _, -, _, -, expires, -, row, hrow, h⟩ := h
      rw [if_pos (by simp [hunknown.state (chunkRow_eq_ok.1 hrow)])] at h
      simp only [pure_eq_ok, Prod.mk.injEq] at h
      exact h.1.symm

/-- A turn at a chunk whose sending is unknown neither sends nor changes anything. -/
private theorem sendTurn_unknown (hunknown : IsUnknown l i) {firstClaim : Option ChunkClaim} :
    (sendTurn frozen destination port receiptDigest l i chunk firstClaim readings).attempt = none ∧
      (sendTurn frozen destination port receiptDigest l i chunk firstClaim readings).ledger = l := by
  have hgiveBack : ∀ {claim : ChunkClaim} {result : DeliveryResult},
      (giveBack port l i claim readings result).ledger = l := by
    intro claim result
    unfold giveBack
    split
    · rename_i hcontrol
      unfold control at hcontrol
      split at hcontrol
      · cases hcontrol
      · obtain ⟨-, row, hrow, hstate⟩ := releaseChunk_eq_ok hcontrol
        rw [hunknown.state hrow] at hstate
        cases hstate
    · rfl
  have hpermit : ∀ {claim : ChunkClaim} {observed : Digest},
      (permitTurn frozen destination port receiptDigest l i chunk claim observed
        readings).attempt = none ∧
      (permitTurn frozen destination port receiptDigest l i chunk claim observed
        readings).ledger = l := by
    intro claim observed
    have hbegin : ∀ {m : Ledger Digest} {decision : SendDecision},
        (control readings.begin fun r => beginChunkSend frozen l r i port.workerId claim.claimEpoch
          claim.revision observed) ≠ .ok (m, decision) := by
      intro m decision h
      unfold control at h
      split at h
      · cases h
      · obtain ⟨-, row, hrow, hstate⟩ := beginChunkSend_eq_ok h
        rw [hunknown.state hrow] at hstate
        cases hstate
    unfold permitTurn
    split
    · exact ⟨rfl, rfl⟩
    · exact absurd ‹_› hbegin
    · exact absurd ‹_› hbegin
    · exact absurd ‹_› hbegin
  have hclaimed : ∀ {claim : ChunkClaim},
      (claimedTurn frozen destination port receiptDigest l i chunk claim readings).attempt = none ∧
      (claimedTurn frozen destination port receiptDigest l i chunk claim readings).ledger = l := by
    intro claim
    unfold claimedTurn
    split
    · exact ⟨rfl, rfl⟩
    · split
      · exact ⟨giveBack_attempt, hgiveBack⟩
      · split
        · exact ⟨giveBack_attempt, hgiveBack⟩
        · exact hpermit
  unfold sendTurn
  split
  · exact ⟨rfl, rfl⟩
  · rename_i m claim hclaim
    obtain rfl := turnClaim_unknown hunknown hclaim
    split
    · exact ⟨rfl, rfl⟩
    · exact ⟨rfl, rfl⟩
    · exact ⟨rfl, rfl⟩
    · exact ⟨rfl, rfl⟩
    · exact hclaimed
    · exact hclaimed

/-! ## A whole pass -/

variable {chunks : List WireChunk} {pass : ℕ → ChunkReadings Digest}
  {firstClaim : Option ChunkClaim} {delivered : ℕ}

/-- A pass neither sends nor changes a chunk whose sending is unknown. -/
theorem sendFrom_unknown {j : ℕ} (hunknown : IsUnknown l j) :
    (sendFrom frozen destination port receiptDigest pass firstClaim l i delivered
        chunks).ledger.chunks[j]? = l.chunks[j]? ∧
      ∀ attempt ∈ (sendFrom frozen destination port receiptDigest pass firstClaim l i delivered
        chunks).attempts, attempt.1 ≠ j := by
  induction chunks generalizing l i delivered with
  | nil => simp [sendFrom]
  | cons chunk rest ih =>
      -- The turn at the chunk itself is idle, and the others write elsewhere.
      have hturn : (sendTurn frozen destination port receiptDigest l i chunk firstClaim
            (pass i)).ledger.chunks[j]? = l.chunks[j]? ∧
          ∀ sent, (sendTurn frozen destination port receiptDigest l i chunk firstClaim
            (pass i)).attempt = some sent → i ≠ j := by
        by_cases hij : i = j
        · subst hij
          have hidle : (sendTurn frozen destination port receiptDigest l i chunk firstClaim
                (pass i)).attempt = none ∧
              (sendTurn frozen destination port receiptDigest l i chunk firstClaim
                (pass i)).ledger = l := sendTurn_unknown hunknown
          rw [hidle.1, hidle.2]
          exact ⟨rfl, by simp⟩
        · exact ⟨sendTurn_writes.other (Ne.symm hij), fun _ _ => hij⟩
      obtain ⟨hkept, hattempt⟩ := hturn
      have hturns : ∀ attempt ∈ (sendTurn frozen destination port receiptDigest l i chunk firstClaim
          (pass i)).attempt.toList.map (fun sent => (i, chunk, sent)), attempt.1 ≠ j := by
        intro attempt hmem
        simp only [List.mem_map, Option.mem_toList] at hmem
        obtain ⟨sent, hsent, rfl⟩ := hmem
        exact hattempt sent hsent
      unfold sendFrom
      dsimp only
      split
      · exact ⟨hkept, hturns⟩
      · exact ⟨hkept, hturns⟩
      · have hstill : IsUnknown (sendTurn frozen destination port receiptDigest l i chunk firstClaim
            (pass i)).ledger j := by
          obtain ⟨row, hrow, hstate⟩ := hunknown
          exact ⟨row, hkept.trans hrow, hstate⟩
        obtain ⟨hledger, hlater⟩ := ih hstill
        refine ⟨hledger.trans hkept, ?_⟩
        intro attempt hmem
        rcases List.mem_append.1 hmem with hmem | hmem
        · exact hturns attempt hmem
        · exact hlater attempt hmem

private theorem sendChunk_error {send : SendReadings Digest}
    (h : (sendChunk frozen chunk destination send).Refused ∨
      (sendChunk frozen chunk destination send).Unanswered) :
    ∃ error, (sendChunk frozen chunk destination send).outcome = .error error := by
  rcases h with h | h
  · by_cases hcleared : Cleared frozen destination chunk send
    · exact ⟨_, (sendChunk_refused hcleared h).1⟩
    · obtain ⟨-, error, -, houtcome⟩ := sendChunk_not_cleared hcleared
      exact ⟨error, houtcome⟩
  · obtain ⟨error, -, houtcome⟩ := sendChunk_unanswered h
    exact ⟨error, houtcome⟩

omit [DecidableEq Digest] in
/-- The loop stops after a send that raised. -/
private theorem settle_error {revision epoch : ℕ} {windowId : Option Text} {settled : Option Readings}
    {error : SendError} (h : sent.outcome = .error error) :
    (settle port receiptDigest l i revision epoch windowId settled sent).2 ≠ none := by
  unfold settle report
  simp only [h]
  cases error
  all_goals
    simp only
    try split
    all_goals simp

/-- The sends of a pass are those of its turns. -/
theorem sendFrom_sent {j : ℕ} (hmem : (j, chunk, sent) ∈ (sendFrom frozen destination port
      receiptDigest pass firstClaim l i delivered chunks).attempts) :
    sent = sendChunk frozen chunk destination (pass j).send := by
  induction chunks generalizing l i delivered with
  | nil => simp [sendFrom] at hmem
  | cons head rest ih =>
      have hturn : (j, chunk, sent) ∈ (sendTurn frozen destination port receiptDigest l i head
            firstClaim (pass i)).attempt.toList.map (fun sent => (i, head, sent)) →
          sent = sendChunk frozen chunk destination (pass j).send := by
        intro hmem
        simp only [List.mem_map, Option.mem_toList, Prod.mk.injEq] at hmem
        obtain ⟨sent', hattempt, rfl, rfl, rfl⟩ := hmem
        obtain ⟨-, -, -, -, -, -, hsend, -⟩ := sendTurn_attempt hattempt
        exact hsend
      unfold sendFrom at hmem
      dsimp only at hmem
      split at hmem
      · exact hturn hmem
      · exact hturn hmem
      · rcases List.mem_append.1 hmem with hmem | hmem
        · exact hturn hmem
        · exact ih hmem

/-- A refused or unanswered send is the last of its pass. -/
theorem sendFrom_attempt {j : ℕ} (hmem : (j, chunk, sent) ∈ (sendFrom frozen destination port
      receiptDigest pass firstClaim l i delivered chunks).attempts)
    (hsent : sent.Refused ∨ sent.Unanswered) :
    ∃ turn, WentThrough frozen destination port receiptDigest j chunk (pass j) turn sent ∧
      (sendFrom frozen destination port receiptDigest pass firstClaim l i delivered
        chunks).ledger = turn.ledger := by
  induction chunks generalizing l i delivered with
  | nil => simp [sendFrom] at hmem
  | cons head rest ih =>
      have hturn : (j, chunk, sent) ∈ (sendTurn frozen destination port receiptDigest l i head
            firstClaim (pass i)).attempt.toList.map (fun sent => (i, head, sent)) →
          WentThrough frozen destination port receiptDigest j chunk (pass j)
            (sendTurn frozen destination port receiptDigest l i head firstClaim (pass i)) sent := by
        intro hmem
        simp only [List.mem_map, Option.mem_toList, Prod.mk.injEq] at hmem
        obtain ⟨sent', hattempt, rfl, rfl, rfl⟩ := hmem
        exact sendTurn_attempt hattempt
      unfold sendFrom at hmem ⊢
      dsimp only at hmem ⊢
      split at hmem
      · exact ⟨_, hturn hmem, rfl⟩
      · exact ⟨_, hturn hmem, rfl⟩
      · rename_i hnext
        rcases List.mem_append.1 hmem with hmem | hmem
        · obtain ⟨m, revision, epoch, windowId, -, -, hsend, -, hturnNext⟩ := hturn hmem
          obtain ⟨error, herror⟩ := sendChunk_error (hsend ▸ hsent)
          rw [hnext, Except.ok.injEq] at hturnNext
          exact absurd hturnNext.symm (settle_error (hsend ▸ herror))
        · exact ih hmem

end Send

end Cortex.Delivery
