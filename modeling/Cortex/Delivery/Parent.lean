import Cortex.Delivery.AtMostOnce

/-!
# The parent of a projection sums up its chunks

The state of a projection is written beside the states of its chunks, by
`refreshParent` in the transaction of every chunk that changes.  `parentOf` is the
fold it should be.

Chunks are worked on in order, so a chunk that a worker can still take up is the
only one that is neither delivered nor untouched.  Hence `hasWork_iff`: a
projection has work exactly when its fold is `pending`.
-/

namespace Cortex.Delivery

open Control Time Transaction

variable {Digest : Type}

/-- The fold of the chunk states. -/
def parentOf (chunks : List (Chunk Digest)) : ParentState :=
  if ∀ c ∈ chunks, c.val.state = .delivered then .delivered
  else if ∃ c ∈ chunks, c.val.state = .sendingUnknown then .manualRequired
  else if ∃ c ∈ chunks, c.val.state = .failed then .failed
  else .pending

/-- A worker can take up a chunk: it is not closed, and all the earlier ones are delivered. -/
def HasWork (chunks : List (Chunk Digest)) : Prop :=
  ∃ i c, chunks[i]? = some c ∧ (c.val.state = .pending ∨ c.val.state = .claimed) ∧
    ∀ d ∈ chunks.take i, d.val.state = .delivered

/-- The rows of a projection agree with each other. -/
structure Sound (l : Ledger Digest) : Prop where
  nonempty : l.chunks ≠ []
  touched : Touched l.chunks
  ordered : Ordered l.chunks
  parent : l.parentState = parentOf l.chunks

/-! ## Every command refreshes the parent -/

theorem refreshParent_eq_ok {l l' : Ledger Digest} {now : Stamp}
    (h : refreshParent l now = .ok l') :
    l'.chunks = l.chunks ∧ l'.parentState = parentOf l.chunks := by
  simp only [refreshParent, bind_eq_ok, pure_eq_ok] at h
  obtain ⟨-, -, rfl⟩ := h
  refine ⟨rfl, ?_⟩
  simp only [parentOf, List.mem_map, forall_exists_index, and_imp, forall_apply_eq_imp_iff₂]

theorem writeChunk_parent {l l' : Ledger Digest} {chunkIndex : ℕ} {columns : Columns Digest}
    {now : Stamp} {claim : ChunkClaim}
    (h : writeChunk l chunkIndex columns now = .ok (l', claim)) :
    l'.parentState = parentOf l'.chunks := by
  unfold writeChunk at h
  split at h
  · simp only [bind_eq_ok, pure_eq_ok, Prod.mk.injEq] at h
    obtain ⟨_, hrefresh, rfl, -⟩ := h
    obtain ⟨hchunks, hparent⟩ := refreshParent_eq_ok hrefresh
    rw [hparent, hchunks]
  · simp at h

section

variable [DecidableEq Digest] {frozen : Frozen Digest} {requestHash : ResolutionRequest → Digest}

/-- A committed command changes nothing, or it refreshed the parent. -/
theorem step_parent {l l' : Ledger Digest} {e : Event Digest}
    (h : Step frozen requestHash l e l') : l' = l ∨ l'.parentState = parentOf l'.chunks := by
  obtain ⟨⟨call, readings⟩, reply⟩ := e
  unfold Step Commits at h
  cases call with
  | claim chunkIndex workerId leaseSeconds =>
      simp only [exec, claimChunk, bind_eq_ok, pure_eq_ok, Prod.mk.injEq] at h
      obtain ⟨_, ⟨-, -, -, -, -, -, _, -, row, -, h⟩, rfl, -⟩ := h
      split at h
      · exact .inl (congrArg Prod.fst (pure_eq_ok.1 h)).symm
      · simp only [bind_eq_ok] at h
        obtain ⟨-, -, h⟩ := h
        split at h
        · exact .inl (congrArg Prod.fst (pure_eq_ok.1 h)).symm
        · split at h
          · exact .inl (congrArg Prod.fst (pure_eq_ok.1 h)).symm
          · exact .inr (writeChunk_parent h)
  | beginSend chunkIndex workerId claimEpoch expectedRevision observedDigest =>
      simp only [exec, beginChunkSend, bind_eq_ok, pure_eq_ok, Prod.mk.injEq] at h
      obtain ⟨_, ⟨-, -, -, -, -, -, row, -, -, -, -, -, h⟩, rfl, -⟩ := h
      split at h
      · simp only [bind_eq_ok, pure_eq_ok] at h
        obtain ⟨_, hfail, rfl⟩ := h
        exact .inr (writeChunk_parent hfail)
      · simp only [bind_eq_ok] at h
        obtain ⟨_, -, h⟩ := h
        split at h
        · simp only [bind_eq_ok, pure_eq_ok] at h
          obtain ⟨_, hfail, rfl⟩ := h
          exact .inr (writeChunk_parent hfail)
        · simp only [bind_eq_ok, pure_eq_ok] at h
          obtain ⟨_, hwrite, rfl⟩ := h
          exact .inr (writeChunk_parent hwrite)
  | complete chunkIndex workerId claimEpoch expectedRevision receiptDigest windowId =>
      simp only [exec, completeChunk, bind_eq_ok, pure_eq_ok, Prod.mk.injEq] at h
      obtain ⟨_, ⟨-, -, -, -, -, -, _, -, row, -, -, -, -, -, hwrite⟩, rfl, -⟩ := h
      exact .inr (writeChunk_parent hwrite)
  | release chunkIndex workerId claimEpoch expectedRevision proof retryAfterMs =>
      simp only [exec, releaseChunk, bind_eq_ok, pure_eq_ok, Prod.mk.injEq] at h
      obtain ⟨_, ⟨-, -, -, -, -, -, -, -, _, -, row, -, -, -, hwrite⟩, rfl, -⟩ := h
      exact .inr (writeChunk_parent hwrite)
  | fail chunkIndex workerId claimEpoch expectedRevision category =>
      simp only [exec, failChunk, bind_eq_ok, pure_eq_ok, Prod.mk.injEq] at h
      obtain ⟨_, ⟨-, -, -, -, -, -, _, -, -, -, row, -, -, -, hfail⟩, rfl, -⟩ := h
      exact .inr (writeChunk_parent hfail)
  | resolve chunkIndex resolution expectedRevision caller =>
      simp only [exec, resolveChunk, bind_eq_ok, pure_eq_ok, Prod.mk.injEq] at h
      obtain ⟨_, ⟨-, -, _, -, -, -, h⟩, rfl, -⟩ := h
      split at h
      · simp only [bind_eq_ok, pure_eq_ok] at h
        obtain ⟨-, -, rfl⟩ := h
        exact .inl rfl
      · simp only [resolveSendingUnknown, bind_eq_ok, pure_eq_ok] at h
        obtain ⟨_, ⟨row, -, -, -, -, -, resolutions, -, hwrite⟩, rfl⟩ := h
        cases resolution with
        | assumeDelivered => exact .inr (writeChunk_parent hwrite)
        | retry => exact .inr (writeChunk_parent hwrite)

theorem Sound.step {l l' : Ledger Digest} {e : Event Digest} (hsound : Sound l)
    (h : Step frozen requestHash l e l') : Sound l' := by
  have heffect := step_cases h
  have hlength : l'.chunks.length = l.chunks.length := by
    cases heffect with
    | unchanged heq => rw [heq]
    | wrote i c c' _ heq => rw [heq, List.length_set]
  refine ⟨fun hnil => ?_, hsound.touched.step heffect, hsound.ordered.step heffect, ?_⟩
  · rw [hnil, List.length_nil] at hlength
    exact hsound.nonempty (List.length_eq_zero_iff.1 hlength.symm)
  · rcases step_parent h with rfl | hparent
    · exact hsound.parent
    · exact hparent

end

/-- A projection is sound when it is frozen. -/
theorem sound_frozenLedger {count : ℕ} (hcount : 0 < count) :
    Sound (frozenLedger count : Ledger Digest) := by
  have hall : ∀ c ∈ (frozenLedger count : Ledger Digest).chunks, c = frozenChunk :=
    fun c hc => (List.mem_replicate.1 hc).2
  have hmem : frozenChunk ∈ (frozenLedger count : Ledger Digest).chunks :=
    List.mem_replicate.2 ⟨Nat.pos_iff_ne_zero.1 hcount, rfl⟩
  refine ⟨List.ne_nil_of_mem hmem, ?_, ?_, ?_⟩
  · intro c hc hstate
    rw [hall c hc] at hstate
    exact absurd rfl hstate
  · refine List.pairwise_replicate.2 (.inr fun hepoch => ?_)
    exact absurd hepoch (by simp [frozenChunk])
  · rw [parentOf, if_neg, if_neg, if_neg]
    · rfl
    · rintro ⟨c, hc, hstate⟩
      rw [hall c hc] at hstate
      cases hstate
    · rintro ⟨c, hc, hstate⟩
      rw [hall c hc] at hstate
      cases hstate
    · intro hdelivered
      cases hdelivered _ hmem

/-! ## Work -/

theorem parentOf_eq_pending {chunks : List (Chunk Digest)} :
    parentOf chunks = .pending ↔ (∃ c ∈ chunks, c.val.state ≠ .delivered) ∧
      ∀ c ∈ chunks, c.val.state ≠ .sendingUnknown ∧ c.val.state ≠ .failed := by
  unfold parentOf
  constructor
  · intro h
    split at h
    · cases h
    · rename_i hopen
      split at h
      · cases h
      · rename_i hunknown
        split at h
        · cases h
        · rename_i hfailed
          push Not at hopen hunknown hfailed
          exact ⟨hopen, fun c hc => ⟨hunknown c hc, hfailed c hc⟩⟩
  · rintro ⟨⟨c, hc, hopen⟩, hclean⟩
    rw [if_neg fun h => hopen (h c hc), if_neg, if_neg]
    · rintro ⟨d, hd, hfailed⟩
      exact (hclean d hd).2 hfailed
    · rintro ⟨d, hd, hunknown⟩
      exact (hclean d hd).1 hunknown

/-- The first chunk that is not delivered. -/
private theorem exists_first_open {chunks : List (Chunk Digest)}
    (h : ∃ c ∈ chunks, c.val.state ≠ .delivered) :
    ∃ (i : ℕ) (hi : i < chunks.length), chunks[i].val.state ≠ .delivered ∧
      ∀ d ∈ chunks.take i, d.val.state = .delivered := by
  induction chunks with
  | nil => simp at h
  | cons c chunks ih =>
      by_cases hc : c.val.state = .delivered
      · have hrest : ∃ d ∈ chunks, d.val.state ≠ .delivered := by
          obtain ⟨d, hd, hopen⟩ := h
          rcases List.mem_cons.1 hd with rfl | hd
          · exact absurd hc hopen
          · exact ⟨d, hd, hopen⟩
        obtain ⟨i, hi, hopen, hearlier⟩ := ih hrest
        refine ⟨i + 1, Nat.succ_lt_succ hi, hopen, fun d hd => ?_⟩
        rw [List.take_succ_cons] at hd
        rcases List.mem_cons.1 hd with rfl | hd
        · exact hc
        · exact hearlier d hd
      · exact ⟨0, Nat.succ_pos _, hc, fun d hd => by simp at hd⟩

/-- A projection has work exactly when its parent is pending. -/
theorem Sound.hasWork_iff {l : Ledger Digest} (h : Sound l) :
    HasWork l.chunks ↔ l.parentState = .pending := by
  rw [h.parent, parentOf_eq_pending]
  constructor
  · rintro ⟨i, c, hc, hstate, hearlier⟩
    obtain ⟨hi, rfl⟩ := List.getElem?_eq_some_iff.1 hc
    refine ⟨⟨_, List.getElem_mem hi, ?_⟩, fun d hd => ?_⟩
    · rcases hstate with hstate | hstate <;> simp [hstate]
    obtain ⟨j, hj, rfl⟩ := List.getElem_of_mem hd
    rcases Nat.lt_trichotomy j i with hji | rfl | hij
    · have hdelivered := hearlier _ (List.mem_take_iff_getElem.2 ⟨j, by omega, rfl⟩)
      simp [hdelivered]
    · rcases hstate with hstate | hstate <;> simp [hstate]
    · -- A later chunk was never claimed: chunk `i` would be delivered.
      have hpending : l.chunks[j].val.state = .pending := by
        by_contra hne
        have hepoch := h.touched _ hd hne
        have hdelivered := List.pairwise_iff_getElem.1 h.ordered i j hi hj hij hepoch
        rcases hstate with hstate | hstate <;> simp [hstate] at hdelivered
      simp [hpending]
  · rintro ⟨⟨c, hc, hopen⟩, hclean⟩
    obtain ⟨i, hi, hstate, hearlier⟩ := exists_first_open ⟨c, hc, hopen⟩
    refine ⟨i, l.chunks[i], List.getElem?_eq_getElem hi, ?_, hearlier⟩
    obtain ⟨hunknown, hfailed⟩ := hclean _ (List.getElem_mem hi)
    cases hcase : l.chunks[i].val.state <;> simp_all

end Cortex.Delivery
