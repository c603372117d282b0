import Cortex.Delivery.Store

/-!
# A delivery agrees with its chunks

`Agrees` holds of every reachable store: the projections are sound, and no key is
in both ledgers.  Together with `hasWork_iff` it says what the listing shows: a
projection with a chunk whose outcome is unknown is not pending and so not listed,
one with work is pending, and it is left out only where the limit is reached by
projections that are no younger.
-/

namespace Cortex.Delivery

open Control Time Transaction

variable {Digest : Type}

structure Agrees (s : Store Digest) : Prop where
  sound : ∀ row ∈ s.projections, Sound row.ledger
  apart : ∀ row ∈ s.projections, ∀ legacy ∈ s.legacy, legacy.key ≠ row.key

/-- A committed command of the store. -/
abbrev StoreEvent (Digest : Type) := (StoreCall Digest × StoreReadings) × StoreReply

/-! ## Commands -/

section Commands

variable {s s' : Store Digest} {readings : StoreReadings} {key : DeliveryKey}

private theorem ne_of_get?_none {ρ κ : Type} [Keyed ρ κ] [DecidableEq κ] {t : Table ρ} {k : κ}
    (h : t.get? k = none) {r : ρ} (hr : r ∈ t) : Keyed.key r ≠ k := by
  intro hkey
  rw [Table.get?_eq_some.2 ⟨hr, hkey⟩] at h
  cases h

private theorem mem_update_ledger {projections : Table (Projection Digest)} {ledger : Ledger Digest}
    {row : Projection Digest}
    (h : row ∈ projections.update (fun r => r.key = key) fun r => { r with ledger }) :
    ∃ old ∈ projections, row.key = old.key ∧ (row.ledger = ledger ∨ row = old) := by
  obtain ⟨old, hold, rfl⟩ := Table.mem_update.1 h
  refine ⟨old, hold, ?_⟩
  split
  · exact ⟨rfl, .inl rfl⟩
  · exact ⟨rfl, .inr rfl⟩

/-- The legacy rows of a later store have keys that the legacy rows had before. -/
private theorem Agrees.legacy {legacy : Table LegacyDelivery} (h : Agrees s)
    (hkeys : ∀ row ∈ legacy, ∃ old ∈ s.legacy, old.key = row.key) :
    Agrees { s with legacy } where
  sound := h.sound
  apart := by
    intro row hrow legacy hlegacy
    obtain ⟨old, hold, hkey⟩ := hkeys legacy hlegacy
    rw [← hkey]
    exact h.apart row hrow old hold

private theorem keys_updateRow {legacy legacy' : Table LegacyDelivery} {p : LegacyDelivery → Prop}
    [DecidablePred p] {f : LegacyDelivery → LegacyDelivery}
    {hf : ∀ r, Keyed.key (f r) = Keyed.key r} (h : legacy.updateRow? key p f hf = some legacy') :
    ∀ row ∈ legacy', ∃ old ∈ legacy, old.key = row.key := by
  obtain ⟨-, -, -, -, -, hrows⟩ := Table.updateRow?_eq_some h
  intro row hrow
  rw [Table.mem_def, hrows] at hrow
  obtain ⟨old, hold, rfl⟩ := List.mem_map.1 hrow
  refine ⟨old, hold, ?_⟩
  split
  · exact (hf old).symm
  · rfl

private theorem Agrees.claimDelivery {workerId : Text} {leaseSeconds : ℕ} {claim : DeliveryClaim}
    (h : Agrees s)
    (hclaim : claimDelivery s readings key workerId leaseSeconds = .ok (s', claim)) :
    Agrees s' := by
  simp only [Delivery.claimDelivery, bind_eq_ok] at hclaim
  obtain ⟨key, -, -, -, -, -, expires, -, hclaim⟩ := hclaim
  split at hclaim
  · simp only [pure_eq_ok, Prod.mk.injEq] at hclaim
    exact hclaim.1 ▸ h
  · rename_i hnone
    split at hclaim
    · simp only [bind_eq_ok, orRaise_eq_ok, pure_eq_ok, Prod.mk.injEq] at hclaim
      obtain ⟨legacy, hinsert, rfl, -⟩ := hclaim
      refine ⟨h.sound, fun row hrow old hold => ?_⟩
      rcases (Table.mem_insert hinsert).1 hold with hold | rfl
      · exact h.apart row hrow old hold
      · -- The key of the new row has no projection.
        exact (ne_of_get?_none hnone hrow).symm
    · split at hclaim
      · simp only [pure_eq_ok, Prod.mk.injEq] at hclaim
        exact hclaim.1 ▸ h
      · split at hclaim
        · simp only [pure_eq_ok, Prod.mk.injEq] at hclaim
          exact hclaim.1 ▸ h
        · simp only [pure_eq_ok, Prod.mk.injEq] at hclaim
          obtain ⟨rfl, -⟩ := hclaim
          refine h.legacy fun row hrow => ?_
          obtain ⟨old, hold, rfl⟩ := Table.mem_update.1 hrow
          refine ⟨old, hold, ?_⟩
          split <;> rfl

variable [DecidableEq Digest] {requestHash : DeliveryKey → ResolutionRequest → Digest}

private theorem Agrees.freezeProjection {projection : FrozenProjection Digest} {hash : Digest}
    {disposition : Disposition} (h : Agrees s)
    (hfreeze : freezeProjection s readings projection hash = .ok (s', disposition)) :
    Agrees s' := by
  simp only [Delivery.freezeProjection, validateProjection, bind_eq_ok, require_eq_ok] at hfreeze
  obtain ⟨-, ⟨-, hcount, -⟩, key, -, hfreeze⟩ := hfreeze
  split at hfreeze
  · split at hfreeze
    all_goals
      simp only [pure_eq_ok, Prod.mk.injEq] at hfreeze
      exact hfreeze.1 ▸ h
  · rename_i hlegacy
    split at hfreeze
    · simp only [bind_eq_ok, pure_eq_ok, Prod.mk.injEq] at hfreeze
      obtain ⟨-, -, -, -, -, -, rfl, -⟩ := hfreeze
      exact h
    · simp only [bind_eq_ok, orRaise_eq_ok, pure_eq_ok, Prod.mk.injEq] at hfreeze
      obtain ⟨-, -, projections, hinsert, -, -, rfl, -⟩ := hfreeze
      constructor
      · intro row hrow
        rcases (Table.mem_insert hinsert).1 hrow with hrow | rfl
        · exact h.sound row hrow
        · exact sound_frozenLedger hcount.1
      · intro row hrow legacy hmem
        rcases (Table.mem_insert hinsert).1 hrow with hrow | rfl
        · exact h.apart row hrow legacy hmem
        · -- The key of the new projection has no legacy row.
          exact ne_of_get?_none hlegacy hmem

private theorem Agrees.onChunks {call : Call Digest} {reply : Reply} (h : Agrees s)
    (hchunks : onChunks requestHash s readings key call = .ok (s', reply)) : Agrees s' := by
  simp only [Delivery.onChunks, bind_eq_ok] at hchunks
  obtain ⟨key, -, replay, -, hchunks⟩ := hchunks
  split at hchunks
  · simp only [pure_eq_ok, Prod.mk.injEq] at hchunks
    exact hchunks.1 ▸ h
  · simp only [bind_eq_ok, orRaise_eq_ok, pure_eq_ok, Prod.mk.injEq] at hchunks
    obtain ⟨row, hrow, ⟨ledger, reply'⟩, hexec, rfl, -⟩ := hchunks
    obtain ⟨hmem, -⟩ := Table.get?_eq_some.1 hrow
    have hledger : Sound ledger :=
      (h.sound row hmem).step (e := ((call, readings.toReadings), reply')) hexec
    constructor
    · intro r hr
      obtain ⟨old, hold, -, hnew | rfl⟩ := mem_update_ledger hr
      · exact hnew ▸ hledger
      · exact h.sound _ hold
    · intro r hr legacy hlegacy
      obtain ⟨old, hold, hkey, -⟩ := mem_update_ledger hr
      rw [hkey]
      exact h.apart old hold legacy hlegacy

theorem Agrees.step {event : StoreEvent Digest} (h : Agrees s)
    (hstep : Commits (execStore requestHash) s event s') : Agrees s' := by
  obtain ⟨⟨call, readings⟩, reply⟩ := event
  unfold Commits at hstep
  cases call with
  | claim key workerId leaseSeconds =>
      simp only [execStore, bind_eq_ok, pure_eq_ok, Prod.mk.injEq] at hstep
      obtain ⟨_, hclaim, rfl, -⟩ := hstep
      exact h.claimDelivery hclaim
  | complete key workerId claimEpoch =>
      simp only [execStore, completeDelivery, bind_eq_ok, orRaise_eq_ok, pure_eq_ok,
        Prod.mk.injEq] at hstep
      obtain ⟨_, ⟨key, -, -, -, -, -, legacy, hlegacy, rfl⟩, rfl, -⟩ := hstep
      exact h.legacy (keys_updateRow hlegacy)
  | release key workerId claimEpoch =>
      simp only [execStore, releaseDelivery, bind_eq_ok, orRaise_eq_ok, pure_eq_ok,
        Prod.mk.injEq] at hstep
      obtain ⟨_, ⟨key, -, -, -, -, -, legacy, hlegacy, rfl⟩, rfl, -⟩ := hstep
      exact h.legacy (keys_updateRow hlegacy)
  | freeze projection hash =>
      simp only [execStore, bind_eq_ok, pure_eq_ok, Prod.mk.injEq] at hstep
      obtain ⟨_, hfreeze, rfl, -⟩ := hstep
      exact h.freezeProjection hfreeze
  | chunk key call =>
      simp only [execStore, bind_eq_ok, pure_eq_ok, Prod.mk.injEq] at hstep
      obtain ⟨_, hchunks, rfl, -⟩ := hstep
      exact h.onChunks hchunks

end Commands

/-! ## The listing -/

section Listing

variable {s : Store Digest} {transport : Text} {limit : ℕ} {listed : List PendingDelivery}

theorem mem_pendingRows {row : Projection Digest} :
    row ∈ pendingRows s transport ↔ row ∈ s.projections ∧ row.key.transport = transport ∧
      row.ledger.parentState = .pending := by
  rw [pendingRows, List.mem_mergeSort, List.mem_filter, decide_eq_true_eq]
  exact Iff.rfl

private theorem sorted_pendingRows (s : Store Digest) (transport : Text) :
    (pendingRows s transport).Pairwise fun a b => a.order ≤ b.order := by
  have htrans : ∀ a b c : Projection Digest, decide (a.order ≤ b.order) = true →
      decide (b.order ≤ c.order) = true → decide (a.order ≤ c.order) = true := by
    intro a b c hab hbc
    rw [decide_eq_true_eq] at hab hbc ⊢
    exact hab.trans hbc
  have htotal : ∀ a b : Projection Digest,
      (decide (a.order ≤ b.order) || decide (b.order ≤ a.order)) = true := by
    intro a b
    rw [Bool.or_eq_true, decide_eq_true_eq, decide_eq_true_eq]
    exact le_total _ _
  have hsorted := List.pairwise_mergeSort htrans htotal
    (s.projections.rows.filter fun row =>
      row.key.transport = transport ∧ row.ledger.parentState = .pending)
  exact hsorted.imp fun h => of_decide_eq_true h

/-- The listing shows this row. -/
def Lists (listed : List PendingDelivery) (row : Projection Digest) : Prop :=
  row.key ∈ listed.map PendingDelivery.key

private theorem lists_iff {row : Projection Digest} (hrow : row ∈ s.projections)
    (hlisted : pendingTransportDeliveries s transport limit = .ok listed) :
    Lists listed row ↔ row ∈ (pendingRows s transport).take limit := by
  simp only [pendingTransportDeliveries, bind_eq_ok, pure_eq_ok] at hlisted
  obtain ⟨-, -, -, -, rfl⟩ := hlisted
  rw [Lists, List.map_map]
  constructor
  · intro hmem
    obtain ⟨other, hother, hkey⟩ := List.mem_map.1 hmem
    obtain ⟨hprojection, -⟩ := mem_pendingRows.1 (List.mem_of_mem_take hother)
    obtain rfl : other = row := Table.eq_of_key hprojection hrow hkey
    exact hother
  · intro hmem
    exact List.mem_map.2 ⟨row, hmem, rfl⟩

private theorem length_listed (hlisted : pendingTransportDeliveries s transport limit = .ok listed) :
    listed.length = min limit (pendingRows s transport).length := by
  simp only [pendingTransportDeliveries, bind_eq_ok, pure_eq_ok] at hlisted
  obtain ⟨-, -, -, -, rfl⟩ := hlisted
  rw [List.length_map, List.length_take]

/-- A pending row is listed, or the limit is reached by rows that come before it. -/
private theorem listed_or_full {row : Projection Digest} (hrow : row ∈ pendingRows s transport)
    (hlisted : pendingTransportDeliveries s transport limit = .ok listed) :
    Lists listed row ∨ listed.length = limit ∧
      ∀ other ∈ s.projections, Lists listed other → other.order ≤ row.order := by
  by_cases hmem : row ∈ (pendingRows s transport).take limit
  · exact .inl ((lists_iff (mem_pendingRows.1 hrow).1 hlisted).2 hmem)
  · have hdrop : row ∈ (pendingRows s transport).drop limit := by
      rw [← List.take_append_drop limit (pendingRows s transport)] at hrow
      exact (List.mem_append.1 hrow).resolve_left hmem
    refine .inr ⟨?_, fun other hother hlists => ?_⟩
    · have hpos := List.length_pos_of_mem hdrop
      rw [List.length_drop] at hpos
      rw [length_listed hlisted]
      omega
    · have hsorted := sorted_pendingRows s transport
      rw [← List.take_append_drop limit (pendingRows s transport), List.pairwise_append] at hsorted
      exact hsorted.2.2 other ((lists_iff hother hlisted).1 hlists) row hdrop

end Listing

/-- In every reachable store the state of a projection is the fold of its chunks, the listing
shows no projection with an unknown outcome and, up to its limit, every one with work, and no
key is in both ledgers. -/
theorem parent_agrees [DecidableEq Digest]
    {requestHash : DeliveryKey → ResolutionRequest → Digest} {events : List (StoreEvent Digest)}
    {s : Store Digest}
    (h : History (Commits (execStore requestHash)) .empty events s) :
    (∀ row ∈ s.projections, row.ledger.parentState = parentOf row.ledger.chunks) ∧
    (∀ transport limit listed, pendingTransportDeliveries s transport limit = .ok listed →
      ∀ row ∈ s.projections,
        (Lists listed row → ∀ c ∈ row.ledger.chunks, c.val.state ≠ .sendingUnknown) ∧
        (row.key.transport = transport → HasWork row.ledger.chunks →
          Lists listed row ∨ listed.length = limit ∧
            ∀ other ∈ s.projections, Lists listed other → other.order ≤ row.order)) ∧
    ∀ row ∈ s.projections, ∀ legacy ∈ s.legacy, legacy.key ≠ row.key := by
  have hagrees : Agrees s := by
    refine h.invariant ⟨fun row hrow => ?_, fun row hrow => ?_⟩ Agrees.step
    · exact absurd hrow (Table.not_mem_empty row)
    · exact absurd hrow (Table.not_mem_empty row)
  refine ⟨fun row hrow => (hagrees.sound row hrow).parent, ?_, hagrees.apart⟩
  intro transport limit listed hlisted row hrow
  have hsound := hagrees.sound row hrow
  constructor
  · intro hlists
    have hpending := (mem_pendingRows.1
      (List.mem_of_mem_take ((lists_iff hrow hlisted).1 hlists))).2.2
    rw [hsound.parent, parentOf_eq_pending] at hpending
    exact fun c hc => (hpending.2 c hc).1
  · intro htransport hwork
    have hpending := hsound.hasWork_iff.1 hwork
    exact listed_or_full (mem_pendingRows.2 ⟨hrow, htransport, hpending⟩) hlisted

/-! ## A full listing -/

def plainKey (eventId : Text) : DeliveryKey where
  transport := "telegram".toList
  destinationDigest := "hmac-sha256:".toList ++ List.replicate 64 'a'
  eventId
  projectionVersion := 1

def plainProjection (eventId : Text) : FrozenProjection ℕ where
  deliveryKey := plainKey eventId
  operationId := eventId
  projectionHash := 0
  frozen := { capabilityBindingDigest := 1, rpcTimeoutSeconds := 10, capabilities := [] }
  chunkCount := 1

def plainReadings : StoreReadings where
  toReadings := noon
  projectionError := none
  tokenCollision := false

/-- Two messages are frozen for one transport. -/
def twoFrozen : List (StoreEvent ℕ) × Store ℕ :=
  runCalls (execStore fun _ _ => 0) .empty
    [(.freeze (plainProjection ['b']) 0, plainReadings),
      (.freeze (plainProjection ['a']) 0, plainReadings)]

/-- The two rows of `twoFrozen`. -/
def frozenRow (eventId : Text) : Projection ℕ where
  key := plainKey eventId
  operationId := eventId
  requestHash := 0
  projectionHash := 0
  frozen := (plainProjection eventId).frozen
  createdAt := formatRegistryTime noon.now
  ledger := frozenLedger 1

private theorem rows_twoFrozen :
    twoFrozen.2.projections.rows = [frozenRow ['a'], frozenRow ['b']] := by
  rfl

private theorem hasWork_frozenRow (eventId : Text) :
    HasWork (frozenRow eventId).ledger.chunks := by
  refine ⟨0, frozenChunk, rfl, .inl rfl, fun d hd => ?_⟩
  rw [List.take_zero] at hd
  cases hd

theorem parent_agrees_twoFrozen :
    (frozenRow ['a']).ledger.parentState = parentOf (frozenRow ['a']).ledger.chunks :=
  (parent_agrees (history_runCalls (execStore fun _ _ => 0) .empty _)).1 (frozenRow ['a'])
    (by rw [Table.mem_def]; change _ ∈ twoFrozen.2.projections.rows; rw [rows_twoFrozen]; simp)

/-- With a limit of one, one of the two messages is not listed. -/
theorem full_listing_omits :
    ¬∀ (events : List (StoreEvent ℕ)) (s : Store ℕ),
      History (Commits (execStore fun _ _ => 0)) .empty events s →
      ∀ transport limit listed, pendingTransportDeliveries s transport limit = .ok listed →
      ∀ row ∈ s.projections, row.key.transport = transport → HasWork row.ledger.chunks →
        Lists listed row := by
  intro h
  let listed := ((pendingRows twoFrozen.2 "telegram".toList).take 1).map fun row =>
    PendingDelivery.mk row.key row.ledger.parentState row.createdAt
  have hlisted : pendingTransportDeliveries twoFrozen.2 "telegram".toList 1 = .ok listed := rfl
  have hlists : ∀ row ∈ twoFrozen.2.projections, row.key.transport = "telegram".toList →
      HasWork row.ledger.chunks → Lists listed row :=
    h _ _ (history_runCalls _ _ _) _ _ _ hlisted
  have hfirst := hlists (frozenRow ['a']) (by rw [Table.mem_def, rows_twoFrozen]; simp) rfl
    (hasWork_frozenRow _)
  have hsecond := hlists (frozenRow ['b']) (by rw [Table.mem_def, rows_twoFrozen]; simp) rfl
    (hasWork_frozenRow _)
  have hlength : (listed.map PendingDelivery.key).length ≤ 1 := by
    rw [List.length_map, length_listed hlisted]
    omega
  have hsame : plainKey ['a'] = plainKey ['b'] := by
    match hkeys : listed.map PendingDelivery.key, hlength with
    | [], _ =>
        rw [Lists, hkeys] at hfirst
        cases hfirst
    | [key], _ =>
        rw [Lists, hkeys, List.mem_singleton] at hfirst hsecond
        exact hfirst.trans hsecond.symm
  exact absurd (congrArg DeliveryKey.eventId hsame) (by decide)

end Cortex.Delivery
