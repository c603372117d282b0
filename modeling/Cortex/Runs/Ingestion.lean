import Cortex.Runs.Offers
import Cortex.Runs.Pins

/-!
# Exactly-once ingestion of runtime events

The orchestrator offers every event under an idempotency key of its id and the
revision it read, so an offer may find a receipt, a row of the inbox, both, or
neither.  `Inbox` is what holds of the three tables together: the rows of every
attempt are numbered from 0 without a gap, each row was filed by one call that
changed the store, and a receipt under such a key is of an event in the inbox.

The check of an offer is made for the attempt it names, and its row is saved under
the attempt that the run has.  These are one attempt for every event of a worker;
for the two requests of an operator nothing makes them one, which `OfOwnAttempt`
asks for.
-/

namespace Cortex.Runs

open Control Time Transaction

/-! ## How events are offered -/

/-- The keys that events are offered under, `_key("runtime-delivery", event_id, revision)`, and
the attempt of each event id.  Both are digests of what they name; those of the offers that are
`made` do not collide. -/
structure DeliveryKeys where
  key : Text → ℤ → Text
  attemptOf : Text → ℕ
  made : Text → ℤ → Prop
  valid : ∀ adapterEventId revision, validateKey (key adapterEventId revision) = .ok ()
  injective : ∀ {adapterEventId adapterEventId' revision revision'},
    made adapterEventId revision → made adapterEventId' revision' →
    key adapterEventId revision = key adapterEventId' revision' →
      adapterEventId = adapterEventId' ∧ revision = revision'

/-- An offer as `_apply_event_once` makes it; a command without an event has another key. -/
def Offer.IsDelivery (keys : DeliveryKeys) (o : Offer) : Prop :=
  match o.adapterEventId with
  | some adapterEventId =>
      keys.made adapterEventId o.expectedRevision ∧
        o.caller.idempotencyKey = keys.key adapterEventId o.expectedRevision ∧
        o.request.attemptId = some (keys.attemptOf adapterEventId)
  | none => ∀ adapterEventId revision, keys.made adapterEventId revision →
      o.caller.idempotencyKey ≠ keys.key adapterEventId revision

/-- An event that is offered with an operator's request is of the active attempt of the run. -/
def Offer.OfOwnAttempt (s : Ledger) (o : Offer) : Prop :=
  o.request.isControlRequest → o.adapterEventId.isSome = true →
    ∀ run ∈ s.runs, run.id = o.runId → o.request.attemptId = some run.activeAttemptId

section Definitions

variable {Digest : Type} (platform : Platform Digest)

/-- A call delivers events, if it offers anything. -/
def Call.Delivers (keys : DeliveryKeys) (call : Call) : Prop :=
  ∀ o, call.offered platform = some o → o.IsDelivery keys

/-- An offer that a call makes is of the run's own attempt. -/
def Call.OfOwnAttempt (s : Ledger) (call : Call) : Prop :=
  ∀ o, call.offered platform = some o → o.OfOwnAttempt s

/-- The offer of an event that a committed call applied, with its reply. -/
def applied (event : Event) : Option (Offer × CommandResult Response) :=
  if event.2.replayed then none
  else ((event.1.1.offered platform).filter fun o => o.adapterEventId.isSome).map fun o =>
    (o, event.2)

/-- The row of an offer: for its attempt and event, with its sequence, its request and its reply. -/
structure RowOf (offered : Offer × CommandResult Response) (row : InboxRow Digest) : Prop where
  adapterEventId : offered.1.adapterEventId = some row.adapterEventId
  attemptId : offered.1.request.attemptId = some row.attemptId
  sequence : offered.1.request.cause.adapterEventSequence = some row.adapterEventSequence
  payloadHash : row.payloadHash =
    platform.requestHash (.event offered.1.operation offered.1.request)
  response : row.response = offered.2.value
  statusCode : row.statusCode = offered.2.statusCode

/-- The events of an attempt, in the order they were committed. -/
def eventsOf (inbox : Table (InboxRow Digest)) (attemptId : ℕ) : List (InboxRow Digest) :=
  inbox.rows.filter fun r => r.attemptId = attemptId

/-- The events of every attempt are numbered from 0 without a gap, and their ids differ. -/
def GapFree (inbox : Table (InboxRow Digest)) : Prop :=
  ∀ attemptId, (eventsOf inbox attemptId).map InboxRow.adapterEventSequence =
      (List.range (eventsOf inbox attemptId).length).map Int.ofNat ∧
    ((eventsOf inbox attemptId).map InboxRow.adapterEventId).Nodup

/-- The run of an offer goes from the revision that was expected to the next. -/
def Offer.RaisesRun (o : Offer) (s s' : Store Digest) : Prop :=
  ∃ run ∈ s.tables.ledger.runs, run.id = o.runId ∧ (run.revision : ℤ) = o.expectedRevision ∧
    ∃ run' ∈ s'.tables.ledger.runs, run'.id = run.id ∧ run'.revision = run.revision + 1

/-- An offer reuses the id of an event with another request, or the sequence of another event,
or its sequence is not the next of its attempt. -/
def Offer.IsOutOfPlace (o : Offer) (inbox : Table (InboxRow Digest)) : Prop :=
  ∃ adapterEventId attemptId, o.adapterEventId = some adapterEventId ∧
    o.request.attemptId = some attemptId ∧
    ((∃ row ∈ eventsOf inbox attemptId, row.adapterEventId = adapterEventId ∧
        row.payloadHash ≠ platform.requestHash (.event o.operation o.request)) ∨
      (∃ row ∈ eventsOf inbox attemptId, row.adapterEventId ≠ adapterEventId ∧
        o.request.cause.adapterEventSequence = some row.adapterEventSequence) ∨
      (∀ row ∈ eventsOf inbox attemptId, row.adapterEventId ≠ adapterEventId) ∧
        o.request.cause.adapterEventSequence ≠
          some ((eventsOf inbox attemptId).length : ℤ))

end Definitions

/-! ## Numbering -/

private theorem foldr_max_range (n : ℕ) (b : ℤ) (hb : -1 ≤ b) :
    ((List.range n).map Int.ofNat).foldr max b = max b (n - 1 : ℤ) := by
  induction n generalizing b with
  | zero =>
      simp only [List.range_zero, List.map_nil, List.foldr_nil, Nat.cast_zero]
      omega
  | succ n ih =>
      rw [List.range_succ, List.map_append, List.foldr_append]
      simp only [List.map_cons, List.map_nil, List.foldr_cons, List.foldr_nil, Int.ofNat_eq_natCast]
      rw [ih]
      · push_cast
        omega
      · omega

section Numbering

variable {Digest : Type} {platform : Platform Digest} {inbox inbox' : Table (InboxRow Digest)}

theorem mem_eventsOf {row : InboxRow Digest} {attemptId : ℕ} :
    row ∈ eventsOf inbox attemptId ↔ row ∈ inbox ∧ row.attemptId = attemptId := by
  simp only [eventsOf, List.mem_filter, decide_eq_true_eq, Table.mem_def]

/-- The largest sequence of an attempt is one less than the number of its events. -/
theorem GapFree.latestSequence (h : GapFree inbox) (attemptId : ℕ) :
    latestSequence inbox attemptId + 1 = (eventsOf inbox attemptId).length := by
  have hsequences := (h attemptId).1
  unfold Runs.latestSequence
  change ((eventsOf inbox attemptId).map InboxRow.adapterEventSequence).foldr max (-1) + 1 = _
  rw [hsequences, foldr_max_range _ _ le_rfl]
  omega

/-- Two events of an attempt have two sequences. -/
theorem GapFree.eq_of_sequence (h : GapFree inbox) {attemptId : ℕ} {row row' : InboxRow Digest}
    (hrow : row ∈ eventsOf inbox attemptId) (hrow' : row' ∈ eventsOf inbox attemptId)
    (heq : row.adapterEventSequence = row'.adapterEventSequence) : row = row' := by
  refine List.inj_on_of_nodup_map ?_ hrow hrow' heq
  rw [(h attemptId).1]
  exact List.nodup_range.map Int.ofNat_injective

theorem GapFree.nonneg (h : GapFree inbox) {row : InboxRow Digest} (hrow : row ∈ inbox) :
    0 ≤ row.adapterEventSequence := by
  have hmem : row.adapterEventSequence ∈
      (eventsOf inbox row.attemptId).map InboxRow.adapterEventSequence :=
    List.mem_map_of_mem (mem_eventsOf.2 ⟨hrow, rfl⟩)
  rw [(h row.attemptId).1, List.mem_map] at hmem
  obtain ⟨n, -, hn⟩ := hmem
  rw [← hn]
  exact Int.natCast_nonneg n

theorem gapFree_empty : GapFree (Table.empty : Table (InboxRow Digest)) :=
  fun _ => ⟨rfl, List.nodup_nil⟩

/-- The next event of an attempt leaves no gap. -/
theorem GapFree.append (h : GapFree inbox) {row : InboxRow Digest}
    (hrows : inbox'.rows = inbox.rows ++ [row])
    (hnext : row.adapterEventSequence = Runs.latestSequence inbox row.attemptId + 1) :
    GapFree inbox' := by
  rw [h.latestSequence] at hnext
  have hids : ∀ attemptId, ((eventsOf inbox' attemptId).map InboxRow.adapterEventId).Nodup := by
    intro attemptId
    refine List.Nodup.map_on ?_ (inbox'.nodup.of_map.filter _)
    intro r hr r' hr' heq
    obtain ⟨hmem, hattempt⟩ := mem_eventsOf.1 hr
    obtain ⟨hmem', hattempt'⟩ := mem_eventsOf.1 hr'
    exact Table.eq_of_key hmem hmem' (Prod.ext (hattempt.trans hattempt'.symm) heq)
  refine fun attemptId => ⟨?_, hids attemptId⟩
  by_cases hattempt : row.attemptId = attemptId
  · subst hattempt
    have hevents : eventsOf inbox' row.attemptId = eventsOf inbox row.attemptId ++ [row] := by
      simp [eventsOf, hrows]
    rw [hevents, List.map_append, (h row.attemptId).1, List.length_append, List.length_singleton,
      List.range_succ, List.map_append, List.map_singleton, List.map_singleton, hnext]
    rfl
  · have hevents : eventsOf inbox' attemptId = eventsOf inbox attemptId := by
      simp [eventsOf, hrows, hattempt]
    rw [hevents]
    exact (h attemptId).1

end Numbering

/-! ## One offer -/

section Offers

variable {Digest : Type} [DecidableEq Digest] {platform : Platform Digest} {s s' : Store Digest}
  {caller : Caller} {operation : Operation} {request : OfferRequest} {expectedRevision : ℤ}
  {adapterEventId : Text} {statusCode : ℕ} {now : Civil} {result : CommandResult Response}
  {body : Ledger → Except StoreError (Ledger × Response × ℕ)} {attemptId : ℕ}

/-- The row that answers an event that is offered again. -/
structure AnsweredBy (platform : Platform Digest) (operation : Operation) (request : OfferRequest)
    (attemptId : ℕ) (adapterEventId : Text) (row : InboxRow Digest) : Prop where
  attemptId : row.attemptId = attemptId
  adapterEventId : row.adapterEventId = adapterEventId
  sequence : request.cause.adapterEventSequence = some row.adapterEventSequence
  payloadHash : row.payloadHash = platform.requestHash (.event operation request)

/-- An event passes the check of the inbox if it is answered by its row, or if it is the next. -/
theorem runtimeEventReplay_eq_ok {inbox : Table (InboxRow Digest)}
    {replay : Option (CommandResult Response)} (hattempt : request.attemptId = some attemptId)
    (h : runtimeEventReplay platform inbox operation request (some adapterEventId) = .ok replay) :
    (∃ row ∈ inbox, AnsweredBy platform operation request attemptId adapterEventId row) ∨
      replay = none ∧ (∀ row ∈ inbox, Keyed.key row ≠ (attemptId, adapterEventId)) ∧
        (∀ row ∈ inbox, row.attemptId = attemptId →
          request.cause.adapterEventSequence ≠ some row.adapterEventSequence) ∧
        request.cause.adapterEventSequence = some (latestSequence inbox attemptId + 1) := by
  simp only [runtimeEventReplay, hattempt, bind_eq_ok, orRaise_eq_ok, Option.some.injEq,
    require_eq_ok] at h
  obtain ⟨_, rfl, -, -, sequence, hsequence, -, -, h⟩ := h
  split at h
  · rename_i row hrow
    obtain ⟨hmem, hkey⟩ := Table.get?_eq_some.1 hrow
    obtain ⟨hid, hevent⟩ := Prod.mk.inj hkey
    simp only [bind_eq_ok, require_eq_ok] at h
    obtain ⟨-, ⟨hsame, hhash⟩, -⟩ := h
    exact .inl ⟨row, hmem, hid, hevent, hsame ▸ hsequence, hhash⟩
  · rename_i hnone
    simp only [bind_eq_ok, require_eq_ok, pure_eq_ok] at h
    obtain ⟨-, hfree, -, hnext, rfl⟩ := h
    refine .inr ⟨rfl, ?_, fun row hrow hid heq => ?_, ?_⟩
    · intro row hrow hkey
      have hget := Table.get?_eq_some.2 ⟨hrow, hkey⟩
      rw [hnone] at hget
      cases hget
    · rw [hsequence] at heq
      exact hfree row hrow hid (Option.some.inj heq).symm
    · rw [hsequence, hnext]

/-- An event that has its row is answered by it. -/
theorem runtimeEventReplay_of_row {inbox : Table (InboxRow Digest)} {row : InboxRow Digest}
    (hrow : row ∈ inbox) (hattempt : request.attemptId = some row.attemptId)
    (hsequence : request.cause.adapterEventSequence = some row.adapterEventSequence)
    (hnonneg : 0 ≤ row.adapterEventSequence)
    (hvalid : validateAdapterEventId row.adapterEventId = .ok ())
    (hhash : row.payloadHash = platform.requestHash (.event operation request)) :
    runtimeEventReplay platform inbox operation request (some row.adapterEventId) =
      .ok (some { value := row.response, statusCode := row.statusCode, replayed := true }) := by
  have hget : inbox.get? (row.attemptId, row.adapterEventId) = some row :=
    Table.get?_eq_some.2 ⟨hrow, rfl⟩
  simp only [runtimeEventReplay, hattempt, hsequence, hvalid, hget, orRaise, require, ok_bind,
    if_pos hnonneg, hhash, and_self, if_true]
  rfl

/-- A receipt that is new after an offer is the one of its command. -/
theorem offer_receipts {eventId : Option Text}
    (h : offer platform s caller operation request expectedRevision eventId statusCode now body
      = .ok (s', result)) :
    ∀ r ∈ s'.receipts, r ∈ s.receipts ∨ result.replayed = false ∧ r.operation = operation ∧
      r.idempotencyKey = caller.idempotencyKey ∧
      r.requestHash = platform.requestHash (.request (.offer request expectedRevision)) ∧
      r.response = result.value ∧ r.statusCode = result.statusCode := by
  simp only [offer, bind_eq_ok] at h
  obtain ⟨replay, -, h⟩ := h
  intro r hr
  cases replay with
  | some replay =>
      simp only [pure_eq_ok, Prod.mk.injEq] at h
      obtain ⟨rfl, -⟩ := h
      exact .inl hr
  | none =>
      simp only [bind_eq_ok] at h
      obtain ⟨replay, -, h⟩ := h
      cases replay with
      | some replay =>
          simp only [pure_eq_ok, Prod.mk.injEq] at h
          obtain ⟨rfl, -⟩ := h
          exact .inl hr
      | none =>
          simp only [bind_eq_ok, saveReceipt, orRaise_eq_ok, pure_eq_ok, Prod.mk.injEq] at h
          obtain ⟨⟨ledger, value, _⟩, -, ⟨receipts, saved⟩, ⟨inserted, hinsert, rfl, rfl⟩,
            inbox, -, rfl, rfl⟩ := h
          rcases (Table.mem_insert hinsert).1 hr with hold | rfl
          · exact .inl hold
          · exact .inr ⟨rfl, rfl, rfl, rfl, rfl, rfl⟩

/-- A committed offer was answered by a receipt, or it passed the check of the inbox. -/
theorem offer_checked {eventId : Option Text}
    (h : offer platform s caller operation request expectedRevision eventId statusCode now body
      = .ok (s', result)) :
    (∃ r ∈ s.receipts, r.operation = operation ∧ r.idempotencyKey = caller.idempotencyKey ∧
        r.requestHash = platform.requestHash (.request (.offer request expectedRevision))) ∨
      ∃ replay, runtimeEventReplay platform s.tables.inbox operation request eventId
        = .ok replay := by
  simp only [offer, bind_eq_ok] at h
  obtain ⟨replay, hreceipt, h⟩ := h
  cases replay with
  | some replay =>
      obtain ⟨-, r, hr, -, hoperation, hkey, hhash, -⟩ := receipt_eq_some hreceipt
      exact .inl ⟨r, hr, hoperation, hkey, hhash⟩
  | none =>
      simp only [bind_eq_ok] at h
      obtain ⟨replay, hreplay, -⟩ := h
      exact .inr ⟨replay, hreplay⟩

/-- The row that a committed event files, as the last of the inbox. -/
theorem Filed.row (h : Filed platform s s' caller operation request expectedRevision
      (some adapterEventId) attemptId result (formatTime now)) :
    ∃ row, s'.tables.inbox.rows = s.tables.inbox.rows ++ [row] ∧ row.attemptId = attemptId ∧
      row.adapterEventId = adapterEventId ∧ validateAdapterEventId row.adapterEventId = .ok () ∧
      request.cause.adapterEventSequence = some row.adapterEventSequence ∧
      row.payloadHash = platform.requestHash (.event operation request) ∧
      row.response = result.value ∧ row.statusCode = result.statusCode := by
  have hevent := h.event
  simp only [saveRuntimeEvent, bind_eq_ok, orRaise_eq_ok] at hevent
  obtain ⟨_, hvalid, sequence, hsequence, -, -, hinsert⟩ := hevent
  exact ⟨_, (Table.rows_insert hinsert).1, rfl, rfl, hvalid, hsequence, rfl, rfl, rfl⟩

end Offers

/-! ## The invariant -/

section Invariant

variable {Digest : Type} {platform : Platform Digest} {keys : DeliveryKeys}
  {s s' : Store Digest} {events : List Event} {o : Offer}

/-- A receipt under the key of an event, and the row of the event. -/
structure ReceiptOf (platform : Platform Digest) (adapterEventId : Text) (revision : ℤ)
    (receipt : Receipt Operation Digest Response) (row : InboxRow Digest) (request : OfferRequest) :
    Prop where
  adapterEventId : row.adapterEventId = adapterEventId
  attemptId : request.attemptId = some row.attemptId
  sequence : request.cause.adapterEventSequence = some row.adapterEventSequence
  payloadHash : row.payloadHash = platform.requestHash (.event receipt.operation request)
  requestHash : receipt.requestHash = platform.requestHash (.request (.offer request revision))
  response : receipt.response = row.response
  statusCode : receipt.statusCode = row.statusCode

private theorem exists_of_forall₂ {α β : Type} {R : α → β → Prop} {as : List α} {bs : List β}
    (h : List.Forall₂ R as bs) {a : α} (ha : a ∈ as) : ∃ b ∈ bs, R a b := by
  induction h with
  | nil => cases ha
  | cons hR _ ih =>
      rcases List.mem_cons.1 ha with rfl | ha
      · exact ⟨_, .head _, hR⟩
      · obtain ⟨b, hb, hb'⟩ := ih ha
        exact ⟨b, .tail _ hb, hb'⟩

/-- What holds of the events so far, the inbox and the receipts. -/
structure Ingested (platform : Platform Digest) (keys : DeliveryKeys) (events : List Event)
    (s : Store Digest) : Prop where
  wellFormed : WellFormed s.tables.ledger
  gapFree : GapFree s.tables.inbox
  valid : ∀ row ∈ s.tables.inbox, validateAdapterEventId row.adapterEventId = .ok () ∧
    row.attemptId = keys.attemptOf row.adapterEventId
  once : List.Forall₂ (RowOf platform) (events.filterMap (applied platform))
    s.tables.inbox.rows.reverse
  receipts : ∀ receipt ∈ s.receipts, receipt.operation.takesEvents = true →
    ∀ adapterEventId revision, keys.made adapterEventId revision →
      receipt.idempotencyKey = keys.key adapterEventId revision →
      ∃ row ∈ s.tables.inbox, ∃ request,
        ReceiptOf platform adapterEventId revision receipt row request

theorem applied_replayed {event : Event} (h : event.2.replayed = true) :
    applied platform event = none := if_pos h

theorem applied_unoffered {event : Event} (h : event.1.1.offered platform = none) :
    applied platform event = none := by
  simp [applied, h]

theorem applied_offered {event : Event} (ho : event.1.1.offered platform = some o)
    (hnew : event.2.replayed = false) :
    applied platform event = if o.adapterEventId.isSome then some (o, event.2) else none := by
  rw [applied, ho, hnew]
  cases hevent : o.adapterEventId with
  | none => simp [Option.filter, hevent]
  | some _ => simp [Option.filter, hevent]

theorem ingested_empty : Ingested platform keys [] (emptyStore : Store Digest) where
  wellFormed := wellFormed_empty
  gapFree := gapFree_empty
  valid := fun row hrow => absurd hrow (Table.not_mem_empty row)
  once := .nil
  receipts := fun receipt hreceipt => absurd hreceipt (Table.not_mem_empty receipt)

/-- Nothing is applied, and the inbox stays. -/
private theorem Ingested.leaves {event : Event} (h : Ingested platform keys events s)
    (hwell : WellFormed s'.tables.ledger) (hnone : applied platform event = none)
    (hinbox : s'.tables.inbox = s.tables.inbox)
    (hreceipts : ∀ receipt ∈ s'.receipts, receipt ∈ s.receipts ∨
      (receipt.operation.takesEvents = true →
        ∀ adapterEventId revision, keys.made adapterEventId revision →
          receipt.idempotencyKey ≠ keys.key adapterEventId revision)) :
    Ingested platform keys (event :: events) s' where
  wellFormed := hwell
  gapFree := by
    rw [hinbox]
    exact h.gapFree
  valid := by
    rw [hinbox]
    exact h.valid
  once := by
    rw [List.filterMap_cons_none hnone, hinbox]
    exact h.once
  receipts := by
    intro receipt hreceipt htakes adapterEventId revision hmade hkey
    rw [hinbox]
    rcases hreceipts receipt hreceipt with hold | hnew
    · exact h.receipts receipt hold htakes adapterEventId revision hmade hkey
    · exact absurd hkey (hnew htakes adapterEventId revision hmade)

/-- An event is applied: its row is the last of the inbox, and the next of its attempt. -/
private theorem Ingested.applies {event : Event} {row : InboxRow Digest} {adapterEventId : Text}
    (h : Ingested platform keys events s) (hwell : WellFormed s'.tables.ledger)
    (happlied : applied platform event = some (o, event.2))
    (hevent : o.adapterEventId = some adapterEventId) (hdelivery : o.IsDelivery keys)
    (hrows : s'.tables.inbox.rows = s.tables.inbox.rows ++ [row])
    (hrow : RowOf platform (o, event.2) row)
    (hvalid : validateAdapterEventId row.adapterEventId = .ok ())
    (hnext : row.adapterEventSequence = latestSequence s.tables.inbox row.attemptId + 1)
    (hreceipts : ∀ r ∈ s'.receipts, r ∈ s.receipts ∨ r.operation = o.operation ∧
      r.idempotencyKey = o.caller.idempotencyKey ∧
      r.requestHash = platform.requestHash (.request (.offer o.request o.expectedRevision)) ∧
      r.response = event.2.value ∧ r.statusCode = event.2.statusCode) :
    Ingested platform keys (event :: events) s' := by
  simp only [Offer.IsDelivery, hevent] at hdelivery
  obtain ⟨hmade, hkey, hattempt⟩ := hdelivery
  have hid : adapterEventId = row.adapterEventId := Option.some.inj (hevent.symm.trans
    hrow.adapterEventId)
  have hold : ∀ r ∈ s.tables.inbox, r ∈ s'.tables.inbox := by
    intro r hr
    rw [Table.mem_def, hrows]
    exact List.mem_append_left _ hr
  have hlast : row ∈ s'.tables.inbox := by
    rw [Table.mem_def, hrows]
    exact List.mem_append_right _ (List.mem_singleton_self row)
  refine ⟨hwell, h.gapFree.append hrows hnext, ?_, ?_, ?_⟩
  · intro r hr
    rw [Table.mem_def, hrows, List.mem_append, List.mem_singleton] at hr
    rcases hr with hr | rfl
    · exact h.valid r hr
    · refine ⟨hvalid, ?_⟩
      rw [hrow.attemptId, hid] at hattempt
      exact Option.some.inj hattempt
  · rw [List.filterMap_cons_some happlied, hrows, List.reverse_append, List.reverse_singleton]
    exact .cons hrow h.once
  · intro receipt hreceipt htakes eventId revision heventMade hreceiptKey
    rcases hreceipts receipt hreceipt with hkept | ⟨hoperation, hown, hhash, hresponse, hstatus⟩
    · obtain ⟨r, hr, request, hof⟩ :=
        h.receipts receipt hkept htakes eventId revision heventMade hreceiptKey
      exact ⟨r, hold r hr, request, hof⟩
    · -- The key of the new receipt names the event and the revision of its own offer.
      obtain ⟨rfl, rfl⟩ := keys.injective heventMade hmade
        (hreceiptKey.symm.trans (hown.trans hkey))
      refine ⟨row, hlast, o.request, hid.symm, hrow.attemptId, hrow.sequence, ?_, hhash, ?_, ?_⟩
      · rw [hoperation]
        exact hrow.payloadHash
      · exact hresponse.trans hrow.response.symm
      · exact hstatus.trans hrow.statusCode.symm

variable [DecidableEq Digest]

/-- What a committed call that offers something does. -/
theorem exec_offered_eq_ok {call : Call} {readings : Readings} {result : CommandResult Response}
    (hs : WellFormed s.tables.ledger) (ho : call.offered platform = some o)
    (h : exec platform s (call, readings) = .ok (s', result)) :
    (result.replayed = true ∧ s' = s) ∨
      result.replayed = false ∧ ∃ attemptId now,
        Ingests o s.tables.ledger s'.tables.ledger attemptId ∧
          Filed platform s s' o.caller o.operation o.request o.expectedRevision o.adapterEventId
            attemptId result (formatTime now) := by
  obtain ⟨-, statusCode, now, body, hexec, hbody⟩ := exec_offered ho readings
  rw [hexec] at h
  rcases offer_eq_ok h with hreplay | ⟨hnew, attemptId, hcommit, hfiled⟩
  · exact .inl hreplay
  · exact .inr ⟨hnew, attemptId, now, hbody _ _ _ _ hs hcommit, hfiled⟩

/-- The event of an offer is saved under the attempt it was offered for. -/
theorem Ingests.attempt {m m' : Ledger} {attemptId : ℕ} (h : Ingests o m m' attemptId)
    (hown : o.OfOwnAttempt m) (hevent : o.adapterEventId.isSome = true) :
    o.request.attemptId = some attemptId := by
  obtain ⟨run, hrun, hid, -, hactive, hattempt, -⟩ := h
  rcases hattempt with hsame | hcontrol
  · exact hsame
  · rw [hown hcontrol hevent run hrun hid, hactive]

/-- One step keeps the invariant. -/
theorem Ingested.step {event : Event} (h : Ingested platform keys events s)
    (hdelivers : event.1.1.Delivers platform keys)
    (hown : event.1.1.OfOwnAttempt platform s.tables.ledger)
    (hstep : Step platform s event s') : Ingested platform keys (event :: events) s' := by
  have hwell := step_wellFormed h.wellFormed hstep
  obtain ⟨⟨call, readings⟩, result⟩ := event
  cases ho : call.offered platform with
  | none =>
      have hleaves := exec_unoffered ho hstep
      refine h.leaves hwell ?_ hleaves.inbox fun receipt hreceipt => ?_
      · exact applied_unoffered ho
      · refine (hleaves.receipts receipt hreceipt).imp_right fun hnot htakes => ?_
        rw [hnot] at htakes
        cases htakes
  | some o =>
      rcases exec_offered_eq_ok h.wellFormed ho hstep with
        ⟨hreplay, rfl⟩ | ⟨hnew, attemptId, now, hingests, hfiled⟩
      · exact h.leaves hwell (applied_replayed hreplay) rfl fun receipt hreceipt => .inl hreceipt
      · obtain ⟨-, statusCode, now', body, hexec, -⟩ := exec_offered ho readings
        have hreceipts := offer_receipts ((hexec s).symm.trans hstep)
        have hdelivery := hdelivers o ho
        cases hevent : o.adapterEventId with
        | none =>
            refine h.leaves hwell ?_ ?_ fun receipt hreceipt => ?_
            · rw [applied_offered ho hnew, hevent]
              rfl
            · have hsaved := hfiled.event
              rw [hevent] at hsaved
              exact (pure_eq_ok.1 hsaved).symm
            · refine (hreceipts receipt hreceipt).imp_right fun hnew _ eventId revision hmade => ?_
              simp only [Offer.IsDelivery, hevent] at hdelivery
              rw [hnew.2.2.1]
              exact hdelivery eventId revision hmade
        | some adapterEventId =>
            have hsome : o.adapterEventId.isSome = true := by
              rw [hevent]
              rfl
            have hattempt := hingests.attempt (hown o ho) hsome
            have hfirst := hfiled.first
            rw [hevent] at hfiled hfirst
            obtain ⟨row, hrows, hid, heventId, hvalid, hsequence, hhash, hresponse, hstatus⟩ :=
              hfiled.row
            have hnext : row.adapterEventSequence =
                latestSequence s.tables.inbox row.attemptId + 1 := by
              rcases runtimeEventReplay_eq_ok hattempt hfirst with ⟨r, hr, hr'⟩ | ⟨-, -, -, hnext⟩
              · have hmem : r ∈ s'.tables.inbox.rows := by
                  rw [hrows]
                  exact List.mem_append_left _ hr
                have hlast : row ∈ s'.tables.inbox.rows := by
                  rw [hrows]
                  exact List.mem_append_right _ (List.mem_singleton_self row)
                have hnodup := s'.tables.inbox.nodup
                rw [hrows, List.map_append, List.nodup_append] at hnodup
                refine absurd ?_ (hnodup.2.2 (Keyed.key r) (List.mem_map_of_mem hr)
                  (Keyed.key row) (List.mem_map_of_mem (List.mem_singleton_self row)))
                exact Prod.ext (hr'.attemptId.trans hid.symm)
                  (hr'.adapterEventId.trans heventId.symm)
              · rw [hsequence, ← hid] at hnext
                exact Option.some.inj hnext
            refine h.applies hwell ?_ hevent hdelivery hrows ⟨?_, ?_, hsequence, hhash, hresponse,
              hstatus⟩ hvalid hnext fun r hr => (hreceipts r hr).imp_right And.right
            · rw [applied_offered ho hnew, if_pos hsome]
            · rw [heventId]
              exact hevent
            · rw [hid]
              exact hattempt

/-! ## Events that are offered again, and events that are refused -/

/-- An event in the inbox is answered by its row, whatever the run has become. -/
theorem Ingested.answered {call : Call} {row : InboxRow Digest}
    (h : Ingested platform keys events s) (hhash : Function.Injective platform.requestHash)
    (ho : call.offered platform = some o) (hdelivery : o.IsDelivery keys)
    (hrow : row ∈ s.tables.inbox) (hevent : o.adapterEventId = some row.adapterEventId)
    (hattempt : o.request.attemptId = some row.attemptId)
    (hsequence : o.request.cause.adapterEventSequence = some row.adapterEventSequence)
    (hpayload : row.payloadHash = platform.requestHash (.event o.operation o.request))
    (readings : Readings) :
    exec platform s (call, readings) =
      .ok (s, { value := row.response, statusCode := row.statusCode, replayed := true }) := by
  obtain ⟨htakes, statusCode, now, body, hexec, -⟩ := exec_offered ho readings
  simp only [Offer.IsDelivery, hevent] at hdelivery
  obtain ⟨hmade, hkey, -⟩ := hdelivery
  rw [hexec, offer, receipt, hkey, keys.valid, ok_bind]
  cases hreceipt : s.receipts.get? (o.caller.actorId, o.operation,
      keys.key row.adapterEventId o.expectedRevision) with
  | none =>
      simp only [pure_bind]
      rw [hevent, runtimeEventReplay_of_row hrow hattempt hsequence (h.gapFree.nonneg hrow)
        (h.valid row hrow).1 hpayload]
      rfl
  | some filed =>
      -- The receipt under this key is of the same event, and so of the same row and request.
      obtain ⟨hfiled, hfiledKey⟩ := Table.get?_eq_some.1 hreceipt
      simp only [Keyed.key, Prod.mk.injEq] at hfiledKey
      obtain ⟨-, hoperation, hidempotency⟩ := hfiledKey
      obtain ⟨r, hr, request, hof⟩ :=
        h.receipts filed hfiled (hoperation ▸ htakes) _ _ hmade hidempotency
      have hsame : r = row := by
        refine Table.eq_of_key hr hrow (Prod.ext ?_ hof.adapterEventId)
        exact (h.valid r hr).2.trans
          ((congrArg keys.attemptOf hof.adapterEventId).trans (h.valid row hrow).2.symm)
      subst hsame
      have hrequest := hhash (hof.payloadHash.symm.trans hpayload)
      simp only [Hashed.event.injEq] at hrequest
      have hstored := hof.requestHash
      rw [hrequest.2] at hstored
      simp only [if_pos hstored, hof.response, hof.statusCode]
      rfl

omit [DecidableEq Digest] in
/-- A receipt that answers an offer is of an event in the inbox with the same request. -/
private theorem Ingested.row_of_receipt {adapterEventId : Text} {attemptId : ℕ}
    {filed : Receipt Operation Digest Response} (h : Ingested platform keys events s)
    (hhash : Function.Injective platform.requestHash) (hdelivery : o.IsDelivery keys)
    (htakes : o.operation.takesEvents = true) (hevent : o.adapterEventId = some adapterEventId)
    (hattempt : o.request.attemptId = some attemptId) (hfiled : filed ∈ s.receipts)
    (hoperation : filed.operation = o.operation)
    (hkey : filed.idempotencyKey = o.caller.idempotencyKey)
    (hrequest : filed.requestHash =
      platform.requestHash (.request (.offer o.request o.expectedRevision))) :
    ∃ row ∈ s.tables.inbox,
      AnsweredBy platform o.operation o.request attemptId adapterEventId row := by
  simp only [Offer.IsDelivery, hevent] at hdelivery
  obtain ⟨row, hrow, request, hof⟩ := h.receipts filed hfiled (hoperation ▸ htakes)
    adapterEventId o.expectedRevision hdelivery.1 (hkey.trans hdelivery.2.1)
  have hsame := hhash (hof.requestHash.symm.trans hrequest)
  simp only [Hashed.request.injEq, Request.offer.injEq] at hsame
  obtain ⟨rfl, -⟩ := hsame
  refine ⟨row, hrow, ?_, hof.adapterEventId, hof.sequence, ?_⟩
  · exact Option.some.inj (hof.attemptId.symm.trans hattempt)
  · rw [← hoperation]
    exact hof.payloadHash

/-- An offer that reuses an id or a sequence, or skips one, is refused. -/
theorem Ingested.refused {call : Call} (h : Ingested platform keys events s)
    (hhash : Function.Injective platform.requestHash) (ho : call.offered platform = some o)
    (hdelivery : o.IsDelivery keys) (houtOfPlace : o.IsOutOfPlace platform s.tables.inbox)
    (readings : Readings) : ∃ error, exec platform s (call, readings) = .error error := by
  obtain ⟨adapterEventId, attemptId, hevent, hattempt, houtOfPlace⟩ := houtOfPlace
  cases hexec : exec platform s (call, readings) with
  | error error => exact ⟨error, rfl⟩
  | ok reply =>
      exfalso
      obtain ⟨htakes, statusCode, now, body, hoffer, -⟩ := exec_offered ho readings
      have hchecked := offer_checked ((hoffer s).symm.trans hexec)
      rw [hevent] at hchecked
      have hcases : (∃ row ∈ s.tables.inbox,
          AnsweredBy platform o.operation o.request attemptId adapterEventId row) ∨
          (∀ row ∈ s.tables.inbox, Keyed.key row ≠ (attemptId, adapterEventId)) ∧
          (∀ row ∈ s.tables.inbox, row.attemptId = attemptId →
            o.request.cause.adapterEventSequence ≠ some row.adapterEventSequence) ∧
          o.request.cause.adapterEventSequence =
            some (latestSequence s.tables.inbox attemptId + 1) := by
        rcases hchecked with ⟨filed, hfiled, hoperation, hkey, hrequest⟩ | ⟨replay, hreplay⟩
        · exact .inl (h.row_of_receipt hhash hdelivery htakes hevent hattempt hfiled hoperation
            hkey hrequest)
        · exact (runtimeEventReplay_eq_ok hattempt hreplay).imp_right And.right
      rcases hcases with ⟨row, hrow, hrow'⟩ | ⟨hnew, hfree, hnext⟩
      · have hof := mem_eventsOf.2 ⟨hrow, hrow'.attemptId⟩
        rcases houtOfPlace with ⟨r, hr, hid, hother⟩ | ⟨r, hr, hid, hsequence⟩ | ⟨hunknown, -⟩
        · obtain ⟨hmem, hrAttempt⟩ := mem_eventsOf.1 hr
          have hsame : r = row := Table.eq_of_key hmem hrow (Prod.ext
            (hrAttempt.trans hrow'.attemptId.symm) (hid.trans hrow'.adapterEventId.symm))
          exact hother (hsame ▸ hrow'.payloadHash)
        · rw [hrow'.sequence] at hsequence
          have hsame := h.gapFree.eq_of_sequence hof hr (Option.some.inj hsequence)
          exact hid (hsame ▸ hrow'.adapterEventId)
        · exact hunknown row hof hrow'.adapterEventId
      · rcases houtOfPlace with ⟨r, hr, hid, -⟩ | ⟨r, hr, -, hsequence⟩ | ⟨-, hskips⟩
        · obtain ⟨hmem, hrAttempt⟩ := mem_eventsOf.1 hr
          exact hnew r hmem (Prod.ext hrAttempt hid)
        · obtain ⟨hmem, hrAttempt⟩ := mem_eventsOf.1 hr
          exact hfree r hmem hrAttempt hsequence
        · rw [hnext, h.gapFree.latestSequence] at hskips
          exact hskips rfl

/-- In a run in which every event that is offered with an operator's request is of the active
attempt, events are ingested exactly once and without a gap. -/
theorem runtime_events_exactly_once (hhash : Function.Injective platform.requestHash)
    (h : History (restrict (Step platform) fun s event =>
      event.1.1.Delivers platform keys ∧ event.1.1.OfOwnAttempt platform s.tables.ledger)
      emptyStore events s) :
    GapFree s.tables.inbox ∧
      List.Forall₂ (RowOf platform) (events.filterMap (applied platform))
        s.tables.inbox.rows.reverse ∧
      (∀ call readings s' result o, call.offered platform = some o →
        exec platform s (call, readings) = .ok (s', result) →
        (result.replayed = true ∧ s' = s) ∨ (result.replayed = false ∧ o.RaisesRun s s')) ∧
      (∀ call readings o, call.offered platform = some o → o.IsDelivery keys →
        ∀ offered ∈ events.filterMap (applied platform),
          offered.1.adapterEventId = o.adapterEventId → offered.1.operation = o.operation →
          offered.1.request = o.request →
          exec platform s (call, readings) = .ok (s, { offered.2 with replayed := true })) ∧
      (∀ call readings o, call.offered platform = some o → o.IsDelivery keys →
        o.IsOutOfPlace platform s.tables.inbox →
        ∃ error, exec platform s (call, readings) = .error error) := by
  have hs : Ingested platform keys events s :=
    h.induction (P := Ingested platform keys) ingested_empty fun hs hstep =>
      hs.step hstep.2.1 hstep.2.2 hstep.1
  refine ⟨hs.gapFree, hs.once, ?_, ?_, fun call readings o ho hdelivery houtOfPlace =>
    hs.refused hhash ho hdelivery houtOfPlace readings⟩
  · intro call readings s' result o ho hexec
    rcases exec_offered_eq_ok hs.wellFormed ho hexec with hreplay | ⟨hnew, _, _, hingests, -⟩
    · exact .inl hreplay
    · obtain ⟨run, hrun, hid, hrevision, -, -, hraised⟩ := hingests
      exact .inr ⟨hnew, run, hrun, hid, hrevision, hraised⟩
  · intro call readings o ho hdelivery offered hoffered hevent hoperation hrequest
    obtain ⟨row, hrow, hof⟩ := exists_of_forall₂ hs.once hoffered
    rw [List.mem_reverse] at hrow
    have hresult := hs.answered hhash ho hdelivery hrow (hevent ▸ hof.adapterEventId)
      (hrequest ▸ hof.attemptId) (hrequest ▸ hof.sequence)
      (hoperation ▸ hrequest ▸ hof.payloadHash) readings
    rw [hresult, hof.response, hof.statusCode]

end Invariant

/-! ## An event that is offered twice -/

/-- Keys of one event of an attempt, with the revision that is read for the first offer. -/
def someKeys (attemptId : ℕ) (first : ℤ) : DeliveryKeys where
  key _ revision := List.replicate 16 (if revision = first then 'Y' else 'Z')
  attemptOf _ := attemptId
  made adapterEventId revision :=
    adapterEventId = ['e'] ∧ (revision = first ∨ revision = first + 1)
  valid _ revision := by
    by_cases h : revision = first
    · simp only [if_pos h]
      rfl
    · simp only [if_neg h]
      rfl
  injective := by
    rintro e e' r r' ⟨rfl, hr⟩ ⟨rfl, hr'⟩ heq
    refine ⟨rfl, ?_⟩
    by_cases h : r = first
    · by_cases h' : r' = first
      · rw [h, h']
      · simp [h, h'] at heq
    · by_cases h' : r' = first
      · simp [h, h'] at heq
      · omega

/-- The transition that a worker reports as the first event of an attempt. -/
def eventCall (keys : DeliveryKeys) (targetState : RunState) (attemptId : ℕ) (revision : ℤ) :
    Call :=
  .transitionRun 2 targetState revision none [] (workerTarget attemptId) (some ['e'])
    ⟨some 0, none, none⟩ { actorId := ['o'], idempotencyKey := keys.key ['e'] revision }

/-- The run of an attempt that is bound, and whose first event says that it runs. -/
def deliveredRun : List (Call × Readings) :=
  [ (eventCall (someKeys 3 3) .running 3 3, noon 0)
  , (.transitionRun 2 .starting 2 none [] (workerTarget 3) none noCause (someCaller 'f'), noon 0)
  , (.pinAttemptRuntime 2 3 4 ['r'] (some ['g']) (some ['o']) 1 (someCaller 'e'), noon 0) ] ++
    reservedRun

/-- A run whose second attempt is asked to stop by an event of the first. -/
def lateCancel : List (Call × Readings) :=
  (eventCall (someKeys 3 8) .cancelRequested 3 8, noon 0) ::
    (.resumeRun 2 7 (someCaller 'q'), noon 20) :: (pausing ++ reservedRun)

/-- A call without an event, under a key of small letters. -/
private def isPlain (call : Call × Readings) : Bool :=
  match call.1.offered plainPlatform with
  | none => true
  | some o => o.adapterEventId.isNone && o.caller.idempotencyKey.all Char.isLower

private theorem delivers_of_isPlain {call : Call × Readings} {attemptId : ℕ} {first : ℤ}
    (h : isPlain call = true) : call.1.Delivers plainPlatform (someKeys attemptId first) := by
  intro o ho
  simp only [isPlain, ho, Bool.and_eq_true, Option.isNone_iff_eq_none] at h
  obtain ⟨hnone, hlower⟩ := h
  simp only [Offer.IsDelivery, hnone]
  intro adapterEventId revision hmade heq
  rw [heq] at hlower
  revert hlower
  simp only [someKeys]
  split <;> decide

private theorem delivers_eventCall {targetState : RunState} {attemptId : ℕ} {first revision : ℤ}
    (h : revision = first ∨ revision = first + 1) :
    (eventCall (someKeys attemptId first) targetState attemptId revision).Delivers plainPlatform
      (someKeys attemptId first) := by
  intro o ho
  obtain rfl := Option.some.inj ho
  exact ⟨⟨rfl, h⟩, rfl, rfl⟩

private theorem history_deliveredRun :
    History (restrict (Step plainPlatform) fun s event =>
      event.1.1.Delivers plainPlatform (someKeys 3 3) ∧
        event.1.1.OfOwnAttempt plainPlatform s.tables.ledger)
      emptyStore (after deliveredRun).1 (after deliveredRun).2 := by
  refine (history_after deliveredRun).restrict fun event hevent s => ?_
  rcases List.mem_cons.1 (mem_runCalls hevent) with hfirst | hrest
  · rw [hfirst]
    refine ⟨delivers_eventCall (.inl rfl), fun o ho hcontrol => ?_⟩
    obtain rfl := Option.some.inj ho
    have hworker : ¬RunState.running.isControlRequest := by decide
    exact absurd hcontrol hworker
  · have hplain : isPlain event.1 = true := by
      have hall : (deliveredRun.tail.all isPlain) = true := by decide +kernel
      exact List.all_eq_true.1 hall _ hrest
    refine ⟨delivers_of_isPlain hplain, fun o ho _ hsome => ?_⟩
    simp only [isPlain, ho, Bool.and_eq_true, Option.isNone_iff_eq_none] at hplain
    rw [hplain.1] at hsome
    cases hsome

theorem runtime_events_exactly_once_deliveredRun :
    GapFree (after deliveredRun).2.tables.inbox ∧
      (exec plainPlatform (after deliveredRun).2
        (eventCall (someKeys 3 3) .running 3 4, noon 0)).toOption.map (fun reply =>
          reply.2.replayed) = some true := by
  obtain ⟨hgapFree, -, -, hagain, -⟩ :=
    runtime_events_exactly_once Function.injective_id history_deliveredRun
  refine ⟨hgapFree, ?_⟩
  have hreply := hagain (eventCall (someKeys 3 3) .running 3 4) (noon 0) _ rfl
    ⟨⟨rfl, .inr rfl⟩, rfl, rfl⟩ _ (List.mem_filterMap.2 ⟨_, List.mem_cons_self, rfl⟩) rfl rfl rfl
  rw [hreply]
  rfl

/-- The event is saved under the second attempt, and is refused when it is offered again. -/
theorem late_cancel_misfiled :
    ∃ events s call o offered error,
      History (restrict (Step plainPlatform) fun _ event =>
        event.1.1.Delivers plainPlatform (someKeys 3 8)) emptyStore events s ∧
      offered ∈ events.filterMap (applied plainPlatform) ∧
      call.offered plainPlatform = some o ∧ o.IsDelivery (someKeys 3 8) ∧
      offered.1.adapterEventId = o.adapterEventId ∧ offered.1.operation = o.operation ∧
      offered.1.request = o.request ∧
      exec plainPlatform s (call, noon 0) = .error error := by
  refine ⟨_, _, eventCall (someKeys 3 8) .cancelRequested 3 9, _, _, _,
    (history_after lateCancel).restrict fun event hevent s => ?_,
    List.mem_filterMap.2 ⟨_, List.mem_cons_self, rfl⟩, rfl, ⟨⟨rfl, .inr rfl⟩, rfl, rfl⟩, rfl, rfl,
    rfl, rfl⟩
  rcases List.mem_cons.1 (mem_runCalls hevent) with hfirst | hrest
  · rw [hfirst]
    exact delivers_eventCall (.inl rfl)
  · have hall : (lateCancel.tail.all isPlain) = true := by decide +kernel
    exact delivers_of_isPlain (List.all_eq_true.1 hall _ hrest)

end Cortex.Runs
