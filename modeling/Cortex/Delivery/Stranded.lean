import Cortex.Delivery.AtMostOnce
import Cortex.Delivery.Turns

/-!
# Which chunks a pass strands

A send that was refused before its frame should leave its chunk `pending`, to be
sent again; a send whose outcome is unknown should leave it `sending_unknown`.
The client knows the first only of a busy line and of a worker that declined the
call.  Every other refusal between the permit and the frame, a closed gate among
them, is taken for an unknown outcome, and the chunk is stranded.
-/

namespace Cortex.Delivery

open Control Time Transaction

variable {Digest : Type} [DecidableEq Digest] {frozen : Frozen Digest} {destination : Destination}
  {port : Port} {receiptDigest : Text → Digest} {chunk : WireChunk} {chunks : List WireChunk}
  {pass : ℕ → ChunkReadings Digest} {firstClaim : Option ChunkClaim} {l : Ledger Digest}
  {i delivered : ℕ} {sent : Sent}

/-! ## Sent again by a later pass -/

/-- A turn that finds Control, the worker and the projection in order up to its permit. -/
structure Reaches (frozen : Frozen Digest) (port : Port) (i : ℕ) (readings : ChunkReadings Digest) :
    Prop where
  observed : readings.observedDigest = some frozen.capabilityBindingDigest
  control : ∃ claim begin expires deadline, readings.claim = some claim ∧
    readings.begin = some begin ∧
    claim.now.addSeconds port.leaseSeconds = some expires ∧
    formatRegistryTime begin.now < formatRegistryTime expires ∧
    begin.projectionVerified = true ∧
    begin.now.addSeconds frozen.rpcTimeoutSeconds = some deadline ∧
    ∀ capability ∈ frozen.capabilities, capability.1 = i →
      ¬capability.2 ≤ formatRegistryTime deadline

/-- Every later pass that reaches the chunk sends it. -/
def SendsAgain (frozen : Frozen Digest) (receiptDigest : Text → Digest) (l : Ledger Digest)
    (i : ℕ) : Prop :=
  ∀ (port : Port) (destination : Destination) (chunks : List WireChunk)
    (pass : ℕ → ChunkReadings Digest), transportWorkerId port.workerId = .ok () →
    1 ≤ port.leaseSeconds ∧ port.leaseSeconds ≤ 3600 → i < chunks.length →
    (∀ j ≤ i, Reaches frozen port j (pass j)) →
    ∃ chunk sent, (i, chunk, sent) ∈ (sendFrozenChunks frozen destination port receiptDigest chunks
      pass none l).attempts

private theorem sendTurn_delivered {readings : ChunkReadings Digest} {row : Chunk Digest}
    (hrow : l.chunks[i]? = some row) (hstate : row.val.state = .delivered) (hindex : i < 100)
    (hworker : transportWorkerId port.workerId = .ok ())
    (hlease : 1 ≤ port.leaseSeconds ∧ port.leaseSeconds ≤ 3600)
    (hreaches : Reaches frozen port i readings) :
    sendTurn frozen destination port receiptDigest l i chunk none readings = ⟨l, none, .ok none⟩ := by
  obtain ⟨-, claim, begin, expires, deadline, hclaim, -, hexpires, -⟩ := hreaches
  have hturn : turnClaim port l i none readings = .ok (l, chunkClaim row (.state .delivered)) := by
    have hnone : (if i = 0 then (none : Option ChunkClaim) else none) = none := by
      split <;> rfl
    rw [turnClaim, hnone]
    simp only [control, hclaim, claimChunk, bind_eq_ok]
    refine ⟨(), require_eq_ok.2 hindex, (), hworker, (), require_eq_ok.2 hlease, expires,
      orRaise_eq_ok.2 hexpires, row, chunkRow_eq_ok.2 hrow, ?_⟩
    rw [if_pos (by simp [hstate]), hstate]
    rfl
  unfold sendTurn
  rw [hturn]
  rfl

private theorem sendTurn_waiting {readings : ChunkReadings Digest} (h : Waiting l i)
    (hworker : transportWorkerId port.workerId = .ok ())
    (hlease : 1 ≤ port.leaseSeconds ∧ port.leaseSeconds ≤ 3600)
    (hreaches : Reaches frozen port i readings) :
    ∃ sent, (sendTurn frozen destination port receiptDigest l i chunk none readings).attempt =
      some sent := by
  obtain ⟨hobserved, claimAt, beginAt, expires, deadline, hclaimAt, hbeginAt, hexpires, hlive,
    hverified, hdeadline, hcapabilities⟩ := hreaches
  obtain ⟨m, claim, hclaim, hclaimed⟩ := h.claim hworker hlease hexpires
  obtain ⟨m', revision, epoch, windowId, hbegin⟩ :=
    hclaimed.begin h.index hworker hverified hlive hdeadline hcapabilities
  have hturn : turnClaim port l i none readings = .ok (m, claim) := by
    have hnone : (if i = 0 then (none : Option ChunkClaim) else none) = none := by
      split <;> rfl
    rw [turnClaim, hnone]
    simp only [control, hclaimAt]
    exact hclaim
  refine ⟨sendChunk frozen chunk destination readings.send, ?_⟩
  unfold sendTurn
  simp only [hturn, hclaimed.status, claimedTurn, hclaimed.owner, hobserved, permitTurn, control,
    hbeginAt, hbegin]
  simp

/-- A waiting chunk is sent by every later pass that reaches it. -/
private theorem Waiting.sendsAgain (h : Waiting l i) : SendsAgain frozen receiptDigest l i := by
  intro port destination chunks pass hworker hlease hlength hreaches
  -- The pass goes through the delivered chunks `k`, …, `i - 1` and comes to `i`.
  have hfrom : ∀ (chunks : List WireChunk) (k delivered : ℕ), k ≤ i → i < k + chunks.length →
      ∃ chunk sent, (i, chunk, sent) ∈ (sendFrom frozen destination port receiptDigest pass none l k
        delivered chunks).attempts := by
    intro chunks
    induction chunks with
    | nil =>
        intro k delivered hk hlength
        simp only [List.length_nil] at hlength
        omega
    | cons chunk rest ih =>
        intro k delivered hk hlength
        rcases hk.lt_or_eq with hlt | rfl
        · have hlen : i < l.chunks.length := by
            obtain ⟨row, hrow, -⟩ := h.row
            exact (List.getElem?_eq_some_iff.1 hrow).1
          obtain ⟨row, hrow⟩ : ∃ row, l.chunks[k]? = some row :=
            ⟨_, List.getElem?_eq_getElem (hlt.trans hlen)⟩
          have hstate : row.val.state = .delivered := by
            apply h.earlier
            rw [List.mem_take_iff_getElem]
            obtain ⟨hk, hget⟩ := List.getElem?_eq_some_iff.1 hrow
            exact ⟨k, lt_min hlt hk, hget⟩
          have hturn : sendTurn frozen destination port receiptDigest l k chunk none (pass k) =
              ⟨l, none, .ok none⟩ :=
            sendTurn_delivered hrow hstate (hlt.trans h.index) hworker hlease (hreaches k hlt.le)
          obtain ⟨chunk', sent, hmem⟩ := ih (k + 1) delivered hlt
            (by simp only [List.length_cons] at hlength; omega)
          refine ⟨chunk', sent, ?_⟩
          unfold sendFrom
          simp only [hturn, Option.toList_none, List.map_nil, List.nil_append, List.length_nil,
            Nat.add_zero]
          exact hmem
        · have hattempt : ∃ sent, (sendTurn frozen destination port receiptDigest l k chunk none
              (pass k)).attempt = some sent :=
            sendTurn_waiting h hworker hlease (hreaches k le_rfl)
          obtain ⟨sent, hattempt⟩ := hattempt
          refine ⟨chunk, sent, ?_⟩
          unfold sendFrom
          dsimp only
          rw [hattempt]
          split
          · simp
          · simp
          · simp
  exact hfrom chunks 0 0 (Nat.zero_le i) (by simpa using hlength)

/-! ## Unknown until an operator decides -/

/-- One more pass over the ledger, by any worker. -/
def PassStep (frozen : Frozen Digest) (receiptDigest : Text → Digest) (l : Ledger Digest)
    (p : Pass Digest) (l' : Ledger Digest) : Prop :=
  l' = p.ledger ∧ ∃ destination port chunks pass firstClaim,
    p = sendFrozenChunks frozen destination port receiptDigest chunks pass firstClaim l

/-- No later pass gets a permit for the chunk or changes it. -/
def StaysUnknown (frozen : Frozen Digest) (receiptDigest : Text → Digest) (l : Ledger Digest)
    (i : ℕ) : Prop :=
  ∀ passes l', History (PassStep frozen receiptDigest) l passes l' →
    l'.chunks[i]? = l.chunks[i]? ∧ ∀ p ∈ passes, ∀ attempt ∈ p.attempts, attempt.1 ≠ i

theorem IsUnknown.stays (h : IsUnknown l i) : StaysUnknown frozen receiptDigest l i := by
  intro passes l' hpasses
  refine hpasses.induction
    (P := fun passes l' => l'.chunks[i]? = l.chunks[i]? ∧
      ∀ p ∈ passes, ∀ attempt ∈ p.attempts, attempt.1 ≠ i) ⟨rfl, by simp⟩ ?_
  rintro passes m p m' ⟨hkept, hidle⟩ ⟨rfl, destination, port, chunks, pass, firstClaim, rfl⟩
  have hunknown : IsUnknown m i := by
    obtain ⟨row, hrow, hstate⟩ := h
    exact ⟨row, hkept.trans hrow, hstate⟩
  have hpass : (sendFrozenChunks frozen destination port receiptDigest chunks pass firstClaim
        m).ledger.chunks[i]? = m.chunks[i]? ∧
      ∀ attempt ∈ (sendFrozenChunks frozen destination port receiptDigest chunks pass firstClaim
        m).attempts, attempt.1 ≠ i := sendFrom_unknown hunknown
  refine ⟨hpass.1.trans hkept, fun p hp => ?_⟩
  rcases List.mem_cons.1 hp with rfl | hp
  · exact hpass.2
  · exact hidle p hp

/-! ## What a pass leaves behind -/

/-- A refused send leaves its chunk to a later pass; an unknown one leaves it to an operator. -/
structure Settles (frozen : Frozen Digest) (receiptDigest : Text → Digest) (p : Pass Digest) :
    Prop where
  refused : ∀ i chunk sent, (i, chunk, sent) ∈ p.attempts → sent.Refused →
    (∃ row, p.ledger.chunks[i]? = some row ∧ row.val.state = .pending) ∧
      SendsAgain frozen receiptDigest p.ledger i
  unanswered : ∀ i chunk sent, (i, chunk, sent) ∈ p.attempts → sent.Unanswered →
    IsUnknown p.ledger i ∧ StaysUnknown frozen receiptDigest p.ledger i

/-- The chunk after a turn whose send raised, other than a known refusal. -/
theorem WentThrough.unknown {readings : ChunkReadings Digest} {turn : Turn Digest}
    (h : WentThrough frozen destination port receiptDigest i chunk readings turn sent)
    {error : SendError} (hother : error ≠ .refusedBeforeSend)
    (houtcome : sent.outcome = .error error) : IsUnknown turn.ledger i := by
  obtain ⟨m, revision, epoch, windowId, hpermitted, -, -, hledger, -⟩ := h
  obtain ⟨row, hrow, hstate, -⟩ := hpermitted.row
  have hsame : (settle port receiptDigest m i revision epoch windowId readings.settle sent).1 = m := by
    unfold settle
    simp only [houtcome]
  rw [hledger, hsame]
  exact ⟨row, hrow, hstate⟩

/-- The chunk after a turn whose send is known to be refused. -/
theorem WentThrough.refused {readings : ChunkReadings Digest} {turn : Turn Digest}
    (h : WentThrough frozen destination port receiptDigest i chunk readings turn sent)
    (houtcome : sent.outcome = .error .refusedBeforeSend) :
    if readings.settle.isSome = true then Waiting turn.ledger i else IsUnknown turn.ledger i := by
  obtain ⟨m, revision, epoch, windowId, hpermitted, hearlier, -, hledger, -⟩ := h
  rw [hledger]
  unfold settle
  simp only [houtcome]
  cases hsettle : readings.settle with
  | none =>
      obtain ⟨row, hrow, hstate, -⟩ := hpermitted.row
      rw [if_neg (by simp)]
      exact ⟨row, hrow, hstate⟩
  | some r =>
      rw [if_pos (by simp)]
      obtain ⟨m', claim, hrelease, hwaiting⟩ := hpermitted.release r hearlier
      simp only [report, control, hrelease]
      exact hwaiting

/-- A pass settles its sends exactly when none of them is refused otherwise than by the busy line
or by the worker, and Control accepts the release of those that are. -/
theorem settles_iff :
    Settles frozen receiptDigest
        (sendFrozenChunks frozen destination port receiptDigest chunks pass firstClaim l) ↔
      ∀ i chunk sent, (i, chunk, sent) ∈ (sendFrozenChunks frozen destination port receiptDigest
        chunks pass firstClaim l).attempts → Guarded frozen destination chunk (pass i) := by
  constructor
  · intro hsettles i chunk sent hmem
    -- An unguarded send is a refused one whose chunk is left unknown.
    have hnot : ¬(sent.Refused ∧ IsUnknown (sendFrozenChunks frozen destination port receiptDigest
        chunks pass firstClaim l).ledger i) := by
      rintro ⟨hrefused, hunknown⟩
      obtain ⟨⟨row, hrow, hstate⟩, -⟩ := hsettles.refused i chunk sent hmem hrefused
      rw [hunknown.state hrow] at hstate
      cases hstate
    obtain rfl := sendFrom_sent hmem
    by_cases hcleared : Cleared frozen destination chunk (pass i).send
    · refine ⟨hcleared, fun hwhy => ?_⟩
      by_contra hraises
      have hrefused := hcleared.refused hwhy
      obtain ⟨turn, hthrough, hledger⟩ := sendFrom_attempt hmem (.inl hrefused)
      have hunknown := hthrough.refused (sendChunk_refused hcleared hrefused).1
      rw [if_neg hraises, ← hledger] at hunknown
      exact hnot ⟨hrefused, hunknown⟩
    · obtain ⟨hanswer, error, hother, houtcome⟩ := sendChunk_not_cleared hcleared
      obtain ⟨turn, hthrough, hledger⟩ := sendFrom_attempt hmem (.inl (.inl hanswer))
      have hunknown := hthrough.unknown hother houtcome
      rw [← hledger] at hunknown
      exact absurd ⟨.inl hanswer, hunknown⟩ hnot
  · intro hguarded
    constructor
    · intro i chunk sent hmem hrefused
      obtain ⟨turn, hthrough, hledger⟩ := sendFrom_attempt hmem (.inl hrefused)
      have hguard := hguarded i chunk sent hmem
      obtain ⟨m, revision, epoch, windowId, -, -, rfl, -⟩ := id hthrough
      obtain ⟨houtcome, hwhy⟩ := sendChunk_refused hguard.cleared hrefused
      have hwaiting := hthrough.refused houtcome
      rw [if_pos (hguard.released hwhy)] at hwaiting
      rw [sendFrozenChunks, hledger]
      obtain ⟨row, hrow, hstate, -⟩ := hwaiting.row
      exact ⟨⟨row, hrow, hstate⟩, hwaiting.sendsAgain⟩
    · intro i chunk sent hmem hunanswered
      obtain ⟨turn, hthrough, hledger⟩ := sendFrom_attempt hmem (.inr hunanswered)
      obtain ⟨m, revision, epoch, windowId, -, -, rfl, -⟩ := id hthrough
      obtain ⟨error, hother, houtcome⟩ := sendChunk_unanswered hunanswered
      have hunknown := hthrough.unknown hother houtcome
      rw [sendFrozenChunks, hledger]
      exact ⟨hunknown, hunknown.stays⟩

/-- A pass over one chunk in which everything is in order, except that the gate was closed after
the permit. -/
def closedGate : ChunkReadings ℕ where
  claim := some noon
  observedDigest := some 1
  begin := some noon
  send :=
    { destinationMatches := some true
      capabilityDigest := some 1
      gateOpen := some false
      lineFree := true
      answer := .result (.accepted ['m']) }
  settle := some noon

def gateClosedPass : Pass ℕ :=
  sendFrozenChunks { capabilityBindingDigest := 1, rpcTimeoutSeconds := 10, capabilities := [] }
    ⟨7, none⟩ ⟨['w'], 60⟩ (fun _ => 1) [⟨"d:chunk:0".toList, ['h', 'i'], []⟩] (fun _ => closedGate)
    none (frozenLedger 1)

/-- The closed gate was proved before any frame, and the chunk is stranded. -/
theorem stranded_by_closedGate :
    ¬Settles { capabilityBindingDigest := 1, rpcTimeoutSeconds := 10, capabilities := [] }
      (fun _ => 1) gateClosedPass := by
  intro hsettles
  have hattempts : gateClosedPass.attempts =
      [(0, ⟨"d:chunk:0".toList, ['h', 'i'], []⟩, ⟨none, .error .outcomeUnknown⟩)] := by rfl
  have hstates : gateClosedPass.ledger.chunks.map (fun c => c.val.state) = [.sendingUnknown] := by
    decide +kernel
  have hmem := hattempts ▸ List.mem_singleton_self _
  obtain ⟨⟨row, hrow, hstate⟩, -⟩ := hsettles.refused _ _ _ hmem (.inl rfl)
  have hpending : row.val.state ∈ gateClosedPass.ledger.chunks.map (fun c => c.val.state) :=
    List.mem_map_of_mem (List.mem_of_getElem? hrow)
  rw [hstates, hstate] at hpending
  simp at hpending

end Cortex.Delivery
