import Cortex.Delivery.Steps

/-!
# No duplicate message without a decision

What holds over every run of the delivery ledger of one frozen projection, by any
number of workers under any clock.  A send permit is paid for by the first send,
by a provider's proof that nothing was sent, or by an operator's retry (`Paid`);
a chunk is claimed only after all the earlier ones are delivered (`Ordered`), so
the chunks are always a delivered prefix, at most one chunk in work, and chunks
nobody has claimed.
-/

namespace Cortex.Delivery

open Control Time

variable {Digest : Type}

/-- A chunk as the projection freezes it. -/
def frozenChunk : Chunk Digest :=
  ⟨{ state := .pending, revision := 0, claimOwner := none, claimEpoch := 0
     claimExpiresAt := none, retryNotBefore := none, providerReceiptDigest := none
     failureCategory := none, manualResolutionId := none, completedAt := none
     transportWindowId := none }, by simp [Columns.Check]⟩

/-- The rows of a projection of `count` chunks, just frozen. -/
def frozenLedger (count : ℕ) : Ledger Digest :=
  { chunks := List.replicate count frozenChunk
    parentState := .pending
    parentRevision := 0
    parentCompletedAt := none
    resolutions := .empty }

/-! ## Chunks are worked on in order -/

/-- A chunk that is not pending has been claimed. -/
def Touched (chunks : List (Chunk Digest)) : Prop :=
  ∀ c ∈ chunks, c.val.state ≠ .pending → 1 ≤ c.val.claimEpoch

/-- Every chunk before a claimed one is delivered. -/
def Ordered (chunks : List (Chunk Digest)) : Prop :=
  chunks.Pairwise fun c d => 1 ≤ d.val.claimEpoch → c.val.state = .delivered

theorem Moved.touched {e : Event Digest} {i : ℕ} {c c' : Chunk Digest} (h : Moved e i c c')
    (htouched : c.val.state ≠ .pending → 1 ≤ c.val.claimEpoch) :
    c'.val.state ≠ .pending → 1 ≤ c'.val.claimEpoch := by
  intro hstate'
  cases h with
  | claimed _ _ _ hepoch => omega
  | permitted _ _ _ hstate _ hepoch =>
      rw [hepoch]
      exact htouched (by simp [hstate])
  | closed _ hstate _ hepoch =>
      rw [hepoch]
      apply htouched
      rcases hstate with hstate | hstate <;> simp [hstate]
  | released _ _ hpending => exact absurd hpending hstate'
  | returned _ _ _ hpending => exact absurd hpending hstate'

theorem Touched.step {e : Event Digest} {chunks chunks' : List (Chunk Digest)}
    (htouched : Touched chunks) (h : Effect e chunks chunks') : Touched chunks' := by
  cases h with
  | unchanged heq => rwa [heq]
  | wrote i c c' hc heq hmoved =>
      intro d hd
      rw [heq] at hd
      rcases List.mem_or_eq_of_mem_set hd with hd | rfl
      · exact htouched d hd
      · exact hmoved.touched (htouched c (List.mem_of_getElem? hc))

/-- A delivered or failed chunk is written by no arrow. -/
private theorem Moved.not_closed {e : Event Digest} {i : ℕ} {c c' : Chunk Digest} (h : Moved e i c c') :
    c.val.state ≠ .delivered ∧ c.val.state ≠ .failed := by
  cases h with
  | claimed _ hstate => rcases hstate with hstate | hstate <;> simp [hstate]
  | permitted _ _ _ hstate => simp [hstate]
  | closed _ hstate => rcases hstate with hstate | hstate <;> simp [hstate]
  | released _ hstate => simp [hstate]
  | returned _ _ hstate => simp [hstate]

/-- An arrow raises the epoch only by a claim. -/
theorem Moved.epoch_le {e : Event Digest} {i : ℕ} {c c' : Chunk Digest} (h : Moved e i c c') :
    c.val.claimEpoch ≤ c'.val.claimEpoch := by
  cases h <;> omega

theorem Ordered.step {e : Event Digest} {chunks chunks' : List (Chunk Digest)}
    (hordered : Ordered chunks) (h : Effect e chunks chunks') : Ordered chunks' := by
  cases h with
  | unchanged heq => rwa [heq]
  | wrote i c c' hc heq hmoved hclaim =>
      subst heq
      rw [Ordered, List.pairwise_iff_getElem] at hordered ⊢
      intro j k hj hk hjk hepoch
      rw [List.length_set] at hj hk
      obtain ⟨hi, rfl⟩ := List.getElem?_eq_some_iff.1 hc
      by_cases hki : i = k
      · subst hki
        -- The written chunk: its earlier chunks were delivered, or are by its own claim.
        rw [List.getElem_set_ne (by omega)]
        rw [List.getElem_set_self] at hepoch
        by_cases hlt : chunks[i].val.claimEpoch < c'.val.claimEpoch
        · apply hclaim hlt
          rw [List.mem_take_iff_getElem]
          exact ⟨j, by omega, rfl⟩
        · exact hordered j i hj hk hjk (by have := hmoved.epoch_le; omega)
      · rw [List.getElem_set_ne hki] at hepoch
        have hdelivered := hordered j k hj hk hjk hepoch
        by_cases hij : i = j
        · subst hij
          exact absurd hdelivered hmoved.not_closed.1
        · rwa [List.getElem_set_ne hij]

/-! ## Permits are paid for -/

/-- A chunk that is pending or claimed may still be sent once. -/
def owed : Option (Chunk Digest) → ℕ
  | some c => if c.val.state = .pending ∨ c.val.state = .claimed then 1 else 0
  | none => 0

/-- The permits of every chunk, and the one still owed, are paid for. -/
def Paid (events : List (Event Digest)) (chunks : List (Chunk Digest)) : Prop :=
  ∀ i, events.countP (·.permits i) + owed chunks[i]? ≤
    1 + events.countP (·.provesUnsent i) + events.countP (·.retries i)

theorem Moved.paid {e : Event Digest} {i : ℕ} {c c' : Chunk Digest} (h : Moved e i c c') :
    (if e.permits i then 1 else 0) + owed (some c') ≤
      (if e.provesUnsent i then 1 else 0) + (if e.retries i then 1 else 0) + owed (some c) := by
  cases h with
  | claimed hspares hstate hstate' =>
      rcases hstate with hstate | hstate <;> simp [hspares.1, owed, hstate, hstate']
  | permitted hpermits _ _ hstate hstate' => simp [hpermits, owed, hstate, hstate']
  | closed hspares _ hstate' =>
      rcases hstate' with hstate' | hstate' <;> simp [hspares.1, owed, hstate']
  | released hspares hstate hstate' => simp [hspares.1, owed, hstate, hstate']
  | returned hpermits hpaid _ hstate' =>
      rcases hpaid with hpaid | hpaid <;> simp [hpermits, hpaid, owed, hstate'] <;> omega

theorem Paid.step {events : List (Event Digest)} {e : Event Digest}
    {chunks chunks' : List (Chunk Digest)} (hpaid : Paid events chunks)
    (h : Effect e chunks chunks') : Paid (e :: events) chunks' := by
  intro i
  have hbefore := hpaid i
  simp only [List.countP_cons]
  cases h with
  | unchanged heq hspares =>
      subst heq
      simp only [(hspares i).1, (hspares i).2.1, (hspares i).2.2, Bool.false_eq_true, if_false]
      exact hbefore
  | wrote j c c' hc heq hmoved _ hspares =>
      subst heq
      by_cases hij : i = j
      · subst hij
        have hlt : i < chunks.length := (List.getElem?_eq_some_iff.1 hc).1
        have hmove := hmoved.paid
        rw [List.getElem?_set_self hlt]
        rw [hc] at hbefore
        omega
      · rw [List.getElem?_set_ne (Ne.symm hij)]
        simp only [(hspares i hij).1, (hspares i hij).2.1, (hspares i hij).2.2,
          Bool.false_eq_true, if_false]
        exact hbefore

/-! ## The shape of the ledger -/

/-- A chunk somebody has worked on and that is not delivered. -/
def InWork (c : Chunk Digest) : Prop :=
  (c.val.state = .pending ∧ 1 ≤ c.val.claimEpoch) ∨ c.val.state = .claimed ∨
    c.val.state = .sendingUnknown ∨ c.val.state = .failed

/-- Delivered chunks, at most one in work, then chunks nobody has claimed. -/
def PrefixShape (chunks : List (Chunk Digest)) : Prop :=
  ∃ done work rest, chunks = done ++ work ++ rest ∧ (∀ c ∈ done, c.val.state = .delivered) ∧
    work.length ≤ 1 ∧ (∀ c ∈ work, InWork c) ∧
    ∀ c ∈ rest, c.val.state = .pending ∧ c.val.claimEpoch = 0

private theorem prefixShape {chunks : List (Chunk Digest)} (htouched : Touched chunks)
    (hordered : Ordered chunks) : PrefixShape chunks := by
  induction chunks with
  | nil => exact ⟨[], [], [], by simp⟩
  | cons c chunks ih =>
      rw [Ordered, List.pairwise_cons] at hordered
      obtain ⟨hhead, htail⟩ := hordered
      have hrest : Touched chunks := fun d hd => htouched d (List.mem_cons_of_mem _ hd)
      by_cases hdelivered : c.val.state = .delivered
      · obtain ⟨done, work, rest, heq, hdone, hwork⟩ := ih hrest htail
        refine ⟨c :: done, work, rest, by rw [heq]; rfl, ?_, hwork⟩
        exact List.forall_mem_cons.2 ⟨hdelivered, hdone⟩
      · -- Nothing after an undelivered chunk has been claimed.
        have hfresh : ∀ d ∈ chunks, d.val.state = .pending ∧ d.val.claimEpoch = 0 := by
          intro d hd
          have hepoch : d.val.claimEpoch = 0 := by
            by_contra hne
            exact hdelivered (hhead d hd (Nat.one_le_iff_ne_zero.2 hne))
          refine ⟨?_, hepoch⟩
          by_contra hstate
          have := hrest d hd hstate
          omega
        by_cases hpending : c.val.state = .pending ∧ c.val.claimEpoch = 0
        · exact ⟨[], [], c :: chunks, rfl, by simp, by simp, by simp,
            List.forall_mem_cons.2 ⟨hpending, hfresh⟩⟩
        · refine ⟨[], [c], chunks, rfl, by simp, by simp, ?_, hfresh⟩
          intro d hd
          obtain rfl := List.mem_singleton.1 hd
          unfold InWork
          cases hstate : d.val.state <;> simp_all
          omega

/-! ## The contract of the ledger -/

/-- Every chunk before a chunk that gets a permit is delivered. -/
private theorem Effect.permits_in_order {e : Event Digest} {chunks chunks' : List (Chunk Digest)}
    (h : Effect e chunks chunks') (htouched : Touched chunks) (hordered : Ordered chunks) {i : ℕ}
    (hpermits : e.permits i = true) : ∀ d ∈ chunks.take i, d.val.state = .delivered := by
  cases h with
  | unchanged _ hspares => simp [(hspares i).1] at hpermits
  | wrote j c c' hc _ hmoved _ hspares =>
      by_cases hij : i = j
      · subst hij
        cases hmoved with
        | permitted _ _ _ hstate =>
            obtain ⟨hi, rfl⟩ := List.getElem?_eq_some_iff.1 hc
            have hepoch := htouched _ (List.getElem_mem hi) (by simp [hstate])
            intro d hd
            rw [List.mem_take_iff_getElem] at hd
            obtain ⟨k, hk, rfl⟩ := hd
            rw [Ordered, List.pairwise_iff_getElem] at hordered
            exact hordered k i _ hi (by omega) hepoch
        | claimed hspared => simp [hspared.1] at hpermits
        | closed hspared => simp [hspared.1] at hpermits
        | released hspared => simp [hspared.1] at hpermits
        | returned hnone => simp [hnone] at hpermits
      · simp [(hspares i hij).1] at hpermits

section

variable [DecidableEq Digest] {frozen : Frozen Digest} {requestHash : ResolutionRequest → Digest}

/-- A delivered or failed chunk keeps its row along every run. -/
private theorem closed_of_history {l l' : Ledger Digest} {events : List (Event Digest)}
    (h : History (Step frozen requestHash) l events l') {i : ℕ} {c : Chunk Digest}
    (hc : l.chunks[i]? = some c) (hclosed : c.val.state = .delivered ∨ c.val.state = .failed) :
    l'.chunks[i]? = some c := by
  induction h with
  | nil => exact hc
  | cons _ hstep ih =>
      cases step_cases hstep with
      | unchanged heq => rwa [heq]
      | wrote j d d' hd heq hmoved =>
          rw [heq, List.getElem?_set_ne, ih]
          rintro rfl
          obtain rfl := Option.some.inj (ih.symm.trans hd)
          rcases hclosed with hclosed | hclosed
          · exact hmoved.not_closed.1 hclosed
          · exact hmoved.not_closed.2 hclosed

/-- Over every run of the ledger of a frozen projection: permits are paid for and issued in
order, closed chunks stay, and the chunks keep their prefix shape. -/
theorem no_duplicate_message {count : ℕ} {events : List (Event Digest)} {l : Ledger Digest}
    (h : History (Step frozen requestHash) (frozenLedger count) events l) :
    (∀ i, events.countP (·.permits i) ≤
      1 + events.countP (·.provesUnsent i) + events.countP (·.retries i)) ∧
    (∀ (e : Event Digest) l', Step frozen requestHash l e l' → ∀ i, e.permits i = true →
      ∀ c ∈ l.chunks.take i, c.val.state = .delivered) ∧
    (∀ events' l', History (Step frozen requestHash) l events' l' → ∀ (i : ℕ) (c : Chunk Digest),
      l.chunks[i]? = some c → c.val.state = .delivered ∨ c.val.state = .failed →
      l'.chunks[i]? = some c) ∧
    PrefixShape l.chunks := by
  have hfrozen : ∀ c ∈ (frozenLedger count : Ledger Digest).chunks, c = frozenChunk :=
    fun c hc => List.eq_of_mem_replicate hc
  have htouched : Touched l.chunks := by
    refine h.invariant (P := fun l => Touched l.chunks) ?_ fun hinv hstep =>
      hinv.step (step_cases hstep)
    intro c hc hstate
    rw [hfrozen c hc] at hstate
    exact absurd rfl hstate
  have hordered : Ordered l.chunks := by
    refine h.invariant (P := fun l => Ordered l.chunks) ?_ fun hinv hstep =>
      hinv.step (step_cases hstep)
    refine List.Pairwise.imp_of_mem (R := fun _ _ => True) ?_ (List.pairwise_of_forall fun _ _ => ⟨⟩)
    intro c d _ hd _ hepoch
    rw [hfrozen d hd] at hepoch
    exact absurd hepoch (by simp [frozenChunk])
  have hpaid : Paid events l.chunks := by
    refine h.induction (P := fun events l => Paid events l.chunks) ?_ fun hinv hstep =>
      hinv.step (step_cases hstep)
    intro i
    simp only [List.countP_nil]
    unfold owed
    split
    · split <;> omega
    · omega
  refine ⟨fun i => ?_, fun e l' hstep i => ?_, ?_, prefixShape htouched hordered⟩
  · have := hpaid i
    omega
  · exact (step_cases hstep).permits_in_order htouched hordered
  · exact fun events' l' h' i c => closed_of_history h'

end

/-! A message of two chunks: the first is sent twice, because the provider proved that the first
send never started, and the second worker claims the next one. -/

def noon : Readings where
  now :=
    { year := 2026, month := 9, day := 2, hour := 12, minute := 0, second := 0, microsecond := 0
      validDate := by decide, validTime := Civil.validTime_noon }
  projectionVerified := true
  transportWindowId := none
  newId := 0

def twoSends : List (Call ℕ × Readings) :=
  [ (.claim 1 ['v'] 60, noon)
  , (.complete 0 ['w'] 2 5 1 none, noon)
  , (.beginSend 0 ['w'] 2 4 1, noon)
  , (.claim 0 ['w'] 60, noon)
  , (.release 0 ['w'] 1 2 .providerProvedBeforeSend none, noon)
  , (.beginSend 0 ['w'] 1 1 1, noon)
  , (.claim 0 ['w'] 60, noon) ]

/-- The state after `twoSends`; requests are digested to one number. -/
def afterTwoSends : List (Event ℕ) × Ledger ℕ :=
  runCalls (exec { capabilityBindingDigest := 1, rpcTimeoutSeconds := 10, capabilities := [] }
    fun _ => 0) (frozenLedger 2) twoSends

theorem no_duplicate_message_twoSends :
    afterTwoSends.2.chunks.map (·.val.state) = [.delivered, .claimed] ∧
      afterTwoSends.1.countP (·.permits 0) = 2 ∧ PrefixShape afterTwoSends.2.chunks :=
  ⟨by rfl, by rfl, (no_duplicate_message (history_runCalls _ (frozenLedger 2) twoSends)).2.2.2⟩

end Cortex.Delivery
