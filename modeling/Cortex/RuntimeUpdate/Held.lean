import Cortex.RuntimeUpdate.Activation
import Cortex.RuntimeUpdate.Rollback

/-!
# Slots and generations that are held

A pointer and a pin carry a release id, a slot digest and a generation.  They are
`Held` when the slot, the generation and the interpreter are there and the
registry's record of the release is still the one that the slot's metadata bears
out.  `Kept` says so of both pointers and of every pin, and what the registry and
the slots have to be for that to stay so.
-/

namespace Cortex.RuntimeUpdate

open Control Procedure

/-- A pointer or a pin names this release, slot and generation. -/
inductive Named (d : Directory) : ReleaseId → Digest → GenerationId → Prop
  | active {p : Pointer} (h : d.active = some p) : Named d p.releaseId p.slotDigest p.generationId
  | lastKnownGood {p : Pointer} (h : d.lastKnownGood = some p) :
      Named d p.releaseId p.slotDigest p.generationId
  | attempt {attemptId : Text} {pin : AttemptPin} (h : d.attempts.get? attemptId = some pin) :
      Named d pin.releaseId pin.slotDigest pin.generationId

/-- The record has not been replaced by that of another manifest. -/
structure SameRelease (record record' : Record) : Prop where
  slotDigest : record'.slotDigest = record.slotDigest
  manifestDigest : record'.manifestDigest = record.manifestDigest
  contentTreeDigest : record'.contentTreeDigest = record.contentTreeDigest

/-- The slot, the record, the interpreter and the generation are there and fit together. -/
structure Held (P : Platform) (d : Directory) (releaseId : ReleaseId) (slotDigest : Digest)
    (generation : GenerationId) : Prop where
  release : ∃ slot record, d.slots.get? slotDigest = some slot ∧
    d.registry.get? releaseId = some record ∧ record.slotDigest = slotDigest ∧
    slot.metadata P = ⟨slotDigest, record.manifestDigest, record.contentTreeDigest⟩ ∧
    slot.manifest.releaseId = releaseId ∧
    slot.manifest.runtimeArchive ∈ d.interpreterPins ∧
    slot.manifest.runtimeArchive ∈ d.interpreters
  generation : (releaseId, generation) ∈ d.generations

/-- What holds between commands, when `imported` are the manifests that were imported. -/
structure Kept (P : Platform) (imported : Manifest → Prop) (d : Directory) : Prop where
  journal : d.journal = none
  held : ∀ {releaseId slotDigest generation}, Named d releaseId slotDigest generation →
    Held P d releaseId slotDigest generation
  records : ∀ {releaseId record}, d.registry.get? releaseId = some record →
    ∃ m, imported m ∧ m.releaseId = releaseId ∧ m.artifactSha256 = record.slotDigest ∧
      P.manifestDigest m = record.manifestDigest
  slots : ∀ {slotDigest slot}, d.slots.get? slotDigest = some slot → imported slot.manifest
  generations : ∀ {releaseId record generation}, d.registry.get? releaseId = some record →
    record.candidateGeneration = some generation → (releaseId, generation) ∈ d.generations

variable {P : Platform} {imported : Manifest → Prop} {readings : Readings} {d d' : Directory}
  {releaseId : ReleaseId} {slotDigest : Digest} {generation : GenerationId}
  {candidate pointer : Pointer}

theorem kept_initial : Kept P imported .initial where
  journal := rfl
  held := by
    rintro _ _ _ (h | h | h)
    · cases h
    · cases h
    · cases h
  records h := by cases h
  slots h := by cases h
  generations h := by cases h

theorem Named.of_same (h : Named d' releaseId slotDigest generation)
    (hactive : d'.active = d.active) (hgood : d'.lastKnownGood = d.lastKnownGood)
    (hattempts : d'.attempts = d.attempts) : Named d releaseId slotDigest generation := by
  cases h with
  | active h => exact .active (hactive.symm.trans h)
  | lastKnownGood h => exact .lastKnownGood (hgood.symm.trans h)
  | attempt h => exact .attempt (hattempts ▸ h)

/-- What a held release depends on. -/
theorem Held.frame (h : Held P d releaseId slotDigest generation)
    (hslot : ∀ {slot}, d.slots.get? slotDigest = some slot → d'.slots.get? slotDigest = some slot)
    (hrecord : ∀ {record}, d.registry.get? releaseId = some record →
      ∃ record', d'.registry.get? releaseId = some record' ∧ SameRelease record record')
    (hgeneration : (releaseId, generation) ∈ d'.generations)
    (harchive : ∀ {slot}, d.slots.get? slotDigest = some slot →
      slot.manifest.runtimeArchive ∈ d.interpreterPins →
      slot.manifest.runtimeArchive ∈ d.interpreters →
        slot.manifest.runtimeArchive ∈ d'.interpreterPins ∧
          slot.manifest.runtimeArchive ∈ d'.interpreters) :
    Held P d' releaseId slotDigest generation := by
  obtain ⟨⟨slot, record, hget, hget', hdigest, hmetadata, hid, hpin, hroot⟩, -⟩ := h
  obtain ⟨record', hnew, hsame⟩ := hrecord hget'
  refine ⟨⟨slot, record', hslot hget, hnew, hsame.slotDigest.trans hdigest, ?_, hid,
    harchive hget hpin hroot⟩, hgeneration⟩
  rw [hmetadata, hsame.manifestDigest, hsame.contentTreeDigest]

/-- A status mark replaces no record. -/
theorem mark_same {registry : Registry} {releaseId' : ReleaseId} {status : Status}
    {record : Record} (h : registry.get? releaseId = some record) :
    ∃ record', (registry.mark releaseId' status).get? releaseId = some record' ∧
      SameRelease record record' ∧ record'.candidateGeneration = record.candidateGeneration := by
  rw [Registry.get?_mark]
  by_cases heq : releaseId = releaseId'
  · subst heq
    rw [if_pos rfl, h, Option.map_some]
    exact ⟨_, rfl, ⟨rfl, rfl, rfl⟩, rfl⟩
  · rw [if_neg heq]
    exact ⟨record, h, ⟨rfl, rfl, rfl⟩, rfl⟩

/-- Every record after a mark was there before it. -/
theorem of_mark_same {registry : Registry} {releaseId' : ReleaseId} {status : Status}
    {record' : Record} (h : (registry.mark releaseId' status).get? releaseId = some record') :
    ∃ record, registry.get? releaseId = some record ∧ SameRelease record record' ∧
      record'.candidateGeneration = record.candidateGeneration := by
  rw [Registry.get?_mark] at h
  by_cases heq : releaseId = releaseId'
  · subst heq
    rw [if_pos rfl, Option.map_eq_some_iff] at h
    obtain ⟨record, hrecord, rfl⟩ := h
    exact ⟨record, hrecord, ⟨rfl, rfl, rfl⟩, rfl⟩
  · rw [if_neg heq] at h
    exact ⟨record', h, ⟨rfl, rfl, rfl⟩, rfl⟩

/-- Marks and pointers that name held releases keep the directory in order. -/
theorem Kept.mark (h : Kept P imported d) (releaseId' : ReleaseId) (status : Status) :
    Kept P imported { d with registry := d.registry.mark releaseId' status } where
  journal := h.journal
  held := by
    intro releaseId slotDigest generation hnamed
    have hheld := h.held (hnamed.of_same rfl rfl rfl)
    refine hheld.frame (fun hslot => hslot) ?_ hheld.generation fun _ hpin hroot => ⟨hpin, hroot⟩
    intro record hrecord
    obtain ⟨record', hrecord', hsame, -⟩ := mark_same hrecord
    exact ⟨record', hrecord', hsame⟩
  records := by
    intro releaseId record' hrecord'
    obtain ⟨record, hrecord, hsame, -⟩ := of_mark_same hrecord'
    obtain ⟨m, hm, hid, hartifact, hdigest⟩ := h.records hrecord
    exact ⟨m, hm, hid, hartifact.trans hsame.slotDigest.symm,
      hdigest.trans hsame.manifestDigest.symm⟩
  slots := h.slots
  generations := by
    intro releaseId record' generation hrecord' hgeneration
    obtain ⟨record, hrecord, -, hsame⟩ := of_mark_same hrecord'
    exact h.generations hrecord (hsame.symm.trans hgeneration)

/-- Pointers that name held releases may be written. -/
theorem Kept.setPointers (h : Kept P imported d) (active good : Option Pointer)
    (hactive : ∀ p, active = some p → Held P d p.releaseId p.slotDigest p.generationId)
    (hgood : ∀ p, good = some p → Held P d p.releaseId p.slotDigest p.generationId) :
    Kept P imported { d with active, lastKnownGood := good } where
  journal := h.journal
  held := by
    intro releaseId slotDigest generation hnamed
    have hheld : Held P d releaseId slotDigest generation := by
      cases hnamed with
      | active h => exact hactive _ h
      | lastKnownGood h => exact hgood _ h
      | attempt hpin => exact h.held (.attempt hpin)
    exact hheld.frame (fun hslot => hslot) (fun hrecord => ⟨_, hrecord, rfl, rfl, rfl⟩)
      hheld.generation fun _ hpin hroot => ⟨hpin, hroot⟩
  records := h.records
  slots := h.slots
  generations := h.generations

/-! ## Candidates -/

/-- What `_verify_candidate` has checked, with the interpreter. -/
theorem verifyCandidate_eq_ok {registry : Registry} {m : Manifest}
    (h : verifyCandidate P d readings candidate registry true = .ok m) :
    ∃ slot record, d.slots.get? candidate.slotDigest = some slot ∧
      registry.get? candidate.releaseId = some record ∧
      slot.metadata P =
        ⟨candidate.slotDigest, record.manifestDigest, record.contentTreeDigest⟩ ∧
      slot.manifest.runtimeArchive ∈ d.interpreterPins ∧
      slot.manifest.runtimeArchive ∈ d.interpreters := by
  simp only [verifyCandidate, Transaction.bind_eq_ok, Transaction.orRaise_eq_ok,
    Transaction.require_eq_ok] at h
  obtain ⟨record, hrecord, slot, hslot, -, hmetadata, -, -, -, -, h⟩ := h
  split at h
  · cases h
  · simp only [if_true, verifyInterpreterRoot, Transaction.bind_eq_ok,
      Transaction.require_eq_ok] at h
    obtain ⟨-, ⟨-, harchive, -⟩, -⟩ := h
    exact ⟨slot, record, hslot, hrecord, hmetadata, harchive⟩

/-- An admitted candidate is held: no two imported manifests have one digest. -/
theorem Kept.held_candidate (h : Kept P imported d)
    (hdigest : ∀ m m', imported m → imported m' → P.manifestDigest m = P.manifestDigest m' → m = m')
    {m : Manifest} (hcandidate : candidateOf d.registry releaseId = .ok candidate)
    (hverify : verifyCandidate P d readings candidate d.registry true = .ok m) :
    Held P d candidate.releaseId candidate.slotDigest candidate.generationId := by
  simp only [candidateOf, Transaction.bind_eq_ok, Transaction.orRaise_eq_ok,
    Transaction.pure_eq_ok] at hcandidate
  obtain ⟨record, hrecord, generation, hgeneration, rfl⟩ := hcandidate
  obtain ⟨slot, record', hslot, hrecord', hmetadata, hpin, hroot⟩ := verifyCandidate_eq_ok hverify
  cases hrecord.symm.trans hrecord'
  refine ⟨⟨slot, record, hslot, hrecord, rfl, hmetadata, ?_, hpin, hroot⟩,
    h.generations hrecord hgeneration⟩
  obtain ⟨m', hm', hid, -, hmanifest⟩ := h.records hrecord
  have hsame : P.manifestDigest slot.manifest = P.manifestDigest m' :=
    (congrArg SlotMetadata.manifestSha256 hmetadata).trans hmanifest.symm
  rw [hdigest _ _ (h.slots hslot) hm' hsame]
  exact hid

/-! ## Activation and rollback -/

theorem Kept.recovered_eq (h : Kept P imported d) : recovered d = d :=
  recovered_idle h.journal

theorem Kept.activate (h : Kept P imported d)
    (hdigest : ∀ m m', imported m → imported m' → P.manifestDigest m = P.manifestDigest m' → m = m')
    (readings : Readings) (releaseId : ReleaseId) :
    Kept P imported (activate P readings releaseId d).final := by
  rcases activate_final P readings releaseId d with hfinal | ⟨candidate, hadmitted, hfinal | hfinal⟩
  · rw [hfinal, h.recovered_eq]
    exact h
  · rw [hfinal, h.recovered_eq]
    have hmark := h.mark candidate.releaseId .quarantined
    rwa [show aborted d candidate =
      { d with registry := d.registry.mark candidate.releaseId .quarantined } by
        rw [aborted, h.journal]]
  · rw [h.recovered_eq] at hfinal hadmitted
    rw [hfinal]
    simp only [admitActivation, Transaction.bind_eq_ok] at hadmitted
    obtain ⟨-, -, -, -, candidate', hcandidate, m, hverify, -, -, hadmitted⟩ := hadmitted
    have hheld := h.held_candidate hdigest hcandidate hverify
    have hsame : candidate' = candidate := by
      split at hadmitted
      · cases hadmitted
        rfl
      · split at hadmitted
        · cases hadmitted
        · simp only [Transaction.bind_eq_ok] at hadmitted
          obtain ⟨-, -, hadmitted⟩ := hadmitted
          cases hadmitted
          rfl
    rw [hsame] at hheld
    have hpointers := h.setPointers (some candidate) (completed d candidate).lastKnownGood ?_ ?_
    · cases hactive : d.active with
      | none =>
          have hmark := hpointers.mark candidate.releaseId .active
          rw [completed] at hmark ⊢
          simpa only [hactive, activatedRegistry, h.journal] using hmark
      | some old =>
          have hmark :=
            (hpointers.mark old.releaseId .lastKnownGood).mark candidate.releaseId .active
          rw [completed] at hmark ⊢
          simpa only [hactive, activatedRegistry, h.journal] using hmark
    · rintro p ⟨⟩
      exact hheld
    · intro p hp
      cases hactive : d.active with
      | none =>
          rw [completed, hactive] at hp
          exact h.held (.lastKnownGood hp)
      | some old =>
          rw [completed, hactive] at hp
          cases hp
          exact h.held (.active hactive)

theorem Kept.rollback (h : Kept P imported d) (readings : Readings) :
    Kept P imported (rollback P readings d).final := by
  rcases rollback_final P readings d with hfinal | ⟨pointer, hadmitted, hfinal⟩
  · rw [hfinal, h.recovered_eq]
    exact h
  · rw [h.recovered_eq] at hfinal hadmitted
    rw [hfinal]
    have hgood := admitRollback_pointer hadmitted
    have hpointers := h.setPointers (some pointer) d.active
      (by rintro p ⟨⟩; exact h.held (.lastKnownGood hgood))
      fun p hp => h.held (.active hp)
    cases hactive : d.active with
    | none =>
        have hmark := hpointers.mark pointer.releaseId .active
        rw [rolledBack]
        simpa only [hactive, restoredRegistry] using hmark
    | some current =>
        have hmark :=
          (hpointers.mark pointer.releaseId .active).mark current.releaseId .lastKnownGood
        rw [rolledBack]
        simpa only [hactive, restoredRegistry] using hmark

end Cortex.RuntimeUpdate
