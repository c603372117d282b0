import Cortex.RuntimeUpdate.Recovery

/-!
# Rollback

`rollback` exchanges the two pointers and keeps no journal.  After the first of its
two pointer writes both name the last known good release, and no recovery knows of
the other one: `rollback_exchanges` says that this is the only crash point that
loses a pointer.
-/

namespace Cortex.RuntimeUpdate

open Control Procedure

variable {P : Platform} {readings : Readings} {d s : Directory} {pointer old good : Pointer}

/-- The active and the last-known-good pointer. -/
def Directory.pair (d : Directory) : Option Pointer × Option Pointer :=
  (d.active, d.lastKnownGood)

/-- The directory after a rollback. -/
def rolledBack (d : Directory) (pointer : Pointer) : Directory :=
  { d with
    active := some pointer
    lastKnownGood := d.active
    registry := restoredRegistry d.registry pointer d.active }

/-! ## The steps of a rollback -/

/-- What `rollback` does after its recovery. -/
private def rollbackRecovered (P : Platform) (readings : Readings) : M Pointer := do
  let d ← read
  let pointer ← lift (admitRollback P readings d)
  write fun d' => { d' with active := some pointer }
  write fun d' => { d' with lastKnownGood := d.active }
  write fun d' => { d' with registry := restoredRegistry d.registry pointer d.active }
  pure pointer

private theorem rollback_run (P : Platform) (readings : Readings) (d : Directory) :
    rollback P readings d =
      ⟨(recoverActivation d).passed ++ (rollbackRecovered P readings (recovered d)).passed,
        (rollbackRecovered P readings (recovered d)).final,
        (rollbackRecovered P readings (recovered d)).result⟩ :=
  bind_run_ok d (recoverActivation_run d)

private theorem rollback_admitted (hadmitted : admitRollback P readings d = .ok pointer) :
    rollbackRecovered P readings d =
      ⟨[d, { d with active := some pointer },
          { d with active := some pointer, lastKnownGood := d.active }],
        rolledBack d pointer, .ok pointer⟩ := by
  simp only [rollbackRecovered, bind, read_run, lift_run, hadmitted, write_run]
  rfl

private theorem rollback_refused {error : RuntimeUpdateError}
    (hadmitted : admitRollback P readings d = .error error) :
    rollbackRecovered P readings d = ⟨[], d, .error error⟩ := by
  simp only [rollbackRecovered, bind, read_run, lift_run, hadmitted]
  rfl

theorem rollback_returns {result : Pointer} (h : (rollback P readings d).result = .ok result) :
    admitRollback P readings (recovered d) = .ok result ∧
      (rollback P readings d).final = rolledBack (recovered d) result := by
  rw [rollback_run] at h ⊢
  cases hadmitted : admitRollback P readings (recovered d) with
  | error error =>
      rw [rollback_refused hadmitted] at h
      cases h
  | ok pointer =>
      rw [rollback_admitted hadmitted] at h ⊢
      cases h
      exact ⟨rfl, rfl⟩

theorem rollback_final (P : Platform) (readings : Readings) (d : Directory) :
    (rollback P readings d).final = recovered d ∨
      ∃ pointer, admitRollback P readings (recovered d) = .ok pointer ∧
        (rollback P readings d).final = rolledBack (recovered d) pointer := by
  rw [rollback_run]
  cases hadmitted : admitRollback P readings (recovered d) with
  | error error =>
      left
      rw [rollback_refused hadmitted]
  | ok pointer =>
      refine .inr ⟨pointer, rfl, ?_⟩
      rw [rollback_admitted hadmitted]

/-- The state `i` steps after the recovery of a rollback. -/
inductive StoppedRollback (d : Directory) (pointer : Pointer) : ℕ → Directory → Prop
  | before : StoppedRollback d pointer 0 d
  | torn : StoppedRollback d pointer 1 { d with active := some pointer }
  | exchanged : StoppedRollback d pointer 2
      { d with active := some pointer, lastKnownGood := d.active }
  | done (i : ℕ) : StoppedRollback d pointer (i + 3) (rolledBack d pointer)

theorem rollback_stopped (P : Platform) (readings : Readings) (d : Directory) (k : ℕ) :
    (rollback P readings d).crashed k ∈ (recoverActivation d).left ∨
      ∃ pointer i, admitRollback P readings (recovered d) = .ok pointer ∧
        k = recoverySteps d + i ∧
        StoppedRollback (recovered d) pointer i ((rollback P readings d).crashed k) := by
  rw [rollback_run]
  rcases Nat.lt_or_ge k (recoverySteps d) with hk | hk
  · exact .inl (List.mem_append_left _ (Outcome.crashed_before hk))
  obtain ⟨i, rfl⟩ := Nat.exists_eq_add_of_le hk
  rw [show recoverySteps d = (recoverActivation d).passed.length from rfl, Outcome.crashed_append]
  cases hadmitted : admitRollback P readings (recovered d) with
  | error error =>
      rw [rollback_refused hadmitted]
      exact .inl (Outcome.final_mem_left (recoverActivation d))
  | ok pointer =>
      refine .inr ⟨pointer, i, rfl, rfl, ?_⟩
      rw [rollback_admitted hadmitted]
      rcases i with _ | _ | _ | i
      · exact .before
      · exact .torn
      · exact .exchanged
      · exact .done i

theorem rollback_torn (hadmitted : admitRollback P readings (recovered d) = .ok pointer) :
    (rollback P readings d).crashed (recoverySteps d + 1) =
      { recovered d with active := some pointer } := by
  rw [rollback_run, show recoverySteps d = (recoverActivation d).passed.length from rfl,
    Outcome.crashed_append, rollback_admitted hadmitted]
  rfl

theorem admitRollback_pointer (h : admitRollback P readings d = .ok pointer) :
    d.lastKnownGood = some pointer := by
  unfold admitRollback at h
  simp only [Transaction.bind_eq_ok, Transaction.orRaise_eq_ok] at h
  obtain ⟨-, -, pointer', hpointer, -, -, -, -, -, -, h⟩ := h
  split at h
  · cases h
    exact hpointer
  · cases h
  · cases h

/-! ## Exchange and crashes -/

/-- The crash comes after the first pointer write and before the second, and the pointers differ. -/
def TornRollback (P : Platform) (readings : Readings) (d : Directory) (k : ℕ) : Prop :=
  ∃ pointer, admitRollback P readings (recovered d) = .ok pointer ∧
    (recovered d).active ≠ some pointer ∧ k = recoverySteps d + 1

/-- However the recovery after a crash of `rollback` goes, the pointers are those before it or
the exchanged ones. -/
def AtomicRollback (P : Platform) (readings : Readings) (d : Directory) (k : ℕ) : Prop :=
  ∀ d', Interrupted ((rollback P readings d).crashed k) d' →
    (recovered d').pair = (recovered d).pair ∨ (recovered d').pair = (recovered d).pair.swap

private theorem atomicRollback_iff {k : ℕ} :
    AtomicRollback P readings d k ↔
      (recovered ((rollback P readings d).crashed k)).pair = (recovered d).pair ∨
        (recovered ((rollback P readings d).crashed k)).pair = (recovered d).pair.swap := by
  constructor
  · intro h
    exact h _ .start
  · intro h d' hd'
    rwa [recovered_of_interrupted hd']

private theorem recovered_of_stopped {i : ℕ} (h : StoppedRollback (recovered d) pointer i s) :
    recovered s = s := by
  apply recovered_idle
  cases h <;> exact recovered_noJournal d

/-- A rollback that returns exchanges the pointers, a second one restores them, and exactly a
crash between the two pointer writes loses one of them. -/
theorem rollback_exchanges (P : Platform) (readings : Readings) (d : Directory)
    (hactive : (recovered d).active = some old)
    (hgood : (recovered d).lastKnownGood = some good) :
    (∀ result, (rollback P readings d).result = .ok result →
      (rollback P readings d).final.pair = (some good, some old) ∧
        ∀ readings' result',
          (rollback P readings' (rollback P readings d).final).result = .ok result' →
            (rollback P readings' (rollback P readings d).final).final.pair =
              (some old, some good)) ∧
      ∀ k, AtomicRollback P readings d k ↔ ¬ TornRollback P readings d k := by
  refine ⟨?_, ?_⟩
  · intro result hresult
    obtain ⟨hadmitted, hfinal⟩ := rollback_returns hresult
    have hpointer : some result = some good := (admitRollback_pointer hadmitted).symm.trans hgood
    cases hpointer
    have hpair : (rollback P readings d).final.pair = (some good, some old) := by
      rw [hfinal, Directory.pair, rolledBack, hactive]
    refine ⟨hpair, ?_⟩
    intro readings' result' hresult'
    obtain ⟨hadmitted', hfinal'⟩ := rollback_returns hresult'
    have hidle : recovered (rollback P readings d).final = (rollback P readings d).final := by
      apply recovered_idle
      rw [hfinal]
      exact recovered_noJournal d
    have hgood' := admitRollback_pointer hadmitted'
    rw [hidle] at hgood' hfinal'
    obtain ⟨hactive', hlast'⟩ := Prod.ext_iff.1 hpair
    have hback : some result' = some old := hgood'.symm.trans hlast'
    cases hback
    rw [hfinal', Directory.pair, rolledBack]
    exact Prod.ext rfl hactive'
  · intro k
    rw [atomicRollback_iff]
    constructor
    · rintro hatomic ⟨pointer, hadmitted, hne, rfl⟩
      have hpointer : some pointer = some good := (admitRollback_pointer hadmitted).symm.trans hgood
      cases hpointer
      -- Both pointers name the last known good release now.
      have htorn : recovered { recovered d with active := some good } =
          { recovered d with active := some good } :=
        recovered_idle (recovered_noJournal d)
      rw [rollback_torn hadmitted, htorn] at hatomic
      simp only [Directory.pair, hactive, hgood, Prod.swap_prod_mk, Prod.mk.injEq] at hatomic
      rcases hatomic with ⟨heq, -⟩ | ⟨-, heq⟩
      · exact hne (hactive.trans heq.symm)
      · exact hne (hactive.trans heq.symm)
    · intro hwhole
      rcases rollback_stopped P readings d k with hleft | ⟨pointer, i, hadmitted, rfl, hstopped⟩
      · left
        rw [recovered_of_left hleft]
      · have hpointer : some pointer = some good := (admitRollback_pointer hadmitted).symm.trans hgood
        cases hpointer
        rw [recovered_of_stopped hstopped]
        generalize hs : (rollback P readings d).crashed (recoverySteps d + i) = s at hstopped ⊢
        cases hstopped with
        | before => exact .inl rfl
        | torn =>
            -- The pointers are equal, so nothing is lost.
            have heq : (recovered d).active = some good :=
              by_contra fun hne => hwhole ⟨good, hadmitted, hne, rfl⟩
            left
            rw [Directory.pair, Directory.pair, heq]
        | exchanged =>
            right
            simp only [Directory.pair, hgood, Prod.swap_prod_mk]
        | done i =>
            right
            simp only [Directory.pair, rolledBack, hgood, Prod.swap_prod_mk]

/-! ## A rollback that forgets -/

/-- Digests that name what they are digests of. -/
def plainPlatform : Platform where
  manifestDigest m := m.releaseId ++ '/' :: m.artifactSha256
  catalogDigest catalog := (catalog.entries.map CatalogEntry.manifestSha256).flatten
  contentTree artifact := artifact

def plainManifest (releaseId artifact : String) (sequence : ℕ) : Manifest where
  releaseId := releaseId.toList
  releaseSequence := sequence
  artifactSha256 := artifact.toList
  upstreamRepository := []
  upstreamTag := []
  upstreamCommit := []
  publisher := []
  workflow := []
  adapterProtocol := []
  patchSetSha256 := []
  runtimeArchive := []
  rest := []

/-- The import of a manifest, certified by the catalog of its own sequence number. -/
def plainImport (m : Manifest) : ReleaseImport where
  catalog :=
    { sequence := m.releaseSequence
      entries := [⟨m.releaseId, plainPlatform.manifestDigest m, .certified⟩] }
  manifest := m
  attestation := ⟨m.artifactSha256, [], [], [], [], []⟩
  ledger := ⟨m.releaseId, [], []⟩
  artifactSha256 := m.artifactSha256

/-- Every check passes and every probe is healthy. -/
def willing : Readings where
  catalogVerified := true
  attestationVerified := true
  supported _ := true
  extracted := true
  moduleRefusal _ := none
  approvalRefusal _ _ := none
  newGeneration := ['g']
  stateCopied := true
  interpreterVerified := true
  interpreterContained := true
  archivePresent := true
  interpreterExpanded := true
  interpreterMeasured := true
  probe _ := .healthy

/-- Import, stage and activate one release. -/
def install (m : Manifest) : List Event :=
  [⟨.activate m.releaseId, willing, none⟩, ⟨.stage m.releaseId, willing, none⟩,
    ⟨.importRelease (plainImport m), willing, none⟩]

/-- Two releases are installed, one after the other. -/
def twoInstalled : List Event :=
  install (plainManifest "b" "2" 2) ++ install (plainManifest "a" "1" 1)

def firstPointer : Pointer := ⟨['a'], 1, ['1'], ['g']⟩

def secondPointer : Pointer := ⟨['b'], 2, ['2'], ['g']⟩

private theorem pair_twoInstalled :
    (recovered (run plainPlatform .initial twoInstalled)).pair =
      (some secondPointer, some firstPointer) := by
  decide

private theorem pair_torn :
    (recovered ((rollback plainPlatform willing
      (run plainPlatform .initial twoInstalled)).crashed 1)).pair =
        (some firstPointer, some firstPointer) := by
  decide

/-- A crash after the first pointer write leaves both pointers at the first release, and the
second release is forgotten. -/
theorem rollback_forgets :
    History (Step plainPlatform) .initial twoInstalled (run plainPlatform .initial twoInstalled) ∧
      (run plainPlatform .initial twoInstalled).pair = (some secondPointer, some firstPointer) ∧
      (run plainPlatform .initial twoInstalled).attempts.values = [] ∧
      (recovered ((rollback plainPlatform willing
        (run plainPlatform .initial twoInstalled)).crashed 1)).pair =
          (some firstPointer, some firstPointer) ∧
      ¬ AtomicRollback plainPlatform willing (run plainPlatform .initial twoInstalled) 1 := by
  refine ⟨history_run _ _ _, by decide, by decide, pair_torn, ?_⟩
  intro hatomic
  have hkept := hatomic _ .start
  rw [pair_torn, pair_twoInstalled] at hkept
  revert hkept
  decide

theorem rollback_exchanges_twoInstalled :
    (∀ result, (rollback plainPlatform willing
        (run plainPlatform .initial twoInstalled)).result = .ok result →
      (rollback plainPlatform willing (run plainPlatform .initial twoInstalled)).final.pair =
          (some firstPointer, some secondPointer) ∧
        ∀ readings' result',
          (rollback plainPlatform readings' (rollback plainPlatform willing
            (run plainPlatform .initial twoInstalled)).final).result = .ok result' →
            (rollback plainPlatform readings' (rollback plainPlatform willing
              (run plainPlatform .initial twoInstalled)).final).final.pair =
                (some secondPointer, some firstPointer)) ∧
      ∀ k, AtomicRollback plainPlatform willing (run plainPlatform .initial twoInstalled) k ↔
        ¬ TornRollback plainPlatform willing (run plainPlatform .initial twoInstalled) k :=
  rollback_exchanges plainPlatform willing _ (Prod.ext_iff.1 pair_twoInstalled).1
    (Prod.ext_iff.1 pair_twoInstalled).2

end Cortex.RuntimeUpdate
