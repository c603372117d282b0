import Cortex.Materializer.Phases

/-!
# Restarting a materialization

A call finishes from every legal disk, whatever crashes led to it, except where a
pending file is torn, which holds only a part of its bytes.  The code compares such
a file with what it should hold, and refuses it as it would refuse the file of
somebody else; it is never taken away, so that every later call is refused too.

`materialize_spec` follows one call through its files; the crash condition of the
triple is that the disk it leaves is legal, and so the next call starts from one.
-/

namespace Cortex.Materializer

open Control Transaction Procedure

/-- What the files of a request should hold. -/
def expected (platform : Platform) (request : Request) (content : List Bytes) : Part → Bytes
  | .artifact => content.flatten
  | part => platform.manifest request part

/-- The content of a request. -/
structure Matches (platform : Platform) (request : Request) (content : List Bytes) : Prop where
  length : content.flatten.length = request.byteLength
  hash : platform.sha256 content.flatten = request.sha256

/-- A disk that a crash may leave. -/
def IsLegal (value : Part → Bytes) (d : Disk) : Prop :=
  ∃ a, Legal value a ∧ Shows value a d

section Order

variable {value : Part → Bytes} {a : Part → Phase}

theorem Legal.publish_absent (h : Legal value a) (hartifact : a .artifact = .absent) :
    a .publish = .absent := by
  by_contra hpublish
  have hwhole := h.publish hpublish
  rw [hartifact] at hwhole
  exact hwhole

/-- While the manifest of the operation is open nothing else is there. -/
theorem Legal.operation (h : Legal value a) (hopen : a .operation ≠ .settled) (phase : Phase) :
    Legal value (Function.update a .operation phase) := by
  have htarget : a .target = .absent := by
    by_contra htarget
    exact hopen (h.target htarget)
  have hartifact : a .artifact = .absent := by
    by_contra hartifact
    have hsettled := h.artifact hartifact
    rw [htarget] at hsettled
    cases hsettled
  have hpublish := h.publish_absent hartifact
  constructor <;> simp [htarget, hartifact, hpublish]

theorem Legal.operation_settled (h : Legal value a) :
    Legal value (Function.update a .operation .settled) := by
  by_cases hsettled : a .operation = .settled
  · rw [← hsettled, Function.update_eq_self]
    exact h
  · exact h.operation hsettled _

/-- While the manifest of the target is open the artifact is not there. -/
theorem Legal.targets (h : Legal value a) (hoperation : a .operation = .settled)
    (hopen : a .target ≠ .settled) (phase : Phase) :
    Legal value (Function.update a .target phase) := by
  have hartifact : a .artifact = .absent := by
    by_contra hartifact
    exact hopen (h.artifact hartifact)
  have hpublish := h.publish_absent hartifact
  constructor <;> simp [hoperation, hartifact, hpublish]

theorem Legal.target_settled (h : Legal value a) (hoperation : a .operation = .settled) :
    Legal value (Function.update a .target .settled) := by
  by_cases hsettled : a .target = .settled
  · rw [← hsettled, Function.update_eq_self]
    exact h
  · exact h.targets hoperation hsettled _

/-- The artifact is staged before its publish intent. -/
theorem Legal.staging (h : Legal value a) (htarget : a .target = .settled)
    (hartifact : a .artifact = .absent) (count : ℕ) :
    Legal value (Function.update a .artifact (.written count)) := by
  have hpublish := h.publish_absent hartifact
  constructor
  · simpa [Function.update_apply] using h.target
  all_goals simp [htarget, hpublish]

/-- The artifact is staged whole. -/
theorem Legal.staged (h : Legal value a) (htarget : a .target = .settled) :
    Legal value (Function.update a .artifact (.written (value .artifact).length)) := by
  constructor
  · simpa [Function.update_apply] using h.target
  · simp [htarget]
  · simp [Phase.IsWhole]
  · simp

/-- The publish intent of an artifact that is staged whole. -/
theorem Legal.publishing (h : Legal value a)
    (hartifact : a .artifact = .written (value .artifact).length) (phase : Phase) :
    Legal value (Function.update a .publish phase) := by
  constructor
  · simpa [Function.update_apply] using h.target
  · simpa [Function.update_apply] using h.artifact
  · simp [hartifact, Phase.IsWhole]
  · simp [hartifact]

/-- The artifact is published once its intent is. -/
theorem Legal.publishes (h : Legal value a) (htarget : a .target = .settled)
    (hpublish : a .publish = .settled) {phase : Phase} (hphase : phase = .linked ∨ phase = .settled) :
    Legal value (Function.update a .artifact phase) := by
  constructor
  · simpa [Function.update_apply] using h.target
  · simp [htarget]
  · rcases hphase with rfl | rfl <;> simp [Phase.IsWhole]
  · simp [hpublish]

end Order

/-! ## The artifact -/

section Artifact

variable {platform : Platform} {request : Request} {content : List Bytes} {a : Part → Phase}
  {C : Disk → Prop} {E : Disk → Prop} {operationExisted targetExisted : Bool}

/-- A file of the content passes the check of length and hash. -/
theorem verifyContent_spec {P : Disk → Prop} {name : Name} {single : Bool} {v : Bytes}
    (hlength : v.length = request.byteLength) (hhash : platform.sha256 v = request.sha256)
    (hread : ∀ d, P d → d.readRegular name request.byteLength single = .ok v)
    (hC : ∀ d, P d → C d) :
    Guarded P (verifyContent platform request name single) C (fun _ => P) E :=
  .bind (Q := fun w d => P d ∧ w = v)
    (readRegular_spec (v := v) hread fun d hd => ⟨hC d hd, hd, rfl⟩) fun w =>
    .assuming fun hw => by
      subst hw
      exact .bind (Q := fun _ => P) (met hlength fun d hd => ⟨hC d hd, hd⟩) fun _ =>
        met hhash fun d hd => ⟨hC d hd, hd⟩

/-- A file with another length does not pass it. -/
theorem verifyContent_refused {P : Disk → Prop} {name : Name} {single : Bool} {v : Bytes}
    {Q : Unit → Disk → Prop} (hlength : v.length ≠ request.byteLength)
    (hread : ∀ d, P d → d.readRegular name request.byteLength single = .ok v)
    (hC : ∀ d, P d → C d ∧ E d) :
    Guarded P (verifyContent platform request name single) C Q E :=
  .bind (Q := fun w d => P d ∧ w = v)
    (readRegular_spec (v := v) hread fun d hd => ⟨(hC d hd).1, hd, rfl⟩) fun w =>
    .assuming fun hw => by
      subst hw
      exact .bind (Q := fun _ _ => False) (unmet hlength hC) fun _ s hs => False.elim hs

/-- `_require_manifest` of a manifest that is settled. -/
theorem requireManifest_spec {value : Part → Bytes} {part : Part} (hC : ∀ d, Shows value a d → C d)
    (hsettled : a part = .settled) (hlimit : (value part).length ≤ manifestLimit) :
    Guarded (Shows value a) (requireManifest part (value part)) C (fun _ => Shows value a) E := by
  have hpart : ∀ d, Shows value a d → PartShows d part (value part) .settled := by
    intro d hd
    rw [← hsettled]
    exact hd.part part
  refine .reading fun d hd => pinned hd (.bind (Q := fun _ => Shows value a)
    (met ((hpart d hd).exists_final.2 (.inr rfl)) fun s hs => ⟨hC s hs, hs⟩) fun _ => ?_)
  refine .bind (Q := fun w d => Shows value a d ∧ w = value part)
    (readRegular_spec (v := value part) (fun s hs => (hpart s hs).read_settled hlimit)
      fun s hs => ⟨hC s hs, hs, rfl⟩) fun w => .assuming fun hw => ?_
  exact met hw fun s hs => ⟨hC s hs, hs⟩

/-- `_verify_dual_link` of an artifact that is linked. -/
theorem verifyDualLink_spec (hmatches : Matches platform request content)
    (hC : ∀ d, Shows (expected platform request content) a d → C d)
    (hlinked : a .artifact = .linked) :
    Guarded (Shows (expected platform request content) a) (verifyDualLink platform request) C
      (fun _ => Shows (expected platform request content) a) E := by
  have hpart : ∀ d, Shows (expected platform request content) a d →
      PartShows d .artifact content.flatten .linked := by
    intro d hd
    rw [← hlinked]
    exact hd.part .artifact
  have hlimit := Nat.le_of_eq hmatches.length
  refine .reading fun d hd => ?_
  obtain ⟨serial, hpending, hfinal, -, hlinks⟩ := hpart d hd
  refine pinned hd (.bind (Q := fun i d => Shows (expected platform request content) a d ∧
    i = ⟨.pending .artifact, serial⟩) (.lifted (orRaise_eq_ok.2 hpending)
      fun s hs => ⟨hC s hs, hs, rfl⟩) fun i => .assuming fun hi => ?_)
  refine .bind (Q := fun j d => Shows (expected platform request content) a d ∧
    j = ⟨.pending .artifact, serial⟩) (.lifted (orRaise_eq_ok.2 hfinal)
      fun s hs => ⟨hC s hs, hs, rfl⟩) fun j => .assuming fun hj => ?_
  subst hi hj
  refine .bind (Q := fun _ => Shows (expected platform request content) a)
    (met ⟨rfl, hlinks, hlinks⟩ fun s hs => ⟨hC s hs, hs⟩) fun _ => .bind
    (verifyContent_spec hmatches.length hmatches.hash
      (fun s hs => ((hpart s hs).read_linked hlimit).2) hC) fun _ =>
    verifyContent_spec hmatches.length hmatches.hash
      (fun s hs => ((hpart s hs).read_linked hlimit).1) hC

/-- The chunks of the content are written one after the other. -/
theorem writeChunks_spec {inode : Inode} {maxBytes : ℕ} (hmatches : Matches platform request content)
    (hmax : request.byteLength ≤ maxBytes)
    (hwrites : ∀ count d, Shows (expected platform request content)
      (Function.update a .artifact (.written count)) d → C d)
    (hcreated : inode.createdAs = .pending .artifact) (chunks : List Bytes) (done : Bytes)
    (hcontent : content.flatten = done ++ chunks.flatten) :
    Guarded
      (fun d => Shows (expected platform request content)
        (Function.update a .artifact (.written done.length)) d ∧
        d.entry (.pending .artifact) = some inode)
      (writeChunks request inode maxBytes done.length chunks) C
      (fun _ => Shows (expected platform request content)
        (Function.update a .artifact (.written content.flatten.length))) E := by
  have hlength := hmatches.length
  induction chunks generalizing done with
  | nil =>
      rw [List.flatten_nil, List.append_nil] at hcontent
      rw [hcontent] at hlength ⊢
      exact met hlength fun d hd => ⟨hwrites _ d hd.1, hd.1⟩
  | cons chunk chunks ih =>
      rw [List.flatten_cons, ← List.append_assoc] at hcontent
      have hnext := ih (done ++ chunk) hcontent
      rw [List.length_append] at hnext
      have hfits : done.length + chunk.length ≤ request.byteLength := by
        rw [← hlength, hcontent, List.length_append, List.length_append]
        omega
      refine .bind (Q := fun _ d => Shows (expected platform request content)
        (Function.update a .artifact (.written done.length)) d ∧
        d.entry (.pending .artifact) = some inode)
        (met ⟨Nat.le_trans hfits hmax, hfits⟩ fun d hd => ⟨hwrites _ d hd.1, hd⟩) fun _ => .bind
        (writeAll_spec hwrites hcreated chunk done chunks.flatten hcontent) fun _ => ?_
      rw [List.length_append]
      exact hnext

/-- `_write_stage` of the content of a request. -/
theorem writeStage_spec {maxBytes : ℕ} (hmatches : Matches platform request content)
    (hmax : request.byteLength ≤ maxBytes)
    (hC : ∀ d, Shows (expected platform request content) a d → C d)
    (hwrites : ∀ count d, Shows (expected platform request content)
      (Function.update a .artifact (.written count)) d → C d)
    (habsent : a .artifact = .absent) :
    Guarded (Shows (expected platform request content) a)
      (writeStage platform request content maxBytes) C
      (fun _ => Shows (expected platform request content)
        (Function.update a .artifact (.written content.flatten.length))) E := by
  refine .bind (create_spec hC (hwrites 0) habsent) fun inode => .rescue (J := fun _ => False) ?_
    fun _ s hs => False.elim hs
  refine .conseq (P := fun d => (Shows (expected platform request content)
    (Function.update a .artifact (.written 0)) d ∧ d.entry (.pending .artifact) = some inode) ∧
    inode.createdAs = .pending .artifact) (.assuming fun hcreated => ?_)
    (fun s hs => ⟨⟨hs.1, hs.2.1⟩, hs.2.2⟩) (fun _ _ hs => hs) fun _ hs => hs
  refine .bind (writeChunks_spec hmatches hmax hwrites hcreated content [] rfl) fun _ => ?_
  exact met hmatches.hash fun d hd => ⟨hwrites _ d hd, hd⟩

/-- The artifact is staged, unless what is staged is torn. -/
theorem stageArtifact_spec {maxBytes : ℕ} (hmatches : Matches platform request content)
    (hmax : request.byteLength ≤ maxBytes)
    (hC : ∀ d, Shows (expected platform request content) a d → C d)
    (hstaged : ∀ d, Shows (expected platform request content)
      (Function.update a .artifact (.written content.flatten.length)) d → C d)
    (hwrites : a .artifact = .absent → ∀ count d, Shows (expected platform request content)
      (Function.update a .artifact (.written count)) d → C d)
    (hphase : a .artifact = .absent ∨ ∃ count, a .artifact = .written count)
    (hexisted : operationExisted = true ∧ targetExisted = true ∨ a .artifact = .absent) :
    Guarded (Shows (expected platform request content) a)
      (stageArtifact platform request (some content) maxBytes operationExisted targetExisted) C
      (fun _ d => Shows (expected platform request content)
        (Function.update a .artifact (.written content.flatten.length)) d ∧
        ¬(a .artifact).IsTorn content.flatten) (fun _ => (a .artifact).IsTorn content.flatten) := by
  have hlimit := Nat.le_of_eq hmatches.length
  refine .reading fun d hd => ?_
  have hpart := hd.part .artifact
  rcases hphase with habsent | ⟨count, hwritten⟩
  · have hmissing : ¬d.exists (.pending .artifact) = true := by
      rw [hpart.exists_pending, habsent]
      simp
    have hwhole : ¬(a .artifact).IsTorn content.flatten := by
      rw [habsent]
      exact id
    rw [if_neg hmissing]
    refine pinned hd (.bind (Q := fun c d => Shows (expected platform request content) a d ∧
      c = content) (.lifted rfl fun s hs => ⟨hC s hs, hs, rfl⟩) fun c => .assuming fun hc => ?_)
    subst hc
    refine .bind (writeStage_spec hmatches hmax hC (hwrites habsent) habsent) fun _ => .bind
      (verifyContent_spec hmatches.length hmatches.hash (fun s hs => ?_) hstaged) fun _ =>
      .pure fun s hs => ⟨hstaged s hs, hs, hwhole⟩
    have hread := hs.part .artifact
    rw [Function.update_self] at hread
    rw [hread.read_written hlimit]
    exact congrArg _ List.take_length
  · rw [hwritten] at hpart hexisted ⊢
    rw [if_pos (hpart.exists_pending.2 (.inr ⟨count, rfl⟩))]
    have hboth := hexisted.resolve_right (by simp)
    refine .bind (Q := fun _ s => s = d) (met hboth ?_) fun _ => ?_
    · rintro s rfl
      exact ⟨hC s hd, rfl⟩
    have hread : ∀ s, s = d → s.readRegular (.pending .artifact) request.byteLength true =
        .ok (content.flatten.take count) := by
      rintro s rfl
      exact hpart.read_written hlimit
    by_cases hwhole : content.flatten.length ≤ count
    · have htake : content.flatten.take count = content.flatten := List.take_of_length_le hwhole
      rw [htake] at hread
      refine .bind (verifyContent_spec hmatches.length hmatches.hash hread ?_) fun _ => .pure ?_
      · rintro s rfl
        exact hC s hd
      · rintro s rfl
        refine ⟨hC s hd, hd.moves ⟨fun _ _ _ => rfl, fun _ _ => rfl, fun _ _ => rfl⟩ ?_,
          Nat.not_lt.2 hwhole⟩
        change PartShows s .artifact content.flatten (.written count) at hpart
        change PartShows s .artifact content.flatten (.written content.flatten.length)
        rw [PartShows, htake] at hpart
        rw [PartShows, List.take_length]
        exact hpart
    · refine .bind (Q := fun _ _ => False) (verifyContent_refused ?_ hread ?_)
        fun _ s hs => False.elim hs
      · rw [List.length_take, ← hmatches.length]
        omega
      · rintro s rfl
        exact ⟨hC s hd, Nat.not_le.1 hwhole⟩

/-- The final name of an artifact that is staged whole is free. -/
theorem linkArtifact_spec (hC : ∀ d, Shows (expected platform request content) a d → C d)
    (hlinked : ∀ d, Shows (expected platform request content)
      (Function.update a .artifact .linked) d → C d)
    (hwhole : a .artifact = .written content.flatten.length) :
    Guarded (Shows (expected platform request content) a) linkArtifact C
      (fun linked d => Shows (expected platform request content)
        (Function.update a .artifact .linked) d ∧ linked = true) E :=
  .rescue (J := fun _ => False)
    (.bind (link_spec hC hlinked hwhole) fun _ => .pure fun s hs => ⟨hlinked s hs, hs, rfl⟩)
    fun _ _ hs => False.elim hs

variable (hlimits : ∀ part, part ≠ .artifact →
  (expected platform request content part).length ≤ manifestLimit)

/-- The end of a call: the artifact is read under its final name. -/
private theorem verified {asset : MaterializedAsset} (hmatches : Matches platform request content)
    (hC : ∀ d, Shows (expected platform request content) a d → C d)
    (hsettled : a .artifact = .settled) :
    Guarded (Shows (expected platform request content) a)
      (do
        verifyContent platform request (.final .artifact) true
        pure asset) C (fun _ => Shows (expected platform request content) a) E := by
  refine .bind (verifyContent_spec hmatches.length hmatches.hash (fun s hs => ?_) hC)
    fun _ => .pure fun s hs => ⟨hC s hs, hs⟩
  have hpart := hs.part .artifact
  rw [hsettled] at hpart
  exact hpart.read_settled (Nat.le_of_eq hmatches.length)

include hlimits in
/-- An artifact that has its final name is settled. -/
theorem settleExistingFinal_spec (hmatches : Matches platform request content)
    (hexisted : operationExisted = true ∧ targetExisted = true)
    (hC : ∀ d, Shows (expected platform request content) a d → C d)
    (hsettles : ∀ d, Shows (expected platform request content)
      (Function.update a .artifact .settled) d → C d)
    (hmanifests : ∀ part, part ≠ .artifact → a part = .settled)
    (hphase : a .artifact = .linked ∨ a .artifact = .settled) :
    Guarded (Shows (expected platform request content) a)
      (settleExistingFinal platform request operationExisted targetExisted) C
      (fun _ => Shows (expected platform request content)
        (Function.update a .artifact .settled)) E := by
  have hmanifest : ∀ part, part ≠ .artifact →
      Guarded (Shows (expected platform request content) a)
        (requireManifest part (expected platform request content part)) C
        (fun _ => Shows (expected platform request content) a) E :=
    fun part hpart => requireManifest_spec hC (hmanifests part hpart) (hlimits part hpart)
  refine .bind (Q := fun _ => Shows (expected platform request content) a)
    (met hexisted fun d hd => ⟨hC d hd, hd⟩) fun _ => .bind (hmanifest .target (by decide))
    fun _ => .bind (hmanifest .operation (by decide)) fun _ => .bind (hmanifest .publish (by decide))
    fun _ => .reading fun d hd => ?_
  have hpart := hd.part .artifact
  rcases hphase with hlinked | hsettled
  · rw [if_pos (hpart.exists_pending.2 (.inl hlinked))]
    refine pinned hd (.bind (verifyDualLink_spec hmatches hC hlinked) fun _ =>
      .bind (unlink_spec hC hsettles hlinked) fun _ => ?_)
    exact verified hmatches hsettles (Function.update_self ..)
  · have hmissing : ¬d.exists (.pending .artifact) = true := by
      rw [hpart.exists_pending, hsettled]
      simp
    rw [if_neg hmissing, ← hsettled, Function.update_eq_self]
    exact pinned hd (verified hmatches hC hsettled)

/-- Every file is settled. -/
def allSettled : Part → Phase := fun _ => .settled

include hlimits in
/-- An artifact that is staged whole is published, unless its intent is torn. -/
theorem publishStaged_spec {stageExisted : Bool} (hmatches : Matches platform request content)
    (hlegal : Legal (expected platform request content) a) (hoperation : a .operation = .settled)
    (htarget : a .target = .settled) (hwhole : a .artifact = .written content.flatten.length) :
    Guarded (Shows (expected platform request content) a)
      (publishStaged platform request operationExisted targetExisted stageExisted)
      (IsLegal (expected platform request content))
      (fun _ d => Shows (expected platform request content) allSettled d ∧
        ¬(a .publish).IsTorn (platform.manifest request .publish))
      (fun _ => (a .publish).IsTorn (platform.manifest request .publish)) := by
  have hC : ∀ b, Legal (expected platform request content) b →
      ∀ d, Shows (expected platform request content) b d →
        IsLegal (expected platform request content) d := fun b hb d hd => ⟨b, hb, hd⟩
  have hintended := hlegal.publishing hwhole .settled
  have hlinked := hintended.publishes htarget (Function.update_self ..) (.inl rfl)
  have hsettled := hintended.publishes htarget (Function.update_self ..) (.inr rfl)
  have hall : Function.update (Function.update a .publish .settled) .artifact .settled =
      allSettled := by
    funext part
    cases part with
    | operation => exact hoperation
    | target => exact htarget
    | publish => rfl
    | artifact => rfl
  refine .bind (Q := fun _ d => Shows (expected platform request content)
    (Function.update a .publish .settled) d ∧
    ¬(a .publish).IsTorn (platform.manifest request .publish))
    ((ensureManifest_spec (hC a hlegal)
      (fun _ phase => hC _ (hlegal.publishing hwhole phase))
      (hlimits .publish (by decide))).conseq (fun _ hs => hs) (fun _ _ hs => ⟨hs.1, hs.2.2⟩)
      fun _ hs => hs) fun publishExisted => .assuming fun hintent => ?_
  refine .bind (linkArtifact_spec (hC _ hintended) (hC _ hlinked) hwhole) fun linked =>
    .assuming fun htrue => ?_
  subst htrue
  have hunlink := unlink_spec
    (E := fun _ => (a .publish).IsTorn (platform.manifest request .publish)) (hC _ hlinked)
    (fun d hd => ?_) (Function.update_self .artifact .linked (Function.update a .publish .settled))
  · rw [Function.update_idem] at hunlink
    refine .bind (verifyDualLink_spec hmatches (hC _ hlinked) (Function.update_self ..)) fun _ =>
      .bind hunlink fun _ => (verified hmatches (hC _ hsettled)
        (Function.update_self ..)).conseq (fun _ hs => hs) (fun _ s hs => ⟨?_, hintent⟩)
        fun _ hs => hs
    rw [← hall]
    exact hs
  · rw [Function.update_idem] at hd
    exact hC _ hsettled d hd

include hlimits in
/-- `_materialize_under_lock` finishes, unless the artifact or the publish intent is torn. -/
theorem materializeUnderLock_spec {maxBytes : ℕ} (hmatches : Matches platform request content)
    (hmax : request.byteLength ≤ maxBytes) (hlegal : Legal (expected platform request content) a)
    (hoperation : a .operation = .settled) (htarget : a .target = .settled)
    (hexisted : operationExisted = true ∧ targetExisted = true ∨ a .artifact = .absent) :
    Guarded (Shows (expected platform request content) a)
      (materializeUnderLock platform request (some content) maxBytes operationExisted
        targetExisted) (IsLegal (expected platform request content))
      (fun _ d => Shows (expected platform request content) allSettled d ∧
        ¬((a .artifact).IsTorn content.flatten ∨
          (a .publish).IsTorn (platform.manifest request .publish)))
      (fun _ => (a .artifact).IsTorn content.flatten ∨
        (a .publish).IsTorn (platform.manifest request .publish)) := by
  have hC : ∀ b, Legal (expected platform request content) b →
      ∀ d, Shows (expected platform request content) b d →
        IsLegal (expected platform request content) d := fun b hb d hd => ⟨b, hb, hd⟩
  refine .reading fun d hd => ?_
  have hpart := hd.part .artifact
  by_cases hfinal : a .artifact = .linked ∨ a .artifact = .settled
  · have hpublish := hlegal.published hfinal
    have hpresent : a .artifact ≠ .absent := by
      rcases hfinal with h | h <;> rw [h] <;> simp
    have hmanifests : ∀ part, part ≠ .artifact → a part = .settled := by
      intro part hpart
      cases part with
      | operation => exact hoperation
      | target => exact htarget
      | publish => exact hpublish
      | artifact => exact absurd rfl hpart
    have hall : Function.update a .artifact .settled = allSettled := by
      funext part
      by_cases hpart : part = .artifact
      · rw [hpart, Function.update_self]
        rfl
      · rw [Function.update_of_ne hpart, hmanifests part hpart]
        rfl
    rw [if_pos (hpart.exists_final.2 hfinal)]
    refine pinned hd ((settleExistingFinal_spec hlimits hmatches (hexisted.resolve_right hpresent)
      (hC a hlegal) (hC _ (hlegal.publishes htarget hpublish (.inr rfl))) hmanifests
      hfinal).conseq (fun _ hs => hs) (fun _ s hs => ⟨hall ▸ hs, ?_⟩) fun _ hs => hs)
    rw [hpublish]
    rcases hfinal with h | h <;> rw [h] <;> simp [Phase.IsTorn]
  · rw [if_neg fun h => hfinal (hpart.exists_final.1 h)]
    have hphase : a .artifact = .absent ∨ ∃ count, a .artifact = .written count := by
      cases hcase : a .artifact with
      | absent => exact .inl rfl
      | written count => exact .inr ⟨count, rfl⟩
      | linked => exact absurd (.inl hcase) hfinal
      | settled => exact absurd (.inr hcase) hfinal
    have hstaged : Legal (expected platform request content)
        (Function.update a .artifact (.written content.flatten.length)) := hlegal.staged htarget
    refine pinned hd (.bind (Q := fun _ d => Shows (expected platform request content)
      (Function.update a .artifact (.written content.flatten.length)) d ∧
      ¬(a .artifact).IsTorn content.flatten) ((stageArtifact_spec hmatches hmax (hC a hlegal)
        (hC _ hstaged) (fun habsent count => hC _ (hlegal.staging htarget habsent count)) hphase
        hexisted).conseq (fun _ hs => hs) (fun _ _ hs => hs) fun _ => .inl) fun stageExisted =>
      .assuming fun hwhole => ?_)
    refine (publishStaged_spec hlimits hmatches hstaged hoperation htarget
      (Function.update_self ..)).conseq (fun _ hs => hs) (fun _ s hs => ⟨hs.1, ?_⟩) fun _ => .inr
    exact fun htorn => htorn.elim hwhole hs.2

end Artifact

/-! ## A call -/

section Calls

variable {platform : Platform} {request : Request} {content : List Bytes} {roots : List AssetRoot}
  {value : Part → Bytes} {a : Part → Phase} {d : Disk} {C : Disk → Prop} {E : Disk → Prop}

theorem openDirectory_spec (folder : Folder) (hC : ∀ d, Shows value a d → C d) :
    Guarded (Shows value a) (openDirectory folder) C (fun _ => Shows value a) E := by
  refine .reading fun d hd => ?_
  split
  · exact pinned hd (.pure fun s hs => ⟨hC s hs, hs⟩)
  · refine pinned hd (.write fun s hs => ?_)
    have hafter : Shows value a
        { s with folders := Function.update s.folders folder true } := ⟨hs.part, hs.lock⟩
    exact ⟨hC s hs, hC _ hafter, hafter⟩

/-- A new lock file touches no other file. -/
theorem Shows.createLock (h : Shows value a d) (lock : Lock) :
    Shows value a (d.create (.lock lock)) where
  part := by
    intro part
    have hpending : (d.create (.lock lock)).entry (.pending part) = d.entry (.pending part) :=
      Disk.entry_create _ _ _ (by simp)
    have hfinal : (d.create (.lock lock)).entry (.final part) = d.entry (.final part) :=
      Disk.entry_create _ _ _ (by simp)
    have hne : ∀ serial, (⟨.pending part, serial⟩ : Inode) ≠ ⟨.lock lock, d.created⟩ :=
      fun serial => by simp
    have hbytes : ∀ serial, (d.create (.lock lock)).bytes ⟨.pending part, serial⟩ =
        d.bytes ⟨.pending part, serial⟩ := fun serial => Function.update_of_ne (hne serial) [] d.bytes
    have hlinks : ∀ serial, (d.create (.lock lock)).links ⟨.pending part, serial⟩ =
        d.links ⟨.pending part, serial⟩ := fun serial => Function.update_of_ne (hne serial) 1 d.links
    have hpart := h.part part
    cases hphase : a part <;> rw [hphase] at hpart <;>
      simpa only [PartShows, hpending, hfinal, hbytes, hlinks] using hpart
  lock := by
    intro other inode hentry
    by_cases hother : other = lock
    · subst hother
      have hself : (d.create (.lock other)).entry (.lock other) =
          some ⟨.lock other, d.created⟩ := Function.update_self ..
      rw [hself] at hentry
      obtain rfl := Option.some.inj hentry
      exact ⟨rfl, Function.update_self ..⟩
    · rw [Disk.entry_create _ _ _ (by simpa using hother)] at hentry
      obtain ⟨hcreated, hlinks⟩ := h.lock other inode hentry
      refine ⟨hcreated, (Function.update_of_ne ?_ _ _).trans hlinks⟩
      rintro rfl
      exact hother (Name.lock.inj hcreated).symm

theorem openLock_spec (lock : Lock) (hC : ∀ d, Shows value a d → C d) :
    Guarded (Shows value a) (openLock lock) C (fun _ => Shows value a) E := by
  refine .reading fun d hd => ?_
  cases hentry : d.entry (.lock lock) with
  | none =>
      refine .bind (Q := fun _ => Shows value a) (.reading fun d' hd' => ?_) fun _ =>
        .pure fun s hs => ⟨hC s hs, hs⟩
      subst hd'
      rw [hentry]
      refine .bind (Q := fun _ => Shows value a) (.write ?_) fun _ =>
        .pure fun s hs => ⟨hC s hs, hs⟩
      rintro s rfl
      exact ⟨hC s hd, hC _ (hd.createLock lock), hd.createLock lock⟩
  | some inode => exact pinned hd (met (hd.lock lock inode hentry).2 fun s hs => ⟨hC s hs, hs⟩)

/-- The request is within the limits of its root and of the manifests. -/
def IsAccepted (platform : Platform) (request : Request) (roots : List AssetRoot) : Prop :=
  ∃ root, roots.find? (fun root => root.rootId = request.rootId) = some root ∧
    request.byteLength ≤ root.maxBytes ∧
    (platform.requestManifest request).length ≤ manifestLimit ∧
    (platform.targetManifest request).length ≤ manifestLimit

/-- Some file is torn. -/
def AnyTorn (value : Part → Bytes) (a : Part → Phase) : Prop :=
  ∃ part, (a part).IsTorn (value part)

/-- A call settles every file of a legal disk, unless one is torn. -/
theorem materialize_spec (hmatches : Matches platform request content)
    (haccepted : IsAccepted platform request roots)
    (hlegal : Legal (expected platform request content) a) :
    Guarded (Shows (expected platform request content) a)
      (materialize platform request roots (some content))
      (IsLegal (expected platform request content))
      (fun _ d => Shows (expected platform request content) allSettled d ∧
        ¬AnyTorn (expected platform request content) a)
      (fun _ => AnyTorn (expected platform request content) a) := by
  obtain ⟨root, hroot, hmax, hrequest, htarget⟩ := haccepted
  have hlimits : ∀ part, part ≠ .artifact →
      (expected platform request content part).length ≤ manifestLimit := by
    intro part hpart
    cases part with
    | operation => exact hrequest
    | target => exact htarget
    | publish => exact hrequest
    | artifact => exact absurd rfl hpart
  have hC : ∀ b, Legal (expected platform request content) b →
      ∀ d, Shows (expected platform request content) b d →
        IsLegal (expected platform request content) d := fun b hb d hd => ⟨b, hb, hd⟩
  have hoperation := hlegal.operation_settled
  have htargets := hoperation.target_settled (Function.update_self ..)
  refine .bind (Q := fun r d => Shows (expected platform request content) a d ∧ r = root)
    (.lifted (orRaise_eq_ok.2 hroot) fun d hd => ⟨hC a hlegal d hd, hd, rfl⟩) fun r =>
    .assuming fun hr => ?_
  subst hr
  refine .bind (Q := fun _ => Shows (expected platform request content) a)
    (met hmax fun d hd => ⟨hC a hlegal d hd, hd⟩) fun _ => .bind
    (Q := fun _ => Shows (expected platform request content) a)
    (met ⟨hrequest, htarget⟩ fun d hd => ⟨hC a hlegal d hd, hd⟩) fun _ => .bind
    (.each (hC a hlegal) fun folder _ => openDirectory_spec folder (hC a hlegal)) fun _ => .bind
    (openLock_spec .operation (hC a hlegal)) fun _ => .bind
    (openLock_spec .target (hC a hlegal)) fun _ => ?_
  refine .bind (Q := fun existed d => Shows (expected platform request content)
    (Function.update a .operation .settled) d ∧ (a .operation ≠ .absent → existed = true) ∧
    ¬(a .operation).IsTorn (expected platform request content .operation))
    ((ensureManifest_spec (hC a hlegal)
      (fun hopen phase => hC _ (hlegal.operation hopen phase))
      (hlimits .operation (by decide))).conseq (fun _ hs => hs) (fun _ _ hs => hs)
      fun _ hs => ⟨.operation, hs⟩) fun operationExisted => .assuming fun hfirst => ?_
  refine .bind (Q := fun existed d => Shows (expected platform request content)
    (Function.update (Function.update a .operation .settled) .target .settled) d ∧
    (a .target ≠ .absent → existed = true) ∧
    ¬(a .target).IsTorn (expected platform request content .target))
    ((ensureManifest_spec (hC _ hoperation)
      (fun hopen phase => hC _ (hoperation.targets (Function.update_self ..) hopen phase))
      (hlimits .target (by decide))).conseq (fun _ hs => hs) (fun _ _ hs => hs)
      fun _ hs => ⟨.target, hs⟩) fun targetExisted => .assuming fun hsecond => ?_
  refine .bind (.each (hC _ htargets) fun folder _ => openDirectory_spec folder (hC _ htargets))
    fun _ => (materializeUnderLock_spec hlimits hmatches hmax htargets rfl
      (Function.update_self ..) ?_).conseq (fun _ hs => hs) (fun _ s hs => ⟨hs.1, ?_⟩)
      fun _ hs => ?_
  · by_cases habsent : a .artifact = .absent
    · exact .inr habsent
    · have hsettled := hlegal.artifact habsent
      have hpresent : a .target ≠ .absent := by
        rw [hsettled]
        simp
      have hfirstPresent : a .operation ≠ .absent := by
        rw [hlegal.target hpresent]
        simp
      exact .inl ⟨hfirst.1 hfirstPresent, hsecond.1 hpresent⟩
  · rintro ⟨part, htorn⟩
    cases part with
    | operation => exact hfirst.2 htorn
    | target => exact hsecond.2 htorn
    | publish => exact hs.2 (.inr htorn)
    | artifact => exact hs.2 (.inl htorn)
  · rcases hs with htorn | htorn
    · exact ⟨.artifact, htorn⟩
    · exact ⟨.publish, htorn⟩

/-- A request beyond the limits is refused before anything is written. -/
theorem materialize_refused (haccepted : ¬IsAccepted platform request roots) :
    Guarded (fun s => s = d) (materialize platform request roots (some content)) (fun s => s = d)
      (fun _ _ => False) (fun s => s = d) := by
  have hsame : ∀ s, s = d → s = d ∧ s = d := fun _ hs => ⟨hs, hs⟩
  refine .bind (Q := fun root s => s = d ∧
    roots.find? (fun root => root.rootId = request.rootId) = some root)
    (.lift (fun _ hs => hs) (fun root hroot s hs => ⟨hs, orRaise_eq_ok.1 hroot⟩) fun _ hs => hs)
    fun root => .assuming fun hroot => ?_
  by_cases hmax : request.byteLength ≤ root.maxBytes
  · have hmanifests : ¬((platform.requestManifest request).length ≤ manifestLimit ∧
        (platform.targetManifest request).length ≤ manifestLimit) :=
      fun hmanifests => haccepted ⟨root, hroot, hmax, hmanifests⟩
    exact .bind (met hmax hsame) fun _ =>
      .bind (Q := fun _ _ => False) (unmet hmanifests hsame) fun _ _ => False.elim
  · exact .bind (Q := fun _ _ => False) (unmet hmax hsame) fun _ _ => False.elim

end Calls

/-! ## Any number of crashes -/

/-- A pending file holds something else than its whole value. -/
def Torn (value : Part → Bytes) (d : Disk) : Prop :=
  ∃ part inode, d.entry (.pending part) = some inode ∧ d.bytes inode ≠ value part

/-- No file of the operation is there. -/
def Fresh (d : Disk) : Prop :=
  ∀ name, d.entry name = none

/-- The disk after crashes; the list has the latest first, each by the number of steps that its
call made. -/
def crashedAfter (platform : Platform) (request : Request) (roots : List AssetRoot)
    (content : List Bytes) (d : Disk) : List ℕ → Disk
  | [] => d
  | steps :: earlier =>
      (materialize platform request roots (some content)
        (crashedAfter platform request roots content d earlier)).crashed steps

/-- The call returned and its artifact is published. -/
def Finishes (request : Request) (content : List Bytes)
    (outcome : Outcome Disk MaterializerError MaterializedAsset) : Prop :=
  (∃ asset, outcome.result = .ok asset) ∧
    outcome.final.readRegular (.final .artifact) request.byteLength true = .ok content.flatten ∧
    outcome.final.entry (.pending .artifact) = none

section Crashes

variable {platform : Platform} {request : Request} {content : List Bytes} {roots : List AssetRoot}
  {value : Part → Bytes} {a : Part → Phase} {d : Disk}

theorem Shows.torn_iff (h : Shows value a d) : Torn value d ↔ AnyTorn value a := by
  refine exists_congr fun part => ?_
  have hpart := h.part part
  cases hphase : a part with
  | absent =>
      rw [hphase] at hpart
      simp [hpart.1, Phase.IsTorn]
  | written count =>
      rw [hphase] at hpart
      obtain ⟨-, serial, hentry, hbytes, -⟩ := hpart
      rw [hentry]
      simp only [Option.some.injEq, exists_eq_left', hbytes, Phase.IsTorn]
      constructor
      · intro hdiffers
        by_contra hcount
        exact hdiffers (List.take_of_length_le (Nat.not_lt.1 hcount))
      · intro hcount hsame
        have hlength := congrArg List.length hsame
        rw [List.length_take] at hlength
        omega
  | linked =>
      rw [hphase] at hpart
      obtain ⟨serial, hentry, -, hbytes, -⟩ := hpart
      simp [hentry, hbytes, Phase.IsTorn]
  | settled =>
      rw [hphase] at hpart
      simp [hpart.1, Phase.IsTorn]

theorem Fresh.isLegal (h : Fresh d) : IsLegal value d := by
  refine ⟨fun _ => .absent, ?_, fun part => ⟨h _, h _⟩, fun lock inode hentry => ?_⟩
  · constructor <;> simp
  · rw [h] at hentry
    cases hentry

/-- Every crash leaves a legal disk. -/
theorem crashedAfter_isLegal (hmatches : Matches platform request content)
    (hd : IsLegal (expected platform request content) d) (crashes : List ℕ) :
    IsLegal (expected platform request content)
      (crashedAfter platform request roots content d crashes) := by
  induction crashes with
  | nil => exact hd
  | cons steps earlier ih =>
      by_cases haccepted : IsAccepted platform request roots
      · obtain ⟨a, hlegal, hshows⟩ := ih
        exact (materialize_spec hmatches haccepted hlegal).crashed hshows steps
      · rw [crashedAfter, (materialize_refused haccepted).crashed rfl steps]
        exact ih

end Crashes

/-- After any crashes a call for a request within the limits finishes, exactly when they left no
pending file with a part of its bytes only. -/
theorem rematerializes_iff (platform : Platform) (request : Request) (roots : List AssetRoot)
    (content : List Bytes) (hmatches : Matches platform request content) (d : Disk)
    (hfresh : Fresh d) (crashes : List ℕ) :
    Finishes request content (materialize platform request roots (some content)
        (crashedAfter platform request roots content d crashes)) ↔
      IsAccepted platform request roots ∧
        ¬Torn (expected platform request content)
          (crashedAfter platform request roots content d crashes) := by
  obtain ⟨a, hlegal, hshows⟩ :=
    crashedAfter_isLegal hmatches hfresh.isLegal crashes
  rw [hshows.torn_iff]
  by_cases haccepted : IsAccepted platform request roots
  · have hends := (materialize_spec hmatches haccepted hlegal _ hshows).2
    cases hrun : (materialize platform request roots (some content)
      (crashedAfter platform request roots content d crashes)).result with
    | ok asset =>
        rw [hrun] at hends
        have hpart := hends.1.part .artifact
        refine iff_of_true ⟨⟨asset, hrun⟩, ?_, hpart.1⟩ ⟨haccepted, hends.2⟩
        exact hpart.read_settled (Nat.le_of_eq hmatches.length)
    | error error =>
        rw [hrun] at hends
        refine iff_of_false ?_ fun h => h.2 hends
        rintro ⟨⟨asset, hasset⟩, -⟩
        rw [hrun] at hasset
        cases hasset
  · refine iff_of_false ?_ fun h => haccepted h.1
    rintro ⟨⟨asset, hasset⟩, -⟩
    have hrefused : Guarded _ (materialize platform request roots (some content)) _ _ _ :=
      materialize_refused (d := crashedAfter platform request roots content d crashes) haccepted
    have hends := (hrefused _ rfl).2
    rw [hasset] at hends
    exact hends

/-! ## A torn manifest -/

/-- Short manifests, and the hash of the empty content. -/
def plainPlatform : Platform where
  sha256 bytes :=
    if bytes = [] then
      "e3b0c44298fc1c149afbf4c8996fb92427ae41e4649b934ca495991b7852b855".toList
    else []
  requestManifest _ := "{}".toList.map fun char => char.toNat.toUInt8
  targetManifest _ := "[]".toList.map fun char => char.toNat.toUInt8

def plainRequest : Request where
  operationId := "o1".toList
  rootId := "vault".toList
  relativePath := ["note.md".toList]
  sha256 := "e3b0c44298fc1c149afbf4c8996fb92427ae41e4649b934ca495991b7852b855".toList
  byteLength := 0
  mediaType := "text/markdown".toList
  parents := []

def plainRoots : List AssetRoot := [⟨"vault".toList, 1⟩]

def plainDisk : Disk where
  folders _ := false
  entry _ := none
  bytes _ := []
  links _ := 0
  created := 0

/-- The manifest of the operation is torn when its process dies before the first byte: no later
call takes it away. -/
theorem torn_manifest_refused :
    Matches plainPlatform plainRequest [] ∧ Fresh plainDisk ∧
      ¬Finishes plainRequest [] (materialize plainPlatform plainRequest plainRoots (some [])
        (crashedAfter plainPlatform plainRequest plainRoots [] plainDisk [9])) := by
  refine ⟨⟨rfl, rfl⟩, fun _ => rfl, ?_⟩
  have hrefused : (materialize plainPlatform plainRequest plainRoots (some [])
      (crashedAfter plainPlatform plainRequest plainRoots [] plainDisk [9])).result =
        .error (.conflict "operation manifest conflicts with request") := by
    rfl
  rintro ⟨⟨asset, hasset⟩, -⟩
  rw [hrefused] at hasset
  cases hasset

theorem rematerializes_iff_plainDisk :
    Finishes plainRequest [] (materialize plainPlatform plainRequest plainRoots (some [])
        (crashedAfter plainPlatform plainRequest plainRoots [] plainDisk [3, 11])) ↔
      IsAccepted plainPlatform plainRequest plainRoots ∧
        ¬Torn (expected plainPlatform plainRequest [])
          (crashedAfter plainPlatform plainRequest plainRoots [] plainDisk [3, 11]) :=
  rematerializes_iff plainPlatform plainRequest plainRoots [] ⟨rfl, rfl⟩ plainDisk (fun _ => rfl) [3, 11]

end Cortex.Materializer
