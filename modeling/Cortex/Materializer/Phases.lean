import Cortex.Materializer.Materialize

/-!
# The phases of the files

Every file of an operation goes through the same phases: it is absent, written up
to some byte under its pending name, linked to its final one, and settled.
`Shows a d` says that the disk shows the phases `a`, and `Legal a` says in which
order the four files go: the manifests of the operation and of the target, the
staged artifact, the publish intent, and at last the link of the artifact.

The steps of the file system move one file from phase to phase, and
`ensureManifest_spec` follows a manifest through all of them: it is refused where
its pending name is torn, and settled from everywhere else.
-/

namespace Cortex.Materializer

open Control Transaction Procedure

/-! ## Phases -/

/-- How far a file is. -/
inductive Phase
  | absent
  | written (count : ℕ)
  | linked
  | settled

/-- The disk shows a file in a phase. -/
def PartShows (d : Disk) (part : Part) (value : Bytes) : Phase → Prop
  | .absent => d.entry (.pending part) = none ∧ d.entry (.final part) = none
  | .written count => d.entry (.final part) = none ∧
      ∃ serial, d.entry (.pending part) = some ⟨.pending part, serial⟩ ∧
        d.bytes ⟨.pending part, serial⟩ = value.take count ∧ d.links ⟨.pending part, serial⟩ = 1
  | .linked => ∃ serial, d.entry (.pending part) = some ⟨.pending part, serial⟩ ∧
      d.entry (.final part) = some ⟨.pending part, serial⟩ ∧
      d.bytes ⟨.pending part, serial⟩ = value ∧ d.links ⟨.pending part, serial⟩ = 2
  | .settled => d.entry (.pending part) = none ∧
      ∃ serial, d.entry (.final part) = some ⟨.pending part, serial⟩ ∧
        d.bytes ⟨.pending part, serial⟩ = value ∧ d.links ⟨.pending part, serial⟩ = 1

/-- The disk shows every file in its phase, and locks that are single files. -/
structure Shows (value : Part → Bytes) (a : Part → Phase) (d : Disk) : Prop where
  part : ∀ part, PartShows d part (value part) (a part)
  lock : ∀ lock inode, d.entry (.lock lock) = some inode →
    inode.createdAs = .lock lock ∧ d.links inode = 1

/-- A file that is written whole. -/
def Phase.IsWhole (value : Bytes) : Phase → Prop
  | .absent => False
  | .written count => value.length ≤ count
  | _ => True

/-- The order of the files. -/
structure Legal (value : Part → Bytes) (a : Part → Phase) : Prop where
  target : a .target ≠ .absent → a .operation = .settled
  artifact : a .artifact ≠ .absent → a .target = .settled
  publish : a .publish ≠ .absent → (a .artifact).IsWhole (value .artifact)
  published : a .artifact = .linked ∨ a .artifact = .settled → a .publish = .settled

/-- A file is torn: its pending name holds only a part of it. -/
def Phase.IsTorn (value : Bytes) : Phase → Prop
  | .written count => count < value.length
  | _ => False

/-! ## Steps and phases -/

private theorem final_ne_pending (part : Part) : Name.final part ≠ Name.pending part := by
  simp

/-- Only the names and the inodes of one part differ. -/
structure Elsewhere (part : Part) (d d' : Disk) : Prop where
  entry : ∀ name, name ≠ .pending part → name ≠ .final part → d'.entry name = d.entry name
  bytes : ∀ inode, inode.createdAs ≠ .pending part → d'.bytes inode = d.bytes inode
  links : ∀ inode, inode.createdAs ≠ .pending part → d'.links inode = d.links inode

section Steps

variable {value : Part → Bytes} {a : Part → Phase} {d d' : Disk} {part : Part} {serial : ℕ}

theorem PartShows.elsewhere {other : Part} {phase : Phase} (h : Elsewhere part d d')
    (hother : other ≠ part) (hshows : PartShows d other (value other) phase) :
    PartShows d' other (value other) phase := by
  have hpending : d'.entry (.pending other) = d.entry (.pending other) :=
    h.entry _ (by simpa using hother) (by simp)
  have hfinal : d'.entry (.final other) = d.entry (.final other) :=
    h.entry _ (by simp) (by simpa using hother)
  have hbytes : ∀ s, d'.bytes ⟨.pending other, s⟩ = d.bytes ⟨.pending other, s⟩ :=
    fun s => h.bytes _ (by simpa using hother)
  have hlinks : ∀ s, d'.links ⟨.pending other, s⟩ = d.links ⟨.pending other, s⟩ :=
    fun s => h.links _ (by simpa using hother)
  cases phase <;> simpa only [PartShows, hpending, hfinal, hbytes, hlinks] using hshows

/-- A step on the files of one part moves its phase only. -/
theorem Shows.moves (h : Shows value a d) (helsewhere : Elsewhere part d d') {phase : Phase}
    (hpart : PartShows d' part (value part) phase) :
    Shows value (Function.update a part phase) d' where
  part := by
    intro other
    by_cases hother : other = part
    · subst hother
      rw [Function.update_self]
      exact hpart
    · rw [Function.update_of_ne hother]
      exact (h.part other).elsewhere helsewhere hother
  lock := by
    intro lock inode hentry
    rw [helsewhere.entry _ (by simp) (by simp)] at hentry
    obtain ⟨hcreated, hlinks⟩ := h.lock lock inode hentry
    refine ⟨hcreated, ?_⟩
    rw [helsewhere.links _ (by simp [hcreated])]
    exact hlinks

theorem Shows.stays (h : Shows value a d) : Shows value (Function.update a part (a part)) d := by
  rw [Function.update_eq_self]
  exact h

theorem elsewhere_create : Elsewhere part d (d.create (.pending part)) where
  entry _ hname _ := Disk.entry_create _ _ _ hname
  bytes _ hinode := Function.update_of_ne (fun h => hinode (congrArg Inode.createdAs h)) _ _
  links _ hinode := Function.update_of_ne (fun h => hinode (congrArg Inode.createdAs h)) _ _

theorem elsewhere_append {byte : UInt8} :
    Elsewhere part d (d.append ⟨.pending part, serial⟩ byte) where
  entry _ _ _ := rfl
  bytes _ hinode := Function.update_of_ne (fun h => hinode (congrArg Inode.createdAs h)) _ _
  links _ _ := rfl

theorem elsewhere_link : Elsewhere part d (d.link ⟨.pending part, serial⟩ (.final part)) where
  entry _ _ hname := Disk.entry_link _ _ _ _ hname
  bytes _ _ := rfl
  links _ hinode := Function.update_of_ne (fun h => hinode (congrArg Inode.createdAs h)) _ _

theorem elsewhere_unlink :
    Elsewhere part d (d.unlink ⟨.pending part, serial⟩ (.pending part)) where
  entry _ hname _ := Disk.entry_unlink _ _ _ _ hname
  bytes _ _ := rfl
  links _ hinode := Function.update_of_ne (fun h => hinode (congrArg Inode.createdAs h)) _ _

theorem PartShows.create {v : Bytes} (h : PartShows d part v .absent) :
    PartShows (d.create (.pending part)) part v (.written 0) := by
  refine ⟨?_, d.created, Function.update_self .., ?_, Function.update_self ..⟩
  · rw [Disk.entry_create _ _ _ (final_ne_pending part)]
    exact h.2
  · exact (Function.update_self ..).trans List.take_zero.symm

theorem PartShows.link {v : Bytes} (h : PartShows d part v (.written v.length)) :
    ∃ serial, d.entry (.pending part) = some ⟨.pending part, serial⟩ ∧
      PartShows (d.link ⟨.pending part, serial⟩ (.final part)) part v .linked := by
  obtain ⟨-, serial, hentry, hbytes, hlinks⟩ := h
  refine ⟨serial, hentry, serial, ?_, Function.update_self .., ?_, ?_⟩
  · rw [Disk.entry_link _ _ _ _ (final_ne_pending part).symm]
    exact hentry
  · exact hbytes.trans List.take_length
  · refine (Function.update_self ..).trans ?_
    rw [hlinks]

theorem PartShows.unlink {v : Bytes} (h : PartShows d part v .linked) :
    ∃ serial, d.entry (.pending part) = some ⟨.pending part, serial⟩ ∧
      PartShows (d.unlink ⟨.pending part, serial⟩ (.pending part)) part v .settled := by
  obtain ⟨serial, hpending, hfinal, hbytes, hlinks⟩ := h
  refine ⟨serial, hpending, Function.update_self .., serial, ?_, hbytes, ?_⟩
  · rw [Disk.entry_unlink _ _ _ _ (final_ne_pending part)]
    exact hfinal
  · refine (Function.update_self ..).trans ?_
    rw [hlinks]

theorem PartShows.append {v done rest : Bytes} {byte : UInt8} (hv : v = done ++ byte :: rest)
    (h : PartShows d part v (.written done.length))
    (hentry : d.entry (.pending part) = some ⟨.pending part, serial⟩) :
    PartShows (d.append ⟨.pending part, serial⟩ byte) part v (.written (done ++ [byte]).length) := by
  obtain ⟨hfinal, serial', hentry', hbytes, hlinks⟩ := h
  obtain rfl : serial' = serial := by
    rw [hentry] at hentry'
    simpa using hentry'.symm
  refine ⟨hfinal, serial', hentry, (Function.update_self ..).trans ?_, hlinks⟩
  rw [hbytes, hv, List.take_left]
  have hsplit : done ++ byte :: rest = (done ++ [byte]) ++ rest := by simp
  rw [hsplit, List.take_left]

end Steps

/-! ## One file -/

section Files

variable {value : Part → Bytes} {a : Part → Phase} {part : Part} {C : Disk → Prop}
  {Q : Unit → Disk → Prop} {E : Disk → Prop}

/-- Creating the pending name of a file that is absent. -/
theorem create_spec (hC : ∀ d, Shows value a d → C d)
    (hcreated : ∀ d, Shows value (Function.update a part (.written 0)) d → C d)
    (habsent : a part = .absent) :
    Guarded (Shows value a) (create (.pending part)) C
      (fun inode d => Shows value (Function.update a part (.written 0)) d ∧
        d.entry (.pending part) = some inode ∧ inode.createdAs = .pending part) E := by
  refine .reading fun d hd => ?_
  have hpart := hd.part part
  rw [habsent] at hpart
  rw [hpart.1]
  have hafter := hd.moves elsewhere_create hpart.create
  refine .bind (Q := fun _ s => s = d.create (.pending part)) (.write ?_) fun _ => .pure ?_
  · rintro s rfl
    exact ⟨hC s hd, hcreated _ hafter, rfl⟩
  · rintro s rfl
    exact ⟨hcreated _ hafter, hafter, Function.update_self .., rfl⟩

/-- Writing what is left of a file, byte by byte. -/
theorem writeAll_spec
    (hC : ∀ count d, Shows value (Function.update a part (.written count)) d → C d)
    {inode : Inode} (hcreated : inode.createdAs = .pending part) (rest done : Bytes)
    (later : Bytes) (hvalue : value part = done ++ rest ++ later) :
    Guarded
      (fun d => Shows value (Function.update a part (.written done.length)) d ∧
        d.entry (.pending part) = some inode)
      (writeAll inode rest) C
      (fun _ d => Shows value (Function.update a part (.written (done ++ rest).length)) d ∧
        d.entry (.pending part) = some inode) E := by
  obtain ⟨name, serial⟩ := inode
  obtain rfl : name = .pending part := hcreated
  induction rest generalizing done with
  | nil =>
      refine .pure fun d hd => ⟨hC _ d hd.1, ?_⟩
      rw [List.append_nil]
      exact hd
  | cons byte rest ih =>
      have hnext := ih (done ++ [byte]) (by simpa using hvalue)
      rw [List.append_assoc, List.singleton_append] at hnext
      refine .bind (.write fun d hd => ?_) fun _ => hnext
      obtain ⟨hshows, hentry⟩ := hd
      have hpart := hshows.part part
      rw [Function.update_self] at hpart
      have hafter := hshows.moves elsewhere_append
        (hpart.append (by simpa using hvalue) hentry)
      rw [Function.update_idem] at hafter
      exact ⟨hC _ d hshows, hC _ _ hafter, hafter, hentry⟩

/-- Linking a file that is written whole to its final name. -/
theorem link_spec (hC : ∀ d, Shows value a d → C d)
    (hlinked : ∀ d, Shows value (Function.update a part .linked) d → C d)
    (hwhole : a part = .written (value part).length) :
    Guarded (Shows value a) (link (.pending part) (.final part)) C
      (fun _ => Shows value (Function.update a part .linked)) E := by
  refine .reading fun d hd => ?_
  have hpart := hd.part part
  rw [hwhole] at hpart
  have hfinal := hpart.1
  obtain ⟨serial, hentry, hdual⟩ := hpart.link
  have hafter := hd.moves elsewhere_link hdual
  refine .bind (Q := fun inode s => s = d ∧ inode = ⟨.pending part, serial⟩)
    (.lifted (orRaise_eq_ok.2 hentry) ?_) fun inode => ?_
  · rintro s rfl
    exact ⟨hC s hd, rfl, rfl⟩
  · rw [hfinal]
    refine .write ?_
    rintro s ⟨rfl, rfl⟩
    exact ⟨hC s hd, hlinked _ hafter, hafter⟩

/-- Taking the pending name away from a file that is linked. -/
theorem unlink_spec (hC : ∀ d, Shows value a d → C d)
    (hsettled : ∀ d, Shows value (Function.update a part .settled) d → C d)
    (hlinked : a part = .linked) :
    Guarded (Shows value a) (unlink (.pending part)) C
      (fun _ => Shows value (Function.update a part .settled)) E := by
  refine .reading fun d hd => ?_
  have hpart := hd.part part
  rw [hlinked] at hpart
  obtain ⟨serial, hentry, hsingle⟩ := hpart.unlink
  have hafter := hd.moves elsewhere_unlink hsingle
  refine .bind (Q := fun inode s => s = d ∧ inode = ⟨.pending part, serial⟩)
    (.lifted (orRaise_eq_ok.2 hentry) ?_) fun inode => ?_
  · rintro s rfl
    exact ⟨hC s hd, rfl, rfl⟩
  · refine .write ?_
    rintro s ⟨rfl, rfl⟩
    exact ⟨hC s hd, hsettled _ hafter, hafter⟩

/-! ### Reading -/

theorem readRegular_eq_ok {d : Disk} {name : Name} {limit : ℕ} {single : Bool} {inode : Inode}
    (hentry : d.entry name = some inode) (hlinks : single = true → d.links inode = 1)
    (hlimit : (d.bytes inode).length ≤ limit) :
    d.readRegular name limit single = .ok (d.bytes inode) := by
  rw [Disk.readRegular, hentry]
  simp only [orRaise, ok_bind]
  rw [require, if_pos hlinks, require, if_pos hlimit]
  rfl

variable {d : Disk} {v : Bytes} {limit : ℕ} {single : Bool}

theorem PartShows.read_settled (h : PartShows d part v .settled) (hlimit : v.length ≤ limit) :
    d.readRegular (.final part) limit single = .ok v := by
  obtain ⟨-, serial, hentry, rfl, hlinks⟩ := h
  exact readRegular_eq_ok hentry (fun _ => hlinks) hlimit

theorem PartShows.read_linked (h : PartShows d part v .linked) (hlimit : v.length ≤ limit) :
    d.readRegular (.final part) limit false = .ok v ∧
      d.readRegular (.pending part) limit false = .ok v := by
  obtain ⟨serial, hpending, hfinal, rfl, -⟩ := h
  exact ⟨readRegular_eq_ok hfinal (fun h => by cases h) hlimit,
    readRegular_eq_ok hpending (fun h => by cases h) hlimit⟩

theorem PartShows.read_written {count : ℕ} (h : PartShows d part v (.written count))
    (hlimit : v.length ≤ limit) :
    d.readRegular (.pending part) limit single = .ok (v.take count) := by
  obtain ⟨-, serial, hentry, hbytes, hlinks⟩ := h
  rw [← hbytes]
  refine readRegular_eq_ok hentry (fun _ => hlinks) ?_
  rw [hbytes, List.length_take]
  exact Nat.le_trans (Nat.min_le_right _ _) hlimit

theorem readRegular_spec {P : Disk → Prop} {name : Name} {Q : Bytes → Disk → Prop}
    (hread : ∀ d, P d → d.readRegular name limit single = .ok v) (h : ∀ d, P d → C d ∧ Q v d) :
    Guarded P (readRegular name limit single) C Q E := by
  refine .reading fun d hd => .lifted (hread d hd) ?_
  rintro s rfl
  exact h s hd

/-- A check that is met. -/
theorem met {P : Disk → Prop} {p : Prop} [Decidable p] {error : MaterializerError} (hp : p)
    (h : ∀ d, P d → C d ∧ Q () d) : Guarded P (lift (require p error)) C Q E :=
  .lifted (a := ()) (require_eq_ok.2 hp) h

/-- A check that is not met. -/
theorem unmet {P : Disk → Prop} {p : Prop} [Decidable p] {error : MaterializerError} (hp : ¬p)
    (h : ∀ d, P d → C d ∧ E d) : Guarded P (lift (require p error)) C Q E :=
  .refused (fun _ hu => hp (require_eq_ok.1 hu)) h

/-- A call that starts on the disk that was read. -/
theorem pinned {α : Type} {p : M α} {P : Disk → Prop} {Q : α → Disk → Prop} (hd : P d)
    (h : Guarded P p C Q E) : Guarded (fun s => s = d) p C Q E :=
  h.conseq (fun _ hs => hs ▸ hd) (fun _ _ hq => hq) fun _ he => he

/-! ### Manifests -/

theorem PartShows.exists_final {phase : Phase} (h : PartShows d part v phase) :
    d.exists (.final part) = true ↔ phase = .linked ∨ phase = .settled := by
  cases phase with
  | absent => simp [Disk.exists, h.2]
  | written count => simp [Disk.exists, h.1]
  | linked =>
      obtain ⟨_, -, hfinal, -⟩ := h
      simp [Disk.exists, hfinal]
  | settled =>
      obtain ⟨-, _, hfinal, -⟩ := h
      simp [Disk.exists, hfinal]

theorem PartShows.exists_pending {phase : Phase} (h : PartShows d part v phase) :
    d.exists (.pending part) = true ↔ phase = .linked ∨ ∃ count, phase = .written count := by
  cases phase with
  | absent => simp [Disk.exists, h.1]
  | written count =>
      obtain ⟨-, _, hpending, -⟩ := h
      simp [Disk.exists, hpending]
  | linked =>
      obtain ⟨_, hpending, -⟩ := h
      simp [Disk.exists, hpending]
  | settled => simp [Disk.exists, h.1]

/-- A pending manifest is what was expected unless it is torn. -/
theorem pendManifest_spec (hC : ∀ d, Shows value a d → C d)
    (hwrites : ∀ count d, Shows value (Function.update a part (.written count)) d → C d)
    (hphase : a part = .absent ∨ ∃ count, a part = .written count)
    (hlimit : (value part).length ≤ manifestLimit) :
    Guarded (Shows value a) (pendManifest part (value part)) C
      (fun _ d => Shows value (Function.update a part (.written (value part).length)) d ∧
        ¬(a part).IsTorn (value part)) (fun _ => (a part).IsTorn (value part)) := by
  refine .reading fun d hd => ?_
  have hpart := hd.part part
  rcases hphase with habsent | ⟨count, hwritten⟩
  · have hmissing : ¬d.exists (.pending part) = true := by
      rw [hpart.exists_pending, habsent]
      simp
    rw [if_neg hmissing]
    refine pinned hd (.bind (create_spec hC (hwrites 0) habsent) fun inode => ?_)
    refine .conseq (P := fun d => (Shows value (Function.update a part (.written 0)) d ∧
      d.entry (.pending part) = some inode) ∧ inode.createdAs = .pending part)
      (.assuming fun hcreated => writeAll_spec hwrites hcreated (value part) [] [] (by simp))
      (fun s hs => ⟨⟨hs.1, hs.2.1⟩, hs.2.2⟩) (fun _ s hs => ⟨hs.1, ?_⟩) fun _ he => he
    rw [habsent]
    exact id
  · rw [hwritten] at hpart
    rw [if_pos (hpart.exists_pending.2 (.inr ⟨count, rfl⟩))]
    refine .bind (Q := fun w s => s = d ∧ w = (value part).take count)
      (readRegular_spec (v := (value part).take count) ?_ ?_) fun w => ?_
    · rintro s rfl
      exact hpart.read_written hlimit
    · rintro s rfl
      exact ⟨hC s hd, rfl, rfl⟩
    rw [hwritten]
    by_cases hwhole : (value part).length ≤ count
    · have htake : (value part).take count = value part := List.take_of_length_le hwhole
      rw [htake]
      refine .assuming fun hw => met hw ?_
      rintro s rfl
      refine ⟨hC s hd, hd.moves ⟨fun _ _ _ => rfl, fun _ _ => rfl, fun _ _ => rfl⟩ ?_,
        Nat.not_lt.2 hwhole⟩
      rw [PartShows, htake] at hpart
      rw [PartShows, List.take_length]
      exact hpart
    · refine .assuming fun hw => unmet (fun heq => ?_) ?_
      · rw [hw] at heq
        have hlength := congrArg List.length heq
        rw [List.length_take] at hlength
        omega
      · rintro s rfl
        exact ⟨hC s hd, Nat.not_le.1 hwhole⟩

/-- A manifest that is not torn is published. -/
theorem publishManifest_spec (hC : ∀ d, Shows value a d → C d)
    (hmoves : ∀ phase d, Shows value (Function.update a part phase) d → C d)
    (hphase : a part = .absent ∨ ∃ count, a part = .written count)
    (hlimit : (value part).length ≤ manifestLimit) :
    Guarded (Shows value a) (publishManifest part (value part)) C
      (fun _ d => Shows value (Function.update a part .settled) d ∧
        ¬(a part).IsTorn (value part)) (fun _ => (a part).IsTorn (value part)) := by
  have hagain : ∀ first phase d,
      Shows value (Function.update (Function.update a part first) part phase) d → C d := by
    intro first phase d hd
    rw [Function.update_idem] at hd
    exact hmoves phase d hd
  refine .bind (pendManifest_spec hC (fun count => hmoves (.written count)) hphase hlimit) fun _ => .assuming fun hwhole => ?_
  refine .bind (Q := fun _ => Shows value (Function.update a part .linked)) (.rescue
    (J := fun _ => False) ?_ fun error s hs => False.elim hs) fun _ => .reading fun d hd => ?_
  · have hlink := link_spec (E := fun _ => False) (hmoves (.written (value part).length))
      (hagain (.written (value part).length) .linked) (Function.update_self ..)
    rw [Function.update_idem] at hlink
    exact hlink
  have hpart := hd.part part
  rw [Function.update_self] at hpart
  obtain ⟨serial, hpending, hfinal, -⟩ := hpart
  refine pinned hd (.bind (Q := fun _ => Shows value (Function.update a part .linked))
    (met (hfinal.trans hpending.symm) fun s hs => ⟨hmoves _ s hs, hs⟩) fun _ => ?_)
  have hunlink := unlink_spec (E := fun _ => (a part).IsTorn (value part)) (hmoves .linked)
    (hagain .linked .settled) (Function.update_self ..)
  rw [Function.update_idem] at hunlink
  refine .bind hunlink fun _ => .bind (Q := fun _ => Shows value (Function.update a part .settled))
    (readRegular_spec (v := value part) (fun s hs => ?_) fun s hs => ⟨hmoves _ s hs, hs⟩)
    fun _ => .pure fun s hs => ⟨hmoves _ s hs, hs, hwhole⟩
  have hsettled := hs.part part
  rw [Function.update_self] at hsettled
  exact hsettled.read_settled hlimit

/-- A manifest that has its final name loses the pending one. -/
theorem settleManifest_spec (hC : ∀ d, Shows value a d → C d)
    (hsettles : ∀ d, Shows value (Function.update a part .settled) d → C d)
    (hphase : a part = .linked ∨ a part = .settled)
    (hlimit : (value part).length ≤ manifestLimit) :
    Guarded (Shows value a) (settleManifest part (value part)) C
      (fun _ => Shows value (Function.update a part .settled)) E := by
  have hread : Guarded (Shows value (Function.update a part .settled))
      (do
        let _ ← readRegular (.final part) manifestLimit true
        pure ()) C (fun _ => Shows value (Function.update a part .settled)) E := by
    refine .bind (Q := fun _ => Shows value (Function.update a part .settled))
      (readRegular_spec (v := value part) (fun s hs => ?_) fun s hs => ⟨hsettles s hs, hs⟩)
      fun _ => .pure fun s hs => ⟨hsettles s hs, hs⟩
    have hsettled := hs.part part
    rw [Function.update_self] at hsettled
    exact hsettled.read_settled hlimit
  refine .bind (Q := fun w d => Shows value a d ∧ w = value part)
    (readRegular_spec (v := value part) (fun d hd => ?_) fun d hd => ⟨hC d hd, hd, rfl⟩)
    fun w => .assuming fun hw => .bind (Q := fun _ => Shows value a)
      (met hw fun d hd => ⟨hC d hd, hd⟩) fun _ => .reading fun d hd => ?_
  · have hpart := hd.part part
    rcases hphase with hlinked | hsettled
    · rw [hlinked] at hpart
      exact (hpart.read_linked hlimit).1
    · rw [hsettled] at hpart
      exact hpart.read_settled hlimit
  have hpart := hd.part part
  rcases hphase with hlinked | hsettled
  · rw [hlinked] at hpart
    rw [if_pos (hpart.exists_pending.2 (.inl rfl))]
    have hsame : d.entry (.final part) = d.entry (.pending part) := by
      obtain ⟨serial, hpending, hfinal, -⟩ := hpart
      exact hfinal.trans hpending.symm
    refine .bind (Q := fun w s => s = d ∧ w = value part) (readRegular_spec (v := value part) ?_ ?_)
      fun w => .assuming fun hw => .bind (Q := fun _ => Shows value a) (met ⟨hw, hsame⟩ ?_)
        fun _ => .bind (unlink_spec hC hsettles hlinked) fun _ => hread
    · rintro s rfl
      exact (hpart.read_linked hlimit).2
    · rintro s rfl
      exact ⟨hC s hd, rfl, rfl⟩
    · rintro s rfl
      exact ⟨hC s hd, hd⟩
  · rw [hsettled] at hpart
    have hmissing : ¬d.exists (.pending part) = true := by
      rw [hpart.exists_pending]
      simp
    rw [if_neg hmissing]
    refine pinned (P := Shows value (Function.update a part .settled)) ?_ hread
    rw [← hsettled]
    exact hd.stays

/-- `_ensure_manifest` publishes a manifest that is not torn, and says whether it was there. -/
theorem ensureManifest_spec (hC : ∀ d, Shows value a d → C d)
    (hmoves : a part ≠ .settled → ∀ phase d, Shows value (Function.update a part phase) d → C d)
    (hlimit : (value part).length ≤ manifestLimit) :
    Guarded (Shows value a) (ensureManifest part (value part)) C
      (fun existed d => Shows value (Function.update a part .settled) d ∧
        (a part ≠ .absent → existed = true) ∧ ¬(a part).IsTorn (value part))
      (fun _ => (a part).IsTorn (value part)) := by
  refine .bind (Q := fun _ => Shows value a)
    (met hlimit fun d hd => ⟨hC d hd, hd⟩) fun _ => .reading fun d hd => ?_
  have hpart := hd.part part
  have hsettles : ∀ d, Shows value (Function.update a part .settled) d → C d := by
    intro s hs
    by_cases hsettled : a part = .settled
    · rw [← hsettled, Function.update_eq_self] at hs
      exact hC s hs
    · exact hmoves hsettled _ s hs
  by_cases hfinal : a part = .linked ∨ a part = .settled
  · rw [if_pos (hpart.exists_final.2 hfinal)]
    refine pinned hd (.bind (settleManifest_spec hC hsettles hfinal hlimit) fun _ =>
      .pure fun s hs => ⟨hsettles s hs, hs, fun _ => rfl, ?_⟩)
    rcases hfinal with hphase | hphase <;> rw [hphase] <;> exact id
  · rw [if_neg fun h => hfinal (hpart.exists_final.1 h)]
    have hphase : a part = .absent ∨ ∃ count, a part = .written count := by
      cases hcase : a part with
      | absent => exact .inl rfl
      | written count => exact .inr ⟨count, rfl⟩
      | linked => exact absurd (.inl hcase) hfinal
      | settled => exact absurd (.inr hcase) hfinal
    have hopen : a part ≠ .settled := fun hsettled => hfinal (.inr hsettled)
    refine pinned hd (.bind (publishManifest_spec hC (hmoves hopen) hphase hlimit) fun _ =>
      .pure fun s hs => ⟨hsettles s hs.1, hs.1, fun hne => ?_, hs.2⟩)
    exact hpart.exists_pending.2 (.inr (hphase.resolve_left hne))

end Files

end Cortex.Materializer
