import Cortex.Adapter.Actions

/-!
# One choice for each decision

While the caches have room, the claims of a decision all carry the choice that is
filed as its intent; at most one of them is open at a time, and none is opened
once one was accepted (`DecisionInv`).
-/

namespace Cortex.Adapter

open Transaction

variable {limits : Limits} {digest : Digest} {limit : ℕ} {dec dec' : Decisions} {d : Delivery}
  {r : Resolution} {pending : Option PendingDecision} {verdict : Verdict} {outcome : Outcome}
  {claim : Claim} {index : ℕ} {events : List Event} {event : Event}

/-! ## Caches with room -/

/-- Another decision fits into the caches. -/
structure Decisions.Room (dec : Decisions) (limit : ℕ) : Prop where
  intents : dec.intents.length < limit
  successes : dec.successes.length < limit

private theorem evictIntents_of_le {fuel : ℕ} (h : dec.intents.length ≤ limit) :
    evictIntents limit fuel dec = dec := by
  cases fuel with
  | zero => rfl
  | succ fuel => exact if_pos h

private theorem rememberDecisionIntent_of_room (key : Key) (chosen : Chosen)
    (h : dec.intents.length < limit) :
    rememberDecisionIntent limit dec key chosen =
      { dec with intents := dec.intents.put key chosen } :=
  evictIntents_of_le (Nat.le_trans (dec.intents.length_put_le key chosen) h)

/-- The caches hold the same, in another order. -/
structure Same (dec dec' : Decisions) : Prop where
  intents : ∀ key, dec'.intents.find key = dec.intents.find key
  successes : ∀ key, dec'.successes.find key = dec.successes.find key
  inflight : dec'.inflight = dec.inflight
  claims : dec'.claims = dec.claims

theorem Same.trans {dec'' : Decisions} (h : Same dec dec') (h' : Same dec' dec'') :
    Same dec dec'' :=
  ⟨fun key => (h'.intents key).trans (h.intents key),
    fun key => (h'.successes key).trans (h.successes key),
    h'.inflight.trans h.inflight, h'.claims.trans h.claims⟩

/-- What the section of `resolve_decision` can do. -/
inductive Decided (dec : Decisions) (d : Delivery) (r : Resolution) : Decisions → Verdict → Prop
  | ends {dec' : Decisions} {status : Status} {reasonCode : Option Control.Text} :
      Same dec dec' → Decided dec d r dec' (.ends (d.outcome status reasonCode))
  | joins {dec' : Decisions} {index : ℕ} :
      Same dec dec' → Decided dec d r dec' (.waits index false)
  | opens {dec' : Decisions} :
      dec.openClaim r.key = none → dec.successes.find r.key = none →
      (∀ filed, dec.intents.find r.key = some filed → filed = r.chosen) →
      (∀ key, dec'.intents.find key = if key = r.key then some r.chosen
        else dec.intents.find key) →
      (∀ key, dec'.successes.find key = dec.successes.find key) →
      (∀ key, dec'.inflight.find key = if key = r.key then some dec.claims.length
        else dec.inflight.find key) →
      dec'.claims = dec.claims ++ [⟨d, r, .loading⟩] →
      Decided dec d r dec' (.waits dec.claims.length true)

private theorem requireChosen_eq_ok {filed : Option Chosen} {u : Unit} :
    requireChosen filed r = .ok u ↔ ∀ c, filed = some c → c = r.chosen := by
  cases filed with
  | none => simp [requireChosen]
  | some filed =>
      simp only [requireChosen, bind_eq_ok, require_eq_ok, Option.some.injEq]
      obtain ⟨choice, revision⟩ := filed
      constructor
      · rintro ⟨-, hrevision, hchoice⟩ _ rfl
        rw [Resolution.chosen, ← hchoice, ← hrevision]
      · intro h
        have hchosen := h _ rfl
        rw [Resolution.chosen, Chosen.mk.injEq] at hchosen
        exact ⟨(), hchosen.2, hchosen.1⟩

private theorem decided_claimSection (hroom : dec.intents.length < limit)
    (hsuccess : dec.successes.find r.key = none)
    (hintent : ∀ filed, dec.intents.find r.key = some filed → filed = r.chosen) :
    Decided dec d r (claimSection limit dec d r).1 (claimSection limit dec d r).2 := by
  unfold claimSection
  split
  · split
    · exact .ends ⟨fun _ => rfl, fun _ => rfl, rfl, rfl⟩
    · exact .joins ⟨fun _ => rfl, fun _ => rfl, rfl, rfl⟩
  · rename_i hopen
    have hopens := rememberDecisionIntent_of_room r.key r.chosen
      (show ({ dec with
        inflight := dec.inflight.put r.key dec.claims.length
        claims := dec.claims ++ [⟨d, r, .loading⟩] } : Decisions).intents.length < limit from hroom)
    rw [openClaim, hopens]
    exact .opens hopen hsuccess hintent (fun _ => Cache.find_put ..) (fun _ => rfl)
      (fun _ => Cache.find_put ..) rfl

/-- The section is decided on caches that hold the same. -/
private theorem Decided.of_same (h : Same dec dec') {last : Decisions}
    (hdecided : Decided dec' d r last verdict) : Decided dec d r last verdict := by
  have hopen : dec'.openClaim r.key = dec.openClaim r.key := by
    rw [Decisions.openClaim, Decisions.openClaim, h.inflight, h.claims]
  cases hdecided with
  | ends hsame => exact .ends (h.trans hsame)
  | joins hsame => exact .joins (h.trans hsame)
  | opens hnone hsuccess hintent hintents hsuccesses hinflight hclaims =>
      rw [h.claims] at hinflight hclaims ⊢
      refine .opens (hopen ▸ hnone) (h.successes _ ▸ hsuccess) (fun filed hfiled => ?_)
        (fun key => ?_) (fun key => (hsuccesses key).trans (h.successes key))
        (fun key => ?_) hclaims
      · exact hintent filed ((h.intents _).trans hfiled)
      · rw [hintents, h.intents]
      · rw [hinflight, h.inflight]

private theorem decided_successSection (hroom : dec.intents.length < limit)
    (hintent : ∀ filed, dec.intents.find r.key = some filed → filed = r.chosen) :
    Decided dec d r (successSection limit dec d r).1 (successSection limit dec d r).2 := by
  have hsame : Same dec { dec with successes := dec.successes.touch r.key } :=
    ⟨fun _ => rfl, fun _ => Cache.find_touch .., rfl, rfl⟩
  unfold successSection
  dsimp only
  split
  · exact .ends hsame
  · split
    · exact .ends hsame
    · refine Decided.of_same hsame (decided_claimSection ?_ ?_ ?_)
      · exact hroom
      · assumption
      · exact hintent

theorem decided_decisionSection (d : Delivery) (r : Resolution)
    (pending : Option PendingDecision) (hroom : dec.intents.length < limit) :
    Decided dec d r (decisionSection limit dec d r pending).1
      (decisionSection limit dec d r pending).2 := by
  have hself : Same dec dec := ⟨fun _ => rfl, fun _ => rfl, rfl, rfl⟩
  have hsame : Same dec { dec with intents := dec.intents.touch r.key } :=
    ⟨fun _ => Cache.find_touch .., fun _ => rfl, rfl, rfl⟩
  unfold decisionSection
  split
  · split
    · exact .ends hself
    · dsimp only
      split
      · exact .ends hsame
      · rename_i hchosen
        refine (decided_successSection ?_ (requireChosen_eq_ok.1 hchosen)).of_same hsame
        exact Nat.lt_of_le_of_lt (Cache.length_touch_le ..) hroom
  · exact .ends hself

/-- What the section of `_complete_decision_claim` does. -/
structure Settled (dec : Decisions) (index : ℕ) (claim : Claim) (outcome : Outcome)
    (dec' : Decisions) : Prop where
  intents : ∀ key, dec'.intents.find key =
    if key = claim.resolution.key then some claim.resolution.chosen else dec.intents.find key
  successes : ∀ key, dec'.successes.find key =
    if key = claim.resolution.key ∧ outcome.status.accepts = true then
      some claim.resolution.chosen
    else dec.successes.find key
  inflight : ∀ key, dec'.inflight.find key =
    if key = claim.resolution.key ∧ dec.inflight.find claim.resolution.key = some index then none
    else dec.inflight.find key
  claims : dec'.claims = dec.claims.set index { claim with phase := .settled outcome }

/-- The task of a claim may still call the backend, or wait for its answer to be filed. -/
def ClaimPhase.isOpen : ClaimPhase → Bool
  | .loading | .calling | .answered _ => true
  | _ => false

def ClaimPhase.heard : ClaimPhase → Option Outcome
  | .answered outcome | .settled outcome | .recorded outcome => some outcome
  | _ => none

def Claim.key (claim : Claim) : Key := claim.resolution.key

/-- The backend accepted the choice of the claim. -/
def Claim.accepted (claim : Claim) : Prop :=
  ∃ outcome, claim.phase.heard = some outcome ∧ outcome.status.accepts = true

/-- What holds of the claims in every state. -/
structure DecisionInv (events : List Event) (dec : Decisions) : Prop where
  opened : ∀ index claim, dec.claims[index]? = some claim → claim.phase.isOpen = true →
    dec.inflight.find claim.key = some index
  inflight : ∀ key index, dec.inflight.find key = some index →
    (dec.claims[index]?).isSome = true
  intents : ∀ claim ∈ dec.claims, dec.intents.find claim.key = some claim.resolution.chosen
  successes : ∀ claim ∈ dec.claims, claim.phase.isOpen = false → claim.accepted →
    dec.successes.find claim.key ≠ none
  closed : ∀ claim ∈ dec.claims, dec.successes.find claim.key ≠ none → claim.phase.isOpen = false
  called : ∀ action key choice, (action, Effect.called key choice) ∈ events →
    ∃ claim ∈ dec.claims, claim.key = key ∧ claim.resolution.choice = choice
  answered : ∀ action key outcome, (action, Effect.answered key outcome) ∈ events →
    outcome.status.accepts = true → ∃ claim ∈ dec.claims, claim.key = key ∧ claim.accepted

/-- An event that says nothing of the backend of decisions. -/
def Effect.silent : Effect → Bool
  | .called _ _ | .answered _ _ => false
  | _ => true

private theorem DecisionInv.logs (h : DecisionInv events dec) (hsilent : event.2.silent = true) :
    DecisionInv (event :: events) dec := by
  refine ⟨h.opened, h.inflight, h.intents, h.successes, h.closed, fun action key choice hmem => ?_,
    fun action key outcome hmem => ?_⟩
  · rcases List.mem_cons.1 hmem with rfl | hmem
    · cases hsilent
    · exact h.called action key choice hmem
  · rcases List.mem_cons.1 hmem with rfl | hmem
    · cases hsilent
    · exact h.answered action key outcome hmem

private theorem DecisionInv.same (h : DecisionInv events dec) (hsame : Same dec dec') :
    DecisionInv events dec' := by
  refine ⟨?_, ?_, fun claim hclaim => ?_, fun claim hclaim => ?_, fun claim hclaim => ?_, ?_, ?_⟩
  · rw [hsame.claims, hsame.inflight]
    exact h.opened
  · rw [hsame.claims, hsame.inflight]
    exact h.inflight
  · rw [hsame.intents]
    exact h.intents claim (hsame.claims ▸ hclaim)
  · rw [hsame.successes]
    exact h.successes claim (hsame.claims ▸ hclaim)
  · rw [hsame.successes]
    exact h.closed claim (hsame.claims ▸ hclaim)
  · rw [hsame.claims]
    exact h.called
  · rw [hsame.claims]
    exact h.answered

private theorem DecisionInv.opens (h : DecisionInv events dec)
    (hnone : dec.openClaim r.key = none) (hsuccess : dec.successes.find r.key = none)
    (hintent : ∀ filed, dec.intents.find r.key = some filed → filed = r.chosen)
    (hintents : ∀ key, dec'.intents.find key = if key = r.key then some r.chosen
      else dec.intents.find key)
    (hsuccesses : ∀ key, dec'.successes.find key = dec.successes.find key)
    (hinflight : ∀ key, dec'.inflight.find key = if key = r.key then some dec.claims.length
      else dec.inflight.find key)
    (hclaims : dec'.claims = dec.claims ++ [⟨d, r, .loading⟩]) : DecisionInv events dec' := by
  have hfresh : dec.inflight.find r.key = none := by
    rw [Option.eq_none_iff_forall_ne_some]
    intro index hindex
    obtain ⟨claim, hclaim⟩ := Option.isSome_iff_exists.1 (h.inflight _ _ hindex)
    rw [Decisions.openClaim, hindex, Option.bind_some, hclaim] at hnone
    cases hnone
  have hmem : ∀ claim, claim ∈ dec'.claims ↔ claim ∈ dec.claims ∨ claim = ⟨d, r, .loading⟩ := by
    intro claim
    rw [hclaims, List.mem_append, List.mem_singleton]
  refine ⟨fun index claim hindex hopen => ?_, fun key index hindex => ?_,
    fun claim hclaim => ?_, fun claim hclaim hopen haccepted => ?_,
    fun claim hclaim hfiled => ?_, fun action key choice hcalled => ?_,
    fun action key outcome hanswered haccepts => ?_⟩
  · rw [hclaims] at hindex
    rw [hinflight]
    by_cases hlt : index < dec.claims.length
    · rw [List.getElem?_append_left hlt] at hindex
      have hfiled := h.opened index claim hindex hopen
      rw [if_neg fun hkey => by rw [hkey, hfresh] at hfiled; cases hfiled]
      exact hfiled
    · rw [List.getElem?_append_right (Nat.le_of_not_lt hlt), List.getElem?_singleton] at hindex
      split at hindex
      · rename_i hzero
        obtain rfl := Option.some.inj hindex
        rw [Claim.key, if_pos rfl, Option.some.injEq]
        omega
      · cases hindex
  · rw [hinflight] at hindex
    rw [hclaims]
    split at hindex
    · obtain rfl := Option.some.inj hindex
      simp
    · have hsome := h.inflight key index hindex
      rw [Option.isSome_iff_exists] at hsome ⊢
      obtain ⟨claim, hclaim⟩ := hsome
      exact ⟨claim, by rw [List.getElem?_append_left (List.getElem?_eq_some_iff.1 hclaim).1, hclaim]⟩
  · rw [hintents]
    rcases (hmem claim).1 hclaim with hold | rfl
    · split
      · rename_i hkey
        have hfiled := h.intents claim hold
        rw [hkey] at hfiled
        rw [hintent _ hfiled]
      · exact h.intents claim hold
    · exact if_pos rfl
  · rw [hsuccesses]
    rcases (hmem claim).1 hclaim with hold | rfl
    · exact h.successes claim hold hopen haccepted
    · cases hopen
  · rw [hsuccesses] at hfiled
    rcases (hmem claim).1 hclaim with hold | rfl
    · exact h.closed claim hold hfiled
    · exact absurd hsuccess hfiled
  · obtain ⟨claim, hclaim, hand⟩ := h.called action key choice hcalled
    exact ⟨claim, (hmem claim).2 (.inl hclaim), hand⟩
  · obtain ⟨claim, hclaim, hand⟩ := h.answered action key outcome hanswered haccepts
    exact ⟨claim, (hmem claim).2 (.inl hclaim), hand⟩

private theorem mem_set_of_mem {claims : List Claim} {other new : Claim}
    (hindex : claims[index]? = some claim) (hmem : other ∈ claims) :
    other = claim ∨ other ∈ claims.set index new := by
  obtain ⟨place, hplace⟩ := List.mem_iff_getElem?.1 hmem
  by_cases heq : index = place
  · subst heq
    exact .inl (Option.some.inj (hplace.symm.trans hindex))
  · exact .inr (List.mem_iff_getElem?.2 ⟨place, by rw [List.getElem?_set_ne heq, hplace]⟩)

private theorem mem_set_self {claims : List Claim} {new : Claim}
    (hindex : claims[index]? = some claim) : new ∈ claims.set index new :=
  List.mem_set (List.getElem?_eq_some_iff.1 hindex).1 _

/-- A claim keeps its key and its choice when its task moves. -/
private theorem exists_mem_set {claims : List Claim} {phase : ClaimPhase} {p : Claim → Prop}
    (hindex : claims[index]? = some claim) (hp : p claim → p { claim with phase })
    (h : ∃ other ∈ claims, p other) : ∃ other ∈ claims.set index { claim with phase }, p other := by
  obtain ⟨other, hother, hpother⟩ := h
  rcases mem_set_of_mem hindex hother with rfl | hmem
  · exact ⟨_, mem_set_self hindex, hp hpother⟩
  · exact ⟨other, hmem, hpother⟩

private theorem getElem?_set_some {claims : List Claim} {new other : Claim} {place : ℕ}
    (h : (claims.set index new)[place]? = some other) :
    (place = index ∧ other = new) ∨ place ≠ index ∧ claims[place]? = some other := by
  rw [List.getElem?_set] at h
  split at h
  · rename_i heq
    split at h
    · exact .inl ⟨heq.symm, (Option.some.inj h).symm⟩
    · cases h
  · rename_i hne
    exact .inr ⟨Ne.symm hne, h⟩

/-- The task of a claim moves, and the claim stays open, or closed. -/
private theorem DecisionInv.setPhase (h : DecisionInv events dec) {phase : ClaimPhase}
    (hindex : dec.claims[index]? = some claim) (hopen : phase.isOpen = claim.phase.isOpen)
    (hheard : ∀ outcome, claim.phase.heard = some outcome → phase.heard = some outcome)
    (hclosed : phase.isOpen = false → phase.heard = claim.phase.heard) :
    DecisionInv events (dec.setPhase index claim phase) := by
  have hmem := List.mem_iff_getElem?.2 ⟨index, hindex⟩
  refine ⟨fun place other hplace hisOpen => ?_, fun key place hplace => ?_,
    fun other hother => ?_, fun other hother hisOpen haccepted => ?_,
    fun other hother hfiled => ?_, fun action key choice hcalled => ?_,
    fun action key outcome hanswered haccepts => ?_⟩
  · rcases getElem?_set_some hplace with ⟨rfl, rfl⟩ | ⟨-, hold⟩
    · exact h.opened _ claim hindex (hopen ▸ hisOpen)
    · exact h.opened place other hold hisOpen
  · have hsome := h.inflight key place hplace
    simpa [Decisions.setPhase] using hsome
  · rcases List.mem_or_eq_of_mem_set hother with hold | rfl
    · exact h.intents other hold
    · exact h.intents claim hmem
  · rcases List.mem_or_eq_of_mem_set hother with hold | rfl
    · exact h.successes other hold hisOpen haccepted
    · refine h.successes claim hmem (hopen ▸ hisOpen) ?_
      rw [Claim.accepted, ← hclosed hisOpen]
      exact haccepted
  · rcases List.mem_or_eq_of_mem_set hother with hold | rfl
    · exact h.closed other hold hfiled
    · exact hopen.trans (h.closed claim hmem hfiled)
  · exact exists_mem_set hindex id (h.called action key choice hcalled)
  · refine exists_mem_set hindex ?_ (h.answered action key outcome hanswered haccepts)
    rintro ⟨hkey, heard, hold, hacc⟩
    exact ⟨hkey, heard, hheard heard hold, hacc⟩

private theorem DecisionInv.settles (h : DecisionInv events dec)
    (hindex : dec.claims[index]? = some claim) (hphase : claim.phase = .answered outcome)
    (hsettled : Settled dec index claim outcome dec') : DecisionInv events dec' := by
  have hmem := List.mem_iff_getElem?.2 ⟨index, hindex⟩
  have hown : dec.inflight.find claim.key = some index :=
    h.opened index claim hindex (by rw [hphase]; rfl)
  have hother : ∀ place other, place ≠ index → dec.claims[place]? = some other →
      other.phase.isOpen = true → other.key ≠ claim.key := by
    intro place other hne hplace hopen hkey
    have hfiled := h.opened place other hplace hopen
    rw [hkey, hown, Option.some.injEq] at hfiled
    exact hne hfiled.symm
  obtain ⟨hintents, hsuccesses, hinflight, hclaims⟩ := hsettled
  refine ⟨fun place other hplace hopen => ?_, fun key place hplace => ?_,
    fun other hmem' => ?_, fun other hmem' hopen haccepted => ?_,
    fun other hmem' hfiled => ?_, fun action key choice hcalled => ?_,
    fun action key outcome' hanswered haccepts => ?_⟩
  · rw [hclaims] at hplace
    rcases getElem?_set_some hplace with ⟨rfl, rfl⟩ | ⟨hne, hold⟩
    · cases hopen
    · rw [hinflight, if_neg fun hand => hother place other hne hold hopen hand.1]
      exact h.opened place other hold hopen
  · rw [hinflight] at hplace
    split at hplace
    · cases hplace
    · rw [hclaims]
      simpa using h.inflight key place hplace
  · rw [hclaims] at hmem'
    rw [hintents]
    rcases List.mem_or_eq_of_mem_set hmem' with hold | rfl
    · split
      · rename_i hkey
        have hfiled := h.intents other hold
        rw [hkey] at hfiled
        exact (h.intents claim hmem).symm.trans hfiled
      · exact h.intents other hold
    · exact if_pos rfl
  · rw [hclaims] at hmem'
    rw [hsuccesses]
    split
    · exact Option.some_ne_none _
    · rename_i hand
      rcases List.mem_or_eq_of_mem_set hmem' with hold | rfl
      · exact h.successes other hold hopen haccepted
      · obtain ⟨heard, hheard, haccepts⟩ := haccepted
        obtain rfl := Option.some.inj hheard
        exact absurd ⟨rfl, haccepts⟩ hand
  · rw [hclaims] at hmem'
    obtain ⟨place, hplace⟩ := List.mem_iff_getElem?.1 hmem'
    rcases getElem?_set_some hplace with ⟨-, rfl⟩ | ⟨hne, hold⟩
    · rfl
    · by_contra hopen
      rw [Bool.not_eq_false] at hopen
      rw [hsuccesses, if_neg fun hand => hother place other hne hold hopen hand.1] at hfiled
      rw [h.closed other (List.mem_iff_getElem?.2 ⟨place, hold⟩) hfiled] at hopen
      cases hopen
  · rw [hclaims]
    exact exists_mem_set hindex id (h.called action key choice hcalled)
  · rw [hclaims]
    refine exists_mem_set hindex ?_ (h.answered action key outcome' hanswered haccepts)
    rintro ⟨hkey, heard, hold, hacc⟩
    rw [hphase] at hold
    exact ⟨hkey, heard, hold, hacc⟩

/-! ## Steps -/

private theorem DecisionInv.decides (h : DecisionInv events dec) (hroom : dec.Room limit) :
    DecisionInv events (decisionSection limit dec d r pending).1 := by
  have hdecided := decided_decisionSection d r pending hroom.intents
  revert hdecided
  generalize (decisionSection limit dec d r pending).1 = dec'
  generalize (decisionSection limit dec d r pending).2 = verdict
  intro hdecided
  cases hdecided with
  | ends hsame => exact h.same hsame
  | joins hsame => exact h.same hsame
  | opens hnone hsuccess hintent hintents hsuccesses hinflight hclaims =>
      exact h.opens hnone hsuccess hintent hintents hsuccesses hinflight hclaims

variable {s s' : State} {phase : Phase} {action : Action} {effect : Effect}

end Cortex.Adapter
