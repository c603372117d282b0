import Cortex.Control.Receipts
import Cortex.Sources.Locator
import Cortex.Sources.NormalizeUrl
import Mathlib.Logic.Relation

/-!
# Source intents and their receipts

`create_source_intent` and `replay_source_intent` each rebuild the request from the
claim of the user, and the receipt is found by it.  The request has the normalized
locator of a claim in it, and not its kind and its version: a replay is of the same
work, and of the same claim exactly if those two agree.

What the command does where there is no receipt is a parameter.
-/

namespace Cortex.Sources

open Control Transaction Time UrlSplit

variable {τ Digest Response : Type} [DecidableEq Digest]

/-- What the user claims. -/
structure IntentClaim where
  attemptId : Text
  title : Option Text
  locator : Option Text
  locatorSha256 : Option Text

/-- The request that is receipted. -/
structure IntentRequest where
  attemptId : Text
  title : Option Text
  locator : Option Text
  locatorSha256 : Option Text
  deriving DecidableEq

/-- A claim after `_normalize_locator_claim` and the check of its title. -/
structure CheckedClaim where
  attemptId : Text
  title : Option Text
  identity : Option CanonicalLocator
  deriving DecidableEq

/-- `_normalize_locator_claim`: the digest that goes into the request. -/
def CheckedClaim.digest (claim : CheckedClaim) : Option Text :=
  claim.identity.bind fun identity =>
    if identity.authority = .sha256 then some identity.authorityId else none

def CheckedClaim.request (claim : CheckedClaim) : IntentRequest where
  attemptId := claim.attemptId
  title := claim.title
  locator := claim.identity.map CanonicalLocator.normalizedLocator
  locatorSha256 := claim.digest

section Commands

variable (unicode : UnicodeData) (ip : IpCheck)

/-- `_normalize_locator_claim`; nothing where it raises. -/
def normalizeLocatorClaim (locator locatorSha256 : Option Text) :
    Option (Option CanonicalLocator) :=
  match locator with
  | none => if locatorSha256.isSome then none else some none
  | some locator => (canonicalizeSourceLocator unicode ip locator locatorSha256).map some

def checkTitle (title : Option Text) : Except StoreError (Option Text) :=
  match title with
  | none => .ok none
  | some title =>
      match normalizeSourceText unicode title 2000 with
      | some title => .ok (some title)
      | none => .error (.valueError "title is invalid")

/-- The checks of a claim, before the request is built. -/
def checkClaim (claim : IntentClaim) : Except StoreError CheckedClaim := do
  let title ← checkTitle unicode claim.title
  let identity ← orRaise (normalizeLocatorClaim unicode ip claim.locator claim.locatorSha256)
    (.valueError "source locator is invalid")
  require (¬(title = none ∧ identity = none)) (.valueError "title or locator is required")
  pure ⟨claim.attemptId, title, identity⟩

def intentOperation (runId : Text) : Text :=
  "POST:/api/v1/runs/".toList ++ runId ++ "/source-intents".toList

/-- `create_source_intent` -/
def createSourceIntent (requestHash : IntentRequest → Digest)
    (s : Receipted τ Text Digest Response) (caller : Caller) (runId : Text) (claim : IntentClaim)
    (now : Civil) (body : CheckedClaim → Except StoreError (τ × Response)) :
    Except StoreError (Receipted τ Text Digest Response × CommandResult Response) := do
  let claim ← checkClaim unicode ip claim
  command requestHash s caller (intentOperation runId) claim.request 201 now (body claim)

/-- `replay_source_intent` -/
def replaySourceIntent (requestHash : IntentRequest → Digest)
    (s : Receipted τ Text Digest Response) (caller : Caller) (runId : Text) (claim : IntentClaim) :
    Except StoreError (Option (CommandResult Response)) := do
  let claim ← checkClaim unicode ip claim
  receipt requestHash s.receipts caller (intentOperation runId) claim.request

end Commands

/-- The store after any commands, each with a request and a body of its own. -/
def Later (s s' : Receipted τ Text Digest Response) : Prop :=
  Relation.ReflTransGen (fun s s' : Receipted τ Text Digest Response =>
    ∃ (Request : Type) (hash : Request → Digest) (caller : Caller) (operation : Text)
      (request : Request) (statusCode : ℕ) (now : Civil)
      (body : Except StoreError (τ × Response)) (result : CommandResult Response),
      command hash s caller operation request statusCode now body = .ok (s', result)) s s'

/-- What identifies the claim of a locator. -/
def identityOf (locator : CanonicalLocator) : ClaimKind × (Authority × Text) × Option ℕ :=
  (locator.claimKind, locator.canonicalId, locator.version)

/-- Two checked claims that are one claim. -/
def SameClaim (claim other : CheckedClaim) : Prop :=
  claim.attemptId = other.attemptId ∧ claim.title = other.title ∧
    claim.identity.map identityOf = other.identity.map identityOf

/-- Two claims of which one is an answer to the other: the kinds and the versions agree, if
the attempts, the titles and the normalized locators do. -/
def KindsAgree (claim other : CheckedClaim) : Prop :=
  claim.request = other.request →
    claim.identity.map (fun locator => (locator.claimKind, locator.version)) =
      other.identity.map fun locator => (locator.claimKind, locator.version)

/-! ## Locators name their works -/

/-- One normalized locator and one digest, one work. -/
theorem canonicalId_eq {unicode : UnicodeData} {ip : IpCheck} {value other : Text}
    {digest otherDigest : Option Text} {locator otherLocator : CanonicalLocator}
    (h : canonicalizeSourceLocator unicode ip value digest = some locator)
    (h' : canonicalizeSourceLocator unicode ip other otherDigest = some otherLocator)
    (hlocator : locator.normalizedLocator = otherLocator.normalizedLocator)
    (hdigest : (if locator.authority = .sha256 then some locator.authorityId else none) =
      if otherLocator.authority = .sha256 then some otherLocator.authorityId else none) :
    locator.canonicalId = otherLocator.canonicalId := by
  have hcases := normalizedLocator_cases h
  have hcases' := normalizedLocator_cases h'
  rw [CanonicalLocator.canonicalId, CanonicalLocator.canonicalId]
  rcases hcases with ⟨ha, hn⟩ | ⟨ha, hn⟩ | ha <;> rcases hcases' with ⟨ha', hn'⟩ | ⟨ha', hn'⟩ | ha'
  · rw [hn, hn'] at hlocator
    rw [ha, ha', List.append_cancel_left hlocator]
  · rw [hn, hn'] at hlocator
    exact absurd (congrArg (fun text => text.drop 8 |>.head?) hlocator) (by simp)
  · rw [ha, ha'] at hdigest
    simp at hdigest
  · rw [hn, hn'] at hlocator
    exact absurd (congrArg (fun text => text.drop 8 |>.head?) hlocator) (by simp)
  · rw [hn, hn'] at hlocator
    rw [ha, ha', List.append_cancel_left hlocator]
  · rw [ha, ha'] at hdigest
    simp at hdigest
  · rw [ha, ha'] at hdigest
    simp at hdigest
  · rw [ha, ha'] at hdigest
    simp at hdigest
  · rw [ha, ha', if_pos rfl, if_pos rfl] at hdigest
    rw [ha, ha', Option.some.inj hdigest]

variable {unicode : UnicodeData} {ip : IpCheck} {requestHash : IntentRequest → Digest}

/-- The locator of a checked claim comes from its text. -/
private theorem identity_of_checkClaim {claim : IntentClaim} {checked : CheckedClaim}
    {locator : CanonicalLocator} (h : checkClaim unicode ip claim = .ok checked)
    (hlocator : checked.identity = some locator) :
    ∃ value digest, canonicalizeSourceLocator unicode ip value digest = some locator := by
  simp only [checkClaim, bind_eq_ok, orRaise_eq_ok, pure_eq_ok] at h
  obtain ⟨title, -, identity, hidentity, -, -, rfl⟩ := h
  obtain rfl : identity = some locator := hlocator
  unfold normalizeLocatorClaim at hidentity
  split at hidentity
  · split_ifs at hidentity
    cases hidentity
  · rename_i value _
    obtain ⟨other, hother, heq⟩ := Option.map_eq_some_iff.1 hidentity
    exact ⟨value, claim.locatorSha256, by rw [hother, Option.some.inj heq]⟩

/-- One request, one attempt, one title and one work. -/
private theorem sameClaim_iff {claim other : IntentClaim} {checked checked' : CheckedClaim}
    (h : checkClaim unicode ip claim = .ok checked)
    (h' : checkClaim unicode ip other = .ok checked')
    (hrequest : checked.request = checked'.request) :
    SameClaim checked checked' ↔
      checked.identity.map (fun locator => (locator.claimKind, locator.version)) =
        checked'.identity.map fun locator => (locator.claimKind, locator.version) := by
  simp only [CheckedClaim.request, IntentRequest.mk.injEq] at hrequest
  obtain ⟨hattempt, htitle, hlocator, hdigest⟩ := hrequest
  rw [SameClaim]
  simp only [hattempt, htitle, true_and]
  cases hidentity : checked.identity with
  | none =>
      rw [hidentity] at hlocator
      cases hidentity' : checked'.identity with
      | none => exact iff_of_true rfl rfl
      | some locator' =>
          rw [hidentity'] at hlocator
          cases hlocator
  | some locator =>
      cases hidentity' : checked'.identity with
      | none =>
          rw [hidentity, hidentity'] at hlocator
          cases hlocator
      | some locator' =>
          obtain ⟨value, digest, hvalue⟩ := identity_of_checkClaim h hidentity
          obtain ⟨value', digest', hvalue'⟩ := identity_of_checkClaim h' hidentity'
          rw [hidentity, hidentity', Option.map_some, Option.map_some] at hlocator
          rw [CheckedClaim.digest, CheckedClaim.digest, hidentity, hidentity', Option.bind_some,
            Option.bind_some] at hdigest
          have hwork := canonicalId_eq hvalue hvalue' (Option.some.inj hlocator) hdigest
          simp only [Option.map_some, Option.some_inj, identityOf, Prod.mk.injEq, hwork, true_and]

/-! ## Replays -/

/-- Receipts stay as they are filed. -/
theorem Later.receipts {s s' : Receipted τ Text Digest Response} (h : Later s s') :
    ∀ row ∈ s.receipts, row ∈ s'.receipts := by
  induction h with
  | refl => exact fun row hrow => hrow
  | tail _ hstep ih =>
      obtain ⟨Request, hash, caller, operation, request, statusCode, now, body, result, hcommand⟩ :=
        hstep
      rcases command_eq_ok hcommand with ⟨-, rfl⟩ | ⟨-, hkept, -⟩
      · exact ih
      · exact fun row hrow => hkept row (ih row hrow)

/-- A claim under the key of an earlier one: it is answered by its receipt, or refused. -/
private theorem answered {s : Receipted τ Text Digest Response} {caller : Caller} {runId : Text}
    {second : IntentClaim} {checked checked' : CheckedClaim}
    {row : Receipt Text Digest Response} (hhash : Function.Injective requestHash)
    (hsecond : checkClaim unicode ip second = .ok checked')
    (hvalid : validateKey caller.idempotencyKey = .ok ()) (hrow : row ∈ s.receipts)
    (hkey : Keyed.key row = (caller.actorId, intentOperation runId, caller.idempotencyKey))
    (hfiled : row.requestHash = requestHash checked.request) (now : Civil)
    (body : CheckedClaim → Except StoreError (τ × Response)) :
    createSourceIntent unicode ip requestHash s caller runId second now body =
        (if checked.request = checked'.request then
          .ok (s, ⟨row.response, row.statusCode, true⟩)
        else .error .idempotencyConflict) ∧
      replaySourceIntent unicode ip requestHash s caller runId second =
        (if checked.request = checked'.request then
          .ok (some ⟨row.response, row.statusCode, true⟩)
        else .error .idempotencyConflict) := by
  have hreceipt := @receipt_of_filed _ _ _ _ _ _ requestHash s.receipts caller
    (intentOperation runId) checked'.request row hvalid hrow hkey
  rw [hfiled] at hreceipt
  by_cases hsame : checked.request = checked'.request
  · rw [if_pos (congrArg requestHash hsame)] at hreceipt
    rw [if_pos hsame, if_pos hsame, createSourceIntent, replaySourceIntent, hsecond, ok_bind,
      ok_bind, command, hreceipt, ok_bind]
    exact ⟨rfl, rfl⟩
  · rw [if_neg fun heq => hsame (hhash heq)] at hreceipt
    rw [if_neg hsame, if_neg hsame, createSourceIntent, replaySourceIntent, hsecond, ok_bind,
      ok_bind, command, hreceipt, error_bind]
    exact ⟨rfl, rfl⟩

/-- A claim that is answered by the receipt of an earlier one is the same claim, and one
with another locator identity is refused. -/
structure ReplaysSame (unicode : UnicodeData) (ip : IpCheck)
    (requestHash : IntentRequest → Digest) (s : Receipted τ Text Digest Response)
    (caller : Caller) (runId : Text) (second : IntentClaim) (now : Civil)
    (body : CheckedClaim → Except StoreError (τ × Response)) (value : Response)
    (checked checked' : CheckedClaim) : Prop where
  create : ∀ s' result,
    createSourceIntent unicode ip requestHash s caller runId second now body = .ok (s', result) →
      result.replayed = true → result.value = value → SameClaim checked checked'
  replay : ∀ result, replaySourceIntent unicode ip requestHash s caller runId second =
    .ok (some result) → result.value = value → SameClaim checked checked'
  conflict : checked.identity.map identityOf ≠ checked'.identity.map identityOf →
    createSourceIntent unicode ip requestHash s caller runId second now body =
        .error .idempotencyConflict ∧
      replaySourceIntent unicode ip requestHash s caller runId second =
        .error .idempotencyConflict

/-- A replay is only ever the same claim exactly if the kinds and the versions of the two
locators agree where the requests do. -/
theorem intent_replay_iff (unicode : UnicodeData) (ip : IpCheck)
    (requestHash : IntentRequest → Digest) (hhash : Function.Injective requestHash)
    (s s' later : Receipted τ Text Digest Response) (caller : Caller) (runId : Text)
    (first second : IntentClaim) (checked checked' : CheckedClaim) (now now' : Civil)
    (body body' : CheckedClaim → Except StoreError (τ × Response))
    (result : CommandResult Response) (hfirst : checkClaim unicode ip first = .ok checked)
    (hsecond : checkClaim unicode ip second = .ok checked')
    (hcreate : createSourceIntent unicode ip requestHash s caller runId first now body =
      .ok (s', result))
    (hnew : result.replayed = false) (hlater : Later s' later) :
    ReplaysSame unicode ip requestHash later caller runId second now' body' result.value checked
        checked' ↔ KindsAgree checked checked' := by
  rw [createSourceIntent, hfirst, ok_bind] at hcreate
  obtain ⟨hvalid, row, hrow, hkey, hfiled, hvalue⟩ := command_filed hcreate hnew
  obtain ⟨hanswer, hreplay⟩ := answered hhash hsecond hvalid (hlater.receipts row hrow) hkey hfiled
    now' body'
  constructor
  · intro h hrequest
    rw [if_pos hrequest] at hanswer
    exact (sameClaim_iff hfirst hsecond hrequest).1 (h.create _ _ hanswer rfl hvalue)
  · intro h
    have hsame : checked.request = checked'.request → SameClaim checked checked' :=
      fun hrequest => (sameClaim_iff hfirst hsecond hrequest).2 (h hrequest)
    by_cases hrequest : checked.request = checked'.request
    · exact ⟨fun _ _ _ _ _ => hsame hrequest, fun _ _ _ => hsame hrequest,
        fun hdiffers => absurd (hsame hrequest).2.2 hdiffers⟩
    · rw [if_neg hrequest] at hanswer hreplay
      refine ⟨fun _ _ hcommand => ?_, fun _ hreplayed => ?_, fun _ => ⟨hanswer, hreplay⟩⟩
      · rw [hanswer] at hcommand
        cases hcommand
      · rw [hreplay] at hreplayed
        cases hreplayed

/-! ## Two versions of a paper -/

/-- ASCII texts are as they are. -/
def asciiData : UnicodeData where
  nfc value := value
  nfc_ascii _ _ := rfl
  isOther c := c.toNat < 32 || 127 ≤ c.toNat
  isOther_ascii c hmin hmax := by simp [Nat.not_lt.2 hmin, Nat.not_le.2 hmax]

def thirdOfFebruary : Civil where
  year := 2026
  month := 2
  day := 3
  hour := 12
  minute := 0
  second := 0
  microsecond := 0
  validDate := by decide
  validTime := Civil.validTime_noon

def versionClaim (locator : String) : IntentClaim where
  attemptId := "attempt".toList
  title := none
  locator := some locator.toList
  locatorSha256 := none

def versionChecked (version : ℕ) : CheckedClaim where
  attemptId := "attempt".toList
  title := none
  identity := some (arxivLocator ⟨"2301.00001".toList, some version⟩)

def emptyStore : Receipted Unit Text IntentRequest Text := ⟨(), Table.empty⟩

def localCaller : Caller := ⟨"local".toList, "source-intent-0001".toList⟩

def anIntent (_ : CheckedClaim) : Except StoreError (Unit × Text) := .ok ((), "intent".toList)

private theorem checkClaim_first :
    checkClaim asciiData noAddress (versionClaim "2301.00001v1") = .ok (versionChecked 1) := by
  decide +kernel

private theorem checkClaim_second :
    checkClaim asciiData noAddress (versionClaim "2301.00001v2") = .ok (versionChecked 2) := by
  decide +kernel

/-- The first intent is created, and its receipt answers another version. -/
private theorem created_first :
    ∃ s', createSourceIntent asciiData noAddress id emptyStore localCaller "run".toList
        (versionClaim "2301.00001v1") thirdOfFebruary anIntent =
          .ok (s', ⟨"intent".toList, 201, false⟩) ∧
      createSourceIntent asciiData noAddress id s' localCaller "run".toList
        (versionClaim "2301.00001v2") thirdOfFebruary anIntent =
          .ok (s', ⟨"intent".toList, 201, true⟩) := by
  have hkey : validateKey localCaller.idempotencyKey = .ok () := by decide +kernel
  have hsame : (versionChecked 1).request = (versionChecked 2).request := by decide +kernel
  let row : Receipt Text IntentRequest Text :=
    ⟨localCaller.actorId, intentOperation "run".toList, localCaller.idempotencyKey,
      (versionChecked 1).request, 201, "intent".toList, formatTime thirdOfFebruary⟩
  have hfresh : (Table.empty.insert? row).isSome :=
    Table.isSome_insert fun row hrow => absurd hrow (Table.not_mem_empty row)
  obtain ⟨receipts, hreceipts⟩ := Option.isSome_iff_exists.1 hfresh
  have hfirst : createSourceIntent asciiData noAddress id emptyStore localCaller "run".toList
      (versionClaim "2301.00001v1") thirdOfFebruary anIntent =
        .ok (⟨(), receipts⟩, ⟨"intent".toList, 201, false⟩) := by
    rw [createSourceIntent, checkClaim_first, ok_bind, command, receipt, hkey, ok_bind, emptyStore,
      Table.get?_empty]
    simp only [anIntent, saveReceipt, id_eq, orRaise, ok_bind, pure, Except.pure]
    rw [hreceipts]
    rfl
  have hreceipt : receipt id receipts localCaller (intentOperation "run".toList)
      (versionChecked 2).request = .ok (some ⟨"intent".toList, 201, true⟩) := by
    rw [receipt_of_filed hkey ((Table.mem_insert hreceipts).2 (.inr rfl)) rfl]
    exact if_pos hsame
  refine ⟨_, hfirst, ?_⟩
  rw [createSourceIntent, checkClaim_second, ok_bind, command, hreceipt]
  rfl

theorem intent_replay_iff_versions :
    ∃ s', createSourceIntent asciiData noAddress id emptyStore localCaller "run".toList
        (versionClaim "2301.00001v1") thirdOfFebruary anIntent =
          .ok (s', ⟨"intent".toList, 201, false⟩) ∧
      (ReplaysSame asciiData noAddress id s' localCaller "run".toList
          (versionClaim "2301.00001v2") thirdOfFebruary anIntent "intent".toList
          (versionChecked 1) (versionChecked 2) ↔
        KindsAgree (versionChecked 1) (versionChecked 2)) := by
  obtain ⟨s', hcreate, -⟩ := created_first
  exact ⟨s', hcreate, intent_replay_iff asciiData noAddress id Function.injective_id emptyStore s' s'
    localCaller "run".toList (versionClaim "2301.00001v1") (versionClaim "2301.00001v2")
    (versionChecked 1) (versionChecked 2) thirdOfFebruary thirdOfFebruary anIntent anIntent
    ⟨"intent".toList, 201, false⟩ checkClaim_first checkClaim_second hcreate rfl .refl⟩

/-- Another version of the paper, under the same key, is answered with the first intent. -/
theorem version_replayed :
    (∃ s', createSourceIntent asciiData noAddress id emptyStore localCaller "run".toList
        (versionClaim "2301.00001v1") thirdOfFebruary anIntent =
          .ok (s', ⟨"intent".toList, 201, false⟩) ∧
      createSourceIntent asciiData noAddress id s' localCaller "run".toList
        (versionClaim "2301.00001v2") thirdOfFebruary anIntent =
          .ok (s', ⟨"intent".toList, 201, true⟩)) ∧
      checkClaim asciiData noAddress (versionClaim "2301.00001v1") = .ok (versionChecked 1) ∧
      checkClaim asciiData noAddress (versionClaim "2301.00001v2") = .ok (versionChecked 2) ∧
      (versionChecked 1).identity.map identityOf ≠ (versionChecked 2).identity.map identityOf :=
  ⟨created_first, checkClaim_first, checkClaim_second, by decide +kernel⟩

end Cortex.Sources
