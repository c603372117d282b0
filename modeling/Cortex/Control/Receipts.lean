import Cortex.Control.Errors
import Cortex.Library.Table
import Cortex.Time.Stamp

/-!
# Idempotency receipts

Every command of the store looks for its receipt first and files one last.  A
receipt with the same request answers the command without running it again; one
with another request refuses it.

`command_eq_ok` says the only two ways a command commits: it is replayed and
changes nothing, or its body runs and one receipt is added.
-/

namespace Cortex.Control

open Transaction Time

variable {τ Operation Request Digest Response : Type}

/-- A row of `idempotency_receipts`. -/
structure Receipt (Operation Digest Response : Type) where
  actorId : Text
  operation : Operation
  idempotencyKey : Text
  requestHash : Digest
  statusCode : ℕ
  response : Response
  createdAt : Stamp

instance : Keyed (Receipt Operation Digest Response) (Text × Operation × Text) :=
  ⟨fun r => (r.actorId, r.operation, r.idempotencyKey)⟩

/-- The other tables of the store, with the receipts filed for their commands. -/
structure Receipted (τ Operation Digest Response : Type) where
  tables : τ
  receipts : Table (Receipt Operation Digest Response)

/-- Who sends a command, and under which idempotency key. -/
structure Caller where
  actorId : Text
  idempotencyKey : Text

structure CommandResult (Response : Type) where
  value : Response
  statusCode : ℕ
  replayed : Bool

section Receipts

variable [DecidableEq Operation] [DecidableEq Digest] (requestHash : Request → Digest)

/-- `_receipt`. -/
def receipt (receipts : Table (Receipt Operation Digest Response)) (caller : Caller)
    (operation : Operation) (request : Request) :
    Except StoreError (Option (CommandResult Response)) := do
  validateKey caller.idempotencyKey
  match receipts.get? (caller.actorId, operation, caller.idempotencyKey) with
  | none => pure none
  | some row =>
      if row.requestHash = requestHash request then
        pure (some { value := row.response, statusCode := row.statusCode, replayed := true })
      else throw .idempotencyConflict

/-- `_save_receipt`. -/
def saveReceipt (receipts : Table (Receipt Operation Digest Response)) (caller : Caller)
    (operation : Operation) (request : Request) (response : Response) (statusCode : ℕ)
    (now : Civil) :
    Except StoreError (Table (Receipt Operation Digest Response) × CommandResult Response) := do
  let row :=
    { actorId := caller.actorId
      operation
      idempotencyKey := caller.idempotencyKey
      requestHash := requestHash request
      statusCode
      response
      createdAt := formatTime now }
  let receipts ← orRaise (receipts.insert? row) .integrityError
  pure (receipts, { value := response, statusCode, replayed := false })

/-- One command: answered by its receipt, or run and receipted. -/
def command (s : Receipted τ Operation Digest Response) (caller : Caller) (operation : Operation)
    (request : Request) (statusCode : ℕ) (now : Civil) (body : Except StoreError (τ × Response)) :
    Except StoreError (Receipted τ Operation Digest Response × CommandResult Response) := do
  match ← receipt requestHash s.receipts caller operation request with
  | some replay => pure (s, replay)
  | none =>
      let (tables, value) ← body
      let (receipts, result) ←
        saveReceipt requestHash s.receipts caller operation request value statusCode now
      pure ({ tables, receipts }, result)

variable {requestHash}

theorem receipt_eq_some {receipts : Table (Receipt Operation Digest Response)} {caller : Caller}
    {operation : Operation} {request : Request} {result : CommandResult Response}
    (h : receipt requestHash receipts caller operation request = .ok (some result)) :
    result.replayed = true ∧
      ∃ row ∈ receipts, row.actorId = caller.actorId ∧ row.operation = operation ∧
        row.idempotencyKey = caller.idempotencyKey ∧ row.requestHash = requestHash request ∧
        row.response = result.value := by
  simp only [receipt, bind_eq_ok] at h
  obtain ⟨-, -, h⟩ := h
  split at h
  · simp at h
  · rename_i row hrow
    obtain ⟨hmem, hkey⟩ := Table.get?_eq_some.1 hrow
    split at h
    · rename_i hhash
      simp only [pure_eq_ok, Option.some.injEq] at h
      subst h
      simp only [Keyed.key, Prod.mk.injEq] at hkey
      exact ⟨rfl, row, hmem, hkey.1, hkey.2.1, hkey.2.2, hhash, rfl⟩
    · simp at h

/-- A committed command is a replay that changes nothing, or its body and a new receipt. -/
theorem command_eq_ok {s s' : Receipted τ Operation Digest Response} {caller : Caller}
    {operation : Operation} {request : Request} {statusCode : ℕ} {now : Civil}
    {body : Except StoreError (τ × Response)} {result : CommandResult Response}
    (h : command requestHash s caller operation request statusCode now body = .ok (s', result)) :
    (result.replayed = true ∧ s' = s) ∨
      (result.replayed = false ∧ (∀ row ∈ s.receipts, row ∈ s'.receipts) ∧
        body = .ok (s'.tables, result.value)) := by
  simp only [command, bind_eq_ok] at h
  obtain ⟨replay, hreplay, h⟩ := h
  cases replay with
  | some replay =>
      simp only [pure_eq_ok, Prod.mk.injEq] at h
      obtain ⟨rfl, rfl⟩ := h
      exact .inl ⟨(receipt_eq_some hreplay).1, rfl⟩
  | none =>
      simp only [bind_eq_ok, saveReceipt, orRaise_eq_ok, pure_eq_ok] at h
      obtain ⟨⟨tables, value⟩, hbody, ⟨receipts, saved⟩, ⟨inserted, hinserted, heq⟩, h⟩ := h
      simp only [Prod.mk.injEq] at heq h
      obtain ⟨rfl, rfl⟩ := h
      obtain ⟨rfl, rfl⟩ := heq
      exact .inr ⟨rfl, fun row hrow => (Table.mem_insert hinserted).2 (.inl hrow), hbody⟩

/-- A command that is not a replay files its request and its response. -/
theorem command_filed {s s' : Receipted τ Operation Digest Response} {caller : Caller}
    {operation : Operation} {request : Request} {statusCode : ℕ} {now : Civil}
    {body : Except StoreError (τ × Response)} {result : CommandResult Response}
    (h : command requestHash s caller operation request statusCode now body = .ok (s', result))
    (hnew : result.replayed = false) :
    validateKey caller.idempotencyKey = .ok () ∧
      ∃ row ∈ s'.receipts, Keyed.key row = (caller.actorId, operation, caller.idempotencyKey) ∧
        row.requestHash = requestHash request ∧ row.response = result.value := by
  simp only [command, bind_eq_ok] at h
  obtain ⟨replay, hreplay, h⟩ := h
  cases replay with
  | some replay =>
      simp only [pure_eq_ok, Prod.mk.injEq] at h
      obtain ⟨-, rfl⟩ := h
      rw [(receipt_eq_some hreplay).1] at hnew
      cases hnew
  | none =>
      simp only [receipt, bind_eq_ok] at hreplay
      obtain ⟨⟨⟩, hkey, -⟩ := hreplay
      simp only [bind_eq_ok, saveReceipt, orRaise_eq_ok, pure_eq_ok] at h
      obtain ⟨⟨tables, value⟩, -, ⟨receipts, saved⟩, ⟨inserted, hinserted, heq⟩, h⟩ := h
      simp only [Prod.mk.injEq] at heq h
      obtain ⟨rfl, rfl⟩ := h
      obtain ⟨rfl, rfl⟩ := heq
      exact ⟨hkey, _, (Table.mem_insert hinserted).2 (.inr rfl), rfl, rfl, rfl⟩

/-- A receipt answers its own request, and refuses every other one. -/
theorem receipt_of_filed {receipts : Table (Receipt Operation Digest Response)} {caller : Caller}
    {operation : Operation} {request : Request} {row : Receipt Operation Digest Response}
    (hkey : validateKey caller.idempotencyKey = .ok ()) (hrow : row ∈ receipts)
    (hfiled : Keyed.key row = (caller.actorId, operation, caller.idempotencyKey)) :
    receipt requestHash receipts caller operation request =
      if row.requestHash = requestHash request then
        .ok (some ⟨row.response, row.statusCode, true⟩)
      else .error .idempotencyConflict := by
  have hget : receipts.get? (caller.actorId, operation, caller.idempotencyKey) = some row :=
    Table.get?_eq_some.2 ⟨hrow, hfiled⟩
  rw [receipt, hkey, ok_bind, hget]
  rfl

end Receipts

end Cortex.Control
