import KeyCompute.Window.Expiry
import KeyCompute.Database.Value

/-!
# The token window, as it is meant

A token limiter remembers how many tokens every request reserved or used and until when that counts.
The ideal limiter is a map from identifiers to such records: it drops nothing, sees the records that
expire later than the present time, and adds their tokens up whenever it needs the sum.  An
operation answers from what is seen and writes at most two entries (`TokenOp.ideal`).
-/

namespace KeyCompute.RateLimit

open Window
open scoped Uuid

inductive TokenRecordKind where
  | reserved
  | terminal
  deriving DecidableEq

structure TokenRecord where
  tokens : ℕ
  expiresAt : ℕ
  kind : TokenRecordKind
  deriving DecidableEq

open TokenRecord

inductive TokenReservationOutcome where
  | reserved
  | limitExceeded
  | alreadyTerminal
  | predictionMismatch (existingTokens : ℕ)
  deriving DecidableEq

inductive TokenReservationRenewalOutcome where
  | renewed
  | missing
  | alreadyTerminal
  | predictionMismatch (existingTokens : ℕ)
  deriving DecidableEq

def isTerminal (record : Option TokenRecord) : Bool := record.any (·.kind = .terminal)

def isReserved (record : Option TokenRecord) : Bool := record.any (·.kind = .reserved)

/-- The operations on the window of one key, each at its time. -/
inductive TokenOp where
  | reserve (reservationId terminalId : Uuid) (tokens limit now window : ℕ)
  | renew (reservationId terminalId : Uuid) (tokens now window : ℕ) (restoreMissing : Bool)
  | reconcile (reservationId terminalId : Uuid) (tokens now : ℕ) (remainingHorizon : Option ℕ)
  | release (requestId : Uuid) (now : ℕ)
  | prune (now : ℕ)
  | insert (requestId : Uuid) (tokens : ℕ) (kind : TokenRecordKind) (now remainingHorizon : ℕ)
  | total (now : ℕ)

def TokenOp.now : TokenOp → ℕ
  | reserve _ _ _ _ now _ => now
  | renew _ _ _ now _ _ => now
  | reconcile _ _ _ now _ => now
  | release _ now => now
  | prune now => now
  | insert _ _ _ now _ => now
  | total now => now

def TokenOp.tokens : TokenOp → ℕ
  | reserve _ _ tokens _ _ _ => tokens
  | renew _ _ tokens _ _ _ => tokens
  | reconcile _ _ tokens _ _ => tokens
  | insert _ tokens _ _ _ => tokens
  | _ => 0

/-- The operation writes a record under an identifier without looking at what is there. -/
def TokenOp.insertsAt (id : Uuid) : TokenOp → Bool
  | insert requestId _ _ _ _ => requestId = id
  | _ => false

inductive TokenAnswer where
  | reservation (outcome : TokenReservationOutcome)
  | renewal (outcome : TokenReservationRenewalOutcome)
  | reconciled (recorded : Bool)
  | count (tokens : ℕ)
  | done
  deriving DecidableEq

abbrev TokenMap := Uuid → Option TokenRecord

abbrev seenAt (now : ℕ) (records : TokenMap) : TokenMap := alive expiresAt now records

abbrev TokenWrite := Uuid × Option TokenRecord

def written (records : TokenMap) (writes : List TokenWrite) : TokenMap :=
  writes.foldl (fun m write => Function.update m write.1 write.2) records

noncomputable def tokensOf (records : TokenMap) : ℕ := weight tokens records

section Ideal

variable (checkedAdd : ℕ → ℕ → Option ℕ)

/-- The end of a span; a sum that leaves the clock's range ends at once. -/
def expiryAt (now span : ℕ) : ℕ := (checkedAdd now span).getD now

/-- A terminal record is written unless another record stands under its identifier, or its
horizon has passed. -/
def idealTerminal (seen : TokenMap) (removed : List TokenWrite) (terminalId : Uuid)
    (tokens now : ℕ) (remainingHorizon : Option ℕ) : TokenAnswer × List TokenWrite :=
  match written seen removed terminalId with
  | some record => (.reconciled (record.kind = .terminal), removed)
  | none =>
    match remainingHorizon.filter (· ≠ 0) with
    | none => (.reconciled true, removed)
    | some horizon => (.reconciled true,
        removed ++ [(terminalId, some ⟨tokens, expiryAt checkedAdd now horizon, .terminal⟩)])

/-- **What an operation answers and writes**, in view of the records that count. -/
noncomputable def TokenOp.ideal (seen : TokenMap) : TokenOp → TokenAnswer × List TokenWrite
  | reserve reservationId terminalId tokens limit now window =>
    if isTerminal (seen terminalId) then (.reservation .alreadyTerminal, [])
    else
      match seen reservationId with
      | some existing =>
        if existing.kind = .terminal then (.reservation .alreadyTerminal, [])
        else if existing.tokens = tokens then (.reservation .reserved, [])
        else (.reservation (.predictionMismatch existing.tokens), [])
      | none =>
        if tokensOf seen + tokens > limit then (.reservation .limitExceeded, [])
        else (.reservation .reserved,
          [(reservationId, some ⟨tokens, expiryAt checkedAdd now window, .reserved⟩)])
  | renew reservationId terminalId tokens now window restoreMissing =>
    if isTerminal (seen terminalId) then (.renewal .alreadyTerminal, [])
    else
      match seen reservationId with
      | some existing =>
        if existing.kind = .terminal then (.renewal .alreadyTerminal, [])
        else if existing.tokens = tokens then (.renewal .renewed,
          [(reservationId, some ⟨tokens, expiryAt checkedAdd now window, .reserved⟩)])
        else (.renewal (.predictionMismatch existing.tokens), [])
      | none =>
        if restoreMissing then (.renewal .renewed,
          [(reservationId, some ⟨tokens, expiryAt checkedAdd now window, .reserved⟩)])
        else (.renewal .missing, [])
  | reconcile reservationId terminalId tokens now remainingHorizon =>
    -- the reservation goes first, so that it does not stand against its own terminal record
    idealTerminal checkedAdd seen
      (if isReserved (seen reservationId) then [(reservationId, none)] else [])
      terminalId tokens now remainingHorizon
  | release requestId _ =>
    (.done, if isReserved (seen requestId) then [(requestId, none)] else [])
  | prune _ => (.done, [])
  | insert requestId tokens kind now remainingHorizon =>
    (.done, [(requestId, some ⟨tokens, expiryAt checkedAdd now remainingHorizon, kind⟩)])
  | total _ => (.count (tokensOf seen), [])

noncomputable def idealAnswer (op : TokenOp) (records : TokenMap) : TokenAnswer :=
  (op.ideal checkedAdd (seenAt op.now records)).1

noncomputable def idealStep (op : TokenOp) (records : TokenMap) : TokenMap :=
  written records (op.ideal checkedAdd (seenAt op.now records)).2

end Ideal

@[simp] theorem tokensOf_none : tokensOf (fun _ => none) = 0 := weight_none

theorem tokensOf_update (records : TokenMap) (id : Uuid) (value : Option TokenRecord) :
    tokensOf (Function.update records id value) + (records id).elim 0 tokens =
      tokensOf records + value.elim 0 tokens :=
  weight_update id value

theorem tokensOf_update_le (records : TokenMap) (id : Uuid) (value : Option TokenRecord) :
    tokensOf (Function.update records id value) ≤
      tokensOf records + value.elim 0 tokens := by
  have := tokensOf_update records id value
  omega

theorem tokensOf_seenAt_le (now : ℕ) (records : TokenMap) :
    tokensOf (seenAt now records) ≤ tokensOf records := weight_alive_le

@[simp] theorem written_nil (records : TokenMap) : written records [] = records := rfl

theorem written_append (records : TokenMap) (first second : List TokenWrite) :
    written records (first ++ second) = written (written records first) second := by
  simp [written]

theorem Agree.written {now : ℕ} {records records' : TokenMap} (writes : List TokenWrite)
    (h : Agree expiresAt now records records') :
    Agree expiresAt now (written records writes) (written records' writes) := by
  induction writes generalizing records records' with
  | nil => exact h
  | cons write rest ih => exact ih (h.update write.1 write.2)

end KeyCompute.RateLimit
