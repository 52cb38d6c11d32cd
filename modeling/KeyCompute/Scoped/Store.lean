import KeyCompute.Relational.Transaction
import KeyCompute.Relational.Link
import KeyCompute.Scoped.Event

/-!
# The store of managed responses

The operations of `store.rs` on one scope.  Each runs under the scope's advisory lock, or is a
single statement, so it is one transaction body `Op`.  A failed statement leaves the state as a call
that was not made.

Arguments are the time `now`, the identifiers drawn by `Uuid::new_v4`, and the answers of the
authorization queries.  A resource identifier that was drawn before is refused.

Three columns of `ScopeState` are not in the database: `issued` are the resource identifiers drawn
so far, `delivered` the items that finished responses added to conversations, and `recovered` the
rows the recovery scan has taken over.
-/

namespace KeyCompute.Scoped

open Relational

/-! ## State -/

/-- Items a finished response added to its conversation. -/
structure Delivery where
  conversation : String
  response : String
  items : List JsonValue

structure ScopeState where
  mode : ModelAccessMode
  responses : List ResponseRecord
  conversations : List ConversationRecord
  events : List StoredEvent
  issued : List String
  delivered : List Delivery
  recovered : List ResponseRecord

def ResponseRecord.withEvent (row : ResponseRecord) (frame : String) : ResponseRecord :=
  { row with nextSeq := row.nextSeq + 1, eventBytes := row.eventBytes + frame.utf8ByteSize }

namespace ScopeState

def empty (mode : ModelAccessMode) : ScopeState :=
  { mode, responses := [], conversations := [], events := [], issued := [], delivered := []
    recovered := [] }

def response? (s : ScopeState) (id : String) : Option ResponseRecord :=
  lookup ResponseRecord.id id s.responses

def conversation? (s : ScopeState) (id : String) : Option ConversationRecord :=
  lookup ConversationRecord.id id s.conversations

/-! ### Statements -/

def updateResponse (s : ScopeState) (id : String) (f : ResponseRecord → ResponseRecord) :
    ScopeState :=
  { s with responses := updateKey ResponseRecord.id id f s.responses }

def updateConversation (s : ScopeState) (id : String)
    (f : ConversationRecord → ConversationRecord) : ScopeState :=
  { s with conversations := updateKey ConversationRecord.id id f s.conversations }

def insertResponse (s : ScopeState) (row : ResponseRecord) : ScopeState :=
  { s with responses := s.responses ++ [row] }

def insertConversation (s : ScopeState) (row : ConversationRecord) : ScopeState :=
  { s with conversations := s.conversations ++ [row] }

/-- `DELETE FROM scoped_response_events WHERE response_id = …`. -/
def deleteEvents (s : ScopeState) (id : String) : ScopeState :=
  { s with events := s.events.filter fun e => e.responseId ≠ id }

/-- An event after the last one of its response, with the counters of the row. -/
def putEvent (s : ScopeState) (id : String) (seq : ℕ) (frame : String) : ScopeState :=
  { s.updateResponse id fun row => row.withEvent frame with
    events := s.events ++ [{ responseId := id, seq, frame }] }

def issue (s : ScopeState) (id : String) : ScopeState := { s with issued := s.issued ++ [id] }

end ScopeState

abbrev Op (α : Type) : Type := Tx ScopeState ApiError α

/-! ## Access -/

structure Access where
  /-- tenant, user and membership are active -/
  member : Bool
  /-- the account may serve this tenant -/
  account : Uuid → Bool

def checkScope (access : Access) : Except ApiError Unit :=
  if access.member then .ok () else .error missing

def checkAccount (mode : ModelAccessMode) (access : Access) (account : Option Uuid) :
    Except ApiError Unit :=
  match checkScope access with
  | .error e => .error e
  | .ok () =>
    match mode, account with
    | .passthrough, some id => if access.account id then .ok () else .error missing
    | _, _ => .ok ()

/-- `response`: a row that a caller may see. -/
def visibleResponse (access : Access) (now : Timestamp) (id : String) (deleted : Bool) :
    Op ResponseRecord := do
  let found ← Tx.read fun s => (s.response? id).filter fun row =>
    row.expiresAt > now && (deleted || row.deletedAt.isNone)
  let row ← Tx.okOr found missing
  let mode ← Tx.read ScopeState.mode
  Tx.lift (checkAccount mode access row.accountId)
  pure row

/-- `conversation`: a row that a caller may see. -/
def visibleConversation (access : Access) (now : Timestamp) (id : String) (deleted : Bool) :
    Op ConversationRecord := do
  let found ← Tx.read fun s => (s.conversation? id).filter fun row =>
    row.expiresAt > now && (deleted || row.deletedAt.isNone)
  let row ← Tx.okOr found missing
  let mode ← Tx.read ScopeState.mode
  Tx.lift (checkAccount mode access row.accountId)
  pure row

def drawId (id : String) : Op Unit := do
  let issued ← Tx.read ScopeState.issued
  Tx.failIf (id ∈ issued) storage
  Tx.modify fun s => s.issue id

/-! ## Events -/

/-- The two statements that store an event: the row has to be owned, and the sequence number
free. -/
def storeEvent (id : String) (owner : Uuid) (seq : ℕ) (frame : String) : Op Unit := do
  let row ← Tx.read fun s => s.response? id
  Tx.failIf (row.all fun row => row.ownerId ≠ owner)
    (.conflict "Response event ownership changed")
  let taken ← Tx.read fun s => s.events.any fun e => e.responseId = id && e.seq = seq
  Tx.failIf taken storage
  Tx.modify fun s => s.putEvent id seq frame

def appendEvent (record : ResponseRecord) (terminal : Bool) (make : ℕ → Except ApiError String) :
    Op String := do
  let found ← Tx.read fun s => (s.response? record.id).filter fun row =>
    row.ownerId = record.ownerId && row.deletedAt.isNone
  let current ← Tx.okOr found missing
  Tx.failIf (¬ current.active) (.conflict "Response event stream is closed")
  let frame ← Tx.lift (make current.nextSeq)
  Tx.failIf
    (frame.utf8ByteSize > maxEventBytes ∨
      current.nextSeq ≥ maxStreamEvents - (if terminal then 0 else 1) ∨
      current.eventBytes + frame.utf8ByteSize >
        maxResponseBytes - (if terminal then 0 else maxEventBytes))
    (.provider "Managed response event storage limit reached")
  storeEvent record.id record.ownerId current.nextSeq frame
  pure frame

/-- `terminal_event`.  The row is the one the caller has in hand, which it gets back with its
counters moved. -/
def terminalEvent (fromStr : String → Option JsonValue) (row : ResponseRecord)
    (raw : Option String) : Op (ResponseRecord × Option String) :=
  if ¬ row.stream ∨ row.deletedAt.isSome then pure (row, none)
  else do
    let frame ← Tx.lift (terminalFrame fromStr row raw)
    if ¬ row.retained then pure (row, some frame)
    else do
      Tx.failIf
        (frame.utf8ByteSize > maxEventBytes ∨ row.nextSeq ≥ maxStreamEvents ∨
          row.eventBytes + frame.utf8ByteSize > maxResponseBytes)
        (.provider "Managed terminal event exceeds its reserved storage budget")
      storeEvent row.id row.ownerId row.nextSeq frame
      pure (row.withEvent frame, some frame)

/-! ## Creation -/

def createConversation (access : Access) (now : Timestamp) (drawn : Uuid) (ids : ℕ → Uuid)
    (metadataJson : JsonValue) (items : List JsonValue) : Op ConversationRecord := do
  Tx.failIf (items.length > 20) (.badRequest "Add at most 20 conversation items per request")
  Tx.lift (checkHistory items)
  Tx.lift (checkScope access)
  let count ← Tx.read fun s => (s.conversations.filter fun row =>
    row.deletedAt.isNone && row.expiresAt > now).length
  Tx.failIf (count ≥ maxConversations)
    (.rateLimit "Conversation storage quota reached; delete unused conversations")
  Tx.failIf (¬ metadataJson.isObject) storage
  let id := "conv_" ++ drawn.simple
  drawId id
  let row : ConversationRecord :=
    { id, accountId := none, model := none, metadataJson, itemsJson := wrapItems ids items
      activeResponseId := none, revision := 1, expiresAt := now + seconds storedTtl
      deletedAt := none }
  Tx.modify fun s => s.insertConversation row
  pure row

structure NewResponse where
  requestId : Uuid
  body : JsonValue
  model : String
  input : List JsonValue
  previous : Option String
  conversation : Option String
  background : Bool
  store : Bool
  stream : Bool
  deadlineSecs : ℤ
  idempotencyHash : Option String
  requestHash : String

structure Context where
  input : List JsonValue
  account : Option Uuid
  model : String

def previousContext (access : Access) (now : Timestamp) (model : String) :
    Option String → Op Context
  | none => pure { input := [], account := none, model }
  | some id => do
    let parent ← visibleResponse access now id false
    Tx.failIf (¬ parent.retained) missing
    Tx.failIf (¬ parent.status.delivers) (.conflict "The previous response has not completed")
    pure
      { input := parent.inputJson ++ parent.outputJson, account := parent.accountId
        model := if model = "" then parent.model else model }

/-- The context of a conversation, which has to be free. -/
def conversationContext (access : Access) (now : Timestamp) (context : Context) :
    Option String → Op Context
  | none => pure context
  | some id => do
    let conv ← visibleConversation access now id false
    Tx.failIf (conv.activeResponseId.isSome) (.conflict "Conversation has an active response")
    pure
      { input := context.input ++ itemBodies conv.itemsJson, account := conv.accountId
        model := if context.model = "" then conv.model.getD "" else context.model }

def NewResponse.row (spec : NewResponse) (now : Timestamp) (id : String) (owner : Uuid)
    (context : Context) (input : List JsonValue) : ResponseRecord :=
  { id, accountId := context.account, model := context.model, requestId := spec.requestId
    ownerId := owner, status := .queued, background := spec.background
    storeResponse := spec.store, stream := spec.stream, requestJson := spec.body
    inputJson := input, newInputJson := spec.input, outputJson := [], responseJson := none
    executionJson := none, previousId := spec.previous, conversationId := spec.conversation
    idempotencyHash := spec.idempotencyHash, requestHash := spec.requestHash, nextSeq := 0
    eventBytes := 0, revision := 1, createdAt := now, heartbeatAt := now
    deadlineAt := now + seconds spec.deadlineSecs
    expiresAt := now + seconds (if spec.store then storedTtl else tempTtl + spec.deadlineSecs)
    deletedAt := none }

/-- The unique indexes a new row has to respect. -/
def ScopeState.collides (s : ScopeState) (row : ResponseRecord) : Bool :=
  s.responses.any fun other => other.requestId = row.requestId ||
    (row.idempotencyHash.isSome && other.idempotencyHash = row.idempotencyHash)

def ConversationRecord.occupied (c : ConversationRecord) (response : String) :
    ConversationRecord :=
  { c with activeResponseId := some response, revision := c.revision + 1 }

/-- `UPDATE … SET active_response_id = … WHERE active_response_id IS NULL`. -/
def occupyConversation (response : String) : Option String → Op Unit
  | none => pure ()
  | some id => do
    let free ← Tx.read fun s => (s.conversation? id).any fun c => c.activeResponseId.isNone
    Tx.failIf (¬ free) (.conflict "Conversation execution ownership changed")
    Tx.modify fun s => s.updateConversation id fun c => c.occupied response

/-- The rest of `create_response`, when the key is new. -/
def createFresh (access : Access) (now : Timestamp) (drawn owner : Uuid) (spec : NewResponse) :
    Op ResponseRecord := do
  let active ← Tx.read fun s => (s.responses.filter ResponseRecord.live).length
  let retained ← Tx.read fun s => (s.responses.filter fun row =>
    row.deletedAt.isNone && row.expiresAt > now).length
  Tx.failIf (retained ≥ maxRetainedResponses)
    (.rateLimit "Response storage quota reached; delete unused responses")
  Tx.failIf (active ≥ 32)
    (.rateLimit "At most 32 managed responses may be active for this user and mode")
  Tx.failIf (spec.previous.isSome ∧ spec.conversation.isSome)
    (.badRequest "previous_response_id and conversation are mutually exclusive")
  let context ← previousContext access now spec.model spec.previous
  let context ← conversationContext access now context spec.conversation
  Tx.failIf (Text.trim context.model = "") (.badRequest "model is required")
  let input := context.input ++ spec.input
  Tx.lift (checkHistory input)
  let id := "resp_" ++ drawn.simple
  drawId id
  let row := spec.row now id owner context input
  let collides ← Tx.read fun s => s.collides row
  Tx.failIf (collides ∨ ¬ spec.body.isObject) storage
  Tx.modify fun s => s.insertResponse row
  occupyConversation id spec.conversation
  pure row

/-- `create_response`, with whether the response is new. -/
def createResponse (access : Access) (now : Timestamp) (drawn owner : Uuid) (spec : NewResponse) :
    Op (ResponseRecord × Bool) := do
  Tx.lift (checkScope access)
  let existing ← Tx.read fun s => s.responses.find? fun row =>
    spec.idempotencyHash.isSome && row.idempotencyHash = spec.idempotencyHash
  match existing with
  | some row => do
    Tx.failIf (row.requestHash ≠ spec.requestHash)
      (.conflict "Idempotency-Key was already used with a different request")
    let mode ← Tx.read ScopeState.mode
    Tx.lift (checkAccount mode access row.accountId)
    Tx.failIf (row.deletedAt.isSome ∨ row.expiresAt ≤ now) missing
    pure (row, false)
  | none => do
    let row ← createFresh access now drawn owner spec
    pure (row, true)

/-! ## Execution -/

def ConversationRecord.boundTo (c : ConversationRecord) (account : Option Uuid) :
    ConversationRecord :=
  { c with accountId := account }

/-- The conversation of an execution takes the execution's account. -/
def bindConversation (access : Access) (now : Timestamp) (record : ResponseRecord)
    (account : Option Uuid) : Option String → Op Unit
  | none => pure ()
  | some id => do
    let conv ← visibleConversation access now id false
    Tx.failIf
      (conv.activeResponseId ≠ some record.id ∨
        (conv.accountId.isSome ∧ conv.accountId ≠ account))
      (.conflict "Conversation execution target changed")
    Tx.modify fun s => s.updateConversation id fun c => c.boundTo account

def activate (access : Access) (now : Timestamp) (record : ResponseRecord)
    (account : Option Uuid) (execution : JsonValue) : Op Unit := do
  Tx.lift (checkScope access)
  let current ← visibleResponse access now record.id false
  Tx.failIf
    (current.ownerId ≠ record.ownerId ∨ current.status ≠ .queued ∨ current.deadlineAt ≤ now)
    (.conflict "Response is no longer queued for this execution")
  Tx.failIf (current.accountId.isSome ∧ current.accountId ≠ account)
    (.conflict "Continuation must use the originally authorized account")
  let mode ← Tx.read ScopeState.mode
  Tx.failIf (mode = .passthrough ∧ account.isNone) (.internal "Missing scoped account target")
  Tx.lift (checkAccount mode access account)
  bindConversation access now record account record.conversationId
  Tx.modify fun s => s.updateResponse record.id fun row =>
    { row with
      status := .inProgress, accountId := account, executionJson := some execution
      heartbeatAt := now, revision := row.revision + 1 }

/-- A single statement on the row with the given identifier, if the row meets the guard. -/
def updateOwned (id : String) (guard : ResponseRecord → Bool)
    (f : ResponseRecord → ResponseRecord) : Op Bool := do
  let found ← Tx.read fun s => (s.response? id).any guard
  if found then do
    Tx.modify fun s => s.updateResponse id f
    pure true
  else pure false

/-- `running`: the heartbeat of an execution. -/
def running (now : Timestamp) (record : ResponseRecord) : Op Bool :=
  updateOwned record.id
    (fun row => row.ownerId = record.ownerId && row.live && row.deadlineAt > now)
    fun row => { row with heartbeatAt := now }

def recordExecution (record : ResponseRecord) (result : JsonValue) : Op Bool := do
  Tx.failIf (result.size > maxResponseBytes) (.provider "Managed response exceeds the 8 MiB limit")
  updateOwned record.id
    (fun row => row.ownerId = record.ownerId && (row.active || row.status = .cancelled))
    fun row => { row with
      executionJson := some ((row.executionJson.getD (.object [])).concat
        (if row.deletedAt.isNone then result else result.remove "native_result")) }

def accountingSecured (record : ResponseRecord) : Op Unit := do
  let updated ← updateOwned record.id (fun row => row.ownerId = record.ownerId)
    fun row => { row with
      executionJson := some ((row.executionJson.getD (.object [])).concat
        (.object [("accounting_pending", .bool false)])) }
  Tx.failIf (¬ updated) (.conflict "Execution ownership changed during reconciliation")

/-! ## Finishing -/

structure Verdict where
  status : ResponseStatus
  response : JsonValue

/-- A body beyond the storage limit becomes an error. -/
def bounded (current : ResponseRecord) (v : Verdict) : Verdict :=
  if v.response.size > maxResponseBytes then
    { status := .failed
      response := errorResponse current "response_limit"
        "Response exceeded the platform storage limit" }
  else v

def opening (current : ResponseRecord) (native : JsonValue) (status : ResponseStatus) : Verdict :=
  bounded current { status, response := finalResponse current native status.asStr }

def outputOf (current : ResponseRecord) (native : JsonValue) (status : ResponseStatus) :
    List JsonValue :=
  ((finalResponse current native status.asStr).getArray "output").getD []

/-- What becomes of the conversation of a finished response. -/
structure Joined where
  verdict : Verdict
  /-- the items it has from now on -/
  items : List JsonValue
  /-- the items the response added -/
  added : Option (List JsonValue)

/-- The finished response joins the conversation it holds.  A response that has output adds its
new input and its output, unless the conversation would grow too large. -/
def join (ids : ℕ → Uuid) (current : ResponseRecord) (conv : ConversationRecord)
    (output : List JsonValue) (v : Verdict) : Joined :=
  if v.status.delivers then
    match checkHistory (itemBodies conv.itemsJson ++ (current.newInputJson ++ output)) with
    | .error _ =>
      { verdict :=
          { status := .failed
            response := errorResponse current "context_limit"
              "Conversation history limit reached; no items were appended" }
        items := conv.itemsJson, added := none }
    | .ok () =>
      { verdict := v
        items := conv.itemsJson ++ wrapItems ids (current.newInputJson ++ output)
        added := some (current.newInputJson ++ output) }
  else { verdict := v, items := conv.itemsJson, added := none }

/-- The verdict on a response that has lost its conversation. -/
def orphaned (current : ResponseRecord) : Verdict :=
  { status := .cancelled
    response := finalResponse current (publicResponse current) "cancelled" }

def ScopeState.heldConversation (s : ScopeState) (row : ResponseRecord) (id : String) :
    Option ConversationRecord :=
  (s.conversation? id).filter fun c => c.deletedAt.isNone && c.activeResponseId = some row.id

def ConversationRecord.left (c : ConversationRecord) (model : String) (items : List JsonValue) :
    ConversationRecord :=
  { c with
    itemsJson := items, activeResponseId := none, model := some model, revision := c.revision + 1 }

def ScopeState.leaveConversation (s : ScopeState) (current : ResponseRecord)
    (conv : ConversationRecord) (joined : Joined) : ScopeState :=
  { s.updateConversation conv.id fun c => c.left current.model joined.items with
    delivered := s.delivered ++ joined.added.toList.map fun items =>
      { conversation := conv.id, response := current.id, items } }

/-- The conversation's part of `finish_and_event`. -/
def leaveWith (ids : ℕ → Uuid) (current : ResponseRecord) (output : List JsonValue)
    (v : Verdict) : Op Verdict :=
  match current.conversationId with
  | none => pure v
  | some id => do
    let held ← Tx.read fun s => s.heldConversation current id
    match held with
    | none => pure (orphaned current)
    | some conv => do
      let joined := join ids current conv output v
      Tx.modify fun s => s.leaveConversation current conv joined
      pure joined.verdict

def closing (current : ResponseRecord) (v : Verdict) : Verdict :=
  bounded current
    { v with response := v.response.set "status" (.string v.status.asStr) }

/-- The row of a finished response.  A response that is not retained keeps no content. -/
def ResponseRecord.ended (row : ResponseRecord) (now : Timestamp) (v : Verdict)
    (output : List JsonValue) : ResponseRecord :=
  { row with
    status := v.status
    outputJson := if row.retained ∧ v.status.delivers then output else []
    responseJson := if row.retained then some v.response else none
    requestJson := if row.retained then row.requestJson else .object []
    inputJson := if row.retained then row.inputJson else []
    newInputJson := if row.retained then row.newInputJson else []
    executionJson := if row.retained then row.executionJson else none
    revision := row.revision + 1
    expiresAt := now + seconds (if row.storeResponse then storedTtl else tempTtl) }

/-- The response's part of `finish_and_event`. -/
def ScopeState.endResponse (s : ScopeState) (now : Timestamp) (current : ResponseRecord)
    (v : Verdict) (output : List JsonValue) : ScopeState :=
  let s := s.updateResponse current.id fun row => row.ended now v output
  if current.retained then s else s.deleteEvents current.id

/-- The row the terminal event is made from: a response that is not retained keeps its body in
hand only. -/
def ResponseRecord.endedInHand (row : ResponseRecord) (now : Timestamp) (v : Verdict)
    (output : List JsonValue) : ResponseRecord :=
  { row.ended now v output with responseJson := some v.response }

def finishAndEvent (fromStr : String → Option JsonValue) (now : Timestamp) (ids : ℕ → Uuid)
    (record : ResponseRecord) (status : ResponseStatus) (native : JsonValue)
    (terminal : Option String) : Op (ResponseRecord × Option String) := do
  Tx.failIf status.active (.internal "Invalid managed-response terminal state")
  let found ← Tx.read fun s => (s.response? record.id).filter fun row =>
    row.ownerId = record.ownerId
  let current ← Tx.okOr found missing
  if ¬ current.live then pure (current, none)
  else do
    let output := outputOf current native status
    let left ← leaveWith ids current output (opening current native status)
    let verdict := closing current left
    Tx.modify fun s => s.endResponse now current verdict output
    terminalEvent fromStr (current.endedInHand now verdict output) terminal

def ConversationRecord.freed (c : ConversationRecord) : ConversationRecord :=
  { c with activeResponseId := none, revision := c.revision + 1 }

def releaseConversation (record : ResponseRecord) : Op Unit :=
  match record.conversationId with
  | none => pure ()
  | some id => do
    let held ← Tx.read fun s => (s.conversation? id).any fun c =>
      c.activeResponseId = some record.id
    if held then
      Tx.modify fun s => s.updateConversation id ConversationRecord.freed
    else pure ()

/-! ## Cancellation and deletion -/

def ResponseRecord.cancelledBody (row : ResponseRecord) : ResponseRecord :=
  let row := { row with status := .cancelled }
  { row with responseJson := some (finalResponse row (publicResponse row) "cancelled") }

def ResponseRecord.stopped (row : ResponseRecord) : ResponseRecord :=
  if row.active then row.cancelledBody else row

def ResponseRecord.erased (row : ResponseRecord) (now : Timestamp) : ResponseRecord :=
  { row with
    responseJson := none, deletedAt := some now, requestJson := .object [], inputJson := []
    newInputJson := [], outputJson := []
    executionJson := row.executionJson.map (·.remove "native_result") }

/-- The row that `cancel_or_delete_record` stores. -/
def ResponseRecord.withdrawn (row : ResponseRecord) (now : Timestamp) (delete : Bool) :
    ResponseRecord :=
  { if delete then row.stopped.erased now else row.stopped with revision := row.revision + 1 }

/-- `cancel_or_delete_record`, with whether the response was active. -/
def cancelOrDeleteRecord (fromStr : String → Option JsonValue) (now : Timestamp)
    (row : ResponseRecord) (delete : Bool) : Op (ResponseRecord × Bool) :=
  if row.deletedAt.isSome then pure (row, false)
  else do
    Tx.failIf (¬ row.retained) missing
    Tx.failIf (¬ delete ∧ ¬ row.background)
      (.badRequest "Only background Responses can be cancelled through this endpoint")
    if ¬ delete ∧ ¬ row.active then pure (row, false)
    else do
      releaseConversation row
      Tx.modify fun s => s.updateResponse row.id fun stored => stored.withdrawn now delete
      if delete then do
        Tx.modify fun s => s.deleteEvents row.id
        pure (row.withdrawn now delete, row.active)
      else do
        let ended ← terminalEvent fromStr (row.withdrawn now delete) none
        pure (ended.1, row.active)

/-- Who asks for a change: the owner of the scope, or an administrator whose console session is
checked before and after and who names the revision of the row. -/
inductive Actor where
  | user (access : Access)
  | admin (authority expiry : Except ApiError Unit) (expectedRevision : ℕ)

def Actor.response (now : Timestamp) (id : String) (deleted : Bool) : Actor → Op ResponseRecord
  | user access => do
    Tx.lift (checkScope access)
    visibleResponse access now id deleted
  | admin authority _ expectedRevision => do
    Tx.lift authority
    let found ← Tx.read fun s => (s.response? id).filter fun row =>
      row.retained && row.expiresAt > now && (deleted || row.deletedAt.isNone)
    let row ← Tx.okOr found missing
    Tx.failIf (expectedRevision ≠ row.revision)
      (.conflict "Response revision changed; reload before retrying")
    pure row

def Actor.conversation (now : Timestamp) (id : String) (deleted : Bool) :
    Actor → Op ConversationRecord
  | user access => do
    Tx.lift (checkScope access)
    visibleConversation access now id deleted
  | admin authority _ expectedRevision => do
    Tx.lift authority
    let found ← Tx.read fun s => (s.conversation? id).filter fun row =>
      row.expiresAt > now && (deleted || row.deletedAt.isNone)
    let row ← Tx.okOr found missing
    Tx.failIf (expectedRevision ≠ row.revision)
      (.conflict "Conversation revision changed; reload before retrying")
    pure row

/-- The check of the session before the commit. -/
def Actor.close : Actor → Except ApiError Unit
  | user _ => .ok ()
  | admin _ expiry _ => expiry

/-- `cancel_or_delete` and `admin_cancel_or_delete_response`. -/
def cancelOrDelete (fromStr : String → Option JsonValue) (actor : Actor) (now : Timestamp)
    (id : String) (delete : Bool) : Op (ResponseRecord × Bool) := do
  let row ← actor.response now id delete
  let updated ← cancelOrDeleteRecord fromStr now row delete
  Tx.lift actor.close
  pure updated

inductive ConversationMutation where
  | metadata (value : JsonValue)
  | append (items : List JsonValue)
  | removeItem (itemId : String)
  | delete

def ResponseRecord.cancelledAs (row : ResponseRecord) (body : JsonValue) : ResponseRecord :=
  { row with status := .cancelled, responseJson := some body, revision := row.revision + 1 }

def cancelActive (fromStr : String → Option JsonValue) (active : Option String) : Op Unit :=
  match active with
  | none => pure ()
  | some id => do
    let found ← Tx.read fun s => (s.response? id).filter ResponseRecord.active
    match found with
    | none => pure ()
    | some row => do
      let body := finalResponse row (publicResponse row) "cancelled"
      Tx.modify fun s => s.updateResponse id fun stored => stored.cancelledAs body
      let _ ← terminalEvent fromStr (row.cancelledAs body) none
      pure ()

def mutated (fromStr : String → Option JsonValue) (ids : ℕ → Uuid) (row : ConversationRecord) :
    ConversationMutation → Op (JsonValue × List JsonValue)
  | .metadata value => do
    let checked ← Tx.lift (metadata (some value))
    pure (checked, row.itemsJson)
  | .append items => do
    Tx.failIf (items.length > 20) (.badRequest "Add at most 20 items")
    let all := row.itemsJson ++ wrapItems ids items
    Tx.lift (checkHistory (itemBodies all))
    pure (row.metadataJson, all)
  | .removeItem itemId =>
    pure (row.metadataJson, row.itemsJson.filter fun item => item.getStr "id" ≠ some itemId)
  | .delete => do
    cancelActive fromStr row.activeResponseId
    pure (.object [], [])

def ConversationMutation.deletes : ConversationMutation → Bool
  | delete => true
  | _ => false

def ConversationRecord.revised (c : ConversationRecord) (now : Timestamp) (delete : Bool)
    (content : JsonValue × List JsonValue) : ConversationRecord :=
  { c with
    metadataJson := content.1, itemsJson := content.2
    deletedAt := if delete then some now else c.deletedAt
    activeResponseId := if delete then none else c.activeResponseId
    revision := c.revision + 1, expiresAt := now + seconds storedTtl }

def mutateConversationRecord (fromStr : String → Option JsonValue) (now : Timestamp)
    (ids : ℕ → Uuid) (row : ConversationRecord) (change : ConversationMutation) : Op Unit :=
  if row.deletedAt.isSome then pure ()
  else do
    Tx.failIf (row.activeResponseId.isSome ∧ ¬ change.deletes)
      (.conflict "Conversation has an active response; retry after it finishes")
    let content ← mutated fromStr ids row change
    Tx.modify fun s => s.updateConversation row.id fun c => c.revised now change.deletes content

/-- `mutate_conversation` and `admin_mutate_conversation`. -/
def mutateConversation (fromStr : String → Option JsonValue) (actor : Actor) (now : Timestamp)
    (ids : ℕ → Uuid) (id : String) (change : ConversationMutation) : Op Unit := do
  let row ← actor.conversation now id change.deletes
  mutateConversationRecord fromStr now ids row change
  Tx.lift actor.close

/-! ## Maintenance -/

/-- A response that `cleanup` may remove. -/
def ResponseRecord.sweepable (now : Timestamp) (picked : List String) (row : ResponseRecord) :
    Bool :=
  decide (row.id ∈ picked) && decide (row.expiresAt ≤ now) && !row.active && !row.accountingPending

/-- A conversation that `cleanup` may remove. -/
def ConversationRecord.sweepable (now : Timestamp) (picked : List String)
    (row : ConversationRecord) : Bool :=
  decide (row.id ∈ picked) && decide (row.expiresAt ≤ now) && row.activeResponseId.isNone

def ScopeState.removeResponses (s : ScopeState) (gone : ResponseRecord → Bool) : ScopeState :=
  { s with
    responses := s.responses.filter fun row => !gone row
    events := s.events.filter fun e => !(s.response? e.responseId).any gone }

def ScopeState.removeConversations (s : ScopeState) (gone : ConversationRecord → Bool) :
    ScopeState :=
  { s with conversations := s.conversations.filter fun row => !gone row }

/-- `cleanup`.  The two statements take at most 64 rows each, of any scope; the arguments are the
rows of this scope among them. -/
def cleanup (now : Timestamp) (responses conversations : List String) : Op Unit := do
  Tx.modify fun s => s.removeResponses (ResponseRecord.sweepable now responses)
  Tx.modify fun s => s.removeConversations (ConversationRecord.sweepable now conversations)

def ResponseRecord.takenBy (row : ResponseRecord) (owner : Uuid) (now : Timestamp) :
    ResponseRecord :=
  { row with ownerId := owner, heartbeatAt := now, revision := row.revision + 1 }

/-- `claim_recovery`: a stale execution passes to a new owner. -/
def claimRecovery (now : Timestamp) (record : ResponseRecord) (owner : Uuid) :
    Op (Option ResponseRecord) := do
  let found ← Tx.read fun s => (s.response? record.id).filter fun row =>
    row.ownerId = record.ownerId && decide (row.heartbeatAt < now - seconds 60) &&
      (row.active || row.accountingPending)
  match found with
  | none => pure none
  | some row => do
    Tx.modify fun s => s.updateResponse record.id fun stored => stored.takenBy owner now
    Tx.modify fun s => { s with recovered := s.recovered ++ [row.takenBy owner now] }
    pure (some (row.takenBy owner now))

/-- The end of `recover` for a response it found finished: its conversation is released. -/
def releaseRecovered (n : ℕ) : Op Unit := do
  let record ← Tx.read fun s => s.recovered[n]?
  match record with
  | none => pure ()
  | some record => if record.active then pure () else releaseConversation record

/-! ## Calls -/

/-- A call on a scope, with what the environment answers. -/
inductive ScopeCall where
  | createConversation (access : Access) (now : Timestamp) (drawn : Uuid) (ids : ℕ → Uuid)
      (metadataJson : JsonValue) (items : List JsonValue)
  | createResponse (access : Access) (now : Timestamp) (drawn owner : Uuid) (spec : NewResponse)
  | activate (access : Access) (now : Timestamp) (record : ResponseRecord)
      (account : Option Uuid) (execution : JsonValue)
  | running (now : Timestamp) (record : ResponseRecord)
  | recordExecution (record : ResponseRecord) (result : JsonValue)
  | accountingSecured (record : ResponseRecord)
  /-- both callers of `append_event` pass `terminal = false` -/
  | appendEvent (record : ResponseRecord) (make : ℕ → Except ApiError String)
  | finish (now : Timestamp) (ids : ℕ → Uuid) (record : ResponseRecord) (status : ResponseStatus)
      (native : JsonValue) (terminal : Option String)
  | releaseRecovered (n : ℕ)
  | cancelOrDelete (actor : Actor) (now : Timestamp) (id : String) (delete : Bool)
  | mutateConversation (actor : Actor) (now : Timestamp) (ids : ℕ → Uuid) (id : String)
      (change : ConversationMutation)
  | cleanup (now : Timestamp) (responses conversations : List String)
  | claimRecovery (now : Timestamp) (record : ResponseRecord) (owner : Uuid)

def ScopeCall.body (fromStr : String → Option JsonValue) : ScopeCall → Op Unit
  | createConversation access now drawn ids metadataJson items => do
    let _ ← Scoped.createConversation access now drawn ids metadataJson items
  | createResponse access now drawn owner spec => do
    let _ ← Scoped.createResponse access now drawn owner spec
  | activate access now record account execution =>
    Scoped.activate access now record account execution
  | running now record => do
    let _ ← Scoped.running now record
  | recordExecution record result => do
    let _ ← Scoped.recordExecution record result
  | accountingSecured record => Scoped.accountingSecured record
  | appendEvent record make => do
    let _ ← Scoped.appendEvent record false make
  | finish now ids record status native terminal => do
    let _ ← finishAndEvent fromStr now ids record status native terminal
  | releaseRecovered n => Scoped.releaseRecovered n
  | cancelOrDelete actor now id delete => do
    let _ ← Scoped.cancelOrDelete fromStr actor now id delete
  | mutateConversation actor now ids id change =>
    Scoped.mutateConversation fromStr actor now ids id change
  | cleanup now responses conversations => Scoped.cleanup now responses conversations
  | claimRecovery now record owner => do
    let _ ← Scoped.claimRecovery now record owner

def ScopeCall.step (fromStr : String → Option JsonValue) (call : ScopeCall) (s : ScopeState) :
    ScopeState :=
  (atomically (call.body fromStr) s).2

def run (fromStr : String → Option JsonValue) (mode : ModelAccessMode) (calls : List ScopeCall) :
    ScopeState :=
  runAll (ScopeCall.step fromStr) calls (ScopeState.empty mode)

end KeyCompute.Scoped
