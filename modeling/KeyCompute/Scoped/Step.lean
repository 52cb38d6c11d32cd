import KeyCompute.Scoped.Store

/-!
# What a call does to a scope

`Effect` lists what the state after a committed call can be, with the facts the call has checked
on the way; `ScopeCall.effect` says that there is nothing else.  Every property of the scope is
then a case analysis on `Effect`.

Three of its cases are composed.  `Left` says how a finishing response leaves its conversation,
`Stored` whether a terminal event was stored, and `Released` what `release_conversation` did.
-/

namespace KeyCompute.Scoped

open Relational ResponseRecord Tx Option

variable {fromStr : String → Option JsonValue} {s s' s₁ : ScopeState} {now : Timestamp}
  {record row current : ResponseRecord} {id : String}

/-! ## Rows -/

/-- An update that neither ends nor revives a response. -/
structure ResponseRecord.Quiet (row row' : ResponseRecord) : Prop where
  id : row'.id = row.id
  conversationId : row'.conversationId = row.conversationId
  deletedAt : row'.deletedAt = row.deletedAt
  active : row'.active = row.active
  status : row.active = false → row'.status = row.status
  responseJson : row'.responseJson = row.responseJson

/-- An update of a response that keeps what is unique. -/
structure KeepsKeys (f : ResponseRecord → ResponseRecord) : Prop where
  id : ∀ r, (f r).id = r.id
  idempotencyHash : ∀ r, (f r).idempotencyHash = r.idempotencyHash

structure ResponseRecord.Newborn (row : ResponseRecord) : Prop where
  queued : row.status = .queued
  deletedAt : row.deletedAt = none
  responseJson : row.responseJson = none

/-! ## Parts of a call -/

/-- A finishing response leaves its conversation: the verdict and the state after it. -/
inductive Left (ids : ℕ → Uuid) (s : ScopeState) (current : ResponseRecord)
    (output : List JsonValue) (v : Verdict) : Verdict → ScopeState → Prop
  | alone (conversation : current.conversationId = none) : Left ids s current output v v s
  | orphan {id : String} (conversation : current.conversationId = some id)
      (held : s.heldConversation current id = none) :
      Left ids s current output v (orphaned current) s
  | joined {id : String} {conv : ConversationRecord}
      (conversation : current.conversationId = some id)
      (held : s.heldConversation current id = some conv) :
      Left ids s current output v (join ids current conv output v).verdict
        (s.leaveConversation current conv (join ids current conv output v))

/-- The terminal event of a row is stored, or the row has none to store. -/
inductive Stored (s : ScopeState) (row : ResponseRecord) : ScopeState → Prop
  | nothing : Stored s row s
  | event (frame : String) :
      Stored s row (s.putEvent row.id row.nextSeq frame)

/-- The conversation of a response is released, if the response holds it. -/
inductive Released (s : ScopeState) (row : ResponseRecord) : ScopeState → Prop
  | alone (conversation : row.conversationId = none) : Released s row s
  | lost {id : String} (conversation : row.conversationId = some id)
      (lost : ∀ c, s.conversation? id = some c → c.activeResponseId ≠ some row.id) :
      Released s row s
  | held {id : String} {c : ConversationRecord} (conversation : row.conversationId = some id)
      (found : s.conversation? id = some c) (held : c.activeResponseId = some row.id) :
      Released s row (s.updateConversation id ConversationRecord.freed)

inductive Cancelled (s : ScopeState) (active : Option String) : ScopeState → Prop
  | idle (idle : active = none) : Cancelled s active s
  | absent {id : String} (occupied : active = some id)
      (absent : ∀ row, s.response? id = some row → row.active = false) : Cancelled s active s
  | ended {id : String} {row : ResponseRecord} {body : JsonValue} {s' : ScopeState}
      (occupied : active = some id) (found : s.response? id = some row) (running : row.active)
      (stored : Stored (s.updateResponse id fun stored => stored.cancelledAs body)
        (row.cancelledAs body) s') :
      Cancelled s active s'

/-! ## Effects -/

inductive Effect : ScopeCall → ScopeState → ScopeState → Prop
  | still {call s} : Effect call s s
  | newConversation {access now drawn ids metadataJson items s} {conv : ConversationRecord}
      (fresh : conv.id ∉ s.issued) (free : conv.activeResponseId = none)
      (present : conv.deletedAt = none) :
      Effect (.createConversation access now drawn ids metadataJson items) s
        ((s.issue conv.id).insertConversation conv)
  | newResponse {access now drawn owner spec s} {row : ResponseRecord}
      (fresh : row.id ∉ s.issued) (newborn : row.Newborn) (unique : s.collides row = false)
      (alone : row.conversationId = none) :
      Effect (.createResponse access now drawn owner spec) s
        ((s.issue row.id).insertResponse row)
  | newTurn {access now drawn owner spec s} {row : ResponseRecord} {id : String}
      {conv : ConversationRecord} (fresh : row.id ∉ s.issued) (newborn : row.Newborn)
      (unique : s.collides row = false) (turn : row.conversationId = some id)
      (found : s.conversation? id = some conv) (free : conv.activeResponseId = none)
      (present : conv.deletedAt = none) :
      Effect (.createResponse access now drawn owner spec) s
        (((s.issue row.id).insertResponse row).updateConversation id fun c => c.occupied row.id)
  | touched {call s id} {row : ResponseRecord} {f : ResponseRecord → ResponseRecord}
      (found : s.response? id = some row) (keeps : KeepsKeys f) (quiet : row.Quiet (f row)) :
      Effect call s (s.updateResponse id f)
  | bound {access now record account execution s conversation} {row : ResponseRecord}
      {f : ResponseRecord → ResponseRecord}
      (found : s.response? record.id = some row) (keeps : KeepsKeys f)
      (quiet : row.Quiet (f row)) :
      Effect (.activate access now record account execution) s
        ((s.updateConversation conversation fun c => c.boundTo account).updateResponse record.id f)
  | appended {record make s frame} {row : ResponseRecord}
      (found : s.response? record.id = some row) (owner : row.ownerId = record.ownerId)
      (live : row.live) :
      Effect (.appendEvent record make) s (s.putEvent record.id row.nextSeq frame)
  | finished {now ids record status native terminal s s₁ s'} {current : ResponseRecord}
      {v : Verdict} (found : s.response? record.id = some current)
      (owner : current.ownerId = record.ownerId) (live : current.live)
      (terminalStatus : status.active = false)
      (left : Left ids s current (outputOf current native status)
        (opening current native status) v s₁)
      (stored : Stored
        (s₁.endResponse now current (closing current v) (outputOf current native status))
        (current.endedInHand now (closing current v) (outputOf current native status)) s') :
      Effect (.finish now ids record status native terminal) s s'
  | released {n s s'} {record : ResponseRecord} (recovered : record ∈ s.recovered)
      (ended : record.active = false) (released : Released s record s') :
      Effect (.releaseRecovered n) s s'
  | deleted {actor now id s s₁} {row : ResponseRecord} (found : s.response? id = some row)
      (present : row.deletedAt = none) (released : Released s row s₁) :
      Effect (.cancelOrDelete actor now id true) s
        ((s₁.updateResponse id fun stored => stored.withdrawn now true).deleteEvents id)
  | cancelled {actor now id s s₁ s'} {row : ResponseRecord} (found : s.response? id = some row)
      (live : row.live) (released : Released s row s₁)
      (stored : Stored (s₁.updateResponse id fun stored => stored.withdrawn now false)
        (row.withdrawn now false) s') :
      Effect (.cancelOrDelete actor now id false) s s'
  | revised {actor now ids id change s content} {conv : ConversationRecord}
      (keeps : ConversationMutation.deletes change = false)
      (found : s.conversation? id = some conv) (present : conv.deletedAt = none) :
      Effect (.mutateConversation actor now ids id change) s
        (s.updateConversation id fun c => c.revised now false content)
  | dissolved {actor now ids id s s₁ content} {conv : ConversationRecord}
      (found : s.conversation? id = some conv) (present : conv.deletedAt = none)
      (cancelled : Cancelled s conv.activeResponseId s₁) :
      Effect (.mutateConversation actor now ids id .delete) s
        (s₁.updateConversation id fun c => c.revised now true content)
  | swept {now responses conversations s} {response : ResponseRecord → Bool}
      {conversation : ConversationRecord → Bool}
      (ended : ∀ row, response row → row.active = false)
      (idle : ∀ c, conversation c → c.activeResponseId = none) :
      Effect (.cleanup now responses conversations) s
        ((s.removeResponses response).removeConversations conversation)
  | takenOver {now record owner s} {row : ResponseRecord}
      (found : s.response? record.id = some row) :
      Effect (.claimRecovery now record owner) s
        { s.updateResponse record.id fun stored => stored.takenBy owner now with
          recovered := s.recovered ++ [row.takenBy owner now] }

/-! ## Inversion -/

theorem id_of_response? (h : s.response? id = some row) : row.id = id := key_of_lookup h

theorem id_of_conversation? {c : ConversationRecord} (h : s.conversation? id = some c) :
    c.id = id := key_of_lookup h

section Inversion

variable {access : Access} {deleted : Bool} {ids : ℕ → Uuid} {conv : ConversationRecord}

theorem visibleResponse_eq_ok (h : visibleResponse access now id deleted s = (.ok row, s')) :
    s.response? id = some row ∧ (deleted = false → row.deletedAt = none) ∧ s' = s := by
  simp only [visibleResponse, inv] at h
  obtain ⟨_, rfl, _, hfound, _, -, _, -, rfl, rfl⟩ := h
  obtain ⟨hrow, hguard⟩ := filter_eq_some_iff.mp hfound
  refine ⟨hrow, fun hd => ?_, rfl⟩
  simpa [hd] using (Bool.and_eq_true_iff.mp hguard).2

theorem visibleConversation_eq_ok
    (h : visibleConversation access now id deleted s = (.ok conv, s')) :
    s.conversation? id = some conv ∧ (deleted = false → conv.deletedAt = none) ∧ s' = s := by
  simp only [visibleConversation, inv] at h
  obtain ⟨_, rfl, _, hfound, _, -, _, -, rfl, rfl⟩ := h
  obtain ⟨hrow, hguard⟩ := filter_eq_some_iff.mp hfound
  refine ⟨hrow, fun hd => ?_, rfl⟩
  simpa [hd] using (Bool.and_eq_true_iff.mp hguard).2

theorem drawId_eq_ok (h : drawId id s = (.ok (), s')) : id ∉ s.issued ∧ s' = s.issue id := by
  simp only [drawId, inv] at h
  obtain ⟨_, rfl, _, fresh, rfl⟩ := h
  exact ⟨fresh, rfl⟩

theorem storeEvent_eq_ok {owner : Uuid} {seq : ℕ} {frame : String} {u : Unit}
    (h : storeEvent id owner seq frame s = (.ok u, s')) : s' = s.putEvent id seq frame := by
  simp only [storeEvent, inv] at h
  obtain ⟨_, -, _, -, _, -, _, -, rfl⟩ := h
  rfl

theorem terminalEvent_eq_ok {raw : Option String} {out : ResponseRecord × Option String}
    (h : terminalEvent fromStr row raw s = (.ok out, s')) : Stored s row s' := by
  unfold terminalEvent at h
  split at h
  · cases h
    exact .nothing
  · simp only [inv] at h
    obtain ⟨frame, -, h⟩ := h
    split at h
    · cases h
      exact .nothing
    · simp only [inv] at h
      obtain ⟨_, -, _, _, hstore, -, rfl⟩ := h
      rw [storeEvent_eq_ok hstore]
      exact .event frame

theorem leaveWith_eq_ok {output : List JsonValue} {v v' : Verdict}
    (h : leaveWith ids current output v s = (.ok v', s')) : Left ids s current output v v' s' := by
  unfold leaveWith at h
  cases hconv : current.conversationId with
  | none =>
    rw [hconv] at h
    cases h
    exact .alone hconv
  | some id =>
    simp only [hconv, inv] at h
    obtain ⟨held, hheld, h⟩ := h
    cases held with
    | none =>
      cases h
      exact .orphan hconv hheld
    | some conv =>
      simp only [inv] at h
      obtain ⟨_, _, rfl, rfl, rfl⟩ := h
      exact .joined hconv hheld

theorem releaseConversation_eq_ok {u : Unit}
    (h : releaseConversation row s = (.ok u, s')) : Released s row s' := by
  unfold releaseConversation at h
  cases hconv : row.conversationId with
  | none =>
    rw [hconv] at h
    cases h
    exact .alone hconv
  | some id =>
    simp only [hconv, inv] at h
    obtain ⟨held, hheld, h⟩ := h
    cases held with
    | true =>
      rw [if_pos rfl] at h
      obtain ⟨c, found, hc⟩ := (any_eq_true _ _).mp hheld
      obtain rfl := modify_eq_ok.mp h
      exact .held hconv found (of_decide_eq_true hc)
    | false =>
      cases h
      refine .lost hconv fun c found hc => ?_
      simp [found, hc] at hheld

theorem cancelActive_eq_ok {active : Option String} {u : Unit}
    (h : cancelActive fromStr active s = (.ok u, s')) : Cancelled s active s' := by
  unfold cancelActive at h
  cases active with
  | none =>
    cases h
    exact .idle rfl
  | some id =>
    simp only [inv] at h
    obtain ⟨found, hfound, h⟩ := h
    cases found with
    | none =>
      cases h
      refine .absent rfl fun row hrow => ?_
      simpa [hrow, Option.filter] using hfound
    | some row =>
      obtain ⟨hrow, hactive⟩ := Option.filter_eq_some_iff.mp hfound
      simp only [inv] at h
      obtain ⟨_, _, rfl, _, _, hevent, -, rfl⟩ := h
      exact .ended rfl hrow hactive (terminalEvent_eq_ok hevent)

end Inversion

/-! ## The effect of each call -/

section Effects

variable {access : Access} {ids : ℕ → Uuid} {u : Unit}

variable {call : ScopeCall} {conv : ConversationRecord} {actor : Actor}

theorem createConversation_effect {drawn : Uuid} {metadataJson : JsonValue} {items : List JsonValue}
    (h : createConversation access now drawn ids metadataJson items s = (.ok conv, s')) :
    Effect (.createConversation access now drawn ids metadataJson items) s s' := by
  simp only [createConversation, inv] at h
  obtain ⟨_, -, _, -, _, -, _, -, _, -, _, -, _, _, hdraw, _, _, rfl, rfl, rfl⟩ := h
  obtain ⟨fresh, rfl⟩ := drawId_eq_ok hdraw
  exact .newConversation fresh rfl rfl

theorem previousContext_state {model : String} {previous : Option String} {context : Context}
    (h : previousContext access now model previous s = (.ok context, s')) : s' = s := by
  cases previous with
  | none => exact (pure_eq_ok.mp h).2.symm
  | some id =>
    simp only [previousContext, inv] at h
    obtain ⟨parent, _, hvisible, _, -, _, -, -, rfl⟩ := h
    exact (visibleResponse_eq_ok hvisible).2.2

theorem conversationContext_eq_ok {context context' : Context} {conversation : Option String}
    (h : conversationContext access now context conversation s = (.ok context', s')) :
    s' = s ∧ ∀ id, conversation = some id → ∃ conv, s.conversation? id = some conv ∧
      conv.activeResponseId = none ∧ conv.deletedAt = none := by
  cases conversation with
  | none => exact ⟨(pure_eq_ok.mp h).2.symm, fun _ hid => nomatch hid⟩
  | some id =>
    simp only [conversationContext, inv] at h
    obtain ⟨conv, _, hvisible, _, hfree, -, rfl⟩ := h
    obtain ⟨found, present, rfl⟩ := visibleConversation_eq_ok hvisible
    refine ⟨rfl, fun id' hid => ?_⟩
    cases hid
    exact ⟨conv, found, by simpa using hfree, present rfl⟩

theorem createFresh_effect {drawn owner : Uuid} {spec : NewResponse}
    (h : createFresh access now drawn owner spec s = (.ok row, s')) :
    Effect (.createResponse access now drawn owner spec) s s' := by
  simp only [createFresh, inv] at h
  obtain ⟨_, -, _, -, _, -, _, -, _, -, _, _,
    hprevious, context, _, hconversation, _, -, _, -, _, _, hdraw, _, rfl, _, hunique, _, _, rfl, _,
      _, hoccupy, -, rfl⟩ := h
  rw [previousContext_state hprevious] at hconversation
  obtain ⟨rfl, hfree⟩ := conversationContext_eq_ok hconversation
  obtain ⟨fresh, rfl⟩ := drawId_eq_ok hdraw
  have unique := Bool.eq_false_iff.mpr fun hc => hunique (.inl hc)
  cases hspec : spec.conversation with
  | none =>
    rw [hspec] at hoccupy
    obtain ⟨-, rfl⟩ := pure_eq_ok.mp hoccupy
    exact .newResponse fresh ⟨rfl, rfl, rfl⟩ unique hspec
  | some id =>
    obtain ⟨conv, found, free, present⟩ := hfree id hspec
    simp only [hspec, occupyConversation, inv] at hoccupy
    obtain ⟨_, -, _, -, rfl⟩ := hoccupy
    exact .newTurn fresh ⟨rfl, rfl, rfl⟩ unique hspec found free present

theorem createResponse_effect {drawn owner : Uuid} {spec : NewResponse}
    {out : ResponseRecord × Bool}
    (h : createResponse access now drawn owner spec s = (.ok out, s')) :
    Effect (.createResponse access now drawn owner spec) s s' := by
  simp only [createResponse, inv] at h
  obtain ⟨_, -, existing, -, h⟩ := h
  cases existing with
  | some row =>
    simp only [inv] at h
    obtain ⟨_, -, _, -, _, -, _, -, -, rfl⟩ := h
    exact .still
  | none => grind [bind_eq_ok, pure_eq_ok, createFresh_effect]

theorem activate_effect {account : Option Uuid} {execution : JsonValue}
    (h : activate access now record account execution s = (.ok u, s')) :
    Effect (.activate access now record account execution) s s' := by
  simp only [activate, inv] at h
  obtain ⟨_, -, current, _, hvisible, _, hqueued, _, -, _, -, _, -, _, -, _, _, hbind, rfl⟩ := h
  obtain ⟨found, -, rfl⟩ := visibleResponse_eq_ok hvisible
  push Not at hqueued
  have queued : current.status = .queued := hqueued.2.1
  have quiet : current.Quiet
      { current with
        status := .inProgress, accountId := account, executionJson := some execution
        heartbeatAt := now, revision := current.revision + 1 } :=
    { id := rfl, conversationId := rfl, deletedAt := rfl
      active := by simp [active, queued, ResponseStatus.active]
      status := fun ended => by simp [active, queued, ResponseStatus.active] at ended
      responseJson := rfl }
  cases hconv : record.conversationId with
  | none =>
    rw [hconv] at hbind
    obtain ⟨-, rfl⟩ := pure_eq_ok.mp hbind
    exact .touched found ⟨fun _ => rfl, fun _ => rfl⟩ quiet
  | some id =>
    simp only [hconv, bindConversation, inv] at hbind
    obtain ⟨conv, _, hvisible', _, -, rfl⟩ := hbind
    obtain ⟨-, -, rfl⟩ := visibleConversation_eq_ok hvisible'
    exact .bound found ⟨fun _ => rfl, fun _ => rfl⟩ quiet

theorem updateOwned_effect {guard : ResponseRecord → Bool} {f : ResponseRecord → ResponseRecord}
    {updated : Bool} (h : updateOwned id guard f s = (.ok updated, s')) (keeps : KeepsKeys f)
    (quiet : ∀ r, Quiet r (f r)) : Effect call s s' := by
  simp only [updateOwned, inv] at h
  obtain ⟨found, hfound, h⟩ := h
  cases found with
  | false =>
    cases h
    exact .still
  | true =>
    obtain ⟨row, hrow, -⟩ := (any_eq_true _ _).mp hfound
    simp only [if_true, inv] at h
    obtain ⟨_, _, rfl, -, rfl⟩ := h
    exact .touched hrow keeps (quiet row)

theorem ResponseRecord.quiet_execution (row : ResponseRecord) (execution : Option JsonValue)
    (heartbeat : Timestamp) :
    row.Quiet { row with executionJson := execution, heartbeatAt := heartbeat } :=
  ⟨rfl, rfl, rfl, rfl, fun _ => rfl, rfl⟩

theorem running_effect {updated : Bool} (h : running now record s = (.ok updated, s')) :
    Effect call s s' :=
  updateOwned_effect h ⟨fun _ => rfl, fun _ => rfl⟩ fun row =>
    row.quiet_execution row.executionJson now

theorem recordExecution_effect {result : JsonValue} {updated : Bool}
    (h : recordExecution record result s = (.ok updated, s')) : Effect call s s' := by
  simp only [recordExecution, inv] at h
  obtain ⟨_, -, h⟩ := h
  exact updateOwned_effect h ⟨fun _ => rfl, fun _ => rfl⟩ fun row =>
    row.quiet_execution _ row.heartbeatAt

theorem accountingSecured_effect (h : accountingSecured record s = (.ok u, s')) :
    Effect call s s' := by
  simp only [accountingSecured, inv] at h
  obtain ⟨_, _, h, -, rfl⟩ := h
  exact updateOwned_effect h ⟨fun _ => rfl, fun _ => rfl⟩ fun row =>
    row.quiet_execution _ row.heartbeatAt

theorem appendEvent_effect {make : ℕ → Except ApiError String} {frame : String}
    (h : appendEvent record false make s = (.ok frame, s')) :
    Effect (.appendEvent record make) s s' := by
  simp only [appendEvent, inv] at h
  obtain ⟨_, rfl, row, hfound, _, hactive, frame, -, _, -, _, _, hstore, -, rfl⟩ := h
  obtain ⟨found, hguard⟩ := filter_eq_some_iff.mp hfound
  simp only [Bool.and_eq_true, decide_eq_true_eq] at hguard
  rw [storeEvent_eq_ok hstore]
  have live : row.live := by
    simp only [live, Bool.and_eq_true]
    exact ⟨not_not.mp hactive, hguard.2⟩
  exact .appended found hguard.1 live

theorem finishAndEvent_effect {status : ResponseStatus} {native : JsonValue}
    {terminal : Option String} {out : ResponseRecord × Option String}
    (h : finishAndEvent fromStr now ids record status native terminal s = (.ok out, s')) :
    Effect (.finish now ids record status native terminal) s s' := by
  simp only [finishAndEvent, inv] at h
  obtain ⟨_, hstatus, _, rfl, current, hfound, h⟩ := h
  obtain ⟨found, hguard⟩ := filter_eq_some_iff.mp hfound
  split at h
  · cases h
    exact .still
  · rename_i hlive
    simp only [inv] at h
    obtain ⟨left, _, hleft, _, _, rfl, hterminal⟩ := h
    exact .finished found (of_decide_eq_true hguard) (not_not.mp hlive) (by simpa using hstatus)
      (leaveWith_eq_ok hleft) (terminalEvent_eq_ok hterminal)

theorem releaseRecovered_effect {n : ℕ} (h : releaseRecovered n s = (.ok u, s')) :
    Effect (.releaseRecovered n) s s' := by
  simp only [releaseRecovered, inv] at h
  obtain ⟨record, hrecord, h⟩ := h
  cases record with
  | none =>
    cases h
    exact .still
  | some record =>
    dsimp only at h
    split at h
    · cases h
      exact .still
    · rename_i hended
      exact .released (List.mem_of_getElem? hrecord) (by simpa using hended)
        (releaseConversation_eq_ok h)

theorem Actor.response_eq_ok {deleted : Bool}
    (h : actor.response now id deleted s = (.ok row, s')) :
    s.response? id = some row ∧ s' = s := by
  cases actor with
  | user access =>
    simp only [Actor.response, inv] at h
    obtain ⟨_, -, h⟩ := h
    obtain ⟨found, -, rfl⟩ := visibleResponse_eq_ok h
    exact ⟨found, rfl⟩
  | admin authority expiry expectedRevision =>
    simp only [Actor.response, inv] at h
    obtain ⟨_, -, _, rfl, _, hfound, _, -, rfl, rfl⟩ := h
    exact ⟨(filter_eq_some_iff.mp hfound).1, rfl⟩

theorem Actor.conversation_eq_ok {deleted : Bool}
    (h : actor.conversation now id deleted s = (.ok conv, s')) :
    s.conversation? id = some conv ∧ s' = s := by
  cases actor with
  | user access =>
    simp only [Actor.conversation, inv] at h
    obtain ⟨_, -, h⟩ := h
    obtain ⟨found, -, rfl⟩ := visibleConversation_eq_ok h
    exact ⟨found, rfl⟩
  | admin authority expiry expectedRevision =>
    simp only [Actor.conversation, inv] at h
    obtain ⟨_, -, _, rfl, _, hfound, _, -, rfl, rfl⟩ := h
    exact ⟨(filter_eq_some_iff.mp hfound).1, rfl⟩

theorem cancelOrDelete_effect {delete : Bool} {out : ResponseRecord × Bool}
    (h : cancelOrDelete fromStr actor now id delete s = (.ok out, s')) :
    Effect (.cancelOrDelete actor now id delete) s s' := by
  simp only [cancelOrDelete, inv] at h
  obtain ⟨row, _, hrow, _, _, h, _, -, -, rfl⟩ := h
  obtain ⟨found, rfl⟩ := Actor.response_eq_ok hrow
  have hid : row.id = id := id_of_response? found
  subst hid
  unfold cancelOrDeleteRecord at h
  split at h
  · cases h
    exact .still
  rename_i hpresent
  have present : row.deletedAt = none := by simpa using hpresent
  simp only [inv] at h
  obtain ⟨_, -, _, -, h⟩ := h
  split at h
  · cases h
    exact .still
  rename_i hchange
  simp only [inv] at h
  obtain ⟨_, _, hrelease, _, _, rfl, h⟩ := h
  have released := releaseConversation_eq_ok hrelease
  cases delete with
  | true =>
    simp only [if_true, inv] at h
    obtain ⟨_, _, rfl, -, rfl⟩ := h
    exact .deleted found present released
  | false =>
    simp only [Bool.false_eq_true, if_false, inv] at h
    obtain ⟨_, _, hevent, -, rfl⟩ := h
    have live : row.live := by
      simp only [live, Bool.and_eq_true, present]
      exact ⟨by simpa using hchange, rfl⟩
    exact .cancelled found live released (terminalEvent_eq_ok hevent)

theorem mutated_eq_ok {change : ConversationMutation} {content : JsonValue × List JsonValue}
    (keeps : change.deletes = false) (h : mutated fromStr ids conv change s = (.ok content, s')) :
    s' = s := by
  cases change with
  | metadata value =>
    simp only [mutated, inv] at h
    obtain ⟨_, -, -, rfl⟩ := h
    rfl
  | append items => simp_all [mutated, bind_eq_ok, lift_eq_ok, failIf_eq_ok, pure_eq_ok]
  | removeItem itemId => exact (pure_eq_ok.mp h).2.symm
  | delete => simp [ConversationMutation.deletes] at keeps

theorem mutateConversation_effect {change : ConversationMutation}
    (h : mutateConversation fromStr actor now ids id change s = (.ok u, s')) :
    Effect (.mutateConversation actor now ids id change) s s' := by
  simp only [mutateConversation, inv] at h
  obtain ⟨conv, _, hconv, _, _, h, -, rfl⟩ := h
  obtain ⟨found, rfl⟩ := Actor.conversation_eq_ok hconv
  have hid : conv.id = id := id_of_conversation? found
  subst hid
  unfold mutateConversationRecord at h
  split at h
  · cases h
    exact .still
  rename_i hpresent
  have present : conv.deletedAt = none := by simpa using hpresent
  simp only [inv] at h
  obtain ⟨_, -, content, _, hmutated, rfl⟩ := h
  cases hdeletes : change.deletes with
  | false =>
    rw [mutated_eq_ok hdeletes hmutated]
    exact .revised hdeletes found present
  | true =>
    cases change with
    | delete =>
      simp only [mutated, inv] at hmutated
      obtain ⟨_, _, hcancel, -, rfl⟩ := hmutated
      exact .dissolved found present (cancelActive_eq_ok hcancel)
    | _ => simp [ConversationMutation.deletes] at hdeletes

theorem cleanup_effect {responses conversations : List String}
    (h : cleanup now responses conversations s = (.ok u, s')) :
    Effect (.cleanup now responses conversations) s s' := by
  simp only [cleanup, inv] at h
  obtain ⟨_, _, rfl, rfl⟩ := h
  apply Effect.swept
  · intro row hrow
    simp only [sweepable, Bool.and_eq_true, Bool.not_eq_true'] at hrow
    exact hrow.1.2
  · intro c hc
    simp only [ConversationRecord.sweepable, Bool.and_eq_true, isNone_iff_eq_none] at hc
    exact hc.2

theorem claimRecovery_effect {owner : Uuid} {out : Option ResponseRecord}
    (h : claimRecovery now record owner s = (.ok out, s')) :
    Effect (.claimRecovery now record owner) s s' := by
  simp only [claimRecovery, inv] at h
  obtain ⟨found, hfound, h⟩ := h
  cases found with
  | none =>
    cases h
    exact .still
  | some row =>
    simp only [inv] at h
    obtain ⟨_, _, rfl, _, _, rfl, -, rfl⟩ := h
    exact .takenOver (filter_eq_some_iff.mp hfound).1

theorem effect_of_discarded {α : Type} {x : Op α}
    (heffect : ∀ a, x s = (.ok a, s') → Effect call s s')
    (h : (do let _ ← x; pure PUnit.unit : Op Unit) s = (.ok u, s')) : Effect call s s' := by
  simp only [inv] at h
  obtain ⟨a, _, hx, -, rfl⟩ := h
  exact heffect a hx

end Effects

theorem ScopeCall.body_effect {call : ScopeCall} {u : Unit}
    (h : call.body fromStr s = (.ok u, s')) : Effect call s s' := by
  cases call with
  | createConversation => exact effect_of_discarded (fun _ => createConversation_effect) h
  | createResponse => exact effect_of_discarded (fun _ => createResponse_effect) h
  | activate => exact activate_effect h
  | running => exact effect_of_discarded (fun _ => running_effect) h
  | recordExecution => exact effect_of_discarded (fun _ => recordExecution_effect) h
  | accountingSecured => exact accountingSecured_effect h
  | appendEvent => exact effect_of_discarded (fun _ => appendEvent_effect) h
  | finish => exact effect_of_discarded (fun _ => finishAndEvent_effect) h
  | releaseRecovered => exact releaseRecovered_effect h
  | cancelOrDelete => exact effect_of_discarded (fun _ => cancelOrDelete_effect) h
  | mutateConversation => exact mutateConversation_effect h
  | cleanup => exact cleanup_effect h
  | claimRecovery => exact effect_of_discarded (fun _ => claimRecovery_effect) h

theorem ScopeCall.effect (call : ScopeCall) (s : ScopeState) :
    Effect call s (call.step fromStr s) :=
  atomically_rel .still fun _ _ h => ScopeCall.body_effect h

end KeyCompute.Scoped
