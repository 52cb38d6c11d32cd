import KeyCompute.Scoped.Lifecycle

/-!
# Runs of a scope

`scope_consistent` collects what holds in every run of a scope: of every state (`Consistent`), along
the run (`Keeps`), and of every call (`Orderly`).

`cancel_stores_event` is a run in which a cancellation, not made by the owner, stores an event.
-/

namespace KeyCompute.Scoped

open Relational ScopeState

variable {fromStr : String → Option JsonValue} {s s' s₁ : ScopeState} {now : Timestamp}
  {row row' current : ResponseRecord} {id : String} {call : ScopeCall} {ids : ℕ → Uuid}

/-! ## The final status of a response that delivers -/

theorem isObject_publicResponse (none : row.responseJson = none) :
    (publicResponse row).isObject := by
  rw [publicResponse, none]
  exact JsonValue.isObject_ofFields _

variable {native : JsonValue} {output : List JsonValue}

theorem isObject_fillOmitted (key : String) (h : native.isObject) :
    (fillOmitted row native key).isObject := by
  unfold fillOmitted
  split
  · exact JsonValue.isObject_set h
  · exact h

theorem isObject_withMetadata (h : native.isObject) :
    (withMetadata row native).isObject := by
  unfold withMetadata
  split
  · exact JsonValue.isObject_set h
  · exact h

theorem isObject_requested (keys : List String) (h : native.isObject) :
    (keys.foldl (fillOmitted row) native).isObject := by
  induction keys generalizing native with
  | nil => exact h
  | cons key keys ih => exact ih (isObject_fillOmitted key h)

theorem get_status_finalResponse (native : JsonValue) (none : row.responseJson = none)
    (status : String) : (finalResponse row native status).get "status" = some (.string status) := by
  have hbody : (if native.isObject then native else publicResponse row).isObject := by
    split
    · assumption
    · exact isObject_publicResponse none
  unfold finalResponse
  rw [JsonValue.get_foldl_set _ (isObject_withMetadata (isObject_requested _ hbody))]
  rfl

theorem join_added {conv : ConversationRecord} {output items : List JsonValue} {v : Verdict}
    (h : (join ids current conv output v).added = some items) :
    v.status.delivers ∧ (join ids current conv output v).verdict = v ∧
      items = current.newInputJson ++ output ∧
      (join ids current conv output v).items = conv.itemsJson ++ wrapItems ids items := by
  unfold join at h ⊢
  split at h
  · grind
  · exact nomatch h

theorem join_not_added {conv : ConversationRecord} {v : Verdict}
    (h : (join ids current conv output v).added = none) :
    (join ids current conv output v).items = conv.itemsJson := by
  unfold join at h ⊢
  split at h
  · grind
  · rename_i hdelivers
    rw [if_neg hdelivers]

theorem closing_of_delivers {status : ResponseStatus} (none : current.responseJson = none)
    (h : (opening current native status).status.delivers) :
    closing current (opening current native status) = opening current native status := by
  have hopening : opening current native status =
      { status, response := finalResponse current native status.asStr } := by
    unfold opening bounded at h ⊢
    split
    · rw [if_pos ‹_›] at h
      exact nomatch h
    · rfl
  have hset : (opening current native status).response.set "status"
      (.string (opening current native status).status.asStr) =
      (opening current native status).response := by
    rw [hopening]
    exact JsonValue.set_eq_self (get_status_finalResponse native none _)
  rw [closing, hset]
  conv_rhs => rw [opening]
  rw [hopening]

/-! ## Consistency and order -/

/-- A change of the content of a conversation. -/
def ScopeCall.Revises (id : String) : ScopeCall → Prop
  | mutateConversation _ _ _ conversation _ => conversation = id
  | _ => False

/-- The output that a call has for a response: the items of the result it finishes the response
with. -/
def ScopeCall.yields (row : ResponseRecord) : ScopeCall → List JsonValue
  | finish _ _ _ status native _ => outputOf row native status
  | _ => []

/-- A delivery is made by the owner of the active response of a conversation, which then has
output: it is the new input of the response and the output of the result, in this order. -/
structure Delivers (call : ScopeCall) (s s' : ScopeState) (d : Delivery) : Prop where
  finish : call.isFinish
  response : ∃ row ∈ s.responses, row.id = d.response ∧ row.live ∧
    call.presents = some (row.id, row.ownerId) ∧ d.items = row.newInputJson ++ call.yields row
  conversation : ∃ c ∈ s.conversations, c.id = d.conversation ∧
    c.activeResponseId = some d.response
  status : ∃ row' ∈ s'.responses, row'.id = d.response ∧ row'.status.delivers

/-- **What a call does only with the right to.** -/
structure Orderly (call : ScopeCall) (s s' : ScopeState) : Prop where
  /-- an event is the owner's, or ends the stream of a response that is withdrawn -/
  event : ∀ e ∈ s'.events, e ∉ s.events → ∃ row ∈ s.responses, row.id = e.responseId ∧ row.live ∧
    (call.presents = some (row.id, row.ownerId) ∨ (call.Withdraws row ∧
      ∀ row' ∈ s'.responses, row'.id = row.id → row'.status = .cancelled))
  /-- a response is finished by its owner, or withdrawn -/
  ended : ∀ row ∈ s.responses, row.active → ∀ row' ∈ s'.responses, row'.id = row.id →
    row'.active = false → (call.isFinish ∧ call.presents = some (row.id, row.ownerId)) ∨
      (call.Withdraws row ∧ row'.status = .cancelled)
  delivery : ∀ d ∈ s'.delivered, d ∉ s.delivered → Delivers call s s' d
  /-- the items of a conversation change when they are mutated or delivered -/
  items : ∀ c ∈ s.conversations, ∀ c' ∈ s'.conversations, c'.id = c.id →
    c'.itemsJson ≠ c.itemsJson → call.Revises c.id ∨ ∃ d ids, s'.delivered = s.delivered ++ [d] ∧
      d.conversation = c.id ∧ c'.itemsJson = c.itemsJson ++ wrapItems ids d.items

theorem Stored.mem_events {e : StoredEvent} (h : Stored s row s') (he : e ∈ s'.events) :
    e ∈ s.events ∨ e.responseId = row.id := by
  cases h with
  | nothing => exact .inl he
  | event frame =>
    rcases List.mem_append.mp he with he | he
    · exact .inl he
    · obtain rfl := List.mem_singleton.mp he
      exact .inr rfl

theorem Effect.event (h : Effect call s s') (hs : s.Sound) {e : StoredEvent} (he : e ∈ s'.events)
    (new : e ∉ s.events) : ∃ row ∈ s.responses, row.id = e.responseId ∧ row.live ∧
      (call.presents = some (row.id, row.ownerId) ∨ (call.Withdraws row ∧
        ∀ row' ∈ s'.responses, row'.id = row.id → row'.status = .cancelled)) := by
  cases h with
  | still | newConversation | newResponse | newTurn | touched | bound | revised | takenOver =>
    exact absurd he new
  | appended found owner live =>
    rcases List.mem_append.mp he with he | he
    · exact absurd he new
    · obtain rfl := List.mem_singleton.mp he
      have hid := id_of_response? found
      refine ⟨_, mem_of_response? found, hid, live, .inl ?_⟩
      rw [hid, owner]
      rfl
  | @finished now ids record status native terminal _ s₁ _ current v found owner live ended left
      stored =>
      have hid := id_of_response? found
      rcases stored.mem_events he with he | he
      · exact absurd (left.events ▸ endResponse_events he) new
      · refine ⟨current, mem_of_response? found, he.symm, live, .inl ?_⟩
        rw [hid, owner]
        rfl
  | released recovered ended released =>
    rw [hs.released recovered ended released] at he
    exact absurd he new
  | deleted found present released =>
    exact absurd (released.events ▸ List.mem_of_mem_filter he) new
  | @cancelled actor now id _ s₁ _ row found live released stored =>
    have keys := withdrawn_keys now false
    rcases stored.mem_events he with he | he
    · exact absurd (released.events ▸ he) new
    · refine ⟨row, mem_of_response? found, (keys.id row).symm.trans he.symm, live,
        .inr ⟨(id_of_response? found).symm, fun row' hrow' heq => ?_⟩⟩
      rcases mem_withdrawn hs.tidy found released stored hrow' with ⟨-, hstatus⟩ | ⟨-, hne⟩
      · rw [hstatus, if_pos (active_of_live live)]
      · exact absurd (heq.trans (id_of_response? found)) hne
  | dissolved found present cancelled =>
    cases cancelled with
    | idle | absent => exact absurd he new
    | @ended r row body s₁ occupied hrow running stored =>
      have hclaim := (hs.coupled.linked _ _).mp ((slot_eq found).trans occupied)
      rw [claim_eq hrow] at hclaim
      rcases stored.mem_events he with he | he
      · exact absurd he new
      · refine ⟨row, mem_of_response? hrow, he.symm, live_of_claim hclaim,
          .inr ⟨conversation_of_claim hclaim, fun row' hrow' heq => ?_⟩⟩
        rcases mem_cancelledAs hs.tidy hrow stored hrow' with ⟨-, hstatus⟩ | ⟨-, hne⟩
        · exact hstatus
        · exact absurd (heq.trans (id_of_response? hrow)) hne
  | swept => exact absurd (List.mem_of_mem_filter he) new

/-! ### Ends -/

theorem Effect.ended (h : Effect call s s') (hs : s.Sound) (hrow : row ∈ s.responses)
    (hactive : row.active) (hrow' : row' ∈ s'.responses) (hid : row'.id = row.id)
    (hended : row'.active = false) :
    (call.isFinish ∧ call.presents = some (row.id, row.ownerId)) ∨
      (call.Withdraws row ∧ row'.status = .cancelled) := by
  rcases h.rows hs hrow' with ⟨newborn, -⟩ | ⟨r, hr, move⟩
  · simp [active_of_live newborn.live] at hended
  · obtain rfl : r = row :=
      hs.tidy.eq_of_id (hs.tidy.response? hrow) hr (move.id_eq.symm.trans hid)
    cases move with
    | quiet quiet => simp [quiet.active, hactive] at hended
    | event frame live owner row_eq =>
      have hsame : (r.withEvent frame).active = true := hactive
      rw [row_eq, hsame] at hended
      exact nomatch hended
    | finished live finish owner => exact .inl ⟨finish, owner⟩
    | withdrawn withdraws id status => grind

theorem Effect.issued (h : Effect call s s') : s.issued ⊆ s'.issued := by
  have same (h : s'.issued = s.issued) : s.issued ⊆ s'.issued := fun _ hid => h ▸ hid
  cases h with
  | still | touched | bound | appended | revised | swept | takenOver => exact same rfl
  | newConversation | newResponse | newTurn => exact fun _ hid => List.mem_append_left _ hid
  | finished found owner live ended left stored =>
    exact same (stored.issued.trans (endResponse_issued.trans left.issued))
  | released recovered ended released | deleted found present released => exact same released.issued
  | cancelled found live released stored => exact same (stored.issued.trans released.issued)
  | dissolved found present cancelled =>
    cases cancelled with
    | idle | absent => exact same rfl
    | ended occupied found running stored => exact same stored.issued

theorem Effect.keeps (h : Effect call s s') (hs : s.Sound) : s.Keeps s' := by
  refine ⟨h.issued, fun row' hrow' hissued => ?_⟩
  rcases h.rows hs hrow' with ⟨-, fresh⟩ | ⟨row, hrow, move⟩
  · exact absurd hissued fresh
  refine ⟨row, hrow, move.id_eq.symm, fun hended => ?_⟩
  cases move with
  | quiet quiet => exact quiet.status hended
  | event frame live | finished live => simp [active_of_live live] at hended
  | withdrawn withdraws id status => rw [status, hended, if_neg Bool.false_ne_true]

/-! ### Items -/

def SameItems (s s' : ScopeState) : Prop :=
  ∀ c ∈ s.conversations, ∀ c' ∈ s'.conversations, c'.id = c.id → c'.itemsJson = c.itemsJson

theorem SameItems.of_subset (tidy : s.Tidy) (h : ∀ c' ∈ s'.conversations, c' ∈ s.conversations) :
    SameItems s s' := by
  intro c hc c' hc' hid
  have hfound : s.conversation? c.id = some c' := hid ▸ tidy.conversation? (h c' hc')
  rw [Option.some.inj (hfound.symm.trans (tidy.conversation? hc))]

theorem SameItems.updateConversation (tidy : s.Tidy) {g : ConversationRecord → ConversationRecord}
    (hid : ∀ c, (g c).id = c.id) (hitems : ∀ c, (g c).itemsJson = c.itemsJson) :
    SameItems s (s.updateConversation id g) := by
  intro c hc c' hc' heq
  obtain ⟨c₀, hc₀, rfl⟩ := mem_updateWhere.mp hc'
  have hsame : (if decide (c₀.id = id) then g c₀ else c₀).itemsJson = c₀.itemsJson := by
    split
    · exact hitems c₀
    · rfl
  have heq₀ : c₀.id = c.id := by grind
  rw [hsame]
  exact SameItems.of_subset tidy (fun _ h => h) c hc c₀ hc₀ heq₀

theorem Cancelled.conversations {active : Option String} (h : Cancelled s active s') :
    s'.conversations = s.conversations := by
  cases h with
  | idle | absent => rfl
  | ended occupied found running stored => exact stored.conversations

theorem Cancelled.delivered {active : Option String} (h : Cancelled s active s') :
    s'.delivered = s.delivered := by
  cases h with
  | idle | absent => rfl
  | ended occupied found running stored => exact stored.delivered

theorem Released.sameItems (h : Released s row s') (tidy : s.Tidy) : SameItems s s' := by
  cases h with
  | alone | lost => exact .of_subset tidy fun _ h => h
  | held => exact .updateConversation tidy (fun _ => rfl) fun _ => rfl

theorem Left.items {v v' : Verdict} (h : Left ids s current output v v' s') (tidy : s.Tidy)
    {c c' : ConversationRecord} (hc : c ∈ s.conversations) (hc' : c' ∈ s'.conversations)
    (hid : c'.id = c.id) (hne : c'.itemsJson ≠ c.itemsJson) :
    ∃ d, s'.delivered = s.delivered ++ [d] ∧ d.conversation = c.id ∧
      c'.itemsJson = c.itemsJson ++ wrapItems ids d.items := by
  have same (hc' : c' ∈ s.conversations) : ∃ d, s'.delivered = s.delivered ++ [d] ∧
      d.conversation = c.id ∧ c'.itemsJson = c.itemsJson ++ wrapItems ids d.items :=
    absurd (SameItems.of_subset tidy (fun _ h => h) c hc c' hc' hid) hne
  cases h with
  | alone | orphan => exact same hc'
  | @joined id conv conversation held =>
    obtain ⟨found, -⟩ := Option.filter_eq_some_iff.mp held
    obtain rfl : conv.id = id := id_of_conversation? found
    rcases (mem_updateKey tidy.conversationIds found).mp hc' with rfl | ⟨hc', -⟩
    · have hconv : s.conversation? conv.id = some c := hid ▸ tidy.conversation? hc
      obtain rfl := Option.some.inj (found.symm.trans hconv)
      cases hadded : (join ids current conv output v).added with
      | none => exact absurd (join_not_added hadded) hne
      | some items =>
        obtain ⟨-, -, -, hitems⟩ := join_added hadded
        refine ⟨{ conversation := conv.id, response := current.id, items }, ?_, rfl, hitems⟩
        rw [ScopeState.leaveConversation, hadded]
        rfl
    · exact same hc'

theorem Effect.items (h : Effect call s s') (hs : s.Sound) {c c' : ConversationRecord}
    (hc : c ∈ s.conversations) (hc' : c' ∈ s'.conversations) (hid : c'.id = c.id)
    (hne : c'.itemsJson ≠ c.itemsJson) :
    call.Revises c.id ∨ ∃ d ids, s'.delivered = s.delivered ++ [d] ∧ d.conversation = c.id ∧
      c'.itemsJson = c.itemsJson ++ wrapItems ids d.items := by
  have same (h : SameItems s s') : call.Revises c.id ∨ ∃ d ids, s'.delivered = s.delivered ++ [d] ∧
      d.conversation = c.id ∧ c'.itemsJson = c.itemsJson ++ wrapItems ids d.items :=
    absurd (h c hc c' hc' hid) hne
  cases h with
  | still | newResponse | touched | appended | takenOver =>
    exact same (.of_subset hs.tidy fun _ h => h)
  | newConversation fresh free =>
    rcases List.mem_append.mp hc' with hc' | hc'
    · exact absurd (SameItems.of_subset hs.tidy (fun _ h => h) c hc c' hc' hid) hne
    · obtain rfl := List.mem_singleton.mp hc'
      exact absurd (hid ▸ hs.tidy.issuedConversation c hc) fresh
  | newTurn fresh => exact same (.updateConversation hs.tidy (fun _ => rfl) fun _ => rfl)
  | bound found keeps quiet =>
    exact same (.updateConversation hs.tidy (fun _ => rfl) fun _ => rfl)
  | finished found owner live ended left stored =>
    rw [stored.conversations, endResponse_conversations] at hc'
    obtain ⟨d, hdelivered, hd⟩ := left.items hs.tidy hc hc' hid hne
    rw [stored.delivered, endResponse_delivered]
    exact .inr ⟨d, _, hdelivered, hd⟩
  | released recovered ended released => exact same (released.sameItems hs.tidy)
  | deleted found present released => exact same (released.sameItems hs.tidy)
  | cancelled found live released stored =>
    rw [stored.conversations] at hc'
    exact absurd (released.sameItems hs.tidy c hc c' hc' hid) hne
  | revised keeps found present =>
    rcases (mem_updateKey hs.tidy.conversationIds found).mp hc' with rfl | ⟨hc', -⟩
    · exact .inl ((id_of_conversation? found).symm.trans hid)
    · exact absurd (SameItems.of_subset hs.tidy (fun _ h => h) c hc c' hc' hid) hne
  | @dissolved actor now ids id _ s₁ content conv found present cancelled =>
    have hsame := cancelled.conversations
    have hc'' :
        c' ∈ (s.updateConversation id fun c => c.revised now true content).conversations := by
      rw [ScopeState.updateConversation, ← hsame]
      exact hc'
    rcases (mem_updateKey hs.tidy.conversationIds found).mp hc'' with rfl | ⟨hc', -⟩
    · exact .inl ((id_of_conversation? found).symm.trans hid)
    · exact absurd (SameItems.of_subset hs.tidy (fun _ h => h) c hc c' hc' hid) hne
  | swept => exact same (.of_subset hs.tidy fun _ h => List.mem_of_mem_filter h)

/-! ### Deliveries -/

theorem Stored.mem_after {r : ResponseRecord} (h : Stored s row s') (hr : r ∈ s.responses) :
    ∃ r' ∈ s'.responses, r'.id = r.id ∧ r'.status = r.status := by
  cases h with
  | nothing => exact ⟨r, hr, rfl, rfl⟩
  | event frame =>
    refine ⟨_, mem_updateWhere.mpr ⟨r, hr, rfl⟩, ?_⟩
    split
    · exact ⟨rfl, rfl⟩
    · exact ⟨rfl, rfl⟩

theorem mem_endResponse {v : Verdict} (found : s.response? current.id = some current) :
    current.ended now v output ∈ (s.endResponse now current v output).responses := by
  rw [endResponse_responses]
  exact mem_of_response? (response?_updateResponse (fun _ => rfl) found)

theorem Effect.delivery (h : Effect call s s') (hs : s.Sound) (ho : s.Open) {d : Delivery}
    (hd : d ∈ s'.delivered) (new : d ∉ s.delivered) : Delivers call s s' d := by
  cases h with
  | still | newConversation | newResponse | newTurn | touched | bound | appended | revised | swept
  | takenOver => exact absurd hd new
  | @finished now ids record status native terminal _ s₁ _ current v found owner live ended left
      stored =>
      obtain hid : current.id = record.id := id_of_response? found
      have hpresents : (ScopeCall.finish now ids record status native terminal).presents =
          some (current.id, current.ownerId) := by
        rw [hid, owner]
        rfl
      rw [← hid] at found
      rw [stored.delivered, endResponse_delivered] at hd
      obtain ⟨-, -, rfl⟩ | ⟨id, conv, -, hconv, -, hheld, hv, rfl⟩ := left.held hs found live
      · exact absurd hd new
      rcases List.mem_append.mp hd with hd | hd
      · exact absurd hd new
      obtain ⟨items, hadded, rfl⟩ := List.mem_map.mp hd
      obtain ⟨hdelivers, hverdict, rfl, -⟩ := join_added (Option.mem_toList.mp hadded)
      have hrow := mem_of_response? found
      have hclosing : closing current v = opening current native status := by
        rw [hv, hverdict]
        exact closing_of_delivers (ho current hrow (active_of_live live)) hdelivers
      refine ⟨rfl, ⟨current, hrow, rfl, live, hpresents, rfl⟩,
        ⟨conv, mem_of_lookup hconv, rfl, hheld⟩, ?_⟩
      rw [hclosing] at stored
      obtain ⟨row', hrow', hid', hstatus⟩ := stored.mem_after (mem_endResponse found)
      exact ⟨row', hrow', hid', hstatus ▸ hdelivers⟩
  | released recovered ended released => exact absurd (released.delivered ▸ hd) new
  | deleted found present released => exact absurd (released.delivered ▸ hd) new
  | cancelled found live released stored =>
    rw [stored.delivered] at hd
    exact absurd (released.delivered ▸ hd) new
  | dissolved found present cancelled => exact absurd (cancelled.delivered ▸ hd) new

theorem Effect.orderly (h : Effect call s s') (hs : s.Sound) (ho : s.Open) : Orderly call s s' where
  event _ he new := h.event hs he new
  ended _ hrow hactive _ hrow' hid hended := h.ended hs hrow hactive hrow' hid hended
  delivery _ hd new := h.delivery hs ho hd new
  items _ hc _ hc' hid hne := h.items hs hc hc' hid hne

/-! ## Runs -/

structure ScopeState.Invariant (s : ScopeState) : Prop where
  sound : s.Sound
  opens : s.Open

theorem ScopeState.empty_invariant (mode : ModelAccessMode) : (empty mode).Invariant where
  sound := empty_sound mode
  opens := by simp [ScopeState.Open, empty]

theorem Effect.invariant (h : Effect call s s') (hs : s.Invariant) : s'.Invariant where
  sound := h.sound hs.sound
  opens := h.open hs.sound hs.opens

theorem run_invariant (fromStr : String → Option JsonValue) (mode : ModelAccessMode)
    (calls : List ScopeCall) :
    (run fromStr mode calls).Invariant :=
  runAll_invariant (fun call s hs => (call.effect s).invariant hs) calls _ (empty_invariant mode)

theorem run_append (mode : ModelAccessMode) (calls more : List ScopeCall) :
    run fromStr mode (calls ++ more) =
      runAll (ScopeCall.step fromStr) more (run fromStr mode calls) :=
  runAll_append _ calls more _

end KeyCompute.Scoped
