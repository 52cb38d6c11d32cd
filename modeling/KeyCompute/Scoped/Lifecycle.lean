import KeyCompute.Scoped.Consistency

/-!
# The life of a response

What becomes of one row in a call is one of four things (`RowMove`): it stays as it is but for
columns of its execution, it gets an event, it is finished, or it is withdrawn.  A response that
has not ended has no body yet (`Open`).
-/

namespace KeyCompute.Scoped

open Relational ScopeState ScopeState

variable {s s' s₁ : ScopeState} {now : Timestamp} {row row' current : ResponseRecord} {id : String}
  {call : ScopeCall} {f : ResponseRecord → ResponseRecord}

/-! ## Calls and owners -/

/-- The response a call acts on as an execution, with the owner identifier it presents. -/
def ScopeCall.presents : ScopeCall → Option (String × Uuid)
  | appendEvent record _ => some (record.id, record.ownerId)
  | finish _ _ record _ _ _ => some (record.id, record.ownerId)
  | _ => none

def ScopeCall.isFinish : ScopeCall → Bool
  | finish .. => true
  | _ => false

/-- A cancellation or deletion of the response or of its conversation. -/
def ScopeCall.Withdraws (row : ResponseRecord) : ScopeCall → Prop
  | cancelOrDelete _ _ id _ => id = row.id
  | mutateConversation _ _ _ id .delete => row.conversationId = some id
  | _ => False

/-! ## Rows -/

theorem ResponseRecord.Quiet.refl (row : ResponseRecord) : row.Quiet row :=
  ⟨rfl, rfl, rfl, rfl, fun _ => rfl, rfl⟩

inductive RowMove (call : ScopeCall) (row row' : ResponseRecord) : Prop
  | quiet (quiet : row.Quiet row')
  | event (frame : String) (live : row.live) (owner : call.presents = some (row.id, row.ownerId))
      (row_eq : row' = row.withEvent frame)
  | finished (live : row.live) (finish : call.isFinish)
      (owner : call.presents = some (row.id, row.ownerId)) (id : row'.id = row.id)
      (ended : row'.active = false)
  | withdrawn (withdraws : call.Withdraws row) (id : row'.id = row.id)
      (status : row'.status = if row.active then .cancelled else row.status)

theorem RowMove.id_eq (h : RowMove call row row') : row'.id = row.id := by
  cases h with
  | quiet quiet => exact quiet.id
  | event frame live owner row_eq => rw [row_eq]; rfl
  | finished live finish owner id => exact id
  | withdrawn withdraws id => exact id

/-- The rows after a terminal event: only the counters of its response have moved. -/
theorem Stored.mem (h : Stored s row s') (hrow' : row' ∈ s'.responses) :
    ∃ r ∈ s.responses, r.id = row'.id ∧ r.status = row'.status ∧ (row' = r ∨ r.id = row.id) := by
  cases h with
  | nothing => exact ⟨row', hrow', rfl, rfl, .inl rfl⟩
  | event frame =>
    obtain ⟨r, hr, rfl⟩ := mem_updateWhere.mp hrow'
    refine ⟨r, hr, ?_⟩
    split
    · exact ⟨rfl, rfl, .inr (of_decide_eq_true ‹_›)⟩
    · exact ⟨rfl, rfl, .inl rfl⟩

theorem mem_ended (tidy : s.Tidy) (found : s.response? id = some row)
    (responses : s₁.responses = updateKey ResponseRecord.id id f s.responses)
    (h : Stored s₁ current s') (hrow' : row' ∈ s'.responses) (keeps : ∀ r, (f r).id = r.id)
    (hid : current.id = id) :
    (row'.id = row.id ∧ row'.status = (f row).status) ∨ (row' ∈ s.responses ∧ row'.id ≠ id) := by
  obtain ⟨r, hr, hid', hstatus, hor⟩ := h.mem hrow'
  rw [responses] at hr
  rcases (mem_updateKey tidy.responseIds found).mp hr with rfl | ⟨hr, hne⟩
  · exact .inl ⟨hid'.symm.trans (keeps row), hstatus.symm⟩
  · rcases hor with rfl | hor
    · exact .inr ⟨hr, hne⟩
    · exact absurd (hor.trans hid) hne

theorem mem_withdrawn (tidy : s.Tidy) (found : s.response? id = some row)
    (released : Released s row s₁)
    (stored : Stored (s₁.updateResponse id fun stored => stored.withdrawn now false)
      (row.withdrawn now false) s')
    (hrow' : row' ∈ s'.responses) :
    (row'.id = row.id ∧ row'.status = if row.active then .cancelled else row.status) ∨
      (row' ∈ s.responses ∧ row'.id ≠ id) := by
  have responses : (s₁.updateResponse id fun stored => stored.withdrawn now false).responses =
      updateKey ResponseRecord.id id (fun stored => stored.withdrawn now false) s.responses := by
    rw [updateResponse, released.responses]
  have keeps := (withdrawn_keys now false).id
  have hid : (row.withdrawn now false).id = id := (keeps row).trans (id_of_response? found)
  have hrows := mem_ended tidy found responses stored hrow' keeps hid
  rwa [withdrawn_status] at hrows

theorem mem_cancelledAs (tidy : s.Tidy) (found : s.response? id = some row) {body : JsonValue}
    (stored : Stored (s.updateResponse id fun stored => stored.cancelledAs body)
      (row.cancelledAs body) s')
    (hrow' : row' ∈ s'.responses) :
    (row'.id = row.id ∧ row'.status = .cancelled) ∨ (row' ∈ s.responses ∧ row'.id ≠ id) := by
  have hid : row.id = id := id_of_response? found
  have keeps (stored : ResponseRecord) : (stored.cancelledAs body).id = stored.id := rfl
  exact mem_ended tidy found rfl stored hrow' keeps hid

/-- **What a call makes of the rows**: each is a new one or comes from an old one by a move. -/
theorem Effect.rows (h : Effect call s s') (hs : s.Sound) (hrow' : row' ∈ s'.responses) :
    (row'.Newborn ∧ row'.id ∉ s.issued) ∨ ∃ row ∈ s.responses, RowMove call row row' := by
  have same (hrow : row' ∈ s.responses) : (row'.Newborn ∧ row'.id ∉ s.issued) ∨
      ∃ row ∈ s.responses, RowMove call row row' :=
    .inr ⟨row', hrow, .quiet (.refl row')⟩
  cases h with
  | still | newConversation => exact same hrow'
  | newResponse | newTurn =>
    rcases List.mem_append.mp hrow' with hrow' | hrow'
    · exact same hrow'
    · grind
  | touched found keeps quiet | bound found keeps quiet =>
    rcases (mem_updateKey hs.tidy.responseIds found).mp hrow' with rfl | ⟨hrow', -⟩
    · exact .inr ⟨_, mem_of_response? found, .quiet quiet⟩
    · exact same hrow'
  | appended found owner live =>
    rcases (mem_updateKey hs.tidy.responseIds found).mp hrow' with rfl | ⟨hrow', -⟩
    · have hid := id_of_response? found
      refine .inr ⟨_, mem_of_response? found, .event _ live ?_ rfl⟩
      rw [hid, owner]
      rfl
    · exact same hrow'
  | @finished now ids record status native terminal _ s₁ _ current v found owner live ended left
      stored =>
      have hid := id_of_response? found
      have responses : (s₁.endResponse now current (closing current v)
          (outputOf current native status)).responses =
          updateKey ResponseRecord.id record.id
            (fun row => row.ended now (closing current v) (outputOf current native status))
            s.responses := by
        rw [endResponse_responses, updateResponse, left.responses, hid]
      rcases mem_ended hs.tidy found responses stored hrow' (fun _ => rfl) hid with
        ⟨hid', hstatus⟩ | ⟨hrow', -⟩
      · refine .inr ⟨current, mem_of_response? found, .finished live rfl ?_ hid' ?_⟩
        · rw [hid, owner]
          rfl
        · rw [ResponseRecord.active, hstatus]
          exact closing_ended (left.ended (bounded_ended ended))
      · exact same hrow'
  | released recovered ended released =>
    rw [hs.released recovered ended released] at hrow'
    exact same hrow'
  | @deleted actor now id _ s₁ row found present released =>
    have found₁ : s₁.response? id = some row := by
      rw [response?, released.responses]
      exact found
    rcases (mem_updateKey (released.tidy hs.tidy).responseIds found₁).mp hrow' with
      rfl | ⟨hrow', -⟩
    · refine .inr ⟨row, mem_of_response? found, .withdrawn (id_of_response? found).symm ?_ ?_⟩
      · exact (withdrawn_keys now true).id row
      · exact withdrawn_status row now true
    · exact same (released.responses ▸ hrow')
  | cancelled found live released stored =>
    rcases mem_withdrawn hs.tidy found released stored hrow' with ⟨hid', hstatus⟩ | ⟨hrow', -⟩
    · exact .inr ⟨_, mem_of_response? found,
        .withdrawn (id_of_response? found).symm hid' hstatus⟩
    · exact same hrow'
  | revised => exact same hrow'
  | dissolved found present cancelled =>
    cases cancelled with
    | idle | absent => exact same hrow'
    | @ended r row body s₁ occupied hrow running stored =>
      rcases mem_cancelledAs hs.tidy hrow stored hrow' with ⟨hid', hstatus⟩ | ⟨hrow', -⟩
      · have hclaim := (hs.coupled.linked _ _).mp ((slot_eq found).trans occupied)
        refine .inr ⟨row, mem_of_response? hrow, .withdrawn ?_ hid' ?_⟩
        · rw [claim_eq hrow] at hclaim
          exact conversation_of_claim hclaim
        · rw [hstatus, running]
          rfl
      · exact same hrow'
  | swept => exact same (List.mem_of_mem_filter hrow')
  | takenOver found =>
    rcases (mem_updateKey hs.tidy.responseIds found).mp hrow' with rfl | ⟨hrow', -⟩
    · exact .inr ⟨_, mem_of_response? found,
        .quiet ⟨rfl, rfl, rfl, rfl, fun _ => rfl, rfl⟩⟩
    · exact same hrow'

/-! ## Unfinished responses -/

/-- A response that has not ended has no body yet. -/
def ScopeState.Open (s : ScopeState) : Prop :=
  ∀ row ∈ s.responses, row.active → row.responseJson = none

theorem Effect.open (h : Effect call s s') (hs : s.Sound) (ho : s.Open) : s'.Open := by
  intro row' hrow' hactive
  rcases h.rows hs hrow' with ⟨newborn, -⟩ | ⟨row, hrow, move⟩
  · exact newborn.responseJson
  · cases move with
    | quiet quiet => exact quiet.responseJson.trans (ho row hrow (quiet.active ▸ hactive))
    | event frame live owner row_eq =>
      subst row_eq
      exact ho row hrow (active_of_live live)
    | finished live finish owner id ended => simp [ended] at hactive
    | withdrawn withdraws id status =>
      rw [ResponseRecord.active, status] at hactive
      split at hactive
      · cases hactive
      · exact absurd hactive ‹_›

theorem response?_updateResponse (hid : ∀ r, (f r).id = r.id)
    (found : s.response? id = some row) : (s.updateResponse id f).response? id = some (f row) := by
  rw [response?, updateResponse, lookup_updateKey hid, if_pos rfl]
  change (s.response? id).map f = _
  rw [found]
  rfl

end KeyCompute.Scoped
