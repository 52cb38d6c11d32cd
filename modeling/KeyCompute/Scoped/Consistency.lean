import KeyCompute.Scoped.Step

/-!
# Consistency of a scope

`Sound` is the invariant of a scope.

* **Rows** (`Tidy`): identifiers are unique and were drawn once, and so are idempotency keys.
* **Link**: a conversation's active response and the live responses' conversations are partial
  inverses of each other, and each call is a move of `Relational.Linked`.
* **Ledger**: a response that has delivered its items, or that recovery has seen finished, has
  ended, and what has ended stays so (`Keeps`).
-/

namespace KeyCompute.Scoped

open Relational ResponseRecord ScopeState List Option
open Function (update)

variable {fromStr : String → Option JsonValue} {s s' s₁ s₂ : ScopeState} {now : Timestamp}
  {record row current : ResponseRecord} {id : String} {call : ScopeCall}

namespace ScopeState

/-- The active response of each conversation. -/
def slot (s : ScopeState) : String → Option String :=
  column ConversationRecord.id ConversationRecord.activeResponseId s.conversations

/-- The conversation that each live response claims. -/
def claim (s : ScopeState) : String → Option String :=
  column ResponseRecord.id ResponseRecord.claim s.responses

/-- The response has ended, whether or not its row is still there. -/
def Ended (s : ScopeState) (id : String) : Prop :=
  id ∈ s.issued ∧ ∀ row ∈ s.responses, row.id = id → row.active = false

/-! ## What stays -/

/-- Terminal statuses stay, and no row comes back. -/
structure Keeps (s s' : ScopeState) : Prop where
  issued : s.issued ⊆ s'.issued
  rows : ∀ row' ∈ s'.responses, row'.id ∈ s.issued →
    ∃ row ∈ s.responses, row.id = row'.id ∧ (row.active = false → row'.status = row.status)

namespace Keeps

theorem refl (s : ScopeState) : s.Keeps s :=
  ⟨fun _ h => h, fun row hrow _ => ⟨row, hrow, rfl, fun _ => rfl⟩⟩

theorem trans (h : s.Keeps s₁) (h' : s₁.Keeps s') : s.Keeps s' := by
  refine ⟨fun _ hid => h'.issued (h.issued hid), fun row'' hrow'' hid => ?_⟩
  obtain ⟨row', hrow', heq', hstatus'⟩ := h'.rows row'' hrow'' (h.issued hid)
  obtain ⟨row, hrow, heq, hstatus⟩ := h.rows row' hrow' (heq' ▸ hid)
  refine ⟨row, hrow, heq.trans heq', fun hended => ?_⟩
  have hsame : row'.status = row.status := hstatus hended
  have hended' : row'.active = false := by
    rw [active, hsame]
    exact hended
  exact (hstatus' hended').trans hsame

theorem of_same (issued : s'.issued = s.issued) (responses : s'.responses = s.responses) :
    s.Keeps s' := by
  refine ⟨fun _ h => issued ▸ h, fun row hrow _ => ⟨row, responses ▸ hrow, rfl, fun _ => rfl⟩⟩

theorem ended (h : s.Keeps s') (hended : s.Ended id) : s'.Ended id := by
  refine ⟨h.issued hended.1, fun row' hrow' hid => ?_⟩
  obtain ⟨row, hrow, heq, hstatus⟩ := h.rows row' hrow' (hid ▸ hended.1)
  have hactive : row.active = false := hended.2 row hrow (heq.trans hid)
  rw [active, hstatus hactive]
  exact hactive

end Keeps

/-! ## Rows -/

/-- Identifiers and idempotency keys are unique, and every identifier in use was issued. -/
structure Tidy (s : ScopeState) : Prop where
  responseIds : (s.responses.map ResponseRecord.id).Nodup
  conversationIds : (s.conversations.map ConversationRecord.id).Nodup
  issuedResponse : ∀ row ∈ s.responses, row.id ∈ s.issued
  issuedConversation : ∀ c ∈ s.conversations, c.id ∈ s.issued
  keys : (s.responses.filterMap ResponseRecord.idempotencyHash).Nodup

theorem mem_of_response? (h : s.response? id = some row) : row ∈ s.responses := mem_of_lookup h

theorem Tidy.response? (hs : s.Tidy) (hrow : row ∈ s.responses) : s.response? row.id = some row :=
  (lookup_eq_some hs.responseIds).mpr ⟨hrow, rfl⟩

theorem Tidy.conversation? (hs : s.Tidy) {c : ConversationRecord} (hc : c ∈ s.conversations) :
    s.conversation? c.id = some c :=
  (lookup_eq_some hs.conversationIds).mpr ⟨hc, rfl⟩

variable {f : ResponseRecord → ResponseRecord}

/-- An update of one response that keeps what is unique. -/
theorem Tidy.updateResponse (hs : s.Tidy) (hf : KeepsKeys f) : (s.updateResponse id f).Tidy where
  responseIds := by
    rw [ScopeState.updateResponse, map_updateKey hf.id]
    exact hs.responseIds
  conversationIds := hs.conversationIds
  issuedResponse row' hrow' := by
    obtain ⟨row, hrow, rfl⟩ := mem_updateWhere.mp hrow'
    have hid : (if decide (row.id = id) then f row else row).id = row.id := by
      split
      · exact hf.id row
      · rfl
    rw [hid]
    exact hs.issuedResponse row hrow
  issuedConversation := hs.issuedConversation
  keys := by
    rw [ScopeState.updateResponse, updateKey,
      filterMap_updateWhere fun r _ _ => hf.idempotencyHash r]
    exact hs.keys

theorem Tidy.updateConversation (hs : s.Tidy) {g : ConversationRecord → ConversationRecord}
    (hg : ∀ c, (g c).id = c.id) : (s.updateConversation id g).Tidy where
  responseIds := hs.responseIds
  conversationIds := by
    rw [ScopeState.updateConversation, map_updateKey hg]
    exact hs.conversationIds
  issuedResponse := hs.issuedResponse
  issuedConversation c' hc' := by
    obtain ⟨c, hc, rfl⟩ := mem_updateWhere.mp hc'
    have hid : (if decide (c.id = id) then g c else c).id = c.id := by
      split
      · exact hg c
      · rfl
    rw [hid]
    exact hs.issuedConversation c hc
  keys := hs.keys

/-- `Tidy` looks at the rows and the issued identifiers only. -/
theorem Tidy.congr (hs : s.Tidy) (responses : s'.responses = s.responses)
    (conversations : s'.conversations = s.conversations) (issued : s'.issued = s.issued) :
    s'.Tidy := by
  refine ⟨?_, ?_, ?_, ?_, ?_⟩ <;> simp only [responses, conversations, issued]
  exacts [hs.responseIds, hs.conversationIds, hs.issuedResponse, hs.issuedConversation, hs.keys]

/-- An identifier has one row. -/
theorem Tidy.eq_of_id (hs : s.Tidy) (found : s.response? id = some row) {r : ResponseRecord}
    (hr : r ∈ s.responses) (hid : r.id = id) : r = row := by
  have hfound : s.response? id = some r := hid ▸ hs.response? hr
  exact some.inj (hfound.symm.trans found)

theorem Tidy.response?_eq_none (hs : s.Tidy) (fresh : id ∉ s.issued) : s.response? id = none :=
  lookup_eq_none.mpr fun row hrow hid => fresh (hid ▸ hs.issuedResponse row hrow)

theorem Tidy.conversation?_eq_none (hs : s.Tidy) (fresh : id ∉ s.issued) :
    s.conversation? id = none :=
  lookup_eq_none.mpr fun c hc hid => fresh (hid ▸ hs.issuedConversation c hc)

theorem Tidy.putEvent (hs : s.Tidy) (id : String) (seq : ℕ) (frame : String) :
    (s.putEvent id seq frame).Tidy := by
  have hrows : (s.updateResponse id fun row => row.withEvent frame).Tidy :=
    hs.updateResponse ⟨fun _ => rfl, fun _ => rfl⟩
  exact hrows.congr rfl rfl rfl

theorem Tidy.leaveConversation (hs : s.Tidy) (conv : ConversationRecord) (joined : Joined) :
    (s.leaveConversation current conv joined).Tidy := by
  have hrows : (s.updateConversation conv.id fun c => c.left current.model joined.items).Tidy :=
    hs.updateConversation fun _ => rfl
  exact hrows.congr rfl rfl rfl

theorem Tidy.admitConversation (hs : s.Tidy) {conv : ConversationRecord}
    (fresh : conv.id ∉ s.issued) : ((s.issue conv.id).insertConversation conv).Tidy where
  responseIds := hs.responseIds
  conversationIds := by
    apply nodup_append_row hs.conversationIds
    intro c hc hid
    exact fresh (hid ▸ hs.issuedConversation c hc)
  issuedResponse row hrow := mem_append_left _ (hs.issuedResponse row hrow)
  issuedConversation c hc := by
    rcases mem_append.mp hc with hc | hc
    · exact mem_append_left _ (hs.issuedConversation c hc)
    · obtain rfl := mem_singleton.mp hc
      exact mem_append_right _ (mem_singleton_self _)
  keys := hs.keys

/-- A new response has a new identifier and a key that no response has. -/
theorem Tidy.admitResponse (hs : s.Tidy) (fresh : row.id ∉ s.issued)
    (unique : s.collides row = false) : ((s.issue row.id).insertResponse row).Tidy where
  responseIds := by
    apply nodup_append_row hs.responseIds
    intro r hr hid
    exact fresh (hid ▸ hs.issuedResponse r hr)
  conversationIds := hs.conversationIds
  issuedResponse r hr := by
    rcases mem_append.mp hr with hr | hr
    · exact mem_append_left _ (hs.issuedResponse r hr)
    · obtain rfl := mem_singleton.mp hr
      exact mem_append_right _ (mem_singleton_self _)
  issuedConversation c hc := mem_append_left _ (hs.issuedConversation c hc)
  keys := by
    change ((s.responses ++ [row]).filterMap idempotencyHash).Nodup
    rw [filterMap_append, nodup_append]
    refine ⟨hs.keys, by cases h : row.idempotencyHash <;> simp [h], ?_⟩
    rintro key hmem _ hsingle rfl
    obtain ⟨r, hr, hkey⟩ := mem_filterMap.mp hmem
    have hrow : row.idempotencyHash = some key := by simpa using hsingle
    have hcollides : s.collides row = true := by
      refine any_eq_true.mpr ⟨r, hr, ?_⟩
      simp [hkey, hrow]
    rw [unique] at hcollides
    exact nomatch hcollides

theorem Tidy.removeResponses (hs : s.Tidy) (gone : ResponseRecord → Bool) :
    (s.removeResponses gone).Tidy where
  responseIds := hs.responseIds.sublist (filter_sublist.map _)
  conversationIds := hs.conversationIds
  issuedResponse row hrow := hs.issuedResponse row (mem_of_mem_filter hrow)
  issuedConversation := hs.issuedConversation
  keys := hs.keys.sublist (filter_sublist.filterMap _)

theorem Tidy.removeConversations (hs : s.Tidy) (gone : ConversationRecord → Bool) :
    (s.removeConversations gone).Tidy where
  responseIds := hs.responseIds
  conversationIds := hs.conversationIds.sublist (filter_sublist.map _)
  issuedResponse := hs.issuedResponse
  issuedConversation c hc := hs.issuedConversation c (mem_of_mem_filter hc)
  keys := hs.keys

/-- An update keeps what has ended if it keeps the status of an ended row. -/
theorem Keeps.updateResponse (hs : s.Tidy) (found : s.response? id = some row)
    (hstatus : row.active = false → (f row).status = row.status) (hf : ∀ r, (f r).id = r.id) :
    s.Keeps (s.updateResponse id f) := by
  refine ⟨fun _ h => h, fun row' hrow' _ => ?_⟩
  rcases (mem_updateKey hs.responseIds found).mp hrow' with rfl | ⟨hrow', -⟩
  · exact ⟨row, mem_of_response? found, (hf row).symm, hstatus⟩
  · exact ⟨row', hrow', rfl, fun _ => rfl⟩

theorem Keeps.putEvent (id : String) (seq : ℕ) (frame : String) :
    s.Keeps (s.putEvent id seq frame) := by
  refine ⟨fun _ h => h, fun row' hrow' _ => ?_⟩
  obtain ⟨r, hr, rfl⟩ := mem_updateWhere.mp hrow'
  refine ⟨r, hr, ?_⟩
  split
  · exact ⟨rfl, fun _ => rfl⟩
  · exact ⟨rfl, fun _ => rfl⟩

theorem Keeps.insertResponse (fresh : row.id ∉ s.issued) :
    s.Keeps ((s.issue row.id).insertResponse row) := by
  refine ⟨fun _ h => mem_append_left _ h, fun row' hrow' hid => ?_⟩
  rcases mem_append.mp hrow' with hrow' | hrow'
  · exact ⟨row', hrow', rfl, fun _ => rfl⟩
  · grind

theorem Keeps.removeResponses (gone : ResponseRecord → Bool) : s.Keeps (s.removeResponses gone) :=
  ⟨fun _ h => h, fun row hrow _ => ⟨row, mem_of_mem_filter hrow, rfl, fun _ => rfl⟩⟩

/-! ## Columns under writes -/

theorem claim_eq (found : s.response? id = some row) : s.claim id = row.claim := by
  change (s.response? id).bind ResponseRecord.claim = _
  rw [found]
  rfl

theorem slot_eq {c : ConversationRecord} (found : s.conversation? id = some c) :
    s.slot id = c.activeResponseId := by
  change (s.conversation? id).bind ConversationRecord.activeResponseId = _
  rw [found]
  rfl

theorem conversation_of_slot {r : String} (h : s.slot id = some r) :
    ∃ c, s.conversation? id = some c ∧ c.activeResponseId = some r :=
  bind_eq_some_iff.mp h

theorem claim_updateResponse (hf : ∀ r, (f r).id = r.id) (found : s.response? id = some row) :
    (s.updateResponse id f).claim = update s.claim id (f row).claim :=
  column_updateKey_of_found hf found

theorem claim_updateResponse_of_eq (hf : ∀ r, (f r).id = r.id)
    (hclaim : ∀ r, s.response? id = some r → (f r).claim = r.claim) :
    (s.updateResponse id f).claim = s.claim :=
  column_updateKey_of_eq hf hclaim

variable {g : ConversationRecord → ConversationRecord} {c : ConversationRecord}

theorem slot_updateConversation (hg : ∀ c, (g c).id = c.id) (found : s.conversation? id = some c) :
    (s.updateConversation id g).slot = update s.slot id (g c).activeResponseId :=
  column_updateKey_of_found hg found

theorem slot_updateConversation_of_eq (hg : ∀ c, (g c).id = c.id)
    (hslot : ∀ c, s.conversation? id = some c → (g c).activeResponseId = c.activeResponseId) :
    (s.updateConversation id g).slot = s.slot :=
  column_updateKey_of_eq hg hslot

theorem claim_putEvent (id : String) (seq : ℕ) (frame : String) :
    (s.putEvent id seq frame).claim = s.claim :=
  claim_updateResponse_of_eq (fun _ => rfl) fun _ _ => rfl

/-! ## The link -/

/-- Conversations and live responses name each other, and a deleted conversation names none. -/
structure Coupled (s : ScopeState) : Prop where
  linked : Linked s.slot s.claim
  deleted : ∀ c ∈ s.conversations, c.deletedAt.isSome → c.activeResponseId = none

/-- The link depends on the conversations and the claims only. -/
theorem Coupled.congr (hs : s.Coupled) (conversations : s'.conversations = s.conversations)
    (claim : s'.claim = s.claim) : s'.Coupled where
  linked := by
    have hslot : s'.slot = s.slot := by rw [slot, slot, conversations]
    rw [hslot, claim]
    exact hs.linked
  deleted := conversations ▸ hs.deleted

/-- A conversation that is updated is free if it is deleted. -/
theorem Coupled.deleted_updateConversation (hs : s.Coupled) (tidy : s.Tidy)
    (found : s.conversation? id = some c)
    (hg : (g c).deletedAt.isSome → (g c).activeResponseId = none) :
    ∀ c' ∈ (s.updateConversation id g).conversations,
      c'.deletedAt.isSome → c'.activeResponseId = none := by
  intro c' hc'
  rcases (mem_updateKey tidy.conversationIds found).mp hc' with rfl | ⟨hc', -⟩
  · exact hg
  · exact hs.deleted c' hc'

/-- What a finishing or withdrawn response leaves behind: its conversation is free, and it claims
none. -/
theorem Coupled.leave (hs : s.Coupled) (found : s.response? id = some row)
    (slot : s'.slot = vacate s.slot row.claim) (claim : s'.claim = update s.claim id none)
    (deleted : ∀ c ∈ s'.conversations, c.deletedAt.isSome → c.activeResponseId = none) :
    s'.Coupled where
  linked := by
    rw [slot, claim, ← claim_eq found]
    exact hs.linked.vacate id
  deleted := deleted

/-! ## The invariant -/

/-- **The invariant of a scope.** -/
structure Sound (s : ScopeState) : Prop where
  tidy : s.Tidy
  coupled : s.Coupled
  delivered : ∀ d ∈ s.delivered, s.Ended d.response
  once : (s.delivered.map Delivery.response).Nodup
  recovered : ∀ r ∈ s.recovered, r.active = false → s.Ended r.id

theorem empty_sound (mode : ModelAccessMode) : (empty mode).Sound where
  tidy := by constructor <;> simp [empty]
  coupled := by
    constructor
    · intro c r
      simp [slot, claim, column, empty]
    · simp [empty]
  delivered := by simp [empty]
  once := by simp [empty]
  recovered := by simp [empty]

/-- A step that delivers and recovers nothing has the rows and the link to show. -/
theorem Sound.of_keeps (hs : s.Sound) (tidy : s'.Tidy) (coupled : s'.Coupled) (keeps : s.Keeps s')
    (delivered : s'.delivered = s.delivered) (recovered : s'.recovered = s.recovered) :
    s'.Sound where
  tidy := tidy
  coupled := coupled
  delivered d hd := keeps.ended (hs.delivered d (delivered ▸ hd))
  once := delivered ▸ hs.once
  recovered r hr hended := keeps.ended (hs.recovered r (recovered ▸ hr) hended)

end ScopeState

open ScopeState

/-! ## Statuses -/

/-- No bound on a response makes a terminal status one that runs. -/
theorem bounded_ended {v : Verdict} (h : v.status.active = false) :
    (bounded current v).status.active = false := by
  unfold bounded
  split
  · rfl
  · exact h

theorem closing_ended {v : Verdict} (h : v.status.active = false) :
    (closing current v).status.active = false := bounded_ended h

theorem join_ended {ids : ℕ → Uuid} {conv : ConversationRecord} {output : List JsonValue}
    {v : Verdict} (h : v.status.active = false) :
    (join ids current conv output v).verdict.status.active = false := by
  unfold join
  split
  · split
    · rfl
    · exact h
  · exact h

/-- A response that has ended claims no conversation. -/
theorem claim_of_ended (h : row.active = false) : row.claim = none := by
  simp [ResponseRecord.claim, ResponseRecord.live, h]

theorem claim_of_live (h : row.live) : row.claim = row.conversationId := by
  simp [ResponseRecord.claim, h]

theorem conversation_of_claim (h : row.claim = some id) : row.conversationId = some id := by
  unfold ResponseRecord.claim at h
  split at h
  · exact h
  · exact nomatch h

theorem live_of_claim (h : row.claim = some id) : row.live := by
  by_contra hlive
  rw [ResponseRecord.claim, if_neg hlive] at h
  exact nomatch h

theorem active_of_live (h : row.live) : row.active := (Bool.and_eq_true_iff.mp h).1

theorem ResponseRecord.Newborn.live (h : row.Newborn) : row.live := by
  simp [ResponseRecord.live, ResponseRecord.active, h.queued, h.deletedAt, ResponseStatus.active]

theorem ResponseRecord.Quiet.claim {row' : ResponseRecord} (h : row.Quiet row') :
    row'.claim = row.claim := by
  unfold ResponseRecord.claim ResponseRecord.live
  rw [h.active, h.deletedAt, h.conversationId]

/-! ## Parts of a call -/

namespace Stored

variable (h : Stored s row s')

include h

theorem issued : s'.issued = s.issued := by cases h <;> rfl

theorem conversations : s'.conversations = s.conversations := by cases h <;> rfl

theorem delivered : s'.delivered = s.delivered := by cases h <;> rfl

theorem recovered : s'.recovered = s.recovered := by cases h <;> rfl

theorem tidy (hs : s.Tidy) : s'.Tidy := by
  cases h with
  | nothing => exact hs
  | event frame => exact hs.putEvent _ _ frame

theorem claim : s'.claim = s.claim := by
  cases h with
  | nothing => rfl
  | event frame => exact claim_putEvent _ _ _

theorem keeps : s.Keeps s' := by
  cases h with
  | nothing => exact Keeps.refl s
  | event frame => exact Keeps.putEvent _ _ frame

end Stored

namespace Released

variable (h : Released s row s')

include h

theorem issued : s'.issued = s.issued := by cases h <;> rfl

theorem responses : s'.responses = s.responses := by cases h <;> rfl

theorem delivered : s'.delivered = s.delivered := by cases h <;> rfl

theorem recovered : s'.recovered = s.recovered := by cases h <;> rfl

theorem events : s'.events = s.events := by cases h <;> rfl

theorem tidy (hs : s.Tidy) : s'.Tidy := by
  cases h with
  | alone | lost => exact hs
  | held => exact hs.updateConversation fun _ => rfl

theorem slot (hs : s.Sound) (found : s.response? row.id = some row) :
    s'.slot = vacate s.slot row.claim := by
  have hclaim : s.claim row.id = row.claim := claim_eq found
  cases h with
  | alone conversation =>
    have hnone : row.claim = none := by
      unfold ResponseRecord.claim
      rw [conversation]
      split <;> rfl
    rw [hnone]
    rfl
  | @lost id conversation lost =>
    have hnone : row.claim = none := by
      unfold ResponseRecord.claim
      split
      · rename_i hlive
        rw [claim_of_live hlive, conversation] at hclaim
        obtain ⟨c, hc, hactive⟩ := conversation_of_slot ((hs.coupled.linked id row.id).mpr hclaim)
        exact absurd hactive (lost c hc)
      · rfl
    rw [hnone]
    rfl
  | @held id c conversation hfound held =>
    have hslot : s.slot id = some row.id := (slot_eq hfound).trans held
    rw [← hclaim, (hs.coupled.linked id row.id).mp hslot]
    exact slot_updateConversation (fun _ => rfl) hfound

theorem deleted (hs : s.Sound) :
    ∀ c ∈ s'.conversations, c.deletedAt.isSome → c.activeResponseId = none := by
  cases h with
  | alone | lost => exact hs.coupled.deleted
  | held conversation found held =>
    exact hs.coupled.deleted_updateConversation hs.tidy found fun _ => rfl

end Released

namespace Left

variable {ids : ℕ → Uuid} {output : List JsonValue} {v v' : Verdict}
  (h : Left ids s current output v v' s')

include h

theorem issued : s'.issued = s.issued := by cases h <;> rfl

theorem responses : s'.responses = s.responses := by cases h <;> rfl

theorem recovered : s'.recovered = s.recovered := by cases h <;> rfl

theorem events : s'.events = s.events := by cases h <;> rfl

theorem tidy (hs : s.Tidy) : s'.Tidy := by
  cases h with
  | alone | orphan => exact hs
  | joined => exact hs.leaveConversation _ _

theorem ended (hv : v.status.active = false) : v'.status.active = false := by
  cases h with
  | alone => exact hv
  | orphan => rfl
  | joined => exact join_ended hv

theorem delivered : s'.delivered = s.delivered ∨
    ∃ d : Delivery, d.response = current.id ∧ s'.delivered = s.delivered ++ [d] := by
  cases h with
  | alone | orphan => exact .inl rfl
  | @joined id conv =>
    unfold leaveConversation
    cases (join ids current conv output v).added with
    | none => exact .inl (append_nil _)
    | some items => exact .inr ⟨_, rfl, rfl⟩

/-- A live response still holds its conversation, so it is never found orphaned. -/
theorem held (hs : s.Sound) (found : s.response? current.id = some current) (live : current.live) :
    (current.conversationId = none ∧ v' = v ∧ s' = s) ∨
      ∃ id conv, current.conversationId = some id ∧ s.conversation? id = some conv ∧
        conv.deletedAt = none ∧ conv.activeResponseId = some current.id ∧
        v' = (join ids current conv output v).verdict ∧
        s' = s.leaveConversation current conv (join ids current conv output v) := by
  have hclaim : s.claim current.id = current.conversationId :=
    (claim_eq found).trans (claim_of_live live)
  cases h with
  | alone conversation => exact .inl ⟨conversation, rfl, rfl⟩
  | @orphan id conversation none =>
    rw [conversation] at hclaim
    obtain ⟨c, hc, hactive⟩ :=
      conversation_of_slot ((hs.coupled.linked id current.id).mpr hclaim)
    have hpresent : c.deletedAt = .none := by
      by_contra hdeleted
      have hnone := hs.coupled.deleted c (mem_of_lookup hc) (isSome_iff_ne_none.mpr hdeleted)
      rw [hnone] at hactive
      exact nomatch hactive
    have hheld := filter_eq_none_iff.mp none c hc
    simp [hpresent, hactive] at hheld
  | @joined id conv conversation held =>
    obtain ⟨hconv, hguard⟩ := filter_eq_some_iff.mp held
    simp only [Bool.and_eq_true, isNone_iff_eq_none, decide_eq_true_eq] at hguard
    exact .inr ⟨id, conv, conversation, hconv, hguard.1, hguard.2, rfl, rfl⟩

theorem slot (hs : s.Sound) (found : s.response? current.id = some current) (live : current.live) :
    s'.slot = vacate s.slot current.claim := by
  rw [claim_of_live live]
  obtain ⟨conversation, -, rfl⟩ | ⟨id, conv, conversation, hconv, -, -, -, rfl⟩ :=
    h.held hs found live
  · rw [conversation]
    rfl
  · have hid : conv.id = id := id_of_conversation? hconv
    subst hid
    rw [conversation]
    exact slot_updateConversation (fun _ => rfl) hconv

theorem deleted (hs : s.Sound) (found : s.response? current.id = some current)
    (live : current.live) :
    ∀ c ∈ s'.conversations, c.deletedAt.isSome → c.activeResponseId = none := by
  obtain ⟨-, -, rfl⟩ | ⟨id, conv, -, hconv, -, -, -, rfl⟩ := h.held hs found live
  · exact hs.coupled.deleted
  · have hid : conv.id = id := id_of_conversation? hconv
    subst hid
    exact hs.coupled.deleted_updateConversation hs.tidy hconv fun _ => rfl

end Left

section EndResponse

variable {v : Verdict} {output : List JsonValue}

theorem endResponse_issued : (s.endResponse now current v output).issued = s.issued := by
  unfold endResponse
  split <;> rfl

theorem endResponse_conversations :
    (s.endResponse now current v output).conversations = s.conversations := by
  unfold endResponse
  split <;> rfl

theorem endResponse_delivered :
    (s.endResponse now current v output).delivered = s.delivered := by
  unfold endResponse
  split <;> rfl

theorem endResponse_recovered :
    (s.endResponse now current v output).recovered = s.recovered := by
  unfold endResponse
  split <;> rfl

theorem endResponse_responses : (s.endResponse now current v output).responses =
    (s.updateResponse current.id fun row => row.ended now v output).responses := by
  unfold endResponse
  split <;> rfl

theorem endResponse_events : (s.endResponse now current v output).events ⊆ s.events := by
  unfold endResponse
  split
  · exact fun _ h => h
  · exact filter_subset_self _

theorem endResponse_tidy (hs : s.Tidy) : (s.endResponse now current v output).Tidy := by
  have hrows : (s.updateResponse current.id fun row => row.ended now v output).Tidy :=
    hs.updateResponse ⟨fun _ => rfl, fun _ => rfl⟩
  exact hrows.congr endResponse_responses endResponse_conversations endResponse_issued

theorem endResponse_claim (found : s.response? current.id = some current)
    (hv : v.status.active = false) :
    (s.endResponse now current v output).claim = update s.claim current.id none := by
  have hended : (current.ended now v output).claim = none := claim_of_ended hv
  have hclaim : (s.endResponse now current v output).claim =
      (s.updateResponse current.id fun row => row.ended now v output).claim := by
    rw [ScopeState.claim, ScopeState.claim, endResponse_responses]
  rw [hclaim, ← hended]
  exact claim_updateResponse (fun _ => rfl) found

theorem endResponse_keeps (hs : s.Tidy) (found : s.response? current.id = some current)
    (live : current.live) : s.Keeps (s.endResponse now current v output) := by
  have hrows : s.Keeps (s.updateResponse current.id fun row => row.ended now v output) :=
    Keeps.updateResponse hs found (fun hended => by simp [active_of_live live] at hended)
      fun _ => rfl
  exact hrows.trans (Keeps.of_same endResponse_issued endResponse_responses)

theorem endResponse_ended (hs : s.Tidy) (found : s.response? current.id = some current)
    (hv : v.status.active = false) : (s.endResponse now current v output).Ended current.id := by
  constructor
  · rw [endResponse_issued]
    exact hs.issuedResponse current (mem_of_response? found)
  intro row hrow hid
  rw [endResponse_responses] at hrow
  rcases (mem_updateKey hs.responseIds found).mp hrow with rfl | ⟨-, hne⟩
  · exact hv
  · exact absurd hid hne

end EndResponse

/-! ## Each effect keeps the invariant -/

namespace ScopeState

variable {ids : ℕ → Uuid} {conv : ConversationRecord} {f : ResponseRecord → ResponseRecord}

theorem Sound.newConversation (hs : s.Sound) (fresh : conv.id ∉ s.issued)
    (free : conv.activeResponseId = none) : ((s.issue conv.id).insertConversation conv).Sound := by
  have hnone : s.conversation? conv.id = none := hs.tidy.conversation?_eq_none fresh
  have hslot : ((s.issue conv.id).insertConversation conv).slot = s.slot := by
    have hupdate : ((s.issue conv.id).insertConversation conv).slot =
        update s.slot conv.id conv.activeResponseId := column_append hnone
    have hold : s.slot conv.id = none := by
      change (s.conversation? conv.id).bind _ = none
      rw [hnone]
      rfl
    rw [hupdate, free, ← hold, Function.update_eq_self]
  refine hs.of_keeps (hs.tidy.admitConversation fresh) ⟨?_, ?_⟩ ?_ rfl rfl
  · rw [hslot]
    exact hs.coupled.linked
  · intro c hc hdeleted
    rcases mem_append.mp hc with hc | hc
    · exact hs.coupled.deleted c hc hdeleted
    · obtain rfl := mem_singleton.mp hc
      exact free
  · exact ⟨fun _ h => mem_append_left _ h, fun row hrow _ => ⟨row, hrow, rfl, fun _ => rfl⟩⟩

theorem claim_insertResponse (hs : s.Tidy) (fresh : row.id ∉ s.issued) :
    ((s.issue row.id).insertResponse row).claim = update s.claim row.id row.claim :=
  column_append (hs.response?_eq_none fresh)

theorem claim_of_fresh (hs : s.Tidy) (fresh : id ∉ s.issued) : s.claim id = none := by
  change (s.response? id).bind _ = none
  rw [hs.response?_eq_none fresh]
  rfl

theorem Sound.newResponse (hs : s.Sound) (fresh : row.id ∉ s.issued)
    (unique : s.collides row = false) (alone : row.conversationId = none) :
    ((s.issue row.id).insertResponse row).Sound := by
  have hclaim : ((s.issue row.id).insertResponse row).claim = s.claim := by
    have hnone : row.claim = s.claim row.id := by
      rw [claim_of_fresh hs.tidy fresh, ResponseRecord.claim, alone]
      split <;> rfl
    rw [claim_insertResponse hs.tidy fresh, hnone, Function.update_eq_self]
  exact hs.of_keeps (hs.tidy.admitResponse fresh unique) (hs.coupled.congr rfl hclaim)
    (Keeps.insertResponse fresh) rfl rfl

/-- A response that enters a free conversation occupies it. -/
theorem Sound.newTurn (hs : s.Sound) (fresh : row.id ∉ s.issued) (newborn : row.Newborn)
    (unique : s.collides row = false) (turn : row.conversationId = some id)
    (found : s.conversation? id = some conv) (free : conv.activeResponseId = none)
    (present : conv.deletedAt = none) :
    (((s.issue row.id).insertResponse row).updateConversation id fun c =>
      c.occupied row.id).Sound := by
  have hslot : (((s.issue row.id).insertResponse row).updateConversation id fun c =>
      c.occupied row.id).slot = update s.slot id (some row.id) :=
    slot_updateConversation (s := (s.issue row.id).insertResponse row) (fun _ => rfl) found
  have hclaim : (((s.issue row.id).insertResponse row).updateConversation id fun c =>
      c.occupied row.id).claim = update s.claim row.id (some id) := by
    rw [← turn, ← claim_of_live newborn.live]
    exact claim_insertResponse hs.tidy fresh
  refine hs.of_keeps ((hs.tidy.admitResponse fresh unique).updateConversation fun _ => rfl)
    ⟨?_, ?_⟩ ((Keeps.insertResponse fresh).trans (Keeps.of_same rfl rfl)) rfl rfl
  · rw [hslot, hclaim]
    exact hs.coupled.linked.acquire ((slot_eq found).trans free) (claim_of_fresh hs.tidy fresh)
  · intro c hc hdeleted
    rcases (mem_updateKey hs.tidy.conversationIds found).mp hc with rfl | ⟨hc, -⟩
    · simp [ConversationRecord.occupied, present] at hdeleted
    · exact hs.coupled.deleted c hc hdeleted

/-- Columns of the execution of a response are outside of the invariant. -/
theorem Sound.touched (hs : s.Sound) (found : s.response? id = some row)
    (hf : KeepsKeys f) (quiet : row.Quiet (f row)) : (s.updateResponse id f).Sound := by
  have hclaim : (s.updateResponse id f).claim = s.claim := by
    refine claim_updateResponse_of_eq hf.id fun r hr => ?_
    obtain rfl := some.inj (found.symm.trans hr)
    exact quiet.claim
  exact hs.of_keeps (hs.tidy.updateResponse hf) (hs.coupled.congr rfl hclaim)
    (Keeps.updateResponse hs.tidy found quiet.status hf.id) rfl rfl

theorem Sound.bound (hs : s.Sound) (account : Option Uuid) (conversation : String)
    (found : s.response? id = some row) (hf : KeepsKeys f) (quiet : row.Quiet (f row)) :
    ((s.updateConversation conversation fun c => c.boundTo account).updateResponse id f).Sound := by
  have hslot : (s.updateConversation conversation fun c => c.boundTo account).slot = s.slot :=
    slot_updateConversation_of_eq (fun _ => rfl) fun _ _ => rfl
  have hbound : (s.updateConversation conversation fun c => c.boundTo account).Sound := by
    refine hs.of_keeps (hs.tidy.updateConversation fun _ => rfl) ⟨?_, ?_⟩ (Keeps.of_same rfl rfl)
      rfl rfl
    · rw [hslot]
      exact hs.coupled.linked
    · intro c' hc'
      obtain ⟨c, hc, rfl⟩ := mem_updateWhere.mp hc'
      split
      · exact hs.coupled.deleted c hc
      · exact hs.coupled.deleted c hc
  exact hbound.touched found hf quiet

theorem Sound.stored (hs : s.Sound) (h : Stored s row s') : s'.Sound :=
  hs.of_keeps (h.tidy hs.tidy) (hs.coupled.congr h.conversations h.claim) h.keeps h.delivered
    h.recovered

/-- A live response has delivered nothing yet. -/
theorem Sound.not_delivered (hs : s.Sound) (found : s.response? id = some row) (live : row.live) :
    id ∉ s.delivered.map Delivery.response := by
  intro hmem
  obtain ⟨d, hd, rfl⟩ := mem_map.mp hmem
  have hended := (hs.delivered d hd).2 row (mem_of_response? found) (id_of_response? found)
  simp [active_of_live live] at hended

theorem Sound.putEvent (hs : s.Sound) (id : String) (seq : ℕ) (frame : String) :
    (s.putEvent id seq frame).Sound :=
  hs.of_keeps (hs.tidy.putEvent id seq frame) (hs.coupled.congr rfl (claim_putEvent id seq frame))
    (Keeps.putEvent id seq frame) rfl rfl

/-- **Finishing a response** frees its conversation, delivers its items at most once and ends it. -/
theorem Sound.finished (hs : s.Sound) {status : ResponseStatus} {native : JsonValue} {v : Verdict}
    (found : s.response? current.id = some current) (live : current.live)
    (terminal : status.active = false)
    (left :
      Left ids s current (outputOf current native status) (opening current native status) v s₁)
    (stored : Stored
      (s₁.endResponse now current (closing current v) (outputOf current native status))
      (current.endedInHand now (closing current v) (outputOf current native status)) s') :
    s'.Sound := by
  have hstatus : (closing current v).status.active = false :=
    closing_ended (left.ended (bounded_ended terminal))
  have found₁ : s₁.response? current.id = some current := by
    rw [response?, left.responses]
    exact found
  have tidy₁ : s₁.Tidy := left.tidy hs.tidy
  generalize outputOf current native status = output at left stored
  generalize closing current v = verdict at hstatus stored
  have keeps : s.Keeps (s₁.endResponse now current verdict output) :=
    (Keeps.of_same left.issued left.responses).trans (endResponse_keeps tidy₁ found₁ live)
  have ended : (s₁.endResponse now current verdict output).Ended current.id :=
    endResponse_ended tidy₁ found₁ hstatus
  have hclaim : s₁.claim = s.claim := by rw [claim, claim, left.responses]
  have hslot : (s₁.endResponse now current verdict output).slot = s₁.slot := by
    rw [slot, slot, endResponse_conversations]
  refine Sound.stored ⟨endResponse_tidy tidy₁, ?_, ?_, ?_, ?_⟩ stored
  · refine hs.coupled.leave found (hslot.trans (left.slot hs found live)) ?_ ?_
    · rw [endResponse_claim found₁ hstatus, hclaim]
    · rw [endResponse_conversations]
      exact left.deleted hs found live
  · intro d hd
    rw [endResponse_delivered] at hd
    rcases left.delivered with hsame | ⟨d', hd', hmore⟩
    · exact keeps.ended (hs.delivered d (hsame ▸ hd))
    · rcases mem_append.mp (hmore ▸ hd) with hd | hd
      · exact keeps.ended (hs.delivered d hd)
      · grind
  · rw [endResponse_delivered]
    rcases left.delivered with hsame | ⟨d', hd', hmore⟩
    · rw [hsame]
      exact hs.once
    · rw [hmore]
      apply nodup_append_row hs.once
      intro d hd heq
      exact hs.not_delivered found live (hd' ▸ heq ▸ mem_map_of_mem hd)
  · intro r hr hended
    rw [endResponse_recovered, left.recovered] at hr
    exact keeps.ended (hs.recovered r hr hended)

theorem stopped_keys : KeepsKeys stopped := by
  constructor <;> intro row <;> unfold stopped <;> split <;> rfl

theorem withdrawn_keys (now : Timestamp) (delete : Bool) :
    KeepsKeys fun row => row.withdrawn now delete := by
  constructor <;> intro row <;> cases delete
  exacts [stopped_keys.id row, stopped_keys.id row, stopped_keys.idempotencyHash row,
    stopped_keys.idempotencyHash row]

theorem withdrawn_status (row : ResponseRecord) (now : Timestamp) (delete : Bool) :
    (row.withdrawn now delete).status = if row.active then .cancelled else row.status := by
  have hstopped : row.stopped.status = if row.active then .cancelled else row.status := by
    unfold stopped
    split <;> rfl
  cases delete <;> exact hstopped

theorem withdrawn_claim (row : ResponseRecord) (now : Timestamp) (delete : Bool) :
    (row.withdrawn now delete).claim = none := by
  apply claim_of_ended
  rw [active, withdrawn_status]
  cases h : row.active with
  | true => rfl
  | false => exact h

/-- A cancelled or deleted response frees its conversation, and has ended. -/
theorem Sound.withdrawn (hs : s.Sound) (found : s.response? id = some row)
    (released : Released s row s₁) (delete : Bool) :
    (s₁.updateResponse id fun stored => stored.withdrawn now delete).Sound := by
  obtain rfl : row.id = id := id_of_response? found
  have found₁ : s₁.response? row.id = some row := by
    rw [response?, released.responses]
    exact found
  have tidy₁ : s₁.Tidy := released.tidy hs.tidy
  have keys := withdrawn_keys now delete
  have hclaim₁ : s₁.claim = s.claim := by
    rw [claim, claim, released.responses]
  have hclaim : (s₁.updateResponse row.id fun stored => stored.withdrawn now delete).claim =
      update s.claim row.id none := by
    rw [← hclaim₁, ← withdrawn_claim row now delete]
    exact claim_updateResponse keys.id found₁
  have keeps : s.Keeps (s₁.updateResponse row.id fun stored => stored.withdrawn now delete) := by
    refine (Keeps.of_same released.issued released.responses).trans
      (Keeps.updateResponse tidy₁ found₁ (fun hended => ?_) keys.id)
    simp [withdrawn_status, hended]
  exact hs.of_keeps (tidy₁.updateResponse keys)
    (hs.coupled.leave found (released.slot hs found) hclaim (released.deleted hs)) keeps
    released.delivered released.recovered

theorem Sound.deleteEvents (hs : s.Sound) (id : String) : (s.deleteEvents id).Sound :=
  hs.of_keeps (hs.tidy.congr rfl rfl rfl) (hs.coupled.congr rfl rfl) (Keeps.of_same rfl rfl) rfl rfl

/-- Recovery finds nothing to release for a response that it has seen ended. -/
theorem Sound.released (hs : s.Sound) (recovered : record ∈ s.recovered)
    (ended : record.active = false) (released : Released s record s') : s' = s := by
  have hended := hs.recovered record recovered ended
  cases released with
  | alone | lost => rfl
  | @held id c conversation found held =>
    have hclaim : s.claim record.id = some id :=
      (hs.coupled.linked id record.id).mp ((slot_eq found).trans held)
    obtain ⟨row, hrow, hlive⟩ := bind_eq_some_iff.mp hclaim
    have hactive := hended.2 row (mem_of_lookup hrow) (key_of_lookup hrow)
    rw [claim_of_ended hactive] at hlive
    exact nomatch hlive

theorem Sound.revised (hs : s.Sound) (found : s.conversation? id = some conv)
    (present : conv.deletedAt = none) (content : JsonValue × List JsonValue) :
    (s.updateConversation id fun c => c.revised now false content).Sound := by
  have hslot : (s.updateConversation id fun c => c.revised now false content).slot = s.slot :=
    slot_updateConversation_of_eq (fun _ => rfl) fun _ _ => rfl
  refine hs.of_keeps (hs.tidy.updateConversation fun _ => rfl) ⟨?_, ?_⟩ (Keeps.of_same rfl rfl)
    rfl rfl
  · rw [hslot]
    exact hs.coupled.linked
  · refine hs.coupled.deleted_updateConversation hs.tidy found fun hdeleted => ?_
    simp [ConversationRecord.revised, present] at hdeleted

/-- A deleted conversation ends its active response. -/
theorem Sound.dissolved (hs : s.Sound) (found : s.conversation? id = some conv)
    (cancelled : Cancelled s conv.activeResponseId s₁) (content : JsonValue × List JsonValue) :
    (s₁.updateConversation id fun c => c.revised now true content).Sound := by
  have hslot : s.slot id = conv.activeResponseId := slot_eq found
  cases cancelled with
  | idle idle =>
    have hsame : (s.updateConversation id fun c => c.revised now true content).slot = s.slot := by
      refine slot_updateConversation_of_eq (fun _ => rfl) fun c hc => ?_
      obtain rfl := some.inj (found.symm.trans hc)
      exact idle.symm
    refine hs.of_keeps (hs.tidy.updateConversation fun _ => rfl) ⟨?_, ?_⟩ (Keeps.of_same rfl rfl)
      rfl rfl
    · rw [hsame]
      exact hs.coupled.linked
    · exact hs.coupled.deleted_updateConversation hs.tidy found fun _ => rfl
  | @absent r occupied absent =>
    -- the active response of a conversation is live, so it was found
    have hclaim : s.claim r = some id := (hs.coupled.linked id r).mp (hslot.trans occupied)
    obtain ⟨row, hrow, hlive⟩ := bind_eq_some_iff.mp hclaim
    rw [claim_of_ended (absent row hrow)] at hlive
    exact nomatch hlive
  | @ended r row body s₂ occupied hrow running stored =>
    have keys : KeepsKeys fun stored => stored.cancelledAs body := ⟨fun _ => rfl, fun _ => rfl⟩
    have htidy : (s.updateResponse r fun stored => stored.cancelledAs body).Tidy :=
      hs.tidy.updateResponse keys
    have hclaim : s₁.claim = update s.claim r none :=
      stored.claim.trans (claim_updateResponse keys.id hrow)
    have found₁ : s₁.conversation? id = some conv := by
      rw [conversation?, stored.conversations]
      exact found
    have hslot₁ : (s₁.updateConversation id fun c => c.revised now true content).slot =
        update s.slot id none := by
      have hsame : s₁.slot = s.slot := by
        rw [slot, slot, stored.conversations]
        rfl
      rw [← hsame]
      exact slot_updateConversation (fun _ => rfl) found₁
    have keeps : s.Keeps s₁ := by
      refine (Keeps.updateResponse hs.tidy hrow (fun hended => ?_) keys.id).trans stored.keeps
      simp [running] at hended
    refine hs.of_keeps ((stored.tidy htidy).updateConversation fun _ => rfl) ⟨?_, ?_⟩
      (keeps.trans (Keeps.of_same rfl rfl)) stored.delivered stored.recovered
    · rw [hslot₁]
      change Linked _ s₁.claim
      rw [hclaim]
      exact hs.coupled.linked.release (hslot.trans occupied)
    · intro c hc hdeleted
      rcases (mem_updateKey (stored.tidy htidy).conversationIds found₁).mp hc with rfl | ⟨hc, -⟩
      · rfl
      · exact hs.coupled.deleted c (stored.conversations ▸ hc) hdeleted

/-- A cleanup removes what has ended and is idle, so no claim and no slot changes. -/
theorem Sound.swept (hs : s.Sound) {response : ResponseRecord → Bool}
    {conversation : ConversationRecord → Bool} (ended : ∀ row, response row → row.active = false)
    (idle : ∀ c, conversation c → c.activeResponseId = none) :
    ((s.removeResponses response).removeConversations conversation).Sound := by
  have hclaim : ((s.removeResponses response).removeConversations conversation).claim =
    s.claim := by
    refine column_filter hs.tidy.responseIds fun row _ hgone => ?_
    exact claim_of_ended (ended row (by simpa using hgone))
  have hslot : ((s.removeResponses response).removeConversations conversation).slot = s.slot := by
    refine column_filter hs.tidy.conversationIds fun c _ hgone => ?_
    exact idle c (by simpa using hgone)
  refine hs.of_keeps ((hs.tidy.removeResponses response).removeConversations conversation) ⟨?_, ?_⟩
    ((Keeps.removeResponses response).trans (Keeps.of_same rfl rfl)) rfl rfl
  · rw [hslot, hclaim]
    exact hs.coupled.linked
  · exact fun c hc => hs.coupled.deleted c (mem_of_mem_filter hc)

/-- A response that recovery takes over is remembered as it was then. -/
theorem Sound.takenOver (hs : s.Sound) (found : s.response? id = some row) (owner : Uuid) :
    ({ s.updateResponse id fun stored => stored.takenBy owner now with
        recovered := s.recovered ++ [row.takenBy owner now] } : ScopeState).Sound := by
  obtain rfl : row.id = id := id_of_response? found
  have hs' : (s.updateResponse row.id fun stored => stored.takenBy owner now).Sound :=
    hs.touched found ⟨fun _ => rfl, fun _ => rfl⟩
      ⟨rfl, rfl, rfl, rfl, fun _ => rfl, rfl⟩
  refine ⟨hs'.tidy.congr rfl rfl rfl, hs'.coupled.congr rfl rfl, hs'.delivered, hs'.once, ?_⟩
  intro r hr hended
  rcases mem_append.mp hr with hr | hr
  · exact hs'.recovered r hr hended
  · obtain rfl := mem_singleton.mp hr
    refine ⟨hs.tidy.issuedResponse row (mem_of_response? found), fun row' hrow' hid => ?_⟩
    rcases (mem_updateKey hs.tidy.responseIds found).mp hrow' with rfl | ⟨-, hne⟩
    · exact hended
    · exact absurd hid hne

end ScopeState

/-- **Every effect keeps the invariant.** -/
theorem Effect.sound (h : Effect call s s') (hs : s.Sound) : s'.Sound := by
  cases h with
  | still => exact hs
  | newConversation fresh free => exact hs.newConversation fresh free
  | newResponse fresh newborn unique alone => exact hs.newResponse fresh unique alone
  | newTurn fresh newborn unique turn found free present =>
    exact hs.newTurn fresh newborn unique turn found free present
  | touched found keeps quiet => exact hs.touched found keeps quiet
  | bound found keeps quiet => exact hs.bound _ _ found keeps quiet
  | appended found owner live => exact hs.putEvent _ _ _
  | finished found owner live terminal left stored =>
    rw [← id_of_response? found] at found
    exact hs.finished found live terminal left stored
  | released recovered ended released => rwa [hs.released recovered ended released]
  | deleted found present released => exact (hs.withdrawn found released true).deleteEvents _
  | cancelled found live released stored => exact (hs.withdrawn found released false).stored stored
  | revised keeps found present => exact hs.revised found present _
  | dissolved found present cancelled => exact hs.dissolved found cancelled _
  | swept ended idle => exact hs.swept ended idle
  | takenOver found => exact hs.takenOver found _

end KeyCompute.Scoped
