import KeyCompute.NodeGateway.System

/-!
# The log of a native stream along a run

`NativeStream.Sound` says what the columns of a stream mean: the accepted events are numbered from
zero without a gap, the counters of unread events are those of the events not acknowledged, and the
total is that of the data frames.  `NativeStream.Extends` says that accepted events stay, and a
closed stream too.

Every call keeps the first and moves by the second, so a producer, a reader and a canceller may
interleave, repeat and lose their calls in any order.
-/

namespace KeyCompute.NodeGateway

open Relational NativeStream NativeEvent List Tx

variable {ι : Type} {sha256 : String → String}

/-! ## One stream -/

def NativeEvent.isUnread (event : NativeEvent) : Bool := event.consumedAt.isNone

def NativeStream.unread (row : NativeStream ι) : List NativeEvent :=
  row.events.filter (·.isUnread)

def NativeStream.contents (row : NativeStream ι) : List NodeNativeStreamEvent :=
  row.events.map (·.content)

/-- An accepted event, by its hash and size, and by its body until it is acknowledged. -/
structure NativeEvent.Records (sha256 : String → String) (event : NativeEvent) : Prop where
  hash : event.eventHash = sha256 event.content.encoded
  bytes : event.eventBytes = event.content.size
  size : event.content.size ≤ maxStreamEventBytes
  body : event.eventJson = if event.isUnread then some event.content else none

structure NativeStream.Sound (sha256 : String → String) (row : NativeStream ι) : Prop where
  contiguous : row.events.map (·.seq) = range row.nextSeq
  records : ∀ event ∈ row.events, event.Records sha256
  unreadFrames : row.unreadFrames = row.unread.length
  unreadBytes : row.unreadBytes = (row.unread.map fun event => (event.content.size : ℤ)).sum
  totalBytes : row.totalBytes = (row.contents.map (·.frameBytes)).sum
  limit : row.nextSeq ≤ maxStreamSeq + 1
  /-- an open stream has room for its final event -/
  room : row.state = .open → row.unreadFrames ≤ maxUnreadFrames
  window : row.unreadFrames ≤ maxUnreadFrames + 1

namespace NativeStream.Sound

variable {row row' : NativeStream ι}

theorem of_fresh (h : row.Fresh) : row.Sound sha256 where
  contiguous := by simp [h.events, h.nextSeq]
  records := by simp [h.events]
  unreadFrames := by simp [h.unreadFrames, unread, h.events]
  unreadBytes := by simp [h.unreadBytes, unread, h.events]
  totalBytes := by simp [h.totalBytes, contents, h.events]
  limit := by simp [h.nextSeq]
  room _ := by simp [h.unreadFrames, maxUnreadFrames]
  window := by simp [h.unreadFrames, maxUnreadFrames]

/-- A stream with room takes an event; only a final event may fill the last place. -/
theorem counted {event : NodeNativeStreamEvent} (h : row.Sound sha256) (live : row.state = .open)
    (room : backpressure row event = false) (seq : row.nextSeq ≤ maxStreamSeq)
    (size : event.size ≤ maxStreamEventBytes) (observed : Observed event row row') :
    (row'.counted sha256 event).Sound sha256 where
  contiguous := by
    simp [NativeStream.counted, observed.events, observed.nextSeq, h.contiguous,
      range_succ]
  records := by
    intro stored hstored
    simp only [NativeStream.counted, observed.events, mem_append, mem_singleton] at hstored
    rcases hstored with hold | rfl
    · exact h.records stored hold
    · exact ⟨rfl, rfl, size, rfl⟩
  unreadFrames := by
    have := h.unreadFrames
    simp only [NativeStream.counted, NativeStream.unread, observed.events, observed.unreadFrames,
      filter_append, length_append] at this ⊢
    simp [isUnread, this]
  unreadBytes := by
    have := h.unreadBytes
    simp only [NativeStream.counted, NativeStream.unread, observed.events, observed.unreadBytes,
      filter_append, map_append, sum_append] at this ⊢
    simp [isUnread, this]
  totalBytes := by
    have := h.totalBytes
    simp only [NativeStream.counted, NativeStream.contents, observed.events, observed.totalBytes,
      map_append, sum_append] at this ⊢
    simp [this]
  limit := by
    simp only [NativeStream.counted, observed.nextSeq]
    omega
  room := by
    intro hopen
    have hfinal : event.isFinal = false := by
      by_contra hfinal
      exact observed.closes (by simpa using hfinal) hopen
    simp only [backpressure, hfinal, Bool.not_false, Bool.true_and, Bool.or_eq_false_iff,
      decide_eq_false_iff_not, not_le] at room
    simp only [NativeStream.counted, observed.unreadFrames]
    omega
  window := by
    have := h.room live
    simp only [NativeStream.counted, observed.unreadFrames]
    omega

theorem unique (h : row.Sound sha256) : (row.events.map seq).Nodup := by
  rw [h.contiguous]
  exact nodup_range

theorem totalWhere_consumed {event : NativeEvent} (now : Timestamp) (h : row.Sound sha256)
    (found : lookup seq event.seq row.events = some event)
    (unread : event.consumedAt = none) (value : NativeEvent → ℤ) :
    totalWhere isUnread value (row.consumed event now).events =
      totalWhere isUnread value row.events - value event := by
  rw [consumed, totalWhere_updateKey h.unique found]
  simp [contribution, isUnread, consume, unread]

theorem length_unread (row : NativeStream ι) :
    (row.unread.length : ℤ) = totalWhere isUnread (fun _ => 1) row.events := by
  simp [unread, totalWhere]

theorem consumed {event : NativeEvent} {now : Timestamp} (h : row.Sound sha256)
    (found : lookup seq event.seq row.events = some event)
    (unread : event.consumedAt = none) : (row.consumed event now).Sound sha256 where
  contiguous := by
    have hseqs : (row.consumed event now).events.map seq =
        row.events.map seq := map_updateWhere fun _ _ _ => rfl
    exact hseqs.trans h.contiguous
  records := by
    intro stored hstored
    obtain ⟨old, hold, rfl⟩ := mem_updateWhere.mp hstored
    have hrecords := h.records old hold
    split
    · exact ⟨hrecords.hash, hrecords.bytes, hrecords.size, rfl⟩
    · exact hrecords
  unreadFrames := by
    rw [length_unread, h.totalWhere_consumed now found unread, ← length_unread, ← h.unreadFrames]
    rfl
  unreadBytes := by
    have htotal := h.totalWhere_consumed now found unread fun e => (e.content.size : ℤ)
    have hbytes := (h.records event (mem_of_lookup found)).bytes
    change row.unreadBytes - event.eventBytes = totalWhere isUnread _ _
    rw [htotal, hbytes, h.unreadBytes]
    rfl
  totalBytes := by
    have hcontents : (row.consumed event now).contents = row.contents :=
      map_updateWhere fun _ _ _ => rfl
    rw [hcontents]
    exact h.totalBytes
  limit := h.limit
  room hopen := by
    have := h.room hopen
    simp only [NativeStream.consumed]
    omega
  window := by
    have := h.window
    simp only [NativeStream.consumed]
    omega

theorem close (h : row.Sound sha256) (close : row.Close row') : row'.Sound sha256 := by
  cases close with
  | same => exact h
  | closed live ended =>
    exact ⟨h.contiguous, h.records, h.unreadFrames, h.unreadBytes, h.totalBytes, h.limit,
      fun hopen => absurd hopen ended, h.window⟩

end NativeStream.Sound

/-! ## What becomes of a stream -/

/-- **What becomes of a stream**: accepted events stay, and a closed stream takes no more. -/
structure NativeStream.Extends (row row' : NativeStream ι) : Prop where
  key : row'.key = row.key
  contents : row.contents <+: row'.contents
  closed : row.state ≠ .open → row'.state = row.state ∧ row'.contents = row.contents

namespace NativeStream.Extends

variable {row row' row'' : NativeStream ι}

theorem refl (row : NativeStream ι) : row.Extends row :=
  ⟨rfl, prefix_refl _, fun _ => ⟨rfl, rfl⟩⟩

theorem trans (h : row.Extends row') (h' : row'.Extends row'') : row.Extends row'' where
  key := h'.key.trans h.key
  contents := h.contents.trans h'.contents
  closed hclosed := by
    obtain ⟨hstate, hcontents⟩ := h.closed hclosed
    obtain ⟨hstate', hcontents'⟩ := h'.closed (hstate ▸ hclosed)
    exact ⟨hstate'.trans hstate, hcontents'.trans hcontents⟩

theorem counted {event : NodeNativeStreamEvent} (live : row.state = .open)
    (observed : Observed event row row') : row.Extends (row'.counted sha256 event) where
  key := observed.key
  contents := by simp [NativeStream.contents, NativeStream.counted, observed.events]
  closed hclosed := absurd live hclosed

theorem consumed (row : NativeStream ι) (event : NativeEvent) (now : Timestamp) :
    row.Extends (row.consumed event now) := by
  have hcontents : (row.consumed event now).contents = row.contents :=
    map_updateWhere fun _ _ _ => rfl
  exact ⟨rfl, hcontents ▸ prefix_refl _, fun _ => ⟨rfl, hcontents⟩⟩

theorem close (h : row.Close row') : row.Extends row' := by
  cases h with
  | same => exact refl row
  | closed live _ => exact ⟨rfl, prefix_refl _, fun hclosed => absurd live hclosed⟩

end NativeStream.Extends

/-! ## The table of streams -/

section Table

variable {store store' : NodeStore ι} {row : NativeStream ι}

theorem stream_putStream (row : NativeStream ι) (store : NodeStore ι) (taskId leaseId : Uuid) :
    (store.putStream row).stream? taskId leaseId =
      if (taskId, leaseId) = row.key then some row else store.stream? taskId leaseId := by
  rw [NodeStore.stream?, NodeStore.putStream, updateKey,
    lookup_updateWhere fun r hr => (of_decide_eq_true hr).symm, lookup_insertIfAbsent]
  by_cases hk : (taskId, leaseId) = row.key
  · simp only [hk, if_true, Option.map_some]
    cases hfound : lookup key row.key store.streams with
    | none => simp
    | some old => simp [key_of_lookup hfound]
  · simp only [hk, if_false, NodeStore.stream?]
    cases hfound : lookup key (taskId, leaseId) store.streams with
    | none => rfl
    | some old =>
      have hold : old.key ≠ row.key := fun h => hk ((key_of_lookup hfound).symm.trans h)
      simp [hold]

theorem mem_putStream {r : NativeStream ι} (h : r ∈ (store.putStream row).streams) :
    r = row ∨ r ∈ store.streams := by
  obtain ⟨old, hold, rfl⟩ := mem_updateWhere.mp h
  split
  · exact .inl rfl
  · rename_i hkey
    rcases mem_insertIfAbsent.mp hold with hold | ⟨-, rfl⟩
    · exact .inr hold
    · exact absurd (decide_eq_true rfl) hkey

theorem keys_putStream (h : (store.streams.map key).Nodup) :
    ((store.putStream row).streams.map key).Nodup := by
  rw [NodeStore.putStream, updateKey,
    map_updateWhere fun r _ hr => (of_decide_eq_true hr).symm]
  unfold insertIfAbsent
  cases hfound : lookup key row.key store.streams with
  | some old => exact h
  | none => exact nodup_append_row h (lookup_eq_none.mp hfound)

structure StreamsSound (sha256 : String → String) (store : NodeStore ι) : Prop where
  keys : (store.streams.map key).Nodup
  sound : ∀ row ∈ store.streams, row.Sound sha256

/-- Every stream is there afterwards, and extends what it was. -/
def StreamsExtend (store store' : NodeStore ι) : Prop :=
  ∀ taskId leaseId row, store.stream? taskId leaseId = some row →
    ∃ row', store'.stream? taskId leaseId = some row' ∧ row.Extends row'

theorem StreamsExtend.refl (store : NodeStore ι) : StreamsExtend store store :=
  fun _ _ row h => ⟨row, h, .refl row⟩

theorem StreamsExtend.of_eq (h : store'.streams = store.streams) : StreamsExtend store store' := by
  intro taskId leaseId row hrow
  rw [NodeStore.stream?, ← h] at hrow
  exact ⟨row, hrow, .refl row⟩

theorem StreamsExtend.trans {store'' : NodeStore ι} (h : StreamsExtend store store')
    (h' : StreamsExtend store' store'') : StreamsExtend store store'' := by
  intro taskId leaseId row hrow
  obtain ⟨row₁, hrow₁, hext₁⟩ := h taskId leaseId row hrow
  obtain ⟨row₂, hrow₂, hext₂⟩ := h' taskId leaseId row₁ hrow₁
  exact ⟨row₂, hrow₂, hext₁.trans hext₂⟩

theorem StreamsExtend.close (h : Forall₂ Close store.streams store'.streams) :
    StreamsExtend store store' := by
  have hkey : ∀ a b : NativeStream ι, a.Close b → b.key = a.key := by
    intro a b hab
    cases hab <;> rfl
  intro taskId leaseId row hrow
  obtain ⟨row', hrow', hclose⟩ := exists_lookup_of_forall₂ hkey h hrow
  exact ⟨row', hrow', .close hclose⟩

theorem StreamsExtend.put {row' : NativeStream ι} (hkey : row'.key = row.key)
    (hrow : store.stream? row.taskId row.leaseId = some row ∨
      store.stream? row.taskId row.leaseId = none) (hext : row.Extends row') :
    StreamsExtend store (store.putStream row') := by
  intro taskId leaseId old hold
  rw [stream_putStream]
  by_cases hk : (taskId, leaseId) = row'.key
  · rw [if_pos hk]
    refine ⟨row', rfl, ?_⟩
    obtain ⟨rfl, rfl⟩ := Prod.mk.inj (hk.trans hkey)
    rcases hrow with hrow | hrow
    · grind
    · simp [hrow] at hold
  · rw [if_neg hk]
    exact ⟨old, hold, .refl old⟩

theorem StreamsSound.put (h : StreamsSound sha256 store) (hrow : row.Sound sha256) :
    StreamsSound sha256 (store.putStream row) where
  keys := keys_putStream h.keys
  sound r hr := by
    rcases mem_putStream hr with rfl | hr
    · exact hrow
    · exact h.sound r hr

theorem StreamsSound.of_eq (h : StreamsSound sha256 store) (heq : store'.streams = store.streams) :
    StreamsSound sha256 store' :=
  ⟨heq ▸ h.keys, heq ▸ h.sound⟩

theorem StreamsSound.close (h : StreamsSound sha256 store)
    (hclose : Forall₂ Close store.streams store'.streams) :
    StreamsSound sha256 store' where
  keys := by
    have hkey : ∀ a b : NativeStream ι, a.Close b → b.key = a.key := by
      intro a b hab
      cases hab <;> rfl
    rw [map_of_forall₂ hkey hclose]
    exact h.keys
  sound row' hrow' := by
    obtain ⟨row, hrow, hrel⟩ := exists_of_mem_forall₂ hclose hrow'
    exact (h.sound row hrow).close hrel

/-! ## Every call -/

theorem Effect.streams {call : NodeCall} (h : Effect sha256 call store store')
    (sound : StreamsSound sha256 store) :
    StreamsSound sha256 store' ∧ StreamsExtend store store' := by
  have same : store'.streams = store.streams →
      StreamsSound sha256 store' ∧ StreamsExtend store store' :=
    fun heq => ⟨sound.of_eq heq, .of_eq heq⟩
  cases h with
  | still | created | leased => exact same rfl
  | moved only =>
    obtain ⟨_, -, rfl⟩ := only
    exact same rfl
  | completed _ _ _ _ _ recorded =>
    exact ⟨sound.close recorded.streams, .close recorded.streams⟩
  | registered _ _ _ => exact same rfl
  | reported only =>
    obtain ⟨_, _, -, -, rfl⟩ := only
    exact same rfl
  | administered change =>
    cases change with
    | kept only =>
      obtain ⟨_, _, -, -, rfl⟩ := only
      exact same rfl
    | configured _ _ _ _ => exact same rfl
    | deleted _ _ => exact same rfl
  | offered seq size appended =>
    cases appended with
    | refused | again => exact same rfl
    | @appended row row' source key hseq live room observed =>
      have hrow : row.Sound sha256 := by
        rcases source with hsome | ⟨-, hfresh⟩
        · exact sound.sound row (mem_of_lookup hsome)
        · exact .of_fresh hfresh
      obtain ⟨htask, hlease⟩ := Prod.mk.inj key
      refine ⟨sound.put (hrow.counted live room (hseq ▸ seq) size observed),
        .put observed.key ?_ (.counted live observed)⟩
      rw [htask, hlease]
      exact source.imp_right And.left
  | acknowledged read =>
    cases read with
    | again => exact same rfl
    | @consumed row event member of found unread =>
      obtain rfl : event.seq = _ := key_of_lookup found
      have hlookup : store.stream? row.taskId row.leaseId = some row :=
        (lookup_eq_some sound.keys).mpr ⟨member, rfl⟩
      exact ⟨sound.put ((sound.sound row member).consumed found unread),
        .put (Extends.consumed row event _).key (.inl hlookup)
          (.consumed row event _)⟩
  | cancelled _ streams => exact ⟨sound.close streams, .close streams⟩

end Table

/-! ## Runs -/

section Runs

variable {inspector : Inspector ι} {store : NodeStore ι}

variable {row : NativeStream ι} {r : NodeTaskStreamEventRequest} {checks : StreamChecks}
  {now : Timestamp} {content : NodeNativeStreamEvent}

end Runs

end KeyCompute.NodeGateway
