import KeyCompute.RateLimit.TokenWindow
import KeyCompute.Relational.Transaction

/-!
# The token window in memory

`TokenRecordCache` keeps the records in a hash map, their expiries in a heap and the sum of their
tokens in a counter.  A renewed, released or reconciled record leaves its old entry in the heap;
pruning pops every entry that is due and looks at the record before it removes anything.  The heap
is the sorted list of its entries, and `u64` sums saturate.
-/

namespace KeyCompute.RateLimit

open Window Relational Function List Option
open Relational (runAll)
open scoped Uuid

/-- `u64::MAX`. -/
def u64Max : ℕ := 2 ^ 64 - 1

def saturatingAdd (a b : ℕ) : ℕ := min (a + b) u64Max

structure TokenRecordCache where
  records : TokenMap := fun _ => none
  expirations : List (ℕ × Uuid) := []
  totalTokens : ℕ := 0

open TokenRecordCache

/-- The order of the heap: the earlier expiry first, then the smaller identifier. -/
def heapBefore (a b : ℕ × Uuid) : Prop := a.1 < b.1 ∨ (a.1 = b.1 ∧ a.2.bits ≤ b.2.bits)

instance : DecidableRel heapBefore :=
  fun a b => inferInstanceAs (Decidable (a.1 < b.1 ∨ (a.1 = b.1 ∧ a.2.bits ≤ b.2.bits)))

namespace TokenRecordCache

variable (checkedAdd : ℕ → ℕ → Option ℕ)

/-- `records.remove`, with the counter. -/
def remove (cache : TokenRecordCache) (id : Uuid) : TokenRecordCache :=
  match cache.records id with
  | some record =>
    { cache with
      records := update cache.records id none,
      totalTokens := cache.totalTokens - record.tokens }
  | none => cache

/-- The body of the loop of `prune`, for an entry that is due. -/
def expire (now : ℕ) (id : Uuid) (cache : TokenRecordCache) : TokenRecordCache :=
  if (cache.records id).any (·.expiresAt ≤ now) then cache.remove id else cache

/-- The loop of `prune`, over the heap from its smallest entry. -/
def pruneLoop (now : ℕ) : List (ℕ × Uuid) → TokenRecordCache → TokenRecordCache
  | [], cache => { cache with expirations := [] }
  | (expiresAt, id) :: rest, cache =>
    if expiresAt ≤ now then pruneLoop now rest (cache.expire now id)
    else { cache with expirations := (expiresAt, id) :: rest }

def prune (cache : TokenRecordCache) (now : ℕ) : TokenRecordCache :=
  pruneLoop now cache.expirations cache

/-- `expirations.push`. -/
def pushExpiration (cache : TokenRecordCache) (expiresAt : ℕ) (id : Uuid) : TokenRecordCache :=
  { cache with expirations := cache.expirations.orderedInsert heapBefore (expiresAt, id) }

/-- The record is put in, after an old one was removed. -/
def store (cache : TokenRecordCache) (id : Uuid) (record : TokenRecord) : TokenRecordCache :=
  { cache with
    records := update cache.records id (some record),
    totalTokens := saturatingAdd cache.totalTokens record.tokens }

def insertRecord (cache : TokenRecordCache) (requestId : Uuid) (tokens : ℕ)
    (kind : TokenRecordKind) (now remainingHorizon : ℕ) : TokenRecordCache :=
  ((cache.remove requestId).store requestId
    ⟨tokens, expiryAt checkedAdd now remainingHorizon, kind⟩).pushExpiration
      (expiryAt checkedAdd now remainingHorizon) requestId

/-- What `reserve` does once the cache is pruned. -/
def reservePruned (cache : TokenRecordCache) (reservationId terminalId : Uuid)
    (tokens limit now window : ℕ) : TokenReservationOutcome × TokenRecordCache :=
  if isTerminal (cache.records terminalId) then (.alreadyTerminal, cache)
  else
    match cache.records reservationId with
    | some existing =>
      match existing.kind with
      | .terminal => (.alreadyTerminal, cache)
      | .reserved =>
        if existing.tokens = tokens then (.reserved, cache)
        else (.predictionMismatch existing.tokens, cache)
    | none =>
      if saturatingAdd cache.totalTokens tokens > limit then (.limitExceeded, cache)
      else (.reserved, cache.insertRecord checkedAdd reservationId tokens .reserved now window)

def reserve (cache : TokenRecordCache) (reservationId terminalId : Uuid)
    (tokens limit now window : ℕ) : TokenReservationOutcome × TokenRecordCache :=
  (cache.prune now).reservePruned checkedAdd reservationId terminalId tokens limit now window

/-- The lease of a record that is there is extended: only its expiry changes. -/
def extend (cache : TokenRecordCache) (reservationId : Uuid) (existing : TokenRecord)
    (now window : ℕ) : TokenRecordCache :=
  ({ cache with
    records := update cache.records reservationId
      (some { existing with expiresAt := expiryAt checkedAdd now window }) }).pushExpiration
        (expiryAt checkedAdd now window) reservationId

/-- What `renew` does once the cache is pruned. -/
def renewPruned (cache : TokenRecordCache) (reservationId terminalId : Uuid)
    (tokens now window : ℕ) (restoreMissing : Bool) :
    TokenReservationRenewalOutcome × TokenRecordCache :=
  if isTerminal (cache.records terminalId) then (.alreadyTerminal, cache)
  else
    match cache.records reservationId with
    | some existing =>
      match existing.kind with
      | .terminal => (.alreadyTerminal, cache)
      | .reserved =>
        if existing.tokens = tokens then
          (.renewed, cache.extend checkedAdd reservationId existing now window)
        else (.predictionMismatch existing.tokens, cache)
    | none =>
      if restoreMissing then
        (.renewed, cache.insertRecord checkedAdd reservationId tokens .reserved now window)
      else (.missing, cache)

def renew (cache : TokenRecordCache) (reservationId terminalId : Uuid) (tokens now window : ℕ)
    (restoreMissing : Bool) : TokenReservationRenewalOutcome × TokenRecordCache :=
  (cache.prune now).renewPruned checkedAdd reservationId terminalId tokens now window
    restoreMissing

def dropReserved (cache : TokenRecordCache) (id : Uuid) : TokenRecordCache :=
  if isReserved (cache.records id) then cache.remove id else cache

/-- The part of `reconcile_at` after the reservation is gone. -/
def recordTerminal (cache : TokenRecordCache) (terminalId : Uuid) (tokens now : ℕ)
    (remainingHorizon : Option ℕ) : Bool × TokenRecordCache :=
  if isTerminal (cache.records terminalId) then (true, cache)
  else if (cache.records terminalId).isSome then (false, cache)
  else
    match remainingHorizon.filter (· ≠ 0) with
    | none => (true, cache)
    | some horizon => (true, cache.insertRecord checkedAdd terminalId tokens .terminal now horizon)

def reconcileAt (cache : TokenRecordCache) (reservationId terminalId : Uuid) (tokens now : ℕ)
    (remainingHorizon : Option ℕ) : Bool × TokenRecordCache :=
  ((cache.prune now).dropReserved reservationId).recordTerminal checkedAdd terminalId tokens now
    remainingHorizon

def release (cache : TokenRecordCache) (requestId : Uuid) (now : ℕ) : TokenRecordCache :=
  (cache.prune now).dropReserved requestId

def apply (cache : TokenRecordCache) : TokenOp → TokenAnswer × TokenRecordCache
  | .reserve reservationId terminalId tokens limit now window =>
    let result := cache.reserve checkedAdd reservationId terminalId tokens limit now window
    (.reservation result.1, result.2)
  | .renew reservationId terminalId tokens now window restoreMissing =>
    let result := cache.renew checkedAdd reservationId terminalId tokens now window restoreMissing
    (.renewal result.1, result.2)
  | .reconcile reservationId terminalId tokens now remainingHorizon =>
    let result := cache.reconcileAt checkedAdd reservationId terminalId tokens now remainingHorizon
    (.reconciled result.1, result.2)
  | .release requestId now => (.done, cache.release requestId now)
  | .prune now => (.done, cache.prune now)
  | .insert requestId tokens kind now remainingHorizon =>
    (.done, cache.insertRecord checkedAdd requestId tokens kind now remainingHorizon)
  | .total now => (.count (cache.prune now).totalTokens, cache.prune now)

def step (op : TokenOp) (cache : TokenRecordCache) : TokenRecordCache :=
  (cache.apply checkedAdd op).2

end TokenRecordCache

/-! ## Pruning -/

/-- The heap is sorted, and every record has its entry in it. -/
structure Indexed (cache : TokenRecordCache) : Prop where
  sorted : cache.expirations.Pairwise fun a b => a.1 ≤ b.1
  entry : ∀ id record, cache.records id = some record →
    (record.expiresAt, id) ∈ cache.expirations

def Counted (cache : TokenRecordCache) : Prop := cache.totalTokens = tokensOf cache.records

namespace TokenRecordCache

variable {cache : TokenRecordCache} {now : ℕ} {id : Uuid}

theorem records_remove (cache : TokenRecordCache) (id : Uuid) :
    (cache.remove id).records = update cache.records id none := by
  unfold remove
  split
  · rfl
  · rename_i hnone
    rw [← hnone, update_eq_self]

theorem expirations_remove (cache : TokenRecordCache) (id : Uuid) :
    (cache.remove id).expirations = cache.expirations := by
  unfold remove
  split <;> rfl

theorem counted_remove (h : Counted cache) : Counted (cache.remove id) := by
  unfold Counted at h ⊢
  have hupdate := tokensOf_update cache.records id none
  rw [records_remove]
  unfold remove
  split
  · grind
  · grind

/-- A record that is due is not seen, so removing it changes nothing that is seen. -/
theorem seen_expire (cache : TokenRecordCache) (now : ℕ) (id : Uuid) :
    seenAt now (cache.expire now id).records = seenAt now cache.records := by
  unfold expire
  split
  · rename_i hdue
    obtain ⟨record, hrecord, hle⟩ := (any_eq_true _ _).mp hdue
    have hgone : seenAt now cache.records id = none := by
      rw [seenAt, alive, hrecord]
      simpa using hle
    rw [records_remove, seenAt, alive_update, filter_none, ← hgone,
      update_eq_self]
  · rfl

theorem not_due_expire {record : TokenRecord} (h : (cache.expire now id).records id = some record) :
    now < record.expiresAt := by
  unfold expire at h
  split at h
  · simp [records_remove] at h
  · grind

theorem records_expire {id' : Uuid} {record : TokenRecord}
    (h : (cache.expire now id).records id' = some record) : cache.records id' = some record := by
  unfold expire at h
  split at h
  · rw [records_remove, update_apply] at h
    split at h
    · cases h
    · exact h
  · exact h

theorem counted_expire (h : Counted cache) : Counted (cache.expire now id) := by
  unfold expire
  split
  · exact counted_remove h
  · exact h

theorem seen_of_not_due (h : ∀ id record, cache.records id = some record → now < record.expiresAt) :
    seenAt now cache.records = cache.records := by
  funext id
  cases hrecord : cache.records id with
  | none => simp [seenAt, alive, hrecord]
  | some record => exact alive_of_lt hrecord (h id record hrecord)

variable {entries : List (ℕ × Uuid)}

/-- **The loop of `prune` leaves what is seen**, if every record that is due has its entry. -/
theorem records_pruneLoop (sorted : entries.Pairwise fun a b => a.1 ≤ b.1)
    (entry : ∀ id record, cache.records id = some record → record.expiresAt ≤ now →
      (record.expiresAt, id) ∈ entries) :
    (pruneLoop now entries cache).records = seenAt now cache.records := by
  induction entries generalizing cache with
  | nil =>
    refine (seen_of_not_due fun id record hrecord => ?_).symm
    by_contra hdue
    exact nomatch entry id record hrecord (not_lt.mp hdue)
  | cons first rest ih =>
    obtain ⟨expiresAt, expiredId⟩ := first
    obtain ⟨hfirst, hrest⟩ := pairwise_cons.mp sorted
    unfold pruneLoop
    split
    · rw [ih hrest, seen_expire]
      intro id record hrecord hdue
      have hmem := entry id record (records_expire hrecord) hdue
      rcases mem_cons.mp hmem with heq | hmem
      · -- the entry that was popped belongs to a record that is gone
        obtain ⟨-, rfl⟩ := Prod.mk.inj heq
        exact absurd (not_due_expire hrecord) (not_lt.mpr hdue)
      · exact hmem
    · grind [seen_of_not_due, mem_cons.mp]

theorem expirations_pruneLoop (entries : List (ℕ × Uuid)) (cache : TokenRecordCache) :
    (pruneLoop now entries cache).expirations = entries.dropWhile fun entry => entry.1 ≤ now := by
  induction entries generalizing cache with
  | nil => rfl
  | cons first rest ih =>
    obtain ⟨expiresAt, expiredId⟩ := first
    unfold pruneLoop
    by_cases hdue : expiresAt ≤ now
    · rw [if_pos hdue, ih]
      simp [hdue]
    · rw [if_neg hdue]
      simp [hdue]

theorem counted_pruneLoop (h : Counted cache) :
    Counted (pruneLoop now entries cache) := by
  induction entries generalizing cache with
  | nil => exact h
  | cons first rest ih =>
    obtain ⟨expiresAt, expiredId⟩ := first
    unfold pruneLoop
    split
    · exact ih (counted_expire h)
    · exact h

theorem records_prune (h : Indexed cache) (now : ℕ) :
    (cache.prune now).records = seenAt now cache.records :=
  records_pruneLoop h.sorted fun id record hrecord _ => h.entry id record hrecord

theorem counted_prune (h : Counted cache) (now : ℕ) : Counted (cache.prune now) :=
  counted_pruneLoop h

theorem indexed_prune (h : Indexed cache) (now : ℕ) : Indexed (cache.prune now) where
  sorted := by
    rw [prune, expirations_pruneLoop]
    exact h.sorted.sublist (dropWhile_sublist _)
  entry id record hrecord := by
    rw [records_prune h, seenAt, alive_eq_some] at hrecord
    have hmem := h.entry id record hrecord.1
    rw [prune, expirations_pruneLoop]
    rw [← takeWhile_append_dropWhile (p := fun entry : ℕ × Uuid => entry.1 ≤ now)
      (l := cache.expirations), mem_append] at hmem
    rcases hmem with hmem | hmem
    · grind [mem_takeWhile_imp]
    · exact hmem

/-! ## Writes -/

variable {checkedAdd : ℕ → ℕ → Option ℕ} {record : TokenRecord} {tokens : ℕ}

theorem sorted_push (entry : ℕ × Uuid) (sorted : entries.Pairwise fun a b => a.1 ≤ b.1) :
    (entries.orderedInsert heapBefore entry).Pairwise fun a b => a.1 ≤ b.1 := by
  induction entries with
  | nil => simp
  | cons first rest ih =>
    obtain ⟨hfirst, hrest⟩ := pairwise_cons.mp sorted
    rw [orderedInsert]
    split
    · rename_i hbefore
      have hle : entry.1 ≤ first.1 := by
        rcases hbefore with hlt | heq
        · exact hlt.le
        · exact heq.1.le
      refine pairwise_cons.mpr ⟨fun other hother => ?_, sorted⟩
      rcases mem_cons.mp hother with rfl | hother
      · exact hle
      · exact hle.trans (hfirst other hother)
    · rename_i hafter
      have hle : first.1 ≤ entry.1 := not_lt.mp fun hlt => hafter (.inl hlt)
      refine pairwise_cons.mpr ⟨fun other hother => ?_, ih hrest⟩
      rcases mem_cons.mp ((perm_orderedInsert _ _ _).mem_iff.mp hother) with rfl | hother
      · exact hle
      · exact hfirst other hother

theorem indexed_put {expirations : List (ℕ × Uuid)} {total : ℕ} (h : Indexed cache)
    (hexpirations : expirations =
      cache.expirations.orderedInsert heapBefore (record.expiresAt, id)) :
    Indexed ⟨update cache.records id (some record), expirations, total⟩ where
  sorted := by
    rw [hexpirations]
    exact sorted_push _ h.sorted
  entry id' record' hrecord' := by
    simp only [hexpirations, (perm_orderedInsert _ _ _).mem_iff, mem_cons]
    by_cases hid : id' = id
    · grind [update_self, some.injEq]
    · grind [update_of_ne, Indexed]

theorem indexed_remove (h : Indexed cache) (id : Uuid) : Indexed (cache.remove id) where
  sorted := by
    rw [expirations_remove]
    exact h.sorted
  entry id' record' hrecord' := by
    rw [expirations_remove]
    rw [records_remove, update_apply] at hrecord'
    split at hrecord'
    · cases hrecord'
    · exact h.entry id' record' hrecord'

theorem records_insertRecord (cache : TokenRecordCache) (id : Uuid) (tokens : ℕ)
    (kind : TokenRecordKind) (now horizon : ℕ) :
    (cache.insertRecord checkedAdd id tokens kind now horizon).records =
      update cache.records id
        (some ⟨tokens, expiryAt checkedAdd now horizon, kind⟩) := by
  simp [insertRecord, store, pushExpiration, records_remove]

theorem totalTokens_insertRecord (cache : TokenRecordCache) (id : Uuid) (tokens : ℕ)
    (kind : TokenRecordKind) (now horizon : ℕ) :
    (cache.insertRecord checkedAdd id tokens kind now horizon).totalTokens =
      saturatingAdd (cache.remove id).totalTokens tokens := rfl

theorem indexed_insertRecord {kind : TokenRecordKind} {horizon : ℕ} (h : Indexed cache) :
    Indexed (cache.insertRecord checkedAdd id tokens kind now horizon) :=
  indexed_put (indexed_remove h id) rfl

theorem counted_insertRecord {kind : TokenRecordKind} {horizon : ℕ} (h : Counted cache)
    (fits : tokensOf (cache.insertRecord checkedAdd id tokens kind now horizon).records ≤ u64Max) :
    Counted (cache.insertRecord checkedAdd id tokens kind now horizon) := by
  have hremoved : (cache.remove id).totalTokens = tokensOf (cache.remove id).records :=
    counted_remove h
  have hupdate := tokensOf_update (cache.remove id).records id
    (some ⟨tokens, expiryAt checkedAdd now horizon, kind⟩)
  simp only [records_remove, update_self, elim_none, elim_some,
    update_idem] at hupdate
  unfold Counted
  rw [records_insertRecord] at fits ⊢
  rw [totalTokens_insertRecord, hremoved, records_remove, saturatingAdd]
  omega

theorem indexed_extend {existing : TokenRecord} {window : ℕ} (h : Indexed cache) :
    Indexed (cache.extend checkedAdd id existing now window) :=
  indexed_put h rfl

theorem counted_extend {existing : TokenRecord} {window : ℕ} (h : Counted cache)
    (found : cache.records id = some existing) :
    Counted (cache.extend checkedAdd id existing now window) := by
  have hupdate := tokensOf_update cache.records id
    (some { existing with expiresAt := expiryAt checkedAdd now window })
  simp only [found, elim_some] at hupdate
  have hsum : tokensOf (update cache.records id
      (some { existing with expiresAt := expiryAt checkedAdd now window })) =
      tokensOf cache.records := by omega
  exact h.trans hsum.symm

theorem records_dropReserved (cache : TokenRecordCache) (id : Uuid) :
    (cache.dropReserved id).records =
      written cache.records (if isReserved (cache.records id) then [(id, none)] else []) := by
  unfold dropReserved
  split
  · exact records_remove cache id
  · rfl

theorem counted_dropReserved (h : Counted cache) (id : Uuid) : Counted (cache.dropReserved id) := by
  unfold dropReserved
  split
  · exact counted_remove h
  · exact h

end TokenRecordCache

/-! ## What every operation keeps -/

/-- The heap stays complete, a terminal record that counts stays as it is, and the sum grows by
what is added at most. -/
structure Keeps (added : ℕ) (cache cache' : TokenRecordCache) : Prop where
  indexed : Indexed cache'
  terminal : ∀ id record, cache.records id = some record → record.kind = .terminal →
    cache'.records id = some record
  tokens : tokensOf cache'.records ≤ tokensOf cache.records + added

namespace TokenRecordCache

variable {checkedAdd : ℕ → ℕ → Option ℕ} {cache : TokenRecordCache} {now tokens limit window : ℕ}
  {reservationId terminalId : Uuid}

theorem keeps_refl (indexed : Indexed cache) : Keeps tokens cache cache :=
  ⟨indexed, fun _ _ h _ => h, Nat.le_add_right _ _⟩

theorem keeps_insertRecord {id : Uuid} {kind : TokenRecordKind} {horizon : ℕ}
    (indexed : Indexed cache) (free : cache.records id = none) :
    Keeps tokens cache (cache.insertRecord checkedAdd id tokens kind now horizon) := by
  refine ⟨indexed_insertRecord indexed, fun id' record hrecord _ => ?_, ?_⟩
  · have hne : id' ≠ id := by
      rintro rfl
      rw [free] at hrecord
      cases hrecord
    rw [records_insertRecord, update_of_ne hne]
    exact hrecord
  · rw [records_insertRecord]
    exact tokensOf_update_le _ _ _

theorem keeps_reservePruned (indexed : Indexed cache) :
    Keeps tokens cache
      (cache.reservePruned checkedAdd reservationId terminalId tokens limit now window).2 := by
  unfold reservePruned
  split
  · exact keeps_refl indexed
  · split
    · split
      · exact keeps_refl indexed
      · split <;> exact keeps_refl indexed
    · split
      · exact keeps_refl indexed
      · exact keeps_insertRecord indexed ‹_›

theorem keeps_renewPruned {restoreMissing : Bool} (indexed : Indexed cache) :
    Keeps tokens cache (cache.renewPruned checkedAdd reservationId terminalId tokens now window
      restoreMissing).2 := by
  unfold renewPruned
  split
  · exact keeps_refl indexed
  · split
    · rename_i existing hexisting
      split
      · exact keeps_refl indexed
      · rename_i hkind
        split
        · rename_i hsame
          refine ⟨indexed_extend indexed, fun id record hrecord hterminal => ?_, ?_⟩
          · have hne : id ≠ reservationId := by
              rintro rfl
              rw [hexisting, some.injEq] at hrecord
              rw [hrecord, hterminal] at hkind
              cases hkind
            exact (update_of_ne hne _ _).trans hrecord
          · rw [← hsame]
            exact tokensOf_update_le _ _ _
        · exact keeps_refl indexed
    · split
      · exact keeps_insertRecord indexed ‹_›
      · exact keeps_refl indexed

theorem keeps_dropReserved (indexed : Indexed cache) (id : Uuid) :
    Keeps 0 cache (cache.dropReserved id) := by
  unfold dropReserved
  split
  · rename_i hreserved
    refine ⟨indexed_remove indexed id, fun id' record hrecord hterminal => ?_, ?_⟩
    · have hne : id' ≠ id := by
        rintro rfl
        simp [isReserved, hrecord, hterminal] at hreserved
      rw [records_remove, update_of_ne hne]
      exact hrecord
    · rw [records_remove]
      exact tokensOf_update_le _ _ none
  · exact keeps_refl indexed

theorem keeps_recordTerminal {remainingHorizon : Option ℕ} (indexed : Indexed cache) :
    Keeps tokens cache
      (cache.recordTerminal checkedAdd terminalId tokens now remainingHorizon).2 := by
  unfold recordTerminal
  split
  · exact keeps_refl indexed
  · split
    · exact keeps_refl indexed
    · rename_i hfree
      split
      · exact keeps_refl indexed
      · exact keeps_insertRecord indexed (by simpa using hfree)

theorem keeps_reconcile {remainingHorizon : Option ℕ} (indexed : Indexed cache) :
    Keeps tokens cache ((cache.dropReserved reservationId).recordTerminal checkedAdd terminalId
      tokens now remainingHorizon).2 := by
  have hdropped := keeps_dropReserved indexed reservationId
  have hrecorded : Keeps tokens (cache.dropReserved reservationId)
      ((cache.dropReserved reservationId).recordTerminal checkedAdd terminalId tokens now
        remainingHorizon).2 := keeps_recordTerminal hdropped.indexed
  refine ⟨hrecorded.indexed, fun id record hrecord hterminal => ?_, ?_⟩
  · exact hrecorded.terminal id record (hdropped.terminal id record hrecord hterminal) hterminal
  · have := hdropped.tokens
    have := hrecorded.tokens
    omega

/-- **Every operation but a direct insert prunes, and then keeps what counts.** -/
theorem keeps_step (checkedAdd : ℕ → ℕ → Option ℕ) (op : TokenOp) (indexed : Indexed cache) :
    Keeps op.tokens (cache.prune op.now) (cache.step checkedAdd op) ∨
      ∃ id tokens kind now horizon, op = .insert id tokens kind now horizon := by
  have hpruned : ∀ now, Indexed (cache.prune now) := indexed_prune indexed
  cases op with
  | reserve => exact .inl (keeps_reservePruned (hpruned _))
  | renew => exact .inl (keeps_renewPruned (hpruned _))
  | reconcile => exact .inl (keeps_reconcile (hpruned _))
  | release => exact .inl (keeps_dropReserved (hpruned _) _)
  | prune => exact .inl (keeps_refl (hpruned _))
  | insert id tokens kind now horizon => exact .inr ⟨id, tokens, kind, now, horizon, rfl⟩
  | total => exact .inl (keeps_refl (hpruned _))

theorem indexed_step (op : TokenOp) (indexed : Indexed cache) :
    Indexed (cache.step checkedAdd op) := by
  rcases keeps_step checkedAdd op indexed with hkeeps | ⟨id, tokens, kind, now, horizon, rfl⟩
  · exact hkeeps.indexed
  · exact indexed_insertRecord indexed

theorem tokensOf_step_le (checkedAdd : ℕ → ℕ → Option ℕ) (op : TokenOp)
    (indexed : Indexed cache) :
    tokensOf (cache.step checkedAdd op).records ≤ tokensOf cache.records + op.tokens := by
  rcases keeps_step checkedAdd op indexed with hkeeps | ⟨id, tokens, kind, now, horizon, rfl⟩
  · have hpruned := tokensOf_seenAt_le op.now cache.records
    rw [← records_prune indexed] at hpruned
    have := hkeeps.tokens
    omega
  · have hrecords : (cache.step checkedAdd (.insert id tokens kind now horizon)).records = _ :=
      cache.records_insertRecord id tokens kind now horizon
    rw [hrecords]
    exact tokensOf_update_le _ _ _

theorem terminal_step {id : Uuid} {record : TokenRecord} (op : TokenOp) (indexed : Indexed cache)
    (found : cache.records id = some record) (terminal : record.kind = .terminal)
    (lives : op.now < record.expiresAt) (other : op.insertsAt id = false) :
    (cache.step checkedAdd op).records id = some record := by
  rcases keeps_step checkedAdd op indexed with hkeeps | ⟨requestId, tokens, kind, now, horizon, rfl⟩
  · refine hkeeps.terminal id record ?_ terminal
    rw [records_prune indexed]
    exact alive_of_lt found lives
  · have hne : id ≠ requestId := by
      rintro rfl
      simp [TokenOp.insertsAt] at other
    have hrecords :
        (cache.step checkedAdd (.insert requestId tokens kind now horizon)).records = _ :=
      cache.records_insertRecord requestId tokens kind now horizon
    rw [hrecords, update_of_ne hne]
    exact found

theorem reserve_within_limit (indexed : Indexed cache)
    (admitted : (cache.reserve checkedAdd reservationId terminalId tokens limit now window).1 =
      .reserved) :
    (cache.reserve checkedAdd reservationId terminalId tokens limit now window).2.totalTokens ≤
        limit ∨
      ∃ existing, seenAt now cache.records reservationId = some existing ∧
        existing.kind = .reserved ∧ existing.tokens = tokens := by
  rw [← records_prune indexed]
  unfold reserve reservePruned at admitted ⊢
  split
  · grind
  · rename_i hterminal
    rw [if_neg hterminal] at admitted
    cases hexisting : (cache.prune now).records reservationId with
    | some existing => grind
    | none =>
      simp only [hexisting] at admitted ⊢
      left
      split
      · rename_i hlimit
        simp [hlimit] at admitted
      · grind [remove, totalTokens_insertRecord, Indexed]

end TokenRecordCache

/-! ## Refinement -/

/-- The records an operation writes to: those it sees, except that a direct insert does not
prune. -/
def TokenOp.basis (op : TokenOp) (records : TokenMap) : TokenMap :=
  match op with
  | .insert _ _ _ _ _ => records
  | op => seenAt op.now records

theorem TokenOp.agree_basis (op : TokenOp) (records : TokenMap) :
    Agree TokenRecord.expiresAt op.now (op.basis records) records := by
  cases op with
  | insert requestId tokens kind now remainingHorizon => exact rfl
  | _ => exact Agree.of_alive

/-- The answer and the records of the ideal operation, and an exact counter. -/
structure Follows (records : TokenMap) (ideal : TokenAnswer × List TokenWrite)
    (result : TokenAnswer × TokenRecordCache) : Prop where
  answer : result.1 = ideal.1
  records : result.2.records = written records ideal.2
  counted : Counted result.2

namespace TokenRecordCache

variable {checkedAdd : ℕ → ℕ → Option ℕ} {cache : TokenRecordCache} {now tokens limit window : ℕ}
  {reservationId terminalId : Uuid}

theorem follows_reservePruned (counted : Counted cache)
    (fits : tokensOf (cache.reservePruned checkedAdd reservationId terminalId tokens limit now
      window).2.records ≤ u64Max) :
    Follows cache.records
      ((TokenOp.reserve reservationId terminalId tokens limit now window).ideal checkedAdd
        cache.records)
      ((fun result => (.reservation result.1, result.2))
        (cache.reservePruned checkedAdd reservationId terminalId tokens limit now window)) := by
  simp only [TokenOp.ideal]
  unfold reservePruned at fits ⊢
  split
  · exact ⟨rfl, rfl, counted⟩
  · rename_i hopen
    rw [if_neg hopen] at fits
    cases hexisting : cache.records reservationId with
    | some existing =>
      simp only
      cases hkind : existing.kind with
      | terminal => exact ⟨rfl, rfl, counted⟩
      | reserved =>
        simp only [reduceCtorEq, if_false]
        split <;> exact ⟨rfl, rfl, counted⟩
    | none =>
      simp only [hexisting] at fits ⊢
      have hcount : cache.totalTokens = tokensOf cache.records := counted
      by_cases hlimit : saturatingAdd cache.totalTokens tokens > limit
      · have hexact : tokensOf cache.records + tokens > limit := by
          rw [saturatingAdd] at hlimit
          omega
        rw [if_pos hlimit, if_pos hexact]
        exact ⟨rfl, rfl, counted⟩
      · rw [if_neg hlimit] at fits ⊢
        have hcounted := counted_insertRecord counted fits
        have hrecords : (cache.insertRecord checkedAdd reservationId tokens .reserved now
            window).records = _ := cache.records_insertRecord reservationId tokens _ now window
        have hexact : ¬ tokensOf cache.records + tokens > limit := by
          grind [tokensOf_update, saturatingAdd]
        rw [if_neg hexact]
        exact ⟨rfl, hrecords, hcounted⟩

theorem follows_renewPruned {restoreMissing : Bool} (counted : Counted cache)
    (fits : tokensOf (cache.renewPruned checkedAdd reservationId terminalId tokens now window
      restoreMissing).2.records ≤ u64Max) :
    Follows cache.records
      ((TokenOp.renew reservationId terminalId tokens now window restoreMissing).ideal checkedAdd
        cache.records)
      ((fun result => (.renewal result.1, result.2))
        (cache.renewPruned checkedAdd reservationId terminalId tokens now window
          restoreMissing)) := by
  simp only [TokenOp.ideal]
  unfold renewPruned at fits ⊢
  split
  · exact ⟨rfl, rfl, counted⟩
  · rename_i hopen
    rw [if_neg hopen] at fits
    cases hexisting : cache.records reservationId with
    | some existing =>
      simp only
      cases hkind : existing.kind with
      | terminal => exact ⟨rfl, rfl, counted⟩
      | reserved =>
        simp only [reduceCtorEq, if_false]
        split
        · rename_i hsame
          refine ⟨rfl, ?_, counted_extend counted hexisting⟩
          rw [← hsame, ← hkind]
          rfl
        · exact ⟨rfl, rfl, counted⟩
    | none =>
      simp only [hexisting] at fits ⊢
      split
      · rename_i hrestore
        rw [if_pos hrestore] at fits
        exact ⟨rfl, cache.records_insertRecord reservationId tokens _ now window,
          counted_insertRecord counted fits⟩
      · exact ⟨rfl, rfl, counted⟩

theorem follows_recordTerminal {base : TokenMap} {removed : List TokenWrite}
    {remainingHorizon : Option ℕ} (counted : Counted cache)
    (hbase : cache.records = written base removed)
    (fits : tokensOf (cache.recordTerminal checkedAdd terminalId tokens now
      remainingHorizon).2.records ≤ u64Max) :
    Follows base (idealTerminal checkedAdd base removed terminalId tokens now remainingHorizon)
      ((fun result => (.reconciled result.1, result.2))
        (cache.recordTerminal checkedAdd terminalId tokens now remainingHorizon)) := by
  unfold idealTerminal
  unfold recordTerminal at fits ⊢
  rw [← hbase]
  cases hterminal : cache.records terminalId with
  | some record =>
    cases hkind : record.kind with
    | terminal => exact ⟨by simp [isTerminal, hkind], by simp [isTerminal, hkind, hbase],
        by simpa [isTerminal, hkind] using counted⟩
    | reserved => exact ⟨by simp [isTerminal, hkind], by simp [isTerminal, hkind, hbase],
        by simpa [isTerminal, hkind] using counted⟩
  | none =>
    simp only [hterminal, isTerminal, any_none, Bool.false_eq_true, if_false,
      isSome_none] at fits ⊢
    cases hhorizon : remainingHorizon.filter (· ≠ 0) with
    | none => exact ⟨rfl, hbase, counted⟩
    | some horizon =>
      simp only [hhorizon] at fits ⊢
      refine ⟨rfl, ?_, counted_insertRecord counted fits⟩
      rw [records_insertRecord, written_append, ← hbase]
      rfl

theorem follows_apply (op : TokenOp) (indexed : Indexed cache) (counted : Counted cache)
    (fits : tokensOf (cache.step checkedAdd op).records ≤ u64Max) :
    Follows (op.basis cache.records) (op.ideal checkedAdd (seenAt op.now cache.records))
      (cache.apply checkedAdd op) := by
  have hprune : ∀ now, (cache.prune now).records = seenAt now cache.records := records_prune indexed
  have hcounted : ∀ now, Counted (cache.prune now) := counted_prune counted
  cases op with
  | reserve reservationId terminalId tokens limit now window =>
    simp only [TokenOp.basis, TokenOp.now, ← hprune]
    exact follows_reservePruned (hcounted now) fits
  | renew reservationId terminalId tokens now window restoreMissing =>
    simp only [TokenOp.basis, TokenOp.now, ← hprune]
    exact follows_renewPruned (hcounted now) fits
  | reconcile reservationId terminalId tokens now remainingHorizon =>
    simp only [TokenOp.basis, TokenOp.now, ← hprune]
    exact follows_recordTerminal (counted_dropReserved (hcounted now) _)
      (records_dropReserved _ _) fits
  | release requestId now =>
    simp only [TokenOp.basis, TokenOp.now, ← hprune]
    exact ⟨rfl, records_dropReserved _ _, counted_dropReserved (hcounted now) _⟩
  | prune now => exact ⟨rfl, hprune now, hcounted now⟩
  | insert requestId tokens kind now remainingHorizon =>
    exact ⟨rfl, cache.records_insertRecord requestId tokens kind now _,
      counted_insertRecord counted fits⟩
  | total now =>
    refine ⟨?_, hprune now, hcounted now⟩
    have hcount : (cache.prune now).totalTokens = tokensOf (cache.prune now).records :=
      hcounted now
    simp only [apply, TokenOp.ideal, TokenOp.now, hcount, hprune]

end TokenRecordCache

/-! ## Runs -/

structure Refines (now : ℕ) (cache : TokenRecordCache) (records : TokenMap) : Prop where
  indexed : Indexed cache
  counted : Counted cache
  agree : Agree TokenRecord.expiresAt now cache.records records

section Runs

variable {checkedAdd : ℕ → ℕ → Option ℕ} {cache : TokenRecordCache} {records : TokenMap} {now : ℕ}
  {ops : List TokenOp}

theorem refines_empty (now : ℕ) : Refines now {} fun _ => none where
  indexed := ⟨Pairwise.nil, fun _ _ h => nomatch h⟩
  counted := tokensOf_none.symm
  agree := rfl

theorem Refines.step (h : Refines now cache records) (op : TokenOp) (later : now ≤ op.now)
    (fits : tokensOf (cache.step checkedAdd op).records ≤ u64Max) :
    (cache.apply checkedAdd op).1 = idealAnswer checkedAdd op records ∧
      Refines op.now (cache.step checkedAdd op) (idealStep checkedAdd op records) := by
  have follows := TokenRecordCache.follows_apply op h.indexed h.counted fits
  have hagree : Agree TokenRecord.expiresAt op.now cache.records records := h.agree.later later
  have hseen : seenAt op.now cache.records = seenAt op.now records := hagree
  rw [hseen] at follows
  refine ⟨follows.answer, TokenRecordCache.indexed_step op h.indexed, follows.counted, ?_⟩
  rw [TokenRecordCache.step, follows.records]
  exact Agree.written _ ((op.agree_basis _).trans hagree)

/-- The sum of the records fits into the counter after every operation. -/
def Fits (checkedAdd : ℕ → ℕ → Option ℕ) (op : TokenOp) (cache : TokenRecordCache) : Prop :=
  tokensOf (cache.step checkedAdd op).records ≤ u64Max

theorem Refines.run (h : Refines now cache records)
    (clock : (now :: ops.map TokenOp.now).Pairwise (· ≤ ·))
    (fits : Along (TokenRecordCache.step checkedAdd) (Fits checkedAdd) ops cache) :
    replies (fun op cache => (TokenRecordCache.apply checkedAdd cache op).1)
        (TokenRecordCache.step checkedAdd) ops cache =
      replies (idealAnswer checkedAdd) (idealStep checkedAdd) ops records ∧
    ∀ later, (∀ op ∈ ops, op.now ≤ later) → now ≤ later →
      Refines later (runAll (TokenRecordCache.step checkedAdd) ops cache)
        (runAll (idealStep checkedAdd) ops records) := by
  induction ops generalizing now cache records with
  | nil => exact ⟨rfl, fun later _ hlater => ⟨h.indexed, h.counted, h.agree.later hlater⟩⟩
  | cons op rest ih =>
    simp only [map_cons, pairwise_cons, mem_cons, forall_eq_or_imp] at clock
    obtain ⟨⟨hnow, -⟩, hrest, hclock⟩ := clock
    obtain ⟨hanswer, h'⟩ := h.step op hnow fits.1
    obtain ⟨hreplies, hfinal⟩ := ih h' (pairwise_cons.mpr ⟨hrest, hclock⟩) fits.2
    refine ⟨?_, fun later hlater _ => ?_⟩
    · rw [replies, replies, hanswer, hreplies]
    · simp_all

theorem fits_of_sum (indexed : Indexed cache)
    (small : tokensOf cache.records + (ops.map TokenOp.tokens).sum ≤ u64Max) :
    Along (step checkedAdd) (Fits checkedAdd) ops cache := by
  induction ops generalizing cache with
  | nil => exact trivial
  | cons op rest ih =>
    rw [map_cons, sum_cons] at small
    have hstep := tokensOf_step_le checkedAdd op indexed
    exact ⟨by unfold Fits; omega, ih (indexed_step op indexed) (by omega)⟩

theorem terminal_run {id : Uuid} {record : TokenRecord} (indexed : Indexed cache)
    (found : cache.records id = some record) (terminal : record.kind = .terminal)
    (lives : ∀ op ∈ ops, op.now < record.expiresAt ∧ op.insertsAt id = false) :
    (runAll (step checkedAdd) ops cache).records id = some record := by
  induction ops generalizing cache with
  | nil => exact found
  | cons op rest ih =>
    obtain ⟨hlives, hother⟩ := lives op mem_cons_self
    exact ih (indexed_step op indexed)
      (terminal_step op indexed found terminal hlives hother)
      fun op' hop' => lives op' (mem_cons_of_mem _ hop')

/-- **The token window in memory refines the ideal one.**  After any operations with a clock that
does not run backwards, as long as the sum of the records fits into the counter:

* the counter is the sum of the tokens of the records;
* after pruning at any later time the records are exactly those the ideal map sees then;
* every answer was the ideal one;
* a reservation that is admitted leaves the counter within its limit, unless it was there with
  the same tokens;
* a terminal record stays as it is while it lives, whatever operations follow, a direct insert
  under its own identifier apart. -/
theorem token_window_refines_ideal (checkedAdd : ℕ → ℕ → Option ℕ) (ops : List TokenOp)
    (clock : (ops.map TokenOp.now).Pairwise (· ≤ ·))
    (fits : Along (step checkedAdd) (Fits checkedAdd) ops {}) :
    (runAll (step checkedAdd) ops {}).totalTokens =
        tokensOf (runAll (step checkedAdd) ops {}).records ∧
      (∀ now, (∀ op ∈ ops, op.now ≤ now) →
        ((runAll (step checkedAdd) ops {}).prune now).records =
          seenAt now (runAll (idealStep checkedAdd) ops fun _ => none)) ∧
      replies (fun op cache => (apply checkedAdd cache op).1)
          (step checkedAdd) ops {} =
        replies (idealAnswer checkedAdd) (idealStep checkedAdd) ops (fun _ => none) ∧
      (∀ reservationId terminalId tokens limit now window,
        ((runAll (step checkedAdd) ops {}).reserve checkedAdd reservationId
          terminalId tokens limit now window).1 = .reserved →
        ((runAll (step checkedAdd) ops {}).reserve checkedAdd reservationId
            terminalId tokens limit now window).2.totalTokens ≤ limit ∨
          ∃ existing, seenAt now (runAll (step checkedAdd) ops {}).records
              reservationId = some existing ∧ existing.kind = .reserved ∧
            existing.tokens = tokens) ∧
      ∀ id record, (runAll (step checkedAdd) ops {}).records id = some record →
        record.kind = .terminal →
        ∀ later, (∀ op ∈ later, op.now < record.expiresAt ∧ op.insertsAt id = false) →
          (runAll (step checkedAdd) later
            (runAll (step checkedAdd) ops {})).records id = some record := by
  have hclock : (0 :: ops.map TokenOp.now).Pairwise (· ≤ ·) :=
    pairwise_cons.mpr ⟨fun _ _ => Nat.zero_le _, clock⟩
  obtain ⟨hreplies, hfinal⟩ := (refines_empty 0).run hclock fits
  obtain ⟨indexed, counted, -⟩ := hfinal ((ops.map TokenOp.now).foldr max 0)
    (fun op hop => le_max_of_le' 0 (mem_map_of_mem hop) le_rfl) (Nat.zero_le _)
  refine ⟨counted, fun now hnow => ?_, hreplies, ?_, ?_⟩
  · rw [records_prune indexed]
    exact (hfinal now hnow (Nat.zero_le _)).agree
  · intro reservationId terminalId tokens limit now window
    exact reserve_within_limit indexed
  · intro id record found terminal later lives
    exact terminal_run indexed found terminal lives

end Runs

def exactAdd (now span : ℕ) : Option ℕ := some (now + span)

/-- **The counterexample.**  Two direct inserts whose tokens exceed the counter leave it below
the sum of the records, and a direct insert replaces a terminal record that lives. -/
theorem direct_inserts_break_the_window :
    (runAll (step exactAdd)
        [.insert 1 u64Max .reserved 0 60, .insert 2 1 .reserved 0 60] {}).totalTokens <
      tokensOf (runAll (step exactAdd)
        [.insert 1 u64Max .reserved 0 60, .insert 2 1 .reserved 0 60] {}).records ∧
    (runAll (step exactAdd) [.insert 1 10 .terminal 0 60] {}).records 1 =
      some ⟨10, 60, .terminal⟩ ∧
    (runAll (step exactAdd)
        [.insert 1 10 .terminal 0 60, .insert 1 20 .terminal 1 60] {}).records 1 =
      some ⟨20, 61, .terminal⟩ := by
  refine ⟨?_, by decide +kernel, by decide +kernel⟩
  have htotal : (runAll (step exactAdd)
      [.insert 1 u64Max .reserved 0 60, .insert 2 1 .reserved 0 60] {}).totalTokens = u64Max := by
    decide +kernel
  have hrecords : (runAll (step exactAdd)
      [.insert 1 u64Max .reserved 0 60, .insert 2 1 .reserved 0 60] {}).records =
      update (update (fun _ => none) 1 (some ⟨u64Max, 60, .reserved⟩)) 2
        (some ⟨1, 60, .reserved⟩) :=
    (records_insertRecord _ 2 1 _ 0 60).trans
      (congrArg (update · 2 _) (records_insertRecord _ 1 u64Max _ 0 60))
  have hfirst := tokensOf_update (fun _ => none) 1 (some ⟨u64Max, 60, .reserved⟩)
  have hsecond := tokensOf_update (update (fun _ => none) 1
    (some ⟨u64Max, 60, .reserved⟩)) 2 (some ⟨1, 60, .reserved⟩)
  have hfree : update (fun _ => none : TokenMap) 1 (some ⟨u64Max, 60, .reserved⟩) 2 =
      none := by decide +kernel
  simp only [hfree, elim_none, elim_some, tokensOf_none] at hfirst hsecond
  rw [htotal, hrecords]
  omega

/-- A reservation that is renewed and becomes a terminal record of another request. -/
def renewedAndReconciled : List TokenOp :=
  [.reserve 1 2 10 100 0 60, .renew 1 2 10 30 60 false, .reconcile 1 2 7 40 (some 50), .total 95]

/-- In the example the reservation would have expired at `60`, and the terminal record counts
until `90`. -/
theorem token_window_refines_ideal_renewed :
    (runAll (step exactAdd) renewedAndReconciled {}).totalTokens =
        tokensOf (runAll (step exactAdd) renewedAndReconciled {}).records ∧
      ((runAll (step exactAdd) renewedAndReconciled {}).prune 95).records =
        seenAt 95 (runAll (idealStep exactAdd) renewedAndReconciled fun _ => none) := by
  have refines := token_window_refines_ideal exactAdd renewedAndReconciled (by decide)
    (fits_of_sum (refines_empty 0).indexed (by
      rw [tokensOf_none]
      decide))
  exact ⟨refines.1, refines.2.1 95 (by decide)⟩

end KeyCompute.RateLimit
