import KeyCompute.RateLimit.RedisTokens
import KeyCompute.RateLimit.TokenRecordCache

/-!
# The token windows in Redis and in memory agree

Both backends are driven by the same calls at the same times.  What the Redis keys hold is described
by a list of entries (`encode`); the entries, read as a map, are the records of the cache.

The physical deadline of the keys is twice the window after their last use, while no entry lives
longer than the window after that time: a key that is gone held nothing that counts.
-/

namespace KeyCompute.RateLimit

open Redis Window TokenKeys Key List
open Relational (runAll)
open scoped Uuid

/-! ## Texts -/

section Texts

variable {large : ℕ → String} {n : ℕ}

theorem readDigits_toDigits (n : ℕ) : readDigits (Nat.toDigits 10 n) = some n := by
  have hall : (Nat.toDigits 10 n).all Char.isDigit = true := by
    rw [all_eq_true]
    exact fun c hc => Nat.isDigit_of_mem_toDigits (by omega) (by omega) hc
  unfold readDigits
  rw [if_pos ⟨Nat.toDigits_ne_nil, hall⟩, Nat.ofDigitChars_ten_toDigits]

theorem toList_luaString (h : n < plainBound) : (luaString large n).toList = Nat.toDigits 10 n := by
  simp [luaString, h]

theorem parseRecord_recordText (kind : TokenRecordKind) (h : n < plainBound) :
    parseRecord (recordText large kind n) = some (kind, n) := by
  unfold parseRecord recordText
  rw [String.toList_append, toList_luaString h, String.toList_ofList]
  cases kind <;> simp [TokenRecordKind.letter, readDigits_toDigits]

end Texts

/-! ## Entries -/

/-- The records under their identifiers, in the order Redis holds them. -/
abbrev TokenEntries := List (Uuid × TokenRecord)

namespace TokenEntries

def tokens (entries : TokenEntries) : ℕ := (entries.map fun e => e.2.tokens).sum

def view (entries : TokenEntries) : TokenMap := fun id => get id entries

def live (now : ℕ) (entries : TokenEntries) : TokenEntries :=
  entries.filter fun e => now < e.2.expiresAt

def due (now : ℕ) (entries : TokenEntries) : TokenEntries :=
  entries.filter fun e => e.2.expiresAt ≤ now

variable {entries : TokenEntries} {now : ℕ}

theorem tokensOf_view (unique : (entries.map Prod.fst).Nodup) :
    tokensOf (view entries) = tokens entries :=
  weight_lookup unique

theorem view_live (unique : (entries.map Prod.fst).Nodup) :
    view (live now entries) = seenAt now (view entries) := by
  funext id
  exact get_filter (p := fun record : TokenRecord => now < record.expiresAt) unique id

theorem tokens_due_add_live (now : ℕ) (entries : TokenEntries) :
    tokens (due now entries) + tokens (live now entries) = tokens entries := by
  unfold tokens due live
  induction entries with
  | nil => rfl
  | cons e rest ih => grind

theorem tokens_le_of_mem {e : Uuid × TokenRecord} (h : e ∈ entries) :
    e.2.tokens ≤ tokens entries :=
  le_sum_of_mem (mem_map.mpr ⟨e, h, rfl⟩)

theorem nodup_live (unique : (entries.map Prod.fst).Nodup) :
    ((live now entries).map Prod.fst).Nodup :=
  unique.sublist (filter_sublist.map _)

end TokenEntries

open TokenEntries

/-! ## What the keys hold -/

section Holds

variable (large : ℕ → String)

structure Shows (entries : TokenEntries) (keys : TokenKeys) : Prop where
  records : keys.records.value =
    relabel toString (fun record => recordText large record.kind record.tokens) entries
  expirations : keys.expirations.value = relabel toString TokenRecord.expiresAt entries

def encode (deadline : ℕ) (entries : TokenEntries) : TokenKeys where
  records := .till deadline
    (relabel toString (fun record => recordText large record.kind record.tokens) entries)
  expirations := .till deadline (relabel toString TokenRecord.expiresAt entries)
  total := .till deadline (if entries = [] then none else some (luaString large (tokens entries)))

/-- The keys after a script that ended with `EXPIRE`. -/
def sealed (now expireSecs : ℕ) (entries : TokenEntries) : TokenKeys :=
  if expireSecs = 0 then {} else encode large (now + expireSecs) entries

variable {large} {entries : TokenEntries} {keys : TokenKeys} {now expireSecs deadline total : ℕ}
  {keep : Bool} {id : Uuid}

theorem shows_encode : Shows large entries (encode large deadline entries) :=
  ⟨value_till, value_till⟩

@[simp] theorem encode_nil : encode large deadline [] = {} := rfl

@[simp] theorem sealed_nil : sealed large now expireSecs [] = {} := by
  unfold sealed
  split
  · rfl
  · exact encode_nil

theorem Shows.found (h : Shows large entries keys) (small : tokens entries < plainBound) :
    keys.found id = (view entries id).map fun record => some (record.kind, record.tokens) := by
  unfold TokenKeys.found view
  rw [h.records, get_relabel Uuid.toString_injective, Option.map_map]
  cases hid : get id entries with
  | none => rfl
  | some record =>
    have hle := tokens_le_of_mem (mem_of_get hid)
    simp only [Option.map_some, Function.comp_apply, Option.some.injEq]
    exact parseRecord_recordText _ (Nat.lt_of_le_of_lt hle small)

theorem Shows.length (h : Shows large entries keys) :
    keys.records.value.length = entries.length ∧
      keys.expirations.value.length = entries.length := by
  rw [h.records, h.expirations, length_relabel, length_relabel]
  exact ⟨rfl, rfl⟩

theorem Shows.add (h : Shows large entries keys) (id : Uuid) (record : TokenRecord) :
    Shows large (put id record entries)
      (keys.addRecord large id record.kind record.tokens record.expiresAt) := by
  constructor
  · rw [addRecord, value_modify, h.records, ← put_relabel Uuid.toString_injective]
  · rw [addRecord, value_modify, h.expirations,
      ← put_relabel Uuid.toString_injective]

theorem Shows.drop (h : Shows large entries keys) :
    Shows large (del id entries) (keys.dropRecord id) := by
  constructor
  · rw [dropRecord, value_modify, h.records, del_relabel Uuid.toString_injective]
  · rw [dropRecord, value_modify, h.expirations,
      del_relabel Uuid.toString_injective]

theorem Shows.extend (h : Shows large entries keys) (unique : (entries.map Prod.fst).Nodup)
    {record : TokenRecord} (hid : get id entries = some record) (expiresAt : ℕ) :
    Shows large (put id { record with expiresAt } entries)
      { keys with expirations := keys.expirations.modify (put (toString id) expiresAt) } := by
  constructor
  · rw [h.records]
    have hsame := relabel_put_of_eq (f := (toString : Uuid → String))
      (v := ({ record with expiresAt } : TokenRecord))
      (g := fun record : TokenRecord => recordText large record.kind record.tokens) unique hid
      (by simp only)
    exact hsame.symm
  · rw [value_modify, h.expirations, ← put_relabel Uuid.toString_injective]

theorem expireAll_eq_sealed (h : Shows large entries keys) (nonempty : entries ≠ [])
    (htotal : keys.total.value = some (luaString large (tokens entries))) :
    keys.expireAll now expireSecs = sealed large now expireSecs entries := by
  unfold sealed
  split
  · grind [expireAll, expire_zero, Shows]
  · rename_i hsecs
    simp only [expireAll, expire_eq_till hsecs, h.records, h.expirations, htotal,
      encode, if_neg nonempty]

theorem persist_eq_sealed (keep : Bool) (h : Shows large entries keys)
    (htotal : total = tokens entries)
    (hkeep : keep = true → entries ≠ [] → keys.total.value ≠ none) :
    keys.persist large keep now expireSecs total = (true, sealed large now expireSecs entries) := by
  obtain ⟨hrecords, hexpirations⟩ := h.length
  subst htotal
  unfold persist
  rw [hrecords, hexpirations, if_neg (fun hne => hne rfl)]
  by_cases hempty : entries = []
  · subst hempty
    simp [tokens]
  · rw [if_neg (fun hlen => hempty (length_eq_zero_iff.mp hlen))]
    refine congrArg (Prod.mk true) (expireAll_eq_sealed ⟨h.records, h.expirations⟩ hempty ?_)
    cases keep with
    | false => rfl
    | true => exact value_setExisting (hkeep rfl hempty)

/-! ## Pruning -/

theorem filter_relabel_due :
    (relabel toString TokenRecord.expiresAt entries).filter (fun e => decide (e.2 ≤ now)) =
      relabel toString TokenRecord.expiresAt (due now entries) := by
  unfold relabel due
  rw [filter_map]
  rfl

theorem filter_relabel_live :
    (relabel toString TokenRecord.expiresAt entries).filter (fun e => decide ¬ e.2 ≤ now) =
      relabel toString TokenRecord.expiresAt (live now entries) := by
  unfold relabel live
  rw [filter_map]
  congr 1
  refine filter_congr fun e _ => ?_
  simp

theorem expiredTotal_of_subset (h : Shows large entries keys)
    (unique : (entries.map Prod.fst).Nodup) (small : tokens entries < plainBound)
    (part : TokenEntries) (sub : ∀ e ∈ part, e ∈ entries) :
    expiredTotal keys.records.value (part.map fun e => toString e.1) =
      some (tokens part) := by
  induction part with
  | nil => rfl
  | cons e rest ih =>
    have hmem := sub e mem_cons_self
    have hget := get_of_mem unique hmem
    have hsmall := Nat.lt_of_le_of_lt (tokens_le_of_mem hmem) small
    rw [map_cons, expiredTotal, ih fun e' he' => sub e' (mem_cons_of_mem _ he')]
    rw [h.records, get_relabel Uuid.toString_injective, hget]
    simp only [Option.map_some, parseRecord_recordText _ hsmall]
    simp [tokens]

theorem Shows.removeExpired (h : Shows large entries keys) (unique : (entries.map Prod.fst).Nodup) :
    Shows large (live now entries) (keys.removeExpired now) := by
  constructor
  · rw [TokenKeys.removeExpired, value_modify, h.records, h.expirations, filter_relabel_due,
      foldl_del]
    unfold relabel live
    rw [filter_map]
    congr 1
    refine filter_congr fun e he => ?_
    simp only [Function.comp_apply, map_map, mem_map, decide_eq_decide]
    constructor
    · -- an entry that is due is among those that are removed
      intro hkept
      by_contra hdue
      exact hkept ⟨e, mem_filter.mpr ⟨he, by simpa using hdue⟩, rfl⟩
    · rintro hlive ⟨e', he', hsame⟩
      obtain ⟨hmem, hdue⟩ := mem_filter.mp he'
      have hget := get_of_mem unique he
      rw [← Uuid.toString_injective hsame, get_of_mem unique hmem] at hget
      rw [Option.some.inj hget] at hdue
      simp only [decide_eq_true_eq] at hdue
      omega
  · rw [TokenKeys.removeExpired, value_modify, h.expirations, filter_relabel_live]

theorem pruneExpired_encode (unique : (entries.map Prod.fst).Nodup)
    (small : tokens entries < plainBound) :
    (encode large deadline entries).pruneExpired large keep now expireSecs =
      (some (tokens (live now entries)), sealed large now expireSecs (live now entries)) := by
  by_cases hempty : entries = []
  · subst hempty
    have hlive : live now [] = [] := rfl
    rw [hlive, sealed_nil]
    rfl
  · have hshows : Shows large entries (encode large deadline entries) := shows_encode
    have htotal : (encode large deadline entries).total.value =
        some (luaString large (tokens entries)) := by
      rw [encode, value_till, if_neg hempty]
    have hsum := tokens_due_add_live now entries
    have hdue := expiredTotal_of_subset hshows unique small (due now entries)
      fun e he => (mem_filter.mp he).1
    unfold pruneExpired
    simp only [htotal, toList_luaString small, readDigits_toDigits]
    unfold pruneTotal
    have hids : (((encode large deadline entries).expirations.value.filter
        fun e => decide (e.2 ≤ now)).map Prod.fst) =
          (due now entries).map fun e => toString e.1 := by
      rw [hshows.expirations, filter_relabel_due]
      unfold relabel
      rw [map_map]
      rfl
    rw [hids, hdue]
    simp only
    have hleft : tokens entries - tokens (due now entries) = tokens (live now entries) := by omega
    rw [if_neg (by omega), hleft, persist_eq_sealed keep (hshows.removeExpired unique) rfl]
    · rfl
    · grind [removeExpired]

end Holds

/-! ## Calls -/

/-- The calls on the window of one key.  Usage that is reconciled without a time occurs now. -/
inductive LimiterCall where
  | mutateReservation (mode : Mode) (reservationId terminalId : Uuid)
      (tokens limit now : ℕ)
  | reconcile (occurredAt : Option ℕ) (reservationId terminalId : Uuid) (tokens now : ℕ)
  | release (requestId : Uuid) (now : ℕ)
  | count (now : ℕ)

open LimiterCall

namespace LimiterCall

def now : LimiterCall → ℕ
  | mutateReservation _ _ _ _ _ now => now
  | reconcile _ _ _ _ now => now
  | release _ now => now
  | count now => now

/-- `checked_sub` of the age of the usage from the window. -/
def remainingHorizon (window : ℕ) (occurredAt : Option ℕ) (now : ℕ) : Option ℕ :=
  let age := now - occurredAt.getD now
  if age ≤ window then some (window - age) else none

def inMemory (window : ℕ) : LimiterCall → TokenOp
  | mutateReservation .reserve reservationId terminalId tokens limit now =>
    .reserve reservationId terminalId tokens limit now window
  | mutateReservation .renew reservationId terminalId tokens _ now =>
    .renew reservationId terminalId tokens now window false
  | mutateReservation .restore reservationId terminalId tokens _ now =>
    .renew reservationId terminalId tokens now window true
  | reconcile occurredAt reservationId terminalId tokens now =>
    .reconcile reservationId terminalId tokens now (remainingHorizon window occurredAt now)
  | release requestId now => .release requestId now
  | count now => .total now

/-- The script in Redis; `expire_secs` is twice the window. -/
def inRedis (large : ℕ → String) (window : ℕ) (keys : TokenKeys) : LimiterCall → ℤ × TokenKeys
  | mutateReservation mode reservationId terminalId tokens limit now =>
    keys.reserveTokens large mode reservationId terminalId tokens limit now window (window * 2)
  | reconcile occurredAt reservationId terminalId tokens now =>
    keys.reconcileTokens large (occurredAt.elim (-1) (↑)) reservationId terminalId tokens now
      window (window * 2)
  | release requestId now => keys.releaseTokens large requestId now (window * 2)
  | count now => keys.getTokenCount large now (window * 2)

end LimiterCall

/-- The codes of the scripts, as the outcomes of the cache.  Codes for keys that do not fit together
correspond to nothing. -/
def Corresponds : TokenAnswer → ℤ → Prop
  | .reservation .reserved, code => code = 1
  | .reservation .limitExceeded, code => code = 0
  | .reservation .alreadyTerminal, code => code = -1
  | .reservation (.predictionMismatch _), code => code = -2
  | .renewal .renewed, code => code = 1
  | .renewal .missing, code => code = 2
  | .renewal .alreadyTerminal, code => code = -1
  | .renewal (.predictionMismatch _), code => code = -2
  | .reconciled true, code => code = 0 ∨ code = 1
  | .reconciled false, code => code = -1
  | .done, code => code = 0 ∨ code = 1
  | .count tokens, code => code = tokens

/-! ## One script -/

section Scripts

variable (large : ℕ → String)

/-- The keys hold the entries, as a script at a time left them. -/
structure Stores (window now : ℕ) (keys : TokenKeys) (entries : TokenEntries) : Prop where
  unique : (entries.map Prod.fst).Nodup
  expiry : ∀ e ∈ entries, e.2.expiresAt ≤ now + window
  eq_sealed : keys = sealed large now (window * 2) entries

/-- The keys as `prune_expired` leaves them. -/
structure Pruned (window now : ℕ) (keys : TokenKeys) (entries : TokenEntries) : Prop
    extends Stores large window now keys entries where
  lives : ∀ e ∈ entries, now < e.2.expiresAt
  small : tokens entries < plainBound

/-- The script answered and wrote as the ideal operation does. -/
def Settles (window now : ℕ) (records : TokenMap) (ideal : TokenAnswer × List TokenWrite)
    (result : ℤ × TokenKeys) : Prop :=
  Corresponds ideal.1 result.1 ∧
    ∃ entries, Stores large window now result.2 entries ∧ view entries = written records ideal.2

variable {large} {window now now' total tokens limit : ℕ} {keys : TokenKeys}
  {entries : TokenEntries} {reservationId terminalId id : Uuid}
  {answer : TokenAnswer} {code : ℤ} {record : TokenRecord}

theorem stores_empty : Stores large window now {} [] :=
  ⟨nodup_nil, fun _ h => (nomatch h), sealed_nil.symm⟩

theorem Stores.readAt (h : Stores large window now keys entries) (later : now ≤ now') :
    (keys.readAt now' = {} ∧ live now' entries = []) ∨
      ∃ deadline, keys.readAt now' = encode large deadline entries := by
  have hgone : now + window ≤ now' → live now' entries = [] := by
    intro hlate
    refine filter_eq_nil_iff.mpr fun e he => ?_
    have := h.expiry e he
    rw [decide_eq_true_eq]
    omega
  rw [h.eq_sealed]
  unfold sealed
  by_cases hwindow : window * 2 = 0
  · rw [if_pos hwindow]
    exact .inl ⟨rfl, hgone (by omega)⟩
  · rw [if_neg hwindow]
    by_cases hlate : now + window * 2 ≤ now'
    · left
      refine ⟨?_, hgone (by omega)⟩
      simp only [TokenKeys.readAt, encode, readAt_till_of_le hlate]
    · right
      refine ⟨now + window * 2, ?_⟩
      simp only [TokenKeys.readAt, encode, readAt_till_of_lt (Nat.lt_of_not_le hlate)]

/-- **A script finds the entries that still count, with their sum**, whether the keys are still
there or not. -/
theorem Stores.prune (keep : Bool) (h : Stores large window now keys entries)
    (small : TokenEntries.tokens entries < plainBound) (later : now ≤ now') :
    (keys.readAt now').pruneExpired large keep now' (window * 2) =
        (some (TokenEntries.tokens (live now' entries)),
          sealed large now' (window * 2) (live now' entries)) ∧
      Pruned large window now' (sealed large now' (window * 2) (live now' entries))
        (live now' entries) := by
  have hsum := tokens_due_add_live now' entries
  refine ⟨?_, ⟨nodup_live h.unique, fun e he => ?_, rfl⟩, fun e he => ?_, by omega⟩
  · rcases h.readAt later with ⟨hread, hlive⟩ | ⟨deadline, hread⟩
    · rw [hread, hlive, sealed_nil]
      rfl
    · rw [hread]
      exact pruneExpired_encode h.unique small
  · have := h.expiry e (mem_filter.mp he).1
    omega
  · simpa using (mem_filter.mp he).2

namespace Pruned

theorem eq_encode (h : Pruned large window now keys entries) :
    keys = encode large (now + window * 2) entries := by
  rw [h.eq_sealed, sealed]
  split
  · rename_i hzero
    have hempty : entries = [] := by
      refine eq_nil_iff_forall_not_mem.mpr fun e he => ?_
      have := h.lives e he
      have := h.expiry e he
      omega
    rw [hempty, encode_nil]
  · rfl

theorem shows (h : Pruned large window now keys entries) : Shows large entries keys := by
  rw [h.eq_encode]
  exact shows_encode

theorem value_total (h : Pruned large window now keys entries) (nonempty : entries ≠ []) :
    keys.total.value = some (luaString large (TokenEntries.tokens entries)) := by
  rw [h.eq_encode, encode, value_till, if_neg nonempty]

theorem found (h : Pruned large window now keys entries) (id : Uuid) :
    keys.found id = (view entries id).map fun record => some (record.kind, record.tokens) :=
  h.shows.found h.small

theorem unchanged (h : Pruned large window now keys entries)
    (corresponds : Corresponds answer code) :
    Settles large window now (view entries) (answer, []) (code, keys) :=
  ⟨corresponds, entries, h.toStores, rfl⟩

theorem stores_put (h : Pruned large window now keys entries)
    (expiry : record.expiresAt ≤ now + window) :
    Stores large window now (sealed large now (window * 2) (put id record entries))
      (put id record entries) where
  unique := nodup_put h.unique
  expiry e he := by
    rcases mem_put he with rfl | he
    · exact expiry
    · exact h.expiry e he
  eq_sealed := rfl

theorem stores_del (h : Pruned large window now keys entries) (id : Uuid) :
    Stores large window now (sealed large now (window * 2) (del id entries)) (del id entries) where
  unique := nodup_del h.unique
  expiry e he := h.expiry e (mem_filter.mp he).1
  eq_sealed := rfl

end Pruned

theorem view_put : view (put id record entries) = written (view entries) [(id, some record)] :=
  funext fun _ => get_put _

theorem view_del : view (del id entries) = written (view entries) [(id, none)] :=
  funext fun _ => get_del _

/-! ### Reservations -/

theorem reserveNew_eq (h : Pruned large window now keys entries) (hnone : view entries id = none)
    {mode : Mode} (hmode : mode ≠ .renew)
    (hlimit : ¬ (mode = .reserve ∧ TokenEntries.tokens entries + tokens > limit)) :
    keys.reserveNew large mode id tokens limit now window (window * 2)
        (TokenEntries.tokens entries) =
      (1, sealed large now (window * 2) (put id ⟨tokens, now + window, .reserved⟩ entries)) := by
  unfold reserveNew
  rw [if_neg hmode, if_neg hlimit]
  refine congrArg (Prod.mk 1) ?_
  have hshows := h.shows.add id ⟨tokens, now + window, .reserved⟩
  refine expireAll_eq_sealed ⟨hshows.records, hshows.expirations⟩ put_ne_nil ?_
  have hsum : TokenEntries.tokens (put id ⟨tokens, now + window, .reserved⟩ entries) =
      TokenEntries.tokens entries + tokens := sum_put_of_none hnone
  rw [hsum]
  rfl

theorem reserveAgain_eq (h : Pruned large window now keys entries)
    (hsome : view entries id = some record) {mode : Mode} (hmode : mode ≠ .reserve) :
    keys.reserveAgain mode id now window (window * 2) =
      (1, sealed large now (window * 2)
        (put id { record with expiresAt := now + window } entries)) := by
  unfold reserveAgain
  rw [if_pos hmode]
  refine congrArg (Prod.mk 1) ?_
  have hnonempty : entries ≠ [] := fun hempty => by simp [hempty, view] at hsome
  have hsum : TokenEntries.tokens (put id { record with expiresAt := now + window } entries) =
      TokenEntries.tokens entries := sum_put_of_some h.unique hsome rfl
  exact expireAll_eq_sealed (h.shows.extend h.unique hsome _) put_ne_nil
    (by rw [hsum]; exact h.value_total hnonempty)

theorem reservePruned_eq (h : Pruned large window now keys entries) (mode : Mode) :
    keys.reservePruned large mode reservationId terminalId tokens limit now window (window * 2)
        (TokenEntries.tokens entries) =
      if isTerminal (view entries terminalId) then (-1, keys)
      else
        match view entries reservationId with
        | some existing =>
          if existing.kind = .terminal then (-1, keys)
          else if existing.tokens = tokens then
            keys.reserveAgain mode reservationId now window (window * 2)
          else (-2, keys)
        | none =>
          keys.reserveNew large mode reservationId tokens limit now window (window * 2)
            (TokenEntries.tokens entries) := by
  unfold reservePruned
  rw [h.found, h.found]
  -- both sides compute once it is known what the two ids hold
  rcases view entries terminalId with _ | ⟨_, _, _ | _⟩ <;>
    rcases view entries reservationId with _ | ⟨_, _, _ | _⟩ <;> rfl

theorem mutateReservation_settles (h : Pruned large window now keys entries)
    (mode : Mode) :
    Settles large window now (view entries)
      (((mutateReservation mode reservationId terminalId tokens limit now).inMemory
        window).ideal exactAdd (view entries))
      (keys.reservePruned large mode reservationId terminalId tokens limit now window (window * 2)
        (TokenEntries.tokens entries)) := by
  have hadd : ∀ {mode : Mode} {answer : TokenAnswer}, Corresponds answer 1 →
      mode ≠ .renew → ¬ (mode = .reserve ∧ TokenEntries.tokens entries + tokens > limit) →
      view entries reservationId = none →
      Settles large window now (view entries)
        (answer, [(reservationId, some ⟨tokens, now + window, .reserved⟩)])
        (keys.reserveNew large mode reservationId tokens limit now window (window * 2)
          (TokenEntries.tokens entries)) := by
    intro mode answer hanswer hmode hlimit hnone
    rw [reserveNew_eq h hnone hmode hlimit]
    exact ⟨hanswer, _, h.stores_put (Nat.le_refl _), view_put⟩
  have hagain : ∀ {mode : Mode} {existing : TokenRecord}, mode ≠ .reserve →
      view entries reservationId = some existing → existing.kind ≠ .terminal →
      existing.tokens = tokens →
      Settles large window now (view entries)
        (.renewal .renewed, [(reservationId, some ⟨tokens, now + window, .reserved⟩)])
        (keys.reserveAgain mode reservationId now window (window * 2)) := by
    intro mode existing hmode hsome hkind hsame
    have hreserved : existing.kind = .reserved := by
      cases hcase : existing.kind with
      | terminal => exact absurd hcase hkind
      | reserved => rfl
    rw [reserveAgain_eq h hsome hmode, ← hsame, ← hreserved]
    exact ⟨rfl, _, h.stores_put (Nat.le_refl _), view_put⟩
  rw [reservePruned_eq h]
  cases mode with
  | reserve =>
    simp only [inMemory, TokenOp.ideal]
    split
    · exact h.unchanged rfl
    · cases hexisting : view entries reservationId with
      | some existing =>
        simp only
        split
        · exact h.unchanged rfl
        · split
          · exact h.unchanged rfl
          · exact h.unchanged rfl
      | none =>
        simp only [tokensOf_view h.unique]
        split
        · rename_i hlimit
          rw [reserveNew, if_neg (by decide), if_pos ⟨rfl, hlimit⟩]
          exact h.unchanged rfl
        · rename_i hlimit
          exact hadd rfl (by decide) (fun hboth => hlimit hboth.2) hexisting
  | renew =>
    simp only [inMemory, TokenOp.ideal]
    split
    · exact h.unchanged rfl
    · cases hexisting : view entries reservationId with
      | some existing =>
        simp only
        split
        · exact h.unchanged rfl
        · rename_i hkind
          split
          · exact hagain (by decide) hexisting hkind ‹_›
          · exact h.unchanged rfl
      | none =>
        rw [reserveNew, if_pos rfl]
        exact h.unchanged rfl
  | restore =>
    simp only [inMemory, TokenOp.ideal]
    split
    · exact h.unchanged rfl
    · cases hexisting : view entries reservationId with
      | some existing =>
        simp only
        split
        · exact h.unchanged rfl
        · rename_i hkind
          split
          · exact hagain (by decide) hexisting hkind ‹_›
          · exact h.unchanged rfl
      | none => exact hadd rfl (by decide) (fun hboth => by cases hboth.1) hexisting

/-! ### Reconciliation -/

theorem finish_eq (h : Shows large entries keys) (htotal : total = TokenEntries.tokens entries) :
    keys.finish large code now (window * 2) total =
      (code, sealed large now (window * 2) entries) := by
  rw [finish, persist_eq_sealed false h htotal (fun hkeep => nomatch hkeep)]
  rfl

theorem filter_remainingHorizon (occurredAt : Option ℕ) :
    (remainingHorizon window occurredAt now).filter (· ≠ 0) =
      if ((TokenKeys.occurredAt (occurredAt.elim (-1) (↑)) now : ℕ) : ℤ) ≤ (now : ℤ) - window then
        none
      else some (TokenKeys.occurredAt (occurredAt.elim (-1) (↑)) now + window - now) := by
  have hage : now - occurredAt.getD now =
      now - TokenKeys.occurredAt (occurredAt.elim (-1) (↑)) now ∧
      TokenKeys.occurredAt (occurredAt.elim (-1) (↑)) now ≤ now := by
    cases occurredAt with
    | none => simp [TokenKeys.occurredAt]
    | some time =>
      grind [TokenKeys.occurredAt, Int.toNat_natCast]
  obtain ⟨hage, hpast⟩ := hage
  unfold remainingHorizon
  simp only [hage]
  generalize TokenKeys.occurredAt (occurredAt.elim (-1) (↑)) now = time at hpast ⊢
  by_cases hold : (time : ℤ) ≤ (now : ℤ) - window
  · grind
  · grind

def removedReservation (records : TokenMap) (reservationId : Uuid) : List TokenWrite :=
  if isReserved (records reservationId) then [(reservationId, none)] else []

theorem terminalFound_eq (h : Pruned large window now keys entries) :
    keys.terminalFound reservationId terminalId =
      (written (view entries) (removedReservation (view entries) reservationId) terminalId).map
        fun record => some (record.kind, record.tokens) := by
  unfold terminalFound removedReservation
  have hreserved : ((keys.found reservationId).any fun found =>
      found.any fun record => decide (record.1 = .reserved)) =
        isReserved (view entries reservationId) := by
    rw [h.found]
    cases view entries reservationId <;> rfl
  rw [hreserved, h.found]
  by_cases hboth : toString reservationId = toString terminalId ∧
      isReserved (view entries reservationId) = true
  · obtain rfl := Uuid.toString_injective hboth.1
    rw [if_pos hboth, if_pos hboth.2]
    simp [written]
  · rw [if_neg hboth]
    split
    · rename_i hres
      have hne : terminalId ≠ reservationId := fun hsame => hboth ⟨hsame ▸ rfl, hres⟩
      simp [written, hne]
    · rfl

theorem reconcileTerminal_settles {base : TokenMap} {removed : List TokenWrite}
    (occurredAt : Option ℕ) (terminalId : Uuid) (tokens : ℕ) (shows : Shows large entries keys)
    (unique : (entries.map Prod.fst).Nodup) (expiry : ∀ e ∈ entries, e.2.expiresAt ≤ now + window)
    (hview : view entries = written base removed) :
    Settles large window now base
      (idealTerminal exactAdd base removed terminalId tokens now
        (remainingHorizon window occurredAt now))
      (keys.reconcileTerminal large
        ((written base removed terminalId).map fun record => some (record.kind, record.tokens))
        terminalId tokens (TokenKeys.occurredAt (occurredAt.elim (-1) (↑)) now) now window
        (window * 2) (TokenEntries.tokens entries)) := by
  have hstores : Stores large window now (sealed large now (window * 2) entries) entries :=
    ⟨unique, expiry, rfl⟩
  have hkeep : ∀ {answer : TokenAnswer} {code : ℤ}, Corresponds answer code →
      Settles large window now base (answer, removed)
        (keys.finish large code now (window * 2) (TokenEntries.tokens entries)) := by
    intro answer code hanswer
    rw [finish_eq shows rfl]
    exact ⟨hanswer, entries, hstores, hview⟩
  unfold idealTerminal TokenKeys.reconcileTerminal
  cases hterminal : written base removed terminalId with
  | some record =>
    obtain ⟨tokens, expiresAt, kind⟩ := record
    cases kind with
    | terminal => exact hkeep (.inl rfl)
    | reserved => exact hkeep rfl
  | none =>
    simp only [Option.map_none, filter_remainingHorizon]
    have hpast : TokenKeys.occurredAt (occurredAt.elim (-1) (↑)) now ≤ now := by
      unfold TokenKeys.occurredAt
      split
      · exact Nat.le_refl _
      · exact Nat.min_le_right _ _
    generalize TokenKeys.occurredAt (occurredAt.elim (-1) (↑)) now = time at hpast ⊢
    by_cases hold : (time : ℤ) ≤ (now : ℤ) - window
    · simp only [if_pos hold]
      refine hkeep ?_
      exact Or.inl rfl
    · simp only [if_neg hold]
      have hexpiry : expiryAt exactAdd now (time + window - now) = time + window := by
        simp only [expiryAt, exactAdd, Option.getD_some]
        omega
      have hsum : TokenEntries.tokens (put terminalId ⟨tokens, time + window, .terminal⟩ entries) =
          TokenEntries.tokens entries + tokens :=
        sum_put_of_none (show get terminalId entries = none from
          (congrFun hview terminalId).trans hterminal)
      simp only [hexpiry]
      rw [finish_eq (shows.add terminalId ⟨tokens, time + window, .terminal⟩) hsum.symm]
      refine ⟨.inr rfl, _, ⟨nodup_put unique, fun e he => ?_, rfl⟩, ?_⟩
      · rcases mem_put he with rfl | he
        · simp only
          omega
        · exact expiry e he
      · rw [view_put, written_append, hview]

theorem remove_checks (h : Pruned large window now keys entries)
    (hsome : view entries id = some record) :
    ¬ record.tokens > TokenEntries.tokens entries ∧
      ¬ (keys.records.value.length = 1 ∧ TokenEntries.tokens entries ≠ record.tokens) ∧
      TokenEntries.tokens entries - record.tokens = TokenEntries.tokens (del id entries) := by
  have hsum : TokenEntries.tokens (del id entries) + record.tokens = TokenEntries.tokens entries :=
    sum_del (c := TokenRecord.tokens) h.unique hsome
  refine ⟨by omega, ?_, by omega⟩
  rintro ⟨hlength, hne⟩
  rw [h.shows.length.1] at hlength
  obtain ⟨e, rfl⟩ := length_eq_one_iff.mp hlength
  have hmem := mem_of_get hsome
  rw [mem_singleton] at hmem
  subst hmem
  exact hne (by simp [TokenEntries.tokens])

theorem reconcile_settles (h : Pruned large window now keys entries) (occurredAt : Option ℕ) :
    Settles large window now (view entries)
      (((reconcile occurredAt reservationId terminalId tokens now).inMemory
        window).ideal exactAdd (view entries))
      (keys.reconcilePruned large reservationId terminalId tokens
        (TokenKeys.occurredAt (occurredAt.elim (-1) (↑)) now) now window (window * 2)
        (TokenEntries.tokens entries)) := by
  unfold TokenKeys.reconcilePruned
  rw [h.found, terminalFound_eq h]
  -- no reservation is removed
  have hstays : isReserved (view entries reservationId) = false →
      Settles large window now (view entries)
        (((reconcile occurredAt reservationId terminalId tokens now).inMemory
          window).ideal exactAdd (view entries))
        (keys.reconcileTerminal large
          ((written (view entries) (removedReservation (view entries) reservationId)
            terminalId).map fun record => some (record.kind, record.tokens)) terminalId tokens
          (TokenKeys.occurredAt (occurredAt.elim (-1) (↑)) now) now window (window * 2)
          (TokenEntries.tokens entries)) := by
    intro hreserved
    have hsettles := reconcileTerminal_settles occurredAt terminalId tokens h.shows h.unique
      h.expiry
      (written_nil (view entries)).symm
    simpa only [inMemory, TokenOp.ideal, removedReservation, hreserved,
      Bool.false_eq_true, if_false] using hsettles
  cases hreservation : view entries reservationId with
  | none =>
    have hsettles := hstays (by rw [hreservation]; rfl)
    cases hterminal : written (view entries) (removedReservation (view entries) reservationId)
        terminalId with
    | none => rwa [hterminal] at hsettles
    | some terminal => rwa [hterminal] at hsettles
  | some reservation =>
    cases hkind : reservation.kind with
    | terminal =>
      have hsettles := hstays (by rw [hreservation]; simp [isReserved, hkind])
      simp only [Option.map_some, hkind]
      cases hterminal : written (view entries) (removedReservation (view entries) reservationId)
          terminalId with
      | none => rwa [hterminal] at hsettles
      | some terminal => rwa [hterminal] at hsettles
    | reserved =>
      have hreserved : isReserved (view entries reservationId) = true := by grind [isReserved]
      obtain ⟨hle, hlone, hrest⟩ := remove_checks h hreservation
      have hstores := h.stores_del reservationId
      have hsettles := reconcileTerminal_settles occurredAt terminalId tokens h.shows.drop
        hstores.unique hstores.expiry view_del
      simp only [inMemory, TokenOp.ideal, removedReservation, hreserved, if_true,
        Option.map_some, hkind]
      cases hterminal : written (view entries) [(reservationId, none)] terminalId with
      | none => grind
      | some terminal => grind

/-! ### Release -/

theorem releaseFound_eq (h : Pruned large window now keys entries)
    (hsome : view entries id = some record) :
    keys.releaseFound large id record.tokens now (window * 2) (TokenEntries.tokens entries) =
      (1, sealed large now (window * 2) (del id entries)) := by
  obtain ⟨hle, hlone, hrest⟩ := remove_checks h hsome
  have hnonempty : entries ≠ [] := fun hempty => by simp [hempty, view] at hsome
  unfold releaseFound
  rw [if_neg hle, if_neg hlone, hrest, persist_eq_sealed true h.shows.drop rfl]
  · rfl
  · intro _ _ hnone
    rw [dropRecord, h.value_total hnonempty] at hnone
    cases hnone

theorem Stores.settles (h : Stores large window now keys entries)
    (small : TokenEntries.tokens entries < plainBound) (call : LimiterCall)
    (later : now ≤ call.now) :
    Settles large window call.now (seenAt call.now (view entries))
      ((call.inMemory window).ideal exactAdd (seenAt call.now (view entries)))
      (call.inRedis large window keys) := by
  rw [← view_live h.unique]
  cases call with
  | mutateReservation mode reservationId terminalId tokens limit now' =>
    obtain ⟨hprune, hpruned⟩ := h.prune false small (show now ≤ now' from later)
    simp only [LimiterCall.now, LimiterCall.inRedis, reserveTokens, hprune]
    exact mutateReservation_settles hpruned mode
  | reconcile occurredAt reservationId terminalId tokens now' =>
    obtain ⟨hprune, hpruned⟩ := h.prune false small (show now ≤ now' from later)
    simp only [LimiterCall.now, LimiterCall.inRedis, reconcileTokens, hprune]
    exact reconcile_settles hpruned occurredAt
  | release requestId now' =>
    obtain ⟨hprune, hpruned⟩ := h.prune true small (show now ≤ now' from later)
    simp only [LimiterCall.now, LimiterCall.inRedis, releaseTokens, hprune,
      hpruned.found, LimiterCall.inMemory, TokenOp.ideal]
    rcases Option.eq_none_or_eq_some (view (live now' entries) requestId) with
      hfound | ⟨⟨tokens, expiresAt, kind⟩, hfound⟩
    · simp only [hfound, Option.map_none, isReserved, Option.any_none, Bool.false_eq_true, if_false]
      exact ⟨.inl rfl, _, hpruned.toStores, rfl⟩
    · cases kind with
      | terminal =>
        simp only [hfound, Option.map_some, isReserved, Option.any_some, reduceCtorEq,
          decide_false, Bool.false_eq_true, if_false]
        exact ⟨.inl rfl, _, hpruned.toStores, rfl⟩
      | reserved =>
        simp only [hfound, Option.map_some, isReserved, Option.any_some, decide_true, if_true]
        rw [releaseFound_eq hpruned hfound]
        exact ⟨.inr rfl, _, hpruned.stores_del requestId, view_del⟩
  | count now' =>
    obtain ⟨hprune, hpruned⟩ := h.prune true small (show now ≤ now' from later)
    simp only [LimiterCall.now, LimiterCall.inRedis, getTokenCount, hprune,
      LimiterCall.inMemory, TokenOp.ideal, tokensOf_view hpruned.unique]
    exact hpruned.unchanged rfl

end Scripts

/-! ## Runs -/

def TokenKeys.recordsAt (now : ℕ) (keys : TokenKeys) : TokenMap := fun id =>
  match (keys.readAt now).found id, get (toString id) (keys.readAt now).expirations.value with
  | some (some (kind, tokens)), some expiresAt =>
    if now < expiresAt then some ⟨tokens, expiresAt, kind⟩ else none
  | _, _ => none

namespace LimiterCall

def memoryAnswer (window : ℕ) (call : LimiterCall) (cache : TokenRecordCache) : TokenAnswer :=
  (cache.apply exactAdd (call.inMemory window)).1

def memoryStep (window : ℕ) (call : LimiterCall) (cache : TokenRecordCache) : TokenRecordCache :=
  cache.step exactAdd (call.inMemory window)

def redisAnswer (large : ℕ → String) (window : ℕ) (call : LimiterCall) (keys : TokenKeys) : ℤ :=
  (call.inRedis large window keys).1

def redisStep (large : ℕ → String) (window : ℕ) (call : LimiterCall) (keys : TokenKeys) :
    TokenKeys :=
  (call.inRedis large window keys).2

/-- The running total stays among the numbers that Lua prints in plain digits. -/
def StaysPlain (window : ℕ) (call : LimiterCall) (cache : TokenRecordCache) : Prop :=
  tokensOf (call.memoryStep window cache).records < plainBound

end LimiterCall

open LimiterCall

section Runs

variable {large : ℕ → String} {window now now' : ℕ} {keys : TokenKeys} {cache : TokenRecordCache}
  {entries : TokenEntries} {calls : List LimiterCall}

theorem Stores.recordsAt (h : Stores large window now keys entries)
    (small : TokenEntries.tokens entries < plainBound) (later : now ≤ now') :
    keys.recordsAt now' = seenAt now' (view entries) := by
  funext id
  unfold TokenKeys.recordsAt
  rcases h.readAt later with ⟨hread, hlive⟩ | ⟨deadline, hread⟩
  · rw [hread, ← view_live h.unique, hlive]
    rfl
  · have hshows : Shows large entries (encode large deadline entries) := shows_encode
    rw [hread, hshows.found small, hshows.expirations, get_relabel Uuid.toString_injective]
    have hview : get id entries = view entries id := rfl
    rw [hview, seenAt, alive]
    cases view entries id with
    | none => rfl
    | some record => simp [Option.filter_some]

structure Agrees (large : ℕ → String) (window now : ℕ) (keys : TokenKeys)
    (cache : TokenRecordCache) : Prop where
  indexed : Indexed cache
  counted : Counted cache
  small : tokensOf cache.records < plainBound
  stores : ∃ entries, Stores large window now keys entries ∧ view entries = cache.records

theorem agrees_empty : Agrees large window now {} {} where
  indexed := (refines_empty now).indexed
  counted := (refines_empty now).counted
  small := by
    rw [show ({} : TokenRecordCache).records = fun _ => none from rfl, tokensOf_none]
    decide
  stores := ⟨[], stores_empty, rfl⟩

theorem Agrees.step (h : Agrees large window now keys cache) (call : LimiterCall)
    (later : now ≤ call.now) (plain : call.StaysPlain window cache) :
    Corresponds (call.memoryAnswer window cache) (call.redisAnswer large window keys) ∧
      Agrees large window call.now (call.redisStep large window keys)
        (call.memoryStep window cache) := by
  obtain ⟨entries, hstores, hview⟩ := h.stores
  have hsmall : TokenEntries.tokens entries < plainBound := by
    rw [← tokensOf_view hstores.unique, hview]
    exact h.small
  have hfits : tokensOf (cache.step exactAdd (call.inMemory window)).records ≤ u64Max :=
    Nat.le_trans (Nat.le_of_lt plain) (by decide)
  have follows := TokenRecordCache.follows_apply (call.inMemory window) h.indexed h.counted hfits
  have hsettles := hstores.settles hsmall call later
  have hnow : (call.inMemory window).now = call.now := by
    rcases call with ⟨⟨⟩, _⟩ | _ | _ | _ <;> rfl
  have hbasis : (call.inMemory window).basis cache.records = seenAt call.now cache.records := by
    rcases call with ⟨⟨⟩, _⟩ | _ | _ | _ <;> rfl
  rw [hview] at hsettles
  rw [hnow, hbasis] at follows
  obtain ⟨hcode, entries', hstores', hview'⟩ := hsettles
  refine ⟨?_, TokenRecordCache.indexed_step _ h.indexed, follows.counted, plain,
    entries', hstores', hview'.trans follows.records.symm⟩
  rw [memoryAnswer, follows.answer]
  exact hcode

theorem Agrees.later (h : Agrees large window now keys cache) (later : now ≤ now') :
    keys.recordsAt now' = (cache.prune now').records ∧
      (keys.getTokenCount large now' (window * 2)).1 = (cache.prune now').totalTokens := by
  obtain ⟨entries, hstores, hview⟩ := h.stores
  have hsmall : TokenEntries.tokens entries < plainBound := by
    rw [← tokensOf_view hstores.unique, hview]
    exact h.small
  have hcounted : (cache.prune now').totalTokens = tokensOf (cache.prune now').records :=
    TokenRecordCache.counted_prune h.counted now'
  obtain ⟨hprune, hpruned⟩ := hstores.prune true hsmall later
  constructor
  · rw [hstores.recordsAt hsmall later, hview, TokenRecordCache.records_prune h.indexed]
  · rw [hcounted, TokenRecordCache.records_prune h.indexed, ← hview, ← view_live hstores.unique,
      tokensOf_view hpruned.unique]
    simp only [getTokenCount, hprune]

theorem Agrees.run (h : Agrees large window now keys cache)
    (clock : (now :: calls.map LimiterCall.now).Pairwise (· ≤ ·))
    (plain : Relational.Along (memoryStep window) (StaysPlain window) calls cache) :
    Forall₂ Corresponds
        (Relational.replies (memoryAnswer window) (memoryStep window) calls cache)
        (Relational.replies (redisAnswer large window) (redisStep large window) calls keys) ∧
      ∃ last, (last = now ∨ ∃ call ∈ calls, last = call.now) ∧
        Agrees large window last (runAll (redisStep large window) calls keys)
          (runAll (memoryStep window) calls cache) := by
  induction calls generalizing now keys cache with
  | nil => exact ⟨.nil, now, .inl rfl, h⟩
  | cons call rest ih =>
    simp only [map_cons, pairwise_cons, mem_cons, forall_eq_or_imp] at clock
    obtain ⟨⟨hnow, -⟩, hrest, hclock⟩ := clock
    obtain ⟨hanswer, h'⟩ := h.step call hnow plain.1
    obtain ⟨hreplies, last, hlast, hfinal⟩ :=
      ih h' (pairwise_cons.mpr ⟨hrest, hclock⟩) plain.2
    refine ⟨.cons hanswer hreplies, last, .inr ?_, hfinal⟩
    rcases hlast with rfl | ⟨other, hother, rfl⟩
    · exact ⟨call, mem_cons_self, rfl⟩
    · exact ⟨other, mem_cons_of_mem _ hother, rfl⟩

/-- **The token windows in Redis and in memory agree.**  Both start empty and see the same calls,
with the same window and a clock that does not run backwards; the running totals stay below 10¹⁴.

* At every call the code of the script corresponds to the outcome of the cache.  The codes for keys
  that do not fit together correspond to no outcome, so they are never returned.
* From the last call on, the records that count and their sum are the same. -/
theorem redis_agrees_with_memory (large : ℕ → String) (window : ℕ) (calls : List LimiterCall)
    (clock : (calls.map LimiterCall.now).Pairwise (· ≤ ·))
    (plain : Relational.Along (memoryStep window) (StaysPlain window) calls {}) :
    List.Forall₂ Corresponds
        (Relational.replies (memoryAnswer window) (memoryStep window) calls {})
        (Relational.replies (redisAnswer large window) (redisStep large window) calls {}) ∧
      ∀ now, (∀ call ∈ calls, call.now ≤ now) →
        (runAll (redisStep large window) calls {}).recordsAt now =
            ((runAll (memoryStep window) calls {}).prune now).records ∧
          ((runAll (redisStep large window) calls {}).getTokenCount large now (window * 2)).1 =
            ((runAll (memoryStep window) calls {}).prune now).totalTokens := by
  have hclock : (0 :: calls.map LimiterCall.now).Pairwise (· ≤ ·) :=
    List.pairwise_cons.mpr ⟨fun _ _ => Nat.zero_le _, clock⟩
  have hempty : Agrees large window 0 {} {} := agrees_empty
  obtain ⟨hreplies, last, hlast, hagrees⟩ := hempty.run hclock plain
  refine ⟨hreplies, fun now hnow => hagrees.later ?_⟩
  rcases hlast with rfl | ⟨call, hcall, rfl⟩
  · exact Nat.zero_le _
  · exact hnow call hcall

theorem staysPlain_of_sum (indexed : Indexed cache)
    (small : tokensOf cache.records + (calls.map fun call => (call.inMemory window).tokens).sum <
      plainBound) :
    Relational.Along (memoryStep window) (StaysPlain window) calls cache := by
  induction calls generalizing cache with
  | nil => exact trivial
  | cons call rest ih =>
    rw [map_cons, sum_cons] at small
    have hstep := TokenRecordCache.tokensOf_step_le exactAdd (call.inMemory window) indexed
    exact ⟨by unfold StaysPlain memoryStep; omega,
      ih (TokenRecordCache.indexed_step _ indexed) (by unfold memoryStep; omega)⟩

end Runs

/-- A reservation is made, repeated and reconciled with usage from a while ago; the last call finds
the keys gone. -/
def reservedAndReconciled : List LimiterCall :=
  [.mutateReservation .reserve 1 2 100 500 10, .mutateReservation .restore 1 2 100 500 20,
    .reconcile (some 15) 1 2 80 30, .count 40, .mutateReservation .renew 1 2 100 500 50,
    .count 200]

theorem redis_agrees_with_memory_reconciled :
    List.Forall₂ Corresponds
        (Relational.replies (memoryAnswer 60) (memoryStep 60) reservedAndReconciled {})
        (Relational.replies (redisAnswer toString 60) (redisStep toString 60)
          reservedAndReconciled {}) ∧
      Relational.replies (redisAnswer toString 60) (redisStep toString 60)
        reservedAndReconciled {} = [1, 1, 1, 80, -1, 0] := by
  refine ⟨(redis_agrees_with_memory toString 60 reservedAndReconciled (by decide)
    (staysPlain_of_sum (refines_empty 0).indexed ?_)).1, by decide +kernel⟩
  rw [show ({} : TokenRecordCache).records = fun _ => none from rfl, tokensOf_none]
  decide

end KeyCompute.RateLimit
