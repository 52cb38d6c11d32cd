import KeyCompute.RateLimit.TokenWindow
import KeyCompute.Redis.Key
import KeyCompute.Database.UuidText

/-!
# The token window in Redis

Three keys hold the window of a rate-limit key: a hash from request identifiers to `kind:tokens`, a
sorted set from request identifiers to their expiry, and the sum of the tokens as a text.  Each key
also has a physical deadline, twice the window after its last use.

Every script starts with `prune_expired` and gives up when the keys do not fit together; it then
leaves what it had already written.  How Lua prints a number from 10¹⁴ on is left open.
-/

namespace KeyCompute.RateLimit

open Redis

/-! ## Texts -/

/-- `tonumber` of a text that matches `%d+`. -/
def readDigits (text : List Char) : Option ℕ :=
  if text ≠ [] ∧ text.all Char.isDigit then some (Nat.ofDigitChars 10 text 0) else none

def TokenRecordKind.letter : TokenRecordKind → Char
  | reserved => 'r'
  | terminal => 't'

/-- `parse_record`: the text has to match `([rt]):(%d+)`. -/
def parseRecord (text : String) : Option (TokenRecordKind × ℕ) :=
  match text.toList with
  | 'r' :: ':' :: digits => (readDigits digits).map (.reserved, ·)
  | 't' :: ':' :: digits => (readDigits digits).map (.terminal, ·)
  | _ => none

/-- The numbers that Lua prints in plain digits. -/
def plainBound : ℕ := 10 ^ 14

structure TokenKeys where
  records : Key (List (String × String)) := default
  expirations : Key (List (String × ℕ)) := default
  total : Key (Option String) := default
  deriving DecidableEq

section Scripts

variable (large : ℕ → String)

/-- `tostring` of a number. -/
def luaString (n : ℕ) : String :=
  if n < plainBound then String.ofList (Nat.toDigits 10 n) else large n

def recordText (kind : TokenRecordKind) (tokens : ℕ) : String :=
  String.ofList [kind.letter, ':'] ++ luaString large tokens

namespace TokenKeys

def readAt (now : ℕ) (keys : TokenKeys) : TokenKeys where
  records := keys.records.readAt now
  expirations := keys.expirations.readAt now
  total := keys.total.readAt now

/-- `EXPIRE` on all three keys. -/
def expireAll (now expireSecs : ℕ) (keys : TokenKeys) : TokenKeys where
  records := keys.records.expire now expireSecs
  expirations := keys.expirations.expire now expireSecs
  total := keys.total.expire now expireSecs

/-- `HGET` and `parse_record`; a record that is there may be unreadable. -/
def found (keys : TokenKeys) (id : Uuid) : Option (Option (TokenRecordKind × ℕ)) :=
  (get (toString id) keys.records.value).map parseRecord

/-- `HSET` and `ZADD`. -/
def addRecord (keys : TokenKeys) (id : Uuid) (kind : TokenRecordKind) (tokens expiresAt : ℕ) :
    TokenKeys :=
  { keys with
    records := keys.records.modify (put (toString id) (recordText large kind tokens)),
    expirations := keys.expirations.modify (put (toString id) expiresAt) }

/-- `HDEL` and `ZREM`. -/
def dropRecord (keys : TokenKeys) (id : Uuid) : TokenKeys :=
  { keys with
    records := keys.records.modify (del (toString id)),
    expirations := keys.expirations.modify (del (toString id)) }

/-- `SET` of the sum, with `XX` and `KEEPTTL` in the scripts that may run out of memory. -/
def setTotal (keep : Bool) (total : ℕ) (keys : TokenKeys) : TokenKeys :=
  { keys with
    total := if keep then keys.total.setExisting (some (luaString large total))
      else .set (some (luaString large total)) }

/-- `persist`, which is also how `prune_expired` and the release of a record end.  The sum never
is negative here: every subtraction is behind a comparison. -/
def persist (keep : Bool) (now expireSecs total : ℕ) (keys : TokenKeys) : Bool × TokenKeys :=
  if keys.records.value.length ≠ keys.expirations.value.length then (false, keys)
  else if keys.records.value.length = 0 then
    if total ≠ 0 then (false, keys) else (true, {})
  else (true, (keys.setTotal large keep total).expireAll now expireSecs)

/-- The tokens of the records that are due, `none` if one of them cannot be read. -/
def expiredTotal (records : List (String × String)) : List String → Option ℕ
  | [] => some 0
  | id :: rest =>
    match get id records with
    | none => expiredTotal records rest
    | some text =>
      match parseRecord text with
      | none => none
      | some (_, tokens) => (expiredTotal records rest).map (tokens + ·)

/-- `ZREMRANGEBYSCORE`, and `HDEL` of the same identifiers. -/
def removeExpired (now : ℕ) (keys : TokenKeys) : TokenKeys :=
  { keys with
    records := keys.records.modify fun records =>
      ((keys.expirations.value.filter (·.2 ≤ now)).map Prod.fst).foldl
        (fun m id => del id m) records,
    expirations := keys.expirations.modify fun entries => entries.filter fun e => ¬ e.2 ≤ now }

/-- The end of `prune_expired`, once the sum was read. -/
def pruneTotal (keep : Bool) (now expireSecs total : ℕ) (keys : TokenKeys) :
    Option ℕ × TokenKeys :=
  match expiredTotal keys.records.value
      ((keys.expirations.value.filter (·.2 ≤ now)).map Prod.fst) with
  | none => (none, keys)
  | some expired =>
    if expired > total then (none, keys)
    else
      let result := (keys.removeExpired now).persist large keep now expireSecs (total - expired)
      (if result.1 then some (total - expired) else none, result.2)

def pruneExpired (keep : Bool) (now expireSecs : ℕ) (keys : TokenKeys) : Option ℕ × TokenKeys :=
  match keys.total.value with
  | none =>
    (if keys.records.value.length = 0 ∧ keys.expirations.value.length = 0 then some 0 else none,
      keys)
  | some rawTotal =>
    match readDigits rawTotal.toList with
    | none => (none, keys)
    | some total => keys.pruneTotal large keep now expireSecs total

/-! ## `RESERVE_TOKENS_SCRIPT` -/

/-- The `mode` argument. -/
inductive Mode where
  | reserve
  | renew
  | restore
  deriving DecidableEq

/-- The part of the script for an identifier without a record. -/
def reserveNew (mode : Mode) (reservationId : Uuid) (tokens limit now window expireSecs total : ℕ)
    (keys : TokenKeys) : ℤ × TokenKeys :=
  if mode = .renew then (2, keys)
  else if mode = .reserve ∧ total + tokens > limit then (0, keys)
  else (1, ((keys.addRecord large reservationId .reserved tokens (now + window)).setTotal large
    false (total + tokens)).expireAll now expireSecs)

/-- The part of the script for a reservation that is there with the same tokens. -/
def reserveAgain (mode : Mode) (reservationId : Uuid) (now window expireSecs : ℕ)
    (keys : TokenKeys) : ℤ × TokenKeys :=
  if mode ≠ .reserve then
    (1, ({ keys with
      expirations := keys.expirations.modify
        (put (toString reservationId) (now + window)) }).expireAll now expireSecs)
  else (1, keys)

/-- The script after `prune_expired`. -/
def reservePruned (mode : Mode) (reservationId terminalId : Uuid)
    (tokens limit now window expireSecs total : ℕ) (keys : TokenKeys) : ℤ × TokenKeys :=
  match keys.found terminalId with
  | some none => (-3, keys)
  | some (some (.terminal, _)) => (-1, keys)
  | _ =>
    match keys.found reservationId with
    | some none => (-3, keys)
    | some (some (.terminal, _)) => (-1, keys)
    | some (some (.reserved, existing)) =>
      if existing = tokens then keys.reserveAgain mode reservationId now window expireSecs
      else (-2, keys)
    | none =>
      keys.reserveNew large mode reservationId tokens limit now window expireSecs total

/-- `RESERVE_TOKENS_SCRIPT`. -/
def reserveTokens (mode : Mode) (reservationId terminalId : Uuid)
    (tokens limit now window expireSecs : ℕ) (keys : TokenKeys) : ℤ × TokenKeys :=
  match (keys.readAt now).pruneExpired large false now expireSecs with
  | (none, keys) => (-3, keys)
  | (some total, keys) =>
    keys.reservePruned large mode reservationId terminalId tokens limit now window expireSecs
      total

/-! ## `RECONCILE_TOKENS_SCRIPT` -/

/-- `persist`, with the code to return if it succeeds. -/
def finish (code : ℤ) (now expireSecs total : ℕ) (keys : TokenKeys) : ℤ × TokenKeys :=
  let result := keys.persist large false now expireSecs total
  (if result.1 then code else -2, result.2)

def reconcileTerminal (terminal : Option (Option (TokenRecordKind × ℕ))) (terminalId : Uuid)
    (tokens occurredAt now window expireSecs total : ℕ) (keys : TokenKeys) : ℤ × TokenKeys :=
  match terminal with
  | some (some (.terminal, _)) => keys.finish large 0 now expireSecs total
  | some (some (.reserved, _)) => keys.finish large (-1) now expireSecs total
  | _ =>
    if (occurredAt : ℤ) ≤ (now : ℤ) - window then keys.finish large 0 now expireSecs total
    else
      (keys.addRecord large terminalId .terminal tokens (occurredAt + window)).finish large 1 now
        expireSecs (total + tokens)

/-- The record under the terminal identifier; the reservation itself does not count. -/
def terminalFound (reservationId terminalId : Uuid) (keys : TokenKeys) :
    Option (Option (TokenRecordKind × ℕ)) :=
  if toString reservationId = toString terminalId ∧
      (keys.found reservationId).any (·.any (·.1 = .reserved)) then none
  else keys.found terminalId

/-- The script after `prune_expired`. -/
def reconcilePruned (reservationId terminalId : Uuid)
    (tokens occurredAt now window expireSecs total : ℕ) (keys : TokenKeys) : ℤ × TokenKeys :=
  match keys.found reservationId, keys.terminalFound reservationId terminalId with
  | some none, _ => (-2, keys)
  | _, some none => (-2, keys)
  | some (some (.reserved, reserved)), terminal =>
    if reserved > total then (-2, keys)
    else if keys.records.value.length = 1 ∧ total ≠ reserved then (-2, keys)
    else
      (keys.dropRecord reservationId).reconcileTerminal large terminal terminalId tokens
        occurredAt now window expireSecs (total - reserved)
  | _, terminal =>
    keys.reconcileTerminal large terminal terminalId tokens occurredAt now window expireSecs
      total

/-- `occurred_at`: a negative argument means now, and the future does not count. -/
def occurredAt (rawOccurredAt : ℤ) (now : ℕ) : ℕ :=
  if rawOccurredAt < 0 then now else min rawOccurredAt.toNat now

/-- `RECONCILE_TOKENS_SCRIPT`. -/
def reconcileTokens (rawOccurredAt : ℤ) (reservationId terminalId : Uuid)
    (tokens now window expireSecs : ℕ) (keys : TokenKeys) : ℤ × TokenKeys :=
  match (keys.readAt now).pruneExpired large false now expireSecs with
  | (none, keys) => (-2, keys)
  | (some total, keys) =>
    keys.reconcilePruned large reservationId terminalId tokens (occurredAt rawOccurredAt now) now
      window expireSecs total

/-! ## `RELEASE_TOKENS_SCRIPT` and `GET_TOKEN_COUNT_SCRIPT` -/

def releaseFound (requestId : Uuid) (reserved now expireSecs total : ℕ) (keys : TokenKeys) :
    ℤ × TokenKeys :=
  if reserved > total then (-1, keys)
  else if keys.records.value.length = 1 ∧ total ≠ reserved then (-1, keys)
  else
    let result := (keys.dropRecord requestId).persist large true now expireSecs (total - reserved)
    (if result.1 then 1 else -1, result.2)

/-- `RELEASE_TOKENS_SCRIPT`. -/
def releaseTokens (requestId : Uuid) (now expireSecs : ℕ) (keys : TokenKeys) : ℤ × TokenKeys :=
  match (keys.readAt now).pruneExpired large true now expireSecs with
  | (none, keys) => (-1, keys)
  | (some total, keys) =>
    match keys.found requestId with
    | none => (0, keys)
    | some none => (-1, keys)
    | some (some (.terminal, _)) => (0, keys)
    | some (some (.reserved, reserved)) =>
      keys.releaseFound large requestId reserved now expireSecs total

/-- `GET_TOKEN_COUNT_SCRIPT`. -/
def getTokenCount (now expireSecs : ℕ) (keys : TokenKeys) : ℤ × TokenKeys :=
  match (keys.readAt now).pruneExpired large true now expireSecs with
  | (none, keys) => (-1, keys)
  | (some total, keys) => (total, keys)

end TokenKeys

end Scripts

end KeyCompute.RateLimit
