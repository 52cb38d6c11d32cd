import KeyCompute.Database.Value

/-!
# Bounded admission under its lock

One mutex guards the number of active leases, the active and queued counts of each key, and the
queue of tickets.  This module has what `acquire`, `Lease::drop` and `Ticket::drop` do while they
hold the lock.  A subtraction below zero, an `unwrap` or an `expect` that fails is `none`.
-/

namespace KeyCompute.Admission

/-- The limits; the wait is in nanoseconds. -/
structure AdmissionLimits where
  total : ℕ
  perKey : ℕ
  queue : ℕ
  queuePerKey : ℕ
  wait : ℕ
  deriving DecidableEq

inductive AdmissionError where
  | closed
  | full
  | timeout
  deriving DecidableEq

structure Counts where
  active : ℕ := 0
  queued : ℕ := 0
  deriving DecidableEq

/-- The state behind the lock; the queue holds tickets with their keys. -/
structure State where
  closed : Bool := false
  active : ℕ := 0
  keys : Uuid → Option Counts := fun _ => none
  queue : List (Uuid × Uuid) := []

/-- The check of `BoundedAdmission::new`. -/
def AdmissionLimits.check (limits : AdmissionLimits) : Except String Unit :=
  if limits.total = 0 ∨ limits.perKey = 0 ∨ limits.total > 65536 ∨ limits.perKey > limits.total ∨
      limits.queue > 65536 ∨ limits.queuePerKey > limits.queue ∨ limits.wait = 0 ∨
      limits.wait > 60 * 10 ^ 9 then
    .error "invalid resource admission capacity or deadline"
  else .ok ()

/-- `n - 1` on an unsigned number. -/
def checkedPred (n : ℕ) : Option ℕ := if n = 0 then none else some (n - 1)

/-- The entry of a key is removed when nothing is counted for it. -/
def Counts.entry (counts : Counts) : Option Counts :=
  if counts.active = 0 ∧ counts.queued = 0 then none else some counts

namespace State

def eligible (limits : AdmissionLimits) (state : State) (key : Uuid) : Bool :=
  state.active < limits.total && (state.keys key).all (·.active < limits.perKey)

/-- The first ticket in the queue whose key is eligible. -/
def eligibleTicket (limits : AdmissionLimits) (state : State) : Option Uuid :=
  (state.queue.find? fun entry => state.eligible limits entry.2).map Prod.fst

/-- `keys.entry(key).or_default()`. -/
def countsOf (state : State) (key : Uuid) : Counts := (state.keys key).getD {}

def grant (state : State) (key : Uuid) : State :=
  { state with
    active := state.active + 1,
    keys := Function.update state.keys key
      (some { state.countsOf key with active := (state.countsOf key).active + 1 }) }

def enqueue (state : State) (ticket key : Uuid) : State :=
  { state with
    queue := state.queue ++ [(ticket, key)],
    keys := Function.update state.keys key
      (some { state.countsOf key with queued := (state.countsOf key).queued + 1 }) }

def dequeue (state : State) (ticket key : Uuid) : Option State := do
  let _ ← state.queue.find? fun entry => entry.1 = ticket
  let counts ← state.keys key
  let queued ← checkedPred counts.queued
  some { state with
    queue := state.queue.eraseP fun entry => entry.1 = ticket,
    keys := Function.update state.keys key (some { counts with queued }) }

/-- What `acquire` decides under the lock. -/
inductive Verdict where
  | error (error : AdmissionError)
  | granted
  | wait
  deriving DecidableEq

/-- **The section of `acquire` under the lock.**  `queued` says whether the ticket is in the queue,
`expired` whether the deadline has passed. -/
def inspect (limits : AdmissionLimits) (state : State) (ticket key : Uuid)
    (queued expired : Bool) : Option (Verdict × State) :=
  if state.closed then some (.error .closed, state)
  else if state.eligible limits key ∧
      (if queued then state.eligibleTicket limits = some ticket
        else state.eligibleTicket limits = none) then
    if queued then
      if expired then some (.error .timeout, state)
      else (state.dequeue ticket key).map fun state => (.granted, state.grant key)
    else some (.granted, state.grant key)
  else if queued then some (.wait, state)
  else if state.queue.length ≥ limits.queue ∨
      (state.countsOf key).queued ≥ limits.queuePerKey then some (.error .full, state)
  else some (.wait, state.enqueue ticket key)

/-- `Lease::drop`. -/
def dropLease (state : State) (key : Uuid) : Option State := do
  let active ← checkedPred state.active
  let counts ← state.keys key
  let keyActive ← checkedPred counts.active
  some { state with
    active,
    keys := Function.update state.keys key (Counts.entry { counts with active := keyActive }) }

def removeTicket (state : State) (ticket key : Uuid) : Option State := do
  let counts ← state.keys key
  let queued ← checkedPred counts.queued
  some { state with
    queue := state.queue.eraseP fun entry => entry.1 = ticket,
    keys := Function.update state.keys key (Counts.entry { counts with queued }) }

/-- `Ticket::drop`, for a ticket that was queued. -/
def dropTicket (state : State) (ticket : Uuid) : Option State :=
  match state.queue.find? fun entry => entry.1 = ticket with
  | none => some state
  | some entry => state.removeTicket ticket entry.2

end State

end KeyCompute.Admission
