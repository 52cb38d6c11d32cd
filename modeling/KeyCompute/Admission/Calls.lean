import KeyCompute.Admission.Capacity
import KeyCompute.Relational.Transaction

/-!
# Concurrent callers of bounded admission

Every `acquire` call has its own ticket and goes through phases; what it does between two locks or
at its `await` is one step.  `notify_waiters` runs after the lock is given back, as a step of its
own.

A waiter is registered before it looks at the state, and each `notify_waiters` then sets its
notification.  A sleeping call can be cancelled or reach its deadline.  A call with a ticket that
was drawn before is not made.
-/

namespace KeyCompute.Admission

/-- Where an `acquire` call is, and its permit after it. -/
inductive Phase where
  /-- At the head of the loop. -/
  | registering (queued : Bool)
  /-- Registered, and about to take the lock. -/
  | inspecting (queued notified : Bool)
  /-- At the `await`, with a queued ticket. -/
  | sleeping (notified : Bool)
  /-- The slot is granted; `notify_waiters` is next. -/
  | granted
  /-- The permit is returned and shared by some owners. -/
  | holding (owners : ℕ)
  /-- The last owner is gone; `Lease::drop` is next. -/
  | releasing
  /-- The call failed or was cancelled with its ticket in the queue; `Ticket::drop` is next. -/
  | leaving (error : Option AdmissionError)
  /-- A destructor gave the lock back; `notify_waiters` is next. -/
  | left (error : Option AdmissionError)
  | finished (error : Option AdmissionError)
  deriving DecidableEq

namespace Phase

/-- The slot is taken: a lease is live until `Lease::drop` has run. -/
def live : Phase → Bool
  | granted | holding _ | releasing => true
  | _ => false

def queued : Phase → Bool
  | registering queued => queued
  | inspecting queued _ => queued
  | sleeping _ | leaving _ => true
  | _ => false

def asleep : Phase → Bool
  | sleeping false => true
  | _ => false

def entered : Phase → Bool
  | registering queued => queued
  | inspecting queued _ => queued
  | _ => true

/-- A call of `notify_waiters` is about to be made. -/
def owes : Phase → Bool
  | granted | left _ => true
  | _ => false

/-- `notify_waiters`, for a registered waiter. -/
def notify : Phase → Phase
  | inspecting queued _ => inspecting queued true
  | sleeping _ => sleeping true
  | phase => phase

def afterInspect (queued notified : Bool) : State.Verdict → Phase
  | .error error => if queued then leaving (some error) else finished (some error)
  | .granted => granted
  | .wait => sleeping notified

/-- The phase after a call's own `notify_waiters`. -/
def afterNotify : Phase → Phase
  | granted => holding 1
  | left error => finished error
  | phase => phase

end Phase

/-- The steps that do not take the lock. -/
inductive Move where
  /-- `notified()` and `enable()`. -/
  | register
  /-- The notification arrives at the `await`. -/
  | wake
  /-- The deadline passes at the `await`. -/
  | expire
  /-- The future is dropped at the `await`. -/
  | cancel
  /-- A permit is cloned. -/
  | clone
  /-- A permit is dropped. -/
  | dropPermit
  deriving DecidableEq

/-- The phase after such a step, if it can be taken. -/
def Move.apply : Move → Phase → Option Phase
  | register, .registering queued => some (.inspecting queued false)
  | wake, .sleeping true => some (.registering true)
  | expire, .sleeping false => some (.leaving (some .timeout))
  | cancel, .sleeping _ => some (.leaving none)
  | clone, .holding owners => some (.holding (owners + 1))
  | dropPermit, .holding (owners + 2) => some (.holding (owners + 1))
  | dropPermit, .holding _ => some .releasing
  | _, _ => none

structure Call where
  key : Uuid
  phase : Phase
  deriving DecidableEq

/-- The shared state, the calls by their ticket, the `close` calls that still have to notify, and
whether the lock is poisoned. -/
structure System where
  state : State := {}
  calls : Uuid → Option Call := fun _ => none
  closers : ℕ := 0
  poisoned : Bool := false

inductive Event where
  | acquire (ticket key : Uuid)
  | move (move : Move) (ticket : Uuid)
  | inspect (ticket : Uuid) (expired : Bool)
  | dropTicket (ticket : Uuid)
  | dropLease (ticket : Uuid)
  | notify (ticket : Uuid)
  | close
  | notifyClosed

namespace System

def setPhase (sys : System) (ticket : Uuid) (call : Call) (phase : Phase) : System :=
  { sys with calls := Function.update sys.calls ticket (some { call with phase }) }

@[simp] theorem calls_setPhase (sys : System) (ticket : Uuid) (call : Call) (phase : Phase) :
    (sys.setPhase ticket call phase).calls =
      Function.update sys.calls ticket (some { call with phase }) := rfl

@[simp] theorem state_setPhase (sys : System) (ticket : Uuid) (call : Call) (phase : Phase) :
    (sys.setPhase ticket call phase).state = sys.state := rfl

def notifyWaiters (sys : System) : System :=
  { sys with
    calls := fun ticket =>
      (sys.calls ticket).map fun call => { call with phase := call.phase.notify } }

/-- The end of a section under the lock: the new state and phase, or a poisoned lock. -/
def unlock (sys : System) (ticket : Uuid) (call : Call) : Option (Phase × State) → System
  | some (phase, state) => { sys with state }.setPhase ticket call phase
  | none => { sys with poisoned := true }

/-- One call takes a step; a step that is not the next one of the call is not taken. -/
def stepCall (limits : AdmissionLimits) (sys : System) (ticket : Uuid) (call : Call) :
    Event → System
  | .move move _ =>
    match move.apply call.phase with
    | some phase => sys.setPhase ticket call phase
    | none => sys
  | .inspect _ expired =>
    match call.phase with
    | .inspecting queued notified =>
      sys.unlock ticket call ((sys.state.inspect limits ticket call.key queued expired).map
        fun result => (.afterInspect queued notified result.1, result.2))
    | _ => sys
  | .dropTicket _ =>
    match call.phase with
    | .leaving error =>
      sys.unlock ticket call ((sys.state.dropTicket ticket).map fun state => (.left error, state))
    | _ => sys
  | .dropLease _ =>
    match call.phase with
    | .releasing =>
      sys.unlock ticket call ((sys.state.dropLease call.key).map fun state => (.left none, state))
    | _ => sys
  | .notify _ =>
    if call.phase.owes then (sys.setPhase ticket call call.phase.afterNotify).notifyWaiters
    else sys
  | _ => sys

def step (limits : AdmissionLimits) (event : Event) (sys : System) : System :=
  match event with
  | .acquire ticket key =>
    match sys.calls ticket with
    | some _ => sys
    | none =>
      { sys with calls := Function.update sys.calls ticket (some ⟨key, .registering false⟩) }
  | .close => { sys with state := { sys.state with closed := true }, closers := sys.closers + 1 }
  | .notifyClosed =>
    if sys.closers = 0 then sys else { sys with closers := sys.closers - 1 }.notifyWaiters
  | .move _ ticket | .inspect ticket _ | .dropTicket ticket | .dropLease ticket | .notify ticket =>
    match sys.calls ticket with
    | some call => sys.stepCall limits ticket call event
    | none => sys

def run (limits : AdmissionLimits) (events : List Event) (sys : System) : System :=
  Relational.runAll (step limits) events sys

end System

def newAdmission (limits : AdmissionLimits) : Except String System := do
  limits.check
  .ok {}

end KeyCompute.Admission
