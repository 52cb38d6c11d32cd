import KeyCompute.Relational.Transaction

/-!
# The process memory budget

A permit shares a claim on the budget with its clones.  The budget and every claim have a mutex,
taken in the order claim, budget.  Each step of the model is what a thread does between two
operations on a mutex.

* A permit is borrowed by the operations in progress on it, exclusively by `shrink_to`; it is
  dropped only when it is not borrowed.
* The strong count of a claim is the number of its permits; the drop of the last one runs
  `Claim::drop`.

`counted` is the part of `used` that belongs to a claim; no step reads it.
-/

namespace KeyCompute.Memory

structure MemoryStatus where
  limit : ℕ
  used : ℕ
  peak : ℕ
  deriving DecidableEq

structure Claim where
  bytes : ℕ := 0
  counted : ℕ := 0
  deriving DecidableEq

/-- An operation on a permit: the claim, and the size that is asked for. -/
structure Use where
  permit : ℕ
  claim : ℕ
  bytes : ℕ
  deriving DecidableEq

/-- How far `grow_to` is. -/
inductive GrowStage where
  /-- Before the lock of the claim. -/
  | waiting
  /-- With the lock of the claim. -/
  | claimed
  /-- With both locks. -/
  | both
  deriving DecidableEq

/-- How far `shrink_to` is. -/
inductive ShrinkStage where
  /-- Before the strong count is read. -/
  | counting
  | waiting
  | claimed
  | both
  /-- `used` is updated and the lock of the budget is given back. -/
  | updated
  deriving DecidableEq

inductive Phase where
  /-- `reserve` before and after it has the lock. -/
  | reserveWaiting (bytes : ℕ)
  | reserveLocked (bytes : ℕ)
  | grow (stage : GrowStage) (use : Use)
  | shrink (stage : ShrinkStage) (use : Use)
  /-- `Claim::drop` before and after it has the lock. -/
  | dropWaiting (claim : ℕ)
  | dropLocked (claim : ℕ)
  | finished (ok : Bool)
  deriving DecidableEq

namespace Phase

def use? : Phase → Option Use
  | grow _ use | shrink _ use => some use
  | _ => none

def holdsClaim : Phase → Option ℕ
  | grow .claimed use | grow .both use => some use.claim
  | shrink .claimed use | shrink .both use | shrink .updated use => some use.claim
  | _ => none

def holdsBudget : Phase → Bool
  | reserveLocked _ | grow .both _ | shrink .both _ | dropLocked _ => true
  | _ => false

def drops : Phase → Option ℕ
  | dropWaiting claim | dropLocked claim => some claim
  | _ => none

def inProgress : Phase → Bool
  | finished _ => false
  | _ => true

end Phase

/-- The budget, its claims, the permits with their claims, and the operations. -/
structure Budget where
  status : MemoryStatus
  claims : ℕ → Claim := fun _ => {}
  claimCount : ℕ := 0
  permits : ℕ → Option ℕ := fun _ => none
  permitCount : ℕ := 0
  ops : ℕ → Phase := fun _ => .finished true
  opCount : ℕ := 0
  /-- A subtraction went below zero. -/
  failed : Bool := false

namespace Budget

def new (limit : ℕ) : Except String Budget :=
  if limit = 0 then .error "managed memory limit must be positive"
  else .ok { status := ⟨limit, 0, 0⟩ }

def someOp (p : Phase → Bool) (sys : Budget) : Bool :=
  (List.range sys.opCount).any fun i => p (sys.ops i)

def borrowed (sys : Budget) (permit : ℕ) : Bool :=
  sys.someOp fun phase => phase.use?.any (·.permit = permit)

def borrowedMut (sys : Budget) (permit : ℕ) : Bool :=
  sys.someOp fun
    | .shrink _ use => use.permit = permit
    | _ => false

def claimLocked (sys : Budget) (claim : ℕ) : Bool :=
  sys.someOp fun phase => phase.holdsClaim = some claim

def budgetLocked (sys : Budget) : Bool := sys.someOp Phase.holdsBudget

/-- `Arc::strong_count` of a claim. -/
def strongCount (sys : Budget) (claim : ℕ) : ℕ :=
  ((List.range sys.permitCount).filter fun permit => sys.permits permit = some claim).length

def goes (sys : Budget) (i : ℕ) (phase : Phase) : Budget :=
  { sys with ops := Function.update sys.ops i phase }

def begin (sys : Budget) (phase : Phase) : Budget :=
  { sys.goes sys.opCount phase with opCount := sys.opCount + 1 }

/-- `used += bytes`, and the peak. -/
def charge (sys : Budget) (bytes : ℕ) : Budget :=
  { sys with
    status := { sys.status with
      used := sys.status.used + bytes,
      peak := max sys.status.peak (sys.status.used + bytes) } }

/-- `used` minus some bytes, if that is not below zero. -/
def refund (sys : Budget) (bytes : ℕ) : Budget :=
  if bytes ≤ sys.status.used then
    { sys with status := { sys.status with used := sys.status.used - bytes } }
  else { sys with failed := true }

def setClaim (sys : Budget) (claim : ℕ) (value : Claim) : Budget :=
  { sys with claims := Function.update sys.claims claim value }

def addClaim (sys : Budget) (bytes : ℕ) : Budget :=
  { sys.setClaim sys.claimCount ⟨bytes, bytes⟩ with
    claimCount := sys.claimCount + 1,
    permits := Function.update sys.permits sys.permitCount (some sys.claimCount),
    permitCount := sys.permitCount + 1 }

/-- **The next step of an operation**, unless it waits for a lock. -/
def advance (sys : Budget) (i : ℕ) : Budget :=
  match sys.ops i with
  | .reserveWaiting bytes =>
    if sys.budgetLocked then sys else sys.goes i (.reserveLocked bytes)
  | .reserveLocked bytes =>
    if bytes > sys.status.limit - sys.status.used then sys.goes i (.finished false)
    else ((sys.charge bytes).addClaim bytes).goes i (.finished true)
  | .grow .waiting use =>
    if sys.claimLocked use.claim then sys else sys.goes i (.grow .claimed use)
  | .grow .claimed use =>
    if use.bytes ≤ (sys.claims use.claim).bytes then sys.goes i (.finished true)
    else if sys.budgetLocked then sys
    else sys.goes i (.grow .both use)
  | .grow .both use =>
    if use.bytes - (sys.claims use.claim).bytes > sys.status.limit - sys.status.used then
      sys.goes i (.finished false)
    else
      ((sys.charge (use.bytes - (sys.claims use.claim).bytes)).setClaim use.claim
        ⟨use.bytes, use.bytes⟩).goes i (.finished true)
  | .shrink .counting use =>
    if sys.strongCount use.claim ≠ 1 then sys.goes i (.finished true)
    else sys.goes i (.shrink .waiting use)
  | .shrink .waiting use =>
    if sys.claimLocked use.claim then sys else sys.goes i (.shrink .claimed use)
  | .shrink .claimed use =>
    if use.bytes ≥ (sys.claims use.claim).bytes then sys.goes i (.finished true)
    else if sys.budgetLocked then sys
    else sys.goes i (.shrink .both use)
  | .shrink .both use =>
    ((sys.refund ((sys.claims use.claim).bytes - use.bytes)).setClaim use.claim
      { sys.claims use.claim with counted := use.bytes }).goes i (.shrink .updated use)
  | .shrink .updated use =>
    (sys.setClaim use.claim { sys.claims use.claim with bytes := use.bytes }).goes i
      (.finished true)
  | .dropWaiting claim =>
    if sys.budgetLocked then sys else sys.goes i (.dropLocked claim)
  | .dropLocked claim =>
    ((sys.refund (sys.claims claim).bytes).setClaim claim
      { sys.claims claim with counted := 0 }).goes i (.finished true)
  | .finished _ => sys

inductive Event where
  | reserve (bytes : ℕ)
  | growTo (permit bytes : ℕ)
  | shrinkTo (permit bytes : ℕ)
  | clone (permit : ℕ)
  | drop (permit : ℕ)
  | advance (op : ℕ)

/-- The handle of a permit is gone; the last one drops the claim. -/
def dropPermit (sys : Budget) (permit claim : ℕ) : Budget :=
  let rest := { sys with permits := Function.update sys.permits permit none }
  if rest.strongCount claim = 0 then rest.begin (.dropWaiting claim) else rest

/-- A step of the system; operations on permits that are gone or borrowed do not begin. -/
def step (event : Event) (sys : Budget) : Budget :=
  match event with
  | .reserve bytes => sys.begin (.reserveWaiting bytes)
  | .growTo permit bytes =>
    match sys.permits permit with
    | some claim =>
      if sys.borrowedMut permit then sys
      else sys.begin (.grow .waiting ⟨permit, claim, bytes⟩)
    | none => sys
  | .shrinkTo permit bytes =>
    match sys.permits permit with
    | some claim =>
      if sys.borrowed permit then sys
      else sys.begin (.shrink .counting ⟨permit, claim, bytes⟩)
    | none => sys
  | .clone permit =>
    match sys.permits permit with
    | some claim =>
      if sys.borrowedMut permit then sys
      else
        { sys with
          permits := Function.update sys.permits sys.permitCount (some claim),
          permitCount := sys.permitCount + 1 }
    | none => sys
  | .drop permit =>
    match sys.permits permit with
    | some claim => if sys.borrowed permit then sys else sys.dropPermit permit claim
    | none => sys
  | .advance op => sys.advance op

def run (events : List Event) (sys : Budget) : Budget := Relational.runAll step events sys

def blocked (sys : Budget) (i : ℕ) : Bool :=
  match sys.ops i with
  | .reserveWaiting _ | .dropWaiting _ => sys.budgetLocked
  | .grow .waiting use | .shrink .waiting use => sys.claimLocked use.claim
  | .grow .claimed use => (sys.claims use.claim).bytes < use.bytes && sys.budgetLocked
  | .shrink .claimed use => use.bytes < (sys.claims use.claim).bytes && sys.budgetLocked
  | _ => false

end Budget

end KeyCompute.Memory
