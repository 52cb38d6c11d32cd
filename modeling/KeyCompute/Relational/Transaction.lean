import Mathlib

/-!
# Transaction bodies and runs of committed transactions

A transaction body reads and writes a **working state** and may stop with an error.  A caller may
still commit after an error, so `Tx σ ε α` is `σ → Except ε α × σ`, and the caller decides which
working states become committed ones.

Each shape a body is made of has an inversion lemma `_eq_ok`, and `Tx.inv` collects them;
`Tx.FailsOnly` bounds the errors a body can report, one rule per shape.  `runAll` folds a step
function over a list of calls, with `runAll_invariant` as its induction.
-/

namespace KeyCompute.Relational

/-- A transaction body over the working state `σ`. -/
def Tx (σ ε α : Type) : Type := σ → Except ε α × σ

namespace Tx

variable {σ ε α β : Type}

/-- Sequential composition: an error stops the body, with the working state it
has reached so far. -/
protected def bind (x : Tx σ ε α) (f : α → Tx σ ε β) : Tx σ ε β := fun s =>
  match x s with
  | (.ok a, s') => f a s'
  | (.error e, s') => (.error e, s')

instance : Monad (Tx σ ε) where
  pure a := fun s => (.ok a, s)
  bind := Tx.bind

def throw (e : ε) : Tx σ ε α := fun s => (.error e, s)

def read (f : σ → α) : Tx σ ε α := fun s => (.ok (f s), s)

def modify (f : σ → σ) : Tx σ ε Unit := fun s => (.ok (), f s)

def failIf (c : Prop) [Decidable c] (e : ε) : Tx σ ε Unit := fun s =>
  if c then (.error e, s) else (.ok (), s)

def okOr (o : Option α) (e : ε) : Tx σ ε α := fun s =>
  match o with
  | some a => (.ok a, s)
  | none => (.error e, s)

def lift (x : Except ε α) : Tx σ ε α := fun s => (x, s)

/-- Run a body whose error the caller looks at; the working state is kept either way. -/
def attempt (x : Tx σ ε α) : Tx σ ε (Except ε α) := fun s => (.ok (x s).1, (x s).2)

def when (b : Bool) (x : Tx σ ε Unit) : Tx σ ε Unit := fun s => if b then x s else (.ok (), s)

def mapError {ε' : Type} (f : ε → ε') (x : Tx σ ε α) : Tx σ ε' α := fun s =>
  match x s with
  | (.ok a, s') => (.ok a, s')
  | (.error e, s') => (.error (f e), s')

/-! ## Inversion of a successful body -/

section Inversion

variable {s s' : σ} {a : α} {b : β} {e : ε}

variable {x : Tx σ ε α}

@[simp] theorem pure_eq_ok {c : α} :
    (pure c : Tx σ ε α) s = (.ok a, s') ↔ c = a ∧ s = s' := by
  simp [pure]

@[simp] theorem throw_eq_ok : ¬ (throw e : Tx σ ε α) s = (.ok a, s') := by
  simp [throw]

@[simp] theorem read_eq_ok {f : σ → α} :
    (read f : Tx σ ε α) s = (.ok a, s') ↔ f s = a ∧ s = s' := by
  simp [read]

@[simp] theorem modify_eq_ok {f : σ → σ} {u : Unit} :
    (modify f : Tx σ ε Unit) s = (.ok u, s') ↔ f s = s' := by
  simp [modify]

@[simp] theorem failIf_eq_ok {c : Prop} [Decidable c] {u : Unit} :
    (failIf c e : Tx σ ε Unit) s = (.ok u, s') ↔ ¬ c ∧ s = s' := by
  by_cases h : c <;> simp [failIf, h]

@[simp] theorem okOr_eq_ok {o : Option α} :
    (okOr o e : Tx σ ε α) s = (.ok a, s') ↔ o = some a ∧ s = s' := by
  cases o <;> simp [okOr]

@[simp] theorem lift_eq_ok {x : Except ε α} :
    (lift x : Tx σ ε α) s = (.ok a, s') ↔ x = .ok a ∧ s = s' := by
  simp [lift]

@[simp] theorem mapError_eq_ok {ε' : Type} {f : ε → ε'} :
    mapError f x s = (.ok a, s') ↔ x s = (.ok a, s') := by
  unfold mapError
  rcases x s with ⟨_ | _, _⟩ <;> simp

theorem when_eq_ok {b : Bool} {x : Tx σ ε Unit} {u : Unit} :
    when b x s = (.ok u, s') ↔ (b = true ∧ x s = (.ok u, s')) ∨ (b = false ∧ s = s') := by
  cases b <;> simp [when]

theorem attempt_eq_ok {r : Except ε α} :
    attempt x s = (.ok r, s') ↔ x s = (r, s') := by
  simp [attempt, Prod.ext_iff]

theorem bind_eq_ok {f : α → Tx σ ε β} {s'' : σ} :
    (x >>= f) s = (.ok b, s'') ↔
      ∃ a s', x s = (.ok a, s') ∧ f a s' = (.ok b, s'') := by
  change Tx.bind x f s = _ ↔ _
  unfold Tx.bind
  rcases h : x s with ⟨r | a, s'⟩
  · simp
  · constructor
    · exact fun hf => ⟨a, s', rfl, hf⟩
    · rintro ⟨_, _, h', hf⟩
      cases h'
      exact hf

/-- The inversion lemmas of all shapes, as one set of rules for `simp only`; a part that leaves the
state as it is binds no state. -/
theorem inv :
    (∀ (ε α β : Type) (x : Tx σ ε α) (f : α → Tx σ ε β) (b : β) (s s'' : σ),
      (x >>= f) s = (.ok b, s'') ↔ ∃ a s', x s = (.ok a, s') ∧ f a s' = (.ok b, s'')) ∧
    (∀ (ε α : Type) (c a : α) (s s' : σ),
      (pure c : Tx σ ε α) s = (.ok a, s') ↔ c = a ∧ s = s') ∧
    (∀ (ε α : Type) (f : σ → α) (a : α) (s s' : σ),
      (read f : Tx σ ε α) s = (.ok a, s') ↔ f s = a ∧ s = s') ∧
    (∀ (ε : Type) (f : σ → σ) (u : Unit) (s s' : σ),
      (modify f : Tx σ ε Unit) s = (.ok u, s') ↔ f s = s') ∧
    (∀ (ε : Type) (c : Prop) [Decidable c] (e : ε) (u : Unit) (s s' : σ),
      (failIf c e : Tx σ ε Unit) s = (.ok u, s') ↔ ¬ c ∧ s = s') ∧
    (∀ (ε α : Type) (o : Option α) (e : ε) (a : α) (s s' : σ),
      (okOr o e : Tx σ ε α) s = (.ok a, s') ↔ o = some a ∧ s = s') ∧
    (∀ (ε α : Type) (x : Except ε α) (a : α) (s s' : σ),
      (lift x : Tx σ ε α) s = (.ok a, s') ↔ x = .ok a ∧ s = s') ∧
    ∀ (α : Type) (p : α → Prop) (q : α → σ → Prop) (s : σ),
      (∃ a s', (p a ∧ s = s') ∧ q a s') ↔ ∃ a, p a ∧ q a s :=
  ⟨fun _ _ _ _ _ _ _ _ => bind_eq_ok, fun _ _ _ _ _ _ => pure_eq_ok, fun _ _ _ _ _ _ => read_eq_ok,
    fun _ _ _ _ _ => modify_eq_ok, fun _ _ _ _ _ _ _ => failIf_eq_ok,
    fun _ _ _ _ _ _ _ => okOr_eq_ok, fun _ _ _ _ _ _ => lift_eq_ok, fun _ _ _ _ => by simp⟩

theorem bind_eq_error {f : α → Tx σ ε β} {s'' : σ} :
    (x >>= f) s = (.error e, s'') ↔
      x s = (.error e, s'') ∨ ∃ a s', x s = (.ok a, s') ∧ f a s' = (.error e, s'') := by
  change Tx.bind x f s = _ ↔ _
  unfold Tx.bind
  rcases h : x s with ⟨r | a, s'⟩
  · simp
  · simp only [Prod.mk.injEq, reduceCtorEq, false_and, false_or]
    constructor
    · exact fun hf => ⟨a, s', ⟨rfl, rfl⟩, hf⟩
    · rintro ⟨_, _, ⟨hok, rfl⟩, hf⟩
      cases hok
      exact hf

theorem ite_apply {c : Prop} [Decidable c] {x y : Tx σ ε α} :
    (if c then x else y) s = if c then x s else y s := by
  split <;> rfl

end Inversion

/-! ## Running a composed body forward -/

section Forward

variable {s s' : σ} {a : α}

theorem bind_of_ok {x : Tx σ ε α} {f : α → Tx σ ε β} (h : x s = (.ok a, s')) :
    (x >>= f) s = f a s' := by
  change Tx.bind x f s = _
  simp [Tx.bind, h]

theorem bind_of_error {x : Tx σ ε α} {f : α → Tx σ ε β} {e : ε}
    (h : x s = (.error e, s')) : (x >>= f) s = (.error e, s') := by
  change Tx.bind x f s = _
  simp [Tx.bind, h]

theorem failIf_of_not {c : Prop} [Decidable c] {e : ε} (h : ¬ c) :
    (failIf c e : Tx σ ε Unit) s = (.ok (), s) :=
  failIf_eq_ok.mpr ⟨h, rfl⟩

theorem failIf_of {c : Prop} [Decidable c] {e : ε} (h : c) :
    (failIf c e : Tx σ ε Unit) s = (.error e, s) := by
  simp [failIf, h]

end Forward

/-! ## Which errors a body can report -/

section Errors

variable {E : ε → Prop}

/-- Every error of the body satisfies `E`. -/
def FailsOnly (E : ε → Prop) (x : Tx σ ε α) : Prop :=
  ∀ ⦃s e s'⦄, x s = (.error e, s') → E e

theorem FailsOnly.pure (a : α) : FailsOnly E (Pure.pure a : Tx σ ε α) :=
  fun _ _ _ h => nomatch (Prod.mk.inj h).1

theorem FailsOnly.read (f : σ → α) : FailsOnly E (Tx.read f : Tx σ ε α) :=
  fun _ _ _ h => nomatch (Prod.mk.inj h).1

theorem FailsOnly.failIf {c : Prop} [Decidable c] {e : ε} (he : E e) :
    FailsOnly E (Tx.failIf c e : Tx σ ε Unit) := by
  intro s e' s' h
  unfold Tx.failIf at h
  split at h <;> cases h
  exact he

theorem FailsOnly.okOr {o : Option α} {e : ε} (he : E e) :
    FailsOnly E (Tx.okOr o e : Tx σ ε α) := by
  intro s e' s' h
  cases o <;> cases h
  exact he

theorem FailsOnly.lift {x : Except ε α} (hx : ∀ e, x = .error e → E e) :
    FailsOnly E (Tx.lift x : Tx σ ε α) :=
  fun _ e _ h => hx e (Prod.mk.inj h).1

theorem FailsOnly.bind {x : Tx σ ε α} {f : α → Tx σ ε β} (hx : FailsOnly E x)
    (hf : ∀ a, FailsOnly E (f a)) : FailsOnly E (x >>= f) := by
  intro s e s' h
  rcases bind_eq_error.mp h with h | ⟨a, s₁, -, h⟩
  · exact hx h
  · exact hf a h

end Errors

end Tx

/-! ## Commit and rollback -/

section Atomically

variable {σ ε α : Type}

/-- Run a body as one transaction: commit on success, roll back on error. -/
def atomically (body : Tx σ ε α) (s : σ) : Except ε α × σ :=
  match body s with
  | (.ok a, s') => (.ok a, s')
  | (.error e, _) => (.error e, s)

variable {body : Tx σ ε α}

theorem atomically_eq_ok {s s' : σ} {a : α} :
    atomically body s = (.ok a, s') ↔ body s = (.ok a, s') := by
  unfold atomically
  rcases body s with ⟨_ | _, _⟩ <;> simp

theorem atomically_eq_error {s s' : σ} {e : ε} :
    atomically body s = (.error e, s') ↔ (∃ s₁, body s = (.error e, s₁)) ∧ s' = s := by
  unfold atomically
  rcases body s with ⟨_ | _, _⟩ <;> simp [eq_comm]

theorem atomically_error_state {s s' : σ} {e : ε} (h : atomically body s = (.error e, s')) :
    s' = s :=
  (atomically_eq_error.mp h).2

theorem atomically_state (body : Tx σ ε α) (s : σ) :
    (atomically body s).2 = s ∨ ∃ a, body s = (.ok a, (atomically body s).2) := by
  unfold atomically
  rcases body s with ⟨_ | a, s'⟩
  · exact .inl rfl
  · exact .inr ⟨a, rfl⟩

theorem atomically_rel {R : σ → σ → Prop} {s : σ} (hrefl : R s s)
    (hbody : ∀ a s', body s = (.ok a, s') → R s s') : R s (atomically body s).2 := by
  rcases atomically_state body s with h | ⟨a, h⟩
  · rw [h]
    exact hrefl
  · exact hbody a _ h

end Atomically

/-! ## Lost answers -/

/-- How a caller learns of its transaction: the answer arrives, or the caller is cut off before
or after the commit. -/
inductive Ending where
  | answered
  | lost (committed : Bool)
  deriving DecidableEq

namespace Ending

variable {σ : Type}

/-- The committed state, from the state before and the state the transaction would commit. -/
def state : Ending → σ → σ → σ
  | lost false, before, _ => before
  | _, _, after => after

theorem rel {R : σ → σ → Prop} {before after : σ} (ending : Ending) (hrefl : R before before)
    (h : R before after) : R before (ending.state before after) := by
  cases ending with
  | answered => exact h
  | lost committed =>
    cases committed with
    | false => exact hrefl
    | true => exact h

end Ending

/-! ## Runs -/

section Runs

variable {σ ι : Type}

/-- The state after a list of calls, each moving the state by `step`. -/
def runAll (step : ι → σ → σ) (calls : List ι) (s : σ) : σ :=
  calls.foldl (fun s c => step c s) s

@[simp] theorem runAll_nil (step : ι → σ → σ) (s : σ) : runAll step [] s = s := rfl

@[simp] theorem runAll_cons (step : ι → σ → σ) (c : ι) (calls : List ι) (s : σ) :
    runAll step (c :: calls) s = runAll step calls (step c s) := rfl

theorem runAll_append (step : ι → σ → σ) (l₁ l₂ : List ι) (s : σ) :
    runAll step (l₁ ++ l₂) s = runAll step l₂ (runAll step l₁ s) := by
  simp [runAll]

def replies {α : Type} (answer : ι → σ → α) (step : ι → σ → σ) : List ι → σ → List α
  | [], _ => []
  | c :: rest, s => answer c s :: replies answer step rest (step c s)

variable {step : ι → σ → σ} {I : σ → Prop}

/-- **The invariant rule**: what every step keeps, every run keeps. -/
theorem runAll_invariant (hstep : ∀ c s, I s → I (step c s)) :
    ∀ (calls : List ι) (s : σ), I s → I (runAll step calls s) := by
  intro calls
  induction calls with
  | nil => exact fun _ h => h
  | cons c rest ih => exact fun s h => ih _ (hstep c s h)

theorem runAll_invariant_of {ok : ι → Prop} (hstep : ∀ c s, ok c → I s → I (step c s)) :
    ∀ (calls : List ι) (s : σ), (∀ c ∈ calls, ok c) → I s → I (runAll step calls s) := by
  intro calls
  induction calls with
  | nil => exact fun _ _ h => h
  | cons c rest ih =>
    intro s hok h
    exact ih _ (fun c' hc' => hok c' (List.mem_cons_of_mem _ hc'))
      (hstep c s (hok c List.mem_cons_self) h)

/-- Every call of a run meets `ok` in the state it is made in. -/
def Along (step : ι → σ → σ) (ok : ι → σ → Prop) : List ι → σ → Prop
  | [], _ => True
  | c :: rest, s => ok c s ∧ Along step ok rest (step c s)

theorem runAll_invariant_along {ok : ι → σ → Prop} (hstep : ∀ c s, ok c s → I s → I (step c s)) :
    ∀ (calls : List ι) (s : σ), Along step ok calls s → I s → I (runAll step calls s) := by
  intro calls
  induction calls with
  | nil => exact fun _ _ h => h
  | cons c rest ih => exact fun s hok h => ih _ hok.2 (hstep c s hok.1 h)

/-- **The rule of moves**: a run moves the state by what every step moves it by. -/
theorem runAll_moves {R : σ → σ → Prop} (hrefl : ∀ s, R s s)
    (htrans : ∀ {a b c}, R a b → R b c → R a c)
    (hstep : ∀ c s, I s → I (step c s) ∧ R s (step c s)) :
    ∀ (calls : List ι) (s : σ), I s → R s (runAll step calls s) := by
  intro calls
  induction calls with
  | nil => exact fun s _ => hrefl s
  | cons c rest ih =>
    intro s h
    obtain ⟨h', hmove⟩ := hstep c s h
    exact htrans hmove (ih _ h')

end Runs

end KeyCompute.Relational
