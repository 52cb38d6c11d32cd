import Mathlib

/-!
# Caches whose keys carry a version

A cache that many readers share and fill is coherent without invalidation messages when a key never
comes back: once the version in it has moved on, no later state asks for the old key.

`Versioning` has the laws this rests on.  `Versioning.Agrees` is what may be assumed of a cached
value: its key has been issued, and wherever the key is the current one of a request, the value is
the current observation.
-/

namespace KeyCompute.Cache

/-- How the keys of requests follow the state.  `Issued s k` says that `k` has been the key of
some request in `s` or before it. -/
structure Versioning (σ ρ κ : Type) where
  key : σ → ρ → κ
  Move : σ → σ → Prop
  Issued : σ → κ → Prop
  /-- a key names its request -/
  key_request : ∀ {s s' r r'}, key s r = key s' r' → r = r'
  issued_key : ∀ s r, Issued s (key s r)
  issued_move : ∀ {s s' k}, Move s s' → Issued s k → Issued s' k
  /-- an issued key does not come back -/
  key_back : ∀ {s s' k r}, Move s s' → Issued s k → key s' r = k → key s r = k

namespace Versioning

variable {σ ρ κ ν : Type} {V : Versioning σ ρ κ} {obs : σ → ρ → ν} {s s' : σ} {k : κ} {r : ρ}
  {v : ν}

/-- What an observation has to do with the keys: it changes only where the key does. -/
def Stable (V : Versioning σ ρ κ) (obs : σ → ρ → ν) : Prop :=
  ∀ {s s' r}, V.Move s s' → V.key s' r = V.key s r → obs s' r = obs s r

/-- The key was that of request `r` when it was issued. -/
def Names (V : Versioning σ ρ κ) (k : κ) (r : ρ) : Prop := ∃ s, V.key s r = k

/-- What is known about a value stored under a key. -/
def Agrees (V : Versioning σ ρ κ) (obs : σ → ρ → ν) (s : σ) (k : κ) (v : ν) : Prop :=
  V.Issued s k ∧ ∀ r, V.key s r = k → v = obs s r

theorem Names.eq {r' : ρ} (h : V.Names k r) (h' : V.key s r' = k) : r' = r := by
  obtain ⟨s₀, h⟩ := h
  exact V.key_request (h'.trans h.symm)

theorem Agrees.move (hstable : V.Stable obs) (hmove : V.Move s s') (h : V.Agrees obs s k v) :
    V.Agrees obs s' k v := by
  refine ⟨V.issued_move hmove h.1, fun r hr => ?_⟩
  have hback : V.key s r = k := V.key_back hmove h.1 hr
  rw [h.2 r hback, hstable hmove (hr.trans hback.symm)]

theorem Agrees.map {ν' : Type} (f : ν → ν') (h : V.Agrees obs s k v) :
    V.Agrees (fun s r => f (obs s r)) s k (f v) :=
  ⟨h.1, fun r hr => congrArg f (h.2 r hr)⟩

theorem Stable.map {ν' : Type} (f : ν → ν') (h : V.Stable obs) :
    V.Stable fun s r => f (obs s r) :=
  fun hmove hkey => congrArg f (h hmove hkey)

/-- An observation made in any state since the key was issued. -/
theorem agrees_observe (hissued : V.Issued s k) (hnames : V.Names k r) :
    V.Agrees obs s k (obs s r) := by
  refine ⟨hissued, fun r' hr' => ?_⟩
  rw [hnames.eq hr']

end Versioning

end KeyCompute.Cache
