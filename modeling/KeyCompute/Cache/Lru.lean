import Mathlib

/-!
# A bounded cache with least-recently-used eviction

The entries stand in the order of their last use, newest first, and the last one is evicted.  The
capacity and the uniqueness of the keys are fields of the structure.

An eviction policy invents nothing: every entry after an operation is the one just stored or was
there before (`mem_put`, `mem_get`, `mem_retain`), and a lookup returns an entry (`mem_of_get`).
-/

namespace KeyCompute.Cache

/-- A cache of at most `capacity` entries, the most recently used first. -/
structure LruCache (κ ν : Type) where
  capacity : ℕ
  entries : List (κ × ν)
  bounded : entries.length ≤ capacity
  unique : (entries.map Prod.fst).Nodup

namespace LruCache

variable {κ ν : Type} [DecidableEq κ] {cache : LruCache κ ν} {k : κ} {v : ν} {e : κ × ν}

def empty (capacity : ℕ) : LruCache κ ν := ⟨capacity, [], Nat.zero_le _, List.nodup_nil⟩

/-- Store an entry in front; an older entry of the key is replaced. -/
def put (cache : LruCache κ ν) (k : κ) (v : ν) : LruCache κ ν where
  capacity := cache.capacity
  entries := ((k, v) :: cache.entries.filter fun e => e.1 ≠ k).take cache.capacity
  bounded := List.length_take_le _ _
  unique := by
    rw [List.map_take]
    apply List.Nodup.sublist (List.take_sublist _ _)
    rw [List.map_cons, List.nodup_cons]
    refine ⟨?_, cache.unique.sublist (List.filter_sublist.map Prod.fst)⟩
    intro hmem
    obtain ⟨e, he, hk⟩ := List.mem_map.mp hmem
    exact absurd hk (by simpa using (List.mem_filter.mp he).2)

/-- Look a key up; a hit becomes the most recently used entry. -/
def get (cache : LruCache κ ν) (k : κ) : Option ν × LruCache κ ν :=
  match cache.entries.find? fun e => e.1 = k with
  | some e => (some e.2, cache.put e.1 e.2)
  | none => (none, cache)

def retain (cache : LruCache κ ν) (p : κ × ν → Bool) : LruCache κ ν where
  capacity := cache.capacity
  entries := cache.entries.filter p
  bounded := Nat.le_trans (List.length_filter_le _ _) cache.bounded
  unique := cache.unique.sublist (List.filter_sublist.map Prod.fst)

def clear (cache : LruCache κ ν) : LruCache κ ν := empty cache.capacity

theorem mem_put (h : e ∈ (cache.put k v).entries) : e = (k, v) ∨ e ∈ cache.entries := by
  obtain rfl | h := List.mem_cons.mp (List.mem_of_mem_take h)
  · exact .inl rfl
  · exact .inr (List.mem_of_mem_filter h)

theorem mem_of_get (h : (cache.get k).1 = some v) : (k, v) ∈ cache.entries := by
  unfold get at h
  cases hfind : cache.entries.find? (fun e => e.1 = k) with
  | none =>
    rw [hfind] at h
    exact absurd h (by simp)
  | some e =>
    rw [hfind] at h
    have hkey : e.1 = k := by simpa using List.find?_some hfind
    have hvalue : e.2 = v := by simpa using h
    rw [← hkey, ← hvalue]
    exact List.mem_of_find?_eq_some hfind

theorem mem_get (h : e ∈ (cache.get k).2.entries) : e ∈ cache.entries := by
  unfold get at h
  cases hfind : cache.entries.find? (fun e => e.1 = k) with
  | none =>
    rw [hfind] at h
    exact h
  | some e' =>
    rw [hfind] at h
    obtain rfl | h := mem_put h
    · exact List.mem_of_find?_eq_some hfind
    · exact h

omit [DecidableEq κ] in
theorem mem_retain {p : κ × ν → Bool} (h : e ∈ (cache.retain p).entries) : e ∈ cache.entries :=
  List.mem_of_mem_filter h

end LruCache

end KeyCompute.Cache
