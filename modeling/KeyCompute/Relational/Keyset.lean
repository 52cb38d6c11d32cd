import Mathlib

/-!
# Keyset walks

A table is read page by page in the order of a key: each page starts after the last key of the
page before, and the walk ends with a page that is not full.  The table may change between
pages; the walk keeps nothing but its cursor.

* No key is returned twice, whatever happens between pages (`Walk.Ordered.visit`).
* A key whose row is there at every page is returned (`Walk.Covers.visit`): a page that leaves
  it out is full and ends before it.
-/

namespace KeyCompute.Relational

open List

variable {ρ κ : Type} [LinearOrder κ] {key : ρ → κ} {limit : ℕ} {after : Option κ}
  {rows : List ρ} {r r' : ρ}

/-- `SELECT … WHERE key > after ORDER BY key LIMIT limit`. -/
def page (key : ρ → κ) (limit : ℕ) (after : Option κ) (rows : List ρ) : List ρ :=
  ((rows.filter fun r => after.all fun c => c < key r).mergeSort
    fun a b => key a ≤ key b).take limit

theorem mem_of_mem_page (h : r ∈ page key limit after rows) :
    r ∈ rows ∧ ∀ c, after = some c → c < key r := by
  obtain ⟨member, ahead⟩ := mem_filter.mp (mem_mergeSort.mp (mem_of_mem_take h))
  refine ⟨member, ?_⟩
  rintro c rfl
  simpa using ahead

theorem pairwise_ahead (key : ρ → κ) (after : Option κ) (rows : List ρ) :
    ((rows.filter fun r => after.all fun c => c < key r).mergeSort
      fun a b => key a ≤ key b).Pairwise fun a b => key a ≤ key b := by
  have sorted : ((rows.filter fun r => after.all fun c => c < key r).mergeSort
      fun a b => key a ≤ key b).Pairwise fun a b => decide (key a ≤ key b) = true :=
    pairwise_mergeSort
      (fun a b c hab hbc => by simpa using le_trans (by simpa using hab) (by simpa using hbc))
      (fun a b => by simpa using le_total (key a) (key b)) _
  exact sorted.imp fun h => by simpa using h

theorem pairwise_page (unique : (rows.map key).Nodup) :
    ((page key limit after rows).map key).Pairwise (· < ·) := by
  have strict : (((rows.filter fun r => after.all fun c => c < key r).mergeSort
      fun a b => key a ≤ key b).map key).Pairwise (· < ·) := by
    have nodup : (((rows.filter fun r => after.all fun c => c < key r).mergeSort
        fun a b => key a ≤ key b).map key).Nodup :=
      ((mergeSort_perm _ _).map key).nodup_iff.mpr
        (unique.sublist (filter_sublist.map key))
    exact ((pairwise_map.mpr (pairwise_ahead key after rows)).and nodup).imp
      fun h => lt_of_le_of_ne h.1 h.2
  exact strict.sublist ((take_sublist _ _).map key)

theorem page_full (member : r ∈ rows) (ahead : ∀ c, after = some c → c < key r)
    (out : r ∉ page key limit after rows) :
    (page key limit after rows).length = limit ∧
      ∀ r' ∈ page key limit after rows, key r' ≤ key r := by
  set all := (rows.filter fun r => after.all fun c => c < key r).mergeSort
    fun a b => key a ≤ key b with hall
  have inAll : r ∈ all := by
    refine mem_mergeSort.mpr (mem_filter.mpr ⟨member, ?_⟩)
    cases h : after with
    | none => rfl
    | some c => simpa using ahead c h
  have split : all = all.take limit ++ all.drop limit := (take_append_drop limit all).symm
  have dropped : r ∈ all.drop limit := by
    rw [split] at inAll
    exact (mem_append.mp inAll).resolve_left out
  constructor
  · have : limit < all.length := by
      by_contra short
      rw [drop_eq_nil_of_le (by omega)] at dropped
      exact absurd dropped not_mem_nil
    simp only [page, ← hall, length_take]
    omega
  · intro r' hr'
    have sorted := pairwise_ahead key after rows
    rw [← hall, split] at sorted
    exact (pairwise_append.mp sorted).2.2 r' hr' r dropped

/-! ## Walks -/

/-- A walk: the keys returned so far, and where it continues. -/
structure Walk (κ : Type) where
  cursor : Option κ
  seen : List κ
  finished : Bool

def Walk.start : Walk κ := ⟨none, [], false⟩

def Walk.visit (key : ρ → κ) (limit : ℕ) (rows : List ρ) (w : Walk κ) : Walk κ :=
  if w.finished then w
  else
    let keys := (page key limit w.cursor rows).map key
    { cursor := keys.getLast?, seen := w.seen ++ keys, finished := keys.length < limit }

/-- The keys are returned in order, and the cursor is past them. -/
structure Walk.Ordered (w : Walk κ) : Prop where
  seen : w.seen.Pairwise (· < ·)
  behind : w.finished = false → ∀ k ∈ w.seen, ∃ c, w.cursor = some c ∧ k ≤ c

/-- The key was returned, or is still ahead. -/
def Walk.Covers (k : κ) (w : Walk κ) : Prop :=
  k ∈ w.seen ∨ (w.finished = false ∧ ∀ c, w.cursor = some c → c < k)

theorem Walk.start_ordered : (Walk.start : Walk κ).Ordered :=
  ⟨Pairwise.nil, fun _ _ h => absurd h not_mem_nil⟩

theorem Walk.start_covers (k : κ) : (Walk.start : Walk κ).Covers k :=
  .inr ⟨rfl, fun _ h => nomatch h⟩

theorem le_getLast {l : List κ} (sorted : l.Pairwise (· < ·)) {k c : κ} (hk : k ∈ l)
    (last : l.getLast? = some c) : k ≤ c := by
  obtain ⟨rest, rfl⟩ := getLast?_eq_some_iff.mp last
  rcases mem_append.mp hk with hk | hk
  · exact ((pairwise_append.mp sorted).2.2 k hk c (mem_singleton_self c)).le
  · exact (mem_singleton.mp hk).le

theorem Walk.Ordered.visit {w : Walk κ} (h : w.Ordered) (positive : 0 < limit)
    (unique : (rows.map key).Nodup) : (w.visit key limit rows).Ordered := by
  unfold Walk.visit
  split
  · exact h
  · rename_i open_
    have running : w.finished = false := by simpa using open_
    have sorted : ((page key limit w.cursor rows).map key).Pairwise (· < ·) := pairwise_page unique
    have beyond : ∀ a ∈ w.seen, ∀ b ∈ (page key limit w.cursor rows).map key, a < b := by
      intro a ha b hb
      obtain ⟨r, hr, rfl⟩ := mem_map.mp hb
      obtain ⟨c, hc, le⟩ := h.behind running a ha
      exact lt_of_le_of_lt le ((mem_of_mem_page hr).2 c hc)
    refine ⟨pairwise_append.mpr ⟨h.seen, sorted, beyond⟩, fun full k hk => ?_⟩
    -- a full page is not empty, so there is a last key, and it is the greatest of all
    have nonempty : (page key limit w.cursor rows).map key ≠ [] := by
      intro empty
      simp [empty, positive] at full
    obtain ⟨c, last⟩ := Option.ne_none_iff_exists'.mp
      (fun none => nonempty (getLast?_eq_none_iff.mp none))
    refine ⟨c, last, ?_⟩
    rcases mem_append.mp hk with hk | hk
    · exact (beyond k hk c (mem_of_getLast? last)).le
    · exact le_getLast sorted hk last

theorem Walk.Covers.visit {w : Walk κ} (h : w.Covers (key r)) (member : r ∈ rows)
    (unique : (rows.map key).Nodup) : (w.visit key limit rows).Covers (key r) := by
  unfold Walk.visit
  split
  · exact h
  · rename_i open_
    rcases h with seen | ⟨-, ahead⟩
    · exact .inl (mem_append_left _ seen)
    · by_cases inPage : r ∈ page key limit w.cursor rows
      · exact .inl (mem_append_right _ (mem_map_of_mem inPage))
      · obtain ⟨full, before⟩ := page_full member ahead inPage
        refine .inr ⟨by simp [full], fun c last => ?_⟩
        obtain ⟨r', hr', rfl⟩ := mem_map.mp (mem_of_getLast? last)
        refine lt_of_le_of_ne (before r' hr') fun same => inPage ?_
        exact inj_on_of_nodup_map unique (mem_of_mem_page hr').1 member same ▸ hr'

theorem Walk.Ordered.nodup {w : Walk κ} (h : w.Ordered) : w.seen.Nodup := h.seen.imp ne_of_lt

end KeyCompute.Relational
