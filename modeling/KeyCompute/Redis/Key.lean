import KeyCompute.Relational.Table

/-!
# Redis keys

A key holds a value and possibly the time from which it is gone.  A key that holds the empty value
does not exist, and has no deadline; emptying a collection deletes its key.

Hashes and sorted sets are lists of fields with their values.  `relabel` renames the fields and maps
the values; reading, writing and deleting a field commute with it if the renaming is injective.
-/

namespace KeyCompute.Redis

open Function

open Relational (lookup)

/-! ## Fields -/

section Fields

variable {κ κ' β β' : Type} {fields : List (κ × β)} {k k' : κ} {v w : β} {f : κ → κ'} {g : β → β'}

def relabel (f : κ → κ') (g : β → β') (fields : List (κ × β)) : List (κ' × β') :=
  fields.map fun e => (f e.1, g e.2)

@[simp] theorem relabel_nil : relabel f g ([] : List (κ × β)) = [] := rfl

@[simp] theorem length_relabel : (relabel f g fields).length = fields.length :=
  List.length_map _

variable [DecidableEq κ]

/-- `HGET`, `ZSCORE`. -/
def get (k : κ) (fields : List (κ × β)) : Option β := (lookup Prod.fst k fields).map Prod.snd

/-- `HSET`, `ZADD`. -/
def put (k : κ) (v : β) (fields : List (κ × β)) : List (κ × β) :=
  if (get k fields).isSome then fields.map fun e => if e.1 = k then (k, v) else e
  else fields ++ [(k, v)]

/-- `HDEL`, `ZREM`. -/
def del (k : κ) (fields : List (κ × β)) : List (κ × β) := fields.filter fun e => e.1 ≠ k

@[simp] theorem get_nil : get k ([] : List (κ × β)) = none := rfl

theorem get_cons (e : κ × β) :
    get k (e :: fields) = if e.1 = k then some e.2 else get k fields := by
  unfold get lookup
  by_cases h : e.1 = k <;> simp [h]

theorem get_append (more : List (κ × β)) :
    get k (fields ++ more) = (get k fields).or (get k more) := by
  unfold get
  rw [Relational.lookup_append]
  cases lookup Prod.fst k fields <;> rfl

theorem get_eq_none : get k fields = none ↔ k ∉ fields.map Prod.fst := by
  unfold get
  rw [Option.map_eq_none_iff, Relational.lookup_eq_none, List.mem_map]
  constructor
  · rintro h ⟨e, he, hk⟩
    exact h e he hk
  · exact fun h e he hk => h ⟨e, he, hk⟩

theorem mem_of_get (h : get k fields = some v) : (k, v) ∈ fields := by
  obtain ⟨e, he, rfl⟩ := Option.map_eq_some_iff.mp h
  rw [← Relational.key_of_lookup he]
  exact Relational.mem_of_lookup he

theorem get_of_mem {e : κ × β} (unique : (fields.map Prod.fst).Nodup) (h : e ∈ fields) :
    get e.1 fields = some e.2 := by
  unfold get
  rw [(Relational.lookup_eq_some unique).mpr ⟨h, rfl⟩]
  rfl

theorem put_of_none (h : get k fields = none) : put k v fields = fields ++ [(k, v)] := by
  simp [put, h]

theorem put_of_some (h : get k fields = some w) :
    put k v fields = fields.map fun e => if e.1 = k then (k, v) else e := by
  simp [put, h]

theorem get_put (k' : κ) :
    get k' (put k v fields) = update (fun k => get k fields) k (some v) k' := by
  cases hk : get k fields with
  | none =>
    rw [put_of_none hk, get_append, get_cons, update_apply]
    by_cases hk' : k' = k
    · subst hk'
      simp [hk]
    · simp [hk', Ne.symm hk']
  | some w =>
    rw [put_of_some hk, update_apply]
    split
    · rename_i hk'
      subst hk'
      induction fields with
      | nil => simp at hk
      | cons e rest ih => grind [get_cons]
    · rename_i hk'
      clear hk
      induction fields with
      | nil => rfl
      | cons e rest ih => grind [get_cons]

theorem get_del (k' : κ) :
    get k' (del k fields) = update (fun k => get k fields) k none k' := by
  induction fields with
  | nil => simp [del, update_apply]
  | cons e rest ih =>
      grind [update_apply, del, get_cons, Bool.false_eq_true]

theorem length_del_lt {e : κ × β} (h : e ∈ fields) : (del e.1 fields).length < fields.length :=
  List.length_filter_lt_length_iff_exists.mpr ⟨e, h, by simp⟩

theorem foldl_del (ks : List κ) :
    ks.foldl (fun fields k => del k fields) fields = fields.filter fun e => e.1 ∉ ks := by
  induction ks generalizing fields with
  | nil => simp
  | cons k rest ih =>
    rw [List.foldl_cons, ih, del, List.filter_filter]
    refine List.filter_congr fun e _ => ?_
    simp [Bool.and_comm]

theorem get_filter {p : β → Bool} (unique : (fields.map Prod.fst).Nodup) (k : κ) :
    get k (fields.filter fun e => p e.2) = (get k fields).filter p := by
  induction fields with
  | nil => rfl
  | cons e rest ih =>
    obtain ⟨hfresh, hrest⟩ := List.nodup_cons.mp unique
    rw [List.filter_cons, get_cons]
    by_cases he : e.1 = k
    · have hnone : get k rest = none := get_eq_none.mpr (he ▸ hfresh)
      by_cases hp : p e.2
      · simp [hp, he, get_cons, Option.filter_some]
      · simp [hp, he, ih hrest, hnone, Option.filter_some]
    · grind [get_cons]

theorem nodup_put (unique : (fields.map Prod.fst).Nodup) :
    ((put k v fields).map Prod.fst).Nodup := by
  cases hk : get k fields with
  | none =>
    rw [put_of_none hk, List.map_append]
    refine List.nodup_append'.mpr ⟨unique, by simp, ?_⟩
    simpa using get_eq_none.mp hk
  | some w =>
    rw [put_of_some hk, List.map_map]
    have hkeys : (Prod.fst ∘ fun e : κ × β => if e.1 = k then (k, v) else e) = Prod.fst := by
      funext e
      by_cases he : e.1 = k <;> simp [he]
    rw [hkeys]
    exact unique

theorem nodup_del (unique : (fields.map Prod.fst).Nodup) :
    ((del k fields).map Prod.fst).Nodup :=
  unique.sublist (List.filter_sublist.map _)

theorem mem_put {e : κ × β} (h : e ∈ put k v fields) : e = (k, v) ∨ e ∈ fields := by
  unfold put at h
  split at h
  · grind
  · exact (List.mem_append.mp h).symm.imp_left List.mem_singleton.mp

theorem put_ne_nil : put k v fields ≠ [] := by
  unfold put
  split
  · rename_i hk
    intro hnil
    rw [List.map_eq_nil_iff.mp hnil] at hk
    cases hk
  · simp

/-! ### Sums of a column -/

variable {c : β → ℕ}

theorem sum_put_of_none (h : get k fields = none) :
    ((put k v fields).map fun e => c e.2).sum = (fields.map fun e => c e.2).sum + c v := by
  simp [put_of_none h]

theorem sum_put_of_some (unique : (fields.map Prod.fst).Nodup) (h : get k fields = some w)
    (same : c v = c w) :
    ((put k v fields).map fun e => c e.2).sum = (fields.map fun e => c e.2).sum := by
  rw [put_of_some h, List.map_map]
  congr 1
  refine List.map_congr_left fun e he => ?_
  rw [comp_apply]
  split
  · rename_i hek
    have hget := get_of_mem unique he
    rw [hek, h] at hget
    rw [same, Option.some.inj hget]
  · rfl

theorem sum_put_add (unique : (fields.map Prod.fst).Nodup) (h : get k fields = some w) :
    ((put k v fields).map fun e => c e.2).sum + c w = (fields.map fun e => c e.2).sum + c v := by
  rw [put_of_some h, List.map_map]
  induction fields with
  | nil => cases h
  | cons e rest ih =>
    obtain ⟨hfresh, hrest⟩ := List.nodup_cons.mp unique
    rw [get_cons] at h
    rw [List.map_cons, List.map_cons, List.sum_cons, List.sum_cons, comp_apply]
    by_cases he : e.1 = k
    · rw [if_pos he] at h
      obtain rfl := Option.some.inj h
      -- no other field has this name
      have hsame : rest.map ((fun e => c e.2) ∘ fun e => if e.1 = k then (k, v) else e) =
          rest.map fun e => c e.2 := by grind [List.map_congr_left, List.mem_map.mpr]
      simp only [hsame, if_pos he]
      omega
    · rw [if_neg he] at h ⊢
      have := ih hrest h
      omega

theorem sum_del (unique : (fields.map Prod.fst).Nodup) (h : get k fields = some v) :
    ((del k fields).map fun e => c e.2).sum + c v = (fields.map fun e => c e.2).sum := by
  induction fields with
  | nil => cases h
  | cons e rest ih =>
    obtain ⟨hfresh, hrest⟩ := List.nodup_cons.mp unique
    rw [get_cons] at h
    unfold del at ih ⊢
    rw [List.filter_cons]
    by_cases he : e.1 = k
    · rw [if_pos he] at h
      obtain rfl := Option.some.inj h
      -- no other field has this name
      have hall : rest.filter (fun e => e.1 ≠ k) = rest := by
        grind [List.filter_eq_self.mpr, List.mem_map.mpr]
      simp only [ne_eq, decide_not] at hall
      simp [he, hall, Nat.add_comm]
    · grind

/-! ### Renamed fields -/

theorem relabel_put_of_eq (unique : (fields.map Prod.fst).Nodup) (h : get k fields = some w)
    (same : g v = g w) : relabel f g (put k v fields) = relabel f g fields := by
  rw [put_of_some h]
  unfold relabel
  rw [List.map_map]
  refine List.map_congr_left fun e he => ?_
  rw [comp_apply]
  split
  · rename_i hek
    have hget := get_of_mem unique he
    rw [hek, h] at hget
    rw [same, Option.some.inj hget, hek]
  · rfl

variable [DecidableEq κ']

theorem get_relabel (hf : Injective f) (k : κ) :
    get (f k) (relabel f g fields) = (get k fields).map g := by
  induction fields with
  | nil => rfl
  | cons e rest ih => grind [relabel, get_cons]

theorem put_relabel (hf : Injective f) :
    put (f k) (g v) (relabel f g fields) = relabel f g (put k v fields) := by
  cases hk : get k fields with
  | none => grind [relabel, get_relabel, put_of_none]
  | some w =>
    have hk' : get (f k) (relabel f g fields) = some (g w) := by rw [get_relabel hf, hk]; rfl
    rw [put_of_some hk, put_of_some hk']
    unfold relabel
    rw [List.map_map, List.map_map]
    refine List.map_congr_left fun e _ => ?_
    by_cases he : e.1 = k
    · simp [he]
    · simp [he, hf.ne he]

theorem del_relabel (hf : Injective f) :
    del (f k) (relabel f g fields) = relabel f g (del k fields) := by
  unfold del relabel
  rw [List.filter_map]
  congr 1
  refine List.filter_congr fun e _ => ?_
  simp [hf.eq_iff]

end Fields

/-! ## Keys -/

section Keys

variable {α : Type} [Inhabited α]

/-- A key: its value, and the time from which it is gone. -/
structure Key (α : Type) where
  value : α
  deadline : Option ℕ
  deriving DecidableEq

instance : Inhabited (Key α) := ⟨default, none⟩

namespace Key

def readAt (now : ℕ) (key : Key α) : Key α := if key.deadline.any (· ≤ now) then default else key

@[simp] theorem value_default : (default : Key α).value = default := rfl

@[simp] theorem readAt_default {now : ℕ} : (default : Key α).readAt now = default := rfl

theorem readAt_readAt {now later : ℕ} {key : Key α} (h : now ≤ later) :
    (key.readAt now).readAt later = key.readAt later := by
  unfold readAt
  by_cases hgone : key.deadline.any (· ≤ now)
  · have hlater : key.deadline.any (· ≤ later) := by
      cases hd : key.deadline <;> grind
    rw [if_pos hgone, if_pos hlater]
    rfl
  · rw [if_neg hgone]

variable [DecidableEq α]

def modify (f : α → α) (key : Key α) : Key α :=
  if f key.value = default then default else { key with value := f key.value }

def set (value : α) : Key α := ⟨value, none⟩

/-- `SET` with `XX` and `KEEPTTL`. -/
def setExisting (value : α) (key : Key α) : Key α :=
  if key.value = default then key else { key with value }

def expire (now secs : ℕ) (key : Key α) : Key α :=
  if secs = 0 ∨ key.value = default then default else { key with deadline := some (now + secs) }

/-- A key with its deadline, unless the value is empty. -/
def till (deadline : ℕ) (value : α) : Key α :=
  if value = default then default else ⟨value, some deadline⟩

variable {now secs deadline : ℕ} {value : α} {key : Key α}

@[simp] theorem value_till : (till deadline value).value = value := by
  unfold till
  split
  · rename_i h
    rw [h]
    rfl
  · rfl

@[simp] theorem till_default : till deadline (default : α) = default := if_pos rfl

theorem readAt_till_of_lt (h : now < deadline) :
    (till deadline value).readAt now = till deadline value := by
  unfold till
  split
  · rfl
  · simp [readAt, Nat.not_le.mpr h]

theorem readAt_till_of_le (h : deadline ≤ now) : (till deadline value).readAt now = default := by
  unfold till
  split
  · rfl
  · simp [readAt, h]

@[simp] theorem value_modify {f : α → α} : (key.modify f).value = f key.value := by
  unfold modify
  split
  · rename_i h
    rw [h]
    rfl
  · rfl

theorem readAt_modify {f : α → α} (hf : f default = default) :
    (key.modify f).readAt now = (key.readAt now).modify f := by
  unfold modify readAt
  by_cases hgone : key.deadline.any (· ≤ now) <;> by_cases hempty : f key.value = default <;>
    simp [hgone, hempty, hf]

theorem value_setExisting (h : key.value ≠ default) : (key.setExisting value).value = value := by
  simp [setExisting, h]

theorem expire_eq_till (h : secs ≠ 0) : key.expire now secs = till (now + secs) key.value := by
  unfold expire till
  simp only [h, false_or]

@[simp] theorem expire_zero : key.expire now 0 = default := by
  simp [expire]

end Key

end Keys

end KeyCompute.Redis
