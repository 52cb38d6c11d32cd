import KeyCompute.Redis.Key

/-!
# The request window in Redis

One sorted set holds the admitted requests of a rate-limit key with their times.  A check drops what
has left the window, counts the rest, and adds the request if the count is below the limit; the key
then lives for two windows.

What a key shows at a time is what the window of the admitted requests shows there (`Holds`): its
deadline is behind the last request by more than the window.  `rpm_retry_after` takes the entry
whose leaving brings the count below the limit (`length_inWindow_lt_iff`).
-/

namespace KeyCompute.RateLimit

open Redis List

abbrev Requests := List (String × ℕ)

/-- `ZREMRANGEBYSCORE key 0 now - window`: what is left. -/
def inWindow (window now : ℕ) (requests : Requests) : Requests :=
  requests.filter fun e => decide (now < e.2 + window)

def pruned (window now : ℕ) (key : Key Requests) : Key Requests :=
  (key.readAt now).modify (inWindow window now)

/-- `ZADD` and `EXPIRE` with `expire_secs`. -/
def recorded (window now : ℕ) (member : String) (key : Key Requests) : Key Requests :=
  (key.modify (put member now)).expire now (window * 2)

/-- `CHECK_AND_RECORD_SCRIPT`. -/
def checkAndRecord (window limit now : ℕ) (member : String) (key : Key Requests) :
    Bool × Key Requests :=
  let key := pruned window now key
  if limit ≤ key.value.length then (false, key) else (true, recorded window now member key)

/-- The order of a sorted set. -/
def rankLe (a b : String × ℕ) : Bool := decide (toLex (a.2, a.1) ≤ toLex (b.2, b.1))

def ranked (requests : Requests) : Requests := requests.mergeSort rankLe

/-- The script of `rpm_retry_after`. -/
def retryScript (window limit now : ℕ) (key : Key Requests) : ℤ × Key Requests :=
  if limit < 1 then (-1, key)
  else
    let key := pruned window now key
    let count := key.value.length
    if count < limit then (0, key)
    else
      match (ranked key.value)[count - limit]? with
      | none => (-1, key)
      | some event => (max 1 (event.2 + window - now), key)

/-- `rpm_retry_after`: the seconds to wait. -/
def rpmRetryAfter (window limit now : ℕ) (key : Key Requests) :
    Except String (Option ℕ) × Key Requests :=
  let (seconds, key) := retryScript window limit now key
  if seconds = 0 then (.ok none, key)
  else if 0 < seconds then (.ok (some seconds.toNat), key)
  else (.error "Invalid RPM recovery state", key)

structure RequestCall where
  time : ℕ
  limit : ℕ
  member : String

structure RequestLog where
  key : Key Requests := default
  admitted : Requests := []

open RequestLog

def RequestLog.check (window : ℕ) (log : RequestLog) (call : RequestCall) : Bool × Key Requests :=
  checkAndRecord window call.limit call.time call.member log.key

def RequestLog.step (window : ℕ) (log : RequestLog) (call : RequestCall) : RequestLog where
  key := (log.check window call).2
  admitted := if (log.check window call).1 then log.admitted ++ [(call.member, call.time)]
    else log.admitted

def RequestLog.run (window : ℕ) (calls : List RequestCall) : RequestLog :=
  calls.foldl (step window) {}

/-- Calls on one key: the clock does not go back, and every request is another member. -/
structure Calls (calls : List RequestCall) : Prop where
  ordered : calls.Pairwise (·.time ≤ ·.time)
  unique : (calls.map (·.member)).Nodup

theorem Calls.of_append {before after : List RequestCall} (h : Calls (before ++ after)) :
    Calls before where
  ordered := (pairwise_append.mp h.ordered).1
  unique := (nodup_append.mp (map_append ▸ h.unique)).1

/-! ## Windows -/

section Windows

variable {window limit now later : ℕ} {requests admitted : Requests} {key : Key Requests}
  {member : String} {event : String × ℕ}

theorem inWindow_inWindow (h : now ≤ later) :
    inWindow window later (inWindow window now requests) = inWindow window later requests := by
  unfold inWindow
  rw [filter_filter]
  refine filter_congr fun e _ => ?_
  grind

/-- From a time on, the key holds the window of the admitted requests. -/
def Holds (window start : ℕ) (key : Key Requests) (admitted : Requests) : Prop :=
  ∀ now, start ≤ now → inWindow window now (key.readAt now).value = inWindow window now admitted

theorem Holds.mono (h : Holds window now key admitted) (hle : now ≤ later) :
    Holds window later key admitted := fun t ht => h t (hle.trans ht)

theorem Holds.value (h : Holds window now key admitted) :
    (pruned window now key).value = inWindow window now admitted := by
  rw [pruned, Key.value_modify, h now le_rfl]

theorem Holds.pruned (h : Holds window now key admitted) :
    Holds window now (pruned window now key) admitted := by
  intro later hle
  rw [RateLimit.pruned, Key.readAt_modify rfl, Key.value_modify, Key.readAt_readAt hle,
    inWindow_inWindow hle, h later hle]

/-- A request behind the others is in the window until it has passed. -/
theorem Holds.recorded (h : Holds window now key admitted) (bounded : ∀ e ∈ admitted, e.2 ≤ now)
    (fresh : member ∉ admitted.map Prod.fst) :
    Holds window now (recorded window now member (RateLimit.pruned window now key))
      (admitted ++ [(member, now)]) := by
  have hnew : get member (inWindow window now admitted) = none :=
    get_eq_none.mpr fun hmem => fresh (map_subset _ (filter_subset_self _) hmem)
  intro later hle
  have hall (passed : now + window ≤ later) :
      inWindow window later (admitted ++ [(member, now)]) = [] := by
    refine filter_eq_nil_iff.mpr fun e he => ?_
    have hbound : e.2 ≤ now := by
      rcases mem_append.mp he with he | he
      · exact bounded e he
      · rw [mem_singleton.mp he]
    rw [decide_eq_true_eq]
    omega
  unfold RateLimit.recorded
  by_cases hzero : window = 0
  · subst hzero
    rw [Nat.zero_mul, Key.expire_zero, hall hle]
    rfl
  · rw [Key.expire_eq_till (by omega), Key.value_modify, h.value, put_of_none hnew]
    by_cases hpast : now + window * 2 ≤ later
    · rw [Key.readAt_till_of_le hpast, hall (by omega)]
      rfl
    · rw [Key.readAt_till_of_lt (by omega), Key.value_till]
      simp only [inWindow, filter_append]
      congr 1
      exact inWindow_inWindow hle

theorem checkAndRecord_eq (limit : ℕ) (member : String) (h : Holds window now key admitted) :
    checkAndRecord window limit now member key =
      if limit ≤ (inWindow window now admitted).length then (false, pruned window now key)
      else (true, recorded window now member (pruned window now key)) := by
  rw [checkAndRecord, h.value]

/-- Among requests in the order of their times, fewer than `limit` are in the window once the one
with `limit - 1` behind it has left. -/
theorem length_inWindow_lt_iff (sorted : requests.Pairwise (·.2 ≤ ·.2))
    (hevent : requests[requests.length - limit]? = some event) (hle : limit ≤ requests.length) :
    (inWindow window now requests).length < limit ↔ event.2 + window ≤ now := by
  induction requests with
  | nil => cases hevent
  | cons first rest ih =>
    obtain ⟨hleast, hrest⟩ := pairwise_cons.mp sorted
    unfold inWindow at ih ⊢
    by_cases hfirst : now < first.2 + window
    · have hall : ∀ e ∈ first :: rest, now < e.2 + window := by grind
      rw [filter_eq_self.mpr fun e he => decide_eq_true (hall e he)]
      have := hall event (mem_of_getElem? hevent)
      omega
    · rw [filter_cons_of_neg (by simpa using hfirst)]
      by_cases hshort : limit ≤ rest.length
      · rw [length_cons, Nat.sub_add_comm hshort, getElem?_cons_succ] at hevent
        exact ih hrest hevent hshort
      · have hlen := length_filter_le (fun e => decide (now < e.2 + window)) rest
        grind

theorem ranked_sorted (requests : Requests) : (ranked requests).Pairwise (·.2 ≤ ·.2) := by
  have hsorted : (ranked requests).Pairwise fun a b => rankLe a b :=
    pairwise_mergeSort
      (fun a b c hab hbc => decide_eq_true ((of_decide_eq_true hab).trans (of_decide_eq_true hbc)))
      (fun a b => by simpa [rankLe] using le_total _ _) requests
  exact hsorted.imp fun hab => Prod.Lex.monotone_fst _ _ (of_decide_eq_true hab)

end Windows

/-! ## Runs -/

section Runs

variable {window limit now : ℕ} {calls : List RequestCall} {call : RequestCall}
  {key : Key Requests} {admitted : Requests}

theorem run_concat : run window (calls ++ [call]) =
    (run window calls).step window call := by
  rw [run, foldl_append]
  rfl

theorem run_shows (window : ℕ) (h : Calls calls) (hnow : ∀ call ∈ calls, call.time ≤ now) :
    Holds window now (run window calls).key (run window calls).admitted ∧
      ∀ e ∈ (run window calls).admitted, ∃ call ∈ calls,
        e = (call.member, call.time) := by
  induction calls using reverseRecOn generalizing now with
  | nil => exact ⟨fun _ _ => rfl, nofun⟩
  | append_singleton before call ih =>
    have hbefore : ∀ b ∈ before, b.time ≤ call.time := fun b hb =>
      (pairwise_append.mp h.ordered).2.2 b hb call (by simp)
    have hcall : call.time ≤ now := hnow call (by simp)
    obtain ⟨hshows, hmembers⟩ := ih h.of_append hbefore
    have hkept : ∀ e ∈ (run window before).admitted, ∃ b ∈ before ++ [call],
        e = (b.member, b.time) := fun e he =>
      (hmembers e he).imp fun b hb => hb.imp_left (mem_append_left _)
    rw [run_concat, step, check, checkAndRecord_eq _ _ hshows]
    split
    · exact ⟨hshows.pruned.mono hcall, hkept⟩
    · refine ⟨(hshows.recorded ?_ ?_).mono hcall, fun e he => ?_⟩
      · intro e he
        obtain ⟨b, hb, rfl⟩ := hmembers e he
        exact hbefore b hb
      · intro hmem
        obtain ⟨e, he, heq⟩ := mem_map.mp hmem
        obtain ⟨b, hb, rfl⟩ := hmembers e he
        exact (nodup_append.mp (map_append ▸ h.unique)).2.2 _ (mem_map_of_mem hb) _
          (by simp) heq
      · rcases mem_append.mp he with he | he
        · exact hkept e he
        · exact ⟨call, by simp, mem_singleton.mp he⟩

theorem rpmRetryAfter_least (h : Holds window now key admitted) (positive : 0 < limit)
    (rejected : limit ≤ (inWindow window now admitted).length) (member : String) :
    ∃ wait, (rpmRetryAfter window limit now key).1 = .ok (some wait) ∧
      IsLeast {d | (checkAndRecord window limit (now + d) member
        (rpmRetryAfter window limit now key).2).1 = true} wait := by
  have hperm := mergeSort_perm (inWindow window now admitted) rankLe
  have hlen := hperm.length_eq
  obtain ⟨event, hevent⟩ : ∃ event, (ranked (inWindow window now admitted))[
      (inWindow window now admitted).length - limit]? = some event :=
    ⟨_, getElem?_eq_getElem (by unfold ranked; omega)⟩
  have hlive : now < event.2 + window := by
    simpa using (mem_filter.mp (hperm.mem_iff.mp (mem_of_getElem? hevent))).2
  have hwait : max 1 ((event.2 : ℤ) + window - now) = (event.2 + window - now : ℕ) := by omega
  have hanswer : rpmRetryAfter window limit now key =
      (.ok (some (event.2 + window - now)), pruned window now key) := by
    unfold rpmRetryAfter retryScript
    rw [if_neg (by omega)]
    simp only [h.value, Nat.not_lt.mpr rejected, if_false, hevent, hwait]
    rw [if_neg (by omega), if_pos (by omega)]
    rfl
  have hadmits (d : ℕ) : (checkAndRecord window limit (now + d) member
      (pruned window now key)).1 = true ↔ event.2 + window ≤ now + d := by
    have hcount : (inWindow window (now + d) (ranked (inWindow window now admitted))).length =
        (inWindow window (now + d) (inWindow window now admitted)).length :=
      (hperm.filter _).length_eq
    rw [← length_inWindow_lt_iff (ranked_sorted _) (hlen ▸ hevent) (hlen ▸ rejected), hcount,
      inWindow_inWindow (Nat.le_add_right now d),
      checkAndRecord_eq limit member (h.pruned.mono (Nat.le_add_right now d))]
    split <;> simp <;> omega
  rw [hanswer]
  refine ⟨_, rfl, (hadmits _).mpr (by omega), fun d hd => ?_⟩
  have := (hadmits d).mp hd
  omega

end Runs

/-- **The request window in Redis is exact**: who is admitted, that a rejected call adds nothing to
what the key shows from then on, and that the wait that `rpm_retry_after` answers is the least. -/
theorem rpm_window_exact (window : ℕ) (calls : List RequestCall) (h : Calls calls) :
    (∀ before call after, calls = before ++ call :: after →
      (((run window before).check window call).1 = true ↔
        ((run window before).admitted.filter fun e =>
          decide ((call.time : ℤ) - window < e.2)).length < call.limit) ∧
      (((run window before).check window call).1 = false → ∀ now, call.time ≤ now →
        inWindow window now ((run window (before ++ [call])).key.readAt now).value =
          inWindow window now ((run window before).key.readAt now).value)) ∧
    ∀ now limit member, (∀ call ∈ calls, call.time ≤ now) → 0 < limit →
      (checkAndRecord window limit now member (run window calls).key).1 = false →
      ∃ wait, (rpmRetryAfter window limit now (run window calls).key).1 =
          .ok (some wait) ∧
        IsLeast {d | (checkAndRecord window limit (now + d) member
          (rpmRetryAfter window limit now (run window calls).key).2).1 = true} wait := by
  refine ⟨?_, fun now limit member hnow positive rejected => ?_⟩
  · rintro before call after rfl
    have hshows := (run_shows window h.of_append fun b hb =>
      (pairwise_append.mp h.ordered).2.2 b hb call (by simp)).1
    have hsame : inWindow window call.time (run window before).admitted =
        (run window before).admitted.filter
          fun e => decide ((call.time : ℤ) - window < e.2) :=
      filter_congr fun e _ => by rw [decide_eq_decide]; omega
    rw [run_concat, step, check, checkAndRecord_eq _ _ hshows, hsame]
    split
    · rename_i hfull
      exact ⟨by simpa using hfull, fun _ now hle => by rw [hshows.pruned now hle, hshows now hle]⟩
    · rename_i hfew
      exact ⟨by simpa using hfew, nofun⟩
  · have hshows := (run_shows window h hnow).1
    rw [checkAndRecord_eq limit member hshows] at rejected
    refine rpmRetryAfter_least hshows positive ?_ member
    by_contra hfew
    rw [if_neg hfew] at rejected
    cases rejected

/-- Two requests under a limit of five, which is then lowered to one. -/
def twoRequests : List RequestCall := [⟨100, 5, "a"⟩, ⟨130, 5, "b"⟩]

theorem rpm_window_exact_lowered :
    ∃ wait, (rpmRetryAfter 60 1 140 (run 60 twoRequests).key).1 = .ok (some wait) ∧
      IsLeast {d | (checkAndRecord 60 1 (140 + d) "c"
        (rpmRetryAfter 60 1 140 (run 60 twoRequests).key).2).1 = true} wait :=
  (rpm_window_exact 60 twoRequests ⟨by decide, by decide⟩).2 140 1 "c" (by decide)
    (by decide) (by decide +kernel)

/-- **No span of a window's length has more than the limit**, wherever it begins. -/
theorem admitted_in_span_le (window bound start : ℕ) (calls : List RequestCall) (h : Calls calls)
    (limits : ∀ call ∈ calls, call.limit ≤ bound) :
    ((run window calls).admitted.countP fun e => decide (start ≤ e.2 ∧ e.2 < start + window)) ≤
      bound := by
  induction calls using reverseRecOn with
  | nil => exact Nat.zero_le _
  | append_singleton before call ih =>
    have hbefore : ∀ b ∈ before, b.time ≤ call.time := fun b hb =>
      (pairwise_append.mp h.ordered).2.2 b hb call (by simp)
    have hrest := ih h.of_append fun b hb => limits b (mem_append_left _ hb)
    rw [run_concat, step, check, checkAndRecord_eq _ _ (run_shows window h.of_append hbefore).1]
    split
    · exact hrest
    · rename_i hfew
      simp only [if_true, countP_append, countP_singleton, decide_eq_true_eq]
      split
      · -- what the span has so far is in the window that the check has counted
        rename_i hspan
        have hlimit := limits call (by simp)
        have hcounted := countP_mono_left (l := (run window before).admitted)
          (p := fun e => decide (start ≤ e.2 ∧ e.2 < start + window))
          (q := fun e => decide (call.time < e.2 + window)) (by grind)
        rw [inWindow, ← countP_eq_length_filter] at hfew
        omega
      · exact hrest

/-- Three requests within one span, under a limit of two. -/
def threeRequests : List RequestCall := twoRequests.map ({ · with limit := 2 }) ++ [⟨140, 2, "c"⟩]

/-- The bound is reached: the span has the first two requests. -/
theorem admitted_in_span_le_threeRequests :
    ((run 60 threeRequests).admitted.countP fun e => decide (90 ≤ e.2 ∧ e.2 < 90 + 60)) = 2 :=
  le_antisymm (admitted_in_span_le 60 2 90 threeRequests ⟨by decide, by decide⟩ (by decide))
    (by decide +kernel)

end KeyCompute.RateLimit
