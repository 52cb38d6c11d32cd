import KeyCompute.Relational.Table

/-!
# Accounts with held and locked funds

An account has an `available` part, a part `held` for outstanding claims and a part `locked` on
purpose, and counts everything ever `credited` and `debited`.  Credits, debits, locks and unlocks
are **posted** to the journal; funds held or released for a claim leave no entry.

`Reconciled` says that the columns are the sums of the journal.  `Move.reconciled` is the step
lemma, and `Moves.reconciled` its closure.
-/

namespace KeyCompute.Accounting

open Relational

inductive Posting where
  | credit | debit | lock | unlock
  deriving DecidableEq

/-- A journal entry: its kind and the signed change of the available funds. -/
structure Entry where
  posting : Posting
  amount : ℤ

structure Account where
  available : ℤ
  held : ℤ
  locked : ℤ
  credited : ℤ
  debited : ℤ

def journalTotal (p : Posting → Bool) (journal : List Entry) : ℤ :=
  totalWhere (fun e => p e.posting) Entry.amount journal

/-- **The columns are what the journal says**, and locked funds never go negative. -/
structure Reconciled (account : Account) (journal : List Entry) : Prop where
  funds : account.available + account.held = journalTotal (fun _ => true) journal
  locked : account.locked = -journalTotal (fun k => k = .lock ∨ k = .unlock) journal
  locked_nonneg : 0 ≤ account.locked
  credited : account.credited = journalTotal (fun k => k = .credit) journal
  debited : account.debited = -journalTotal (fun k => k = .debit) journal

/-- The funds of an account, less what ever came in and went out. -/
def Account.worth (account : Account) : ℤ :=
  account.available + account.held + account.locked - account.credited + account.debited

/-- One movement of an account, labelled with the kind of entry it posts. -/
inductive Move : Option Posting → Account × List Entry → Account × List Entry → Prop
  | hold (account : Account) (journal : List Entry) (δ : ℤ) :
      Move none (account, journal)
        ({ account with available := account.available - δ, held := account.held + δ }, journal)
  | credit (account : Account) (journal : List Entry) (a : ℤ) :
      Move (some .credit) (account, journal)
        ({ account with available := account.available + a, credited := account.credited + a },
          journal ++ [⟨.credit, a⟩])
  | debit (account : Account) (journal : List Entry) (a : ℤ) :
      Move (some .debit) (account, journal)
        ({ account with available := account.available - a, debited := account.debited + a },
          journal ++ [⟨.debit, -a⟩])
  | lock (account : Account) (journal : List Entry) (a : ℤ) (nonneg : 0 ≤ a) :
      Move (some .lock) (account, journal)
        ({ account with available := account.available - a, locked := account.locked + a },
          journal ++ [⟨.lock, -a⟩])
  | unlock (account : Account) (journal : List Entry) (a : ℤ) (covered : a ≤ account.locked) :
      Move (some .unlock) (account, journal)
        ({ account with available := account.available + a, locked := account.locked - a },
          journal ++ [⟨.unlock, a⟩])

def Moves (kinds : Option Posting → Prop) :
    Account × List Entry → Account × List Entry → Prop :=
  Relation.ReflTransGen fun s s' => ∃ k, kinds k ∧ Move k s s'

theorem journalTotal_concat (p : Posting → Bool) (journal : List Entry) (e : Entry) :
    journalTotal p (journal ++ [e]) =
      journalTotal p journal + if p e.posting then e.amount else 0 := by
  rw [journalTotal, totalWhere_append, totalWhere_singleton]
  rfl

theorem Reconciled.empty : Reconciled ⟨0, 0, 0, 0, 0⟩ [] := ⟨rfl, rfl, le_rfl, rfl, rfl⟩

section Moves

variable {k : Option Posting} {kinds kinds' : Option Posting → Prop}
  {s s₁ s' : Account × List Entry}

theorem Move.reconciled (h : Move k s s') (hs : Reconciled s.1 s.2) : Reconciled s'.1 s'.2 := by
  obtain ⟨funds, locked, nonneg, credited, debited⟩ := hs
  cases h with
  | hold account journal δ =>
    exact ⟨by simp only at funds ⊢; omega, locked, nonneg, credited, debited⟩
  | credit | debit | lock | unlock =>
    constructor <;> simp [journalTotal_concat] at * <;> omega

theorem Move.locked (h : Move k s s') (hlock : k ≠ some .lock) (hunlock : k ≠ some .unlock) :
    s'.1.locked = s.1.locked := by
  cases h with
  | hold | credit | debit => rfl
  | lock account journal a hnn => exact absurd rfl hlock
  | unlock account journal a covered => exact absurd rfl hunlock

namespace Moves

theorem refl (s : Account × List Entry) : Moves kinds s s := Relation.ReflTransGen.refl

theorem single (h : Move k s s') (hk : kinds k) : Moves kinds s s' :=
  Relation.ReflTransGen.single ⟨k, hk, h⟩

theorem trans (h₁ : Moves kinds s s₁) (h₂ : Moves kinds s₁ s') : Moves kinds s s' :=
  Relation.ReflTransGen.trans h₁ h₂

theorem mono (h : Moves kinds s s') (hkinds : ∀ k, kinds k → kinds' k) : Moves kinds' s s' := by
  induction h with
  | refl => exact refl _
  | tail _ step ih =>
    obtain ⟨k, hk, step⟩ := step
    exact ih.trans (single step (hkinds k hk))

theorem worth (h : Moves kinds s s') : s'.1.worth = s.1.worth := by
  induction h with
  | refl => rfl
  | tail _ step ih =>
    obtain ⟨k, -, step⟩ := step
    rw [← ih]
    cases step <;> simp only [Account.worth] <;> ring

theorem reconciled (h : Moves kinds s s') (hs : Reconciled s.1 s.2) : Reconciled s'.1 s'.2 := by
  induction h with
  | refl => exact hs
  | tail _ step ih =>
    obtain ⟨k, -, step⟩ := step
    exact step.reconciled ih

theorem locked (h : Moves kinds s s') (hlock : ¬ kinds (some .lock))
    (hunlock : ¬ kinds (some .unlock)) : s'.1.locked = s.1.locked := by
  induction h with
  | refl => rfl
  | tail _ step ih =>
    obtain ⟨k, hk, step⟩ := step
    refine (step.locked ?_ ?_).trans ih
    · rintro rfl
      exact hlock hk
    · rintro rfl
      exact hunlock hk

end Moves

end Moves

end KeyCompute.Accounting
