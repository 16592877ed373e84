import Mathlib.Algebra.BigOperators.Group.List.Basic
import Mathlib.Algebra.Order.Group.Multiset
import Mathlib.Tactic.Abel
import Aes70.Resource.Ledger

/-!
# Allocators

Resources behind pointers that may be null, as the heap of C hands them out: an allocation that
fails returns null, and a null pointer is freed for nothing. The ledger takes down what happens.

* `alloc`, `free`, `realloc` : the ledger after a call; `allocAll`, `freeAll` after several.
* `held` : what a pointer owns.
* `replay_alloc`, `replay_free`, `replay_realloc` : the calls and what is held, whatever else is.
* `sum_map_set` : one element of a list of owners is replaced.
-/

namespace Resource

variable {ρ : Type*}

/-- What a pointer owns. -/
def held : Option ρ → Multiset ρ
  | some r => {r}
  | none => 0

/-- What several pointers own. -/
def heldAll (ps : List (Option ρ)) : Multiset ρ := (ps.map held).sum

/-- An allocation that returned `p`. -/
def alloc (t : List (Act ρ)) : Option ρ → List (Act ρ)
  | some r => t ++ [.acquire r]
  | none => t

/-- `p` is freed. -/
def free (t : List (Act ρ)) : Option ρ → List (Act ρ)
  | some r => t ++ [.release r]
  | none => t

/-- What was at `p` is moved, unless there is no room for it. -/
def realloc (t : List (Act ρ)) (p : Option ρ) : Option ρ → List (Act ρ)
  | some r => alloc (free t p) (some r)
  | none => t

/-- Allocations one after the other. -/
def allocAll (t : List (Act ρ)) (ps : List (Option ρ)) : List (Act ρ) := ps.foldl alloc t

/-- The pointers are freed one after the other. -/
def freeAll (t : List (Act ρ)) (ps : List (Option ρ)) : List (Act ρ) := ps.foldl free t

section Owners

variable {α : Type*} {M : Type*} [AddCommMonoid M] {f : α → M} {l : List α} {i : ℕ} {a : α}

/-- **One owner is replaced**: the others own what they owned. -/
theorem sum_map_set (h : l[i]? = some a) :
    ∃ k, (l.map f).sum = f a + k ∧ ∀ b, ((l.set i b).map f).sum = f b + k := by
  obtain ⟨hi, rfl⟩ := List.getElem?_eq_some_iff.1 h
  refine ⟨((l.take i).map f).sum + ((l.drop (i + 1)).map f).sum, ?_, fun b => ?_⟩
  · calc (l.map f).sum = ((l.take i ++ l[i] :: l.drop (i + 1)).map f).sum := by
          rw [List.cons_getElem_drop_succ, List.take_append_drop]
      _ = f l[i] + (((l.take i).map f).sum + ((l.drop (i + 1)).map f).sum) := by
          rw [List.map_append, List.sum_append, List.map_cons, List.sum_cons]
          abel
  · rw [List.set_eq_take_append_cons_drop, if_pos hi, List.map_append, List.sum_append,
      List.map_cons, List.sum_cons]
    abel

end Owners

variable {p q : Option ρ} {ps : List (Option ρ)}

@[simp] theorem held_none : held (none : Option ρ) = 0 := rfl

@[simp] theorem heldAll_nil : heldAll ([] : List (Option ρ)) = 0 := rfl

theorem heldAll_cons : heldAll (p :: ps) = held p + heldAll ps := by
  rw [heldAll, List.map_cons, List.sum_cons, heldAll]

theorem heldAll_append {qs : List (Option ρ)} :
    heldAll (ps ++ qs) = heldAll ps + heldAll qs := by
  rw [heldAll, List.map_append, List.sum_append, heldAll, heldAll]

variable [DecidableEq ρ] {t : List (Act ρ)} {g k : Multiset ρ}

theorem replay_alloc (h : replay t g = some k) : replay (alloc t p) g = some (held p + k) := by
  cases p with
  | none => rw [held_none, Multiset.zero_add, ← h, alloc]
  | some r => exact replay_concat_acquire h

theorem replay_free (h : replay t g = some (held p + k)) : replay (free t p) g = some k := by
  cases p with
  | none => rwa [held_none, Multiset.zero_add] at h
  | some r => exact replay_concat_release h

/-- A `realloc` that fails leaves the old block. -/
theorem replay_realloc (h : replay t g = some (held p + k)) :
    replay (realloc t p q) g = some (held (q <|> p) + k) := by
  cases q with
  | none => exact h
  | some r =>
    have hmoved : replay (alloc (free t p) (some r)) g = some (held (some r) + k) :=
      replay_alloc (replay_free h)
    exact hmoved

theorem replay_allocAll (h : replay t g = some k) :
    replay (allocAll t ps) g = some (heldAll ps + k) := by
  induction ps generalizing t k with
  | nil => rwa [heldAll_nil, Multiset.zero_add]
  | cons p ps ih =>
    refine (ih (replay_alloc h)).trans (congrArg some ?_)
    rw [heldAll_cons]
    abel

theorem replay_freeAll (h : replay t g = some (heldAll ps + k)) :
    replay (freeAll t ps) g = some k := by
  induction ps generalizing t with
  | nil => rwa [heldAll_nil, Multiset.zero_add] at h
  | cons p ps ih =>
    rw [heldAll_cons, Multiset.add_assoc] at h
    exact ih (replay_free h)

end Resource
