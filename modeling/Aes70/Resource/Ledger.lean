import Mathlib.Data.Multiset.AddSub
import Mathlib.Data.Multiset.Count
import Mathlib.Tactic.Common

/-!
# Ledgers of acquired and released resources

A program acquires resources and releases them: descriptors, blocks of memory, handles. The ledger
records both in order. A resource that was released may come back under the same name, so what a
ledger leaves behind is a multiset of names.

* `Balanced t` : everything acquired is released exactly once, and nothing else is released.
* `replay t h` : what is held after the ledger `t` when `h` is held before; `none` if something is
  released that is not held.
* `replay_eq_some_iff` : replaying a ledger is counting its entries.
* `balanced_iff` : a ledger is balanced exactly if, from nothing held, it ends with nothing held.
* `replay_concat_acquire`, `replay_concat_release` : the two ways a ledger grows.
-/

namespace Resource

/-- An entry of a ledger. -/
inductive Act (ρ : Type*)
  | acquire (r : ρ)
  | release (r : ρ)
deriving DecidableEq

variable {ρ : Type*} [DecidableEq ρ]

/-- How often `r` was acquired. -/
def acquired (t : List (Act ρ)) (r : ρ) : ℕ := t.count (.acquire r)

/-- How often `r` was released. -/
def released (t : List (Act ρ)) (r : ρ) : ℕ := t.count (.release r)

/-- Everything acquired was released exactly once, and nothing was released before it was acquired
or without it. -/
structure Balanced (t : List (Act ρ)) : Prop where
  settled : ∀ r, released t r = acquired t r
  covered : ∀ t', t' <+: t → ∀ r, released t' r ≤ acquired t' r

/-! ### Replay -/

/-- What is held after an entry. -/
def Act.run (h : Multiset ρ) : Act ρ → Option (Multiset ρ)
  | acquire r => some (r ::ₘ h)
  | release r => if r ∈ h then some (h.erase r) else none

/-- What is held after a ledger. -/
def replay : List (Act ρ) → Multiset ρ → Option (Multiset ρ)
  | [], h => some h
  | a :: t, h => (a.run h).bind (replay t)

variable {t t' : List (Act ρ)} {h h' k : Multiset ρ} {r : ρ}

@[simp] theorem replay_nil : replay [] h = some h := rfl

@[simp] theorem replay_acquire : replay (.acquire r :: t) h = replay t (r ::ₘ h) := rfl

@[simp] theorem replay_release : replay (.release r :: t) (r ::ₘ h) = replay t h := by
  simp [replay, Act.run]

theorem replay_release_of_not_mem (hr : r ∉ h) : replay (.release r :: t) h = none := by
  simp [replay, Act.run, hr]

theorem replay_append : replay (t ++ t') h = (replay t h).bind (replay t') := by
  induction t generalizing h with
  | nil => rfl
  | cons a t ih =>
    rw [List.cons_append, replay, replay, Option.bind_assoc]
    exact congrArg _ (funext fun _ => ih)

theorem replay_concat_acquire (ht : replay t h = some k) :
    replay (t ++ [.acquire r]) h = some (r ::ₘ k) := by
  rw [replay_append, ht]
  rfl

theorem replay_concat_release (ht : replay t h = some (r ::ₘ k)) :
    replay (t ++ [.release r]) h = some k := by
  rw [replay_append, ht, Option.bind_some, replay_release]
  rfl

/-! ### Counting -/

theorem acquired_cons_acquire (q : ρ) :
    acquired (.acquire q :: t) r = acquired t r + if r = q then 1 else 0 := by
  simp [acquired, List.count_cons, @eq_comm _ r q]

theorem acquired_cons_release (q : ρ) : acquired (.release q :: t) r = acquired t r := by
  simp [acquired]

theorem released_cons_acquire (q : ρ) : released (.acquire q :: t) r = released t r := by
  simp [released]

theorem released_cons_release (q : ρ) :
    released (.release q :: t) r = released t r + if r = q then 1 else 0 := by
  simp [released, List.count_cons, @eq_comm _ r q]

theorem forall_prefix_cons {α : Type*} {P : List α → Prop} {a : α} {l : List α} :
    (∀ l', l' <+: a :: l → P l') ↔ P [] ∧ ∀ l', l' <+: l → P (a :: l') := by
  constructor
  · exact fun hP => ⟨hP _ List.nil_prefix, fun l' hl' => hP _ (List.cons_prefix_cons.2 ⟨rfl, hl'⟩)⟩
  · rintro ⟨hnil, hcons⟩ l' hl'
    obtain rfl | ⟨l'', rfl, hl''⟩ := List.prefix_cons_iff.1 hl'
    · exact hnil
    · exact hcons l'' hl''

/-- **Replaying is counting.** What is held in the end is what was held and acquired, less what was
released; and at no point was more released than that. -/
theorem replay_eq_some_iff : replay t h = some h' ↔
    (∀ r, h'.count r + released t r = h.count r + acquired t r) ∧
      ∀ t', t' <+: t → ∀ r, released t' r ≤ h.count r + acquired t' r := by
  induction t generalizing h with
  | nil =>
    rw [replay_nil, Option.some.injEq]
    constructor
    · rintro rfl
      refine ⟨fun r => rfl, fun t' ht' r => ?_⟩
      obtain rfl := List.prefix_nil.1 ht'
      exact Nat.zero_le _
    · exact fun hcount => Multiset.ext.2 fun r => (hcount.1 r).symm
  | cons a t ih =>
    rw [forall_prefix_cons]
    cases a with
    | acquire q =>
      have hnil (r : ρ) : released [] r ≤ h.count r + acquired [] r := Nat.zero_le _
      rw [replay_acquire, ih, and_iff_right hnil]
      simp only [Multiset.count_cons, acquired_cons_acquire, released_cons_acquire]
      refine and_congr (forall_congr' fun r => ?_)
        (forall₂_congr fun t' _ => forall_congr' fun r => ?_)
      all_goals omega
    | release q =>
      by_cases hq : q ∈ h
      · obtain ⟨h, rfl⟩ := Multiset.exists_cons_of_mem hq
        have hnil (r : ρ) : released [] r ≤ (q ::ₘ h).count r + acquired [] r := Nat.zero_le _
        rw [replay_release, ih, and_iff_right hnil]
        simp only [Multiset.count_cons, acquired_cons_release, released_cons_release]
        refine and_congr (forall_congr' fun r => ?_)
          (forall₂_congr fun t' _ => forall_congr' fun r => ?_)
        all_goals omega
      · rw [replay_release_of_not_mem hq]
        refine iff_of_false (fun hnone => by cases hnone) fun hcount => ?_
        -- the first entry already releases what is not held
        have hfirst := hcount.2.2 [] List.nil_prefix q
        rw [released_cons_release, acquired_cons_release, if_pos rfl,
          Multiset.count_eq_zero_of_notMem hq] at hfirst
        simp [acquired, released] at hfirst

/-- **A ledger is balanced** exactly if it leads from nothing held to nothing held. -/
theorem balanced_iff : Balanced t ↔ replay t 0 = some 0 := by
  rw [replay_eq_some_iff]
  simp only [Multiset.count_zero, Nat.zero_add]
  exact ⟨fun hb => ⟨hb.settled, hb.covered⟩, fun hb => ⟨hb.1, hb.2⟩⟩

instance (t : List (Act ρ)) : Decidable (Balanced t) := decidable_of_iff _ balanced_iff.symm

end Resource
