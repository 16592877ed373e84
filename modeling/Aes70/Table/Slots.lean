import Mathlib.Data.List.Nodup
import Mathlib.Data.Set.Insert

/-!
# Slot tables

A table of slots, each free or in use. The entries in use have keys, and the table stands for the
set of these keys.

* `Slots.keys` : that set.
* `Slots.Distinct` : no key is held by two slots.
* `Slots.keys_update`, `Slots.keys_free` : filling a free slot inserts a key, freeing slots removes
  keys.
* `Slots.Distinct.nodup_map` : a walk over a table without duplicates meets each key once.
* `Slots.Step` : a step of a table; `Slots.Step.kept`, `Slots.Step.distinct` : what it keeps.
-/

namespace Slots

variable {ι α κ : Type*} (used : α → Bool) (key : α → κ)

/-- The keys of the slots in use. -/
def keys (t : ι → α) : Set κ := {q | ∃ k, used (t k) = true ∧ key (t k) = q}

/-- No key is held by two slots. -/
def Distinct (t : ι → α) : Prop :=
  ∀ k k', used (t k) = true → used (t k') = true → key (t k) = key (t k') → k = k'

variable {used key} {t : ι → α}

theorem mem_keys {k : ι} (h : used (t k) = true) : key (t k) ∈ keys used key t := ⟨k, h, rfl⟩

section Update

variable [DecidableEq ι] {k : ι} {s : α}

theorem keys_update (hfree : used (t k) = false) (hs : used s = true) :
    keys used key (Function.update t k s) = insert (key s) (keys used key t) := by
  ext q
  constructor
  · rintro ⟨k', hk', rfl⟩
    by_cases h : k' = k
    · subst h
      simp
    · rw [Function.update_of_ne h] at hk' ⊢
      exact .inr (mem_keys hk')
  · rintro (rfl | ⟨k', hk', rfl⟩)
    · exact ⟨k, by simpa using hs, by simp⟩
    · have h : k' ≠ k := by
        rintro rfl
        simp [hfree] at hk'
      exact ⟨k', by rwa [Function.update_of_ne h], by rw [Function.update_of_ne h]⟩

theorem Distinct.update (h : Distinct used key t) (hnew : key s ∉ keys used key t) :
    Distinct used key (Function.update t k s) := by
  intro a b ha hb hab
  by_cases hak : a = k <;> by_cases hbk : b = k
  · rw [hak, hbk]
  · subst hak
    rw [Function.update_self, Function.update_of_ne hbk] at hab
    rw [Function.update_of_ne hbk] at hb
    exact absurd (hab ▸ mem_keys hb) hnew
  · subst hbk
    rw [Function.update_self, Function.update_of_ne hak] at hab
    rw [Function.update_of_ne hak] at ha
    exact absurd (hab ▸ mem_keys ha) hnew
  · rw [Function.update_of_ne hak] at ha hab
    rw [Function.update_of_ne hbk] at hb hab
    exact h a b ha hb hab

end Update

/-- Free the slots that `p` selects; `clear` is what is stored into them. -/
def free (clear : α → α) (p : α → Bool) (t : ι → α) : ι → α :=
  fun k => if p (t k) then clear (t k) else t k

section Free

variable {clear : α → α} {p : α → Bool}

theorem free_of_pos {k : ι} (h : p (t k) = true) : free clear p t k = clear (t k) := if_pos h

theorem free_of_neg {k : ι} (h : ¬p (t k) = true) : free clear p t k = t k := if_neg h

variable (hclear : ∀ a, used (clear a) = false)
include hclear

/-- A slot still in use is one that was not selected. -/
theorem of_used_free {k : ι} (h : used (free clear p t k) = true) : ¬p (t k) = true := by
  intro hp
  rw [free_of_pos hp, hclear] at h
  cases h

theorem keys_free {P : κ → Prop} (hp : ∀ a, used a = true → (p a = true ↔ P (key a))) :
    keys used key (free clear p t) = {q ∈ keys used key t | ¬P q} := by
  ext q
  constructor
  · rintro ⟨k, hk, rfl⟩
    have hno := of_used_free hclear hk
    rw [free_of_neg hno] at hk ⊢
    exact ⟨mem_keys hk, fun hP => hno ((hp _ hk).2 hP)⟩
  · rintro ⟨⟨k, hk, rfl⟩, hP⟩
    have hno : ¬p (t k) = true := fun h => hP ((hp _ hk).1 h)
    exact ⟨k, by rwa [free_of_neg hno], by rw [free_of_neg hno]⟩

theorem Distinct.free (h : Distinct used key t) :
    Distinct used key (Slots.free clear p t) := by
  intro a b ha hb hab
  have hna := of_used_free hclear ha
  have hnb := of_used_free hclear hb
  rw [free_of_neg hna] at ha hab
  rw [free_of_neg hnb] at hb hab
  exact h a b ha hb hab

end Free

/-- A walk over the slots that `p` selects gives different values for different keys. -/
theorem Distinct.nodup_map {β : Type*} (h : Distinct used key t) {l : List ι} (hl : l.Nodup)
    {p : α → Bool} (hp : ∀ a, p a = true → used a = true) {f : α → β}
    (hf : ∀ a b, p a = true → p b = true → f a = f b → key a = key b) :
    ((l.filter fun k => p (t k)).map fun k => f (t k)).Nodup := by
  refine List.Nodup.map_on (fun a ha b hb hab => ?_) (hl.filter _)
  have hpa := (List.mem_filter.1 ha).2
  have hpb := (List.mem_filter.1 hb).2
  exact h a b (hp _ hpa) (hp _ hpb) (hf _ _ hpa hpb hab)

/-! ### Steps -/

/-- A step of a table: a free slot gets an entry with a new key, or some slots are freed. -/
inductive Step (used : α → Bool) (key : α → κ) [DecidableEq ι] (t : ι → α) : (ι → α) → Prop
  | fill {k : ι} {s : α} (hfree : used (t k) = false) (hnew : key s ∉ keys used key t) :
    Step used key t (Function.update t k s)
  | drop {t' : ι → α} (h : ∀ k, t' k = t k ∨ used (t' k) = false) : Step used key t t'

namespace Step

variable [DecidableEq ι] {t' : ι → α}

theorem refl (t : ι → α) : Step used key t t := drop fun _ => .inl rfl

/-- A slot in use before and after holds the same entry. -/
theorem kept (h : Step used key t t') {k : ι} (hk : used (t k) = true) (hk' : used (t' k) = true) :
    t' k = t k := by
  cases h with
  | @fill k₀ s hfree hnew =>
    by_cases heq : k = k₀
    · subst heq
      rw [hfree] at hk
      cases hk
    · exact Function.update_of_ne heq _ _
  | drop h =>
    rcases h k with hsame | hdropped
    · exact hsame
    · rw [hdropped] at hk'
      cases hk'

theorem distinct (h : Step used key t t') (hd : Distinct used key t) : Distinct used key t' := by
  cases h with
  | fill hfree hnew => exact hd.update hnew
  | drop h =>
    have hold {k : ι} (hk : used (t' k) = true) : t' k = t k := by
      rcases h k with hsame | hdropped
      · exact hsame
      · rw [hdropped] at hk
        cases hk
    intro a b ha hb hab
    have hsameA := hold ha
    have hsameB := hold hb
    rw [hsameA] at ha hab
    rw [hsameB] at hb hab
    exact hd a b ha hb hab

end Step

end Slots
