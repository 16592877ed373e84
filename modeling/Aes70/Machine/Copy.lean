import Aes70.Machine.Basic
import Mathlib.Data.List.Induction

/-!
# Copies kept from a log

Someone who does not see a value, only the events of a log, keeps a copy of it: the last value that
an event told. The copy is right as long as every change of the value is told behind it.

* `Log.copy` : the copy after some events.
* `Log.Copies reads l l' v v'` : the events between the logs take a copy of `v` to one of `v'`.
* `Log.copy_of_agree` : events that tell one value, or none.
* `Log.Copies.run` : copies that are right across every step are right across a run.
-/

namespace Log

variable {ε α : Type*} (reads : ε → Option α)

/-- The copy `v` after the events `es`. -/
def copy (v : α) (es : List ε) : α := es.foldl (fun v e => (reads e).getD v) v

/-- `l'` is `l` with events added that take a copy of `v` to one of `v'`. -/
def Copies (l l' : List ε) (v v' : α) : Prop := ∃ es, l' = l ++ es ∧ copy reads v es = v'

variable {reads} {l l' l'' : List ε} {es es' : List ε} {v v' v'' : α}

theorem copy_append : copy reads v (es ++ es') = copy reads (copy reads v es) es' :=
  List.foldl_append

theorem copy_of_silent (h : ∀ e ∈ es, reads e = none) : copy reads v es = v := by
  induction es using List.reverseRecOn with
  | nil => rfl
  | append_singleton es e ih =>
    have hlast : reads e = none := h e (List.mem_append_right _ (List.mem_singleton_self e))
    rw [copy_append, ih fun e' he' => h e' (List.mem_append_left _ he')]
    change (reads e).getD v = v
    rw [hlast]
    rfl

/-- Events that tell `v'` or nothing, one of which tells it. -/
theorem copy_of_agree (h : ∀ e ∈ es, reads e = none ∨ reads e = some v')
    (hmem : ∃ e ∈ es, reads e = some v') : copy reads v es = v' := by
  induction es using List.reverseRecOn with
  | nil =>
    obtain ⟨e, he, -⟩ := hmem
    exact absurd he List.not_mem_nil
  | append_singleton es e ih =>
    rw [copy_append]
    change (reads e).getD (copy reads v es) = v'
    obtain hnone | hsome := h e (List.mem_append_right _ (List.mem_singleton_self e))
    · -- the value was told before
      rw [hnone]
      refine ih (fun e' he' => h e' (List.mem_append_left _ he')) ?_
      obtain ⟨e', he', htold⟩ := hmem
      obtain hbefore | hlast := List.mem_append.1 he'
      · exact ⟨e', hbefore, htold⟩
      · rw [List.mem_singleton.1 hlast, hnone] at htold
        cases htold
    · rw [hsome]
      rfl

namespace Copies

theorem refl (l : List ε) (v : α) : Copies reads l l v v := ⟨[], (List.append_nil l).symm, rfl⟩

theorem trans (h : Copies reads l l' v v') (h' : Copies reads l' l'' v' v'') :
    Copies reads l l'' v v'' := by
  obtain ⟨es, rfl, hes⟩ := h
  obtain ⟨es', rfl, hes'⟩ := h'
  refine ⟨es ++ es', List.append_assoc .., ?_⟩
  rw [copy_append, hes, hes']

/-- Events that tell nothing, where the value stays. -/
theorem of_silent (hlog : l' = l ++ es) (h : ∀ e ∈ es, reads e = none) (hv : v' = v) :
    Copies reads l l' v v' := ⟨es, hlog, by rw [copy_of_silent h, hv]⟩

/-- If the events of every step take a copy of the value before to one of the value behind it, then
so do the events of a run. -/
theorem run {σ ι : Type*} {M : Machine σ ι} {I : σ → Prop} {log : σ → List ε} {value : σ → α}
    {s t : σ} {is : List ι} (h : M.Run s is t) (hs : I s)
    (hkeep : ∀ s i, I s → M.ok s i → I (M.step s i))
    (hstep : ∀ s i, I s → M.ok s i →
      Copies reads (log s) (log (M.step s i)) (value s) (value (M.step s i))) :
    Copies reads (log s) (log t) (value s) (value t) := by
  induction h with
  | nil s => exact refl (log s) (value s)
  | cons hok _ ih => exact (hstep _ _ hs hok).trans (ih (hkeep _ _ hs hok))

end Copies

end Log
