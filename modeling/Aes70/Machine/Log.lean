import Mathlib.Data.List.Induction
import Mathlib.Tactic.Common

/-!
# Logs that grow

A log is a list of events, the oldest first. What a log stands for is a fold over it; what is true
of every event in view of the events before it is kept when the log grows by events it is true of.

* `Log.Always P l` : `P` holds of every event of the log and the events before it.
* `Log.always_append` : of a longer log, if it holds of the events added.
* `Log.foldl_of_silent` : events that a fold ignores.
* `Log.Grows P l l'` : the longer log adds events that satisfy `P` only.
-/

namespace Log

variable {ε : Type*} {P : List ε → ε → Prop}

/-- `P` holds of every event and the log before it. -/
def Always (P : List ε → ε → Prop) (l : List ε) : Prop :=
  ∀ pre e post, l = pre ++ e :: post → P pre e

theorem always_nil : Always P [] := fun pre e post h => by simp at h

theorem always_concat {l : List ε} {e : ε} (h : Always P l) (he : P l e) : Always P (l ++ [e]) := by
  intro pre e' post heq
  cases post using List.reverseRecOn with
  | nil =>
    obtain ⟨rfl, hlast⟩ := List.append_inj' heq rfl
    obtain rfl := (List.cons.inj hlast).1
    exact he
  | append_singleton post e'' =>
    rw [← List.cons_append, ← List.append_assoc] at heq
    exact h pre e' post (List.append_inj' heq rfl).1

/-- The log may grow by events `P` holds of wherever they stand behind it. -/
theorem always_append {l es : List ε} (h : Always P l)
    (hes : ∀ pre e post, es = pre ++ e :: post → P (l ++ pre) e) : Always P (l ++ es) := by
  induction es using List.reverseRecOn with
  | nil => rwa [List.append_nil]
  | append_singleton es e ih =>
    rw [← List.append_assoc]
    refine always_concat (ih fun pre e' post heq => ?_) (hes es e [] rfl)
    exact hes pre e' (post ++ [e]) (by rw [heq, List.append_assoc, List.cons_append])

/-- Events that a fold ignores leave its result alone. -/
theorem foldl_of_silent {α : Type*} {f : α → ε → α} {es : List ε}
    (h : ∀ e ∈ es, ∀ a, f a e = a) (a : α) : es.foldl f a = a :=
  List.foldlRecOn (motive := fun b => b = a) _ _ rfl fun b ih e he => (h e he b).trans ih

/-! ### Growth by events of a kind -/

section Grows

variable {Q : ε → Prop} {l l' l'' : List ε}

/-- `l'` is `l` with events added that satisfy `Q`. -/
def Grows (Q : ε → Prop) (l l' : List ε) : Prop := ∃ es, l' = l ++ es ∧ ∀ e ∈ es, Q e

namespace Grows

@[refl] theorem refl (l : List ε) : Grows Q l l := ⟨[], by simp⟩

theorem trans (h : Grows Q l l') (h' : Grows Q l' l'') : Grows Q l l'' := by
  obtain ⟨es, rfl, hes⟩ := h
  obtain ⟨es', rfl, hes'⟩ := h'
  refine ⟨es ++ es', List.append_assoc .., fun e he => ?_⟩
  exact (List.mem_append.1 he).elim (hes e) (hes' e)

theorem concat {e : ε} (he : Q e) (l : List ε) : Grows Q l (l ++ [e]) :=
  ⟨[e], rfl, fun _ h => List.mem_singleton.1 h ▸ he⟩

theorem mono {Q' : ε → Prop} (h : Grows Q l l') (hQ : ∀ e, Q e → Q' e) : Grows Q' l l' := by
  obtain ⟨es, he, hes⟩ := h
  exact ⟨es, he, fun e hmem => hQ e (hes e hmem)⟩

/-- A longer log whose events all satisfy `Q`. -/
theorem forall_mem (h : Grows Q l l') (hl : ∀ e ∈ l, Q e) : ∀ e ∈ l', Q e := by
  obtain ⟨es, rfl, hes⟩ := h
  exact fun e he => (List.mem_append.1 he).elim (hl e) (hes e)

end Grows

end Grows

end Log
