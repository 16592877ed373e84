import Mathlib.Logic.Relation

/-!
# Deterministic machines driven by an environment

A machine has initial states, a total step function on states and inputs, and a predicate that
says which inputs the environment may offer in a state.

* `Machine.Reach` : the states reached by admissible inputs.
* `Machine.Reach.invariant` : an inductive invariant holds in every reachable state.
* `Machine.Run s l t` : the admissible input list `l` leads from `s` to `t`.
* `Machine.Run.invariant` : an inductive invariant of one state holds in every later one.
* `Machine.Run.rel` : a preorder that every step respects relates the two ends of a run.
* `Machine.restrict` : the machine in an environment that offers less.
* `Machine.Run.along_iff` : what every step of a run has to meet for every state to be good.
-/

/-- A machine with states `σ` and inputs `ι`. -/
structure Machine (σ ι : Type*) where
  /-- The states a run may start in. -/
  init : σ → Prop
  /-- The inputs the environment may offer in a state. -/
  ok : σ → ι → Prop
  /-- The effect of an input. -/
  step : σ → ι → σ

namespace Machine

variable {σ ι : Type*} (M : Machine σ ι)

/-- The states reached from an initial one by admissible inputs. -/
inductive Reach : σ → Prop
  | init {s : σ} : M.init s → Reach s
  | step {s : σ} {i : ι} : Reach s → M.ok s i → Reach (M.step s i)

/-- `Run s l t`: the inputs `l`, admissible one after the other, lead from `s` to `t`. -/
inductive Run : σ → List ι → σ → Prop
  | nil (s : σ) : Run s [] s
  | cons {s t : σ} {i : ι} {l : List ι} : M.ok s i → Run (M.step s i) l t → Run s (i :: l) t

variable {M}

/-- Reachable states satisfy every predicate that holds initially and is preserved by every
admissible step. -/
theorem Reach.invariant {I : σ → Prop} {s : σ} (h : M.Reach s) (h₀ : ∀ s, M.init s → I s)
    (hstep : ∀ s i, M.Reach s → I s → M.ok s i → I (M.step s i)) : I s := by
  induction h with
  | init h => exact h₀ _ h
  | step hr hok ih => exact hstep _ _ hr ih hok

/-- A predicate that every admissible step preserves is carried along a run. -/
theorem Run.invariant {I : σ → Prop} {s t : σ} {l : List ι} (h : M.Run s l t) (hs : I s)
    (hstep : ∀ s i, I s → M.ok s i → I (M.step s i)) : I t := by
  induction h with
  | nil => exact hs
  | cons hok _ ih => exact ih (hstep _ _ hs hok)

theorem Reach.run {s t : σ} {l : List ι} (h : M.Reach s) (hr : M.Run s l t) : M.Reach t := by
  induction hr with
  | nil => exact h
  | cons hok _ ih => exact ih (h.step hok)

theorem Run.append {s t u : σ} {l l' : List ι} (h : M.Run s l t) (h' : M.Run t l' u) :
    M.Run s (l ++ l') u := by
  induction h with
  | nil => exact h'
  | cons hok _ ih => exact .cons hok (ih h')

/-- A preorder that every step from a reachable state respects relates the ends of a run. -/
theorem Run.rel {R : σ → σ → Prop} (hrefl : ∀ s, R s s)
    (htrans : ∀ s t u, R s t → R t u → R s u)
    {s t : σ} {l : List ι} (h : M.Run s l t) (hs : M.Reach s)
    (hstep : ∀ s i, M.Reach s → M.ok s i → R s (M.step s i)) : R s t := by
  induction h with
  | nil => exact hrefl _
  | cons hok _ ih => exact htrans _ _ _ (hstep _ _ hs hok) (ih (hs.step hok))

/-- The machine in an environment that offers only inputs satisfying `C`. -/
def restrict (M : Machine σ ι) (C : σ → ι → Prop) : Machine σ ι where
  init := M.init
  ok s i := M.ok s i ∧ C s i
  step := M.step

theorem Reach.of_restrict {C : σ → ι → Prop} {s : σ} (h : (M.restrict C).Reach s) : M.Reach s := by
  induction h with
  | init h => exact .init h
  | step _ hok ih => exact ih.step hok.1

theorem Run.of_restrict {C : σ → ι → Prop} {s t : σ} {l : List ι} (h : (M.restrict C).Run s l t) :
    M.Run s l t := by
  induction h with
  | nil s => exact .nil s
  | cons hok _ ih => exact .cons hok.1 ih

theorem Reach.restrict_mono {C C' : σ → ι → Prop} (hC : ∀ s i, C s i → C' s i) {s : σ}
    (h : (M.restrict C).Reach s) : (M.restrict C').Reach s := by
  induction h with
  | init h => exact .init h
  | step _ hok ih => exact ih.step ⟨hok.1, hC _ _ hok.2⟩

/-- Every state that the inputs lead through satisfies `P`, and every step `Q`. -/
def Along (M : Machine σ ι) (P : σ → Prop) (Q : σ → ι → Prop) : σ → List ι → Prop
  | s, [] => P s
  | s, i :: l => P s ∧ Q s i ∧ M.Along P Q (M.step s i) l

theorem Along.head {P : σ → Prop} {Q : σ → ι → Prop} {s : σ} {l : List ι} (h : M.Along P Q s l) :
    P s := by
  cases l with
  | nil => exact h
  | cons i l => exact h.1

/-- If a step from a good state is good exactly if it meets `C`, then a run from a good state is
good exactly if all its steps meet `C`. -/
theorem Run.along_iff {I P : σ → Prop} {Q C : σ → ι → Prop} {s t : σ} {l : List ι}
    (h : M.Run s l t) (hI : I s) (hs : P s) (hkeep : ∀ s i, I s → M.ok s i → I (M.step s i))
    (hstep : ∀ s i, I s → P s → M.ok s i → (P (M.step s i) ∧ Q s i ↔ C s i)) :
    M.Along P Q s l ↔ (M.restrict C).Run s l t := by
  induction h with
  | nil => exact iff_of_true hs (.nil _)
  | @cons s t i l hok hrun ih =>
    have hone := hstep s i hI hs hok
    constructor
    · rintro ⟨-, hq, hrest⟩
      exact .cons ⟨hok, hone.1 ⟨hrest.head, hq⟩⟩ ((ih (hkeep s i hI hok) hrest.head).1 hrest)
    · intro hmeets
      cases hmeets with
      | cons hmeet hrest =>
        obtain ⟨hp, hq⟩ := hone.2 hmeet.2
        exact ⟨hs, hq, (ih (hkeep s i hI hok) hp).2 hrest⟩

end Machine
