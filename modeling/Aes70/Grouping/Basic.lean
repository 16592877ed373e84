import Mathlib.Data.List.FinRange
import Mathlib.Logic.Function.Basic

/-!
# Groups, citizens and who is enrolled where

A grouping is a partial map of groups, a partial map of citizens, and a relation between the two
that holds of groups and citizens that exist only.

* `Grouping.setGroup`, `Grouping.setCitizen` : put one there, or take it away; nobody is enrolled
  there afterwards.
* `Grouping.setEnrolled` : enrol one citizen in one group, or end it.
* `Grouping.enrolled_of_no_citizen` : a citizen that does not exist is enrolled nowhere.
-/

/-- Groups with data `A` at the places `G`, citizens with data `B` at the places `C`. -/
@[ext]
structure Grouping (G C A B : Type*) where
  groups : G → Option A
  citizens : C → Option B
  enrolled : G → C → Bool
  /-- The groups and citizens of the relation exist. -/
  sound : ∀ g c, enrolled g c = true → (groups g).isSome = true ∧ (citizens c).isSome = true

namespace Grouping

variable {G C A B : Type*}

section Sound

variable {γ : Grouping G C A B} {g : G} {c : C}

theorem enrolled_of_no_citizen (h : γ.citizens c = none) (g : G) : γ.enrolled g c = false :=
  Bool.eq_false_iff.2 fun he => by
    have hsome := (γ.sound g c he).2
    rw [h] at hsome
    cases hsome

end Sound

/-- No groups and no citizens. -/
def empty : Grouping G C A B := ⟨fun _ => none, fun _ => none, fun _ _ => false, nofun⟩

section Groups

variable [DecidableEq G]

/-- The group at `g` is `a` from now on, without citizens. -/
def setGroup (γ : Grouping G C A B) (g : G) (a : Option A) : Grouping G C A B where
  groups := Function.update γ.groups g a
  citizens := γ.citizens
  enrolled g' c := decide (g' ≠ g) && γ.enrolled g' c
  sound g' c h := by
    obtain ⟨hne, he⟩ := Bool.and_eq_true_iff.1 h
    rw [Function.update_of_ne (of_decide_eq_true hne)]
    exact γ.sound g' c he

theorem enrolled_setGroup_self (γ : Grouping G C A B) (g : G) (a : Option A) (c : C) :
    (γ.setGroup g a).enrolled g c = false := by simp [setGroup]

end Groups

section Citizens

variable [DecidableEq C]

/-- The citizen at `c` is `b` from now on, in no group. -/
def setCitizen (γ : Grouping G C A B) (c : C) (b : Option B) : Grouping G C A B where
  groups := γ.groups
  citizens := Function.update γ.citizens c b
  enrolled g c' := decide (c' ≠ c) && γ.enrolled g c'
  sound g c' h := by
    obtain ⟨hne, he⟩ := Bool.and_eq_true_iff.1 h
    rw [Function.update_of_ne (of_decide_eq_true hne)]
    exact γ.sound g c' he

theorem enrolled_setCitizen_self (γ : Grouping G C A B) (c : C) (b : Option B) (g : G) :
    (γ.setCitizen c b).enrolled g c = false := by simp [setCitizen]

end Citizens

section Enrolments

variable [DecidableEq G] [DecidableEq C] {γ : Grouping G C A B} {g : G} {c : C}

/-- The citizen at `c` is in the group at `g` from now on, or not, if there are such. -/
def setEnrolled (γ : Grouping G C A B) (g : G) (c : C) (on : Bool) : Grouping G C A B :=
  if h : (γ.groups g).isSome = true ∧ (γ.citizens c).isSome = true then
    { γ with
      enrolled := fun g' c' => if g' = g ∧ c' = c then on else γ.enrolled g' c'
      sound := fun g' c' he => by
        split at he
        next heq => exact heq.1 ▸ heq.2 ▸ h
        · exact γ.sound g' c' he }
  else γ

theorem setEnrolled_of_some (hg : (γ.groups g).isSome = true) (hc : (γ.citizens c).isSome = true)
    (on : Bool) : (γ.setEnrolled g c on).groups = γ.groups ∧
      (γ.setEnrolled g c on).citizens = γ.citizens ∧
        (γ.setEnrolled g c on).enrolled =
          fun g' c' => if g' = g ∧ c' = c then on else γ.enrolled g' c' := by
  simp [setEnrolled, hg, hc]

end Enrolments

end Grouping
