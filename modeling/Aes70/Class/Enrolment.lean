import Aes70.Class.Grouper
import Aes70.Grouping.Basic
import Mathlib.Tactic.IntervalCases

/-!
# The tables of a grouper

A grouper keeps its groups and citizens in two tables of slots and its enrolments in a matrix of
bits. The tables represent a grouping if a bit is set for an enrolment between used slots only; what
a freed slot still holds is not part of it.

* `GrouperPriv.enrolled_setEnroll` : one bit is set, no other.
* `GrouperPriv.Represents` : the tables represent this grouping.
* `GrouperPriv.Represents.addGroup` and the four after it : what the commands store.
-/

namespace Aes70

/-- Groups with their names and the numbers of their proxies, citizens with their numbers. -/
abbrev Groups := Grouping (Fin 16) (Fin 32) (Bytes × UInt32) UInt32

namespace GrouperPriv

/-! ### Enrolment bits -/

theorem bit_eq_getLsbD (b : UInt8) {k : ℕ} (hk : k < 8) :
    ((b >>> UInt8.ofNat k &&& 1) == 1) = b.toBitVec.getLsbD k := by
  have hnat : (b >>> UInt8.ofNat k &&& 1).toNat = b.toNat / 2 ^ k % 2 := by
    have hmod : k % 256 = k := Nat.mod_eq_of_lt (by omega)
    simp [hmod, Nat.mod_eq_of_lt hk, Nat.and_one_is_mod, Nat.shiftRight_eq_div_pow]
  have hbit : b.toBitVec.getLsbD k = decide (b.toNat / 2 ^ k % 2 = 1) :=
    Nat.testBit_eq_decide_div_mod_eq
  rw [hbit, ← hnat, beq_eq_decide]
  exact decide_eq_decide.2 UInt8.toNat_inj.symm

theorem getLsbD_setBit (b : UInt8) {k j : ℕ} (hk : k < 8) (hj : j < 8) (on : Bool) :
    (if on then b ||| 1 <<< UInt8.ofNat k else b &&& ~~~(1 <<< UInt8.ofNat k)).toBitVec.getLsbD j =
      if j = k then on else b.toBitVec.getLsbD j := by
  have hbit : (1 <<< UInt8.ofNat k : UInt8).toBitVec.getLsbD j = decide (j = k) := by
    interval_cases k <;> interval_cases j <;> rfl
  cases on with
  | true =>
    simp only [if_true, UInt8.toBitVec_or, BitVec.getLsbD_or, hbit]
    by_cases hjk : j = k <;> simp [hjk]
  | false =>
    simp only [Bool.false_eq_true, if_false, UInt8.toBitVec_and, UInt8.toBitVec_not,
      BitVec.getLsbD_and, BitVec.getLsbD_not, hbit, hj, decide_true, Bool.true_and]
    by_cases hjk : j = k <;> simp [hjk]

theorem enrolled_eq (g : GrouperPriv) (gi : Fin 16) (ci : Fin 32) :
    g.enrolled gi ci = (g.enroll gi ⟨ci / 8, Nat.div_lt_of_lt_mul ci.isLt⟩).toBitVec.getLsbD (ci % 8) :=
  bit_eq_getLsbD _ (Nat.mod_lt _ (by decide))

/-- **One bit is set**, and no other. -/
theorem enrolled_setEnroll (g : GrouperPriv) (gi gi' : Fin 16) (ci ci' : Fin 32) (on : Bool) :
    (g.setEnroll gi ci on).enrolled gi' ci' =
      if gi' = gi ∧ ci' = ci then on else g.enrolled gi' ci' := by
  rw [enrolled_eq, enrolled_eq]
  unfold setEnroll
  by_cases hg : gi' = gi
  · rw [hg]
    by_cases hk : (ci' : ℕ) / 8 = ci / 8
    · have hbyte : (⟨ci' / 8, by omega⟩ : Fin 4) = ⟨ci / 8, by omega⟩ := Fin.ext hk
      have hbit : (ci' : ℕ) % 8 = ci % 8 ↔ ci' = ci := by
        rw [Fin.ext_iff]
        omega
      rw [hbyte]
      simp only [Function.update_self, true_and]
      rw [getLsbD_setBit _ (Nat.mod_lt _ (by decide)) (Nat.mod_lt _ (by decide)), if_congr hbit rfl rfl]
    · have hbyte : (⟨ci' / 8, by omega⟩ : Fin 4) ≠ ⟨ci / 8, by omega⟩ := fun h =>
        hk (Fin.ext_iff.1 h)
      have hne : ci' ≠ ci := fun h => hk (by rw [h])
      simp [hbyte, hne]
  · simp [hg]

/-- The loop of `DeleteCitizen` clears the bits of one citizen. -/
theorem enrolled_foldl_setEnroll (g : GrouperPriv) (ci : Fin 32) (l : List (Fin 16))
    (gi' : Fin 16) (ci' : Fin 32) :
    (l.foldl (fun g s => g.setEnroll s ci false) g).enrolled gi' ci' =
      (g.enrolled gi' ci' && !(decide (gi' ∈ l) && decide (ci' = ci))) := by
  induction l generalizing g with
  | nil => simp
  | cons s l ih =>
    rw [List.foldl_cons, ih, enrolled_setEnroll]
    by_cases hs : gi' = s
    · by_cases hc : ci' = ci <;> simp [hs, hc]
    · simp [hs]

theorem tables_foldl_setEnroll (g : GrouperPriv) (ci : Fin 32) (l : List (Fin 16)) :
    (l.foldl (fun g s => g.setEnroll s ci false) g).groups = g.groups ∧
      (l.foldl (fun g s => g.setEnroll s ci false) g).citizens = g.citizens ∧
        (l.foldl (fun g s => g.setEnroll s ci false) g).citizenKind = g.citizenKind := by
  induction l generalizing g with
  | nil => exact ⟨rfl, rfl, rfl⟩
  | cons s l ih => exact ih (g.setEnroll s ci false)

theorem citizenKind_deleteCitizen (g : GrouperPriv) (s : Fin 32) :
    (g.deleteCitizen s).citizenKind = g.citizenKind := by
  rw [GrouperPriv.deleteCitizen, (tables_foldl_setEnroll _ s (List.finRange 16)).2.2]

/-! ### The grouping of the tables -/

/-- The tables represent the grouping. Citizens in use are online. -/
structure Represents (g : GrouperPriv) (γ : Groups) : Prop where
  groups : ∀ s, γ.groups s =
    if (g.groups s).used then some ((g.groups s).name, (g.groups s).proxyOno) else none
  citizens : ∀ s, γ.citizens s = if (g.citizens s).used then some (g.citizens s).ono else none
  enrolled : ∀ s c, γ.enrolled s c = g.enrolled s c
  online : ∀ c, (g.citizens c).used = true → (g.citizens c).online = true

namespace Represents

theorem init (k : Kind) (hk : k ∈ [Kind.gain, .mute, .boolean]) :
    (GrouperPriv.init k hk).Represents .empty :=
  ⟨fun _ => rfl, fun _ => rfl, fun s c => by rw [enrolled_eq]; simp [GrouperPriv.init, Grouping.empty],
    fun _ h => by cases h⟩

variable {g : GrouperPriv} {γ : Groups} (h : g.Represents γ)
include h

theorem group_isSome (s : Fin 16) : (γ.groups s).isSome = (g.groups s).used := by
  rw [h.groups]
  cases (g.groups s).used <;> rfl

theorem citizen_isSome (s : Fin 32) : (γ.citizens s).isSome = (g.citizens s).used := by
  rw [h.citizens]
  cases (g.citizens s).used <;> rfl

theorem group_isNone (s : Fin 16) : (γ.groups s).isNone = !(g.groups s).used := by
  rw [← h.group_isSome, Option.not_isSome]

theorem citizen_isNone (s : Fin 32) : (γ.citizens s).isNone = !(g.citizens s).used := by
  rw [← h.citizen_isSome, Option.not_isSome]

theorem addGroup (s : Fin 16) {name : Bytes} (hname : name.length < 40) (ono : UInt32) :
    (g.addGroup s name ono).Represents (γ.setGroup s (some (name, ono))) := by
  refine ⟨?_, h.citizens, ?_, h.online⟩
  · intro s'
    by_cases hs : s' = s
    · have hcut : strlcpy 40 name = name := List.take_of_length_le (by omega)
      simp [hs, GrouperPriv.addGroup, Grouping.setGroup, hcut]
    · simpa [hs, GrouperPriv.addGroup, Grouping.setGroup] using h.groups s'
  · intro s' c
    rw [enrolled_eq]
    by_cases hs : s' = s
    · simp [hs, GrouperPriv.addGroup, Grouping.setGroup]
    · have hold := h.enrolled s' c
      rw [enrolled_eq] at hold
      simpa [hs, GrouperPriv.addGroup, Grouping.setGroup] using hold

theorem deleteGroup (s : Fin 16) : (g.deleteGroup s).Represents (γ.setGroup s none) := by
  refine ⟨?_, h.citizens, ?_, h.online⟩
  · intro s'
    by_cases hs : s' = s
    · simp [hs, GrouperPriv.deleteGroup, Grouping.setGroup]
    · simpa [hs, GrouperPriv.deleteGroup, Grouping.setGroup] using h.groups s'
  · intro s' c
    rw [enrolled_eq]
    by_cases hs : s' = s
    · simp [hs, GrouperPriv.deleteGroup, Grouping.setGroup]
    · have hold := h.enrolled s' c
      rw [enrolled_eq] at hold
      simpa [hs, GrouperPriv.deleteGroup, Grouping.setGroup] using hold

/-- A slot that is not in use has no bits, so a citizen added there is in no group. -/
theorem addCitizen {s : Fin 32} (hs : (g.citizens s).used = false) (ono : UInt32) :
    (g.addCitizen s ono).Represents (γ.setCitizen s (some ono)) := by
  have hnone : γ.citizens s = none := by rw [h.citizens, hs]; rfl
  refine ⟨h.groups, ?_, ?_, ?_⟩
  · intro s'
    by_cases hs' : s' = s
    · simp [hs', GrouperPriv.addCitizen, Grouping.setCitizen]
    · simpa [hs', GrouperPriv.addCitizen, Grouping.setCitizen] using h.citizens s'
  · intro s' c
    have hold := h.enrolled s' c
    change (decide (c ≠ s) && γ.enrolled s' c) = g.enrolled s' c
    rw [← hold]
    by_cases hc : c = s
    · simp [hc, Grouping.enrolled_of_no_citizen hnone s']
    · simp [hc]
  · intro c hc
    by_cases hs' : c = s
    · simp [hs', GrouperPriv.addCitizen]
    · simp only [GrouperPriv.addCitizen, Function.update_of_ne hs'] at hc ⊢
      exact h.online c hc

theorem deleteCitizen (s : Fin 32) : (g.deleteCitizen s).Represents (γ.setCitizen s none) := by
  let g' : GrouperPriv :=
    { g with citizens := Function.update g.citizens s { g.citizens s with used := false } }
  obtain ⟨hgroups, hcitizens, -⟩ := tables_foldl_setEnroll g' s (List.finRange 16)
  refine ⟨?_, ?_, ?_, ?_⟩
  · intro s'
    have hold := h.groups s'
    rw [show (g.deleteCitizen s).groups = g.groups from hgroups]
    exact hold
  · intro s'
    rw [show (g.deleteCitizen s).citizens = g'.citizens from hcitizens]
    by_cases hs : s' = s
    · simp [hs, g', Grouping.setCitizen]
    · simpa [hs, g', Grouping.setCitizen] using h.citizens s'
  · intro s' c
    have hbits := enrolled_foldl_setEnroll g' s (List.finRange 16) s' c
    rw [show (g.deleteCitizen s).enrolled s' c = _ from hbits]
    change (decide (c ≠ s) && γ.enrolled s' c) = (g.enrolled s' c && _)
    rw [h.enrolled]
    by_cases hc : c = s <;> simp [hc]
  · intro c hc
    rw [show (g.deleteCitizen s).citizens = g'.citizens from hcitizens] at hc ⊢
    by_cases hs : c = s
    · simp [hs, g'] at hc
    · simp only [g', Function.update_of_ne hs] at hc ⊢
      exact h.online c hc

theorem setEnroll {s : Fin 16} {c : Fin 32} (hs : (g.groups s).used = true)
    (hc : (g.citizens c).used = true) (on : Bool) :
    (g.setEnroll s c on).Represents (γ.setEnrolled s c on) := by
  have hgroup : (γ.groups s).isSome = true := (h.group_isSome s).trans hs
  have hcitizen : (γ.citizens c).isSome = true := (h.citizen_isSome c).trans hc
  obtain ⟨hgroups, hcitizens, henrolled⟩ := Grouping.setEnrolled_of_some hgroup hcitizen on
  refine ⟨?_, ?_, ?_, h.online⟩
  · intro s'
    rw [hgroups]
    exact h.groups s'
  · intro s'
    rw [hcitizens]
    exact h.citizens s'
  · intro s' c'
    rw [henrolled, enrolled_setEnroll]
    exact if_congr Iff.rfl rfl (h.enrolled s' c')

/-- Nothing else of the private state matters. -/
theorem congr {g' : GrouperPriv} (hg : g'.groups = g.groups) (hc : g'.citizens = g.citizens)
    (he : g'.enroll = g.enroll) : g'.Represents γ := by
  refine ⟨?_, ?_, ?_, ?_⟩
  · intro s
    rw [hg]
    exact h.groups s
  · intro s
    rw [hc]
    exact h.citizens s
  · intro s c
    rw [h.enrolled, enrolled_eq, enrolled_eq, he]
  · intro c hc'
    rw [hc] at hc' ⊢
    exact h.online c hc'

end Represents

end GrouperPriv

end Aes70
