import Mathlib.Data.List.Chain
import Mathlib.Logic.Relation

/-!
# Lineages

In a forest every node has one parent at most. Its lineage is the node, its parent, the parent of
that, and so on up to a node without a parent.

* `Lineage` : the lineage of a node; `Lineage.unique`, `exists_lineage` : there is one, where a root
  is reached.
* `climb` : the walk up the lineage, cut after a number of nodes.
* `Lineage.climb_eq` : it visits the first nodes of the lineage.
* `lineage_iff` : the lineages up to a root are the chains of parents that end there.
-/

namespace Forest

variable {α : Type*} (parent : α → Option α)

/-- The nodes from `a` up to a node without a parent. -/
inductive Lineage : α → List α → Prop
  | root {a : α} (h : parent a = none) : Lineage a [a]
  | child {a b : α} {l : List α} (h : parent a = some b) (hl : Lineage b l) : Lineage a (a :: l)

/-- The walk from a node to its parents, at most `n` nodes. -/
def climb : (n : ℕ) → α → List α
  | 0, _ => []
  | n + 1, a => a :: ((parent a).map (climb n)).getD []

variable {parent} {a r : α} {l l' : List α}

namespace Lineage

theorem unique (h : Lineage parent a l) (h' : Lineage parent a l') : l = l' := by
  induction h generalizing l' with
  | root hroot =>
    cases h' with
    | root => rfl
    | child hchild => cases hroot.symm.trans hchild
  | child hchild _ ih =>
    cases h' with
    | root hroot => cases hroot.symm.trans hchild
    | child hchild' hl' =>
      obtain rfl := Option.some.inj (hchild.symm.trans hchild')
      rw [ih hl']

/-- **A walk that is cut** visits the first nodes of the lineage. -/
theorem climb_eq (h : Lineage parent a l) (n : ℕ) : climb parent n a = l.take n := by
  induction h generalizing n with
  | root hroot =>
    cases n with
    | zero => rfl
    | succ n =>
      rw [climb, hroot]
      simp
  | child hchild _ ih =>
    cases n with
    | zero => rfl
    | succ n =>
      rw [climb, hchild, List.take_succ_cons, ← ih]
      rfl

end Lineage

/-- A node from which a root is reached has a lineage, which ends there. -/
theorem exists_lineage (hr : parent r = none)
    (h : Relation.ReflTransGen (fun a b => parent a = some b) a r) :
    ∃ l, Lineage parent a l ∧ l.getLast? = some r := by
  induction h using Relation.ReflTransGen.head_induction_on with
  | refl => exact ⟨[r], .root hr, rfl⟩
  | head hab _ ih =>
    obtain ⟨l, hl, hlast⟩ := ih
    refine ⟨_ :: l, .child hab hl, ?_⟩
    rw [List.getLast?_cons, hlast]
    rfl

/-- **The lineages up to a root** are the chains of parents that end there. -/
theorem lineage_iff (hr : parent r = none) : (Lineage parent a l ∧ l.getLast? = some r) ↔
    l.head? = some a ∧ l.getLast? = some r ∧ l.IsChain fun a b => parent a = some b := by
  induction l generalizing a with
  | nil => simp
  | cons c l ih =>
    cases l with
    | nil =>
      constructor
      · rintro ⟨hl, hlast⟩
        cases hl with
        | root => exact ⟨rfl, hlast, List.isChain_singleton _⟩
        | child _ hnil => cases hnil
      · rintro ⟨hhead, hlast, -⟩
        obtain rfl : c = a := by simpa using hhead
        obtain rfl : c = r := by simpa using hlast
        exact ⟨.root hr, rfl⟩
    | cons b l =>
      rw [List.getLast?_cons_cons, List.isChain_cons_cons]
      constructor
      · rintro ⟨hl, hlast⟩
        cases hl with
        | child hchild hl =>
          obtain ⟨hhead, -, hchain⟩ := ih.1 ⟨hl, hlast⟩
          obtain rfl := Option.some.inj hhead
          exact ⟨rfl, hlast, hchild, hchain⟩
      · rintro ⟨hhead, hlast, hchild, hchain⟩
        obtain rfl : c = a := by simpa using hhead
        exact ⟨.child hchild (ih.2 ⟨rfl, hlast, hchain⟩).1, hlast⟩

end Forest
