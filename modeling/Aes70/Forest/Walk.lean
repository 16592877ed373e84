import Mathlib.Data.List.Nodup
import Mathlib.Logic.Relation

/-!
# Walks through a forest

A forest is given by the list of the children of each node. The recursive walk visits the children
of a node, and the children of each child after it.

* `Walk` : the walk as a recursion without a bound; it has a result when it ends.
* `descend` : the walk cut at a depth.
* `walk_descend` : in a forest of bounded height the walk ends, and the cut one is the same.
* `IsForest` : every node has one parent at most, and no parent has a child twice.
* `Walk.mem_iff`, `IsForest.nodup_walk` : the walk visits the descendants, each once.
* `gather` : a recursion that combines something of each node it visits; `gather_eq` computes it.
-/

namespace Forest

variable {α : Type*} (children : α → List α)

/-- `c` is a child of `b`. -/
abbrev Child (b c : α) : Prop := c ∈ children b

/-- The loop over the children `cs` of `b`, which recurses into each of them, ends and has visited
`l`: the children with their parents. -/
inductive Walk : α → List α → List (α × α) → Prop
  | nil (b : α) : Walk b [] []
  | cons {b c : α} {cs : List α} {l l' : List (α × α)} (hin : Walk c (children c) l)
    (hrest : Walk b cs l') : Walk b (c :: cs) ((b, c) :: (l ++ l'))

/-- The walk, cut at a depth. -/
def descend : (depth : ℕ) → α → List (α × α)
  | 0, _ => []
  | depth + 1, b => (children b).flatMap fun c => (b, c) :: descend depth c

variable {children}

/-- A walk has one result only. -/
theorem Walk.unique {b : α} {cs : List α} {l l' : List (α × α)} (h : Walk children b cs l)
    (h' : Walk children b cs l') : l = l' := by
  induction h generalizing l' with
  | nil b =>
    cases h'
    rfl
  | cons hin hrest ihin ihrest =>
    cases h' with
    | cons hin' hrest' => rw [ihin hin', ihrest hrest']

/-- The loop over some children, when the recursion into each of them ends. -/
theorem walk_flatMap {f : α → List (α × α)} (b : α) {cs : List α}
    (h : ∀ c ∈ cs, Walk children c (children c) (f c)) :
    Walk children b cs (cs.flatMap fun c => (b, c) :: f c) := by
  induction cs with
  | nil => exact .nil b
  | cons c cs ih =>
    obtain ⟨hc, hcs⟩ := List.forall_mem_cons.1 h
    exact .cons hc (ih hcs)

/-- **The walk ends** where the height decreases from parents to children, and does what the walk
does that is cut at this height. -/
theorem walk_descend {height : α → ℕ} (hheight : ∀ b c, c ∈ children b → height c < height b)
    {depth : ℕ} {b : α} (h : height b ≤ depth) :
    Walk children b (children b) (descend children depth b) := by
  induction depth generalizing b with
  | zero =>
    have hleaf : children b = [] := List.eq_nil_iff_forall_not_mem.2 fun c hc =>
      absurd (hheight b c hc) (by omega)
    rw [hleaf]
    exact .nil b
  | succ depth ih =>
    refine walk_flatMap b fun c hc => ih ?_
    have := hheight b c hc
    omega

/-! ### What is visited -/

/-- The pairs visited are parents with their children. -/
theorem Walk.child {b : α} {cs : List α} {l : List (α × α)} (h : Walk children b cs l)
    (hcs : ∀ c ∈ cs, c ∈ children b) : ∀ e ∈ l, e.2 ∈ children e.1 := by
  induction h with
  | nil => simp
  | cons hin hrest ihin ihrest =>
    obtain ⟨hc, hcs⟩ := List.forall_mem_cons.1 hcs
    intro e he
    rcases List.mem_cons.1 he with rfl | he
    · exact hc
    · exact (List.mem_append.1 he).elim (ihin (fun _ h => h) e) (ihrest hcs e)

/-- The nodes visited are the children and their descendants. -/
theorem Walk.mem_iff {b : α} {cs : List α} {l : List (α × α)} (h : Walk children b cs l) {x : α} :
    x ∈ l.map Prod.snd ↔ ∃ c ∈ cs, Relation.ReflTransGen (Child children) c x := by
  induction h with
  | nil => simp
  | @cons b c cs l l' hin hrest ihin ihrest =>
    simp only [List.map_cons, List.map_append, List.mem_cons, List.mem_append, ihin, ihrest,
      exists_eq_or_imp]
    constructor
    · rintro (rfl | ⟨y, hy, hpath⟩ | hx)
      · exact .inl .refl
      · exact .inl (.head hy hpath)
      · exact .inr hx
    · rintro (hpath | hx)
      · rcases Relation.ReflTransGen.cases_head hpath with rfl | ⟨y, hy, hpath⟩
        · exact .inl rfl
        · exact .inr (.inl ⟨y, hy, hpath⟩)
      · exact .inr (.inr hx)

/-- From a node the walk visits its proper descendants. -/
theorem Walk.mem_iff_descendant {b : α} {l : List (α × α)} (h : Walk children b (children b) l)
    {x : α} : x ∈ l.map Prod.snd ↔ Relation.TransGen (Child children) b x := by
  rw [h.mem_iff, Relation.TransGen.head'_iff]

/-! ### Each once -/

/-- The children make a forest: the height decreases from parents to children, no node has two
parents, and none is listed twice. -/
structure IsForest (children : α → List α) (height : α → ℕ) : Prop where
  height : ∀ b c, c ∈ children b → height c < height b
  parent : ∀ b b' c, c ∈ children b → c ∈ children b' → b = b'
  nodup : ∀ b, (children b).Nodup

namespace IsForest

variable {height : α → ℕ} (hF : IsForest children height)
include hF

theorem height_le {b c : α} (h : Relation.ReflTransGen (Child children) b c) :
    height c ≤ height b := by
  induction h with
  | refl => exact Nat.le_refl _
  | tail _ hchild ih => exact Nat.le_trans (Nat.le_of_lt (hF.height _ _ hchild)) ih

/-- The ancestors of a node are in a line. -/
theorem comparable {b c x : α} (hb : Relation.ReflTransGen (Child children) b x)
    (hc : Relation.ReflTransGen (Child children) c x) :
    Relation.ReflTransGen (Child children) b c ∨ Relation.ReflTransGen (Child children) c b := by
  have hunique : Relator.RightUnique (Function.swap (Child children)) :=
    fun c b b' hb hb' => hF.parent b b' c hb hb'
  have hb' := Relation.reflTransGen_swap.2 hb
  have hc' := Relation.reflTransGen_swap.2 hc
  rcases hb'.total_of_right_unique hunique hc' with h | h
  · exact .inr (Relation.reflTransGen_swap.1 h)
  · exact .inl (Relation.reflTransGen_swap.1 h)

/-- A child of `b` is below no other child of `b`. -/
theorem eq_of_below {b c c' : α} (hc : c ∈ children b) (hc' : c' ∈ children b)
    (h : Relation.ReflTransGen (Child children) c c') : c = c' := by
  rcases Relation.ReflTransGen.cases_tail h with rfl | ⟨y, hpath, hy⟩
  · rfl
  · -- the parent of `c'` is `b`, which is above `c`
    have hyb : y = b := hF.parent y b c' hy hc'
    have hle := hF.height_le hpath
    rw [hyb] at hle
    exact absurd (hF.height b c hc) (by omega)

/-- Different children have no descendant in common. -/
theorem eq_of_common {b c c' x : α} (hc : c ∈ children b) (hc' : c' ∈ children b)
    (h : Relation.ReflTransGen (Child children) c x)
    (h' : Relation.ReflTransGen (Child children) c' x) : c = c' := by
  rcases hF.comparable h h' with h | h
  · exact hF.eq_of_below hc hc' h
  · exact (hF.eq_of_below hc' hc h).symm

/-- **The walk visits no node twice.** -/
theorem nodup_walk {b : α} {cs : List α} {l : List (α × α)} (h : Walk children b cs l)
    (hcs : ∀ c ∈ cs, c ∈ children b) (hnd : cs.Nodup) : (l.map Prod.snd).Nodup := by
  induction h with
  | nil => exact List.nodup_nil
  | @cons b c cs l l' hin hrest ihin ihrest =>
    obtain ⟨hc, hcs⟩ := List.forall_mem_cons.1 hcs
    obtain ⟨hnew, hnd⟩ := List.nodup_cons.1 hnd
    -- what the loop visits later is below other children than `c`
    have hlater {x : α} (hx : x ∈ l'.map Prod.snd) :
        ¬Relation.ReflTransGen (Child children) c x := by
      obtain ⟨c', hc', hpath⟩ := hrest.mem_iff.1 hx
      intro h
      rw [hF.eq_of_common hc (hcs c' hc') h hpath] at hnew
      exact hnew hc'
    rw [List.map_cons, List.map_append, List.nodup_cons, List.nodup_append]
    refine ⟨?_, ihin (fun _ h => h) (hF.nodup c), ihrest hcs hnd, ?_⟩
    · intro hmem
      rcases List.mem_append.1 hmem with hx | hx
      · -- `c` is not below itself
        obtain ⟨y, hy, hpath⟩ := hin.mem_iff.1 hx
        have hle : height c ≤ height y := hF.height_le hpath
        exact absurd (hF.height c y hy) (by omega)
      · exact hlater hx .refl
    · rintro x hx y hy rfl
      obtain ⟨z, hz, hpath⟩ := hin.mem_iff.1 hx
      exact hlater hy (.head hz hpath)

end IsForest

/-! ### Gathering -/

section Gather

variable {β : Type*} (inner : α → Bool) (here : α → α → β) (add : β → β → β) (zero : β)

/-- The loop over the children of a node that combines what `here` says of each, and recurses into
those that are `inner`. It has no result when the depth does not suffice. -/
def gather (children : α → List α) : (depth : ℕ) → α → Option β
  | 0, _ => none
  | depth + 1, b => (children b).foldlM (fun acc c =>
      if inner c then (gather children depth c).map (add (add acc (here b c)))
      else some (add acc (here b c))) zero

variable {inner here add zero} [Std.Associative add] [Std.LawfulIdentity add zero]

variable (zero) in
theorem foldl_eq_add (acc : β) (l : List β) : l.foldl add acc = add acc (l.foldl add zero) := by
  have hassoc : l.foldl add (add acc zero) = add acc (l.foldl add zero) := List.foldl_assoc
  have hid : add acc zero = acc := Std.LawfulRightIdentity.right_id acc
  rwa [hid] at hassoc

/-- **What is gathered** is combined of all nodes the walk visits, in its order. -/
theorem gather_eq {height : α → ℕ} (hheight : ∀ b c, c ∈ children b → height c < height b)
    (hleaf : ∀ c, inner c = false → children c = []) {depth : ℕ} {b : α} (h : height b < depth) :
    gather inner here add zero children depth b =
      some (((descend children depth b).map fun e => here e.1 e.2).foldl add zero) := by
  induction depth generalizing b with
  | zero => omega
  | succ depth ih =>
    -- the loop over the children, with what was gathered before them
    have hloop (cs : List α) (hcs : ∀ c ∈ cs, c ∈ children b) (acc : β) :
        cs.foldlM (fun acc c =>
          if inner c then (gather inner here add zero children depth c).map
            (add (add acc (here b c)))
          else some (add acc (here b c))) acc =
        some (((cs.flatMap fun c => (b, c) :: descend children depth c).map
          fun e => here e.1 e.2).foldl add acc) := by
      induction cs generalizing acc with
      | nil => rfl
      | cons c cs ihcs =>
        obtain ⟨hc, hcs⟩ := List.forall_mem_cons.1 hcs
        have hlt : height c < depth := by
          have := hheight b c hc
          omega
        -- one child: a leaf counts itself, an inner node its walk too
        have hone : (if inner c then (gather inner here add zero children depth c).map
              (add (add acc (here b c)))
            else some (add acc (here b c))) =
            some (((descend children depth c).map fun e => here e.1 e.2).foldl add
              (add acc (here b c))) := by
          cases hin : inner c with
          | true =>
            rw [if_pos rfl, ih hlt, foldl_eq_add zero (add acc (here b c))]
            rfl
          | false =>
            have hnil : descend children depth c = [] := by
              cases depth with
              | zero => rfl
              | succ depth => rw [descend, hleaf c hin]; rfl
            rw [hnil]
            rfl
        rw [List.foldlM_cons, hone, List.flatMap_cons, List.cons_append, List.map_cons,
          List.map_append, List.foldl_cons, List.foldl_append]
        exact ihcs hcs _
    exact hloop (children b) (fun _ h => h) zero

end Gather

end Forest
