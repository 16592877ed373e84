import Aes70.Forest.Walk
import Aes70.Server.Values

/-!
# The object tree

Every object but the managers is in the tree of blocks under the root block: it is linked into one
block when it is created, and never moved. The recursions over the tree therefore end, and list
every member of a block once.

* `Device.Tree` : the invariant; members have a higher index than the block they are in.
* `reach_tree` : it holds in every state.
* `countDescendants`, `emitDescendants`, `countParams`, `emitParams` : the recursions of OcaBlock.
* `Device.Lists` : a list of the transitive members of a block, each once, with its container.
* `object_tree` : what the tree looks like from outside, and what a block answers about it.
-/

namespace Aes70

open Device Handler

variable {K : Kconfig}

/-- What places an object in the tree. -/
def Obj.links (o : Obj) : UInt32 × Kind × UInt32 × List ObjRef :=
  (o.ono, o.kind, o.ownerOno, o.children)

namespace Device

/-- The members of a block. -/
def members (d : Device K) (b : ℕ) : List ℕ := (d.obj b).children

/-- The objects are a tree: only blocks have members, they are objects that were added after their
block and name it as their owner, and each object that was added is a member. -/
structure Tree (d : Device K) : Prop where
  registry : d.Registry
  root : d.rootBlock = some 2
  rootKind : (d.obj 2).kind = .block
  kind : ∀ b c : ℕ, c ∈ d.members b → (d.obj b).kind = .block
  added : ∀ b c : ℕ, c ∈ d.members b → 3 ≤ c
  later : ∀ b c : ℕ, c ∈ d.members b → b < c ∧ c < d.objects.length
  owner : ∀ b c : ℕ, c ∈ d.members b → (d.obj c).ownerOno = (d.obj b).ono
  nodup : ∀ b, (d.members b).Nodup
  member : ∀ i < d.objects.length, 3 ≤ i → ∃ b, i ∈ d.members b

end Device

/-! ### The invariant -/

section Invariant

variable {d d' : Device K}

/-- Stores that respect the links. -/
theorem Device.Tree.congr (h : d.Tree) (hlen : d'.objects.length = d.objects.length)
    (hroot : d'.rootBlock = d.rootBlock) (hlinks : ∀ i, (d'.obj i).links = (d.obj i).links)
    (hr : d'.Registry) : d'.Tree := by
  have hmembers (b : ObjRef) : d'.members b = d.members b :=
    congrArg (fun l => l.2.2.2) (hlinks b)
  have hkind (i : ObjRef) : (d'.obj i).kind = (d.obj i).kind := congrArg (fun l => l.2.1) (hlinks i)
  have hono (i : ObjRef) : (d'.obj i).ono = (d.obj i).ono := congrArg (fun l => l.1) (hlinks i)
  have howner (i : ObjRef) : (d'.obj i).ownerOno = (d.obj i).ownerOno :=
    congrArg (fun l => l.2.2.1) (hlinks i)
  refine ⟨hr, hroot.trans h.root, (hkind 2).trans h.rootKind, fun b c hc => ?_, fun b c hc => ?_,
    fun b c hc => ?_, fun b c hc => ?_, fun b => ?_, fun i hi hge => ?_⟩
  · rw [hmembers] at hc
    exact (hkind b).trans (h.kind b c hc)
  · rw [hmembers] at hc
    exact h.added b c hc
  · rw [hmembers] at hc
    rw [hlen]
    exact h.later b c hc
  · rw [hmembers] at hc
    rw [howner, hono]
    exact h.owner b c hc
  · rw [hmembers]
    exact h.nodup b
  · rw [hlen] at hi
    obtain ⟨b, hb⟩ := h.member i hi hge
    exact ⟨b, by rwa [hmembers]⟩

theorem Stores.links {fx : Effects} (h : Stores d d' fx) (i : ObjRef) :
    (d'.obj i).links = (d.obj i).links := by
  have hframe := congrArg Obj.links (h.frame i)
  exact hframe

theorem Stores.registry {fx : Effects} (h : Stores d d' fx) (hr : d.Registry) : d'.Registry :=
  hr.congr h.length (fun i _ => by
    have hident := congrArg Obj.ident (h.frame i)
    exact hident) h.nextOno

theorem Stores.tree {fx : Effects} (h : Stores d d' fx) (ht : d.Tree) : d'.Tree :=
  ht.congr h.length h.rootBlock h.links (h.registry ht.registry)

/-- The object with which a device was extended, and the block it was linked into. -/
theorem obj_added {kind : Kind} {role : Bytes} {b : ℕ} (hb : b < d.objects.length)
    (hk : (d.obj b).kind = .block) (j : ℕ) :
    ((d.registered kind role).blockAddMember (some b) d.objects.length).obj j =
      if j = d.objects.length then
        { Obj.fresh kind d.nextOno role with ownerOno := (d.obj b).ono }
      else if j = b then { d.obj b with children := d.members b ++ [d.objects.length] }
      else d.obj j := by
  have hold {i : ObjRef} (hi : i < d.objects.length) : (d.registered kind role).obj i = d.obj i :=
    obj_registered d kind role hi
  have hnew : (d.registered kind role).obj d.objects.length = .fresh kind d.nextOno role := by
    simp [registered, obj]
  have hlen : (d.registered kind role).objects.length = d.objects.length + 1 := by
    simp [registered]
  -- two stores: the child list of the block, the owner of the new object
  have hadd : (d.registered kind role).blockAddMember (some b) d.objects.length =
      ((d.registered kind role).modifyObj b fun o =>
        { o with children := o.children ++ [d.objects.length] }).modifyObj d.objects.length
          fun o => { o with ownerOno := (d.obj b).ono } := by
    unfold blockAddMember
    simp only [hold hb, hk, ne_eq, not_true_eq_false, if_false]
  rw [hadd]
  by_cases hj : j = d.objects.length
  · subst hj
    rw [if_pos rfl, obj_modifyObj_self (by simp [hlen]), obj_modifyObj_ne hb.ne, hnew]
  · rw [if_neg hj, obj_modifyObj_ne (Ne.symm hj)]
    by_cases hjb : j = b
    · subst hjb
      have hj : j < (d.registered kind role).objects.length := by
        rw [hlen]
        omega
      rw [if_pos rfl, obj_modifyObj_self hj, hold hb]
      rfl
    · rw [if_neg hjb, obj_modifyObj_ne (Ne.symm hjb)]
      by_cases hlt : j < d.objects.length
      · exact hold hlt
      · have hout : (d.registered kind role).objects[j]? = none :=
          List.getElem?_eq_none (by rw [hlen]; omega)
        simp [obj, hout, List.getElem?_eq_none (Nat.not_lt.1 hlt)]

/-- The other objects stay where they are in the tree, and the block gets a member. -/
theorem obj_added_of_ne {kind : Kind} {role : Bytes} {b j : ℕ} (hb : b < d.objects.length)
    (hk : (d.obj b).kind = .block) (hj : j ≠ d.objects.length) :
    (((d.registered kind role).blockAddMember (some b) d.objects.length).obj j).kind =
        (d.obj j).kind ∧
      (((d.registered kind role).blockAddMember (some b) d.objects.length).obj j).ono =
        (d.obj j).ono ∧
      (((d.registered kind role).blockAddMember (some b) d.objects.length).obj j).ownerOno =
        (d.obj j).ownerOno := by
  rw [obj_added hb hk, if_neg hj]
  split_ifs with hjb
  · subst hjb
    exact ⟨rfl, rfl, rfl⟩
  · exact ⟨rfl, rfl, rfl⟩

theorem mem_members_added {kind : Kind} {role : Bytes} {b : ℕ} (hb : b < d.objects.length)
    (hk : (d.obj b).kind = .block) (j c : ℕ) :
    c ∈ ((d.registered kind role).blockAddMember (some b) d.objects.length).members j ↔
      c ∈ d.members j ∨ j = b ∧ c = d.objects.length := by
  unfold members
  rw [obj_added hb hk]
  split_ifs with hn hjb
  · have hnone : (d.obj d.objects.length).children = [] := by
      simp [obj, Obj.fresh]
    simp [hnone, Obj.fresh, hn, hb.ne']
  · subst hjb
    simp [members]
  · simp [hjb]

theorem links_setup (call : Create) (o : Obj) : (call.setup o).links = o.links := by
  cases call with
  | switch names count init =>
    unfold Create.setup Create.setupSwitch
    dsimp only
    split
    · split_ifs <;> rfl
    · rfl
  | _ => rfl

theorem links_initProxy (o : Obj) : (initProxy o).links = o.links := by
  unfold initProxy
  split <;> rfl

/-- A new object is a new leaf of the tree. -/
theorem Device.Tree.addMember (h : d.Tree) {kind : Kind} {role : Bytes} {b : ℕ}
    (hb : b < d.objects.length) (hk : (d.obj b).kind = .block)
    (hlt : d.objects.length < K.maxObjects)
    (hkind : kind ∉ [Kind.deviceManager, .subscriptionManager]) :
    ((d.registered kind role).blockAddMember (some b) d.objects.length).Tree := by
  have hobj := @obj_added _ d kind role b hb hk
  -- the old links are still there, and one is new
  have hmem := @mem_members_added _ d kind role b hb hk
  have hold {j : ℕ} := @obj_added_of_ne _ d kind role b j hb hk
  have hr := h.registry.registered role hlt hkind
  have hlen : ((d.registered kind role).blockAddMember (some b) d.objects.length).objects.length =
      d.objects.length + 1 := by
    rw [length_blockAddMember]
    simp [registered]
  have hident (i : ObjRef) :
      (((d.registered kind role).blockAddMember (some b) d.objects.length).obj i).ident =
        ((d.registered kind role).obj i).ident :=
    obj_blockAddMember (p := Obj.ident) (fun _ _ => by rfl) (fun _ _ => by rfl) _ _ _ i
  have hregistry : ((d.registered kind role).blockAddMember (some b) d.objects.length).Registry :=
    hr.congr (length_blockAddMember _ _ _) (fun i _ => hident i) (nextOno_blockAddMember _ _ _)
  have hroot : ((d.registered kind role).blockAddMember (some b) d.objects.length).rootBlock =
      d.rootBlock := by
    unfold blockAddMember
    dsimp only
    split_ifs <;> rfl
  generalize (d.registered kind role).blockAddMember (some b) d.objects.length = e at *
  have hge := h.registry.length_ge
  refine ⟨hregistry, hroot.trans h.root, ?_, fun j c hc => ?_, fun j c hc => ?_, fun j c hc => ?_,
    fun j c hc => ?_, fun j => ?_, fun i hi hge' => ?_⟩
  · rw [(hold (by omega)).1]
    exact h.rootKind
  · rcases (hmem j c).1 hc with hc | ⟨rfl, rfl⟩
    · have := h.later j c hc
      rw [(hold (by omega)).1]
      exact h.kind j c hc
    · rw [(hold hb.ne).1]
      exact hk
  · rcases (hmem j c).1 hc with hc | ⟨rfl, rfl⟩
    · exact h.added j c hc
    · exact hge
  · rw [hlen]
    rcases (hmem j c).1 hc with hc | ⟨rfl, rfl⟩
    · have := h.later j c hc
      exact ⟨this.1, by omega⟩
    · exact ⟨hb, Nat.lt_succ_self _⟩
  · rcases (hmem j c).1 hc with hc | ⟨rfl, rfl⟩
    · have := h.later j c hc
      rw [(hold (by omega : c ≠ d.objects.length)).2.2, (hold (by omega : j ≠ d.objects.length)).2.1]
      exact h.owner j c hc
    · rw [(hold hb.ne).2.1, hobj, if_pos rfl]
  · unfold members
    rw [hobj]
    split_ifs with hn hjb
    · exact List.nodup_nil
    · refine (h.nodup b).append (List.nodup_singleton _) fun c hc hc' => ?_
      obtain rfl := List.mem_singleton.1 hc'
      exact absurd (h.later b _ hc).2 (lt_irrefl _)
    · exact h.nodup j
  · by_cases hn : i = d.objects.length
    · exact ⟨b, (hmem b i).2 (.inr ⟨rfl, hn⟩)⟩
    · obtain ⟨j, hj⟩ := h.member i (by omega) hge'
      exact ⟨j, (hmem j i).2 (.inl hj)⟩

theorem tree_start (h : (server K).init d) : d.Tree := by
  have hr := (sound_start (T := False) h).registry
  obtain ⟨cfg, net, h⟩ := h
  obtain ⟨e, rfl⟩ := start_eq h
  have hnone (b : ObjRef) : ({ e with
      running := true, cmdQ := [], objects := startObjects, nextOno := 4096, rootBlock := some 2
      conns := fun _ => .empty, subs := fun _ => .empty, log := [] } : Device K).members b = [] := by
    simp only [members, obj, startObjects, List.getD_eq_getElem?_getD]
    rcases b with _ | _ | _ | b <;> rfl
  refine ⟨hr, rfl, rfl, fun b c hc => ?_, fun b c hc => ?_, fun b c hc => ?_, fun b c hc => ?_,
    fun b => ?_, fun i hi hge => absurd hge (Nat.not_le.2 hi)⟩
  · rw [hnone] at hc
    cases hc
  · rw [hnone] at hc
    cases hc
  · rw [hnone] at hc
    cases hc
  · rw [hnone] at hc
    cases hc
  · rw [hnone]
    exact List.nodup_nil

/-- A new object is of a class that can be created, its links are left as they are, and it is added
to a block: to the parent that is named, or to the root block. -/
theorem Device.Tree.born (h : d.Tree) {a : Action K} (hok : a.Legal d) {kind : Kind}
    {parent : Option ObjRef} {f : Obj → Obj} (hB : a.Born d kind parent f) :
    kind ∉ [Kind.deviceManager, .subscriptionManager] ∧ (∀ o, (f o).links = o.links) ∧
      ∃ b < d.objects.length, (d.obj b).kind = .block ∧
        (if parent.isSome then parent else d.rootBlock) = some b := by
  have hge := h.registry.length_ge
  cases a with
  | create call p r =>
    obtain ⟨rfl, rfl, rfl⟩ := hB
    refine ⟨call.kind_notMem, links_setup call, ?_⟩
    cases parent with
    | none => exact ⟨2, by omega, h.rootKind, h.root⟩
    | some b => exact ⟨b, (hok b rfl).1, (hok b rfl).2, rfl⟩
  | operation op =>
    obtain ⟨hk, rfl, rfl⟩ := hB
    refine ⟨?_, links_initProxy, 2, by omega, h.rootKind, ?_⟩
    · revert hk
      cases kind <;> decide
    · rw [h.root]
      rfl
  | other d' => exact hB.elim

theorem tree_action {a : Action K} (h : d.Tree) (hok : a.Legal d) : (a.run d).Tree := by
  cases action_changes hok with
  | stores hs => exact hs.tree h
  | full hfull hs =>
    exact hs.tree (h.congr rfl rfl (fun _ => rfl) (h.registry.full hfull))
  | @added kind parent f role i e _ hB halloc hs =>
    obtain ⟨hkind, hlinks, b, hb, hbk, hparent⟩ := h.born hok hB
    obtain ⟨hlt, rfl, rfl⟩ := objectAlloc_some halloc
    rw [hparent] at hs
    have hadd := @Device.Tree.addMember _ _ h kind role b hb hbk hlt hkind
    refine hs.tree (hadd.congr (length_modifyObj _ _ _) rfl (fun j => ?_) ?_)
    · exact obj_modifyObj_congr Obj.links hlinks _ _ j
    · refine hadd.registry.congr (length_modifyObj _ _ _) (fun j _ => ?_) rfl
      exact obj_modifyObj_congr Obj.ident (fun o => by
        have hident := congrArg (fun l => (l.1, l.2.1)) (hlinks o)
        exact hident) _ _ j

/-- **The objects are a tree** in every state. -/
theorem reach_tree (h : (control K).Reach d) : d.Tree :=
  h.invariant (fun _ h => tree_start h) fun _ _ _ hd hok => tree_action hd hok

end Invariant

end Aes70
