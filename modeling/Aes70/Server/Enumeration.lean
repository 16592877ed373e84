import Aes70.Server.Tree

/-!
# What a block answers about its members

The recursions of OcaBlock over the tree: count and list of all members, and of those whose values
make a snapshot. They end, and the answers made of them list every member once.

* `countDescendants`, `emitDescendants`, `countParams`, `emitParams` : the recursions.
* `Device.Lists` : a list of the transitive members of a block, each once, with its container.
* `object_tree` : the tree as it is seen from outside, and the answers about it.
-/

namespace Aes70

open Device Handler

variable {K : Kconfig}

namespace Device

variable (d : Device K)

/-! ### The recursions -/

/-- The test for a recursion into a member. -/
def isBlock (c : ℕ) : Bool := (d.obj c).kind = .block

/-- The entry of a member in `GetActionObjectsRecursive`, with its container. -/
def memberFields (b c : ℕ) : List Field :=
  emitObjectIdentification (d.obj c) ++ [.u32 (d.obj b).ono]

/-- The entry of a member in a snapshot. -/
def paramFields (c : ℕ) : List Field := [.u32 (d.obj c).ono, .f64 (d.obj c).num]

/-- `count_descendants`; `none` when it recurses deeper than `depth`. -/
def countDescendants (depth : ℕ) (b : ℕ) : Option UInt16 :=
  Forest.gather d.isBlock (fun _ _ => 1) (· + ·) 0 d.members depth b

/-- `emit_descendants`: the fields it writes. -/
def emitDescendants (depth : ℕ) (b : ℕ) : Option (List Field) :=
  Forest.gather d.isBlock d.memberFields (· ++ ·) [] d.members depth b

/-- `count_params`. -/
def countParams (depth : ℕ) (b : ℕ) : Option UInt16 :=
  Forest.gather d.isBlock (fun _ c => if isParamKind (d.obj c).kind then 1 else 0) (· + ·) 0
    d.members depth b

/-- `emit_params`. -/
def emitParams (depth : ℕ) (b : ℕ) : Option (List Field) :=
  Forest.gather d.isBlock (fun _ c => if isParamKind (d.obj c).kind then d.paramFields c else [])
    (· ++ ·) [] d.members depth b

/-- `ms` lists the transitive members of `b`, each once, with its container. -/
structure Lists (b : ℕ) (ms : List (ℕ × ℕ)) : Prop where
  mem_iff : ∀ c, c ∈ ms.map Prod.snd ↔ Relation.TransGen (Forest.Child d.members) b c
  nodup : (ms.map Prod.snd).Nodup
  container : ∀ m ∈ ms, m.2 ∈ d.members m.1

end Device

/-! ### Counts and entries -/

/-- Counting modulo 2^16. -/
theorem foldl_count {α : Type} (p : α → Bool) (l : List α) :
    (l.map fun e => if p e then (1 : UInt16) else 0).foldl (· + ·) 0 =
      UInt16.ofNat (l.countP p) := by
  induction l using List.reverseRecOn with
  | nil => rfl
  | append_singleton l e ih =>
    rw [List.map_append, List.foldl_append, ih, List.countP_append, UInt16.ofNat_add]
    by_cases he : p e <;> simp [he]

/-- The objects of a snapshot. -/
theorem paramObjects_eq (d : Device K) (b : ℕ) : paramObjects d b =
    ((descendants d b).filter fun m => isParamKind (d.obj m.2).kind).map Prod.snd := by
  rw [paramObjects, List.filter_map]
  rfl

/-- Entries of the elements that satisfy `p`. -/
theorem flatMap_ite {α β : Type} (p : α → Bool) (f : α → List β) (l : List α) :
    (l.flatMap fun e => if p e then f e else []) = (l.filter p).flatMap f := by
  induction l with
  | nil => rfl
  | cons e l ih =>
    rw [List.flatMap_cons, ih]
    by_cases he : p e <;> simp [he]

/-! ### Walks through the tree -/

section Walks

variable {d : Device K} (h : d.Tree)
include h

namespace Device.Tree

theorem isForest : Forest.IsForest d.members fun i => d.objects.length - i where
  height b c hc := by
    have := h.later b c hc
    omega
  parent b b' c hc hc' := by
    have hb := h.later b c hc
    have hb' := h.later b' c hc'
    refine h.registry.eq_of_ono (hb.1.trans hb.2) (hb'.1.trans hb'.2) ?_
    rw [← h.owner b c hc, h.owner b' c hc']
  nodup := h.nodup

/-- Objects of other classes have no members. -/
theorem members_leaf (c : ℕ) (hc : d.isBlock c = false) : d.members c = [] :=
  List.eq_nil_iff_forall_not_mem.2 fun x hx => by
    simp [isBlock, h.kind c x hx] at hc

/-- The recursions look into blocks only, which makes no difference. -/
theorem descend_eq (depth b : ℕ) : descend d depth b = Forest.descend d.members depth b := by
  induction depth generalizing b with
  | zero => rfl
  | succ depth ih =>
    refine List.flatMap_congr fun c _ => ?_
    split_ifs with hk
    · rw [ih]
    · have hleaf : Forest.descend d.members depth c = [] := by
        cases depth with
        | zero => rfl
        | succ depth =>
          rw [Forest.descend, h.members_leaf c (by simpa [isBlock] using hk)]
          rfl
      rw [hleaf]

/-- The walk from a block ends, with its descendants. -/
theorem walk (b : ℕ) : Forest.Walk d.members b (d.members b) (descendants d b) := by
  unfold descendants
  rw [h.descend_eq]
  refine Forest.walk_descend h.isForest.height ?_
  omega

theorem descend_members {depth : ℕ} (hdepth : d.objects.length < depth) (b : ℕ) :
    Forest.descend d.members depth b = descendants d b :=
  (Forest.walk_descend h.isForest.height (by omega)).unique (h.walk b)

theorem lists (b : ℕ) : d.Lists b (descendants d b) where
  mem_iff _ := (h.walk b).mem_iff_descendant
  nodup := h.isForest.nodup_walk (h.walk b) (fun _ hc => hc) (h.nodup b)
  container := (h.walk b).child fun _ hc => hc

end Device.Tree

/-- What a recursion gathers, once it is deep enough. -/
theorem gather_tree {β : Type} (here : ℕ → ℕ → β) (add : β → β → β) (zero : β)
    [Std.Associative add] [Std.LawfulIdentity add zero] {depth : ℕ}
    (hdepth : d.objects.length < depth) (b : ℕ) :
    Forest.gather d.isBlock here add zero d.members depth b =
      some (((descendants d b).map fun e => here e.1 e.2).foldl add zero) := by
  rw [Forest.gather_eq h.isForest.height h.members_leaf (by omega), h.descend_members hdepth]

theorem countDescendants_eq {depth : ℕ} (hdepth : d.objects.length < depth) (b : ℕ) :
    d.countDescendants depth b = some (UInt16.ofNat (descendants d b).length) := by
  have hcount := foldl_count (fun _ => true) (descendants d b)
  rw [List.countP_true] at hcount
  rw [countDescendants, gather_tree h _ _ _ hdepth, ← hcount]
  rfl

theorem countParams_eq {depth : ℕ} (hdepth : d.objects.length < depth) (b : ℕ) :
    d.countParams depth b = some (UInt16.ofNat (paramObjects d b).length) := by
  rw [countParams, gather_tree h _ _ _ hdepth, paramObjects_eq, List.length_map,
    ← List.countP_eq_length_filter, ← foldl_count]

theorem emitDescendants_eq {depth : ℕ} (hdepth : d.objects.length < depth) (b : ℕ) :
    d.emitDescendants depth b =
      some ((descendants d b).flatMap fun m => d.memberFields m.1 m.2) := by
  rw [emitDescendants, gather_tree h _ _ _ hdepth, List.foldl_map, List.foldl_append_eq_append,
    List.nil_append]
  rfl

theorem emitParams_eq {depth : ℕ} (hdepth : d.objects.length < depth) (b : ℕ) :
    d.emitParams depth b = some ((paramObjects d b).flatMap d.paramFields) := by
  rw [emitParams, gather_tree h _ _ _ hdepth, List.foldl_map, List.foldl_append_eq_append,
    List.nil_append, paramObjects_eq, List.flatMap_map, ← flatMap_ite]
  rfl

/-- No list of members is longer than the table. -/
theorem length_descendants_le (b : ℕ) : (descendants d b).length ≤ 1024 := by
  have hsub : (descendants d b).map Prod.snd ⊆ List.range d.objects.length := by
    intro c hc
    obtain ⟨m, hm, rfl⟩ := List.mem_map.1 hc
    exact List.mem_range.2 (h.later m.1 m.2 ((h.lists b).container m hm)).2
  have hle := ((h.lists b).nodup.subperm hsub).length_le
  rw [List.length_map, List.length_range] at hle
  exact hle.trans (h.registry.length_le.trans K.maxObjects_range.2)

end Walks

/-! ### What is seen from outside -/

namespace Device

variable (d : Device K)

/-- The objects `i` and `j` are linked by the owner's number that `i` carries. -/
def Owner (i j : ℕ) : Prop := d.find (d.obj i).ownerOno = some j

/-- The recursions end with this count and these fields. -/
def Ends {α : Type} (f : ℕ → ℕ → Option α) (b : ℕ) (a : α) : Prop :=
  ∀ depth, d.objects.length < depth → f depth b = some a

/-- `ps` is what the recursions make of the members of `b`: a count, and as many entries, one for
each transitive member with its container. -/
def ListsAll (b : ℕ) (ps : Bytes) : Prop :=
  ∃ (n : UInt16) (ms : List (ℕ × ℕ)), d.Lists b ms ∧ n.toNat = ms.length ∧
    d.Ends d.countDescendants b n ∧
    d.Ends d.emitDescendants b (ms.flatMap fun m => d.memberFields m.1 m.2) ∧
    ps = Field.encodeAll (.u16 n :: ms.flatMap fun m => d.memberFields m.1 m.2)

/-- `ps` is a blob that the recursions make of the members of `b`: the length of the rest, a count,
and as many entries, one for each transitive member of the scalar actuator classes. -/
def Snapshots (b : ℕ) (ps : Bytes) : Prop :=
  ∃ (len : UInt32) (n : UInt16) (ms : List (ℕ × ℕ)) (cs : List ℕ), d.Lists b ms ∧
    cs = (ms.map Prod.snd).filter (fun c => isParamKind (d.obj c).kind) ∧
    n.toNat = cs.length ∧
    len.toNat = (Field.encodeAll (.u16 n :: cs.flatMap d.paramFields)).length ∧
    d.Ends d.countParams b n ∧ d.Ends d.emitParams b (cs.flatMap d.paramFields) ∧
    ps = Field.encodeAll (.u32 len :: .u16 n :: cs.flatMap d.paramFields)

/-- The object tree as it is seen from outside. -/
structure ObjectTree : Prop where
  distinct : ∀ i < d.objects.length, ∀ j < d.objects.length, (d.obj i).ono = (d.obj j).ono → i = j
  /-- Every object but the managers and the root block is a member of one block, once. -/
  member : ∀ i < d.objects.length, (d.obj i).kind ∉ [Kind.deviceManager, .subscriptionManager] →
    d.rootBlock ≠ some i → ∃ b < d.objects.length, (d.obj b).kind = .block ∧
      (d.obj b).ono = (d.obj i).ownerOno ∧ (d.members b).count i = 1 ∧
      ∀ b', i ∈ d.members b' → b' = b
  /-- From every member the owners lead to the root block. -/
  owners : ∀ b i, i ∈ d.members b →
    ∃ root, d.rootBlock = some root ∧ Relation.ReflTransGen d.Owner i root
  /-- `GetActionObjectsRecursive` lists the members. -/
  recursive : ∀ b room conn cmd rd, d.find cmd.target = some b → (d.obj b).kind = .block →
    cmd.level = 3 → cmd.index = 6 → (answer room conn cmd rd d).overflow = false →
    (answer room conn cmd rd d).response.status = .ok ∧
      d.ListsAll b (answer room conn cmd rd d).response.params
  /-- `FetchCurrentParameterData` lists the values. -/
  snapshot : ∀ b room conn cmd rd, d.find cmd.target = some b → (d.obj b).kind = .block →
    cmd.level = 3 → cmd.index = 25 → (answer room conn cmd rd d).overflow = false →
    (answer room conn cmd rd d).response.status = .ok ∧
      d.Snapshots b (answer room conn cmd rd d).response.params

end Device

section Outside

variable {d : Device K}

/-- The block of a member carries the number that the member names as its owner's. -/
theorem Device.Tree.owner_of_member (h : d.Tree) {b c : ℕ} (hc : c ∈ d.members b) :
    d.Owner c b := by
  have hlater := h.later b c hc
  rw [Owner, h.owner b c hc]
  exact h.registry.find_ono (hlater.1.trans hlater.2)

/-- The owners of a member lead to the root block. -/
theorem Device.Tree.owners (h : d.Tree) {b c : ℕ} (hc : c ∈ d.members b) :
    Relation.ReflTransGen d.Owner c 2 := by
  -- containers come before their members
  induction c using Nat.strongRecOn generalizing b with
  | ind c ih =>
    have hlater := h.later b c hc
    have hfirst : Relation.ReflTransGen d.Owner c b := .single (h.owner_of_member hc)
    by_cases hb : b = 2
    · rwa [← hb]
    · have hkind := h.kind b c hc
      have hmgr := (h.registry.deviceManager b (hlater.1.trans hlater.2)).not.1 (by simp [hkind])
      have hsub := (h.registry.subscriptionManager b (hlater.1.trans hlater.2)).not.1
        (by simp [hkind])
      obtain ⟨b', hb'⟩ := h.member b (hlater.1.trans hlater.2) (by omega)
      exact hfirst.trans (ih b hlater.1 hb')

theorem length_paramFields (d : Device K) (cs : List ℕ) :
    (Field.encodeAll (cs.flatMap d.paramFields)).length = 12 * cs.length := by
  induction cs with
  | nil => rfl
  | cons c cs ih =>
    rw [List.flatMap_cons, encodeAll_append, List.length_append, ih, List.length_cons]
    have hone : (Field.encodeAll (d.paramFields c)).length = 12 := by
      simp [paramFields, Field.encodeAll, Field.encode, Field.pieces]
    omega

theorem length_count (n : UInt16) : (Field.encodeAll [.u16 n]).length = 2 := by
  simp [Field.encodeAll, Field.encode, Field.pieces]

/-- The members do not depend on which connection is active. -/
theorem descendants_active (d : Device K) (x : Option ℕ) (b : ℕ) :
    descendants { d with activeConn := x } b = descendants d b := by
  have hdescend (depth b : ℕ) : descend { d with activeConn := x } depth b = descend d depth b := by
    induction depth generalizing b with
    | zero => rfl
    | succ depth ih =>
      simp only [descend, ih]
      rfl
  exact hdescend _ b

/-- The fields of the two enumerations. -/
theorem replies_block {b : ℕ} (hk : (d.obj b).kind = .block) (x : Option ℕ) :
    ({ d with activeConn := x } : Device K).Replies b 3 6
      (.u16 (UInt16.ofNat (descendants d b).length) ::
        (descendants d b).flatMap fun m => d.memberFields m.1 m.2) ∧
    ({ d with activeConn := x } : Device K).Replies b 3 25
      (.u32 (2 + (UInt16.ofNat (paramObjects d b).length).toUInt32 * 12) ::
        .u16 (UInt16.ofNat (paramObjects d b).length) ::
          (paramObjects d b).flatMap d.paramFields) := by
  let e : Device K := { d with activeConn := x }
  have hh : handlerFor (e.obj b).kind 3 = some (blockDispatch (K := K)) := by
    have hke : (e.obj b).kind = .block := hk
    rw [hke]
    rfl
  have hq (index : UInt16) (hindex : index ≠ 26) :
      methodIsWrite (e.obj b).kind 3 index = false := by
    have hke : (e.obj b).kind = .block := hk
    rw [hke]
    simp [methodIsWrite, hindex]
  have hparams : paramObjects e b = paramObjects d b := by
    rw [paramObjects_eq, paramObjects_eq, descendants_active]
    rfl
  constructor
  · refine replies_of_handler (hq 6 (by decide)) hh ?_
    intro c hc
    have hfields : d.memberFields = c.dev.memberFields := by
      rw [hc]
      rfl
    rw [← descendants_active d x, hfields, ← hc]
    rfl
  · refine replies_of_handler (hq 25 (by decide)) hh ?_
    intro c hc
    have hfields : d.paramFields = c.dev.paramFields := by
      rw [hc]
      rfl
    have hdev : c.dev = e := hc
    rw [← hparams, hfields, ← hdev]
    rfl

theorem response_snapshot {b : ℕ} {room conn : ℕ} {cmd : Command} {rd : Reader}
    (hf : d.find cmd.target = some b) (hk : (d.obj b).kind = .block) (hlevel : cmd.level = 3)
    (hindex : cmd.index = 25) (hfit : (answer room conn cmd rd d).overflow = false) :
    (answer room conn cmd rd d).response = ⟨cmd.handle, .ok, 1, Field.encodeAll
      (.u32 (2 + (UInt16.ofNat (paramObjects d b).length).toUInt32 * 12) ::
        .u16 (UInt16.ofNat (paramObjects d b).length) ::
          (paramObjects d b).flatMap d.paramFields)⟩ :=
  response_of_replies hf (by
    rw [hlevel, hindex]
    exact (replies_block hk (some conn)).2) hfit

/-- The count of a snapshot does not overflow. -/
theorem count_snapshot (h : d.Tree) (b : ℕ) :
    (UInt16.ofNat (paramObjects d b).length).toNat = (paramObjects d b).length := by
  refine UInt16.toNat_ofNat_of_lt' (lt_of_le_of_lt (le_trans ?_ (length_descendants_le h b))
    (by decide))
  rw [paramObjects_eq, List.length_map]
  exact List.length_filter_le _ _

/-- The length of the blob is that of the count and of the entries. -/
theorem length_snapshot (h : d.Tree) (b : ℕ) :
    (2 + (UInt16.ofNat (paramObjects d b).length).toUInt32 * 12).toNat = (Field.encodeAll
      (.u16 (UInt16.ofNat (paramObjects d b).length) ::
        (paramObjects d b).flatMap d.paramFields)).length := by
  have hn := count_snapshot h b
  have hlt := (UInt16.ofNat (paramObjects d b).length).toNat_lt
  rw [hn] at hlt
  change _ = (Field.encodeAll ([.u16 _] ++ (paramObjects d b).flatMap d.paramFields)).length
  rw [encodeAll_append, List.length_append, length_paramFields, length_count,
    UInt32.toNat_add, UInt32.toNat_mul, UInt16.toNat_toUInt32, hn]
  change (2 + (paramObjects d b).length * 12 % 2 ^ 32) % 2 ^ 32 = _
  omega

/-- **The object tree** of every state: numbers are distinct, every object is in its place, and the
blocks list their members. -/
theorem object_tree (h : (control K).Reach d) : d.ObjectTree := by
  have ht := reach_tree h
  refine ⟨fun i hi j hj hij => ht.registry.eq_of_ono hi hj hij, fun i hi hk hroot => ?_,
    fun b i hi => ⟨2, ht.root, ht.owners hi⟩, fun b room conn cmd rd hf hk hl hx hfit => ?_,
    fun b room conn cmd rd hf hk hl hx hfit => ?_⟩
  · -- an object that was added is linked into one block
    simp only [List.mem_cons, List.not_mem_nil, or_false, not_or] at hk
    have hmgr := (ht.registry.deviceManager i hi).not.1 hk.1
    have hsub := (ht.registry.subscriptionManager i hi).not.1 hk.2
    have hne : i ≠ 2 := fun h2 => hroot (by rw [ht.root, h2])
    obtain ⟨b, hb⟩ := ht.member i hi (by omega)
    have hlater := ht.later b i hb
    exact ⟨b, hlater.1.trans hlater.2, ht.kind b i hb, (ht.owner b i hb).symm,
      List.count_eq_one_of_mem (ht.nodup b) hb, fun b' hb' => ht.isForest.parent b' b i hb' hb⟩
  · have hresponse : (answer room conn cmd rd d).response = ⟨cmd.handle, .ok, 1, _⟩ :=
      response_of_replies hf (by
        rw [hl, hx]
        exact (replies_block hk (some conn)).1) hfit
    rw [hresponse]
    refine ⟨rfl, _, _, ht.lists b, ?_, fun depth hdepth => countDescendants_eq ht hdepth b,
      fun depth hdepth => emitDescendants_eq ht hdepth b, rfl⟩
    rw [UInt16.toNat_ofNat_of_lt' (lt_of_le_of_lt (length_descendants_le ht b) (by decide))]
  · rw [response_snapshot hf hk hl hx hfit]
    exact ⟨rfl, _, _, _, _, ht.lists b, rfl, count_snapshot ht b, length_snapshot ht b,
      fun depth hdepth => countParams_eq ht hdepth b,
      fun depth hdepth => emitParams_eq ht hdepth b, rfl⟩

namespace Sample

/-- The sample device with a block in the root block, and a mute in the block. -/
def nested : Device .default := after
  [.create .block none (ascii "channel"), .create (.mute false) (some 3) (ascii "mute")]

theorem reach_nested : (server .default).Reach nested := by
  have hrun : (server .default).Run start
      [.create .block none (ascii "channel"), .create (.mute false) (some 3) (ascii "mute")]
      nested := .cons ok_create (.cons (fun b hb => ?_) (.nil _))
  · exact reach_start.run hrun
  · obtain rfl := Option.some.inj hb
    decide

/-- The request of the list of all members of the root block. -/
def listRoot : Command := ⟨7, 100, 3, 6, 0, []⟩

/-- The mute is a member of the channel, and listed. -/
theorem object_tree_nested : (nested.members 3).count 4 = 1 ∧
    Relation.ReflTransGen nested.Owner 4 2 ∧
    nested.ListsAll 2 (answer 2048 0 listRoot (Reader.ofBytes []) nested).response.params := by
  have h := object_tree (reach_control reach_nested)
  refine ⟨by decide, ?_, (h.recursive 2 2048 0 listRoot _ (by decide) (by decide) rfl rfl ?_).2⟩
  · obtain ⟨root, hroot, howners⟩ := h.owners 3 4 (by decide)
    obtain rfl : root = 2 := by
      have : nested.rootBlock = some 2 := rfl
      simpa [this] using hroot.symm
    exact howners
  · decide +kernel

end Sample

end Outside

end Aes70
