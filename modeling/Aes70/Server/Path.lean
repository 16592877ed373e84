import Aes70.Forest.Lineage
import Aes70.Server.Enumeration

/-!
# The path of an agent

`GetPath` of OcaAgent lists the objects from the root block to the agent, as their roles and as
their numbers. The method climbs from the agent to its owners, at most sixteen objects, and writes
what it has passed in reverse.

* `Device.Path` : the chain of owners from the root block to an object; every member of a block has
  one, and no other (`Device.existsUnique_path`).
* `pathUp_eq` : the loop of the method climbs the path, and ends at the root block.
* `Device.ShowsPath` : a response that lists the path.
* `showsPath_iff` : an agent shows its path exactly when that has at most sixteen objects.
-/

namespace Aes70

open Device Handler

variable {K : Kconfig}

namespace Device

variable (d : Device K)

/-- The object whose number an object carries as its owner's. -/
def ownerRef (i : ℕ) : Option ℕ := d.find (d.obj i).ownerOno

/-- `l` leads from the root block to the object `i`, and each element is owned by the one before
it. -/
structure Path (i : ℕ) (l : List ℕ) : Prop where
  first : l.head? = d.rootBlock
  last : l.getLast? = some i
  chain : l.IsChain fun a b => d.Owner b a

/-- The two lists of `GetPath`, of the objects `l`: `n` roles, and `n` numbers. -/
def pathFields (n : UInt16) (l : List ℕ) : List Field :=
  .u16 n :: (l.map fun i => .string (d.obj i).role) ++ .u16 n :: l.map fun i => .u32 (d.obj i).ono

/-- The response lists the objects on the path of `i`. -/
def ShowsPath (i : ℕ) (r : Response) : Prop :=
  r.status = .ok ∧ r.paramCount = 2 ∧ ∃ (n : UInt16) (l : List ℕ), d.Path i l ∧
    n.toNat = l.length ∧ r.params = Field.encodeAll (d.pathFields n l)

/-- Neither the managers nor the root block have an owner. -/
def Rooted : Prop := ∀ i : ℕ, i < 3 → (d.obj i).ownerOno = 0

end Device

variable {d d' : Device K} {i : ℕ} {l l' : List ℕ}

/-! ### The required objects have no owner -/

theorem Device.Rooted.congr (h : d.Rooted) (hlinks : ∀ i, (d'.obj i).links = (d.obj i).links) :
    d'.Rooted := by
  intro i hi
  have howner : (d'.obj i).ownerOno = (d.obj i).ownerOno :=
    congrArg (fun l => l.2.2.1) (hlinks i)
  rw [howner, h i hi]

theorem rooted_start (h : (server K).init d) : d.Rooted := by
  obtain ⟨cfg, net, h⟩ := h
  obtain ⟨e, rfl⟩ := start_eq h
  intro i hi
  obtain rfl | rfl | rfl : i = 0 ∨ i = 1 ∨ i = 2 := by omega
  · rfl
  · rfl
  · rfl

theorem rooted_action {a : Action K} (ht : d.Tree) (h : d.Rooted) (hok : a.Legal d) :
    (a.run d).Rooted := by
  cases action_changes hok with
  | stores hs => exact h.congr hs.links
  | full _ hs =>
    refine h.congr fun i => ?_
    rw [hs.links i]
    rfl
  | @added kind parent f role i e _ hB halloc hs =>
    obtain ⟨-, hlinks, b, hb, hbk, hparent⟩ := ht.born hok hB
    obtain ⟨-, rfl, rfl⟩ := objectAlloc_some halloc
    rw [hparent] at hs
    have hge := ht.registry.length_ge
    intro j hj
    have hnew := (hs.links j).trans (obj_modifyObj_congr Obj.links hlinks _ _ j)
    have howner := congrArg (fun l => l.2.2.1) hnew
    obtain ⟨-, -, hold⟩ := @obj_added_of_ne _ d kind role b j hb hbk (by omega)
    exact howner.trans (hold.trans (h j hj))

theorem reach_rooted (h : (control K).Reach d) : d.Rooted :=
  h.invariant (fun _ h => rooted_start h) fun _ _ hreach hd hok =>
    rooted_action (reach_tree hreach) hd hok

/-! ### Paths -/

namespace Device

/-- No object has the number 0. -/
theorem Registry.find_zero (h : d.Registry) : d.find 0 = none := by
  cases hf : d.find 0 with
  | none => rfl
  | some j =>
    have hj := find_lt hf
    have hono := (h.ono j hj).symm.trans (obj_of_find hf)
    have hnat := congrArg UInt32.toNat hono
    rw [toNat_onoAt (h.lt hj)] at hnat
    change (if j = 0 then 1 else _) = 0 at hnat
    split_ifs at hnat
    omega

theorem Registry.ownerRef_of_zero (h : d.Registry) (hi : (d.obj i).ownerOno = 0) :
    d.ownerRef i = none := by
  rw [ownerRef, hi, h.find_zero]

theorem Rooted.ownerRef_root (hr : d.Rooted) (h : d.Registry) : d.ownerRef 2 = none :=
  h.ownerRef_of_zero (hr 2 (by decide))

/-- A path is a lineage that ends at the root block, upside down. -/
theorem Tree.path_iff (h : d.Tree) (hr : d.Rooted) :
    d.Path i l ↔ Forest.Lineage d.ownerRef i l.reverse ∧ l.head? = some 2 := by
  have hlineage : (Forest.Lineage d.ownerRef i l.reverse ∧ l.reverse.getLast? = some 2) ↔
      l.reverse.head? = some i ∧ l.reverse.getLast? = some 2 ∧
        l.reverse.IsChain fun a b => d.ownerRef a = some b :=
    Forest.lineage_iff (hr.ownerRef_root h.registry)
  rw [List.getLast?_reverse, List.head?_reverse, List.isChain_reverse] at hlineage
  rw [hlineage]
  constructor
  · rintro ⟨hfirst, hlast, hchain⟩
    exact ⟨hlast, hfirst.trans h.root, hchain⟩
  · rintro ⟨hlast, hfirst, hchain⟩
    exact ⟨hfirst.trans h.root.symm, hlast, hchain⟩

theorem Tree.path_unique (h : d.Tree) (hr : d.Rooted) (hl : d.Path i l) (hl' : d.Path i l') :
    l = l' :=
  List.reverse_injective (((h.path_iff hr).1 hl).1.unique ((h.path_iff hr).1 hl').1)

theorem Tree.exists_path (h : d.Tree) (hr : d.Rooted) {b : ℕ} (hi : i ∈ d.members b) :
    ∃ l, d.Path i l := by
  obtain ⟨l, hl, hlast⟩ := Forest.exists_lineage (hr.ownerRef_root h.registry) (h.owners hi)
  refine ⟨l.reverse, (h.path_iff hr).2 ⟨?_, ?_⟩⟩
  · rwa [List.reverse_reverse]
  · rwa [List.head?_reverse]

/-- Every member of a block has one path. -/
theorem existsUnique_path (h : (control K).Reach d) {b : ℕ} (hi : i ∈ d.members b) :
    ∃! l, d.Path i l := by
  have ht := reach_tree h
  have hr := reach_rooted h
  obtain ⟨l, hl⟩ := ht.exists_path hr hi
  exact ⟨l, hl, fun l' hl' => ht.path_unique hr hl' hl⟩

end Device

/-- The loop of `GetPath` climbs to the owners. It stops at the root block, and where there is no
owner. -/
theorem pathUp_eq (h : d.Registry) (hr : d.Rooted) (hi : i < d.objects.length) (n : ℕ) :
    pathUp d n (some i) =
      (Forest.climb d.ownerRef n i).map fun j => ((d.obj j).ono, (d.obj j).role) := by
  induction n generalizing i with
  | zero => rfl
  | succ n ih =>
    rw [pathUp, Forest.climb, List.map_cons]
    by_cases hstop : (d.obj i).ono = 100 ∨ (d.obj i).ownerOno = 0
    · have hzero : (d.obj i).ownerOno = 0 := by
        rcases hstop with hroot | hzero
        · have hge := h.length_ge
          rw [h.eq_of_ono hi (show 2 < d.objects.length by omega)
            (hroot.trans (h.ono 2 (by omega)).symm)]
          exact hr 2 (by decide)
        · exact hzero
      rw [if_pos hstop, h.ownerRef_of_zero hzero]
      rfl
    · rw [if_neg hstop]
      cases howner : d.ownerRef i with
      | none =>
        rw [ownerRef] at howner
        rw [howner]
        cases n <;> rfl
      | some j =>
        rw [ownerRef] at howner
        rw [howner, ih (find_lt howner)]
        rfl

/-! ### The response -/

/-- The fields begin with the count. -/
theorem pathFields_inj {n n' : UInt16}
    (h : Field.encodeAll (d.pathFields n l) = Field.encodeAll (d.pathFields n' l')) : n = n' := by
  have htake (n : UInt16) (l : List ℕ) :
      (Field.encodeAll (d.pathFields n l)).take 2 = wr16 n := by
    simp [pathFields, Field.encodeAll, Field.encode, Field.pieces]
  have hcount : wr16 n = wr16 n' := by rw [← htake n l, h, htake]
  rw [← rd16_wr16 n, hcount, rd16_wr16]

section Response

variable {room conn : ℕ} {cmd : Command} {rd : Reader}

/-- `GetPath` answers with the objects that the loop has passed, in reverse. -/
theorem response_getPath (h : d.Registry) (hr : d.Rooted) (hf : d.find cmd.target = some i)
    (hk : (d.obj i).kind = .grouper) (hlevel : cmd.level = 2) (hindex : cmd.index = 4)
    (hfit : (answer room conn cmd rd d).overflow = false) :
    (answer room conn cmd rd d).response = ⟨cmd.handle, .ok, 2, Field.encodeAll
      (d.pathFields (UInt16.ofNat (Forest.climb d.ownerRef 16 i).length)
        (Forest.climb d.ownerRef 16 i).reverse)⟩ := by
  refine response_of_reply hf (fun c hc => ?_) hfit
  have hkind : (({ d with activeConn := some conn } : Device K).obj i).kind = .grouper := hk
  have hquery : methodIsWrite (({ d with activeConn := some conn } : Device K).obj i).kind 2 4 =
      false := by
    rw [hkind]
    rfl
  have hh : handlerFor (({ d with activeConn := some conn } : Device K).obj i).kind 2 =
      some (agentDispatch (K := K)) := by
    rw [hkind]
    rfl
  -- the loop does not look at the active connection
  have hloop := pathUp_eq (d := { d with activeConn := some conn })
    (h.congr rfl (fun _ _ => rfl) rfl) hr (find_lt hf) 16
  rw [hlevel, hindex, objectDispatch_of_handler hh (gate_of_query hquery) hc, agentDispatch, look,
    hc]
  dsimp only
  rw [hloop, ← List.map_reverse, List.length_map, List.length_reverse, List.map_map, List.map_map]
  rfl

variable (h : (control K).Reach d) (hf : d.find cmd.target = some i)
  (hk : (d.obj i).kind = .grouper) (hlevel : cmd.level = 2) (hindex : cmd.index = 4)
  (hfit : (answer room conn cmd rd d).overflow = false)
include h hf hk hlevel hindex hfit

/-- A path that is shown is not longer than the arrays of the method. -/
theorem length_le_of_showsPath (hshows : d.ShowsPath i (answer room conn cmd rd d).response)
    (hl : d.Path i l) : l.length ≤ 16 := by
  have ht := reach_tree h
  have hr := reach_rooted h
  rw [response_getPath ht.registry hr hf hk hlevel hindex hfit] at hshows
  obtain ⟨-, -, n, l', hl', hn, hparams⟩ := hshows
  obtain rfl := ht.path_unique hr hl' hl
  have hclimb := ((ht.path_iff hr).1 hl).1.climb_eq 16
  -- the count in the response is that of the objects passed, the one shown that of the whole path
  have hlen : (Forest.climb d.ownerRef 16 i).length = min 16 l'.length := by
    rw [hclimb, List.length_take, List.length_reverse]
  rw [← hn, ← pathFields_inj hparams, hlen, UInt16.toNat_ofNat_of_lt' (lt_of_le_of_lt
    (min_le_left 16 _) (by decide))]
  exact min_le_left 16 _

/-- A path that fits the arrays of the method is shown. -/
theorem showsPath_of_length_le (hl : d.Path i l) (hle : l.length ≤ 16) :
    d.ShowsPath i (answer room conn cmd rd d).response := by
  have ht := reach_tree h
  have hr := reach_rooted h
  have hclimb : Forest.climb d.ownerRef 16 i = l.reverse := by
    rw [((ht.path_iff hr).1 hl).1.climb_eq, List.take_of_length_le]
    rwa [List.length_reverse]
  rw [response_getPath ht.registry hr hf hk hlevel hindex hfit, hclimb, List.reverse_reverse,
    List.length_reverse]
  exact ⟨rfl, rfl, _, l, hl, UInt16.toNat_ofNat_of_lt' (lt_of_le_of_lt hle (by decide)), rfl⟩

/-- **`GetPath` shows the whole path** of an agent exactly when the path has at most sixteen
objects. -/
theorem showsPath_iff : d.ShowsPath i (answer room conn cmd rd d).response ↔
    ∃ l, d.Path i l ∧ l.length ≤ 16 := by
  constructor
  · intro hshows
    obtain ⟨-, -, n, l, hl, -⟩ := id hshows
    exact ⟨l, hl, length_le_of_showsPath h hf hk hlevel hindex hfit hshows hl⟩
  · rintro ⟨l, hl, hle⟩
    exact showsPath_of_length_le h hf hk hlevel hindex hfit hl hle

end Response

namespace Sample

/-- Blocks in blocks: object 3 is in the root block, and each further block in the one before. -/
def nest : ℕ → Device .default
  | 0 => start
  | n + 1 => (nest n).create .block (some (n + 2)) (ascii "block")

/-- A grouper in the innermost of `n` blocks. -/
def agentIn (n : ℕ) : Device .default :=
  (nest n).create (.grouper .mute) (some (n + 2)) (ascii "agent")

theorem parent_nest : ∀ n < 16, n + 2 < (nest n).objects.length ∧
    ((nest n).obj (n + 2)).kind = .block := by decide +kernel

theorem reach_nest {n : ℕ} (hn : n < 16) : (control .default).Reach (nest n) := by
  induction n with
  | zero => exact reach_control reach_start
  | succ n ih =>
    refine reach_action (.create .block (some (n + 2)) (ascii "block"))
      (ih (Nat.lt_of_succ_lt hn)) fun b hb => ?_
    obtain rfl := Option.some.inj hb
    exact parent_nest n (Nat.lt_of_succ_lt hn)

theorem reach_agentIn {n : ℕ} (hn : n < 16) : (control .default).Reach (agentIn n) := by
  refine reach_action (.create (.grouper .mute) (some (n + 2)) (ascii "agent")) (reach_nest hn)
    fun b hb => ?_
  obtain rfl := Option.some.inj hb
  exact parent_nest n hn

/-- The request of the path of the agent in `n` blocks. -/
def getPath (n : ℕ) : Command := ⟨7, onoAt (n + 3), 2, 4, 0, []⟩

/-- The response to it. -/
def pathOf (n : ℕ) : Answer .default :=
  answer 2048 0 (getPath n) (Reader.ofBytes []) (agentIn n)

theorem path_agentIn : (agentIn 1).Path 4 [2, 3, 4] where
  first := rfl
  last := rfl
  chain := by
    simp only [List.isChain_cons_cons, List.isChain_singleton, Owner, and_true]
    decide +kernel

/-- An agent in one block shows the root block, the block, and itself. -/
theorem showsPath_agentIn : (agentIn 1).ShowsPath 4 (pathOf 1).response :=
  (showsPath_iff (reach_agentIn (by decide)) (by decide +kernel) (by decide +kernel) rfl rfl
    (by decide +kernel)).2 ⟨_, path_agentIn, by decide⟩

theorem path_deep : (agentIn 15).Path 18
    [2, 3, 4, 5, 6, 7, 8, 9, 10, 11, 12, 13, 14, 15, 16, 17, 18] where
  first := rfl
  last := rfl
  chain := by
    simp only [List.isChain_cons_cons, List.isChain_singleton, Owner, and_true]
    decide +kernel

/-- In fifteen blocks the agent is seventeen objects away, and the root block is cut off. -/
theorem not_showsPath_deep : (control .default).Reach (agentIn 15) ∧
    (agentIn 15).find (getPath 15).target = some 18 ∧ ((agentIn 15).obj 18).kind = .grouper ∧
    (getPath 15).level = 2 ∧ (getPath 15).index = 4 ∧ (pathOf 15).overflow = false ∧
    ¬(agentIn 15).ShowsPath 18 (pathOf 15).response := by
  have hreach : (control .default).Reach (agentIn 15) := reach_agentIn (by decide)
  have hfind : (agentIn 15).find (getPath 15).target = some 18 := by decide +kernel
  have hkind : ((agentIn 15).obj 18).kind = .grouper := by decide +kernel
  have hfit : (pathOf 15).overflow = false := by decide +kernel
  refine ⟨hreach, hfind, hkind, rfl, rfl, hfit, fun hshows => ?_⟩
  have hle := length_le_of_showsPath hreach hfind hkind rfl rfl hfit hshows path_deep
  exact absurd hle (by decide)

end Sample

end Aes70
