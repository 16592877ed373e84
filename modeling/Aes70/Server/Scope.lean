import Aes70.Server.Fanout

/-!
# How far a recall reaches

A snapshot holds the values of the members of a block. A recall of the same block does not look at
its members: an entry is applied to whatever object of the device has its number.

* `Device.Scope d b i` : object `i` is a member of `b` that a snapshot holds, or enrolled under one.
* `Device.ReachesBy d e i` : the entry is applied to object `i`, or copied to it.
* `mem_recallStores_iff` : a recall stores into what its entries reach.
* `announcesOnly_recall` : and announces nothing else.
* `recall_inside_iff` : a recall writes nothing outside its block if and only if no entry reaches
  beyond it.
* `recallsInside_of_members` : in particular if its entries name members of the block.
-/

namespace Aes70

open Device Handler

variable {K : Kconfig}

/-! ### Entries that reach an object -/

/-- The entry is applied to object `t`. -/
def Device.Names (d : Device K) (e : UInt32 × F64) (t : ObjRef) : Prop :=
  ∃ p, recallTarget d e.1 = some (t, p)

/-- The entry is applied to object `i`, or to an object that enrols it. -/
def Device.ReachesBy (d : Device K) (e : UInt32 × F64) (i : ObjRef) : Prop :=
  ∃ t, d.Names e t ∧ (t = i ∨ d.Enrols t i)

/-- What entries are applied to is of a class that snapshots hold. -/
theorem Device.Names.holds {d : Device K} {e : UInt32 × F64} {t : ObjRef} (h : d.Names e t) :
    isParamKind (d.obj t).kind = true ∧ (primaryProperty (d.obj t).kind).isSome = true := by
  obtain ⟨p, hp⟩ := h
  obtain ⟨-, hprimary, hparam⟩ := Device.recallTarget_some hp
  exact ⟨hparam, Option.isSome_iff_exists.2 ⟨p, hprimary⟩⟩

/-- The objects that are stored into are those with a last value. -/
theorem lastWrite_eq_none_iff {ws : List (ObjRef × F64)} {i : ObjRef} :
    lastWrite ws i = none ↔ i ∉ ws.map Prod.fst := by
  simp only [lastWrite, Option.map_eq_none_iff, List.find?_eq_none, List.mem_reverse, beq_iff_eq,
    List.mem_map, not_exists, not_and]

section Entries

variable {d : Device K} {i : ObjRef} {e : UInt32 × F64} {es : List (UInt32 × F64)}
  (hr : d.Registry) (hgrouped : d.Grouped) (hproxied : d.Proxied) (hi : i < d.objects.length)
include hr hgrouped hproxied hi

/-- An entry stores into the objects that it reaches. -/
theorem mem_entryStores_iff : i ∈ (d.entryStores e).map Prod.fst ↔ d.ReachesBy e i := by
  cases hp : recallTarget d e.1 with
  | none =>
    refine iff_of_false ?_ ?_
    · simp only [entryStores, hp, List.map_nil]
      exact List.not_mem_nil
    · rintro ⟨t, ⟨p, ht⟩, -⟩
      cases hp.symm.trans ht
  | some target =>
    obtain ⟨t, p⟩ := target
    have hnames : d.Names e t := ⟨p, hp⟩
    have hcopies : i ∈ d.copies t ↔ d.Enrols t i ∧ i ≠ t :=
      mem_copies_iff hr hgrouped hproxied (recallTarget_some hp).1 hi hnames.holds.2
    have hstores : i ∈ (d.entryStores e).map Prod.fst ↔ i = t ∨ i ∈ d.copies t := by
      simp [entryStores, hp, commitWrites]
    rw [hstores, hcopies]
    constructor
    · rintro (rfl | ⟨henrols, -⟩)
      · exact ⟨i, hnames, .inl rfl⟩
      · exact ⟨t, hnames, .inr henrols⟩
    · rintro ⟨t', ⟨p', ht'⟩, hreach⟩
      obtain rfl : t = t' := congrArg Prod.fst (Option.some.inj (hp.symm.trans ht'))
      by_cases hti : i = t
      · exact .inl hti
      · exact .inr ⟨hreach.resolve_left (Ne.symm hti), hti⟩

/-- **A recall stores into the objects that its entries reach.** -/
theorem mem_recallStores_iff :
    i ∈ (d.recallStores es).map Prod.fst ↔ ∃ e ∈ es, d.ReachesBy e i := by
  rw [recallStores, List.map_flatMap, List.mem_flatMap]
  exact exists_congr fun e => and_congr_right fun _ => mem_entryStores_iff hr hgrouped hproxied hi

end Entries

/-! ### Announcements -/

/-- The object that the event announces, to the subscribers or to the application. -/
def Event.announces : Event → Option ObjRef
  | .propertyChanged i _ _ _ _ => some i
  | .controlChanged i _ => some i
  | _ => none

/-- From `d` to `d'` objects of `S` are announced, and no others. -/
def AnnouncesOnly (S : ObjRef → Prop) (d d' : Device K) : Prop :=
  Log.Grows (fun e => ∀ i, e.announces = some i → S i) d.log d'.log

section Announcements

variable {S : ObjRef → Prop} {d : Device K} {i : ObjRef}

theorem announcesOnly_notify (hS : S i) (level index : UInt16) :
    AnnouncesOnly S d (d.notify i level index) := by
  refine Device.grows_notify (fun _ _ _ _ _ h => by cases h) fun j hj => ?_
  obtain rfl := Option.some.inj hj
  exact hS

theorem announcesOnly_controlChanged (hS : S i) : AnnouncesOnly S d (d.controlChanged i) := by
  unfold Device.controlChanged
  split_ifs
  · refine .concat (fun j hj => ?_) d.log
    obtain rfl := Option.some.inj hj
    exact hS
  · exact .refl d.log

theorem announcesOnly_store (hS : S i) (f : Obj → Obj) (level index : UInt16) :
    AnnouncesOnly S d (((d.modifyObj i f).notify i level index).controlChanged i) := by
  have hnotify := announcesOnly_notify (d := d.modifyObj i f) hS level index
  exact hnotify.trans (announcesOnly_controlChanged hS)

/-- The copies of a commit are announced. -/
theorem announcesOnly_grouperOnCommit (hS : ∀ c ∈ d.copies i, S c) :
    AnnouncesOnly S d (d.grouperOnCommit i) := by
  unfold Device.grouperOnCommit
  split
  · next level index hp =>
    have hcopies : d.copies i = d.fanTargets i := by rw [copies, if_pos (by rw [hp]; rfl)]
    rw [hcopies] at hS
    exact List.foldlRecOn (motive := AnnouncesOnly S d) _ _ (.refl d.log) fun d' hd c hc =>
      hd.trans (announcesOnly_store (hS c hc) _ level index)
  · exact .refl d.log

/-- A commit announces its object, and the copies. -/
theorem announcesOnly_commitNum (hS : S i) (hcopies : ∀ c ∈ d.copies i, S c) (v : F64)
    (level index : UInt16) : AnnouncesOnly S d (d.commitNum i v level index true) := by
  have hcore : (((d.modifyObj i fun o => { o with num := v }).notify i level
      index).controlChanged i).core = (d.writeNum (i, v)).core := by
    rw [core_controlChanged, core_notify]
    rfl
  have hsame := copies_eq_of_shape ((shape_eq_of_core hcore).trans (shape_writeNum d (i, v))) i
  have hstore := announcesOnly_store (d := d) hS (fun o => { o with num := v }) level index
  exact hstore.trans (announcesOnly_grouperOnCommit (hsame ▸ hcopies))

/-- **A recall announces** the objects that it stores into, and no others. -/
theorem announcesOnly_recall {es : List (UInt32 × F64)}
    (hS : ∀ i ∈ (d.recallStores es).map Prod.fst, S i) : AnnouncesOnly S d (d.recall es) := by
  induction es generalizing d with
  | nil => exact .refl d.log
  | cons e es ih =>
    have hsplit : d.recallStores (e :: es) = d.entryStores e ++ d.recallStores es :=
      List.flatMap_cons
    rw [hsplit, List.map_append] at hS
    have hone : AnnouncesOnly S d (applyEntry d e.1 e.2) := by
      unfold applyEntry
      split
      · next t level index hp =>
        have hstores : (d.entryStores e).map Prod.fst = t :: d.copies t := by
          simp [entryStores, hp, commitWrites, Function.comp_def]
        rw [hstores] at hS
        refine announcesOnly_commitNum (hS t (by simp)) (fun c hc => ?_) _ level index
        exact hS c (List.mem_append_left _ (List.mem_cons_of_mem t hc))
      · exact .refl d.log
    -- behind the entry the others are applied to the same objects
    have hshape : (applyEntry d e.1 e.2).shape = d.shape :=
      (shape_eq_of_core (core_applyEntry d e)).trans (shape_writeNums d _)
    have hstores : (applyEntry d e.1 e.2).recallStores es = d.recallStores es :=
      List.flatMap_congr fun e' _ => entryStores_eq_of_shape hshape e'
    refine hone.trans (ih fun i hi => ?_)
    rw [hstores] at hi
    exact hS i (List.mem_append_right _ hi)

end Announcements

/-! ### The scope of a block -/

/-- Object `i` is a transitive member of block `b` of a class that snapshots hold, or enrolled under
such a member. -/
def Device.Scope (d : Device K) (b i : ObjRef) : Prop :=
  ∃ q, Relation.TransGen (Forest.Child d.members) b q ∧ isParamKind (d.obj q).kind = true ∧
    (q = i ∨ d.Enrols q i)

/-- The operation writes nothing outside the scope of the block: an object there keeps whatever
value it holds, and it is not announced. -/
structure WritesInside (d : Device K) (op : Operation) (b : ObjRef) : Prop where
  keeps : ∀ i < d.objects.length, ¬d.Scope b i → ∀ v,
    (op.run (d.writeNum (i, v))).obj i = (d.writeNum (i, v)).obj i
  announces : AnnouncesOnly (fun i => i < d.objects.length → d.Scope b i) d (op.run d)

/-- If the recall is let through, its entries reach objects in the scope of the block only. -/
def Device.RecallsInside (d : Device K) (conn : ℕ) (rd : Reader) (b : ObjRef) : Prop :=
  ({ d with activeConn := some conn } : Device K).gate b 3 26 = none →
    ∀ es truncated, recallParams rd = some (es, truncated) →
      ∀ e ∈ es, ∀ i < d.objects.length, d.ReachesBy e i → d.Scope b i

section Recalls

variable {d : Device K} {conn : ℕ} {cmd : Command} {rd : Reader} {b : ObjRef}

/-- A recall runs its entries if it is let through and can be read, and leaves the device alone
otherwise. -/
theorem dev_execRecall (conn : ℕ) {cl : Call K} (hf : cl.dev.find cmd.target = some b)
    (hk : (cl.dev.obj b).kind = .block) (hm : cmd.level = 3 ∧ cmd.index = 26) :
    ∃ st, (execCommand conn cmd cl).2.dev = Device.emit (if cl.dev.gate b 3 26 = none then
      (cl.dev.recallOutcome (recallParams cl.rd)).2 else cl.dev) (.command conn cmd st) := by
  obtain ⟨hlevel, hindex⟩ := hm
  refine ⟨(objectDispatch b 3 26 cl).1, ?_⟩
  rw [execCommand_of_find hf, hlevel, hindex]
  split_ifs with hg
  · have happly := congrArg Prod.snd (applyParameterData_dev cl)
    rw [← objectDispatch_of_recalls ⟨hk, rfl, rfl, hg⟩ rfl] at happly
    exact congrArg (fun e : Device K => e.emit _) happly
  · obtain ⟨st, hst⟩ := Option.ne_none_iff_exists'.1 hg
    exact congrArg (fun e : Device K => e.emit _) (objectDispatch_of_gate hst rfl)

/-- The gate does not look at values. -/
theorem gate_writeNum (d : Device K) (w : ObjRef × F64) (b : ObjRef) (level index : UInt16) :
    (d.writeNum w).gate b level index = d.gate b level index := by
  have hobj {α : Type} (p : Obj → α) (h : ∀ o, p { o with num := w.2 } = p o) :
      p ((d.writeNum w).obj b) = p (d.obj b) :=
    Device.obj_modifyObj_congr p h d w.1 b
  unfold Device.gate
  dsimp only
  rw [hobj Obj.kind fun _ => rfl, hobj Obj.secured fun _ => rfl, hobj Obj.lockState fun _ => rfl,
    hobj Obj.lockOwner fun _ => rfl]
  rfl

/-- What a recall makes of the value that an object holds. -/
theorem obj_recall_writeNum {i : ObjRef} (hi : i < d.objects.length)
    (hf : d.find cmd.target = some b) (hk : (d.obj b).kind = .block)
    (hm : cmd.level = 3 ∧ cmd.index = 26) (v : F64) :
    ((Operation.command conn cmd rd).run (d.writeNum (i, v))).obj i = { d.obj i with num :=
      if (({ d with activeConn := some conn } : Device K).gate b 3 26) = none then
        (lastWrite (d.recallStores (((recallParams rd).map Prod.fst).getD [])) i).getD v
      else v } := by
  let e := d.writeNum (i, v)
  let cl : Call K := ⟨{ e with activeConn := some conn }, rd, .init K.txBufferSize, 0⟩
  have hshape : e.shape = d.shape := shape_writeNum d (i, v)
  have hlen : i < e.objects.length := by
    change i < (d.modifyObj i _).objects.length
    rwa [length_modifyObj]
  have hfind : cl.dev.find cmd.target = some b := by
    change e.find cmd.target = some b
    rw [← find_shape, hshape, find_shape]
    exact hf
  have hkind : (cl.dev.obj b).kind = .block :=
    (Device.obj_modifyObj_congr Obj.kind (fun _ => by rfl) d i b).trans hk
  have hgate : cl.dev.gate b 3 26 = ({ d with activeConn := some conn } : Device K).gate b 3 26 :=
    gate_writeNum { d with activeConn := some conn } (i, v) b 3 26
  have hobj : e.obj i = { d.obj i with num := v } := (obj_writeNum hi).trans (if_pos rfl)
  obtain ⟨st, hdev⟩ := dev_execRecall conn hfind hkind hm
  change (execCommand conn cmd cl).2.dev.obj i = _
  rw [hdev, hgate]
  split_ifs
  · cases hes : recallParams rd with
    | none => exact hobj
    | some p =>
      obtain ⟨es, truncated⟩ := p
      have hstores : cl.dev.recallStores es = d.recallStores es :=
        List.flatMap_congr fun e' _ => entryStores_eq_of_shape hshape e'
      change (cl.dev.recall es).obj i = _
      have hlen' : i < cl.dev.objects.length := hlen
      rw [obj_eq_of_core (core_recall _ es), obj_writeNums _ _ hlen', hstores]
      have hobj' : cl.dev.obj i = { d.obj i with num := v } := hobj
      rw [hobj']
      rfl
  · exact hobj

/-- **A recall stays inside its block** if and only if none of its entries reaches beyond it. -/
theorem recall_inside_iff (h : (control K).Reach d) (hf : d.find cmd.target = some b)
    (hk : (d.obj b).kind = .block) (hm : cmd.level = 3 ∧ cmd.index = 26) :
    WritesInside d (.command conn cmd rd) b ↔ d.RecallsInside conn rd b := by
  have hmem {i : ObjRef} (hi : i < d.objects.length) (es : List (UInt32 × F64)) :
      i ∈ (d.recallStores es).map Prod.fst ↔ ∃ e ∈ es, d.ReachesBy e i :=
    mem_recallStores_iff (reach_tree h).registry (grouped_of_reach h) (proxied_of_reach h) hi
  constructor
  · rintro ⟨hkeeps, -⟩ hg es truncated hes e he i hi hreach
    by_contra hout
    -- the value that the last store leaves is the same whatever the object held
    have hlast : lastWrite (d.recallStores es) i ≠ none := by
      rw [Ne, lastWrite_eq_none_iff, not_not, hmem hi]
      exact ⟨e, he, hreach⟩
    obtain ⟨v, hv⟩ := Option.ne_none_iff_exists'.1 hlast
    have hheld (x : F64) : x = v := by
      have hsame := hkeeps i hi hout x
      rw [obj_recall_writeNum hi hf hk hm, if_pos hg, hes] at hsame
      have hnum := congrArg Obj.num hsame
      rw [obj_writeNum hi, if_pos rfl] at hnum
      change (lastWrite (d.recallStores es) i).getD x = x at hnum
      rw [hv] at hnum
      exact hnum.symm
    have hne : (.zero : F64) ≠ .ofNat 1 := by decide
    exact hne ((hheld _).trans (hheld _).symm)
  · intro hinside
    refine ⟨fun i hi hout v => ?_, ?_⟩
    · have hobj : (d.writeNum (i, v)).obj i = { d.obj i with num := v } :=
        (obj_writeNum hi).trans (if_pos rfl)
      rw [obj_recall_writeNum hi hf hk hm, hobj]
      split_ifs with hg
      · cases hes : recallParams rd with
        | none => rfl
        | some p =>
          obtain ⟨es, truncated⟩ := p
          have hnone : lastWrite (d.recallStores es) i = none := by
            rw [lastWrite_eq_none_iff, hmem hi]
            rintro ⟨e, he, hreach⟩
            exact hout (hinside hg es truncated hes e he i hi hreach)
          change { d.obj i with num := (lastWrite (d.recallStores es) i).getD v } = _
          rw [hnone]
          rfl
      · rfl
    · let cl : Call K := ⟨{ d with activeConn := some conn }, rd, .init K.txBufferSize, 0⟩
      have hfind : cl.dev.find cmd.target = some b := hf
      obtain ⟨st, hdev⟩ := dev_execRecall conn hfind hk hm
      have hrecord (e : Device K) : AnnouncesOnly (fun i => i < d.objects.length → d.Scope b i)
          e (e.emit (.command conn cmd st)) := .concat (fun _ hi => by cases hi) e.log
      change AnnouncesOnly _ cl.dev (execCommand conn cmd cl).2.dev
      rw [hdev]
      refine Log.Grows.trans ?_ (hrecord _)
      split_ifs with hg
      · cases hes : recallParams cl.rd with
        | none => exact .refl _
        | some p =>
          obtain ⟨es, truncated⟩ := p
          refine announcesOnly_recall fun i hmemi hi => ?_
          obtain ⟨e, he, hreach⟩ := (hmem hi es).1 hmemi
          exact hinside hg es truncated hes e he i hi hreach
      · exact .refl _

/-- A recall whose entries name members of the block stays inside. -/
theorem recallsInside_of_members (h : ∀ es truncated, recallParams rd = some (es, truncated) →
    ∀ e ∈ es, ∀ t, d.Names e t → Relation.TransGen (Forest.Child d.members) b t) :
    d.RecallsInside conn rd b := by
  rintro - es truncated hes e he i - ⟨t, hnames, ht⟩
  exact ⟨t, h es truncated hes e he t hnames, hnames.holds.1, ht⟩

end Recalls

namespace Sample

/-- The sample device with a block, object 3, a mute in the block, and a mute, object 5 with the
number 4098, that is not in the block. -/
def apart : Device .default := after [.create .block none (ascii "channel"),
  .create (.mute false) (some 3) (ascii "mute"), .create (.mute false) none (ascii "other")]

theorem reach_apart : (server .default).Reach apart := by
  have hrun : (server .default).Run start [.create .block none (ascii "channel"),
      .create (.mute false) (some 3) (ascii "mute"), .create (.mute false) none (ascii "other")]
      apart := .cons ok_create (.cons (fun b hb => ?_) (.cons ok_create (.nil _)))
  · exact reach_start.run hrun
  · obtain rfl := Option.some.inj hb
    decide

/-- A recall of the block with the value 1 for one mute. -/
def recallMember (ono : UInt8) : Command :=
  ⟨1, 4096, 3, 26, 1, [0, 0, 0, 14, 0, 1, 0, 0, 0x10, ono, 0x3F, 0xF0, 0, 0, 0, 0, 0, 0]⟩

/-- The operation that carries it. -/
def recalled (ono : UInt8) : Operation :=
  .command 0 (recallMember ono) (Reader.ofBytes (recallMember ono).params)

/-- The mute of the block is in its scope, so the recall stays inside. -/
theorem inside_apart : (((recalled 1).run apart).obj 4).num ≠ (apart.obj 4).num ∧
    WritesInside apart (recalled 1) 3 := by
  refine ⟨by decide, (@recall_inside_iff _ _ 0 (recallMember 1) _ _ (reach_control reach_apart)
    (by decide) (by decide) ⟨rfl, rfl⟩).2 (recallsInside_of_members ?_)⟩
  have hparams : recallParams (Reader.ofBytes (recallMember 1).params) =
      some ([(4097, .ofNat 1)], false) := by decide
  rintro es truncated hes e he t ⟨p, hp⟩
  obtain ⟨rfl, rfl⟩ := Prod.mk.inj (Option.some.inj (hparams.symm.trans hes))
  obtain rfl := List.mem_singleton.1 he
  have htarget : recallTarget apart 4097 = some (4, 4, 1) := by decide
  obtain ⟨rfl, -⟩ := Prod.mk.inj (Option.some.inj (htarget.symm.trans hp))
  exact .single (show 4 ∈ apart.members 3 by decide)

/-- The other mute is not. -/
theorem not_scope_apart : ¬apart.Scope 3 5 := by
  have hmembers : apart.members 3 = [4] ∧ apart.members 4 = [] := by decide
  have honly {q : ObjRef} (hq : Relation.TransGen (Forest.Child apart.members) 3 q) : q = 4 := by
    induction hq with
    | single h => simpa [Forest.Child, hmembers.1] using h
    | tail _ h ih =>
      subst ih
      simp [Forest.Child, hmembers.2] at h
  have hplain : ∀ k < 6, (apart.obj k).kind ≠ .grouper := by decide
  rintro ⟨q, hq, -, hreaches⟩
  obtain rfl := honly hq
  obtain h | ⟨k, gi, ⟨hk, g, hg, -⟩, -⟩ := hreaches
  · cases h
  · have hlt : k < apart.objects.length := lt_of_kind (by rw [hk]; decide)
    exact hplain k hlt hk

/-- The recall of the block changes it. -/
theorem not_inside_apart : (control .default).Reach apart ∧ ¬apart.Scope 3 5 ∧
    (((recalled 2).run apart).obj 5).num ≠ (apart.obj 5).num ∧
      ¬WritesInside apart (recalled 2) 3 := by
  refine ⟨reach_control reach_apart, not_scope_apart, by decide, fun hinside => ?_⟩
  have hkept := hinside.keeps 5 (by decide) not_scope_apart (apart.obj 5).num
  have hchanged : (((recalled 2).run (apart.writeNum (5, (apart.obj 5).num))).obj 5).num ≠
      ((apart.writeNum (5, (apart.obj 5).num)).obj 5).num := by decide
  exact hchanged (congrArg Obj.num hkept)

end Sample

end Aes70
