import Aes70.Device.Mirror
import Aes70.Server.Snapshot
import Aes70.Server.Grouper

/-!
# What a write to a group's proxy does

The grouper copies a committed value to every citizen enrolled under the object, whatever the
groups, and copies are no commits. So the result can be said without a loop: the citizens have the
value of the proxy and were announced with it, and everything else is as it was.

* `Raised` : an object was announced, to the subscribers and to the application, with this value.
* `Raised.events` : what the log says of it.
* `raised_commitNum` : a commit raises every copy it makes.
* `Device.Enrols d j c` : object `c` is a citizen of a group with the proxy `j`.
* `mem_copies_iff` : in every state, the copies of `j` are the other objects it enrols.
* `proxy_fans_out` : what an accepted write to a proxy does.
-/

namespace Aes70

open Device Handler

variable {K : Kconfig}

/-! ### Raising -/

/-- On the way from `d` to `d'` the property of object `c` was notified and the application was
called about it, at a point where the value was `v` already. -/
def Raised (d d' : Device K) (c : ObjRef) (level index : UInt16) (v : F64) : Prop :=
  ∃ e : Device K, (e.obj c).num = v ∧ e.subs = d.subs ∧
    e.notificationsDisabled = d.notificationsDisabled ∧ e.cfg = d.cfg ∧ d.log <+: e.log ∧
      ((e.notify c level index).controlChanged c).log <+: d'.log

section Raising

variable {d d' d₁ d₂ : Device K} {c w : ObjRef} {level index : UInt16} {v : F64}

theorem Raised.mono (h : Raised d₁ d₂ c level index v) (hshape : d₁.shape = d.shape)
    (hlog : d.log <+: d₁.log) (hlog' : d₂.log <+: d'.log) : Raised d d' c level index v := by
  obtain ⟨e, hnum, hsubs, hoff, hcfg, hprefix, hprefix'⟩ := h
  have hsubs' : d₁.subs = d.subs := by
    have := congrArg Device.subs hshape
    exact this
  have hoff' : d₁.notificationsDisabled = d.notificationsDisabled := by
    have := congrArg Device.notificationsDisabled hshape
    exact this
  have hcfg' : d₁.cfg = d.cfg := by
    have := congrArg Device.cfg hshape
    exact this
  exact ⟨e, hnum, hsubs.trans hsubs', hoff.trans hoff', hcfg.trans hcfg', hlog.trans hprefix,
    hprefix'.trans hlog'⟩

/-- **An object that was raised** is found in the log with its value: notified, unless notifications
are disabled, and reported to the application, if it wants to be called. -/
theorem Raised.events (h : Raised d d' c level index v) : ∃ (o : Obj) (es : List Event),
    o.num = v ∧ d'.log = d.log ++ es ∧
      (d.notificationsDisabled = false → ∃ sent, .propertyChanged c o level index sent ∈ es) ∧
        (d.cfg.onControlChanged = true → .controlChanged c o ∈ es) := by
  obtain ⟨e, hnum, -, hoff, hcfg, ⟨before, hbefore⟩, ⟨after, hafter⟩⟩ := h
  obtain ⟨sends, hsends⟩ := (outputs_notifyAll e c level index).log_grows
  obtain ⟨ns, hnotify, hnotified⟩ : ∃ ns, (e.notify c level index).log = e.log ++ ns ∧
      (d.notificationsDisabled = false →
        ∃ sent, .propertyChanged c (e.obj c) level index sent ∈ ns) := by
    rw [notify_eq, hoff]
    split_ifs with hdisabled
    · exact ⟨[], (List.append_nil _).symm, fun hon => by rw [hon] at hdisabled; cases hdisabled⟩
    · refine ⟨sends ++ [.propertyChanged c (e.obj c) level index (e.notifyAll c level index).2], ?_,
        fun _ => ⟨_, List.mem_append_right _ (List.mem_singleton_self _)⟩⟩
      rw [← List.append_assoc, hsends]
      rfl
  have hobj : (e.notify c level index).obj c = e.obj c :=
    obj_eq_of_core (core_notify e c level index) c
  have hcfg' : (e.notify c level index).cfg = d.cfg := by
    have := congrArg Device.cfg (core_notify e c level index)
    exact Eq.trans this hcfg
  obtain ⟨cs, hcall, hcalled⟩ : ∃ cs, ((e.notify c level index).controlChanged c).log =
      (e.notify c level index).log ++ cs ∧
      (d.cfg.onControlChanged = true → .controlChanged c (e.obj c) ∈ cs) := by
    unfold controlChanged
    rw [hcfg', hobj]
    split_ifs with hcallback
    · exact ⟨[.controlChanged c (e.obj c)], rfl, fun _ => List.mem_singleton_self _⟩
    · exact ⟨[], (List.append_nil _).symm, fun hon => absurd hon hcallback⟩
  refine ⟨e.obj c, before ++ ns ++ cs ++ after, hnum, ?_, fun hon => ?_, fun hon => ?_⟩
  · rw [← hafter, hcall, hnotify, ← hbefore]
    simp only [List.append_assoc]
  · obtain ⟨sent, hsent⟩ := hnotified hon
    exact ⟨sent, by simp [hsent]⟩
  · have hmem := hcalled hon
    simp [hmem]

theorem outputs_copyToCitizen (w : ObjRef) (level index : UInt16) (d : Device K) (c : ObjRef) :
    Outputs d (copyToCitizen w level index d c) :=
  ((outputs_modifyObj d c _).trans (outputs_notify _ c level index)).trans
    (outputs_controlChanged _ c)

/-- Every copy is raised. -/
theorem raised_foldl {l : List ObjRef} (hc : c ∈ l)
    (hl : ∀ a ∈ l, a < d.objects.length ∧ a ≠ w) :
    Raised d (l.foldl (copyToCitizen w level index) d) c level index (d.obj w).num := by
  induction l generalizing d with
  | nil => exact absurd hc List.not_mem_nil
  | cons a l ih =>
    have hcore := core_copyToCitizen w level index d a
    have hgrows (l : List ObjRef) (d : Device K) :
        Outputs d (l.foldl (copyToCitizen w level index) d) :=
      commitOrder_outputs.foldl (outputs_copyToCitizen w level index) l d
    rw [List.foldl_cons]
    by_cases hca : c = a
    · -- the copy itself
      subst hca
      refine ⟨d.modifyObj c fun o => { o with num := (d.obj w).num }, ?_, rfl, rfl, rfl,
        List.prefix_rfl, (hgrows l _).log_grows⟩
      rw [obj_modifyObj_self (hl c List.mem_cons_self).1]
    · have hnum : ((copyToCitizen w level index d a).obj w).num = (d.obj w).num := by
        rw [obj_eq_of_core hcore, writeNum, obj_modifyObj_ne (hl a List.mem_cons_self).2]
      have hlen : (copyToCitizen w level index d a).objects.length = d.objects.length := by
        rw [objects_eq_of_core hcore, writeNum, length_modifyObj]
      have hrest := ih (d := copyToCitizen w level index d a)
        ((List.mem_cons.1 hc).resolve_left hca)
        fun b hb => hlen ▸ hl b (List.mem_cons_of_mem a hb)
      rw [hnum] at hrest
      exact hrest.mono ((shape_eq_of_core hcore).trans (shape_writeNum d _))
        (outputs_copyToCitizen w level index d a).log_grows List.prefix_rfl

/-- **A commit raises every copy it makes.** -/
theorem raised_commitNum {i : ObjRef} (hi : i < d.objects.length) (hc : c ∈ d.copies i)
    (hp : primaryProperty (d.obj i).kind = some (level, index)) :
    Raised d (d.commitNum i v level index true) c level index v := by
  have hcore : (((d.modifyObj i fun o => { o with num := v }).notify i level
      index).controlChanged i).core = (d.writeNum (i, v)).core := by
    rw [core_controlChanged, core_notify]
    rfl
  have hlog : Outputs d (((d.modifyObj i fun o => { o with num := v }).notify i level
      index).controlChanged i) :=
    ((outputs_modifyObj d i _).trans (outputs_notify _ i level index)).trans
      (outputs_controlChanged _ i)
  have hcommit : d.commitNum i v level index true =
      (((d.modifyObj i fun o => { o with num := v }).notify i level
        index).controlChanged i).grouperOnCommit i := rfl
  -- behind the store and its announcements the loops find the same targets
  rw [hcommit]
  generalize ((d.modifyObj i fun o => { o with num := v }).notify i level index).controlChanged i
    = e at hcore hlog ⊢
  have hnum : (e.obj i).num = v := by
    rw [obj_eq_of_core hcore, writeNum, obj_modifyObj_self hi]
  have hlen : e.objects.length = d.objects.length := by
    rw [objects_eq_of_core hcore, writeNum, length_modifyObj]
  have hkind : (e.obj i).kind = (d.obj i).kind := by
    rw [obj_eq_of_core hcore, writeNum, obj_modifyObj_self hi]
  have htargets : e.fanTargets i = d.fanTargets i := by
    rw [← fanTargets_shape, shape_eq_of_core hcore, shape_writeNum, fanTargets_shape]
  have hmem : c ∈ d.fanTargets i := by
    rw [copies, hp] at hc
    exact hc
  have hcopies : e.grouperOnCommit i = (d.fanTargets i).foldl (copyToCitizen i level index) e := by
    unfold grouperOnCommit
    rw [hkind, hp, ← htargets]
  have hraised : Raised e (e.grouperOnCommit i) c level index (e.obj i).num := by
    rw [hcopies]
    refine raised_foldl hmem fun a ha => ?_
    have htarget := mem_fanTargets ha
    exact ⟨hlen ▸ htarget.1, htarget.2.2⟩
  rw [hnum] at hraised
  exact hraised.mono ((shape_eq_of_core hcore).trans (shape_writeNum d _)) hlog.log_grows
    List.prefix_rfl

end Raising

/-! ### Proxies -/

section Proxies

variable {d : Device K} {i j c : ObjRef} {kind : Kind} {γ : Groups}

/-- The proxies of the groups are objects of this kind. -/
def Device.Proxies (d : Device K) (kind : Kind) (γ : Groups) : Prop :=
  ∀ s name ono, γ.groups s = some (name, ono) →
    ∃ t < d.objects.length, (d.obj t).ono = ono ∧ (d.obj t).kind = kind

/-- No method but AddGroup adds a group. -/
theorem groups_serve (rd : Reader) {idx : UInt16} (hidx : idx ≠ 1) {s : Fin 16}
    {a : Bytes × UInt32} (h : (γ.serve d kind rd idx).left.groups s = some a) :
    γ.groups s = some a := by
  revert h
  refine serve_left (P := fun γ' => γ'.groups s = some a → γ.groups s = some a) rd idx id
    (fun _ _ hadd => absurd hadd hidx) (fun t h => ?_) (fun _ _ _ _ _ => id) (fun _ => id)
    fun t c on h => ?_
  · change Function.update γ.groups t none s = some a at h
    by_cases hst : s = t
    · rw [hst, Function.update_self] at h
      cases h
    · rwa [Function.update_of_ne hst] at h
  · rwa [(setEnrolled_tables γ t c on).1] at h

/-- The proxy that is allocated is of the kind it is allocated for. -/
theorem kind_of_alloc {parent : Option ObjRef} {role : Bytes} {proxy : ObjRef} {e : Device K}
    (halloc : d.objectAlloc kind parent role = (some proxy, e)) :
    ((e.modifyObj proxy initProxy).obj proxy).kind = kind := by
  obtain ⟨-, hnew, hlen, -⟩ := proxy_of_alloc halloc
  obtain ⟨-, -, he⟩ := objectAlloc_some halloc
  rw [obj_modifyObj_self (by rw [hnew, hlen]; exact Nat.lt_succ_self _)]
  refine (congrArg Prod.snd (initProxy_ident _)).trans ?_
  change (e.obj proxy).kind = kind
  rw [he, obj_blockAddMember (p := Obj.kind) (fun _ _ => by rfl) (fun _ _ => by rfl), hnew]
  simp [registered, obj, Obj.fresh]

/-- The proxy of a group that AddGroup adds is there, and of the right kind. -/
theorem addGroup_proxy {g : GrouperPriv} {cl : Call K} (hi : i < cl.dev.objects.length)
    (hk : g.citizenKind = kind) (hrep : g.Represents γ)
    {s : Fin 16} {name : Bytes} {ono : UInt32}
    (h : (γ.serve cl.dev kind cl.rd 1).left.groups s = some (name, ono)) :
    γ.groups s = some (name, ono) ∨ ∃ t < (addGroup i g cl).2.dev.objects.length,
      ((addGroup i g cl).2.dev.obj t).ono = ono ∧
        ((addGroup i g cl).2.dev.obj t).kind = kind := by
  change (γ.reading (Read.string 40) cl.rd _).left.groups s = _ at h
  rw [hrep.freeGroup] at h
  unfold Groups.reading at h
  cases herr : (Read.string 40 cl.rd).2.err with
  | true =>
    rw [herr] at h
    exact .inl h
  | false =>
    rw [herr] at h
    simp only [Bool.false_eq_true, if_false] at h
    cases hfree : g.freeGroup with
    | none =>
      rw [hfree] at h
      exact .inl h
    | some slot =>
      rw [hfree] at h
      dsimp only at h
      cases halloc : cl.dev.objectAlloc g.citizenKind cl.dev.rootBlock (Read.string 40 cl.rd).1 with
      | mk new e =>
        cases new with
        | none =>
          obtain ⟨hfull, -⟩ := objectAlloc_none halloc
          rw [if_pos hfull] at h
          exact .inl h
        | some proxy =>
          -- the group is put into the free slot, with the number of the new proxy
          obtain ⟨hroom, hnew, hlen, hono⟩ := proxy_of_alloc halloc
          rw [if_neg (Nat.not_le.2 hroom)] at h
          change Function.update γ.groups slot _ s = _ at h
          by_cases hs : s = slot
          · rw [hs, Function.update_self] at h
            obtain ⟨-, rfl⟩ := Prod.mk.inj (Option.some.inj h)
            have hdev : (addGroup i g cl).2.dev = storeGrouper i (g.addGroup slot
                (Read.string 40 cl.rd).1 ((e.modifyObj proxy initProxy).obj proxy).ono)
                  (e.modifyObj proxy initProxy) := by
              have hread : Read.string 40 cl.rd = ((Read.string 40 cl.rd).1,
                  (Read.string 40 cl.rd).2) := rfl
              unfold addGroup
              rw [reading_of_ok hread herr, hfree]
              dsimp only [look]
              rw [halloc]
              rfl
            -- the grouper is stored to last, and the proxy is another object
            have hother (f : Obj → Obj) : ((e.modifyObj proxy initProxy).modifyObj i f).obj proxy =
                (e.modifyObj proxy initProxy).obj proxy :=
              obj_modifyObj_ne (by rw [hnew]; exact hi.ne) f
            rw [hdev]
            unfold storeGrouper
            refine .inr ⟨proxy, ?_, ?_, ?_⟩
            · rw [length_modifyObj, length_modifyObj, hlen, hnew]
              exact Nat.lt_succ_self _
            · rw [hother]
              exact hono
            · rw [hother, kind_of_alloc halloc]
              exact hk
          · rw [Function.update_of_ne hs] at h
            exact .inl h

/-- Every grouper represents a grouping whose proxies are objects of the kind of its citizens. -/
def Device.Proxied (d : Device K) : Prop :=
  ∀ i < d.objects.length, (d.obj i).kind = .grouper →
    ∃ kind γ, (d.obj i).Holds kind γ ∧ d.Proxies kind γ

/-- The proxies of the groups that a step leaves were there before, or are there after it. -/
theorem groups_regroup {a : Action K} (hi : i < d.objects.length) (hk : (d.obj i).kind = .grouper)
    (h : (d.obj i).Holds kind γ) {s : Fin 16} {name : Bytes} {ono : UInt32}
    (hs : (a.regroup d i kind γ).groups s = some (name, ono)) :
    γ.groups s = some (name, ono) ∨ ∃ t < (a.run d).objects.length,
      ((a.run d).obj t).ono = ono ∧ ((a.run d).obj t).kind = kind := by
  cases a with
  | create call parent role => exact .inl hs
  | other d' => exact .inl hs
  | operation op =>
    cases op with
    | set req => exact .inl hs
    | command conn cmd rd =>
      change (if d.OnGroups i conn cmd then (γ.serve d kind rd cmd.index).left
        else γ).groups s = _ at hs
      by_cases hon : d.OnGroups i conn cmd
      · rw [if_pos hon] at hs
        by_cases hadd : cmd.index = 1
        · -- AddGroup
          obtain ⟨hf, hlevel, -, hg⟩ := hon
          obtain ⟨g, hp, hkind, hrep⟩ := h
          rw [hadd] at hs
          -- the only method that puts a group there
          let cl : Call K := ⟨{ d with activeConn := some conn }, rd, .init K.txBufferSize, 0⟩
          have hdispatch : objectDispatch i cmd.level cmd.index cl = addGroup i g cl := by
            rw [hlevel, hadd] at hg ⊢
            have hh : handlerFor (cl.dev.obj i).kind 3 = some (grouperDispatch (K := K)) := by
              change handlerFor (d.obj i).kind 3 = _
              rw [hk]
              rfl
            have hp' : (cl.dev.obj i).priv = .grouper g := hp
            rw [objectDispatch_of_handler hh hg rfl]
            simp only [grouperDispatch, look, hp']
          have hrun : (Action.run d (.operation (.command conn cmd rd))).objects =
              (addGroup i g cl).2.dev.objects := by
            change (execCommand conn cmd cl).2.dev.objects = _
            have hfind : cl.dev.find cmd.target = some i := hf
            rw [execCommand_of_find hfind, hdispatch]
            rfl
          rw [hrun]
          unfold obj
          rw [hrun]
          exact addGroup_proxy hi hkind hrep hs
        · exact .inl (groups_serve rd hadd hs)
      · rw [if_neg hon] at hs
        exact .inl hs

theorem proxied_action {a : Action K} (ha : a.Legal d) (hd : d.Proxied) : (a.run d).Proxied := by
  intro i hi hk
  by_cases hold : i < d.objects.length
  · obtain ⟨-, -, hkind⟩ := (action_changes ha).old hold
    have hk : (d.obj i).kind = .grouper := hkind.symm.trans hk
    obtain ⟨kind, γ, h, hproxies⟩ := hd i hold hk
    refine ⟨kind, a.regroup d i kind γ, holds_action ha hold hk h, fun s name ono hs => ?_⟩
    obtain hs | hnew := groups_regroup hold hk h hs
    · obtain ⟨t, ht, hono, htk⟩ := hproxies s name ono hs
      obtain ⟨hlt, hono', hkind'⟩ := (action_changes ha).old ht
      exact ⟨t, hlt, hono'.trans hono, hkind'.trans htk⟩
    · exact hnew
  · obtain ⟨kind, h⟩ := holds_new ha hi hk (Nat.not_lt.1 hold)
    exact ⟨kind, .empty, h, fun s name ono hs => by cases hs⟩

/-- **Proxies are of the kind of the citizens** in every state. -/
theorem proxied_of_reach (h : (control K).Reach d) : d.Proxied :=
  h.invariant (fun _ hinit _ hi hk => absurd hk (not_grouper_of_init hinit hi))
    fun _ _ _ hd hok => proxied_action hok hd

end Proxies

/-! ### Enrolments -/

/-- Object `c` is enrolled in a group with the proxy `j`. -/
def Device.Enrols (d : Device K) (j c : ObjRef) : Prop :=
  ∃ k gi, d.IsProxy k gi j ∧ ∃ g ci, (d.obj k).priv = .grouper g ∧
    (g.citizens ci).used = true ∧ g.enrolled gi ci = true ∧ (g.citizens ci).ono = (d.obj c).ono

section Enrolments

variable {d : Device K} {j c : ObjRef}

/-- **The copies of a commit** go to the other objects that it enrols. -/
theorem mem_copies_iff (hr : d.Registry) (hgrouped : d.Grouped) (hproxied : d.Proxied)
    (hj : j < d.objects.length) (hc : c < d.objects.length)
    (hp : (primaryProperty (d.obj j).kind).isSome = true) :
    c ∈ d.copies j ↔ d.Enrols j c ∧ c ≠ j := by
  rw [copies, if_pos hp, mem_fanTargets_iff]
  constructor
  · rintro ⟨k, -, gi, hproxy, g, ci, hpriv, ⟨hused, -, henrolled⟩, hfind, -, hne⟩
    exact ⟨⟨k, gi, hproxy, g, ci, hpriv, hused, henrolled, (obj_of_find hfind).symm⟩, hne⟩
  · rintro ⟨⟨k, gi, hproxy, g, ci, hpriv, hused, henrolled, hono⟩, hne⟩
    have hk : k < d.objects.length := lt_of_kind (by rw [hproxy.1]; decide)
    -- the tables represent a grouping, of citizens and proxies of one kind
    obtain ⟨kind, γ, ⟨g₁, hpriv₁, hkind₁, hrep₁⟩, hcitizens⟩ := hgrouped k hk hproxy.1
    obtain ⟨kind', γ', ⟨g₂, hpriv₂, hkind₂, hrep₂⟩, hproxies⟩ := hproxied k hk hproxy.1
    obtain rfl := Priv.grouper.inj (hpriv.symm.trans hpriv₁)
    obtain rfl := Priv.grouper.inj (hpriv.symm.trans hpriv₂)
    obtain ⟨-, g₃, hpriv₃, hgroup, hproxyOno⟩ := id hproxy
    obtain rfl := Priv.grouper.inj (hpriv.symm.trans hpriv₃)
    obtain ⟨t, ht, htono, htkind⟩ := hcitizens ci (g.citizens ci).ono (by
      rw [hrep₁.citizens, hused]
      rfl)
    obtain ⟨u, hu, huono, hukind⟩ := hproxies gi (g.groups gi).name (g.groups gi).proxyOno (by
      rw [hrep₂.groups, hgroup]
      rfl)
    obtain rfl : t = c := hr.eq_of_ono ht hc (htono.trans hono)
    obtain rfl : u = j := hr.eq_of_ono hu hj (huono.trans hproxyOno)
    refine ⟨k, hk, gi, hproxy, g, ci, hpriv, ⟨hused, hrep₁.online ci hused, henrolled⟩, ?_, ?_, hne⟩
    · rw [hono, hr.find_ono hc]
    · rw [htkind, hukind, ← hkind₁, ← hkind₂]

end Enrolments

/-! ### Writes to a proxy -/

/-- The other objects that `j` enrols hold its value and were raised with it, and everything else is
as it was. -/
structure FansOut (d d' : Device K) (j : ObjRef) (level : UInt16) : Prop where
  citizen : ∀ c < d.objects.length, d.Enrols j c → c ≠ j →
    (d'.obj c).num = (d'.obj j).num ∧ Raised d d' c level 1 (d'.obj j).num
  other : ∀ c < d.objects.length, c ≠ j → ¬d.Enrols j c → d'.obj c = d.obj c

section Writes

variable {d : Device K} {conn : ℕ} {cmd : Command} {rd : Reader} {j : ObjRef} {level : UInt16}

/-- A commit fans out. -/
theorem fansOut_commitNum (hr : d.Registry) (hgrouped : d.Grouped) (hproxied : d.Proxied)
    (hj : j < d.objects.length) (v : F64) (hp : primaryProperty (d.obj j).kind = some (level, 1)) :
    FansOut d (d.commitNum j v level 1 true) j level := by
  have hsome : (primaryProperty (d.obj j).kind).isSome = true := by
    rw [hp]
    rfl
  have hobj (c : ObjRef) (hc : c < d.objects.length) : (d.commitNum j v level 1 true).obj c =
      { d.obj c with
        num := Option.getD (if j = c ∨ c ∈ d.copies j then some v else none) (d.obj c).num } := by
    rw [obj_eq_of_core (core_commitNum hj v level 1), obj_writeNums _ _ hc,
      lastWrite_commitWrites]
  have hown : ((d.commitNum j v level 1 true).obj j).num = v := num_commitNum hj v level 1
  have hmem (c : ObjRef) (hc : c < d.objects.length) : c ∈ d.copies j ↔ d.Enrols j c ∧ c ≠ j :=
    mem_copies_iff hr hgrouped hproxied hj hc hsome
  refine ⟨?_, ?_⟩
  · intro c hc henrols hne
    have hcopy := (hmem c hc).2 ⟨henrols, hne⟩
    rw [hown]
    refine ⟨?_, raised_commitNum hj hcopy hp⟩
    rw [hobj c hc, if_pos (.inr hcopy)]
    rfl
  · intro c hc hne hnot
    rw [hobj c hc, if_neg]
    · rfl
    · rintro (h | h)
      · exact hne h.symm
      · exact hnot ((hmem c hc).1 h).1

/-- The classes that can be grouped, with the level of their setter. -/
def groupSetters : List (Kind × UInt16) := [(.gain, 4), (.mute, 4), (.boolean, 5)]

theorem primaryProperty_of_groupSetters {kind : Kind} (h : (kind, level) ∈ groupSetters) :
    primaryProperty kind = some (level, 1) ∧ kind ≠ .string := by
  simp only [groupSetters, List.mem_cons, List.not_mem_nil, or_false, Prod.mk.injEq] at h
  rcases h with ⟨rfl, rfl⟩ | ⟨rfl, rfl⟩ | ⟨rfl, rfl⟩ <;> exact ⟨rfl, by decide⟩

/-- A setter that is answered with OK commits a value. -/
theorem commits_of_ok {cl : Call K} (hset : ((cl.dev.obj j).kind, level) ∈ groupSetters)
    (hok : (objectDispatch j level 2 cl).1 = .ok) :
    ∃ v, (objectDispatch j level 2 cl).2.dev = cl.dev.commitNum j v level 1 true := by
  obtain ⟨hp, hstring⟩ := primaryProperty_of_groupSetters hset
  obtain ⟨h, hh⟩ := handlerFor_of_primaryProperty (K := K) hp
  have hg := gate_of_ok hok
  rw [objectDispatch_of_handler hh hg rfl] at hok ⊢
  obtain ⟨v, hv⟩ := Option.isSome_iff_exists.1 (setting_of_ok hset hh hok)
  refine ⟨v, ?_⟩
  rw [setter_setsAt hh hp hstring rfl rfl, hv]
  rfl

theorem fansOut_execCommand {cl : Call K} (hr : cl.dev.Registry) (hgrouped : cl.dev.Grouped)
    (hproxied : cl.dev.Proxied) (hf : cl.dev.find cmd.target = some j)
    (hset : ((cl.dev.obj j).kind, cmd.level) ∈ groupSetters) (hidx : cmd.index = 2)
    (hok : (execCommand conn cmd cl).1 = .ok) :
    FansOut cl.dev (execCommand conn cmd cl).2.dev j cmd.level := by
  rw [execCommand_of_find hf] at hok ⊢
  dsimp only at hok ⊢
  rw [hidx] at hok ⊢
  obtain ⟨v, hv⟩ := commits_of_ok hset hok
  rw [hv]
  have hfans := fansOut_commitNum hr hgrouped hproxied (find_lt hf) v
    (primaryProperty_of_groupSetters hset).1
  refine ⟨fun c hc henrols hne => ?_, hfans.other⟩
  obtain ⟨hnum, hraised⟩ := hfans.citizen c hc henrols hne
  exact ⟨hnum, hraised.mono rfl List.prefix_rfl (List.prefix_append ..)⟩

/-- **A write to a proxy fans out**, whatever the groups: an accepted SetGain, SetState or
SetSetting leaves its value in every citizen of the object's groups, announced, and nothing else
changes. -/
theorem proxy_fans_out (h : (control K).Reach d) (hf : d.find cmd.target = some j)
    (hset : ((d.obj j).kind, cmd.level) ∈ groupSetters) (hidx : cmd.index = 2)
    (hok : (answer K.txBufferSize conn cmd rd d).response.status = .ok) :
    FansOut d ((Operation.command conn cmd rd).run d) j cmd.level := by
  let cl : Call K := ⟨{ d with activeConn := some conn }, rd, .init K.txBufferSize, 0⟩
  have hr : cl.dev.Registry := (reach_tree h).registry.congr rfl (fun _ _ => rfl) rfl
  have hgrouped : cl.dev.Grouped := grouped_of_reach (d := d) h
  have hproxied : cl.dev.Proxied := proxied_of_reach (d := d) h
  have hfans : FansOut cl.dev (execCommand conn cmd cl).2.dev j cmd.level :=
    fansOut_execCommand hr hgrouped hproxied hf hset hidx hok
  exact ⟨hfans.citizen, hfans.other⟩

end Writes

namespace Sample

/-- A controller mutes the proxy of the group. -/
def muteProxy : Command := ⟨1, 4098, 4, 2, 1, [1]⟩

theorem enrols_grouped : grouped.Enrols 5 4 := by
  have htables : (grouped.obj 3).priv.tables.any (fun g => (g.groups 0).used &&
      (g.groups 0).proxyOno == 4098 && (g.citizens 0).used && g.enrolled 0 0 &&
        (g.citizens 0).ono == 4097) = true := by decide
  cases hp : (grouped.obj 3).priv with
  | grouper g =>
    rw [hp] at htables
    simp only [Priv.tables, Option.any_some, Bool.and_eq_true, beq_iff_eq] at htables
    obtain ⟨⟨⟨⟨hgroup, hproxy⟩, hcitizen⟩, henrolled⟩, hono⟩ := htables
    exact ⟨3, 0, ⟨by decide, g, hp, hgroup, hproxy⟩, g, 0, hp, hcitizen, henrolled, hono⟩
  | _ =>
    rw [hp] at htables
    cases htables

theorem fansOut_muteProxy : grouped.Enrols 5 4 ∧
    FansOut grouped ((sent 4098 4 2 1 [1]).run grouped) 5 4 :=
  ⟨enrols_grouped,
    @proxy_fans_out _ _ _ muteProxy _ _ reach_grouped (by decide) (by decide) rfl (by decide)⟩

end Sample

end Aes70
