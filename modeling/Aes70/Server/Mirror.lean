import Aes70.Device.Mirror
import Aes70.Router.Params
import Aes70.Server.Moves

/-!
# What a subscriber's copy can miss

Whoever is subscribed to an object sees every change that a controller's command or a request of
the application makes to it, with two exceptions. The ratio and the slope of OcaDynamics are one
field, and a write through one of them is notified as this one only. And an agent's label is set
without a notification.

* `Operation` : a command, or a request that the server applies.
* `Device.Unannounced` : the operation makes a change it does not announce.
* `upToDate_iff` : these are the only ones.
-/

namespace Aes70

open Handler

variable {K : Kconfig}

/-- Something that changes values: a command of connection `conn`, whose parameters the handler gets
through the reader, or a set request of the application. -/
inductive Operation
  | command (conn : ℕ) (cmd : Command) (params : Reader)
  | set (req : SetReq)

/-- The effect of an operation. -/
def Operation.run (d : Device K) : Operation → Device K
  | .command conn cmd params => (answer K.txBufferSize conn cmd params d).dev
  | .set req => d.applySet req

/-- The label SetLabel of an agent stores, if it stores one other than the agent has. -/
def Obj.agentRelabel (o : Obj) (level index : UInt16) (rd : Reader) : Prop :=
  o.kind = .grouper ∧ level = 2 ∧ index = 2 ∧ (Read.string 64 rd).2.err = false ∧
    (Read.string 64 rd).1 ≠ o.label.getD []

/-- The operation makes a change that it does not announce: it moves the ratio of a dynamics object,
or it sets the label of an agent. -/
def Device.Unannounced (d : Device K) : Operation → Prop
  | .command conn cmd rd => ∃ i, d.find cmd.target = some i ∧
      ({ d with activeConn := some conn } : Device K).gate i cmd.level cmd.index = none ∧
        ((d.obj i).agentRelabel cmd.level cmd.index rd ∨
          cmd.level = 4 ∧ ∃ w, dspSetting (d.obj i) cmd.index rd = some w ∧
            (d.obj i).priv.movesRatio w)
  | .set req => ∃ i, d.find req.ono = some i ∧
      ∃ w, req.write (d.obj i) = some w ∧ (d.obj i).priv.movesRatio w

variable {d d' : Device K} {i : ObjRef} {level index : UInt16}

/-! ### What is up to date -/

theorem UpToDate.of_wire (h : ∀ j < d.objects.length, ∀ l x,
    d'.wireProperty j l x = d.wireProperty j l x) : UpToDate d d' :=
  fun j hj l x _ hne => absurd (h j hj l x) hne

theorem Mirrors.toUpToDate (h : Mirrors d d') (hon : d.notificationsDisabled = false) :
    UpToDate d d' := fun j hj l x _ hne => h.upToDate hon j hj l x hne

/-- Objects whose properties do not change. -/
theorem UpToDate.of_property (hname : d'.deviceName = d.deviceName)
    (hrole : d'.deviceRole = d.deviceRole) (h : ∀ j < d.objects.length, ∀ l x,
      (d'.obj j).property d.deviceName d.deviceRole l x =
        (d.obj j).property d.deviceName d.deviceRole l x) : UpToDate d d' :=
  .of_wire fun j hj l x => Device.wireProperty_congr hname hrole (h j hj l x)

/-- A store that changes no property. -/
theorem UpToDate.modifyObj {f : Obj → Obj} (h : i < d.objects.length → ∀ l x,
    (f (d.obj i)).property d.deviceName d.deviceRole l x =
      (d.obj i).property d.deviceName d.deviceRole l x) : UpToDate d (d.modifyObj i f) :=
  .of_property rfl rfl fun j hj l x => by
    by_cases hij : i = j
    · subst hij
      rw [Device.obj_modifyObj_self hj]
      exact h hj l x
    · rw [Device.obj_modifyObj_ne hij]

/-- The private state of a class that is no DSP class is not seen. -/
theorem Obj.property_privateState {o : Obj} (hk : dspIsDspKind o.kind = false) (p : Priv)
    (name role : Bytes) (l x : UInt16) :
    { o with priv := p }.property name role l x = o.property name role l x := by
  refine Obj.property_priv ?_
  unfold dspEncodeProperty
  split_ifs
  · rfl
  · cases h : o.kind <;> simp [h, dspIsDspKind] at hk ⊢

theorem Obj.property_deviceName {o : Obj} {name name' role : Bytes} {l x : UInt16}
    (h : ¬(o.kind = .deviceManager ∧ l = 3 ∧ x = 4)) :
    o.property name role l x = o.property name' role l x := by
  unfold property
  rw [if_neg h, if_neg h]

theorem Obj.property_deviceRole {o : Obj} {name role role' : Bytes} {l x : UInt16}
    (h : ¬(o.kind = .deviceManager ∧ l = 3 ∧ x = 6)) :
    o.property name role l x = o.property name role' l x := by
  unfold property
  rw [if_neg h, if_neg h]

/-- A change of one property of one object, followed by its notification. -/
theorem upToDate_notify {e : Device K} (hon : e.notificationsDisabled = false)
    (hsubs : e.subs = d.subs) (hlog : e.log = d.log)
    (h : ∀ j < d.objects.length, ∀ l x, (j, l, x) ≠ (i, level, index) →
      e.wireProperty j l x = d.wireProperty j l x) : UpToDate d (e.notify i level index) :=
  fun j hj l x _ hne => by
    have hwire := Device.wireProperty_of_core (Device.core_notify e i level index) j l x
    by_cases heq : (j, l, x) = (i, level, index)
    · cases heq
      exact ⟨e, hon, hsubs, by rw [hlog], List.prefix_rfl, hwire.symm⟩
    · exact absurd (hwire.trans (h j hj l x heq)) hne

/-- **What a command announces**, unless it relabels an agent or writes a DSP parameter. -/
theorem Outcome.upToDate {st : Status} (h : Outcome d i level index st d')
    (hon : d.notificationsDisabled = false) (hr : d.Registry) (hi : i < d.objects.length)
    (hagent : ¬((d.obj i).kind = .grouper ∧ level = 2 ∧ index = 2))
    (hdsp : ¬(level = 4 ∧ dspIsDspKind (d.obj i).kind = true)) : UpToDate d d' := by
  have hpriv (p : Priv) (hk : dspIsDspKind (d.obj i).kind = false) :
      UpToDate d (d.modifyObj i fun o => { o with priv := p }) :=
    .modifyObj fun _ l x => Obj.property_privateState hk p _ _ l x
  cases h with
  | same | noRoom | subscribe | unsubscribe | notifications => exact .of_wire fun _ _ _ _ => rfl
  | lock | unlock => exact .modifyObj fun _ _ _ => rfl
  | agentLabel s hm hk => exact absurd ⟨hk, hm⟩ hagent
  | dsp p sel hm hk => exact absurd ⟨hm, hk⟩ hdsp
  | enabled v =>
    refine (mirrors_store (fun _ => by rfl) fun _ l x hne => ?_).toUpToDate hon
    exact Obj.property_enabled v fun h => hne (by rw [h.1, h.2])
  | label s =>
    refine (mirrors_store (fun _ => by rfl) fun _ l x hne => ?_).toUpToDate hon
    exact Obj.property_label _ fun h => hne (by rw [h.1, h.2])
  | num v _ hp => exact (mirrors_commitNum v true hp).toUpToDate hon
  | str s _ hk =>
    exact (mirrors_commitStr s true (by rw [hk]; rfl)).toUpToDate hon
  | grouper g hk => exact hpriv _ (by rw [hk]; rfl)
  | matrix m hk | truncatedMembers m _ hk => exact hpriv _ (by rw [hk]; rfl)
  | «recall» es | truncatedRecall es => exact (mirrors_recall es).toUpToDate hon
  | deviceName s hk =>
    refine upToDate_notify hon rfl rfl fun j hj l x hne => ?_
    -- only the device manager shows the name, and there is one
    have hother : ¬((d.obj j).kind = .deviceManager ∧ l = 3 ∧ x = 4) := fun h => hne (by
      rw [(hr.deviceManager j hj).1 h.1, (hr.deviceManager i hi).1 hk, h.2.1, h.2.2])
    exact congrArg (Option.map Field.encodeAll) (Obj.property_deviceName hother)
  | deviceRole s hk =>
    refine upToDate_notify hon rfl rfl fun j hj l x hne => ?_
    have hother : ¬((d.obj j).kind = .deviceManager ∧ l = 3 ∧ x = 6) := fun h => hne (by
      rw [(hr.deviceManager j hj).1 h.1, (hr.deviceManager i hi).1 hk, h.2.1, h.2.2])
    exact congrArg (Option.map Field.encodeAll) (Obj.property_deviceRole hother)
  | @addGroup g slot name proxy d₁ hk h =>
    obtain ⟨-, hnew, hd₁⟩ := Device.objectAlloc_some h
    have hnames : d₁.deviceName = d.deviceName ∧ d₁.deviceRole = d.deviceRole := by
      rw [hd₁]
      unfold Device.blockAddMember
      split
      · exact ⟨rfl, rfl⟩
      · split_ifs <;> exact ⟨rfl, rfl⟩
    refine .of_property hnames.1 hnames.2 fun j hj l x => ?_
    -- the old objects are linked at most, but for the grouper itself
    have hold {α : Type} {p : Obj → α} (hc : ∀ o cs, p { o with children := cs } = p o)
        (ho : ∀ o n, p { o with ownerOno := n } = p o) {j : ObjRef} (hj : j < d.objects.length) :
        p ((d₁.modifyObj proxy initProxy).obj j) = p (d.obj j) := by
      rw [Device.obj_modifyObj_ne (by rw [hnew]; exact hj.ne'), Device.obj_objectAlloc hc ho h hj]
    rw [storeGrouper, Device.obj_modifyObj]
    split_ifs with hij
    · obtain ⟨rfl, -⟩ := hij
      have hkind : ((d₁.modifyObj proxy initProxy).obj i).kind = .grouper :=
        (hold (fun _ _ => rfl) (fun _ _ => rfl) hi).trans hk
      rw [Obj.property_privateState (by rw [hkind]; rfl)]
      exact hold (p := fun o => o.property _ _ l x) (fun _ _ => rfl) (fun _ _ => rfl) hj
    · exact hold (p := fun o => o.property _ _ l x) (fun _ _ => rfl) (fun _ _ => rfl) hj

/-! ### Parameter writes and labels -/

/-- A parameter write is announced, unless it moves the ratio. -/
theorem mirrors_param {w : Option ParamWrite} (b : Bool)
    (h : ∀ w' ∈ w, ¬(d.obj i).priv.movesRatio w') : Mirrors d (d.param i b w) := by
  cases w with
  | none => exact .refl d
  | some w =>
    have hstore : Mirrors d ((d.modifyObj i fun o =>
        { o with priv := (d.obj i).priv.write w }).notify i (selToProp w.sel).1
          (selToProp w.sel).2) :=
      mirrors_store (fun _ => by rfl) fun _ l x hne =>
        Obj.property_priv (dspEncodeProperty_write (Ne.symm hne) fun hb => h w rfl hb.1)
    unfold Device.param Device.dspWrite Device.notifyAfterWrite
    dsimp only
    split_ifs
    · exact hstore.trans (mirrors_controlChanged i)
    · exact hstore

theorem tells_param {w : ParamWrite} (b : Bool) :
    Tells d (d.param i b (some w)) i (selToProp w.sel).1 (selToProp w.sel).2 := by
  unfold Device.param Device.dspWrite Device.notifyAfterWrite
  dsimp only
  have hnotify : Tells d ((d.modifyObj i fun o =>
      { o with priv := (d.obj i).priv.write w }).notify i (selToProp w.sel).1
        (selToProp w.sel).2) i (selToProp w.sel).1 (selToProp w.sel).2 :=
    (Tells.of_log_eq rfl).trans tells_notify
  split_ifs
  · exact hnotify.trans (tells_controlChanged i)
  · exact hnotify

theorem encodeAll_f32_ne {v v' : F32} (h : v ≠ v') :
    Field.encodeAll [.f32 v] ≠ Field.encodeAll [.f32 v'] := fun he => h (by
  have hbits : wr32 ⟨v.bits⟩ = wr32 ⟨v'.bits⟩ := by
    simpa [Field.encodeAll, Field.encode, Field.pieces] using he
  have hval := congrArg rd32 hbits
  rw [rd32_wr32, rd32_wr32] at hval
  cases v
  cases v'
  simpa using hval)

/-- The two properties that show the ratio. -/
theorem wireProperty_ratio {s : DynState} (hk : (d.obj i).kind = .dynamics)
    (hp : (d.obj i).priv = .dynamics s) {x : UInt16} (hx : x = 4 ∨ x = 14) :
    d.encodeProperty i 4 x = some [.f32 s.ratio] := by
  rw [Device.encodeProperty_eq]
  rcases hx with rfl | rfl <;>
    simp [Obj.property, Device.encodeClassProperty, dspEncodeProperty, DynState.property, hk, hp]

/-- A property changed while only another one was told of. -/
def Stale (d d' : Device K) : Prop :=
  ∃ i < d.objects.length, ∃ level index, d.encodeProperty i level index ≠ none ∧
    d'.wireProperty i level index ≠ d.wireProperty i level index ∧
      ∃ l x, (l, x) ≠ (level, index) ∧ Tells d d' i l x

theorem Stale.not_upToDate (h : Stale d d') : ¬UpToDate d d' := by
  intro hup
  obtain ⟨i, hi, level, index, hknown, hne, l, x, hprop, htells⟩ := h
  refine not_announced htells (fun heq => hprop ?_) (hup i hi level index hknown hne)
  cases heq
  rfl

/-- The record of a command is no notification. -/
theorem Stale.command (h : Stale d d') (conn : ℕ) (cmd : Command) (st : Status) :
    Stale d (d'.emit (.command conn cmd st)) := by
  obtain ⟨i, hi, level, index, hknown, hne, l, x, hprop, htells⟩ := h
  exact ⟨i, hi, level, index, hknown, hne, l, x, hprop,
    htells.emit fun _ _ _ _ _ h => nomatch h⟩

theorem UpToDate.emit (h : UpToDate d d') (e : Event) : UpToDate d (d'.emit e) :=
  fun j hj l x hknown hne => by
    obtain ⟨e₁, hon, hsubs, hlog, hlog', hwire⟩ := h j hj l x hknown hne
    exact ⟨e₁, hon, hsubs, hlog, hlog'.trans (List.prefix_append _ _), hwire⟩

/-- A write that moves the ratio changes the property it is not notified as. -/
theorem stale_param {w : ParamWrite} (hi : i < d.objects.length) (b : Bool)
    (hk : (d.obj i).kind = .dynamics) (hm : (d.obj i).priv.movesRatio w) :
    Stale d (d.param i b (some w)) := by
  cases hp : (d.obj i).priv with
  | dynamics s =>
    rw [hp] at hm
    obtain ⟨hsel, hne⟩ := hm
    have hobj := Device.obj_param hi w b
    have hkind : ((d.param i b (some w)).obj i).kind = .dynamics := by rw [hobj]; exact hk
    have hpriv : ((d.param i b (some w)).obj i).priv =
        .dynamics (s.write w.sel w.value w.ref) := by
      rw [hobj, hp]
      rfl
    have hratio : (s.write w.sel w.value w.ref).ratio = toF32 w.value := by
      rcases hsel with h | h <;> rw [h] <;> rfl
    have hshown {x : UInt16} (hx : x = 4 ∨ x = 14) : d.encodeProperty i 4 x ≠ none ∧
        (d.param i b (some w)).wireProperty i 4 x ≠ d.wireProperty i 4 x := by
      rw [Device.wireProperty, Device.wireProperty, wireProperty_ratio hk hp hx,
        wireProperty_ratio hkind hpriv hx, hratio]
      exact ⟨Option.some_ne_none _, fun h => encodeAll_f32_ne hne (Option.some.inj h)⟩
    -- the ratio is notified as property 4, the slope as property 14
    rcases hsel with h | h
    · exact ⟨i, hi, 4, 14, (hshown (.inr rfl)).1, (hshown (.inr rfl)).2, _, _,
        by rw [h]; decide, tells_param b⟩
    · exact ⟨i, hi, 4, 4, (hshown (.inl rfl)).1, (hshown (.inl rfl)).2, _, _,
        by rw [h]; decide, tells_param b⟩
  | _ =>
    rw [hp] at hm
    exact hm.elim

/-- A new label that is set without a notification. -/
theorem stale_label {s : Bytes} (hi : i < d.objects.length) (hne : s ≠ (d.obj i).label.getD []) :
    Stale d (d.modifyObj i fun o => { o with label := some s }) := by
  refine ⟨i, hi, 2, 3, ?_, ?_, 0, 0, by decide, .of_log_eq rfl⟩
  · rw [Device.encodeProperty_eq]
    exact Option.some_ne_none _
  · rw [Device.wireProperty, Device.wireProperty, Device.encodeProperty_eq,
      Device.encodeProperty_eq, Device.obj_modifyObj_self hi]
    exact fun h => hne (encodeAll_string_inj (Option.some.inj h))

/-! ### Commands -/

/-- The call of a method changes a property and does not announce it. -/
def Device.silentCall (d : Device K) (i : ObjRef) (level index : UInt16) (rd : Reader) : Prop :=
  d.gate i level index = none ∧ ((d.obj i).agentRelabel level index rd ∨
    level = 4 ∧ ∃ w, dspSetting (d.obj i) index rd = some w ∧ (d.obj i).priv.movesRatio w)

theorem dspSetting_kind {o : Obj} {rd : Reader} {w : ParamWrite}
    (h : dspSetting o index rd = some w) (hm : o.priv.movesRatio w) : o.kind = .dynamics := by
  unfold dspSetting at h
  cases hp : o.priv <;> cases hk : o.kind <;> simp_all [Priv.movesRatio]

section Calls

variable {c : Call K}

/-- SetLabel of an agent. -/
theorem agent_setLabel (i : ObjRef) (c : Call K) : (agentDispatch i 2 c).2.dev =
    if (Read.string 64 c.rd).2.err then c.dev
    else c.dev.modifyObj i fun o => { o with label := some (Read.string 64 c.rd).1 } := by
  have hcall : agentDispatch i 2 c = reading (Read.string 64)
      (fun buf => store fun d => d.modifyObj i fun o => { o with label := some buf }) c := rfl
  rw [hcall]
  unfold reading store
  dsimp only
  split_ifs <;> rfl

theorem handlerFor_dsp {kind : Kind} (h : dspIsDspKind kind = true) :
    ∃ hd, handlerFor (K := K) kind 4 = some hd := by
  cases kind <;> first | exact ⟨_, rfl⟩ | cases h

/-- A label that the agent has already. -/
theorem UpToDate.relabel {s : Bytes} (hs : s = (d.obj i).label.getD []) :
    UpToDate d (d.modifyObj i fun o => { o with label := some s }) :=
  .modifyObj fun _ l x => by
    by_cases hprop : l = 2 ∧ x = 3
    · obtain ⟨rfl, rfl⟩ := hprop
      rw [hs]
      rfl
    · exact Obj.property_label _ hprop

theorem dispatch_upToDate (hon : c.dev.notificationsDisabled = false) (hr : c.dev.Registry)
    (hi : i < c.dev.objects.length) (hs : ¬c.dev.silentCall i level index c.rd) :
    UpToDate c.dev (objectDispatch i level index c).2.dev := by
  have hsame {e : Device K} (h : e = c.dev) : UpToDate c.dev e :=
    .of_wire fun _ _ _ _ => by rw [h]
  by_cases hagent : (c.dev.obj i).kind = .grouper ∧ level = 2 ∧ index = 2
  · obtain ⟨hk, rfl, rfl⟩ := hagent
    cases hg : c.dev.gate i 2 2 with
    | some st => exact hsame (objectDispatch_of_gate hg rfl)
    | none =>
      have hh : handlerFor (c.dev.obj i).kind 2 = some (agentDispatch (K := K)) := by rw [hk]; rfl
      rw [objectDispatch_of_handler hh hg rfl, agent_setLabel]
      split_ifs with herr
      · exact hsame rfl
      · refine .relabel (of_not_not fun hne => hs ⟨hg, .inl ⟨hk, rfl, rfl, ?_, hne⟩⟩)
        simpa using herr
  by_cases hdsp : level = 4 ∧ dspIsDspKind (c.dev.obj i).kind = true
  · obtain ⟨rfl, hk⟩ := hdsp
    obtain ⟨h, hh⟩ := handlerFor_dsp (K := K) hk
    cases hg : c.dev.gate i 4 index with
    | some st => exact hsame (objectDispatch_of_gate hg rfl)
    | none =>
      have hwrite : WritesAt (h i index) c i (dspSetting (c.dev.obj i) index c.rd) :=
        dspDispatch_writesAt hh hk rfl
      rw [objectDispatch_of_handler hh hg rfl, hwrite]
      refine (mirrors_param true fun w hw hm => hs ⟨hg, .inr ⟨rfl, w, hw, hm⟩⟩).toUpToDate hon
  exact (objectDispatch_outcome i level index c rfl).upToDate hon hr hi hagent hdsp

theorem dispatch_stale (hi : i < c.dev.objects.length)
    (hs : c.dev.silentCall i level index c.rd) :
    Stale c.dev (objectDispatch i level index c).2.dev := by
  obtain ⟨hg, ⟨hk, rfl, rfl, herr, hne⟩ | ⟨rfl, w, hw, hm⟩⟩ := hs
  · have hh : handlerFor (c.dev.obj i).kind 2 = some (agentDispatch (K := K)) := by rw [hk]; rfl
    rw [objectDispatch_of_handler hh hg rfl, agent_setLabel, if_neg (by simp [herr])]
    exact stale_label hi hne
  · have hk := dspSetting_kind hw hm
    have hdsp : dspIsDspKind (c.dev.obj i).kind = true := by rw [hk]; rfl
    obtain ⟨h, hh⟩ := handlerFor_dsp (K := K) hdsp
    have hwrite : WritesAt (h i index) c i (dspSetting (c.dev.obj i) index c.rd) :=
      dspDispatch_writesAt hh hdsp rfl
    rw [objectDispatch_of_handler hh hg rfl, hwrite, hw]
    exact stale_param hi true hk hm

end Calls

/-! ### Set requests -/

theorem SetReq.write_some {o : Obj} {req : SetReq} {w : ParamWrite} (h : req.write o = some w) :
    dspIsDspKind o.kind = true := by
  unfold SetReq.write at h
  split_ifs at h with hs
  unfold Obj.dspState at hs
  split at hs
  all_goals simp_all [dspIsDspKind]

theorem SetReq.write_kind {o : Obj} {req : SetReq} {w : ParamWrite} (h : req.write o = some w)
    (hm : o.priv.movesRatio w) : o.kind = .dynamics := by
  unfold SetReq.write Obj.dspState at h
  cases hp : o.priv <;> cases hk : o.kind <;> simp_all [Priv.movesRatio]

/-- A set request for an object of a scalar class commits a text or a clamped number, if the class
has a value at all. -/
theorem applySet_scalar {req : SetReq} (hf : d.find req.ono = some i)
    (hdsp : dspIsDspKind (d.obj i).kind = false) : d.applySet req = d ∨
      ∃ level index, primaryProperty (d.obj i).kind = some (level, index) ∧
        (d.applySet req = d.commitStr i req.str level index false ∨
          d.applySet req =
            d.commitNum i (Device.clampSet (d.obj i) req.num) level index false) := by
  cases hp : primaryProperty (d.obj i).kind with
  | none =>
    left
    simp only [Device.applySet, hf, hdsp, hp, Bool.false_eq_true, if_false]
  | some prop =>
    obtain ⟨level, index⟩ := prop
    refine .inr ⟨level, index, rfl, ?_⟩
    simp only [Device.applySet, hf, hdsp, hp, Bool.false_eq_true, if_false]
    split_ifs
    · exact .inl rfl
    · exact .inr rfl

/-- A set request for an object of a scalar class is announced. -/
theorem applySet_upToDate {req : SetReq} (hon : d.notificationsDisabled = false)
    (hf : d.find req.ono = some i) (hdsp : dspIsDspKind (d.obj i).kind = false) :
    UpToDate d (d.applySet req) := by
  obtain hsame | ⟨level, index, hp, hstr | hnum⟩ := applySet_scalar hf hdsp
  · rw [hsame]
    exact .of_wire fun _ _ _ _ => rfl
  · rw [hstr]
    exact (mirrors_commitStr req.str false hp).toUpToDate hon
  · rw [hnum]
    exact (mirrors_commitNum _ false hp).toUpToDate hon

theorem applySet_dsp {req : SetReq} (hf : d.find req.ono = some i)
    (hdsp : dspIsDspKind (d.obj i).kind = true) :
    d.applySet req = d.param i false (req.write (d.obj i)) := by
  simp only [Device.applySet, hf, hdsp, if_true, dspApplySet_eq]

/-- A set request respects an order that commits respect. -/
theorem Device.CommitOrder.applySet {R : Device K → Device K → Prop} (hR : Device.CommitOrder R)
    (d : Device K) (req : SetReq) : R d (d.applySet req) := by
  cases hf : d.find req.ono with
  | none =>
    have hsame : d.applySet req = d := by simp only [Device.applySet, hf]
    rw [hsame]
    exact hR.refl d
  | some i =>
    cases hdsp : dspIsDspKind (d.obj i).kind with
    | true =>
      rw [applySet_dsp hf hdsp]
      cases req.write (d.obj i) with
      | none => exact hR.refl d
      | some w => exact hR.dspWrite d i _ _ false
    | false =>
      obtain hsame | ⟨level, index, -, hstr | hnum⟩ := applySet_scalar hf hdsp
      · rw [hsame]
        exact hR.refl d
      · rw [hstr]
        exact hR.commitStr d i _ level index false
      · rw [hnum]
        exact hR.commitNum d i _ level index false

/-! ### Operations -/

/-- An operation that makes a change it does not announce leaves a property stale. -/
theorem operation_stale {op : Operation} (h : d.Unannounced op) : Stale d (op.run d) := by
  cases op with
  | command conn cmd rd =>
    obtain ⟨j, hf, hs⟩ := h
    let call : Call K := ⟨{ d with activeConn := some conn }, rd, Writer.init K.txBufferSize, 0⟩
    have hrun : (Operation.command conn cmd rd).run d = (objectDispatch j cmd.level cmd.index
        call).2.dev.emit (.command conn cmd (objectDispatch j cmd.level cmd.index call).1) := by
      have hfind : call.dev.find cmd.target = some j := hf
      change (execCommand conn cmd call).2.dev = _
      simp only [execCommand, hfind]
    rw [hrun]
    exact (dispatch_stale (c := call) (Device.find_lt hf) hs).command conn cmd _
  | set req =>
    obtain ⟨j, hf, w, hw, hm⟩ := h
    change Stale d (d.applySet req)
    rw [applySet_dsp hf (SetReq.write_some hw), hw]
    exact stale_param (Device.find_lt hf) false (SetReq.write_kind hw hm) hm

/-- Every other operation announces all changes. -/
theorem operation_upToDate (hr : d.Registry) (hon : d.notificationsDisabled = false)
    {op : Operation} (h : ¬d.Unannounced op) : UpToDate d (op.run d) := by
  cases op with
  | command conn cmd rd =>
    let call : Call K := ⟨{ d with activeConn := some conn }, rd, Writer.init K.txBufferSize, 0⟩
    change UpToDate d (execCommand conn cmd call).2.dev
    refine execCommand_keeps (fun e st he => he.emit _) (.of_wire fun _ _ _ _ => rfl) ?_
    intro j hf
    exact dispatch_upToDate (c := call) hon (hr.congr rfl (fun _ _ => rfl) rfl)
      (Device.find_lt hf) fun hs => h ⟨j, hf, hs⟩
  | set req =>
    change UpToDate d (d.applySet req)
    cases hf : d.find req.ono with
    | none => exact .of_wire fun _ _ _ _ => by rw [Device.applySet, hf]
    | some j =>
      cases hdsp : dspIsDspKind (d.obj j).kind with
      | false => exact applySet_upToDate hon hf hdsp
      | true =>
        rw [applySet_dsp hf hdsp]
        exact (mirrors_param false fun w hw hm => h ⟨j, hf, w, hw, hm⟩).toUpToDate hon

/-- **Subscribers see every change** an operation makes, exactly if it is none that `Unannounced`
describes. -/
theorem upToDate_iff (h : (server K).Reach d) (hon : d.notificationsDisabled = false)
    (op : Operation) : UpToDate d (op.run d) ↔ ¬d.Unannounced op :=
  ⟨fun hup hu => (operation_stale hu).not_upToDate hup,
    operation_upToDate (driven_server.sound h).registry hon⟩

namespace Sample

/-- The sample device with a compressor, object 3 with the number 4096. -/
def compressor : Device .default := after [.create (.dynamics 1) none (ascii "compressor")]

theorem reach_compressor : (server .default).Reach compressor :=
  reach_after (.cons ok_create (.nil _))

/-- A request of the application for an attack time of 1 s. -/
def setAttack : Operation := .set ⟨4096, .dynAttack, false, .ofNat 1, .zero, []⟩

theorem upToDate_setAttack : UpToDate compressor (setAttack.run compressor) := by
  refine (upToDate_iff reach_compressor rfl setAttack).2 ?_
  rintro ⟨i, hf, w, hw, hm⟩
  have hfind : compressor.find 4096 = some 3 := by decide
  obtain rfl := Option.some.inj (hf.symm.trans hfind)
  have hwrite : (SetReq.mk 4096 .dynAttack false (.ofNat 1) .zero []).write (compressor.obj 3) =
      some ⟨.dynAttack, .ofNat 1, .zero⟩ := by decide
  rw [hwrite] at hw
  obtain rfl := Option.some.inj hw
  exact absurd hm (by decide)

/-- A request of the application for a ratio of 1. -/
def setRatio : Operation := .set ⟨4096, .dynRatio, false, .ofNat 1, .zero, []⟩

/-- The slope becomes 1 too, and no one is told. -/
theorem not_upToDate_setRatio : (server .default).Reach compressor ∧
    compressor.notificationsDisabled = false ∧
      (setRatio.run compressor).wireProperty 3 4 14 ≠ compressor.wireProperty 3 4 14 ∧
        ¬UpToDate compressor (setRatio.run compressor) := by
  have hu : compressor.Unannounced setRatio :=
    ⟨3, by decide, ⟨.dynRatio, .ofNat 1, .zero⟩, by decide, by decide⟩
  exact ⟨reach_compressor, rfl, by decide, (operation_stale hu).not_upToDate⟩

end Sample

end Aes70
