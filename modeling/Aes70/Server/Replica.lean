import Aes70.Server.Reflect

/-!
# The copy a subscriber keeps

A controller that has read a property once and is subscribed to its object need not read it again:
it takes the value from each notification that arrives on its connection. The device is the
publisher, the controller a fold over the frames it is sent.

* `Copied d d' w i` : the copies that watchers of `w` keep of object `i` are right in `d'` if they
  were right in `d`.
* `Outcome.copied` : whatever a command does, if it announces it.
* `Device.missesCall` : the calls that change a property and do not announce it.
* `Turn.Announces` : the turn announces what it does to a property.
* `Follow` : what a turn must leave alone while a copy is kept.
* `copy_of_run` : after any run of turns the copy is the value.
-/

namespace Aes70

open Handler

variable {K : Kconfig} {d d' e : Device K} {w : Watch} {k : Fin K.maxSubscriptions} {i j : ObjRef}
  {level index : UInt16}

/-! ### Commands -/

/-- The copies that watchers of `w` keep of object `i` are right in `d'` if they were in `d`. -/
def Copied (d d' : Device K) (w : Watch) (i : ObjRef) : Prop :=
  d.Publishes → ∀ k, d.Watched w k i → Log.Copies w.reads d.log d'.log
    (d.shown i w.level w.index) (d'.shown i w.level w.index)

namespace Copied

theorem of_reflects (h : Reflects d d') : Copied d d' w j := fun hd _ hw => h.copies hd hw

/-- Events that tell nothing, where no value changes. -/
theorem of_silent (hlog : Log.Grows (fun e => ∀ w : Watch, w.reads e = none) d.log d'.log)
    (hshown : ∀ i < d.objects.length, ∀ l x, d'.shown i l x = d.shown i l x) : Copied d d' w j := by
  intro _ _ hw
  obtain ⟨es, hes, hsilent⟩ := hlog
  exact .of_silent hes (fun e he => hsilent e he w) (hshown _ hw.lt _ _)

theorem of_property (hlog : d'.log = d.log) (hname : d'.deviceName = d.deviceName)
    (hrole : d'.deviceRole = d.deviceRole) (h : ∀ i < d.objects.length, ∀ l x,
      (d'.obj i).property d.deviceName d.deviceRole l x =
        (d.obj i).property d.deviceName d.deviceRole l x) : Copied d d' w j :=
  .of_silent (by rw [hlog]) fun i hi l x => shown_congr hname hrole (h i hi l x)

/-- A store that does not change the property. -/
theorem modifyObj {f : Obj → Obj} (h : i = j →
    (f (d.obj i)).property d.deviceName d.deviceRole w.level w.index =
      (d.obj i).property d.deviceName d.deviceRole w.level w.index) :
    Copied d (d.modifyObj i f) w j := fun _ _ hw =>
  .of_silent (List.append_nil _).symm (fun _ he => absurd he List.not_mem_nil)
    (shown_modifyObj hw.lt h)

/-- A store that is announced as one property, and changes the watched one only if it is this. -/
theorem notify {f : Obj → Obj} (hident : ∀ o, (f o).ident = o.ident)
    (hlock : ∀ o, (f o).lock = o.lock) (hi : i < d.objects.length)
    (hfit : (d.modifyObj i f).propertySize i level index ≤ 400)
    (h : i = j → (w.level, w.index) ≠ (level, index) →
      (f (d.obj i)).property d.deviceName d.deviceRole w.level w.index =
        (d.obj i).property d.deviceName d.deviceRole w.level w.index) :
    Copied d ((d.modifyObj i f).notify i level index) w j := fun hd _ hw =>
  Reflects.copies_of_notify hd (steady_modifyObj hident hlock) rfl rfl hi hfit hw fun hne =>
    shown_modifyObj hw.lt fun hij => h hij fun heq => hne (by rw [hij, heq])

/-- The application is called; nobody else can tell. -/
theorem controlChanged (h : Copied d d' w j) (i : ObjRef) : Copied d (d'.controlChanged i) w j := by
  intro hd k hw
  refine (h hd k hw).trans ?_
  have hshown := shown_of_core (Device.core_controlChanged d' i) j w.level w.index
  unfold Device.controlChanged at hshown ⊢
  split_ifs at hshown ⊢
  · exact .of_silent rfl (fun e he => by rw [List.mem_singleton.1 he]; rfl) hshown
  · exact .refl _ _

theorem emit (h : Copied d d' w j) {e : Event} (he : ∀ w : Watch, w.reads e = none) :
    Copied d (d'.emit e) w j := by
  intro hd k hw
  refine (h hd k hw).trans ?_
  have hlog : (d'.emit e).log = d'.log ++ [e] := rfl
  exact .of_silent hlog (fun e' he' => List.mem_singleton.1 he' ▸ he w) rfl

end Copied

/-- The old objects of a device that has registered a new one. -/
theorem property_objectAlloc {kind : Kind} {parent : Option ObjRef} {role : Bytes} {new : ObjRef}
    (h : d.objectAlloc kind parent role = (some new, e)) (f : Obj → Obj)
    (hj : j < d.objects.length) (name role' : Bytes) (l x : UInt16) :
    ((e.modifyObj new f).obj j).property name role' l x =
      (d.obj j).property name role' l x := by
  obtain ⟨-, hnew, -⟩ := Device.objectAlloc_some h
  rw [Device.obj_modifyObj_ne (by rw [hnew]; exact hj.ne')]
  exact Device.obj_objectAlloc (p := fun o => o.property name role' l x) (fun _ _ => rfl)
    (fun _ _ => rfl) h hj

/-- A command that changes a text of the device manager. -/
theorem copied_deviceText (hs : Steady True d e)
    (hdisabled : e.notificationsDisabled = d.notificationsDisabled) (hlog : e.log = d.log)
    (hi : i < d.objects.length) (hk : (d.obj i).kind = .deviceManager)
    (hfit : e.propertySize i level index ≤ 400)
    (hproperty : ∀ j < d.objects.length, ∀ l x,
      ¬((d.obj j).kind = .deviceManager ∧ l = level ∧ x = index) →
        e.shown j l x = d.shown j l x) : Copied d (e.notify i level index) w j := by
  refine .of_reflects (.notify hs hdisabled hlog hi hfit fun hr j hj l x hne => ?_)
  refine hproperty j hj l x fun h => hne ?_
  -- there is one device manager
  rw [(hr.deviceManager j hj).1 h.1, (hr.deviceManager i hi).1 hk, h.2.1, h.2.2]

/-- **What a command tells**, unless it relabels an agent or writes a DSP parameter. -/
theorem Outcome.copied {st : Status} (h : Outcome d i level index st d')
    (hi : i < d.objects.length)
    (hagent : ¬((d.obj i).kind = .grouper ∧ level = 2 ∧ index = 2))
    (hdsp : ¬(level = 4 ∧ dspIsDspKind (d.obj i).kind = true)) : Copied d d' w j := by
  have hpriv (p : Priv) (hk : dspIsDspKind (d.obj i).kind = false) :
      Copied d (d.modifyObj i fun o => { o with priv := p }) w j :=
    .modifyObj fun _ => Obj.property_privateState hk p _ _ _ _
  cases h with
  | same | noRoom | subscribe | unsubscribe | notifications =>
    exact .of_property rfl rfl rfl fun _ _ _ _ => rfl
  | lock | unlock => exact .modifyObj fun _ => rfl
  | agentLabel s hm hk => exact absurd ⟨hk, hm⟩ hagent
  | dsp p sel hm hk => exact absurd ⟨hm, hk⟩ hdsp
  | enabled v =>
    refine .of_reflects (reflects_store (fun _ => by rfl) (fun _ => by rfl) hi ?_ fun l x hne => ?_)
    · have hsize := Device.propertySize_le (d := d.modifyObj i fun o => { o with enabled := v })
        (i := i) (fun h : (2 : UInt16) = 2 ∧ (1 : UInt16) = 3 => absurd h.2 (by decide))
        (fun h => absurd h.2 (by decide)) fun h => absurd h.2 (by decide)
      exact hsize.trans (by decide)
    · exact Obj.property_enabled v fun h => hne (by rw [h.1, h.2])
  | label s hs =>
    refine .of_reflects (reflects_store (fun _ => by rfl) (fun _ => by rfl) hi ?_ fun l x hne => ?_)
    · rw [Device.propertySize_label (congrArg Obj.label (Device.obj_modifyObj_self hi _))]
      omega
    · exact Obj.property_label _ fun h => hne (by rw [h.1, h.2])
  | num v _ hp hs => exact .of_reflects (reflects_commitNum v true hi hp hs)
  | str s hs hk => exact .of_reflects (reflects_commitStr true hi hk hs)
  | grouper g hk => exact hpriv _ (by rw [hk]; rfl)
  | matrix m hk | truncatedMembers m _ hk => exact hpriv _ (by rw [hk]; rfl)
  | «recall» es | truncatedRecall es => exact .of_reflects (reflects_recall es)
  | deviceName s hk =>
    refine copied_deviceText (e := { d with deviceName := strlcpy 64 s })
      (.of_eq rfl rfl rfl rfl rfl (fun _ h => h) rfl) rfl rfl hi hk ?_ fun j _ l x hother => ?_
    · rw [Device.propertySize_deviceName (d := { d with deviceName := strlcpy 64 s }) hk]
      exact le_trans (Nat.add_le_add_left (List.length_take_le 63 s) 2) (by decide)
    · exact congrArg (fun fs => Field.encodeAll (Option.getD fs []))
        (Obj.property_deviceName hother)
  | deviceRole s hk =>
    refine copied_deviceText (e := { d with deviceRole := strlcpy 48 s })
      (.of_eq rfl rfl rfl rfl rfl (fun _ h => h) rfl) rfl rfl hi hk ?_ fun j _ l x hother => ?_
    · rw [Device.propertySize_deviceRole (d := { d with deviceRole := strlcpy 48 s }) hk]
      exact le_trans (Nat.add_le_add_left (List.length_take_le 47 s) 2) (by decide)
    · exact congrArg (fun fs => Field.encodeAll (Option.getD fs []))
        (Obj.property_deviceRole hother)
  | @addGroup g slot name proxy d₁ hk h =>
    obtain ⟨hd₁, -⟩ := Device.eq_of_objectAlloc h
    have hold {j : ObjRef} (hj : j < d.objects.length) (l x : UInt16) :=
      property_objectAlloc h initProxy hj d.deviceName d.deviceRole l x
    refine .of_property (by rw [storeGrouper, Device.modifyObj, Device.modifyObj, hd₁])
      (by rw [storeGrouper, Device.modifyObj, Device.modifyObj, hd₁])
      (by rw [storeGrouper, Device.modifyObj, Device.modifyObj, hd₁]) fun j hj l x => ?_
    rw [storeGrouper, Device.obj_modifyObj]
    split_ifs with hij
    · obtain ⟨rfl, -⟩ := hij
      have hkind : ((d₁.modifyObj proxy initProxy).obj i).kind = .grouper := by
        obtain ⟨-, hnew, -⟩ := Device.objectAlloc_some h
        rw [Device.obj_modifyObj_ne (by rw [hnew]; exact hi.ne'),
          Device.obj_objectAlloc (p := Obj.kind) (fun _ _ => rfl) (fun _ _ => rfl) h hi, hk]
      rw [Obj.property_privateState (by rw [hkind]; rfl)]
      exact hold hj l x
    · exact hold hj l x

/-- The call changes property `prop` of its object and does not announce it: it relabels an agent,
or it writes the ratio where the slope is asked about, or the slope where the ratio is. -/
def Device.missesCall (d : Device K) (i : ObjRef) (level index : UInt16) (rd : Reader)
    (prop : UInt16 × UInt16) : Prop :=
  d.gate i level index = none ∧ ((d.obj i).agentRelabel level index rd ∧ prop = (2, 3) ∨
    level = 4 ∧ ∃ w, dspSetting (d.obj i) index rd = some w ∧ (d.obj i).priv.movesBeside w prop)

/-- A parameter write is told, unless it is notified as the wrong property. -/
theorem copied_param {p : Option ParamWrite} (b : Bool) (hi : i < d.objects.length)
    (h : i = j → ∀ p' ∈ p, ¬(d.obj i).priv.movesBeside p' (w.level, w.index)) :
    Copied d (d.param i b p) w j := by
  cases p with
  | none => exact .of_reflects (.refl d)
  | some p =>
    have hstore : Copied d ((d.modifyObj i fun o =>
        { o with priv := (d.obj i).priv.write p }).notify i (selToProp p.sel).1
          (selToProp p.sel).2) w j := by
      refine .notify (fun _ => by rfl) (fun _ => by rfl) hi ?_ fun hij hne => ?_
      · rw [selToProp_level]
        exact propertySize_four
      · exact Obj.property_priv (dspEncodeProperty_write (Ne.symm hne) (h hij p rfl))
    unfold Device.param Device.dspWrite Device.notifyAfterWrite
    dsimp only
    split_ifs
    · exact hstore.controlChanged i
    · exact hstore

/-- **What a call tells**, if it announces what it changes of the property. -/
theorem dispatch_copied {c : Call K} (hi : i < c.dev.objects.length)
    (hs : i = j → ¬c.dev.missesCall i level index c.rd (w.level, w.index)) :
    Copied c.dev (objectDispatch i level index c).2.dev w j := by
  have hsame {e : Device K} (h : e = c.dev) : Copied c.dev e w j := by
    rw [h]
    exact .of_reflects (.refl _)
  by_cases hagent : (c.dev.obj i).kind = .grouper ∧ level = 2 ∧ index = 2
  · obtain ⟨hk, rfl, rfl⟩ := hagent
    cases hg : c.dev.gate i 2 2 with
    | some st => exact hsame (objectDispatch_of_gate hg rfl)
    | none =>
      have hh : handlerFor (c.dev.obj i).kind 2 = some (agentDispatch (K := K)) := by rw [hk]; rfl
      rw [objectDispatch_of_handler hh hg rfl, agent_setLabel]
      split_ifs with herr
      · exact hsame rfl
      · refine .modifyObj fun hij => ?_
        by_cases hprop : w.level = 2 ∧ w.index = 3
        · -- the label the agent has already
          have hlabel : (Read.string 64 c.rd).1 = (c.dev.obj i).label.getD [] := by
            by_contra hne
            refine hs hij ⟨hg, .inl ⟨⟨hk, rfl, rfl, by simpa using herr, hne⟩, ?_⟩⟩
            rw [hprop.1, hprop.2]
          rw [hlabel, hprop.1, hprop.2]
          rfl
        · exact Obj.property_label _ hprop
  by_cases hdsp : level = 4 ∧ dspIsDspKind (c.dev.obj i).kind = true
  · obtain ⟨rfl, hk⟩ := hdsp
    obtain ⟨h, hh⟩ := handlerFor_dsp (K := K) hk
    cases hg : c.dev.gate i 4 index with
    | some st => exact hsame (objectDispatch_of_gate hg rfl)
    | none =>
      have hwrite : WritesAt (h i index) c i (dspSetting (c.dev.obj i) index c.rd) :=
        dspDispatch_writesAt hh hk rfl
      rw [objectDispatch_of_handler hh hg rfl, hwrite]
      exact copied_param true hi fun hij p hp hm => hs hij ⟨hg, .inr ⟨rfl, p, hp, hm⟩⟩
  exact (objectDispatch_outcome i level index c rfl).copied hi hagent hdsp

/-- A set request is told, unless it is notified as the wrong property. -/
theorem copied_applySet {req : SetReq} (hreq : req.WellTyped d) (hr : d.Registry)
    (h : d.find req.ono = some j → ∀ p, req.write (d.obj j) = some p →
      ¬(d.obj j).priv.movesBeside p (w.level, w.index)) :
    Copied d (d.applySet req) w j := by
  obtain ⟨i, hi, hono, hkind, hlen⟩ := hreq
  have hf : d.find req.ono = some i := hono ▸ hr.find_ono hi
  cases hdsp : dspIsDspKind (d.obj i).kind with
  | true =>
    rw [applySet_dsp hf hdsp]
    refine copied_param false hi fun hij p hp => ?_
    subst hij
    exact h hf p hp
  | false =>
    simp only [Device.applySet, hf, hdsp, Bool.false_eq_true, if_false]
    split
    · exact .of_reflects (.refl d)
    · next level index hp =>
      split_ifs with hstr
      · have hk := hkind.1 hstr
        rw [hk] at hp
        obtain ⟨rfl, rfl⟩ := Prod.mk.inj (Option.some.inj hp)
        exact .of_reflects (reflects_commitStr _ hi hk (hlen.trans (by decide)))
      · exact .of_reflects (reflects_commitNum _ _ hi hp fun hk => hstr (hkind.2 hk))

/-! ### Turns -/

/-- What every turn upholds, whoever takes it. -/
structure Upholds (d d' : Device K) : Prop where
  length : d.objects.length ≤ d'.objects.length
  ident : ∀ i < d.objects.length, (d'.obj i).ident = (d.obj i).ident
  registry : d'.Registry
  contexts : ShortContexts d.subs → ShortContexts d'.subs

theorem Upholds.of_steady {T : Prop} (h : Steady T d d') (hr : d.Registry) : Upholds d d' where
  length := h.length
  ident := h.ident
  registry := h.registry hr
  contexts hc := by
    rw [h.subs]
    exact hc

theorem Upholds.executed {T : Prop} {c : ℕ} {cmd : Command} {st : Status}
    (h : Executed T d c cmd st d') (hr : d.Registry) : Upholds d d' where
  length := h.keeps.length
  ident := h.keeps.ident
  registry := h.keeps.registry hr
  contexts hc := by
    cases h with
    | other hs => exact (Upholds.of_steady hs hr).contexts hc
    | lock | unlock | subscribed => exact hc
    | @subscribe k s _ _ _ _ _ hctx =>
      intro k'
      change (Function.update d.subs k s k').context.length ≤ 8
      by_cases hk : k' = k
      · rw [hk, Function.update_self]
        exact hctx
      · rw [Function.update_of_ne hk]
        exact hc k'
    | unsubscribe =>
      intro k
      unfold Device.dropSubs
      dsimp only
      split_ifs
      · exact hc k
      · exact hc k

/-- The turn announces what it does to the property of object `i`, if it changes its value. A
command on the object is none that misses the property; a set request is one of a setter of the
class of its object, and does not miss it either; what is sent besides are no notifications, and
what changes beside is not the property. -/
def Turn.Announces (i : ObjRef) (level index : UInt16) (d : Device K) : Turn K → Prop
  | .command conn cmd params => d.find cmd.target = some i →
      ¬({ d with activeConn := some conn } : Device K).missesCall i cmd.level cmd.index params
        (level, index)
  | .set req => req.WellTyped d ∧ (d.find req.ono = some i → ∀ p, req.write (d.obj i) = some p →
      ¬(d.obj i).priv.movesBeside p (level, index))
  | .send _ frame => frame.getD 7 0 ≠ MsgType.ntf.code
  | .session d' => d'.shown i level index = d.shown i level index ∧
      ∀ k, (d'.subs k).context = (d.subs k).context
  | _ => True

/-- **Every turn** keeps the numbers of the objects and the bound on the contexts. -/
theorem Turn.upholds {t : Turn K} (h : t.Legal d) (ha : t.Announces i level index d)
    (hr : d.Registry) : Upholds d (t.run d) := by
  cases t with
  | create call parent role => exact .of_steady (T := False) (steady_create call parent role) hr
  | setMember i x y member =>
    exact .of_steady (T := False) (steady_matrixSetMember i x y member) hr
  | command conn cmd params =>
    obtain ⟨-, p, hrd, hbytes⟩ := h
    dsimp only at hrd
    subst hrd
    let call : Call K := ⟨{ d with activeConn := some conn }, Reader.init p cmd.params.length,
      Writer.init K.txBufferSize, 0⟩
    have hr' : call.dev.Registry := hr.congr rfl (fun _ _ => rfl) rfl
    have hcall : call.rd = Reader.init p cmd.params.length := rfl
    obtain ⟨d', hexec, hdev⟩ := execCommand_executed (T := False) (c := conn) rfl
      hbytes.symm hcall hr'
    have hup := Upholds.executed hexec hr'
    change Upholds d (execCommand conn cmd call).2.dev
    rw [hdev]
    exact ⟨hup.length, hup.ident, hup.registry.congr rfl (fun _ _ => rfl) rfl, hup.contexts⟩
  | set req => exact .of_steady (steady_applySet False.elim hr) hr
  | send c frame => exact .of_steady (T := False) (steady_connSend c frame) hr
  | session d' =>
    have hident (i : ObjRef) : (d'.obj i).ident = (d.obj i).ident :=
      Beside.obj_congr h (p := Obj.ident) (fun _ => rfl) i
    refine ⟨(Beside.length_eq h).ge, fun i _ => hident i,
      hr.congr (Beside.length_eq h) (fun i _ => hident i) (Beside.nextOno h), fun hc k => ?_⟩
    exact (congrArg List.length (ha.2 k)).trans_le (hc k)

theorem decode_of_type {f : Bytes} (h : f.getD 7 0 ≠ MsgType.ntf.code) :
    Notification.decode f = none := by
  unfold Notification.decode
  rw [if_neg]
  intro hhead
  have htype := congrArg (fun bs : Bytes => bs.getD 7 0) hhead
  refine h ?_
  simpa [List.getD_eq_getElem?_getD, List.getElem?_take, wr16, wr32] using htype

theorem copied_create (call : Create) (parent : Option ObjRef) (role : Bytes) :
    Copied d (d.create call parent role) w i := by
  unfold Device.create
  split
  · next h =>
    obtain ⟨he, -⟩ := Device.eq_of_objectAlloc h
    refine .of_property (by rw [Device.modifyObj, he]) (by rw [Device.modifyObj, he])
      (by rw [Device.modifyObj, he]) fun j hj l x => ?_
    exact property_objectAlloc h call.setup hj _ _ l x
  · next h =>
    obtain ⟨-, rfl⟩ := Device.objectAlloc_none h
    exact .of_property rfl rfl rfl fun _ _ _ _ => rfl

theorem copied_matrixSetMember (i : ObjRef) (x y : UInt16) (member : Option ObjRef) :
    Copied d (d.matrixSetMember i x y member) w j := by
  unfold Device.matrixSetMember
  split
  · next m hk hp =>
    split_ifs
    · exact .modifyObj fun _ => Obj.property_privateState (by rw [hk]; rfl) _ _ _ _ _
    · exact .of_reflects (.refl d)
  · exact .of_reflects (.refl d)

/-- **A command tells** what it changes, if it announces it. -/
theorem copied_command {conn : ℕ} {cmd : Command} {rd : Reader}
    (h : (Turn.command conn cmd rd).Announces i w.level w.index d) :
    Copied d ((Turn.command conn cmd rd).run d) w i := by
  let call : Call K := ⟨{ d with activeConn := some conn }, rd, Writer.init K.txBufferSize, 0⟩
  have hexec : Copied call.dev (execCommand conn cmd call).2.dev w i := by
    refine execCommand_keeps (P := fun e : Device K => Copied call.dev e w i)
      (fun e st he => he.emit fun _ => rfl) (.of_reflects (.refl _)) fun j hf => ?_
    refine dispatch_copied (c := call) (Device.find_lt hf) fun hji hs => ?_
    subst hji
    exact h hf hs
  intro hd k hw
  exact hexec ⟨hd.registry.congr rfl (fun _ _ => rfl) rfl, hd.contexts, hd.enabled⟩ k
    ⟨hw.lt, hw.ono, hw.inUse, hw.key, hw.conn⟩

/-- **A turn that announces what it does** leaves the copies right. -/
theorem Turn.copied {t : Turn K} (h : t.Legal d) (ha : t.Announces i w.level w.index d)
    (hd : d.Publishes) (hw : d.Watched w k i) : Log.Copies w.reads d.log (t.run d).log
      (d.shown i w.level w.index) ((t.run d).shown i w.level w.index) := by
  cases t with
  | create call parent role => exact copied_create call parent role hd k hw
  | setMember j x y member => exact copied_matrixSetMember j x y member hd k hw
  | command conn cmd params => exact copied_command ha hd k hw
  | set req => exact copied_applySet ha.1 hd.registry ha.2 hd k hw
  | send c frame =>
    have hread (n : ℕ) : w.reads (.tx c frame n) = none := by
      unfold Watch.reads Watch.value
      dsimp only
      rw [decode_of_type ha]
      split_ifs <;> rfl
    obtain ⟨es, hlog, hsilent⟩ := Device.grows_connSend (P := fun e => w.reads e = none) hread d
    exact .of_silent hlog hsilent (shown_of_core (Device.core_connSend d c frame) i _ _)
  | session d' =>
    obtain ⟨es, hlog, hsession⟩ := Beside.log h
    refine .of_silent hlog (fun e he => ?_) ha.1
    have hkind := hsession e he
    cases e with
    | accepted | authorized | closed => rfl
    | _ => cases hkind

/-! ### Runs -/

/-- What a turn must leave alone while the copy is kept: it announces what it does, slot `k` stays
in use, the connection open and notifications enabled. -/
structure Follow (w : Watch) (k : Fin K.maxSubscriptions) (i : ObjRef) (d : Device K)
    (t : Turn K) : Prop where
  announces : t.Announces i w.level w.index d
  inUse : ((t.run d).subs k).inUse = true
  conn : ∃ e, (t.run d).conn? w.conn = some e ∧ e.inUse = true
  enabled : (t.run d).notificationsDisabled = false

theorem Follow.keeps {t : Turn K} (h : t.Legal d) (hf : Follow w k i d t) (hd : d.Publishes)
    (hw : d.Watched w k i) : (t.run d).Publishes ∧ (t.run d).Watched w k i := by
  have hup := Turn.upholds h hf.announces hd.registry
  refine ⟨⟨hup.registry, hup.contexts hd.contexts, hf.enabled⟩, hw.lt.trans_le hup.length,
    (congrArg Prod.fst (hup.ident i hw.lt)).trans hw.ono, hf.inUse, ?_, hf.conn⟩
  rw [(Turn.table h).step.kept hw.inUse hf.inUse]
  exact hw.key

namespace Sample

/-- The device after the client in slot 0 has subscribed to the root block. -/
def subscribed : Device .default := Device.closeUnless firstSlot
  (((connected.modifyConn firstSlot fun e =>
    { e with rx := e.rx ++ subscribeFrame, lastRxUs := 0 }).handleFrame firstSlot
      ⟨1, 1, subscribeFrame.drop 10⟩ (Ptr.ofBytes [] fun _ => 0)).modifyConn firstSlot
        fun e => { e with rx := [] }, true)

end Sample

end Aes70
