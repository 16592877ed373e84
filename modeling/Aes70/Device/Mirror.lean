import Aes70.Class.Recall

/-!
# What subscribers are told of changes

A subscriber that keeps a copy of an object's properties relies on being told of every change, with
the value as it is when the dust has settled.

* `Device.wireProperty` : a property as it is sent.
* `Announced d d' i level index` : between `d` and `d'` the property was notified, at a point where
  its encoding was already that of `d'`.
* `Mirrors d d'` : the devices differ by value changes, and every change was announced.
* `mirrors_store` : a store and the notification of the one property it changes.
* `mirrors_commitNum`, `mirrors_recall` : so do all copies of a commit and all entries of a recall.
* `Tells d d' i level index` : no other property was notified between `d` and `d'`.
-/

namespace Aes70

variable {K : Kconfig}

/-! ### Encodings -/

/-- A property of an object of a device with this name and role. -/
def Obj.property (o : Obj) (deviceName deviceRole : Bytes) (level index : UInt16) :
    Option (List Field) :=
  if level = 2 ∧ index = 1 then some [.u8 (flag o.enabled)]
  else if level = 2 ∧ index = 3 then some [.string (o.label.getD [])]
  else if o.kind = .deviceManager ∧ level = 3 ∧ index = 4 then some [.string deviceName]
  else if o.kind = .deviceManager ∧ level = 3 ∧ index = 6 then some [.string deviceRole]
  else Device.encodeClassProperty o level index

namespace Device

theorem encodeProperty_eq (d : Device K) (i : ObjRef) (level index : UInt16) :
    d.encodeProperty i level index =
      (d.obj i).property d.deviceName d.deviceRole level index := rfl

/-- The bytes a property is sent as, `none` for one that is not known. -/
def wireProperty (d : Device K) (i : ObjRef) (level index : UInt16) : Option Bytes :=
  (d.encodeProperty i level index).map Field.encodeAll

theorem encodeProperty_of_core {d d' : Device K} (h : d.core = d'.core) (i : ObjRef)
    (level index : UInt16) : d.encodeProperty i level index = d'.encodeProperty i level index := by
  have hcore : d.core.encodeProperty i level index = d'.core.encodeProperty i level index := by
    rw [h]
  exact hcore

theorem wireProperty_of_core {d d' : Device K} (h : d.core = d'.core) (i : ObjRef)
    (level index : UInt16) : d.wireProperty i level index = d'.wireProperty i level index := by
  rw [wireProperty, wireProperty, encodeProperty_of_core h]

/-- A property depends on its object, and on the name and the role of the device. -/
theorem wireProperty_congr {d d' : Device K} {i : ObjRef} {level index : UInt16}
    (hname : d'.deviceName = d.deviceName) (hrole : d'.deviceRole = d.deviceRole)
    (hobj : (d'.obj i).property d.deviceName d.deviceRole level index =
      (d.obj i).property d.deviceName d.deviceRole level index) :
    d'.wireProperty i level index = d.wireProperty i level index := by
  rw [wireProperty, wireProperty, encodeProperty_eq, encodeProperty_eq, hname, hrole, hobj]

end Device

section Stores

variable {o : Obj} {name role : Bytes} {level index : UInt16}

theorem Obj.property_num (v : F64) (h : primaryProperty o.kind ≠ some (level, index)) :
    { o with num := v }.property name role level index = o.property name role level index := by
  unfold property Device.encodeClassProperty
  simp only [if_neg h]
  rfl

theorem Obj.property_str (s : Option Bytes) (h : primaryProperty o.kind ≠ some (level, index)) :
    { o with str := s }.property name role level index = o.property name role level index := by
  unfold property Device.encodeClassProperty
  simp only [if_neg h]
  rfl

theorem Obj.property_enabled (b : Bool) (h : ¬(level = 2 ∧ index = 1)) :
    { o with enabled := b }.property name role level index = o.property name role level index := by
  unfold property
  rw [if_neg h, if_neg h]
  rfl

theorem Obj.property_label (s : Option Bytes) (h : ¬(level = 2 ∧ index = 3)) :
    { o with label := s }.property name role level index = o.property name role level index := by
  unfold property
  rw [if_neg h, if_neg h]
  rfl

theorem Obj.property_priv {p : Priv} (h : dspEncodeProperty { o with priv := p } level index =
    dspEncodeProperty o level index) :
    { o with priv := p }.property name role level index = o.property name role level index := by
  unfold property Device.encodeClassProperty
  rw [h]
  rfl

end Stores

/-! ### Announcements -/

/-- On the way from `d` to `d'` the property was notified to the subscriptions of `d`, at a point
where it was already what it is in `d'`. -/
def Announced (d d' : Device K) (i : ObjRef) (level index : UInt16) : Prop :=
  ∃ e : Device K, e.notificationsDisabled = false ∧ e.subs = d.subs ∧ d.log <+: e.log ∧
    (e.notify i level index).log <+: d'.log ∧
      e.wireProperty i level index = d'.wireProperty i level index

/-- Every property that changed was announced. -/
def UpToDate (d d' : Device K) : Prop :=
  ∀ i < d.objects.length, ∀ level index, d.encodeProperty i level index ≠ none →
    d'.wireProperty i level index ≠ d.wireProperty i level index → Announced d d' i level index

/-- The devices differ by value changes and output, and if notifications are enabled every change
was announced. -/
structure Mirrors (d d' : Device K) : Prop where
  subs : d'.subs = d.subs
  disabled : d'.notificationsDisabled = d.notificationsDisabled
  length : d'.objects.length = d.objects.length
  kind : ∀ i, (d'.obj i).kind = (d.obj i).kind
  log : d.log <+: d'.log
  upToDate : d.notificationsDisabled = false → ∀ i < d.objects.length, ∀ level index,
    d'.wireProperty i level index ≠ d.wireProperty i level index → Announced d d' i level index

variable {d d' d'' : Device K} {i : ObjRef} {level index : UInt16}

namespace Mirrors

theorem trans (h : Mirrors d d') (h' : Mirrors d' d'') : Mirrors d d'' where
  subs := h'.subs.trans h.subs
  disabled := h'.disabled.trans h.disabled
  length := h'.length.trans h.length
  kind i := (h'.kind i).trans (h.kind i)
  log := h.log.trans h'.log
  upToDate hon i hi level index hne := by
    by_cases hlast : d''.wireProperty i level index = d'.wireProperty i level index
    · -- the property has its final value in `d'` already
      rw [hlast] at hne
      obtain ⟨e, hen, hsubs, hlog, hlog', hwire⟩ := h.upToDate hon i hi level index hne
      exact ⟨e, hen, hsubs, hlog, hlog'.trans h'.log, hwire.trans hlast.symm⟩
    · obtain ⟨e, hen, hsubs, hlog, hlog', hwire⟩ :=
        h'.upToDate (h.disabled.trans hon) i (h.length ▸ hi) level index hlast
      exact ⟨e, hen, hsubs.trans h.subs, h.log.trans hlog, hlog', hwire⟩

/-- Nothing but output. -/
theorem of_core (hcore : d'.core = d.core) (hlog : d.log <+: d'.log) : Mirrors d d' where
  subs := Device.subs_eq_of_core hcore
  disabled := by
    have := congrArg Device.notificationsDisabled hcore
    exact this
  length := by rw [Device.objects_eq_of_core hcore]
  kind i := by rw [Device.obj_eq_of_core hcore]
  log := hlog
  upToDate _ i _ level index hne := absurd (Device.wireProperty_of_core hcore i level index) hne

theorem refl (d : Device K) : Mirrors d d := of_core rfl List.prefix_rfl

theorem foldl {α : Type} {f : Device K → α → Device K} {l : List α}
    (h : ∀ d', ∀ a ∈ l, Mirrors d d' → Mirrors d' (f d' a)) : Mirrors d (l.foldl f d) :=
  List.foldlRecOn (motive := fun d' => Mirrors d d') _ _ (.refl d)
    fun d' ih a ha => ih.trans (h d' a ha ih)

end Mirrors

theorem Device.Outputs.log_grows (h : Device.Outputs d d') : d.log <+: d'.log := by
  obtain ⟨es, he, -⟩ := h
  exact ⟨es, he.symm⟩

theorem mirrors_controlChanged (i : ObjRef) : Mirrors d (d.controlChanged i) :=
  .of_core (Device.core_controlChanged d i) (Device.outputs_controlChanged d i).log_grows

/-- A store, and the notification of the one property it changes. -/
theorem mirrors_store {f : Obj → Obj} (hkind : ∀ o, (f o).kind = o.kind)
    (hf : i < d.objects.length → ∀ l x, (l, x) ≠ (level, index) →
      (f (d.obj i)).property d.deviceName d.deviceRole l x =
        (d.obj i).property d.deviceName d.deviceRole l x) :
    Mirrors d ((d.modifyObj i f).notify i level index) where
  subs := by
    have := Device.subs_eq_of_core (Device.core_notify (d.modifyObj i f) i level index)
    exact this
  disabled := by
    have := congrArg Device.notificationsDisabled
      (Device.core_notify (d.modifyObj i f) i level index)
    exact this
  length := by
    rw [Device.objects_eq_of_core (Device.core_notify (d.modifyObj i f) i level index),
      Device.length_modifyObj]
  kind j := by rw [Device.obj_notify, Device.obj_modifyObj_congr Obj.kind hkind]
  log := (Device.outputs_notify (d.modifyObj i f) i level index).log_grows
  upToDate hon j hj l x hne := by
    have hwire := Device.wireProperty_of_core (Device.core_notify (d.modifyObj i f) i level index)
    by_cases hprop : j = i ∧ (l, x) = (level, index)
    · obtain ⟨rfl, ⟨rfl, rfl⟩⟩ := hprop
      exact ⟨d.modifyObj j f, hon, rfl, List.prefix_rfl, List.prefix_rfl, (hwire j level index).symm⟩
    · -- other objects, and other properties of this one
      rw [hwire] at hne
      refine (hne (Device.wireProperty_congr rfl rfl ?_)).elim
      by_cases hji : i = j
      · subst hji
        rw [Device.obj_modifyObj_self hj]
        exact hf hj l x fun h => hprop ⟨rfl, h⟩
      · rw [Device.obj_modifyObj_ne hji]

/-! ### Commits -/

theorem mirrors_storeNum (v : F64) (hp : primaryProperty (d.obj i).kind = some (level, index)) :
    Mirrors d ((d.modifyObj i fun o => { o with num := v }).notify i level index) :=
  mirrors_store (fun _ => by rfl) fun _ l x hne => Obj.property_num v fun h => hne (by
    rw [hp] at h
    exact (Option.some.inj h).symm)

theorem mirrors_grouperOnCommit (i : ObjRef) : Mirrors d (d.grouperOnCommit i) := by
  unfold Device.grouperOnCommit
  split
  · next level index hp =>
    refine Mirrors.foldl fun d' c hc hd => ?_
    have hkind : (d'.obj c).kind = (d.obj i).kind :=
      (hd.kind c).trans (Device.mem_fanTargets hc).2.1
    exact (mirrors_storeNum _ (by rwa [hkind])).trans (mirrors_controlChanged c)
  · exact .refl d

/-- **A commit is announced**, with all copies it makes. -/
theorem mirrors_commitNum (v : F64) (b : Bool)
    (hp : primaryProperty (d.obj i).kind = some (level, index)) :
    Mirrors d (d.commitNum i v level index b) := by
  have hstore := mirrors_storeNum v hp
  unfold Device.commitNum
  dsimp only
  split_ifs
  · exact (hstore.trans (mirrors_controlChanged i)).trans (mirrors_grouperOnCommit i)
  · exact hstore

theorem mirrors_commitStr (s : Bytes) (b : Bool)
    (hp : primaryProperty (d.obj i).kind = some (level, index)) :
    Mirrors d (d.commitStr i s level index b) := by
  have hstore : Mirrors d
      ((d.modifyObj i fun o => { o with str := some s }).notify i level index) :=
    mirrors_store (fun _ => by rfl) fun _ l x hne => Obj.property_str _ fun h => hne (by
      rw [hp] at h
      exact (Option.some.inj h).symm)
  unfold Device.commitStr
  dsimp only
  split_ifs
  · exact hstore.trans (mirrors_controlChanged i)
  · exact hstore

theorem mirrors_recall (es : List (UInt32 × F64)) : Mirrors d (d.recall es) :=
  Device.recall_rel .refl .trans (fun _ _ _ _ _ _ hp _ => mirrors_commitNum _ _ hp) d es

/-! ### Missing announcements -/

/-- The log of `d'` extends that of `d`, and of notifications by those of this property only. -/
def Tells (d d' : Device K) (i : ObjRef) (level index : UInt16) : Prop :=
  ∃ es, d'.log = d.log ++ es ∧ ∀ j o l x sent,
    Event.propertyChanged j o l x sent ∈ es → (j, l, x) = (i, level, index)

namespace Tells

theorem of_log_eq (h : d'.log = d.log) : Tells d d' i level index := ⟨[], by simp [h], by simp⟩

theorem emit (h : Tells d d' i level index) {e : Event}
    (he : ∀ j o l x sent, e = .propertyChanged j o l x sent → (j, l, x) = (i, level, index)) :
    Tells d (d'.emit e) i level index := by
  obtain ⟨es, hes, hall⟩ := h
  refine ⟨es ++ [e], by rw [Device.emit, hes, List.append_assoc], fun j o l x sent hmem => ?_⟩
  rcases List.mem_append.1 hmem with hmem | hmem
  · exact hall j o l x sent hmem
  · exact he j o l x sent (List.mem_singleton.1 hmem).symm

theorem trans (h : Tells d d' i level index) (h' : Tells d' d'' i level index) :
    Tells d d'' i level index := by
  obtain ⟨es, he, hes⟩ := h
  obtain ⟨es', he', hes'⟩ := h'
  refine ⟨es ++ es', by rw [he', he, List.append_assoc], fun j o l x sent hmem => ?_⟩
  exact (List.mem_append.1 hmem).elim (hes j o l x sent) (hes' j o l x sent)

end Tells

theorem tells_connSend (c : ℕ) (frame : Bytes) : Tells d (d.connSend c frame) i level index := by
  unfold Device.connSend
  split_ifs
  · dsimp only
    have htx (n : ℕ) : Tells d (d.emit (.tx c frame n)) i level index :=
      (Tells.of_log_eq rfl).emit fun _ _ _ _ _ h => nomatch h
    split_ifs
    · exact htx _
    · exact htx _
  · exact .of_log_eq rfl
  · exact .of_log_eq rfl

theorem tells_notifyAll : Tells d (d.notifyAll i level index).1 i level index :=
  List.foldlRecOn
    (motive := fun st : Device K × List (ℕ × Bytes) => Tells d st.1 i level index) _ _
      (.of_log_eq rfl) fun st ih k _ => by
    refine ih.trans ?_
    simp only [Device.notifySlot]
    split_ifs
    · split
      · exact tells_connSend _ _
      · exact .of_log_eq rfl
    · exact .of_log_eq rfl

theorem tells_notify : Tells d (d.notify i level index) i level index := by
  rw [Device.notify_eq]
  split_ifs
  · exact .of_log_eq rfl
  · refine tells_notifyAll.emit fun j o l x sent h => ?_
    cases h
    rfl

theorem tells_controlChanged (j : ObjRef) : Tells d (d.controlChanged j) i level index := by
  unfold Device.controlChanged
  split_ifs
  · exact (Tells.of_log_eq rfl).emit fun _ _ _ _ _ h => nomatch h
  · exact .of_log_eq rfl

/-- What was announced is in the log. -/
theorem Announced.mem_log (h : Announced d d' i level index) :
    ∃ es o sent, d'.log = d.log ++ es ∧ Event.propertyChanged i o level index sent ∈ es := by
  obtain ⟨e, hon, -, ⟨es, hes⟩, ⟨es', hes'⟩, -⟩ := h
  rw [Device.notify_eq, if_neg (by rw [hon]; exact Bool.false_ne_true)] at hes'
  obtain ⟨out, hout, -⟩ := Device.outputs_notifyAll e i level index
  refine ⟨es ++ out ++ [.propertyChanged i (e.obj i) level index
    (e.notifyAll i level index).2] ++ es', e.obj i, (e.notifyAll i level index).2, ?_, ?_⟩
  · rw [← hes', Device.emit, hout, ← hes]
    simp only [List.append_assoc]
  · exact List.mem_append_left _ (List.mem_append_right _ (List.mem_singleton.2 rfl))

/-- Where only one property is told of, no other was announced. -/
theorem not_announced {j : ObjRef} {l x : UInt16} (h : Tells d d' j l x)
    (hne : (i, level, index) ≠ (j, l, x)) : ¬Announced d d' i level index := by
  intro ha
  obtain ⟨es, hes, hall⟩ := h
  obtain ⟨es', o, sent, hes', hmem⟩ := ha.mem_log
  rw [hes] at hes'
  obtain rfl := List.append_cancel_left hes'
  exact hne (hall i o level index sent hmem)

end Aes70
