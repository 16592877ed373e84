import Aes70.Device.Core
import Aes70.Machine.Log
import Aes70.Ocp1.Laws

/-!
# Delivery of notifications

A notification is dropped when its frame overflows the transmit buffer. It never does when the
property is short: then every subscription to the event is served exactly once.

* `Device.propertySize` : how many bytes of a notification the property takes.
* `Device.propertySize_le` : short for everything but strings.
* `Delivered` : a notification went to the subscriptions that watch the object, in table order.
* `Device.notifyAll_sent` : it does when the property and the contexts are short.
* `Device.grows_notify` : what a notification adds to the log.
-/

namespace Aes70

variable {K : Kconfig}

/-! ### Sizes -/

/-- The number of bytes a sequence of fields takes. -/
def fieldsSize (fs : List Field) : ℕ := (fs.map Field.size).sum

section Property

variable {index : UInt16} {fs : List Field}

theorem DynState.property_size {d : DynState} (h : d.property index = some fs) :
    fieldsSize fs ≤ 8 := by
  unfold DynState.property at h
  split at h <;> cases h <;> simp [fieldsSize, Field.size]

theorem FltState.property_size {f : FltState} (h : f.property index = some fs) :
    fieldsSize fs ≤ 8 := by
  unfold FltState.property at h
  split at h <;> cases h <;> simp [fieldsSize, Field.size]

theorem PeqState.property_size {p : PeqState} (h : p.property index = some fs) :
    fieldsSize fs ≤ 8 := by
  unfold PeqState.property at h
  split at h <;> cases h <;> simp [fieldsSize, Field.size]

theorem PanState.property_size {p : PanState} (h : p.property index = some fs) :
    fieldsSize fs ≤ 8 := by
  unfold PanState.property at h
  split at h <;> cases h <;> simp [fieldsSize, Field.size]

theorem SigState.property_size {s : SigState} (h : s.property index = some fs) :
    fieldsSize fs ≤ 8 := by
  unfold SigState.property at h
  split at h <;> cases h <;> simp [fieldsSize, Field.size]

theorem dspEncodeProperty_size {o : Obj} {level : UInt16}
    (h : dspEncodeProperty o level index = some fs) : fieldsSize fs ≤ 8 := by
  unfold dspEncodeProperty at h
  split_ifs at h
  split at h
  · exact DynState.property_size h
  · exact FltState.property_size h
  · exact PeqState.property_size h
  · exact PanState.property_size h
  · exact SigState.property_size h
  · cases h

theorem encodeValue_size {o : Obj} (h : o.kind ≠ .string) : fieldsSize (encodeValue o) ≤ 8 := by
  unfold encodeValue
  split <;> simp_all [fieldsSize, Field.size]

end Property

namespace Device

/-- The bytes the property takes in a notification; an unknown one takes none. -/
def propertySize (d : Device K) (i : ObjRef) (level index : UInt16) : ℕ :=
  fieldsSize ((d.encodeProperty i level index).getD [])

section Size

variable {d : Device K} {i : ObjRef} {level index : UInt16}

theorem encodeClassProperty_size {o : Obj} (h : ¬(o.kind = .string ∧ level = 5)) :
    fieldsSize ((encodeClassProperty o level index).getD []) ≤ 8 := by
  unfold encodeClassProperty
  split
  · next fs hfs => exact dspEncodeProperty_size hfs
  · split_ifs with hp
    · refine encodeValue_size fun hk => h ⟨hk, ?_⟩
      rw [hk] at hp
      exact (Prod.mk.inj (Option.some.inj hp)).1.symm
    · exact Nat.zero_le _

/-- Every property but the strings is short. -/
theorem propertySize_le (hlabel : ¬(level = 2 ∧ index = 3))
    (hdev : ¬((d.obj i).kind = .deviceManager ∧ level = 3))
    (hstr : ¬((d.obj i).kind = .string ∧ level = 5)) : d.propertySize i level index ≤ 8 := by
  unfold propertySize encodeProperty
  dsimp only
  rw [if_neg (fun h => hdev ⟨h.1, h.2.1⟩ : ¬(_ ∧ level = 3 ∧ index = 4)),
    if_neg (fun h => hdev ⟨h.1, h.2.1⟩ : ¬(_ ∧ level = 3 ∧ index = 6)), if_neg hlabel]
  split_ifs
  · simp [fieldsSize, Field.size]
  · exact encodeClassProperty_size hstr

theorem propertySize_label {s : Bytes} (h : (d.obj i).label = some s) :
    d.propertySize i 2 3 = 2 + s.length := by
  simp [propertySize, encodeProperty, h, fieldsSize, Field.size]

theorem propertySize_deviceName (h : (d.obj i).kind = .deviceManager) :
    d.propertySize i 3 4 = 2 + d.deviceName.length := by
  simp [propertySize, encodeProperty, h, fieldsSize, Field.size]

theorem propertySize_deviceRole (h : (d.obj i).kind = .deviceManager) :
    d.propertySize i 3 6 = 2 + d.deviceRole.length := by
  simp [propertySize, encodeProperty, h, fieldsSize, Field.size]

theorem propertySize_str {s : Bytes} (hk : (d.obj i).kind = .string)
    (h : (d.obj i).str = some s) : d.propertySize i 5 1 = 2 + s.length := by
  simp [propertySize, encodeProperty, encodeClassProperty, dspEncodeProperty, primaryProperty,
    encodeValue, hk, h, fieldsSize, Field.size]

end Size

/-! ### Frames -/

/-- The fields of a notification. -/
def notificationFields (d : Device K) (s : Subscription) (i : ObjRef) (level index : UInt16) :
    List Field :=
  [.u8 ocp1SyncVal, .u16 ocp1ProtoVersion] ++ [.u32 0, .u8 MsgType.ntf.code, .u16 1] ++
    [.u32 0, .u32 s.subOno, .u16 s.subMethodLevel, .u16 s.subMethodIndex, .u8 2,
      .blob s.context, .u32 (d.obj i).ono, .u16 1, .u16 1, .u16 level, .u16 index] ++
    (d.encodeProperty i level index).getD [] ++ [.u8 1]

/-- Property and context are short enough for the smallest transmit buffer. -/
theorem notificationFrame_isSome {d : Device K} {s : Subscription} {i : ObjRef}
    {level index : UInt16} (hs : s.context.length ≤ 8) (hp : d.propertySize i level index ≤ 400) :
    ∃ frame, d.notificationFrame s i level index = some frame := by
  have hsize : (Field.encodeAll (d.notificationFields s i level index)).length ≤ 512 := by
    rw [Field.length_encodeAll]
    unfold propertySize fieldsSize at hp
    simp only [notificationFields, List.map_append, List.sum_append, List.map_cons, List.map_nil,
      List.sum_cons, List.sum_nil, Field.size]
    omega
  have hfits : ((Writer.init K.txBufferSize).fields
      (d.notificationFields s i level index)).err = false := by
    rw [Writer.fields_of_fits rfl]
    · rfl
    · rw [show (Writer.init K.txBufferSize).off = 0 from rfl, Nat.zero_add]
      exact hsize.trans K.txBufferSize_range.1
  simp only [notificationFields, Writer.fields_append] at hfits
  unfold notificationFrame
  dsimp only
  rw [if_neg]
  · exact ⟨_, rfl⟩
  · intro h
    cases hfits.symm.trans h

end Device

/-! ### Delivery -/

/-- The connections whose subscriptions watch the object, in table order. -/
def watchers (subs : Fin K.maxSubscriptions → Subscription) (ono : UInt32) : List ℕ :=
  ((List.finRange K.maxSubscriptions).filter fun k => (subs k).watches ono).map
    fun k => (subs k).connIdx

/-- If the event is a notification, it was handed over once for each subscription that watches the
object, and for no other. -/
def Delivered (subs : Fin K.maxSubscriptions → Subscription) (e : Event) : Prop :=
  ∀ i o level index sent, e = .propertyChanged i o level index sent →
    sent.map Prod.fst = watchers subs o.ono

/-- What the table stores of the contexts, at most `sizeof(context)` bytes. -/
def ShortContexts (subs : Fin K.maxSubscriptions → Subscription) : Prop :=
  ∀ k, (subs k).context.length ≤ 8

namespace Device

variable {d : Device K} {i : ObjRef} {level index : UInt16}

theorem propertySize_eq_of_core {d d' : Device K} (h : d.core = d'.core) (i : ObjRef)
    (level index : UInt16) : d.propertySize i level index = d'.propertySize i level index := by
  have hsize : d.core.propertySize i level index = d'.core.propertySize i level index := by rw [h]
  exact hsize

theorem notifySlot_sent {d₀ : Device K} {st : Device K × List (ℕ × Bytes)}
    (hcore : st.1.core = d₀.core) (hctx : ShortContexts d₀.subs)
    (hp : d₀.propertySize i level index ≤ 400) (k : Fin K.maxSubscriptions) :
    (notifySlot i level index st k).2.map Prod.fst = st.2.map Prod.fst ++
      if (d₀.subs k).watches (d₀.obj i).ono then [(d₀.subs k).connIdx] else [] := by
  obtain ⟨d, sent⟩ := st
  have hsubs : d.subs = d₀.subs := subs_eq_of_core hcore
  have hobj : d.obj i = d₀.obj i := obj_eq_of_core hcore i
  have hsize : d.propertySize i level index ≤ 400 :=
    (propertySize_eq_of_core hcore i level index).trans_le hp
  simp only [notifySlot, hsubs, hobj]
  split_ifs
  · obtain ⟨frame, hframe⟩ := notificationFrame_isSome (hctx k) hsize
    rw [hframe, List.map_append]
    rfl
  · rw [List.append_nil]

/-- **Every subscription is served once**, if the property is short. -/
theorem notifyAll_sent (hctx : ShortContexts d.subs) (hp : d.propertySize i level index ≤ 400) :
    (d.notifyAll i level index).2.map Prod.fst = watchers d.subs (d.obj i).ono := by
  have hall : ∀ (ks : List (Fin K.maxSubscriptions)) (st : Device K × List (ℕ × Bytes)),
      st.1.core = d.core →
      (ks.foldl (notifySlot i level index) st).2.map Prod.fst = st.2.map Prod.fst ++
        (ks.filter fun k => (d.subs k).watches (d.obj i).ono).map fun k => (d.subs k).connIdx := by
    intro ks
    induction ks with
    | nil => simp
    | cons k ks ih =>
      intro st hcore
      rw [List.foldl_cons, ih _ ((core_notifySlot i level index st k).trans hcore),
        notifySlot_sent hcore hctx hp, List.append_assoc, List.filter_cons]
      split_ifs <;> simp
  exact hall _ (d, []) rfl

theorem delivered_notify (hctx : ShortContexts d.subs)
    (hp : d.propertySize i level index ≤ 400) :
    Delivered d.subs
      (.propertyChanged i (d.obj i) level index (d.notifyAll i level index).2) := by
  rintro _ _ _ _ _ ⟨⟩
  exact notifyAll_sent hctx hp

/-! ### The log -/

theorem notificationFrame_of_core {d d' : Device K} (h : d.core = d'.core) (s : Subscription)
    (i : ObjRef) (level index : UInt16) :
    d.notificationFrame s i level index = d'.notificationFrame s i level index := by
  have hframe : d.core.notificationFrame s i level index =
      d'.core.notificationFrame s i level index := by rw [h]
  exact hframe

variable {P : Event → Prop}

theorem grows_connSend {c : ℕ} {frame : Bytes} (h : ∀ n, P (.tx c frame n)) (d : Device K) :
    Log.Grows P d.log (d.connSend c frame).log := by
  unfold connSend
  split_ifs
  · dsimp only
    split_ifs
    · exact .concat (h _) _
    · exact .concat (h _) _
  · rfl
  · rfl

/-- **What a notification adds to the log**: the transmissions of its frames, and its record. -/
theorem grows_notify (htx : ∀ k f n, d.notificationFrame (d.subs k) i level index = some f →
      P (.tx (d.subs k).connIdx f n))
    (hrecord : P (.propertyChanged i (d.obj i) level index (d.notifyAll i level index).2)) :
    Log.Grows P d.log (d.notify i level index).log := by
  -- a slot sends the frame that the whole device has for it
  have hslot : ∀ st : Device K × List (ℕ × Bytes), st.1.core = d.core → ∀ k,
      Log.Grows P st.1.log (notifySlot i level index st k).1.log := by
    intro st hcore k
    simp only [notifySlot, subs_eq_of_core hcore, notificationFrame_of_core hcore]
    split_ifs
    · split
      next f hf => exact grows_connSend (fun n => htx k f n hf) _
      · rfl
    · rfl
  have hall : Log.Grows P d.log (d.notifyAll i level index).1.log := by
    have hrun : (d.notifyAll i level index).1.core = d.core ∧
        Log.Grows P d.log (d.notifyAll i level index).1.log :=
      List.foldlRecOn (motive := fun st : Device K × List (ℕ × Bytes) =>
        st.1.core = d.core ∧ Log.Grows P d.log st.1.log) _ _ ⟨rfl, .refl _⟩ fun st ih k _ =>
          ⟨(core_notifySlot i level index st k).trans ih.1, ih.2.trans (hslot st ih.1 k)⟩
    exact hrun.2
  rw [notify_eq]
  split_ifs
  · rfl
  · exact hall.trans (.concat hrecord _)

end Device

end Aes70
