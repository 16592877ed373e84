import Aes70.Machine.Copy
import Aes70.Server.Control
import Aes70.Server.Subscriber

/-!
# What a watcher reads

A controller that is subscribed to an object sees of it the frames handed to the socket of its
connection. Among them are the notifications, and each carries the value of a property.

* `Watch` : a property as it is watched from a connection; `Watch.reads` : what a frame tells of it.
* `Device.shown` : the value of a property as a notification carries it.
* `Device.Watched` : a slot of the table is the subscription of the watcher.
* `handed_notify` : the frames that a notification is recorded to have sent are those handed over.
* `copies_notify` : a notification tells the watcher the value of its property, and nothing of
  others.
* `Reflects d d'` : the devices differ by value changes, and whoever copies what is sent has the
  value in the end.
* `reflects_commitNum`, `reflects_recall` : so do all copies of a commit and all entries of a
  recall.
-/

namespace Aes70

variable {K : Kconfig}

/-! ### The controller -/

/-- A property of the object with number `ono`, watched from connection `conn`. -/
structure Watch where
  conn : ℕ
  ono : UInt32
  level : UInt16
  index : UInt16

namespace Watch

/-- The value of the property, if the frame is a notification of it. -/
def value (w : Watch) (f : Bytes) : Option Bytes :=
  (Notification.decode f).bind fun n =>
    if n.emitter = w.ono ∧ n.propLevel = w.level ∧ n.propIndex = w.index then some n.value else none

/-- What the controller learns from an event: it sees the frames on its connection. -/
def reads (w : Watch) : Event → Option Bytes
  | .tx conn f _ => if conn = w.conn then w.value f else none
  | _ => none

end Watch

/-! ### The device -/

namespace Device

/-- The value of a property as a notification carries it. -/
def shown (d : Device K) (i : ObjRef) (level index : UInt16) : Bytes :=
  Field.encodeAll ((d.encodeProperty i level index).getD [])

/-- Slot `k` is the subscription of the connection of `w` to the object `i`, which is the one that
`w` watches, and the connection is open. -/
structure Watched (d : Device K) (w : Watch) (k : Fin K.maxSubscriptions) (i : ObjRef) : Prop where
  lt : i < d.objects.length
  ono : (d.obj i).ono = w.ono
  inUse : (d.subs k).inUse = true
  key : (d.subs k).key = ⟨w.conn, w.ono, 1, 1⟩
  conn : ∃ e, d.conn? w.conn = some e ∧ e.inUse = true

/-- Notifications are sent, and can be read. -/
structure Publishes (d : Device K) : Prop where
  registry : d.Registry
  contexts : ShortContexts d.subs
  enabled : d.notificationsDisabled = false

end Device

variable {d d' d'' e : Device K} {w : Watch} {k : Fin K.maxSubscriptions} {i j : ObjRef}
  {level index : UInt16}

theorem shown_of_core (h : d.core = d'.core) (i : ObjRef) (level index : UInt16) :
    d.shown i level index = d'.shown i level index := by
  rw [Device.shown, Device.shown, Device.encodeProperty_of_core h]

/-- What is shown depends on the object, and on the name and the role of the device. -/
theorem shown_congr (hname : d'.deviceName = d.deviceName) (hrole : d'.deviceRole = d.deviceRole)
    (hobj : (d'.obj i).property d.deviceName d.deviceRole level index =
      (d.obj i).property d.deviceName d.deviceRole level index) :
    d'.shown i level index = d.shown i level index := by
  rw [Device.shown, Device.shown, Device.encodeProperty_eq, Device.encodeProperty_eq, hname, hrole,
    hobj]

theorem conn?_inUse_of_standing {c : ℕ} (h : ∀ c, (d'.conns c).standing = (d.conns c).standing)
    (hc : ∃ e, d.conn? c = some e ∧ e.inUse = true) :
    ∃ e, d'.conn? c = some e ∧ e.inUse = true := by
  obtain ⟨e, he, huse⟩ := hc
  unfold Device.conn? at he ⊢
  split_ifs at he ⊢ with hlt
  obtain rfl := Option.some.inj he
  refine ⟨_, rfl, ?_⟩
  have hstand := congrArg Conn.inUse (h ⟨c, hlt⟩)
  exact hstand.trans huse

theorem conn?_inUse_of_core {c : ℕ} (h : d'.core = d.core)
    (hc : ∃ e, d.conn? c = some e ∧ e.inUse = true) : ∃ e, d'.conn? c = some e ∧ e.inUse = true :=
  conn?_inUse_of_standing (fun c => by
    have hsession : (d'.conns c).session = (d.conns c).session :=
      congrFun (congrArg Device.conns h) c
    have hstand : (d'.conns c).session.standing = (d.conns c).session.standing := by rw [hsession]
    exact hstand) hc

theorem Device.Watched.steady (h : d.Watched w k i) (hs : Steady True d d') : d'.Watched w k i where
  lt := h.lt.trans_le hs.length
  ono := (congrArg Prod.fst (hs.ident i h.lt)).trans h.ono
  inUse := by
    rw [hs.subs]
    exact h.inUse
  key := by
    rw [hs.subs]
    exact h.key
  conn := conn?_inUse_of_standing hs.standing h.conn

/-! ### Notifications -/

theorem value_notificationFrame {f : Bytes} (hctx : ShortContexts d.subs)
    (h : d.notificationFrame (d.subs k) i level index = some f) :
    w.value f = if (d.obj i).ono = w.ono ∧ level = w.level ∧ index = w.index
      then some (d.shown i level index) else none := by
  unfold Watch.value
  rw [decode_notificationFrame (hctx k) h]
  rfl

theorem log_notifySlot (i : ObjRef) (level index : UInt16) (st : Device K × List (ℕ × Bytes))
    (k : Fin K.maxSubscriptions) :
    ∃ es, (Device.notifySlot i level index st k).1.log = st.1.log ++ es := by
  simp only [Device.notifySlot]
  split_ifs
  · split
    · obtain ⟨es, hes, -⟩ := Device.outputs_connSend st.1 (st.1.subs k).connIdx _
      exact ⟨es, hes⟩
    · exact ⟨[], (List.append_nil _).symm⟩
  · exact ⟨[], (List.append_nil _).symm⟩

/-- The frame that the event hands to a socket, with the connection. -/
def Event.handed : Event → Option (ℕ × Bytes)
  | .tx c frame _ => some (c, frame)
  | _ => none

/-- A frame for an open connection is put in the log. -/
theorem log_connSend {c : ℕ} (h : ∃ e, d.conn? c = some e ∧ e.inUse = true) (f : Bytes) :
    ∃ n, (d.connSend c f).log = d.log ++ [.tx c f n] := by
  obtain ⟨e, he, huse⟩ := h
  unfold Device.conn? at he
  split_ifs at he with hlt
  obtain rfl := Option.some.inj he
  refine ⟨(sendAll f.length (d.net.sends d.log c) 0).1, ?_⟩
  unfold Device.connSend
  rw [dif_pos hlt, if_pos huse]
  dsimp only
  split_ifs <;> rfl

/-- A slot of the table that is served has its frame handed over, and recorded as sent. -/
theorem handed_notifySlot {st : Device K × List (ℕ × Bytes)} (hcore : st.1.core = d.core)
    (hopen : ∀ k, (d.subs k).inUse = true →
      ∃ e, d.conn? (d.subs k).connIdx = some e ∧ e.inUse = true)
    (hsent : ∃ es, st.1.log = d.log ++ es ∧ es.map Event.handed = st.2.map some)
    (k : Fin K.maxSubscriptions) :
    ∃ es, (Device.notifySlot i level index st k).1.log = d.log ++ es ∧
      es.map Event.handed = (Device.notifySlot i level index st k).2.map some := by
  obtain ⟨e, sent⟩ := st
  obtain ⟨es, hlog, hes⟩ := hsent
  have hsubs : e.subs = d.subs := Device.subs_eq_of_core hcore
  simp only [Device.notifySlot]
  split_ifs with hwatches
  · split
    · next f hf =>
      have huse : (d.subs k).inUse = true := by
        simp only [Subscription.watches, Bool.and_eq_true, hsubs] at hwatches
        exact hwatches.1.1.1
      obtain ⟨n, hn⟩ := log_connSend (conn?_inUse_of_core hcore (hopen k huse)) f
      refine ⟨es ++ [.tx (d.subs k).connIdx f n], ?_, ?_⟩
      · rw [hsubs, hn, hlog, List.append_assoc]
      · rw [List.map_append, List.map_append, hes, hsubs]
        rfl
    · exact ⟨es, hlog, hes⟩
  · exact ⟨es, hlog, hes⟩

/-- **What a notification is recorded to have sent** was handed to the sockets, frame by frame and
in this order. -/
theorem handed_notify (h : (server K).Reach d) (hon : d.notificationsDisabled = false) (i : ObjRef)
    (level index : UInt16) : ∃ es sent, es.map Event.handed = sent.map some ∧
      (d.notify i level index).log =
        d.log ++ es ++ [.propertyChanged i (d.obj i) level index sent] := by
  have hopen (k : Fin K.maxSubscriptions) (huse : (d.subs k).inUse = true) :
      ∃ e, d.conn? (d.subs k).connIdx = some e ∧ e.inUse = true := by
    obtain ⟨c, hc, hlive⟩ := (isolated_of_reach h).subs k huse
    refine ⟨d.conns c, ?_, hlive.1⟩
    rw [← hc]
    exact dif_pos c.isLt
  have hall : (d.notifyAll i level index).1.core = d.core ∧
      ∃ es, (d.notifyAll i level index).1.log = d.log ++ es ∧
        es.map Event.handed = (d.notifyAll i level index).2.map some :=
    List.foldlRecOn (motive := fun st : Device K × List (ℕ × Bytes) => st.1.core = d.core ∧
      ∃ es, st.1.log = d.log ++ es ∧ es.map Event.handed = st.2.map some) _ _
      ⟨rfl, [], (List.append_nil _).symm, rfl⟩ fun st ih k _ =>
        ⟨(Device.core_notifySlot i level index st k).trans ih.1,
          handed_notifySlot ih.1 hopen ih.2 k⟩
  obtain ⟨-, es, hlog, hsent⟩ := hall
  refine ⟨es, _, hsent, ?_⟩
  rw [Device.notify_eq, hon, if_neg Bool.false_ne_true, ← hlog]
  rfl

/-- The frame of a slot is among the events of a notification. -/
theorem exists_tx_notifyAll {f : Bytes} (hw : (d.subs k).watches (d.obj i).ono = true)
    (hconn : ∃ e, d.conn? (d.subs k).connIdx = some e ∧ e.inUse = true)
    (hf : d.notificationFrame (d.subs k) i level index = some f) :
    ∃ es, (d.notifyAll i level index).1.log = d.log ++ es ∧
      ∃ n, Event.tx (d.subs k).connIdx f n ∈ es := by
  have hall : ∀ ks : List (Fin K.maxSubscriptions), ∃ es,
      (ks.foldl (Device.notifySlot i level index) (d, [])).1.core = d.core ∧
      (ks.foldl (Device.notifySlot i level index) (d, [])).1.log = d.log ++ es ∧
        (k ∈ ks → ∃ n, Event.tx (d.subs k).connIdx f n ∈ es) := by
    intro ks
    induction ks using List.reverseRecOn with
    | nil => exact ⟨[], rfl, (List.append_nil _).symm, fun h => absurd h List.not_mem_nil⟩
    | append_singleton ks k' ih =>
      obtain ⟨es, hcore, hlog, hmem⟩ := ih
      rw [List.foldl_append]
      have hcore' := (Device.core_notifySlot i level index _ k').trans hcore
      by_cases hk : k' = k
      · subst hk
        have hconn' := conn?_inUse_of_core hcore hconn
        obtain ⟨n, hsent⟩ := log_connSend hconn' f
        refine ⟨es ++ [.tx (d.subs k').connIdx f n], hcore', ?_, fun _ => ⟨n, by simp⟩⟩
        rw [← List.append_assoc, ← hlog, ← hsent]
        simp only [List.foldl_cons, List.foldl_nil, Device.notifySlot,
          Device.subs_eq_of_core hcore, Device.obj_eq_of_core hcore,
          Device.notificationFrame_of_core hcore, hw, if_true, hf]
      · obtain ⟨es', hout⟩ := log_notifySlot i level index
          (ks.foldl (Device.notifySlot i level index) (d, [])) k'
        refine ⟨es ++ es', hcore', ?_, fun h => ?_⟩
        · rw [← List.append_assoc, ← hlog]
          exact hout
        · obtain hbefore | hlast := List.mem_append.1 h
          · obtain ⟨n, hn⟩ := hmem hbefore
            exact ⟨n, List.mem_append_left _ hn⟩
          · exact absurd (List.mem_singleton.1 hlast).symm hk
  obtain ⟨es, -, hlog, hmem⟩ := hall (List.finRange K.maxSubscriptions)
  exact ⟨es, hlog, hmem (List.mem_finRange k)⟩

/-- **A notification tells** a watcher the value if it is the property's, and nothing otherwise. -/
theorem copies_notify (hd : d.Publishes) (hi : i < d.objects.length)
    (hfit : d.propertySize i level index ≤ 400) (hw : d.Watched w k j) (v : Bytes) :
    Log.Copies w.reads d.log (d.notify i level index).log v
      (if (j, w.level, w.index) = (i, level, index) then d.shown i level index else v) := by
  -- what a frame of this notification tells
  have htells {k' : Fin K.maxSubscriptions} {f : Bytes}
      (hf : d.notificationFrame (d.subs k') i level index = some f) : w.value f =
        if (j, w.level, w.index) = (i, level, index) then some (d.shown i level index)
        else none := by
    rw [value_notificationFrame hd.contexts hf]
    refine if_congr ?_ rfl rfl
    constructor
    · rintro ⟨hono, rfl, rfl⟩
      rw [hd.registry.eq_of_ono hw.lt hi (hw.ono.trans hono.symm)]
    · intro h
      obtain ⟨rfl, rfl, rfl⟩ := h
      exact ⟨hw.ono, rfl, rfl⟩
  obtain ⟨es, hlog, hes⟩ : Log.Grows (fun e => w.reads e = none ∨ (j, w.level, w.index) =
      (i, level, index) ∧ w.reads e = some (d.shown i level index)) d.log
      (d.notify i level index).log := by
    refine Device.grows_notify (fun k' f n hf => ?_) (.inl rfl)
    unfold Watch.reads
    dsimp only
    split_ifs with hconn
    · rw [htells hf]
      split_ifs with heq
      · exact .inr ⟨heq, rfl⟩
      · exact .inl rfl
    · exact .inl rfl
  split_ifs with heq
  · refine ⟨es, hlog, Log.copy_of_agree (fun e he => (hes e he).imp_right And.right) ?_⟩
    -- the slot of the watcher is served
    obtain ⟨f, hf⟩ := Device.notificationFrame_isSome (hd.contexts k) hfit
    have hconn : (d.subs k).connIdx = w.conn := congrArg Key.conn hw.key
    have hwatches : (d.subs k).watches (d.obj i).ono = true := by
      have hobj : j = i := congrArg Prod.fst heq
      refine (watches_iff _ _).2 ⟨hw.inUse, ?_⟩
      rw [hw.key, ← hobj, hw.ono, hconn]
    have hopen : ∃ e, d.conn? (d.subs k).connIdx = some e ∧ e.inUse = true := by
      rw [hconn]
      exact hw.conn
    obtain ⟨es', hall, n, hmem⟩ := exists_tx_notifyAll hwatches hopen hf
    have hlog' : (d.notify i level index).log = d.log ++ (es' ++
        [.propertyChanged i (d.obj i) level index (d.notifyAll i level index).2]) := by
      rw [Device.notify_eq, if_neg (by rw [hd.enabled]; exact Bool.false_ne_true), Device.emit,
        hall, List.append_assoc]
    have hsame : es = es' ++ _ := List.append_cancel_left (hlog.symm.trans hlog')
    refine ⟨_, hsame ▸ List.mem_append_left _ hmem, ?_⟩
    unfold Watch.reads
    dsimp only
    rw [if_pos hconn, htells hf, if_pos heq]
  · exact ⟨es, hlog, Log.copy_of_silent fun e he => (hes e he).resolve_right fun h => heq h.1⟩

/-! ### Value changes -/

/-- The devices differ by value changes and output, and the copies of all watchers are right in
`d'` if they were right in `d`. -/
structure Reflects (d d' : Device K) : Prop where
  steady : Steady True d d'
  disabled : d'.notificationsDisabled = d.notificationsDisabled
  copies : d.Publishes → ∀ {w k i}, d.Watched w k i → Log.Copies w.reads d.log d'.log
    (d.shown i w.level w.index) (d'.shown i w.level w.index)

theorem Device.Publishes.steady (h : d.Publishes) (hs : Steady True d d')
    (hdisabled : d'.notificationsDisabled = d.notificationsDisabled) : d'.Publishes where
  registry := hs.registry h.registry
  contexts := by
    rw [hs.subs]
    exact h.contexts
  enabled := hdisabled.trans h.enabled

namespace Reflects

theorem trans (h : Reflects d d') (h' : Reflects d' d'') : Reflects d d'' where
  steady := h.steady.trans h'.steady
  disabled := h'.disabled.trans h.disabled
  copies hd _ _ _ hw := (h.copies hd hw).trans
    (h'.copies (hd.steady h.steady h.disabled) (hw.steady h.steady))

/-- What nobody can tell. -/
theorem of_silent (hs : Steady True d d')
    (hdisabled : d'.notificationsDisabled = d.notificationsDisabled)
    (hlog : Log.Grows (fun e => ∀ w : Watch, w.reads e = none) d.log d'.log)
    (hshown : ∀ i < d.objects.length, ∀ l x, d'.shown i l x = d.shown i l x) : Reflects d d' where
  steady := hs
  disabled := hdisabled
  copies _ w _ _ hw := by
    obtain ⟨es, hes, hsilent⟩ := hlog
    exact .of_silent hes (fun e he => hsilent e he w) (hshown _ hw.lt _ _)

theorem refl (d : Device K) : Reflects d d := of_silent (.refl d) rfl (.refl _) fun _ _ _ _ => rfl

theorem foldl {α : Type} {f : Device K → α → Device K} {l : List α}
    (h : ∀ d', ∀ a ∈ l, Reflects d d' → Reflects d' (f d' a)) : Reflects d (l.foldl f d) :=
  List.foldlRecOn (motive := fun d' => Reflects d d') _ _ (.refl d)
    fun d' ih a ha => ih.trans (h d' a ha ih)

/-- A change of one property, and its notification, as one watcher sees it. -/
theorem copies_of_notify (hd : d.Publishes) (hs : Steady True d e)
    (hdisabled : e.notificationsDisabled = d.notificationsDisabled) (hlog : e.log = d.log)
    (hi : i < d.objects.length) (hfit : e.propertySize i level index ≤ 400) (hw : d.Watched w k j)
    (hshown : (j, w.level, w.index) ≠ (i, level, index) →
      e.shown j w.level w.index = d.shown j w.level w.index) :
    Log.Copies w.reads d.log (e.notify i level index).log (d.shown j w.level w.index)
      ((e.notify i level index).shown j w.level w.index) := by
  have hcopies := copies_notify (hd.steady hs hdisabled) (hi.trans_le hs.length) hfit
    (hw.steady hs) (d.shown j w.level w.index)
  rw [hlog] at hcopies
  refine (congrArg _ ?_).mp hcopies
  rw [shown_of_core (Device.core_notify e i level index)]
  split_ifs with heq
  · obtain ⟨rfl, hprop⟩ := Prod.mk.inj heq
    obtain ⟨rfl, rfl⟩ := Prod.mk.inj hprop
    rfl
  · exact (hshown heq).symm

/-- A change of one property, and its notification. -/
theorem notify (hs : Steady True d e)
    (hdisabled : e.notificationsDisabled = d.notificationsDisabled)
    (hlog : e.log = d.log) (hi : i < d.objects.length)
    (hfit : e.propertySize i level index ≤ 400)
    (hshown : d.Registry → ∀ j < d.objects.length, ∀ l x, (j, l, x) ≠ (i, level, index) →
      e.shown j l x = d.shown j l x) : Reflects d (e.notify i level index) where
  steady := hs.trans (steady_notify fun _ => hfit)
  disabled := by
    have hcore := congrArg Device.notificationsDisabled (Device.core_notify e i level index)
    exact hcore.trans hdisabled
  copies hd w k j hw := copies_of_notify hd hs hdisabled hlog hi hfit hw
    fun hne => hshown hd.registry j hw.lt _ _ hne

end Reflects

theorem reflects_controlChanged (i : ObjRef) : Reflects d (d.controlChanged i) := by
  refine .of_silent steady_controlChanged ?_ ?_ fun j _ l x => ?_
  · have hcore := congrArg Device.notificationsDisabled (Device.core_controlChanged d i)
    exact hcore
  · unfold Device.controlChanged
    split_ifs
    · exact .concat (fun _ => rfl) _
    · exact .refl _
  · exact shown_of_core (Device.core_controlChanged d i) j l x

/-- What a store leaves alone. -/
theorem shown_modifyObj {f : Obj → Obj} {l x : UInt16} (hj : j < d.objects.length)
    (hf : i = j → (f (d.obj i)).property d.deviceName d.deviceRole l x =
      (d.obj i).property d.deviceName d.deviceRole l x) :
    (d.modifyObj i f).shown j l x = d.shown j l x := by
  refine shown_congr rfl rfl ?_
  by_cases hij : i = j
  · subst hij
    rw [Device.obj_modifyObj_self hj]
    exact hf rfl
  · rw [Device.obj_modifyObj_ne hij]

/-- A store of one property, and its notification. -/
theorem reflects_store {f : Obj → Obj} (hident : ∀ o, (f o).ident = o.ident)
    (hlock : ∀ o, (f o).lock = o.lock) (hi : i < d.objects.length)
    (hfit : (d.modifyObj i f).propertySize i level index ≤ 400)
    (hf : ∀ l x, (l, x) ≠ (level, index) →
      (f (d.obj i)).property d.deviceName d.deviceRole l x =
        (d.obj i).property d.deviceName d.deviceRole l x) :
    Reflects d ((d.modifyObj i f).notify i level index) :=
  .notify (steady_modifyObj hident hlock) rfl rfl hi hfit fun _ _ hj l x hne =>
    shown_modifyObj hj fun hij => hf l x fun heq => hne (by rw [hij, heq])

/-! ### Commits -/

theorem reflects_storeNum (v : F64) (hi : i < d.objects.length)
    (hp : primaryProperty (d.obj i).kind = some (level, index)) (hs : (d.obj i).kind ≠ .string) :
    Reflects d ((d.modifyObj i fun o => { o with num := v }).notify i level index) := by
  have hkind : ((d.modifyObj i fun o => { o with num := v }).obj i).kind = (d.obj i).kind :=
    Device.obj_modifyObj_congr Obj.kind (fun _ => by rfl) d i i
  refine reflects_store (fun _ => by rfl) (fun _ => by rfl) hi ?_ fun l x hne => ?_
  · exact primary_size (by rwa [hkind]) (by rwa [hkind])
  · refine Obj.property_num v fun h => hne ?_
    rw [hp] at h
    exact (Option.some.inj h).symm

theorem reflects_grouperOnCommit (hs : (d.obj i).kind ≠ .string) :
    Reflects d (d.grouperOnCommit i) := by
  unfold Device.grouperOnCommit
  split
  · next level index hp =>
    refine Reflects.foldl fun d' c hc hd => ?_
    obtain ⟨hlt, hkind, -⟩ := Device.mem_fanTargets hc
    have hkind' : (d'.obj c).kind = (d.obj i).kind := (hd.steady.kind hlt).trans hkind
    exact (reflects_storeNum _ (hlt.trans_le hd.steady.length) (by rwa [hkind'])
      (by rwa [hkind'])).trans (reflects_controlChanged c)
  · exact .refl d

/-- **A commit is reflected**, with all copies it makes. -/
theorem reflects_commitNum (v : F64) (b : Bool) (hi : i < d.objects.length)
    (hp : primaryProperty (d.obj i).kind = some (level, index)) (hs : (d.obj i).kind ≠ .string) :
    Reflects d (d.commitNum i v level index b) := by
  have hstore := reflects_storeNum v hi hp hs
  unfold Device.commitNum
  dsimp only
  split_ifs
  · have hcall := hstore.trans (reflects_controlChanged i)
    exact hcall.trans (reflects_grouperOnCommit (by rwa [hcall.steady.kind hi]))
  · exact hstore

theorem reflects_commitStr {s : Bytes} (b : Bool) (hi : i < d.objects.length)
    (hk : (d.obj i).kind = .string) (hlen : s.length ≤ 127) :
    Reflects d (d.commitStr i s 5 1 b) := by
  have hstore : Reflects d ((d.modifyObj i fun o => { o with str := some s }).notify i 5 1) := by
    refine reflects_store (fun _ => by rfl) (fun _ => by rfl) hi ?_ fun l x hne => ?_
    · have hobj := Device.obj_modifyObj_self hi fun o => { o with str := some s }
      rw [Device.propertySize_str (by rw [hobj]; exact hk) (by rw [hobj])]
      omega
    · refine Obj.property_str _ fun h => hne ?_
      rw [hk] at h
      exact (Option.some.inj h).symm
  unfold Device.commitStr
  dsimp only
  split_ifs
  · exact hstore.trans (reflects_controlChanged i)
  · exact hstore

theorem reflects_recall (es : List (UInt32 × F64)) : Reflects d (d.recall es) := by
  refine Device.recall_rel .refl .trans (fun d t level index v ht hp hparam => ?_) d es
  refine reflects_commitNum _ _ ht hp fun hk => ?_
  rw [hk] at hparam
  cases hparam

end Aes70
