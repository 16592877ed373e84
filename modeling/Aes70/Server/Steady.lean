import Aes70.App.Basic
import Aes70.Device.Delivery
import Aes70.Server.Registry

/-!
# What leaves sessions alone

Value changes, notifications and new objects do not touch the state of sessions: who is connected
and with what rights, the locks, the subscriptions. `Steady` says so of two devices, together with
what is put in the log meanwhile.

* `Conn.standing`, `Obj.lock` : the session state of a connection entry and of an object.
* `Steady T d d'` : the session state is the same; if `T`, every notification was delivered.
* `steady_commitNum`, `steady_recall`, .. : value changes are steady.
-/

namespace Aes70

variable {K : Kconfig}

/-- What a connection entry says of its session, as opposed to its traffic. -/
def Conn.standing (e : Conn) : Conn :=
  { e with rx := [], heartbeatMs := 0, kaWidth := 0, lastRxUs := 0, lastTxUs := 0 }

/-- The lock of an object. -/
def Obj.lock (o : Obj) : LockState × Option ℕ := (o.lockState, o.lockOwner)

/-- The session state is the same, and the log grows by output. If `T`, the notifications in it
were delivered to the subscriptions. -/
structure Steady (T : Prop) (d d' : Device K) : Prop where
  subs : d'.subs = d.subs
  cfg : d'.cfg = d.cfg
  standing : ∀ c, (d'.conns c).standing = (d.conns c).standing
  length : d.objects.length ≤ d'.objects.length
  ident : ∀ i < d.objects.length, (d'.obj i).ident = (d.obj i).ident
  lock : ∀ i, (d'.obj i).lock = (d.obj i).lock
  registry : d.Registry → d'.Registry
  cmdQ : ∀ req ∈ d'.cmdQ, req ∈ d.cmdQ
  log : ∃ es, d'.log = d.log ++ es ∧
    ∀ e ∈ es, e.isOutput = true ∧ (T → ShortContexts d.subs → Delivered d.subs e)

variable {T : Prop} {d d' d'' : Device K} {i : ObjRef} {level index : UInt16}

namespace Steady

/-- Nothing that counts has changed. -/
theorem of_eq (hsubs : d'.subs = d.subs) (hcfg : d'.cfg = d.cfg) (hconns : d'.conns = d.conns)
    (hobjects : d'.objects = d.objects) (hnext : d'.nextOno = d.nextOno)
    (hcmdQ : ∀ req ∈ d'.cmdQ, req ∈ d.cmdQ) (hlog : d'.log = d.log) : Steady T d d' where
  subs := hsubs
  cfg := hcfg
  standing c := by rw [hconns]
  length := by rw [hobjects]
  ident i _ := by rw [Device.obj, hobjects]; rfl
  lock i := by rw [Device.obj, hobjects]; rfl
  registry h := h.congr (by rw [hobjects]) (fun i _ => by rw [Device.obj, hobjects]; rfl) hnext
  cmdQ := hcmdQ
  log := ⟨[], by rw [hlog, List.append_nil], by simp⟩

theorem refl (d : Device K) : Steady T d d := of_eq rfl rfl rfl rfl rfl (fun _ h => h) rfl

theorem trans (h : Steady T d d') (h' : Steady T d' d'') : Steady T d d'' where
  subs := h'.subs.trans h.subs
  cfg := h'.cfg.trans h.cfg
  standing c := (h'.standing c).trans (h.standing c)
  length := h.length.trans h'.length
  ident i hi := (h'.ident i (lt_of_lt_of_le hi h.length)).trans (h.ident i hi)
  lock i := (h'.lock i).trans (h.lock i)
  registry hr := h'.registry (h.registry hr)
  cmdQ req hreq := h.cmdQ req (h'.cmdQ req hreq)
  log := by
    obtain ⟨es, he, hes⟩ := h.log
    obtain ⟨es', he', hes'⟩ := h'.log
    rw [h.subs] at hes'
    refine ⟨es ++ es', by rw [he', he, List.append_assoc], fun e hmem => ?_⟩
    exact (List.mem_append.1 hmem).elim (hes e) (hes' e)

theorem foldl {α : Type} {f : Device K → α → Device K} {l : List α}
    (h : ∀ d', ∀ a ∈ l, Steady T d d' → Steady T d' (f d' a)) : Steady T d (l.foldl f d) :=
  List.foldlRecOn (motive := fun d' => Steady T d d') _ _ (.refl d)
    fun d' ih a ha => ih.trans (h d' a ha ih)

end Steady

/-! ### The parts of a commit -/

theorem steady_modifyObj {f : Obj → Obj} (hident : ∀ o, (f o).ident = o.ident)
    (hlock : ∀ o, (f o).lock = o.lock) : Steady T d (d.modifyObj i f) where
  subs := rfl
  cfg := rfl
  standing _ := rfl
  length := (d.length_modifyObj i f).ge
  ident j _ := Device.obj_modifyObj_congr Obj.ident hident d i j
  lock j := Device.obj_modifyObj_congr Obj.lock hlock d i j
  registry h := h.congr (d.length_modifyObj i f)
    (fun j _ => Device.obj_modifyObj_congr Obj.ident hident d i j) rfl
  cmdQ _ h := h
  log := ⟨[], (List.append_nil _).symm, by simp⟩

/-- An output event other than a notification. -/
theorem steady_emit {e : Event} (he : e.isOutput = true) (hd : Delivered d.subs e) :
    Steady T d (d.emit e) where
  subs := rfl
  cfg := rfl
  standing _ := rfl
  length := le_rfl
  ident _ _ := rfl
  lock _ := rfl
  registry h := h.congr rfl (fun _ _ => rfl) rfl
  cmdQ _ h := h
  log := ⟨[e], rfl, by simp [he, hd]⟩

theorem steady_modifyConn {c : Fin K.maxConnections} {f : Conn → Conn}
    (hf : ∀ e, (f e).standing = e.standing) : Steady T d (d.modifyConn c f) where
  subs := rfl
  cfg := rfl
  standing k := by
    by_cases hk : k = c
    · subst hk
      simp [Device.modifyConn, hf]
    · simp [Device.modifyConn, hk]
  length := le_rfl
  ident _ _ := rfl
  lock _ := rfl
  registry h := h.congr rfl (fun _ _ => rfl) rfl
  cmdQ _ h := h
  log := ⟨[], (List.append_nil _).symm, by simp⟩

theorem steady_connSend (c : ℕ) (frame : Bytes) : Steady T d (d.connSend c frame) := by
  unfold Device.connSend
  split_ifs
  · dsimp only
    have htx (n : ℕ) : Steady T d (d.emit (.tx c frame n)) :=
      steady_emit rfl fun _ _ _ _ _ h => nomatch h
    split_ifs
    · exact (htx _).trans (steady_modifyConn fun _ => rfl)
    · exact htx _
  · exact .refl d
  · exact .refl d

theorem steady_notifyAll : Steady T d (d.notifyAll i level index).1 :=
  List.foldlRecOn (motive := fun st : Device K × List (ℕ × Bytes) => Steady T d st.1) _ _
      (.refl d) fun st ih k _ => by
    refine ih.trans ?_
    simp only [Device.notifySlot]
    split_ifs
    · split
      · exact steady_connSend _ _
      · exact .refl _
    · exact .refl _

/-- A notification of a short property is delivered. -/
theorem steady_notify (hp : T → d.propertySize i level index ≤ 400) :
    Steady T d (d.notify i level index) := by
  rw [Device.notify_eq]
  split_ifs
  · exact .refl d
  · have hall : Steady T d (d.notifyAll i level index).1 := steady_notifyAll
    obtain ⟨es, he, hes⟩ := hall.log
    refine { hall with
      registry := fun h => (hall.registry h).congr rfl (fun _ _ => rfl) rfl
      log := ⟨es ++ [.propertyChanged i (d.obj i) level index (d.notifyAll i level index).2],
        by rw [Device.emit, he, List.append_assoc], fun e hmem => ?_⟩ }
    rcases List.mem_append.1 hmem with hmem | hmem
    · exact hes e hmem
    · obtain rfl := List.mem_singleton.1 hmem
      exact ⟨rfl, fun hT hctx => Device.delivered_notify hctx (hp hT)⟩

theorem steady_controlChanged : Steady T d (d.controlChanged i) := by
  unfold Device.controlChanged
  split_ifs
  · exact steady_emit rfl fun _ _ _ _ _ h => nomatch h
  · exact .refl d

/-- A store that is reported. -/
theorem steady_store {f : Obj → Obj} (hident : ∀ o, (f o).ident = o.ident)
    (hlock : ∀ o, (f o).lock = o.lock)
    (hp : T → (d.modifyObj i f).propertySize i level index ≤ 400) :
    Steady T d ((d.modifyObj i f).notify i level index) :=
  (steady_modifyObj hident hlock).trans (steady_notify hp)

/-! ### Commits -/

theorem primary_cases {k : Kind} (h : primaryProperty k = some (level, index)) :
    (level = 4 ∨ level = 5) ∧ k ≠ .deviceManager := by
  cases k <;> simp [primaryProperty] at h <;> simp [← h]

/-- The value of everything but a string is short. -/
theorem primary_size (h : primaryProperty (d.obj i).kind = some (level, index))
    (hs : (d.obj i).kind ≠ .string) : d.propertySize i level index ≤ 400 := by
  obtain ⟨hlevel, hdev⟩ := primary_cases h
  have hsize : d.propertySize i level index ≤ 8 := Device.propertySize_le
    (fun hl => by rcases hlevel with h4 | h5 <;> simp_all) (fun hd => hdev hd.1) fun hk => hs hk.1
  exact hsize.trans (by decide)

/-- A value is stored and reported. -/
theorem steady_storeNum (v : F64) (hp : primaryProperty (d.obj i).kind = some (level, index))
    (hs : T → (d.obj i).kind ≠ .string) :
    Steady T d ((d.modifyObj i fun o => { o with num := v }).notify i level index) := by
  have hkind : ((d.modifyObj i fun o => { o with num := v }).obj i).kind = (d.obj i).kind :=
    Device.obj_modifyObj_congr Obj.kind (fun _ => by rfl) d i i
  refine steady_store (fun _ => by rfl) (fun _ => by rfl) fun hT => primary_size ?_ ?_
  · rwa [hkind]
  · rw [hkind]
    exact hs hT

theorem Steady.kind (h : Steady T d d') (hi : i < d.objects.length) :
    (d'.obj i).kind = (d.obj i).kind := congrArg Prod.snd (h.ident i hi)

theorem steady_grouperOnCommit (hs : T → (d.obj i).kind ≠ .string) :
    Steady T d (d.grouperOnCommit i) := by
  unfold Device.grouperOnCommit
  split
  · next level index hp =>
    -- the citizens served are of the kind of the proxy, and stay so while others are served
    refine Steady.foldl fun d' c hc hd => ?_
    obtain ⟨hlt, hkind, -⟩ := Device.mem_fanTargets hc
    have hkind' : (d'.obj c).kind = (d.obj i).kind := (hd.kind hlt).trans hkind
    refine (steady_storeNum _ ?_ ?_).trans steady_controlChanged
    · rwa [hkind']
    · rwa [hkind']
  · exact .refl d

theorem steady_commitNum (v : F64) (b : Bool) (hi : i < d.objects.length)
    (hp : primaryProperty (d.obj i).kind = some (level, index))
    (hs : T → (d.obj i).kind ≠ .string) : Steady T d (d.commitNum i v level index b) := by
  have hstore := steady_storeNum v hp hs
  unfold Device.commitNum
  dsimp only
  split_ifs
  · have hcall := hstore.trans (steady_controlChanged (i := i))
    refine hcall.trans (steady_grouperOnCommit fun hT => ?_)
    rw [hcall.kind hi]
    exact hs hT
  · exact hstore

theorem steady_commitStr {s : Bytes} (b : Bool) (hi : i < d.objects.length)
    (hs : T → (d.obj i).kind = .string ∧ s.length ≤ 127 ∧ level = 5 ∧ index = 1) :
    Steady T d (d.commitStr i s level index b) := by
  have hstore : Steady T d
      ((d.modifyObj i fun o => { o with str := some s }).notify i level index) := by
    refine steady_store (fun _ => by rfl) (fun _ => by rfl) fun hT => ?_
    obtain ⟨hk, hlen, rfl, rfl⟩ := hs hT
    have hobj := Device.obj_modifyObj_self hi fun o => { o with str := some s }
    rw [Device.propertySize_str (by rw [hobj]; exact hk) (by rw [hobj])]
    omega
  unfold Device.commitStr
  dsimp only
  split_ifs
  · exact hstore.trans steady_controlChanged
  · exact hstore

theorem selToProp_level (sel : Sel) : (selToProp sel).1 = 4 := by
  cases sel <;> rfl

/-- The properties of level 4 are short. -/
theorem propertySize_four : d.propertySize i 4 index ≤ 400 := by
  have hsize : d.propertySize i 4 index ≤ 8 := Device.propertySize_le
    (fun h => absurd h.1 (by decide)) (fun h => absurd h.2 (by decide))
    fun h => absurd h.2 (by decide)
  exact hsize.trans (by decide)

theorem steady_dspWrite (p : Priv) (sel : Sel) (b : Bool) :
    Steady T d (d.dspWrite i p sel b) := by
  have hstore : Steady T d ((d.modifyObj i fun o => { o with priv := p }).notify i
      (selToProp sel).1 (selToProp sel).2) := by
    refine steady_store (fun _ => by rfl) (fun _ => by rfl) fun _ => ?_
    rw [selToProp_level]
    exact propertySize_four
  unfold Device.dspWrite Device.notifyAfterWrite
  dsimp only
  split_ifs
  · exact hstore.trans steady_controlChanged
  · exact hstore

/-! ### Recalls -/

theorem steady_recall (es : List (UInt32 × F64)) : Steady T d (d.recall es) := by
  refine Device.recall_rel .refl .trans (fun d t level index v ht hp hparam => ?_) d es
  refine steady_commitNum _ _ ht hp fun _ hk => ?_
  rw [hk] at hparam
  cases hparam

/-! ### New objects -/

theorem steady_registered {kind : Kind} (role : Bytes) (hlt : d.objects.length < K.maxObjects)
    (hk : kind ∉ [Kind.deviceManager, .subscriptionManager]) :
    Steady T d (d.registered kind role) where
  subs := rfl
  cfg := rfl
  standing _ := rfl
  length := by simp [Device.registered]
  ident i hi := by rw [Device.obj_registered d kind role hi]
  lock i := by
    rcases lt_trichotomy i d.objects.length with hi | rfl | hi
    · rw [Device.obj_registered d kind role hi]
    · simp [Device.registered, Device.obj, Obj.lock, Obj.fresh]
    · have hout : (d.registered kind role).objects[i]? = none :=
        List.getElem?_eq_none (by simpa [Device.registered] using Nat.succ_le_of_lt hi)
      have hold : d.objects[i]? = none := List.getElem?_eq_none hi.le
      simp only [Device.obj, List.getD_eq_getElem?_getD, hout, hold]
  registry h := h.registered role hlt hk
  cmdQ _ h := h
  log := ⟨[], (List.append_nil _).symm, by simp⟩

theorem steady_blockAddMember (block : Option ObjRef) (child : ObjRef) :
    Steady T d (d.blockAddMember block child) := by
  unfold Device.blockAddMember
  split
  · exact .refl d
  · split_ifs
    · exact .refl d
    · exact (steady_modifyObj (fun _ => by rfl) fun _ => by rfl).trans
        (steady_modifyObj (fun _ => by rfl) fun _ => by rfl)

theorem steady_objectAlloc {kind : Kind} {parent : Option ObjRef} {role : Bytes} {new : ObjRef}
    (h : d.objectAlloc kind parent role = (some new, d'))
    (hk : kind ∉ [Kind.deviceManager, .subscriptionManager]) : Steady T d d' := by
  obtain ⟨hlt, -, rfl⟩ := Device.objectAlloc_some h
  exact (steady_registered role hlt hk).trans (steady_blockAddMember _ _)

/-- A number is used up for nothing. -/
theorem steady_noRoom (hfull : K.maxObjects ≤ d.objects.length) :
    Steady T d { d with nextOno := d.nextOno + 1 } where
  subs := rfl
  cfg := rfl
  standing _ := rfl
  length := le_rfl
  ident _ _ := rfl
  lock _ := rfl
  registry h := h.full hfull
  cmdQ _ h := h
  log := ⟨[], (List.append_nil _).symm, by simp⟩

theorem initProxy_ident (o : Obj) : (initProxy o).ident = o.ident := by
  unfold initProxy
  split <;> rfl

theorem initProxy_lock (o : Obj) : (initProxy o).lock = o.lock := by
  unfold initProxy
  split <;> rfl

theorem Create.setup_ident (c : Create) (o : Obj) : (c.setup o).ident = o.ident := by
  cases c with
  | switch names =>
    simp only [setup, setupSwitch]
    split
    · split_ifs <;> rfl
    · rfl
  | _ => rfl

theorem Create.setup_kind (c : Create) (o : Obj) : (c.setup o).kind = o.kind :=
  congrArg Prod.snd (c.setup_ident o)

theorem Create.setup_lock (c : Create) (o : Obj) : (c.setup o).lock = o.lock := by
  cases c with
  | switch names =>
    simp only [setup, setupSwitch]
    split
    · split_ifs <;> rfl
    · rfl
  | _ => rfl

theorem Create.kind_notMem (c : Create) :
    c.kind ∉ [Kind.deviceManager, .subscriptionManager] := by
  cases c <;> simp [Create.kind]

theorem steady_create (call : Create) (parent : Option ObjRef) (role : Bytes) :
    Steady T d (d.create call parent role) := by
  unfold Device.create
  split
  · next h =>
    exact (steady_objectAlloc h call.kind_notMem).trans
      (steady_modifyObj call.setup_ident call.setup_lock)
  · next h =>
    obtain ⟨hfull, rfl⟩ := Device.objectAlloc_none h
    exact steady_noRoom hfull

/-! ### Commands -/

open Device in
/-- **A command is steady** unless it is one of the root class or of the subscription manager. -/
theorem Outcome.steady {st : Status} (h : Outcome d i level index st d')
    (hi : i < d.objects.length) (hlevel : level ≠ 1)
    (hkind : (d.obj i).kind ≠ .subscriptionManager) : Steady T d d' := by
  cases h with
  | same => exact .refl d
  | lock _ _ hm | unlock hm => exact absurd hm hlevel
  | subscribe _ _ hk | unsubscribe _ hk | notifications _ hk => exact absurd hk hkind
  | enabled v =>
    refine steady_store (fun _ => by rfl) (fun _ => by rfl) fun _ => ?_
    have hsize := Device.propertySize_le (d := d.modifyObj i fun o => { o with enabled := v })
      (i := i) (fun h : (2 : UInt16) = 2 ∧ (1 : UInt16) = 3 => absurd h.2 (by decide))
      (fun h => absurd h.2 (by decide)) fun h => absurd h.2 (by decide)
    exact hsize.trans (by decide)
  | label s hs =>
    refine steady_store (fun _ => by rfl) (fun _ => by rfl) fun _ => ?_
    rw [propertySize_label (congrArg Obj.label (obj_modifyObj_self hi _))]
    omega
  | agentLabel | grouper | matrix | truncatedMembers =>
    exact steady_modifyObj (fun _ => by rfl) fun _ => by rfl
  | num v _ hp hs => exact steady_commitNum v true hi hp fun _ => hs
  | str s hs hk => exact steady_commitStr true hi fun _ => ⟨hk, hs, rfl, rfl⟩
  | dsp p sel => exact steady_dspWrite p sel true
  | noRoom hfull => exact steady_noRoom hfull
  | addGroup g slot name _ halloc =>
    have hk : g.citizenKind ∉ [Kind.deviceManager, .subscriptionManager] := by
      intro hk
      have hmem := g.citizenKind_mem
      simp only [List.mem_cons, List.not_mem_nil, or_false] at hk hmem
      rcases hk with hk | hk <;> simp [hk] at hmem
    exact ((steady_objectAlloc halloc hk).trans (steady_modifyObj initProxy_ident initProxy_lock)).trans
      (steady_modifyObj (fun _ => by rfl) fun _ => by rfl)
  | «recall» es | truncatedRecall es => exact steady_recall es
  | deviceName s hk =>
    have hset : Steady T d { d with deviceName := strlcpy 64 s } :=
      .of_eq rfl rfl rfl rfl rfl (fun _ h => h) rfl
    refine hset.trans (steady_notify fun _ => ?_)
    rw [propertySize_deviceName (d := { d with deviceName := strlcpy 64 s }) hk]
    exact le_trans (Nat.add_le_add_left (List.length_take_le 63 s) 2) (by decide)
  | deviceRole s hk =>
    have hset : Steady T d { d with deviceRole := strlcpy 48 s } :=
      .of_eq rfl rfl rfl rfl rfl (fun _ h => h) rfl
    refine hset.trans (steady_notify fun _ => ?_)
    rw [propertySize_deviceRole (d := { d with deviceRole := strlcpy 48 s }) hk]
    exact le_trans (Nat.add_le_add_left (List.length_take_le 47 s) 2) (by decide)

end Aes70
