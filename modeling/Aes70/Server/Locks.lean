import Aes70.Server.Sessions

/-!
# Locks exclude

Who holds the lock of an object can be told from the log: the client whose command to lock it was
accepted, until its command to unlock it or its end. The lock fields of the object say the same,
and they have room for one owner.

* `holdsLock c ono log` : connection `c` holds the lock of the object with number `ono`.
* `LockExclusive d i` : the lock of object `i` follows the log; of others it is out of reach.
* `lock_exclusive` : so it is in every reachable state, for every object.
-/

namespace Aes70

variable {K : Kconfig}

/-! ### Holders -/

/-- What an event makes of the lock of object `ono` in the hands of connection `c`. -/
def holdsNext (c : ℕ) (ono : UInt32) (holds : Bool) : Event → Bool
  | .command k cmd .ok =>
    if k = c ∧ cmd.target = ono then
      if cmd.IsLock then true else if cmd.IsUnlock then false else holds
    else holds
  | .closed k => if k = c then false else holds
  | _ => holds

/-- After these events the connection holds the lock of the object. -/
def holdsLock (c : ℕ) (ono : UInt32) (log : List Event) : Bool :=
  log.foldl (holdsNext c ono) false

/-- The event is a command of the connection or its end. -/
def Event.By (c : ℕ) : Event → Prop
  | .command k _ _ | .closed k => k = c
  | _ => False

/-- What the command was refused with. -/
def refusal (d : Device K) (i : ObjRef) (c : ℕ) : Status :=
  if (d.obj i).secured && !{ d with activeConn := some c }.activePrivileged then .permissionDenied
  else .locked

/-- The lock of the object follows the log. While a connection has it, it stays as it is until an
event of that connection, and commands of others that control it are refused without effect. -/
structure LockExclusive (d : Device K) (i : ObjRef) : Prop where
  holder : ∀ c, holdsLock c (d.obj i).ono d.log = true ↔ (d.obj i).lockOwner = some c
  unique : ∀ c c', holdsLock c (d.obj i).ono d.log = true →
    holdsLock c' (d.obj i).ono d.log = true → c = c'
  kept : ∀ c, (d.obj i).lockOwner = some c → ∀ l d', (server K).Run d l d' →
    ∃ es, d'.log = d.log ++ es ∧ ((∀ e ∈ es, ¬e.By c) → (d'.obj i).lock = (d.obj i).lock)
  refused : ∀ c, (d.obj i).lockOwner = some c → ∀ c' ≠ c, ∀ cmd : Command,
    cmd.target = (d.obj i).ono → cmd.IsLock ∨ cmd.IsUnlock → ∀ rd wr pc,
    let call : Call K := ⟨{ d with activeConn := some c' }, rd, wr, pc⟩
    execCommand c' cmd call = (refusal d i c',
      { call with dev := call.dev.emit (.command c' cmd (refusal d i c')) })

theorem holdsLock_concat (c : ℕ) (ono : UInt32) (log : List Event) (e : Event) :
    holdsLock c ono (log ++ [e]) = holdsNext c ono (holdsLock c ono log) e :=
  List.foldl_concat ..

theorem holdsNext_of_other {c k : ℕ} {ono : UInt32} {cmd : Command} {st : Status} {b : Bool}
    (h : st = .ok → ¬(k = c ∧ cmd.target = ono ∧ (cmd.IsLock ∨ cmd.IsUnlock))) :
    holdsNext c ono b (.command k cmd st) = b := by
  cases st with
  | ok =>
    have hno := h rfl
    simp only [holdsNext]
    split_ifs with hk hlock hunlock
    · exact absurd ⟨hk.1, hk.2, .inl hlock⟩ hno
    · exact absurd ⟨hk.1, hk.2, .inr hunlock⟩ hno
    · rfl
    · rfl
  | _ => rfl

theorem holdsLock_output {log es : List Event} (h : ∀ e ∈ es, e.isOutput = true) (c : ℕ)
    (ono : UInt32) : holdsLock c ono (log ++ es) = holdsLock c ono log := by
  rw [holdsLock, List.foldl_append]
  refine Log.foldl_of_silent (fun e he b => ?_) _
  have hout := h e he
  cases e <;> first | rfl | cases hout

/-! ### The log and the lock fields -/

/-- The log gives the lock of a number to the connection that owns the lock of an object with that
number. -/
def Recorded (d : Device K) : Prop := ∀ c ono, holdsLock c ono d.log = true ↔
  ∃ i, (d.obj i).ono = ono ∧ (d.obj i).lockOwner = some c

section Recorded

variable {T : Prop} {d d' : Device K} {c : Fin K.maxConnections}

/-- What lies behind the registry is not locked. -/
theorem lt_of_locked {i : ObjRef} {n : ℕ} (h : (d.obj i).lockOwner = some n) :
    i < d.objects.length := by
  by_contra hge
  have hout : d.obj i = .fresh .block 0 [] := by
    simp [Device.obj, List.getElem?_eq_none (Nat.le_of_not_lt hge)]
  rw [hout] at h
  cases h

theorem Recorded.of_lock (h : Recorded d) (hlog : ∀ c ono, holdsLock c ono d'.log =
    holdsLock c ono d.log) (hident : ∀ i < d.objects.length, (d'.obj i).ident = (d.obj i).ident)
    (hlock : ∀ i, (d'.obj i).lock = (d.obj i).lock) : Recorded d' := by
  intro c ono
  have howner (i : ObjRef) : (d'.obj i).lockOwner = (d.obj i).lockOwner :=
    congrArg Prod.snd (hlock i)
  have hono {i : ObjRef} (hi : (d.obj i).lockOwner = some c) : (d'.obj i).ono = (d.obj i).ono :=
    congrArg Prod.fst (hident i (lt_of_locked hi))
  rw [hlog, h]
  refine exists_congr fun i => ?_
  rw [howner]
  exact and_congr_left fun hi => by rw [hono hi]

theorem Recorded.steady (h : Recorded d) (hs : Steady T d d') : Recorded d' := by
  obtain ⟨es, hlog, hes⟩ := hs.log
  refine h.of_lock (fun c ono => ?_) hs.ident hs.lock
  rw [hlog]
  exact holdsLock_output (fun e he => (hes e he).1) c ono

/-- A command that neither locks nor unlocks. -/
theorem Recorded.emit_other (h : Recorded d) (n : ℕ) {cmd : Command} {st : Status}
    (hno : st = .ok → ¬(cmd.IsLock ∨ cmd.IsUnlock)) :
    Recorded (d.emit (.command n cmd st)) := by
  refine h.of_lock (fun c ono => ?_) (fun _ _ => rfl) fun _ => rfl
  rw [Device.emit, holdsLock_concat]
  exact holdsNext_of_other fun hst hk => hno hst hk.2.2

/-- The lock of object `i` is given to `owner` by a command of connection `n`, to which it was not
denied. -/
theorem Recorded.setLock (h : Recorded d) (hr : d.Registry) {i : ObjRef} {n : ℕ} {cmd : Command}
    (hf : d.find cmd.target = some i) {s : LockState} {owner : Option ℕ}
    (hfree : (d.obj i).lockOwner = none ∨ (d.obj i).lockOwner = some n)
    (hnext : ∀ c b, holdsNext c cmd.target b (.command n cmd .ok) =
      if n = c then decide (owner = some c) else b) (howner : ∀ c, owner = some c → n = c) :
    Recorded ((d.modifyObj i fun o => { o with lockState := s, lockOwner := owner }).emit
      (.command n cmd .ok)) := by
  have hi := Device.find_lt hf
  have hono := Device.obj_of_find hf
  have hself := Device.obj_modifyObj_self hi fun o =>
    { o with lockState := s, lockOwner := owner }
  intro c ono
  rw [Device.emit, holdsLock_concat]
  change holdsNext c ono (holdsLock c ono d.log) _ = true ↔
    ∃ j, ((d.modifyObj i fun o => { o with lockState := s, lockOwner := owner }).obj j).ono = ono ∧
      ((d.modifyObj i fun o => { o with lockState := s, lockOwner := owner }).obj j).lockOwner =
        some c
  by_cases htarget : cmd.target = ono
  · subst htarget
    -- the object with the target's number is the one whose lock is set
    have hone : (∃ j, ((d.modifyObj i fun o =>
          { o with lockState := s, lockOwner := owner }).obj j).ono = cmd.target ∧
        ((d.modifyObj i fun o => { o with lockState := s, lockOwner := owner }).obj j).lockOwner =
          some c) ↔ owner = some c := by
      refine ⟨?_, fun ho => ⟨i, by rw [hself]; exact hono, by rw [hself]; exact ho⟩⟩
      rintro ⟨j, hj, ho⟩
      have hlt : j < d.objects.length := by
        simpa using lt_of_locked ho
      rw [Device.obj_modifyObj_congr Obj.ono fun _ => by rfl] at hj
      obtain rfl : j = i := hr.eq_of_ono hlt hi (hj.trans hono.symm)
      rwa [hself] at ho
    rw [hone, hnext]
    split_ifs with hn
    · exact decide_eq_true_iff
    · rw [h]
      refine ⟨?_, fun ho => absurd (howner c ho) hn⟩
      rintro ⟨j, hj, ho⟩
      obtain rfl : j = i := hr.eq_of_ono (lt_of_locked ho) hi (hj.trans hono.symm)
      rcases hfree with hnone | hown
      · cases hnone.symm.trans ho
      · exact absurd (Option.some.inj (hown.symm.trans ho)) hn
  · rw [holdsNext_of_other fun _ hk => htarget hk.2.1, h]
    refine exists_congr fun j => ?_
    by_cases hj : i = j
    · subst hj
      rw [hself]
      exact iff_of_false (fun hk => htarget (hono.symm.trans hk.1))
        fun hk => htarget (hono.symm.trans hk.1)
    · rw [Device.obj_modifyObj_ne hj]

theorem Recorded.executed (h : Recorded d) (hr : d.Registry) (hd : Isolated d) {n : ℕ}
    {cmd : Command} {st : Status} (hexec : Executed T d n cmd st d') :
    Recorded (d'.emit (.command n cmd st)) := by
  -- an object whose lock state is clear has no owner
  have howner {i : ObjRef} (hfree : (d.obj i).lockState = .none ∨ (d.obj i).lockOwner = some n) :
      (d.obj i).lockOwner = none ∨ (d.obj i).lockOwner = some n := hfree.imp_left (hd.owner i).2
  cases hexec with
  | other hs hst =>
    exact (h.steady hs).emit_other n fun hok hm => hst hok (hm.imp id .inl)
  | lock hm hf hs hfree =>
    refine h.setLock hr hf (howner hfree) (fun c b => ?_) fun c => Option.some.inj
    by_cases hn : n = c <;> simp [holdsNext, hn, hm]
  | unlock hm hf hfree =>
    have hno : ¬cmd.IsLock := by
      intro hl
      rcases hl.2 with h3 | h6
      · cases hm.2.symm.trans h3
      · cases hm.2.symm.trans h6
    refine h.setLock hr hf (howner hfree) (fun c b => ?_) nofun
    by_cases hn : n = c <;> simp [holdsNext, hn, hm, hno]
  | subscribed hm =>
    exact h.emit_other n fun _ hk => by
      rcases hk with hk | hk <;> cases hk.1.symm.trans hm.2.1
  | @subscribe k s hm =>
    have hsame : Recorded { d with subs := Function.update d.subs k s } := h
    exact hsame.emit_other n fun _ hk => by
      rcases hk with hk | hk <;> cases hk.1.symm.trans hm.2.1
  | @unsubscribe p hm =>
    have hsame : Recorded (d.dropSubs p) := h
    exact hsame.emit_other n fun _ hk => by
      rcases hk with hk | hk <;> cases hk.1.symm.trans hm.2.1

theorem Recorded.close (h : Recorded d) (huse : (d.conns c).inUse = true) :
    Recorded (d.closeConn c) := by
  intro n ono
  rw [Device.log_closeConn huse, holdsLock_concat]
  simp only [Device.obj_closeConn huse]
  have hobj (i : ObjRef) : ((d.locksDropConn c).obj i).ono = (d.obj i).ono :=
    congrArg Prod.fst (d.ident_locksDropConn c i)
  by_cases hn : (c : ℕ) = n
  · simp only [holdsNext, if_pos hn, Bool.false_eq_true, false_iff, not_exists, not_and]
    intro i _ ho
    rw [Device.obj_locksDropConn, hn] at ho
    split_ifs at ho with hown
    exact hown ho
  · simp only [holdsNext, if_neg hn, h n ono]
    refine exists_congr fun i => ?_
    rw [hobj, Device.obj_locksDropConn]
    split_ifs with hown
    · refine iff_of_false (fun hk => hn (Option.some.inj (hown.symm.trans hk.2))) ?_
      rintro ⟨-, hnone⟩
      cases hnone
    · rfl

theorem Recorded.move (h : Recorded d) (hr : d.Registry) (hd : Isolated d) (hm : Move T d d') :
    Recorded d' := by
  cases hm with
  | steady hs => exact h.steady hs
  | command _ hexec => exact h.executed hr hd hexec
  | close huse => exact h.close huse
  | post => exact h
  | accept | acceptTls | handshake =>
    refine h.of_lock (fun n ono => ?_) (fun _ _ => rfl) fun _ => rfl
    simp only [Device.emit, holdsLock_concat]
    rfl

theorem Recorded.start (h : (server K).init d) : Recorded d := by
  have hd := Isolated.start h
  obtain ⟨cfg, net, h⟩ := h
  obtain ⟨e, rfl⟩ := start_eq h
  -- nobody is connected, so nobody owns a lock
  refine fun c ono => iff_of_false nofun fun ⟨i, _, ho⟩ => ?_
  obtain ⟨_, _, huse, _⟩ := hd.locks i c ho
  cases huse

end Recorded

/-! ### Locks out of reach -/

/-- The log grows, and the lock of `i`, if `c` has it, stays the same until an event of `c`. -/
def Kept (i : ObjRef) (c : ℕ) (d d' : Device K) : Prop :=
  ∃ es, d'.log = d.log ++ es ∧ ((d.obj i).lockOwner = some c → (∀ e ∈ es, ¬e.By c) →
    (d'.obj i).lock = (d.obj i).lock)

section Kept

variable {T : Prop} {d d' d'' : Device K} {i : ObjRef} {c : ℕ}

theorem Kept.refl (d : Device K) : Kept i c d d := ⟨[], (List.append_nil _).symm, fun _ _ => rfl⟩

theorem Kept.trans (h : Kept i c d d') (h' : Kept i c d' d'') : Kept i c d d'' := by
  obtain ⟨es, hlog, hlock⟩ := h
  obtain ⟨es', hlog', hlock'⟩ := h'
  refine ⟨es ++ es', by rw [hlog', hlog, List.append_assoc], fun ho hes => ?_⟩
  have hfirst := hlock ho fun e he => hes e (List.mem_append_left _ he)
  have ho' : (d'.obj i).lockOwner = some c := (congrArg Prod.snd hfirst).trans ho
  exact (hlock' ho' fun e he => hes e (List.mem_append_right _ he)).trans hfirst

/-- One event is put in the log. -/
theorem Kept.of_event {e : Event} (hlog : d'.log = d.log ++ [e])
    (hlock : (d.obj i).lockOwner = some c → ¬e.By c → (d'.obj i).lock = (d.obj i).lock) :
    Kept i c d d' := ⟨[e], hlog, fun ho hes => hlock ho (hes e (.head _))⟩

theorem Kept.of_objects (hobj : ∀ i, d'.obj i = d.obj i) (hlog : ∃ es, d'.log = d.log ++ es) :
    Kept i c d d' :=
  ⟨hlog.choose, hlog.choose_spec, fun _ _ => congrArg Obj.lock (hobj i)⟩

/-- A command of another connection does not get at the lock. -/
theorem Kept.set_lock (hd : Isolated d) {n : ℕ} {cmd : Command} {j : ObjRef} {f : Obj → Obj}
    (hfree : (d.obj j).lockState = .none ∨ (d.obj j).lockOwner = some n) :
    Kept i c d ((d.modifyObj j f).emit (.command n cmd .ok)) := by
  refine .of_event rfl fun ho hby => ?_
  have hj : j ≠ i := by
    rintro rfl
    rcases hfree with hnone | hown
    · cases ((hd.owner j).2 hnone).symm.trans ho
    · exact hby (Option.some.inj (hown.symm.trans ho))
  exact congrArg Obj.lock (Device.obj_modifyObj_ne hj f)

theorem Kept.move (hd : Isolated d) (hm : Move T d d') : Kept i c d d' := by
  have hsteady {d' : Device K} (hs : Steady T d d') : Kept i c d d' := by
    obtain ⟨es, hlog, -⟩ := hs.log
    exact ⟨es, hlog, fun _ _ => hs.lock i⟩
  cases hm with
  | steady hs => exact hsteady hs
  | command _ hexec =>
    cases hexec with
    | other hs => exact (hsteady hs).trans (.of_event rfl fun _ _ => rfl)
    | lock _ _ _ hfree | unlock _ _ hfree => exact .set_lock hd hfree
    | subscribed | subscribe | unsubscribe => exact .of_event rfl fun _ _ => rfl
  | accept => exact .of_objects (fun _ => rfl) ⟨_, List.append_assoc ..⟩
  | acceptTls | handshake => exact .of_event rfl fun _ _ => rfl
  | @close k huse =>
    refine .of_event (Device.log_closeConn huse) fun ho hby => ?_
    rw [Device.obj_closeConn huse, Device.obj_locksDropConn, if_neg fun hk => hby (Option.some.inj (hk.symm.trans ho))]
  | post => exact .of_objects (fun _ => rfl) ⟨[], (List.append_nil _).symm⟩

theorem Kept.moves (hd : Isolated d) (hm : Moves T d d') : Kept i c d d' := by
  have hboth : Isolated d' ∧ Kept i c d d' := by
    induction hm with
    | refl => exact ⟨hd, .refl d⟩
    | tail _ hone ih => exact ⟨ih.1.move hone, ih.2.trans (.move ih.1 hone)⟩
  exact hboth.2

end Kept

/-! ### Refusals -/

section Refused

variable {d : Device K} {i : ObjRef} {c c' : ℕ} {cmd : Command}

/-- Lock and unlock are writes of the root class, in every class. -/
theorem handlerFor_root (kind : Kind) : handlerFor (K := K) kind 1 = some rootDispatch := by
  cases kind <;> rfl

theorem methodIsWrite_lock (kind : Kind) (hm : cmd.IsLock ∨ cmd.IsUnlock) :
    methodIsWrite kind cmd.level cmd.index = true := by
  rcases hm with ⟨hl, h | h⟩ | ⟨hl, h⟩ <;> simp [methodIsWrite, hl, h]

theorem gate_of_locked (hstate : (d.obj i).lockState ≠ .none)
    (howner : (d.obj i).lockOwner = some c) (hne : c' ≠ c) (hm : cmd.IsLock ∨ cmd.IsUnlock) :
    { d with activeConn := some c' }.gate i cmd.level cmd.index = some (refusal d i c') := by
  have hobj : { d with activeConn := some c' }.obj i = d.obj i := rfl
  have hheld : ((d.obj i).lockState == .noWrite || (d.obj i).lockState == .noReadWrite) = true := by
    cases hs : (d.obj i).lockState with
    | none => exact absurd hs hstate
    | noWrite | noReadWrite => rfl
  have hother : (some c' != (d.obj i).lockOwner) = true := by simp [howner, hne]
  unfold Device.gate refusal
  simp only [hobj, methodIsWrite_lock _ hm, hheld, hother, Bool.and_true]
  rw [if_pos (by simp [hstate])]
  split_ifs <;> rfl

theorem execCommand_refused (hf : d.find cmd.target = some i) (hstate : (d.obj i).lockState ≠ .none)
    (howner : (d.obj i).lockOwner = some c) (hne : c' ≠ c) (hm : cmd.IsLock ∨ cmd.IsUnlock)
    {call : Call K} (hdev : call.dev = { d with activeConn := some c' }) :
    execCommand c' cmd call = (refusal d i c',
      { call with dev := call.dev.emit (.command c' cmd (refusal d i c')) }) := by
  have hlevel : cmd.level = 1 := hm.elim And.left And.left
  have hfind : call.dev.find cmd.target = some i := by rw [hdev]; exact hf
  have hgate : call.dev.gate i cmd.level cmd.index = some (refusal d i c') := by
    rw [hdev]
    exact gate_of_locked hstate howner hne hm
  have hhandler : handlerFor (K := K) (call.dev.obj i).kind cmd.level = some rootDispatch := by
    rw [hlevel, handlerFor_root]
  rw [execCommand_of_find hfind, objectDispatch_of_stop hhandler hgate]

end Refused

/-! ### Reachable states -/

/-- **Locks exclude**, for every object of every reachable device. -/
theorem lock_exclusive {d : Device K} (h : (server K).Reach d) {i : ObjRef}
    (hi : i < d.objects.length) : LockExclusive d i := by
  have hsound := driven_server.sound h
  have hd : Isolated d ∧ Recorded d := driven_server.invariant
    (I := fun d => Isolated d ∧ Recorded d) (fun _ h => ⟨.start h, .start h⟩)
    (fun _ _ hs hd hm => ⟨hd.1.move hm, hd.2.move hs.registry hd.1 hm⟩) h
  have hholder (c : ℕ) :
      holdsLock c (d.obj i).ono d.log = true ↔ (d.obj i).lockOwner = some c := by
    rw [hd.2]
    refine ⟨fun ⟨j, hj, ho⟩ => ?_, fun ho => ⟨i, rfl, ho⟩⟩
    rwa [← hsound.registry.eq_of_ono (lt_of_locked ho) hi hj]
  refine ⟨hholder, fun c c' hc hc' => ?_, fun c ho l d' hrun => ?_,
    fun c ho c' hne cmd htarget hm rd wr pc => ?_⟩
  · exact Option.some.inj (((hholder c).1 hc).symm.trans ((hholder c').1 hc'))
  · obtain ⟨es, hlog, hlock⟩ := Kept.moves (i := i) (c := c) hd.1 (driven_server.moves h hrun)
    exact ⟨es, hlog, hlock ho⟩
  · refine execCommand_refused ?_ (fun hnone => ?_) ho hne hm rfl
    · rw [htarget]
      exact hsound.registry.find_ono hi
    · cases ((hd.1.owner i).2 hnone).symm.trans ho

namespace Sample

/-- A frame with the command SetLockNoWrite for the root block. -/
def lockFrame : Bytes :=
  [0x3B, 0, 4, 0, 0, 0, 26, 1, 0, 1, 0, 0, 0, 17, 0, 0, 0, 1, 0, 0, 0, 100, 0, 1, 0, 6, 0]

/-- The client in slot 0 locks the root block. -/
def lockRoot : List (Input .default) :=
  [.accept [] 0 true, .service (0 : Fin 4) 0 ⟨true, .done, true, [.data lockFrame fun _ => 0]⟩]

theorem lockOwner_lockRoot : ((after lockRoot).obj 2).lockOwner = some 0 := by
  have hrx : (connected.conns (0 : Fin 4)).rx = [] := rfl
  have hframe := Device.receive_frame (d := connected) 0 (fun _ => 0) hrx (by decide)
    (by decide : rxHead 2048 lockFrame = .frame 27 ⟨1, 1, lockFrame.drop 10⟩)
  change ((Device.closeUnless (0 : Fin 4)
    (connected.receive (0 : Fin 4) 0 lockFrame fun _ => 0)).obj 2).lockOwner = _
  rw [hframe]
  decide +kernel

theorem lockExclusive_lockRoot :
    ((after lockRoot).obj 2).lockOwner = some 0 ∧ LockExclusive (after lockRoot) 2 := by
  have hrun : (server .default).Run start lockRoot (after lockRoot) :=
    .cons trivial (.cons trivial (.nil _))
  have hlocked := lockOwner_lockRoot
  exact ⟨hlocked, lock_exclusive (reach_after hrun) (lt_of_locked hlocked)⟩

end Sample

end Aes70
