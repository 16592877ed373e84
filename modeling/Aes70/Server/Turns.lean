import Aes70.Server.Session

/-!
# The device turn by turn

A step of the server can hold many things: frames, each with commands, each with a response. Taken
apart, they are turns of a few kinds, and what is true of a run of turns is true of the server. The
machine `turns` keeps more of a turn than its effect on values: what it sends, what it records, and
which entries of the tables it touches.

* `Beside d d'` : sessions, locks, labels and the queue change, nothing else.
* `turns` : the machine of constructors, matrix cells, commands, set requests, frames and changes
  beside.
* `turns_input` : every step of the server is a run of turns.
-/

namespace Aes70

variable {K : Kconfig}

/-! ### Changes beside -/

/-- An object without its label and its access. -/
def Obj.substance (o : Obj) : Obj :=
  { o with label := none, lockState := .none, lockOwner := none, secured := false, tag := 0 }

/-- Events of a session. -/
def Event.isSession : Event → Bool
  | .accepted .. | .authorized .. | .closed _ => true
  | _ => false

/-- The devices have the same objects up to labels and access, and the same subscriptions up to some
that are gone; what is recorded in between is about sessions. -/
structure Beside (d d' : Device K) : Prop where
  cfg : d'.cfg = d.cfg
  net : d'.net = d.net
  objects : d'.objects.map Obj.substance = d.objects.map Obj.substance
  nextOno : d'.nextOno = d.nextOno
  rootBlock : d'.rootBlock = d.rootBlock
  subs : ∀ k, d'.subs k = d.subs k ∨ (d'.subs k).inUse = false
  disabled : d'.notificationsDisabled = d.notificationsDisabled
  log : Log.Grows (fun e => e.isSession = true) d.log d'.log

namespace Beside

variable {d d' : Device K}

theorem of_objects (hcfg : d'.cfg = d.cfg) (hnet : d'.net = d.net)
    (hobjects : d'.objects = d.objects)
    (hnext : d'.nextOno = d.nextOno) (hroot : d'.rootBlock = d.rootBlock) (hsubs : d'.subs = d.subs)
    (hdisabled : d'.notificationsDisabled = d.notificationsDisabled)
    (hlog : Log.Grows (fun e => e.isSession = true) d.log d'.log) : Beside d d' :=
  ⟨hcfg, hnet, by rw [hobjects], hnext, hroot, fun k => .inl (by rw [hsubs]), hdisabled, hlog⟩

theorem length_eq (h : Beside d d') : d'.objects.length = d.objects.length := by
  simpa using congrArg List.length h.objects

theorem obj_substance (h : Beside d d') (i : ObjRef) :
    (d'.obj i).substance = (d.obj i).substance := by
  have hget := congrArg (fun l => l.getD i (Obj.fresh .block 0 []).substance) h.objects
  simpa [Device.obj, List.getD_eq_getElem?_getD, List.getElem?_map, Option.getD_map] using hget

/-- What `p` sees of an object, where `p` does not see what `substance` erases. -/
theorem obj_congr (h : Beside d d') {α : Type} {p : Obj → α} (hp : ∀ o, p o.substance = p o)
    (i : ObjRef) : p (d'.obj i) = p (d.obj i) := by
  rw [← hp, h.obj_substance, hp]

/-- A store that `substance` does not see. -/
theorem modifyObj {f : Obj → Obj} {i : ObjRef} (hf : ∀ o, (f o).substance = o.substance) :
    Beside d (d.modifyObj i f) where
  cfg := rfl
  net := rfl
  objects := by
    refine List.ext_getElem? fun k => ?_
    simp only [Device.modifyObj, List.getElem?_map, List.getElem?_modify]
    by_cases hk : i = k
    · cases d.objects[k]? with
      | none => rfl
      | some o => simp [hk, hf]
    · simp [hk]
  nextOno := rfl
  rootBlock := rfl
  subs _ := .inl rfl
  disabled := rfl
  log := .refl _

/-- A connection is closed. -/
theorem closeConn (d : Device K) (c : Fin K.maxConnections) : Beside d (d.closeConn c) := by
  unfold Device.closeConn
  split_ifs
  · exact of_objects rfl rfl rfl rfl rfl rfl rfl (.refl _)
  · unfold Device.emit
    refine ⟨rfl, rfl, ?_, rfl, rfl, ?_, rfl, ⟨[.closed c], rfl, by simp [Event.isSession]⟩⟩
    · change (d.objects.map _).map _ = _
      rw [List.map_map]
      refine List.map_congr_left fun o _ => ?_
      simp only [Function.comp_apply]
      split_ifs <;> rfl
    · intro k
      change (d.subscriptionsDropConn c).subs k = _ ∨ ((d.subscriptionsDropConn c).subs k).inUse = _
      simp only [Device.subscriptionsDropConn, Device.dropSubs]
      split_ifs
      · exact .inr rfl
      · exact .inl rfl

end Beside

/-! ### Turns -/

/-- One thing the device does. -/
inductive Turn (K : Kconfig)
  /-- The application calls a constructor. -/
  | create (call : Create) (parent : Option ObjRef) (role : Bytes)
  /-- The application fills a cell of a matrix. -/
  | setMember (i : ObjRef) (x y : UInt16) (member : Option ObjRef)
  /-- A command of connection `conn` is executed, with this reader over its parameters. -/
  | command (conn : ℕ) (cmd : Command) (params : Reader)
  /-- A queued set request is applied. -/
  | set (req : SetReq)
  /-- A response or a keep-alive is handed to the socket of connection `c`. -/
  | send (c : ℕ) (frame : Bytes)
  /-- Something beside. -/
  | session (d' : Device K)

namespace Turn

/-- A parent is a block of the device, the reader is over the parameters of the command, frames are
framed. -/
def Legal (d : Device K) : Turn K → Prop
  | .create _ parent _ => ∀ b ∈ parent, b < d.objects.length ∧ (d.obj b).kind = .block
  | .command _ cmd params => Carries cmd (cmd, params)
  | .send _ frame => Framed K frame
  | .session d' => Beside d d'
  | _ => True

/-- The effect of a turn. -/
def run (d : Device K) : Turn K → Device K
  | .create call parent role => d.create call parent role
  | .setMember i x y member => d.matrixSetMember i x y member
  | .command conn cmd params => (answer K.txBufferSize conn cmd params d).dev
  | .set req => d.applySet req
  | .send c frame => d.connSend c frame
  | .session d' => d'

end Turn

/-- The device, from its start on, turn by turn. -/
def turns (K : Kconfig) : Machine (Device K) (Turn K) where
  init := (server K).init
  ok d t := t.Legal d
  step d t := t.run d

/-! ### Runs of turns -/

/-- Some turns lead from `d` to `d'`. -/
def Turns (d d' : Device K) : Prop := ∃ ts, (turns K).Run d ts d'

namespace Turns

variable {d d' d'' : Device K} {c : Fin K.maxConnections}

theorem refl (d : Device K) : Turns d d := ⟨[], .nil d⟩

theorem trans (h : Turns d d') (h' : Turns d' d'') : Turns d d'' := by
  obtain ⟨ts, hrun⟩ := h
  obtain ⟨ts', hrun'⟩ := h'
  exact ⟨ts ++ ts', hrun.append hrun'⟩

theorem one {t : Turn K} (h : t.Legal d) : Turns d (t.run d) := ⟨[t], .cons h (.nil _)⟩

theorem beside (h : Beside d d') : Turns d d' := one (t := .session d') h

/-- What changes neither objects nor subscriptions nor the log. -/
theorem quiet (hcfg : d'.cfg = d.cfg) (hnet : d'.net = d.net) (hobjects : d'.objects = d.objects)
    (hnext : d'.nextOno = d.nextOno) (hroot : d'.rootBlock = d.rootBlock) (hsubs : d'.subs = d.subs)
    (hdisabled : d'.notificationsDisabled = d.notificationsDisabled) (hlog : d'.log = d.log) :
    Turns d d' :=
  beside (.of_objects hcfg hnet hobjects hnext hroot hsubs hdisabled (by rw [hlog]))

/-- What the server task does is turns. -/
theorem sessionOrder : SessionOrder (Turns (K := K)) where
  refl := refl
  trans := trans
  command _ conn _ _ h := one (t := .command conn _ _) h
  send _ c _ h := one (t := .send c _) h
  active _ _ := quiet rfl rfl rfl rfl rfl rfl rfl rfl
  modifyConn _ _ _ := quiet rfl rfl rfl rfl rfl rfl rfl rfl
  closeConn d c := beside (.closeConn d c)
  authorized _ c _ _ :=
    beside (.of_objects rfl rfl rfl rfl rfl rfl rfl
      ⟨[.authorized c _], rfl, by simp [Event.isSession]⟩)

theorem drainCmdQueue (d : Device K) : Turns d d.drainCmdQueue :=
  List.foldlRecOn (motive := Turns d) _ _ (quiet rfl rfl rfl rfl rfl rfl rfl rfl)
    fun _ hd req _ => hd.trans (one (t := .set req) trivial)

end Turns

/-! ### The server -/

section Server

variable {d d' : Device K}

/-- **Every step of the server is a run of turns.** -/
theorem turns_input {inp : Input K} (h : inp.Legal d) : Turns d (inp.run d) := by
  cases inp with
  | create call parent role => exact .one (t := .create call parent role) h
  | setLabel | setSecured | setTag => exact .beside (.modifyObj fun _ => rfl)
  | matrixSetMember i x y member => exact .one (t := .setMember i x y member) trivial
  | post i req =>
    change Turns d (d.postSet req)
    unfold Device.postSet
    split_ifs
    · exact .quiet rfl rfl rfl rfl rfl rfl rfl rfl
    · exact .refl d
  | drain => exact .drainCmdQueue d
  | accept addr port answer =>
    change Turns d (d.acceptConn addr port answer)
    unfold Device.acceptConn
    split
    · exact .refl d
    · next c _ =>
      unfold Device.emit
      exact .beside (.of_objects rfl rfl rfl rfl rfl rfl rfl
        ⟨[.accepted c false, .authorized c _], List.append_assoc .., by simp [Event.isSession]⟩)
  | acceptTls addr port sessionOk =>
    change Turns d (d.acceptTlsConn addr port sessionOk)
    unfold Device.acceptTlsConn
    split
    · exact .refl d
    · next c _ =>
      split_ifs
      · exact .refl d
      · exact .beside (.of_objects rfl rfl rfl rfl rfl rfl rfl
          ⟨[.accepted c true], rfl, by simp [Event.isSession]⟩)
  | service c now inp => exact Turns.sessionOrder.serviceConn now inp d
  | keepalive now => exact Turns.sessionOrder.serviceKeepalive now d

/-- **Every run of the server is a run of turns.** -/
theorem turns_run {is : List (Input K)} (h : (server K).Run d is d') : Turns d d' := by
  induction h with
  | nil => exact .refl _
  | cons hok _ ih => exact (turns_input hok).trans ih

theorem reach_turns (h : (server K).Reach d) : (turns K).Reach d :=
  h.invariant (fun _ h => .init h) fun _ _ _ hd hok => by
    obtain ⟨ts, hrun⟩ := turns_input hok
    exact hd.run hrun

end Server

end Aes70
