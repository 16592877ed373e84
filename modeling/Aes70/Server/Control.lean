import Aes70.Server.Mirror
import Aes70.Server.Session

/-!
# The device as controllers and the application see it

A value reaches an object by a constructor, a command or a set request. Connections, subscriptions,
locks, labels and matrix cells come and go beside that. `control` is the device with these as single
steps, so that what holds of the objects can be proved step by step.

* `Aside d d'` : the devices have the same objects, up to who may access them, and register the next
  one alike.
* `control` : the machine of constructor calls, commands, set requests and changes aside.
* `reach_control` : every state of the server is one of its states.
-/

namespace Aes70

variable {K : Kconfig}

/-- An object without its label, its access and, for a matrix, its cells. -/
def Obj.contents (o : Obj) : Obj :=
  { o with
    label := none
    lockState := .none
    lockOwner := none
    secured := false
    tag := 0
    priv := if o.kind = .matrix then .null else o.priv }

/-- The devices have the same objects, up to who may access them, and register the next alike. -/
structure Aside (d d' : Device K) : Prop where
  objects : d'.objects.map Obj.contents = d.objects.map Obj.contents
  nextOno : d'.nextOno = d.nextOno
  rootBlock : d'.rootBlock = d.rootBlock

/-- A step of a controller or of the application. -/
inductive Action (K : Kconfig)
  /-- The application calls a constructor. -/
  | create (call : Create) (parent : Option ObjRef) (role : Bytes)
  /-- A command of a controller, or a set request the server applies. -/
  | operation (op : Operation)
  /-- Anything else. -/
  | other (d' : Device K)

namespace Action

/-- A parent is a block of the device; what happens aside leaves the objects alone. -/
def Legal (d : Device K) : Action K → Prop
  | .create _ parent _ => ∀ b ∈ parent, b < d.objects.length ∧ (d.obj b).kind = .block
  | .operation _ => True
  | .other d' => Aside d d'

/-- The effect of a step. -/
def run (d : Device K) : Action K → Device K
  | .create call parent role => d.create call parent role
  | .operation op => op.run d
  | .other d' => d'

end Action

/-- The device, from its start on, as controllers and the application see it. -/
def control (K : Kconfig) : Machine (Device K) (Action K) where
  init := (server K).init
  ok d a := a.Legal d
  step d a := a.run d

/-! ### Changes aside -/

namespace Aside

variable {d d' : Device K}

theorem of_objects (h : d'.objects = d.objects) (hnext : d'.nextOno = d.nextOno)
    (hroot : d'.rootBlock = d.rootBlock) : Aside d d' := ⟨by rw [h], hnext, hroot⟩

theorem length_eq (h : Aside d d') : d'.objects.length = d.objects.length := by
  simpa using congrArg List.length h.objects

theorem obj_contents (h : Aside d d') (i : ObjRef) :
    (d'.obj i).contents = (d.obj i).contents := by
  have hget := congrArg (fun l => l.getD i (Obj.fresh .block 0 []).contents) h.objects
  simpa [Device.obj, List.getD_eq_getElem?_getD, List.getElem?_map, Option.getD_map] using hget

/-- What `p` sees of an object, where `p` does not see what `contents` erases. -/
theorem obj_congr (h : Aside d d') {α : Type} {p : Obj → α} (hp : ∀ o, p o.contents = p o)
    (i : ObjRef) : p (d'.obj i) = p (d.obj i) := by
  rw [← hp, h.obj_contents, hp]

/-- A store that `contents` does not see. -/
theorem modifyObj {f : Obj → Obj} {i : ObjRef} (hf : (f (d.obj i)).contents = (d.obj i).contents) :
    Aside d (d.modifyObj i f) where
  objects := by
    refine List.ext_getElem? fun k => ?_
    simp only [Device.modifyObj, List.getElem?_map, List.getElem?_modify]
    by_cases hk : i = k
    · subst hk
      cases ho : d.objects[i]? with
      | none => rfl
      | some o =>
        have hobj : d.obj i = o := by simp [Device.obj, ho]
        rw [hobj] at hf
        simp [hf]
    · simp [hk]
  nextOno := rfl
  rootBlock := rfl

/-- Sending. -/
theorem of_core (h : d'.core = d.core) : Aside d d' where
  objects := by rw [Device.objects_eq_of_core h]
  nextOno := by
    have := congrArg Device.nextOno h
    exact this
  rootBlock := by
    have := congrArg Device.rootBlock h
    exact this

theorem locksDropConn (d : Device K) (c : ℕ) : Aside d (d.locksDropConn c) where
  objects := by
    rw [Device.locksDropConn, List.map_map]
    refine List.map_congr_left fun o _ => ?_
    simp only [Function.comp_apply]
    split_ifs <;> rfl
  nextOno := rfl
  rootBlock := rfl

end Aside

/-! ### The server -/

section Server

variable {d : Device K}

theorem reach_action (a : Action K) (hd : (control K).Reach d) (h : a.Legal d) :
    (control K).Reach (a.run d) := Machine.Reach.step hd h

theorem reach_aside {d' : Device K} (hd : (control K).Reach d) (h : Aside d d') :
    (control K).Reach d' := reach_action (.other d') hd h

/-- The server task does not leave the states that are reached. -/
theorem sessionOrder_reach :
    SessionOrder fun d d' : Device K => (control K).Reach d → (control K).Reach d' where
  refl _ hd := hd
  trans h h' hd := h' (h hd)
  command _ conn cmd params _ hd := reach_action (.operation (.command conn cmd params)) hd trivial
  send d c frame _ hd := reach_aside hd (.of_core (Device.core_connSend d c frame))
  active _ _ hd := reach_aside hd (.of_objects rfl rfl rfl)
  modifyConn _ _ _ hd := reach_aside hd (.of_objects rfl rfl rfl)
  closeConn d c hd := by
    unfold Device.closeConn
    split_ifs
    · exact hd
    · have hdropped : (control K).Reach (d.subscriptionsDropConn c) :=
        reach_aside hd (.of_objects rfl rfl rfl)
      exact reach_aside (reach_aside hdropped (.locksDropConn _ c)) (.of_objects rfl rfl rfl)
  authorized _ _ _ _ hd := reach_aside hd (.of_objects rfl rfl rfl)

theorem reach_drainCmdQueue (hd : (control K).Reach d) : (control K).Reach d.drainCmdQueue :=
  List.foldlRecOn (motive := (control K).Reach) _ _
    (reach_aside hd (.of_objects rfl rfl rfl))
    fun _ hd req _ => reach_action (.operation (.set req)) hd trivial

theorem reach_input {inp : Input K} (hd : (control K).Reach d) (hok : inp.Legal d) :
    (control K).Reach (inp.run d) := by
  cases inp with
  | create call parent role => exact reach_action (.create call parent role) hd hok
  | setLabel i label => exact reach_aside hd (.modifyObj rfl)
  | setSecured i secured => exact reach_aside hd (.modifyObj rfl)
  | setTag i tag => exact reach_aside hd (.modifyObj rfl)
  | matrixSetMember i x y member =>
    change (control K).Reach (d.matrixSetMember i x y member)
    unfold Device.matrixSetMember
    split
    · next m hk hp =>
      split_ifs
      · refine reach_aside hd (.modifyObj ?_)
        simp [Obj.contents, hk]
      · exact hd
    · exact hd
  | post i req =>
    change (control K).Reach (d.postSet req)
    unfold Device.postSet
    split_ifs
    · exact reach_aside hd (.of_objects rfl rfl rfl)
    · exact hd
  | drain => exact reach_drainCmdQueue hd
  | accept addr port answer =>
    change (control K).Reach (d.acceptConn addr port answer)
    unfold Device.acceptConn
    split
    · exact hd
    · exact reach_aside hd (.of_objects rfl rfl rfl)
  | acceptTls addr port sessionOk =>
    change (control K).Reach (d.acceptTlsConn addr port sessionOk)
    unfold Device.acceptTlsConn
    split
    · exact hd
    · split_ifs
      · exact hd
      · exact reach_aside hd (.of_objects rfl rfl rfl)
  | service c now inp => exact sessionOrder_reach.serviceConn now inp d hd
  | keepalive now => exact sessionOrder_reach.serviceKeepalive now d hd

/-- **Every state of the server** is reached by constructors, commands, set requests and changes
aside. -/
theorem reach_control (h : (server K).Reach d) : (control K).Reach d :=
  h.invariant (fun _ h => .init h) fun _ _ _ hd hok => reach_input hd hok

end Server

namespace Sample

/-- A command of the client in slot 0. -/
def sent (target : UInt32) (level index : UInt16) (count : UInt8) (params : Bytes) :
    Action .default :=
  .operation (.command 0 ⟨1, target, level, index, count, params⟩ (Reader.ofBytes params))

/-- A mute, object 4 with the number 4097, in the only group of a grouper; the proxy of the group is
object 5. -/
def groupSteps : List (Action .default) :=
  [.create (.grouper .mute) none (ascii "mutes"), .create (.mute false) none (ascii "mute"),
    sent 4096 3 1 1 [0, 3, 0x61, 0x6C, 0x6C], sent 4096 3 5 1 [0, 0, 0, 0, 0, 0, 0x10, 1, 1],
    sent 4096 3 10 2 [0, 1, 0, 1, 1]]

/-- The sample device with the group. -/
def grouped : Device .default := groupSteps.foldl Action.run start

theorem reach_grouped : (control .default).Reach grouped := by
  have hrun : (control .default).Run start groupSteps grouped :=
    .cons (fun _ h => nomatch h) (.cons (fun _ h => nomatch h)
      (.cons trivial (.cons trivial (.cons trivial (.nil _)))))
  exact (reach_control reach_start).run hrun

end Sample

end Aes70
