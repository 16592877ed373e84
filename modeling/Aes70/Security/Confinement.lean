import Aes70.Router.Frame
import Aes70.Router.Message
import Aes70.Security.Setting
import Aes70.Server.Machine

/-!
# Access through other objects

The gate looks at the object a command is addressed to. A recall stores values into objects it
names, and a setter's value is copied to the citizens of a group, without a look at the gates of
these.

* `Obj.guarded` : what the gate of an object protects.
* `Device.indirectWrites` : the values a command stores into other objects than its target.
* `confined_iff` : a command leaves an object it is not addressed to alone exactly when these
  change nothing in it.
-/

namespace Aes70

open Handler Device

variable {K : Kconfig}

/-- What an object protects: its value, label, enabled flag and lock. -/
def Obj.guarded (o : Obj) :
    F64 × Option Bytes × Priv × Option Bytes × Bool × LockState × Option ℕ :=
  (o.num, o.str, o.priv, o.label, o.enabled, o.lockState, o.lockOwner)

/-- The gate of the object would stop a write of connection `conn`. -/
def Obj.ClosedTo (o : Obj) (d : Device K) (conn : ℕ) : Prop :=
  (o.secured = true ∧ ({ d with activeConn := some conn } : Device K).activePrivileged = false) ∨
    ((o.lockState = .noWrite ∨ o.lockState = .noReadWrite) ∧ o.lockOwner ≠ some conn)

namespace Device

/-- The values a command of connection `conn` stores into other objects than its target, in the
order it stores them. -/
def indirectWrites (d : Device K) (conn : ℕ) (cmd : Command) (rd : Reader) : List (ObjRef × F64) :=
  match d.find cmd.target with
  | none => []
  | some j =>
    if ({ d with activeConn := some conn } : Device K).gate j cmd.level cmd.index ≠ none then []
    else if (d.obj j).kind = .block ∧ cmd.level = 3 ∧ cmd.index = 26 then
      match recallParams rd with
      | some (es, _) => d.recallStores es
      | none => []
    else if primaryProperty (d.obj j).kind = some (cmd.level, 1) ∧ cmd.index = 2 then
      match setting (d.obj j) rd with
      | some v => (d.copies j).map fun c => (c, v)
      | none => []
    else []

/-- The stores leave what object `i` protects as it is. -/
def Spares (d : Device K) (ws : List (ObjRef × F64)) (i : ObjRef) : Prop :=
  ∀ v, lastWrite ws i = some v → v = (d.obj i).num

theorem spares_nil (d : Device K) (i : ObjRef) : d.Spares [] i := by
  rintro v ⟨⟩

/-- A list of stores is confined exactly when it spares the object. -/
theorem guarded_writeNums_iff (d : Device K) (ws : List (ObjRef × F64)) {i : ObjRef}
    (hi : i < d.objects.length) :
    ((d.writeNums ws).obj i).guarded = (d.obj i).guarded ↔ d.Spares ws i := by
  rw [obj_writeNums d ws hi]
  unfold Spares Obj.guarded
  cases lastWrite ws i with
  | none => simp
  | some v => simp

theorem lastWrite_cons_ne {w : ObjRef × F64} {i : ObjRef} (h : w.1 ≠ i)
    (ws : List (ObjRef × F64)) : lastWrite (w :: ws) i = lastWrite ws i := by
  simp [lastWrite, List.find?_append, h]

end Device

section Dispatch

variable {d : Device K} {conn : ℕ} {cmd : Command} {i j : ObjRef}

theorem handlerFor_of_primaryProperty {kind : Kind} {level : UInt16}
    (h : primaryProperty kind = some (level, 1)) :
    ∃ hd, handlerFor (K := K) kind level = some hd := by
  cases kind <;> simp only [primaryProperty, Option.some.injEq, Prod.mk.injEq, and_true,
    reduceCtorEq] at h <;> subst h <;> exact ⟨_, rfl⟩

/-- A method that stores no values elsewhere is confined to its object. -/
theorem dispatch_guarded (hj : j < d.objects.length) (hi : i < d.objects.length) (hne : j ≠ i)
    {level index : UInt16} (hw : ¬d.WritesValues j level index) {c : Call K} (hc : c.dev = d) :
    ((objectDispatch j level index c).2.dev.obj i).guarded = (d.obj i).guarded :=
  (objectDispatch_outcome j level index c hc).frame hj hi hne (fun _ _ => rfl) (fun _ _ => rfl)
    fun hw' => absurd hw' hw

/-- A recall is confined to its block exactly when its stores spare the object. -/
theorem recall_confined_iff (hi : i < d.objects.length) {level index : UInt16}
    (hr : Recalls d j level index) {c : Call K} (hc : c.dev = d) :
    ((objectDispatch j level index c).2.dev.obj i).guarded = (d.obj i).guarded ↔
      d.Spares (match recallParams c.rd with
        | some (es, _) => d.recallStores es
        | none => []) i := by
  have hdev : (objectDispatch j level index c).2.dev =
      (d.recallOutcome (recallParams c.rd)).2 := by
    rw [objectDispatch_of_recalls hr hc, ← hc]
    exact congrArg Prod.snd (applyParameterData_dev c)
  rw [hdev]
  cases recallParams c.rd with
  | none => exact iff_of_true rfl (spares_nil d i)
  | some p =>
    rw [← guarded_writeNums_iff d _ hi, ← obj_eq_of_core (core_recall d p.1)]
    rfl

/-- A setter is confined to its object exactly when the copies it makes spare the other one. -/
theorem setter_confined_iff (hj : j < d.objects.length) (hi : i < d.objects.length) (hne : j ≠ i)
    {level : UInt16} (hp : primaryProperty (d.obj j).kind = some (level, 1))
    (hs : (d.obj j).kind ≠ .string) (hg : d.gate j level 2 = none) {c : Call K} (hc : c.dev = d) :
    ((objectDispatch j level 2 c).2.dev.obj i).guarded = (d.obj i).guarded ↔
      d.Spares (match setting (d.obj j) c.rd with
        | some v => (d.copies j).map fun t => (t, v)
        | none => []) i := by
  obtain ⟨h, hh⟩ := handlerFor_of_primaryProperty (K := K) hp
  have hdev : (objectDispatch j level 2 c).2.dev = d.set j level (setting (d.obj j) c.rd) := by
    rw [objectDispatch_of_handler hh hg hc, ← hc]
    exact setter_setsAt hh hp hs (by rw [hc]) rfl
  rw [hdev]
  cases setting (d.obj j) c.rd with
  | none => exact iff_of_true rfl (spares_nil d i)
  | some v =>
    change ((d.commitNum j v level 1 true).obj i).guarded = _ ↔ _
    rw [obj_eq_of_core (core_commitNum hj v level 1), guarded_writeNums_iff d _ hi]
    unfold Spares commitWrites
    rw [lastWrite_cons_ne hne]

/-- The execution of a command leaves an object it is not addressed to alone exactly when the
stores it makes elsewhere spare it. -/
theorem execCommand_confined_iff (hi : i < d.objects.length) (ht : d.find cmd.target ≠ some i)
    {c : Call K} (hc : c.dev = { d with activeConn := some conn }) :
    ((execCommand conn cmd c).2.dev.obj i).guarded = (d.obj i).guarded ↔
      d.Spares (d.indirectWrites conn cmd c.rd) i := by
  have hfind : c.dev.find cmd.target = d.find cmd.target := by rw [hc]; rfl
  unfold execCommand indirectWrites
  cases hf : d.find cmd.target with
  | none =>
    simp only [hfind, hf]
    rw [hc]
    exact iff_of_true rfl (spares_nil d i)
  | some j =>
    have hj : j < d.objects.length := find_lt hf
    have hne : j ≠ i := fun h => ht (h ▸ hf)
    simp only [hfind, hf]
    change ((objectDispatch j cmd.level cmd.index c).2.dev.obj i).guarded = _ ↔ _
    split_ifs with hg hr hs
    · obtain ⟨st, hst⟩ := Option.ne_none_iff_exists'.mp hg
      rw [objectDispatch_of_gate hst hc]
      exact iff_of_true rfl (spares_nil d i)
    · exact recall_confined_iff (d := { d with activeConn := some conn }) hi
        ⟨hr.1, hr.2.1, hr.2.2, not_not.mp hg⟩ hc
    · obtain ⟨hp, hidx⟩ := hs
      rw [hidx] at hg ⊢
      by_cases hstr : (d.obj j).kind = .string
      · have hnone : setting (d.obj j) c.rd = none := by simp only [setting, hstr]
        rw [hnone]
        refine iff_of_true ?_ (spares_nil d i)
        refine dispatch_guarded (d := { d with activeConn := some conn }) hj hi hne ?_ hc
        rintro (⟨hk, -⟩ | ⟨-, hk, -⟩)
        · exact absurd (hk.symm.trans hstr) (by decide)
        · exact hk hstr
      · exact setter_confined_iff (d := { d with activeConn := some conn }) hj hi hne hp hstr
          (not_not.mp hg) hc
    · refine iff_of_true ?_ (spares_nil d i)
      refine dispatch_guarded (d := { d with activeConn := some conn }) hj hi hne ?_ hc
      rintro (h | ⟨hp, -, hidx⟩)
      · exact hr h
      · exact hs ⟨hp, hidx⟩

end Dispatch

/-- **A command is confined** to the object it is addressed to exactly when the values it stores
elsewhere spare the other one. -/
theorem confined_iff (d : Device K) (conn : ℕ) (type : MsgType) (mem : Ptr) (outCap : ℕ)
    {cmd : Command} (hcmd : cmd.Encodable) {i : ObjRef} (hi : i < d.objects.length)
    (ht : d.find cmd.target ≠ some i) :
    ((routeCommandPdu d conn type 1 (Ptr.ofBytes cmd.encode mem) cmd.encode.length
        outCap).1.obj i).guarded = (d.obj i).guarded ↔
      d.Spares (d.indirectWrites conn cmd (paramsReader (Ptr.ofBytes cmd.encode mem) 0 cmd)) i := by
  have hdev : (pduAnswers d conn 1 (Ptr.ofBytes cmd.encode mem) cmd.encode.length outCap).2 =
      (answer outCap conn cmd (paramsReader (Ptr.ofBytes cmd.encode mem) 0 cmd) d).dev := by
    rw [pduAnswers, show (1 : UInt16).toNat = 1 from rfl, commands_one mem hcmd]
    rfl
  rw [routeCommandPdu_dev d conn type 1 _ _ outCap outCap, hdev]
  exact execCommand_confined_iff hi ht rfl

namespace Sample

/-- The sample device with a secured mute, object 3 with the number 4096, not muted, and a session
that was refused privileges. -/
def secured : Device .default :=
  after [.create (.mute false) none (ascii "mute"), .setSecured 3 true, .accept [] 0 false]

theorem reach_secured : (server .default).Reach secured :=
  reach_after (.cons ok_create (.cons (show 3 < 4 by decide) (.cons trivial (.nil _))))

/-- `ApplyParameterData` of the root block with the value 1 for the object 4096. -/
def recallMute : Command :=
  ⟨1, 100, 3, 26, 2, [0, 0, 0, 14, 0, 1, 0, 0, 0x10, 0, 0x3F, 0xF0, 0, 0, 0, 0, 0, 0]⟩

/-- The session cannot write the mute, but the recall mutes it. -/
theorem not_confined_recallMute : (server .default).Reach secured ∧
    (secured.obj 3).ClosedTo secured 0 ∧ secured.find recallMute.target ≠ some 3 ∧
      ((routeCommandPdu secured 0 .cmdRrq 1 (Ptr.ofBytes recallMute.encode fun _ => 0)
        recallMute.encode.length 2048).1.obj 3).guarded ≠ (secured.obj 3).guarded :=
  ⟨reach_secured, .inl ⟨by decide, by decide⟩, by decide, fun h =>
    absurd (congrArg Prod.fst h) (by decide)⟩

/-- The same with another mute, object 4 with the number 4097, which is not secured. -/
def securedOne : Device .default :=
  after [.create (.mute false) none (ascii "mute"), .setSecured 3 true,
    .create (.mute false) none (ascii "other"), .accept [] 0 false]

/-- `ApplyParameterData` of the root block with the value 1 for the object 4097. -/
def recallOther : Command :=
  ⟨1, 100, 3, 26, 2, [0, 0, 0, 14, 0, 1, 0, 0, 0x10, 1, 0x3F, 0xF0, 0, 0, 0, 0, 0, 0]⟩

/-- It writes the other mute and spares the secured one. -/
theorem confined_recallOther :
    ((routeCommandPdu securedOne 0 .cmdRrq 1 (Ptr.ofBytes recallOther.encode fun _ => 0)
      recallOther.encode.length 2048).1.obj 3).guarded = (securedOne.obj 3).guarded := by
  refine (confined_iff securedOne 0 .cmdRrq (fun _ => 0) 2048
    (show recallOther.Encodable by decide) (show 3 < 5 by decide) (by decide)).mpr ?_
  have hother : securedOne.indirectWrites 0 recallOther
      (paramsReader (Ptr.ofBytes recallOther.encode fun _ => 0) 0 recallOther) =
        [(4, ⟨0x3FF0000000000000⟩)] := by
    decide
  rw [hother]
  rintro v ⟨⟩

end Sample

end Aes70
