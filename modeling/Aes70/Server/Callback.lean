import Aes70.Device.Callback
import Aes70.Server.Control

/-!
# What the application is told of commands

The application sees every change that a controller's command makes, to the object it is sent to, to
citizens or in a recall: each object that changed has had a call, and the last of its calls found it
as it is when the command is over. Requests of the application itself are not called back.

* `Outcome.follows` : whatever a command does.
* `CallsFollow d d'` : every object that changed was called about, last with its final value.
* `control_changes_called` : commands are followed, requests are not called back.
-/

namespace Aes70

open Handler

variable {K : Kconfig} {d d' : Device K} {i : ObjRef} {level index : UInt16}

/-! ### Commands -/

/-- A store that changes neither the value nor the tag. -/
theorem Follows.modifyObj {f : Obj → Obj} (htag : ∀ o, (f o).tag = o.tag)
    (hvalue : (f (d.obj i)).controlValue = (d.obj i).controlValue) :
    Follows d (d.modifyObj i f) :=
  .of_same rfl (by rw [Device.length_modifyObj]) (fun j hj => by
    by_cases hij : i = j
    · subst hij
      rw [Device.obj_modifyObj_self hj]
      exact ⟨htag _, hvalue⟩
    · rw [Device.obj_modifyObj_ne hij]
      exact ⟨rfl, rfl⟩) (.refl _)

theorem Follows.notify (h : Follows d d') (level index : UInt16) :
    Follows d (d'.notify i level index) :=
  h.trans (.of_core (Device.core_notify d' i level index) (uncalled_notify d' i level index))

/-- The private state of a class that is no DSP class is no value. -/
theorem Obj.controlValue_priv {o : Obj} (hk : dspIsDspKind o.kind = false) (p : Priv) :
    { o with priv := p }.controlValue = o.controlValue := by
  simp [Obj.controlValue, hk]

/-- **Whatever a command does, its calls follow it.** -/
theorem Outcome.follows {st : Status} (h : Outcome d i level index st d')
    (hi : i < d.objects.length) : Follows d d' := by
  have hpriv (p : Priv) (hk : dspIsDspKind (d.obj i).kind = false) :
      Follows d (d.modifyObj i fun o => { o with priv := p }) :=
    .modifyObj (fun _ => rfl) (Obj.controlValue_priv hk p)
  have hsame {e : Device K} (hobjects : e.objects = d.objects) (hcfg : e.cfg = d.cfg)
      (hlog : e.log = d.log) : Follows d e :=
    .of_same hcfg (by rw [hobjects])
      (fun j _ => by rw [Device.obj, Device.obj, hobjects]; exact ⟨rfl, rfl⟩)
      (by rw [Uncalled, hlog])
  cases h with
  | same => exact .refl d
  | lock | unlock | agentLabel => exact .modifyObj (fun _ => rfl) rfl
  | enabled | label =>
    refine Follows.notify ?_ _ _
    exact .modifyObj (fun _ => rfl) rfl
  | num v => exact follows_commitNum d i v level 1
  | str s => exact follows_commitStr d i s 5 1
  | dsp p sel => exact follows_store fun _ => by rfl
  | grouper g hk => exact hpriv _ (by rw [hk]; rfl)
  | matrix m hk | truncatedMembers m _ hk => exact hpriv _ (by rw [hk]; rfl)
  | noRoom | subscribe | unsubscribe | notifications => exact hsame rfl rfl rfl
  | «recall» es | truncatedRecall es => exact follows_recall d es
  | deviceName s | deviceRole s =>
    refine Follows.notify ?_ _ _
    exact hsame rfl rfl rfl
  | @addGroup g slot name proxy d₁ hk h =>
    obtain ⟨-, hnew, -⟩ := Device.objectAlloc_some h
    obtain ⟨hd₁, hlen⟩ := Device.eq_of_objectAlloc h
    -- the proxy is behind the old objects, and these are linked at most
    have hold {α : Type} {p : Obj → α} (hc : ∀ o cs, p { o with children := cs } = p o)
        (ho : ∀ o n, p { o with ownerOno := n } = p o) {j : ObjRef} (hj : j < d.objects.length) :
        p ((d₁.modifyObj proxy initProxy).obj j) = p (d.obj j) := by
      rw [Device.obj_modifyObj_ne (by rw [hnew]; exact hj.ne'), Device.obj_objectAlloc hc ho h hj]
    have hproxy : Follows d (d₁.modifyObj proxy initProxy) := by
      refine .of_same ?_ ?_ (fun j hj => ⟨?_, ?_⟩) ?_
      · change d₁.cfg = d.cfg
        rw [hd₁]
      · rw [Device.length_modifyObj, hlen]
        exact Nat.le_succ _
      · exact hold (p := Obj.tag) (fun _ _ => rfl) (fun _ _ => rfl) hj
      · exact hold (p := Obj.controlValue) (fun _ _ => rfl) (fun _ _ => rfl) hj
      · change Log.Grows _ d.log d₁.log
        rw [hd₁]
    have hkind : ((d₁.modifyObj proxy initProxy).obj i).kind = .grouper :=
      (hold (p := Obj.kind) (fun _ _ => rfl) (fun _ _ => rfl) hi).trans hk
    refine hproxy.trans ?_
    exact .modifyObj (fun _ => rfl) (Obj.controlValue_priv (by rw [hkind]; rfl) _)

/-- The execution of a command is followed, from whatever connection. -/
theorem execCommand_follows (conn : ℕ) (cmd : Command) (c : Call K) :
    Follows c.dev (execCommand conn cmd c).2.dev := by
  have hrecord (e : Device K) (st : Status) : Follows e (e.emit (.command conn cmd st)) :=
    .of_core (Device.core_emit e _) (.concat (fun _ _ h => by cases h) e.log)
  refine execCommand_keeps (fun e st he => he.trans (hrecord e st)) (.refl _) ?_
  intro i hf
  have hout := objectDispatch_outcome i cmd.level cmd.index c rfl
  exact hout.follows (Device.find_lt hf)

/-! ### Set requests -/

theorem Uncalled.modifyObj (d : Device K) (i : ObjRef) (f : Obj → Obj) (level index : UInt16) :
    Uncalled d ((d.modifyObj i f).notify i level index) := uncalled_notify (d.modifyObj i f) i _ _

/-- **The application is not called back** about a change it asked for. -/
theorem uncalled_applySet (d : Device K) (req : SetReq) : Uncalled d (d.applySet req) := by
  cases hf : d.find req.ono with
  | none =>
    have hsame : d.applySet req = d := by simp only [Device.applySet, hf]
    rw [hsame]
    exact .refl _
  | some i =>
    cases hdsp : dspIsDspKind (d.obj i).kind with
    | true =>
      rw [applySet_dsp hf hdsp]
      cases req.write (d.obj i) with
      | none => exact .refl _
      | some w => exact .modifyObj d i _ _ _
    | false =>
      obtain hsame | ⟨level, index, -, hstr | hnum⟩ := applySet_scalar hf hdsp
      · rw [hsame]
        exact .refl _
      · rw [hstr]
        exact .modifyObj d i _ level index
      · rw [hnum]
        exact .modifyObj d i _ level index

/-! ### The application -/

/-- Every object whose value changed between `d` and `d'` was called about, by its own handle and
tag, and the last call about it found the value it has in `d'`. -/
def CallsFollow (d d' : Device K) : Prop :=
  ∃ es, d'.log = d.log ++ es ∧ ∀ i < d.objects.length,
    (d'.obj i).controlValue ≠ (d.obj i).controlValue →
      ∃ o, lastCall es i = some o ∧ o.controlValue = (d'.obj i).controlValue ∧
        o.tag = (d.obj i).tag

theorem Follows.callsFollow (h : Follows d d') (hon : d.cfg.onControlChanged = true) :
    CallsFollow d d' := by
  obtain ⟨es, hes, htold⟩ := h.told
  refine ⟨es, hes, fun i hi hne => ?_⟩
  have hi' := htold hon i hi
  cases hcall : lastCall es i with
  | none =>
    rw [hcall] at hi'
    exact absurd hi' hne
  | some o =>
    rw [hcall] at hi'
    exact ⟨o, rfl, hi'.1, hi'.2⟩

/-- **The application misses no change** that a controller makes, whatever the state, the command
and the connection; and it hears no change of its own. -/
theorem control_changes_called (d : Device K) :
    (d.cfg.onControlChanged = true → ∀ conn cmd params,
      CallsFollow d ((Operation.command conn cmd params).run d)) ∧
    ∀ req, Uncalled d ((Operation.set req).run d) := by
  refine ⟨fun hon conn cmd params => ?_, fun req => uncalled_applySet d req⟩
  have hstart : Follows d { d with activeConn := some conn } :=
    .of_same rfl le_rfl (fun _ _ => ⟨rfl, rfl⟩) (.refl _)
  have hexec := execCommand_follows conn cmd
    ⟨{ d with activeConn := some conn }, params, Writer.init K.txBufferSize, 0⟩
  exact (hstart.trans hexec).callsFollow hon

namespace Sample

/-- A controller mutes the proxy of a group: the citizen is muted with it, and the application is
told. -/
theorem callsFollow_setProxy :
    ((sent 4098 4 2 1 [1]).run grouped).obj 4 ≠ grouped.obj 4 ∧
      CallsFollow grouped ((sent 4098 4 2 1 [1]).run grouped) :=
  ⟨by decide, (control_changes_called grouped).1 rfl _ _ _⟩

end Sample

end Aes70
