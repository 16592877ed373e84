import Aes70.Device.Core
import Aes70.Router.Dispatch

/-!
# The write classification

Access control rests on `methodIsWrite`, a list of indices kept apart from the handlers. This file
compares the list with the handlers, method by method.

* `MethodClassified K kind level index` : a method that is not listed never changes the device, a
  listed one that is implemented can change it, and what an unprivileged session is let through to
  on a secured object changes nothing.
* `methodClassified_iff` : the list is right for every method of every class but the two action
  methods of the signal generator, Start and Stop, which are missing from it.
-/

namespace Aes70

open Handler

variable {K : Kconfig}

/-! ### Calls that keep, calls that change -/

namespace Handler

variable {α : Type} {d : Device K} {Q : Status → Device K → Prop}

/-- No call of the handler changes the device, its log with notifications and callbacks included. -/
def Keeps (h : Handler K) (d : Device K) : Prop := Does h d fun _ d' => d' = d

/-- Some call of the handler changes the device. -/
def MayChange (h : Handler K) (d : Device K) : Prop := ∃ c : Call K, c.dev = d ∧ (h c).2.dev ≠ d

/-- Some reader makes the accessor return `a` without an error. -/
def Yields (r : Read α) (a : α) : Prop := ∃ rd, (r rd).1 = a ∧ (r rd).2.err = false

theorem mayChange_of_does {h : Handler K} (hd : Does h d fun _ d' => d' ≠ d) : h.MayChange d :=
  ⟨⟨d, Reader.init (fun _ => 0) 0, Writer.init 0, 0⟩, rfl, hd _ rfl⟩

theorem mayChange_look {f : Device K → Handler K} (h : (f d).MayChange d) :
    (look f).MayChange d := by
  obtain ⟨c, rfl, hc⟩ := h
  exact ⟨c, rfl, hc⟩

theorem mayChange_store {f : Device K → Device K} (h : f d ≠ d) : (store f).MayChange d :=
  mayChange_of_does (does_store h)

theorem mayChange_reading {r : Read α} {k : α → Handler K} {a : α} (hr : Yields r a)
    (hk : Does (k a) d fun _ d' => d' ≠ d) : (reading r k).MayChange d := by
  obtain ⟨rd, rfl, herr⟩ := hr
  refine ⟨⟨d, rd, Writer.init 0, 0⟩, rfl, ?_⟩
  simp only [reading, herr]
  exact hk _ rfl

theorem does_ranged_within {e m : ℕ} {v lo hi : Ieee.Binary e m} {k : Handler K}
    (hv : v.within lo hi = true) (hk : Does k d Q) : Does (ranged v lo hi k) d Q := by
  unfold ranged
  rw [Ieee.Binary.within, Bool.not_eq_true'] at hv
  rw [if_neg (by simp [hv])]
  exact hk

theorem does_else {p : Prop} [Decidable p] {h k : Handler K} (hp : ¬p) (hk : Does k d Q) :
    Does (if p then h else k) d Q := does_ite (fun h => absurd h hp) fun _ => hk

end Handler

/-! ### Parameters that can be read -/

section Yields

variable {α β : Type} {r : Read α} {a : α}

theorem yields_of_bytes (bs : Bytes)
    (h : (r (Reader.ofBytes bs)).1 = a ∧ (r (Reader.ofBytes bs)).2.err = false) : Yields r a :=
  ⟨_, h⟩

theorem yields_map (f : α → β) (h : Yields r a) : Yields (f <$> r) (f a) := by
  obtain ⟨rd, rfl, he⟩ := h
  exact ⟨rd, rfl, he⟩

theorem yields_fixed (zero : α) (f : Bytes → α) (bs : Bytes) :
    Yields (Read.fixed bs.length zero f) (f bs) := by
  refine yields_of_bytes bs ?_
  rw [Read.fixed_of_le rfl (by simp [Reader.ofBytes, Reader.init, Reader.remaining])]
  refine ⟨congrArg f ?_, rfl⟩
  simpa [Reader.peek, Reader.ofBytes, Reader.init] using Ptr.read_ofBytes bs _

theorem yields_u8 (v : UInt8) : Yields Read.u8 v := by
  have h := yields_fixed (0 : UInt8) (fun bs => UInt8.ofNat (BigEndian.decode bs)) [v]
  simp only [BigEndian.decode, List.foldl_cons, List.foldl_nil, Nat.mul_zero, Nat.zero_add,
    UInt8.ofNat_toNat] at h
  exact h

theorem yields_u16 (v : UInt16) : Yields Read.u16 v := by
  have h := yields_fixed 0 rd16 (wr16 v)
  rw [length_wr16, rd16_wr16] at h
  exact h

theorem yields_u32 (v : UInt32) : Yields Read.u32 v := by
  have h := yields_fixed 0 rd32 (wr32 v)
  rw [length_wr32, rd32_wr32] at h
  exact h

theorem yields_f32 (v : F32) : Yields Read.f32 v :=
  yields_map (fun u : UInt32 => (⟨u.toBitVec⟩ : F32)) (yields_u32 ⟨v.bits⟩)

/-- The empty string. -/
theorem yields_string_nil {cap : ℕ} : Yields (Read.string cap) [] :=
  by
  refine yields_of_bytes [0, 0] ⟨?_, rfl⟩
  change cstr (List.take (cap - 1) []) = []
  rw [List.take_nil]
  rfl

end Yields

/-! ### Soundness -/

section Keeps

variable {d : Device K} {i : ObjRef} {idx : UInt16}

theorem rootDispatch_keeps (k : Kind) (hw : methodIsWrite k 1 idx = false) :
    (rootDispatch i idx).Keeps d := by
  refine does_look ?_
  split
  all_goals first
    | exact does_reply rfl
    | exact does_ret rfl
    | exact absurd hw (by simp [methodIsWrite])

theorem workerDispatch_keeps (k : Kind) (hw : methodIsWrite k 2 idx = false) :
    (workerDispatch i idx).Keeps d := by
  refine does_look ?_
  split
  all_goals first
    | exact does_reply rfl
    | exact does_ret rfl
    | exact absurd hw (by simp [methodIsWrite])

theorem agentDispatch_keeps (k : Kind) (hw : methodIsWrite k 2 idx = false) :
    (agentDispatch i idx).Keeps d := by
  refine does_look ?_
  split
  all_goals first
    | exact does_reply rfl
    | exact does_ret rfl
    | exact absurd hw (by simp [methodIsWrite])

theorem gainDispatch_keeps {k : Kind} (hk : k ∈ [Kind.gain, .frequency])
    (hw : methodIsWrite k 4 idx = false) : (gainDispatch i idx).Keeps d := by
  refine does_look ?_
  dsimp only
  split
  · exact does_reply rfl
  · exact absurd hw (by revert hk; cases k <;> decide)
  · exact does_ret rfl

theorem state2Dispatch_keeps {k : Kind} (hk : k ∈ [Kind.mute, .polarity])
    (hw : methodIsWrite k 4 idx = false) : (state2Dispatch i idx).Keeps d := by
  refine does_look ?_
  split
  · exact does_reply rfl
  · exact absurd hw (by revert hk; cases k <;> decide)
  · exact does_ret rfl

theorem switchDispatch_keeps (hw : methodIsWrite .switch 4 idx = false) :
    (switchDispatch i idx).Keeps d := by
  refine does_look ?_
  dsimp only
  split
  · exact does_reply rfl
  · exact absurd hw (by decide)
  · exact does_reading rfl fun k =>
      does_ite (fun _ => does_ret rfl) fun _ => does_reply rfl
  · exact does_reply rfl
  · exact does_ret rfl

theorem delayDispatch_keeps (hw : methodIsWrite .delay 4 idx = false) :
    (delayDispatch i idx).Keeps d := by
  refine does_look ?_
  dsimp only
  split
  · exact does_reply rfl
  · exact absurd hw (by decide)
  · exact does_ret rfl

theorem sensorDispatch_keeps : (sensorDispatch i idx).Keeps d := by
  refine does_look ?_
  split
  · exact does_reply rfl
  · exact does_ret rfl

theorem levelSensorDispatch_keeps : (levelSensorDispatch i idx).Keeps d := by
  refine does_look ?_
  dsimp only
  split
  · exact does_reply rfl
  · exact does_ret rfl

theorem identifyDispatch_keeps (hw : methodIsWrite .identify 4 idx = false) :
    (identifyDispatch i idx).Keeps d := by
  refine does_look ?_
  split
  · exact does_reply rfl
  · exact absurd hw (by decide)
  · exact does_ret rfl

theorem basicActuatorDispatch_keeps {k : Kind}
    (hk : k ∈ [Kind.boolean, .int32, .uint16, .uint32, .float32, .string])
    (hw : methodIsWrite k 5 idx = false) : (basicActuatorDispatch i idx).Keeps d := by
  refine does_look ?_
  split
  · unfold getSetting
    split
    all_goals first | exact does_reply rfl | exact does_ret rfl
  · exact absurd hw (by revert hk; cases k <;> decide)
  · exact does_ret rfl

theorem dynamicsDispatch_keeps (hw : methodIsWrite .dynamics 4 idx = false) :
    (dynamicsDispatch i idx).Keeps d := by
  refine does_look ?_
  dsimp only
  split
  · split
    all_goals first
      | exact absurd hw (by decide)
      | exact does_reply rfl
      | exact does_ret rfl
  · exact does_ret rfl

theorem filterDispatch_keeps (hw : methodIsWrite .filterClassical 4 idx = false) :
    (filterDispatch i idx).Keeps d := by
  refine does_look ?_
  dsimp only
  split
  · split
    all_goals first
      | exact absurd hw (by decide)
      | exact does_reply rfl
      | exact does_ret rfl
  · exact does_ret rfl

theorem peqDispatch_keeps (hw : methodIsWrite .filterParametric 4 idx = false) :
    (peqDispatch i idx).Keeps d := by
  refine does_look ?_
  dsimp only
  split
  · split
    all_goals first
      | exact absurd hw (by decide)
      | exact does_reply rfl
      | exact does_ret rfl
  · exact does_ret rfl

theorem panDispatch_keeps (hw : methodIsWrite .panBalance 4 idx = false) :
    (panDispatch i idx).Keeps d := by
  refine does_look ?_
  dsimp only
  split
  · split
    all_goals first
      | exact absurd hw (by decide)
      | exact does_reply rfl
      | exact does_ret rfl
  · exact does_ret rfl

/-- Start and Stop, the indices 16 and 17, are the methods the list forgets. -/
theorem siggenDispatch_keeps (hw : methodIsWrite .signalGen 4 idx = false)
    (ha : idx ≠ 16 ∧ idx ≠ 17) : (siggenDispatch i idx).Keeps d := by
  refine does_look ?_
  dsimp only
  split
  · split
    all_goals first
      | exact absurd hw (by decide)
      | exact absurd rfl ha.1
      | exact absurd rfl ha.2
      | exact does_reply rfl
      | exact does_ret rfl
  · exact does_ret rfl

theorem grouperDispatch_keeps (hw : methodIsWrite .grouper 3 idx = false) :
    (grouperDispatch i idx).Keeps d := by
  refine does_look ?_
  split
  · split
    case h_9 =>
      refine does_reading rfl fun ⟨gi, ci⟩ => ?_
      dsimp only
      split
      · exact does_reply rfl
      · exact does_ret rfl
    case h_11 =>
      refine does_reading rfl fun gi => ?_
      split
      · exact does_reply rfl
      · exact does_ret rfl
    all_goals first
      | exact absurd hw (by decide)
      | exact does_reply rfl
      | exact does_ret rfl
  · exact does_ret rfl

theorem matrixDispatch_keeps (hw : methodIsWrite .matrix 3 idx = false) :
    (matrixDispatch i idx).Keeps d := by
  refine does_look ?_
  split
  · split
    case h_7 =>
      exact does_reading rfl fun ⟨x, y⟩ =>
        does_ite (fun _ => does_reply rfl) fun _ => does_ret rfl
    all_goals first
      | exact absurd hw (by decide)
      | exact does_reply rfl
      | exact does_ret rfl
  · exact does_ret rfl

theorem blockDispatch_keeps (hw : methodIsWrite .block 3 idx = false) :
    (blockDispatch i idx).Keeps d := by
  refine does_look ?_
  split
  all_goals first
    | exact absurd hw (by decide)
    | exact does_reply rfl
    | exact does_ret rfl

end Keeps

/-! ### Completeness -/

/-- Some call of the method changes some device with an object of the kind. -/
def CanWrite (kind : Kind) (h : ObjRef → UInt16 → Handler K) (index : UInt16) : Prop :=
  ∃ (d : Device K) (i : ObjRef), (d.obj i).kind = kind ∧ (h i index).MayChange d

/-- A device with these objects and nothing else. -/
def Device.idle (K : Kconfig) (objects : List Obj) : Device K where
  cfg := ⟨none, none, none, none, none, none, false, false, false⟩
  net := ⟨fun _ _ => [], fun _ => 0⟩
  deviceName := []
  manufacturer := []
  model := []
  version := []
  serial := []
  deviceRole := []
  modelGuid := []
  running := true
  cmdQ := []
  objects := objects
  nextOno := 4096
  rootBlock := none
  deviceManager := none
  subscriptionManager := none
  conns := fun _ => .empty
  subs := fun _ => .empty
  notificationsDisabled := false
  activeConn := none
  log := []

section CanWrite

variable {o : Obj} {os : List Obj} {kind : Kind} {idx : UInt16}

theorem canWrite_of {h : ObjRef → UInt16 → Handler K} (o : Obj) (os : List Obj)
    (hk : o.kind = kind) (hc : (h 0 idx).MayChange (.idle K (o :: os))) : CanWrite kind h idx :=
  ⟨.idle K (o :: os), 0, hk, hc⟩

theorem idle_pos : 0 < (Device.idle K (o :: os)).objects.length := Nat.succ_pos _

theorem setByte_mayChange {d : Device K} {write : Device K → F64 → Device K} (v : UInt8)
    (h : write d (.ofNat v.toNat) ≠ d) : (setByte write).MayChange d :=
  mayChange_reading (yields_u8 v) (does_store h)

theorem setFloat_mayChange {d : Device K} {write : Device K → F64 → Device K} {v : F32}
    (hv : Yields Read.f32 v) (h : write d (toF64 v) ≠ d) : (setFloat write).MayChange d :=
  mayChange_reading hv (does_store h)

theorem setFloatIn_mayChange {d : Device K} {write : Device K → F64 → Device K} {v lo hi : F32}
    (hv : Yields Read.f32 v) (hr : v.within lo hi = true) (h : write d (toF64 v) ≠ d) :
    (setFloatIn lo hi write).MayChange d :=
  mayChange_reading hv (does_ranged_within hr (does_store h))

theorem rootDispatch_canWrite (hw : methodIsWrite kind 1 idx = true) :
    CanWrite kind (rootDispatch (K := K)) idx := by
  have hidx : idx = 3 ∨ idx = 4 ∨ idx = 6 := by simpa [methodIsWrite] using hw
  rcases hidx with rfl | rfl | rfl
  · exact canWrite_of (.fresh kind 5 []) [] rfl (mayChange_look
      (mayChange_store (Device.modifyObj_ne Obj.lockState idle_pos (by nofun))))
  · exact canWrite_of { Obj.fresh kind 5 [] with lockState := .noWrite } [] rfl (mayChange_look
      (mayChange_store (Device.modifyObj_ne Obj.lockState idle_pos (by nofun))))
  · exact canWrite_of (.fresh kind 5 []) [] rfl (mayChange_look
      (mayChange_store (Device.modifyObj_ne Obj.lockState idle_pos (by nofun))))

theorem workerDispatch_canWrite (hw : methodIsWrite kind 2 idx = true) :
    CanWrite kind (workerDispatch (K := K)) idx := by
  have hidx : idx = 2 ∨ idx = 9 := by simpa [methodIsWrite] using hw
  rcases hidx with rfl | rfl
  · exact canWrite_of (.fresh kind 5 []) [] rfl (mayChange_look (mayChange_reading (yields_u8 0)
      (does_store (Device.notify_modifyObj_ne Obj.enabled idle_pos (by nofun) 2 1))))
  · exact canWrite_of (.fresh kind 5 []) [] rfl (mayChange_look (mayChange_reading yields_string_nil
      (does_store (Device.notify_modifyObj_ne Obj.label idle_pos (by nofun) 2 3))))

/-- SetLabel is index 2 of OcaAgent; index 9, which the list has for OcaWorker, does not exist. -/
theorem agentDispatch_canWrite : CanWrite kind (agentDispatch (K := K)) 2 :=
  canWrite_of (.fresh kind 5 []) [] rfl (mayChange_look (mayChange_reading yields_string_nil
    (does_store (Device.modifyObj_ne Obj.label idle_pos (by nofun)))))

/-! The scalar classes: a value inside the range that is not the one of a fresh object. -/

/-- A fresh object with the range 0 … 1. -/
def Obj.unit (kind : Kind) : Obj := { Obj.fresh kind 5 [] with numMax := .ofNat 1 }

theorem gainDispatch_canWrite : CanWrite kind (gainDispatch (K := K)) 2 :=
  canWrite_of (.unit kind) [] rfl (mayChange_look (mayChange_reading (yields_f32 (f32 1))
    (does_ranged_within (show (toF64 (f32 1)).within .zero (.ofNat 1) = true by decide)
      (does_store (Device.commitNum_ne idle_pos (show toF64 (f32 1) ≠ .zero by decide) 4 1)))))

theorem state2Dispatch_canWrite : CanWrite kind (state2Dispatch (K := K)) 2 :=
  canWrite_of (.fresh kind 5 []) [] rfl (mayChange_look (mayChange_reading (yields_u8 2)
    (does_else (by decide) (does_store
      (Device.commitNum_ne idle_pos (show (.ofNat 2 : F64) ≠ .zero by decide) 4 1)))))

theorem switchDispatch_canWrite : CanWrite kind (switchDispatch (K := K)) 2 :=
  canWrite_of { Obj.fresh kind 5 [] with swCount := 2 } [] rfl
    (mayChange_look (mayChange_reading (yields_u16 1)
      (does_else (show ¬((2 : UInt16) = 0 ∨ (2 : UInt16) - 1 < 1) by decide) (does_store
        (Device.commitNum_ne idle_pos (show (.ofNat 1 : F64) ≠ .zero by decide) 4 1)))))

theorem delayDispatch_canWrite : CanWrite kind (delayDispatch (K := K)) 2 :=
  canWrite_of (.unit kind) [] rfl (mayChange_look (mayChange_reading
    (yields_of_bytes [0x3F, 0xF0, 0, 0, 0, 0, 0, 0] (a := .ofNat 1) (by decide))
    (does_ranged_within (show (.ofNat 1 : F64).within .zero (.ofNat 1) = true by decide)
      (does_store (Device.commitNum_ne idle_pos (show (.ofNat 1 : F64) ≠ .zero by decide) 4 1)))))

theorem identifyDispatch_canWrite : CanWrite kind (identifyDispatch (K := K)) 2 :=
  canWrite_of (.fresh kind 5 []) [] rfl (mayChange_look (mayChange_reading (yields_u8 1)
    (does_store (Device.commitNum_ne idle_pos (show (.ofNat 1 : F64) ≠ .zero by decide) 4 1))))

theorem setNumber_mayChange (kind : Kind) {d : Device K} {i : ObjRef} {r : Read F64}
    (hi : i < d.objects.length) (hd : d.obj i = .unit kind) (hr : Yields r (.ofNat 1)) :
    (setNumber i (d.obj i) r).MayChange d := by
  rw [hd]
  refine mayChange_reading hr (does_ranged_within
    (show (.ofNat 1 : F64).within .zero (.ofNat 1) = true by decide) (does_store ?_))
  refine Device.commitNum_ne hi ?_ 5 1
  rw [hd]
  exact show (.ofNat 1 : F64) ≠ .zero by decide

theorem basicActuatorDispatch_canWrite
    (hk : kind ∈ [Kind.boolean, .int32, .uint16, .uint32, .float32, .string]) :
    CanWrite kind (basicActuatorDispatch (K := K)) 2 := by
  refine canWrite_of (.unit kind) [] rfl (mayChange_look ?_)
  simp only [List.mem_cons, List.not_mem_nil, or_false] at hk
  rcases hk with rfl | rfl | rfl | rfl | rfl | rfl
  · exact mayChange_reading (yields_u8 1) (does_store
      (Device.commitNum_ne idle_pos (show (.ofNat 1 : F64) ≠ .zero by decide) 5 1))
  · exact setNumber_mayChange .int32 idle_pos rfl (yields_map _ (yields_u32 1))
  · exact setNumber_mayChange .uint16 idle_pos rfl (yields_map _ (yields_u16 1))
  · exact setNumber_mayChange .uint32 idle_pos rfl (yields_map _ (yields_u32 1))
  · exact setNumber_mayChange .float32 idle_pos rfl (yields_map _ (yields_f32 (f32 1)))
  · exact mayChange_reading yields_string_nil (does_else (fun h => h.1 rfl)
      (does_store (Device.commitStr_ne idle_pos (by nofun) 5 1)))

/-! The DSP classes: a value the initial state does not have. -/

section Dsp

variable {d : Device K} {i : ObjRef} {sel : Sel} {v v2 : F64}

theorem dspWrite_ne (hi : i < d.objects.length) {p : Priv} (h : p ≠ (d.obj i).priv) (sel : Sel)
    (b : Bool) : d.dspWrite i p sel b ≠ d := by
  refine fun he => h ?_
  have hobj : (d.dspWrite i p sel b).obj i = { d.obj i with priv := p } := by
    unfold Device.dspWrite Device.notifyAfterWrite
    split_ifs <;> simp [Device.obj_modifyObj_self hi]
  rw [he] at hobj
  rw [hobj]

theorem dynWrite_ne {s : DynState} (hi : i < d.objects.length)
    (hp : (d.obj i).priv = .dynamics s) (h : s.write sel v v2 ≠ s) :
    d.dynWrite i sel v v2 true ≠ d := by
  unfold Device.dynWrite
  rw [hp]
  exact dspWrite_ne hi (by simpa [hp] using h) sel true

theorem fltWrite_ne {s : FltState} (hi : i < d.objects.length)
    (hp : (d.obj i).priv = .filter s) (h : s.write sel v ≠ s) : d.fltWrite i sel v true ≠ d := by
  unfold Device.fltWrite
  rw [hp]
  exact dspWrite_ne hi (by simpa [hp] using h) sel true

theorem peqWrite_ne {s : PeqState} (hi : i < d.objects.length)
    (hp : (d.obj i).priv = .peq s) (h : s.write sel v ≠ s) : d.peqWrite i sel v true ≠ d := by
  unfold Device.peqWrite
  rw [hp]
  exact dspWrite_ne hi (by simpa [hp] using h) sel true

theorem panWrite_ne {s : PanState} (hi : i < d.objects.length)
    (hp : (d.obj i).priv = .pan s) (h : s.write sel v ≠ s) : d.panWrite i sel v true ≠ d := by
  unfold Device.panWrite
  rw [hp]
  exact dspWrite_ne hi (by simpa [hp] using h) sel true

theorem sigWrite_ne {s : SigState} (hi : i < d.objects.length)
    (hp : (d.obj i).priv = .siggen s) (h : s.write sel v ≠ s) : d.sigWrite i sel v true ≠ d := by
  unfold Device.sigWrite
  rw [hp]
  exact dspWrite_ne hi (by simpa [hp] using h) sel true

end Dsp

/-- A fresh object with the private state `aes70_dsp_init` gives it. -/
def Obj.dsp (kind : Kind) : Obj := { Obj.fresh kind 5 [] with priv := dspInit kind }

theorem dynamicsDispatch_canWrite (hw : methodIsWrite .dynamics 4 idx = true) :
    CanWrite .dynamics (dynamicsDispatch (K := K)) idx := by
  have hidx : idx ∈ [4, 6, 8, 10, 12, 14, 16, 18, 20, 22, 24, 26] := by
    simp only [methodIsWrite, List.mem_cons] at hw ⊢
    grind
  simp only [List.mem_cons, List.not_mem_nil, or_false] at hidx
  refine canWrite_of (.dsp .dynamics) [] rfl (mayChange_look ?_)
  rcases hidx with rfl | rfl | rfl | rfl | rfl | rfl | rfl | rfl | rfl | rfl | rfl | rfl
  · exact setByte_mayChange 7 (dynWrite_ne idle_pos rfl (by decide))
  · exact setFloatIn_mayChange (yields_f32 (f32 1)) (by decide)
      (dynWrite_ne idle_pos rfl (by decide))
  · exact mayChange_reading (yields_of_bytes [0xBF, 0x80, 0, 0, 0, 0, 0, 0]
      (a := (f32 (-1), f32 0)) (by decide)) (does_ranged_within (by decide)
        (does_store (dynWrite_ne idle_pos rfl (by decide))))
  · exact setByte_mayChange 7 (dynWrite_ne idle_pos rfl (by decide))
  · exact setByte_mayChange 7 (dynWrite_ne idle_pos rfl (by decide))
  · exact setFloatIn_mayChange (yields_f32 (f32 1)) (by decide)
      (dynWrite_ne idle_pos rfl (by decide))
  · exact setFloatIn_mayChange (yields_f32 (f32 1)) (by decide)
      (dynWrite_ne idle_pos rfl (by decide))
  · exact setFloat_mayChange (yields_f32 (f32 1)) (dynWrite_ne idle_pos rfl (by decide))
  · exact setFloat_mayChange (yields_f32 (f32 1)) (dynWrite_ne idle_pos rfl (by decide))
  · exact setFloat_mayChange (yields_f32 (f32 1)) (dynWrite_ne idle_pos rfl (by decide))
  · exact setFloatIn_mayChange (yields_f32 (f32 1)) (by decide)
      (dynWrite_ne idle_pos rfl (by decide))
  · exact setFloat_mayChange (yields_f32 (f32 1)) (dynWrite_ne idle_pos rfl (by decide))

theorem filterDispatch_canWrite (hw : methodIsWrite .filterClassical 4 idx = true) :
    CanWrite .filterClassical (filterDispatch (K := K)) idx := by
  have hidx : idx = 2 ∨ idx = 4 ∨ idx = 6 ∨ idx = 8 ∨ idx = 10 := by simpa [methodIsWrite] using hw
  refine canWrite_of (.dsp .filterClassical) [] rfl (mayChange_look ?_)
  rcases hidx with rfl | rfl | rfl | rfl | rfl
  · exact setFloatIn_mayChange (yields_f32 (f32 100)) (by decide)
      (fltWrite_ne idle_pos rfl (by decide))
  · exact setByte_mayChange 7 (fltWrite_ne idle_pos rfl (by decide))
  · exact setByte_mayChange 7 (fltWrite_ne idle_pos rfl (by decide))
  · exact mayChange_reading (yields_u16 3) (does_else (by decide)
      (does_store (fltWrite_ne idle_pos rfl (by decide))))
  · exact setFloat_mayChange (yields_f32 (f32 100)) (fltWrite_ne idle_pos rfl (by decide))

theorem peqDispatch_canWrite (hw : methodIsWrite .filterParametric 4 idx = true) :
    CanWrite .filterParametric (peqDispatch (K := K)) idx := by
  have hidx : idx = 2 ∨ idx = 4 ∨ idx = 6 ∨ idx = 8 ∨ idx = 10 := by simpa [methodIsWrite] using hw
  refine canWrite_of (.dsp .filterParametric) [] rfl (mayChange_look ?_)
  rcases hidx with rfl | rfl | rfl | rfl | rfl
  · exact setFloatIn_mayChange (yields_f32 (f32 100)) (by decide)
      (peqWrite_ne idle_pos rfl (by decide))
  · exact setByte_mayChange 7 (peqWrite_ne idle_pos rfl (by decide))
  · exact setFloat_mayChange (yields_f32 (f32 100)) (peqWrite_ne idle_pos rfl (by decide))
  · exact setFloatIn_mayChange (yields_f32 (f32 1)) (by decide)
      (peqWrite_ne idle_pos rfl (by decide))
  · exact setFloat_mayChange (yields_f32 (f32 1)) (peqWrite_ne idle_pos rfl (by decide))

theorem panDispatch_canWrite (hw : methodIsWrite .panBalance 4 idx = true) :
    CanWrite .panBalance (panDispatch (K := K)) idx := by
  have hidx : idx = 2 ∨ idx = 4 := by simpa [methodIsWrite] using hw
  refine canWrite_of (.dsp .panBalance) [] rfl (mayChange_look ?_)
  rcases hidx with rfl | rfl
  · exact setFloatIn_mayChange (yields_f32 (f32 1)) (by decide)
      (panWrite_ne idle_pos rfl (by decide))
  · exact setFloat_mayChange (yields_f32 (f32 1)) (panWrite_ne idle_pos rfl (by decide))

theorem siggenDispatch_canWrite (hw : methodIsWrite .signalGen 4 idx = true) :
    CanWrite .signalGen (siggenDispatch (K := K)) idx := by
  have hidx : idx = 2 ∨ idx = 4 ∨ idx = 6 ∨ idx = 8 ∨ idx = 10 ∨ idx = 12 ∨ idx = 14 := by
    simpa [methodIsWrite] using hw
  refine canWrite_of (.dsp .signalGen) [] rfl (mayChange_look ?_)
  rcases hidx with rfl | rfl | rfl | rfl | rfl | rfl | rfl
  · exact setFloatIn_mayChange (yields_f32 (f32 100)) (by decide)
      (sigWrite_ne idle_pos rfl (by decide))
  · exact setFloatIn_mayChange (yields_f32 (f32 100)) (by decide)
      (sigWrite_ne idle_pos rfl (by decide))
  · exact setFloatIn_mayChange (yields_f32 (f32 (-1))) (by decide)
      (sigWrite_ne idle_pos rfl (by decide))
  · exact setByte_mayChange 7 (sigWrite_ne idle_pos rfl (by decide))
  · exact setByte_mayChange 7 (sigWrite_ne idle_pos rfl (by decide))
  · exact setFloat_mayChange (yields_f32 (f32 100)) (sigWrite_ne idle_pos rfl (by decide))
  · exact setByte_mayChange 7 (sigWrite_ne idle_pos rfl (by decide))

/-- Start makes an idle generator generate. -/
theorem start_mayChange : (siggenDispatch 0 16).MayChange (.idle K [.dsp .signalGen]) :=
  mayChange_look (mayChange_store (sigWrite_ne idle_pos rfl (by decide)))

/-- Stop stops a running one. -/
theorem stop_mayChange : (siggenDispatch 0 17).MayChange (.idle K
    [{ Obj.dsp .signalGen with priv := .siggen { SigState.init with generating := true } }]) :=
  mayChange_look (mayChange_store (sigWrite_ne idle_pos rfl (by decide)))

/-! Grouper, matrix and block. -/

theorem storeGrouper_ne {d : Device K} {i : ObjRef} {g g' : GrouperPriv}
    (hi : i < d.objects.length) (hp : (d.obj i).priv = .grouper g) (h : g' ≠ g) :
    storeGrouper i g' d ≠ d :=
  Device.modifyObj_priv_ne hi hp (by simpa using h)

theorem storeMatrix_ne {d : Device K} {i : ObjRef} {m m' : MatrixPriv}
    (hi : i < d.objects.length) (hp : (d.obj i).priv = .matrix m) (h : m' ≠ m) :
    storeMatrix i m' d ≠ d :=
  Device.modifyObj_priv_ne hi hp (by simpa using h)

/-- `SetMembers` with no cells empties the grid. -/
theorem setMembers_mayChange {d : Device K} {i : ObjRef} {m : MatrixPriv}
    (hi : i < d.objects.length) (hp : (d.obj i).priv = .matrix m) (hm : m.ySize ≠ 0) :
    (setMembers i m).MayChange d := by
  have hnone : Yields readXY (0, 0) := yields_of_bytes [0, 0, 0, 0] (by decide)
  refine mayChange_reading hnone (does_else (by simp) ?_)
  rintro c rfl
  exact storeMatrix_ne hi hp fun h => hm (congrArg MatrixPriv.ySize h).symm

/-- A matrix of 2 × 2 cells. -/
def Obj.matrix2 (xyLocked : Bool) : Obj :=
  { Obj.fresh .matrix 5 [] with priv := .matrix { MatrixPriv.init 2 2 with xyLocked } }

theorem matrixDispatch_canWrite (hw : methodIsWrite .matrix 3 idx = true) :
    CanWrite .matrix (matrixDispatch (K := K)) idx := by
  have hidx : idx = 2 ∨ idx = 4 ∨ idx = 6 ∨ idx = 8 ∨ idx = 10 ∨ idx = 12 ∨ idx = 14 ∨ idx = 15 ∨
      idx = 16 := by
    simpa [methodIsWrite] using hw
  have hxy : Yields readXY (1, 1) := yields_of_bytes [0, 1, 0, 1] (by decide)
  refine canWrite_of (.matrix2 (idx == 16)) [] rfl (mayChange_look ?_)
  rcases hidx with rfl | rfl | rfl | rfl | rfl | rfl | rfl | rfl | rfl
  · exact mayChange_reading hxy (does_else (by decide) (does_else (by decide)
      (does_store (storeMatrix_ne idle_pos rfl (by decide)))))
  · exact mayChange_reading hxy (does_else (by decide)
      (does_store (storeMatrix_ne idle_pos rfl (by decide))))
  · exact setMembers_mayChange idle_pos rfl (by decide)
  · exact mayChange_reading (yields_of_bytes [0, 1, 0, 1, 0, 0, 0, 7] (a := ((1, 1), 7)) (by decide))
      (does_ite (fun _ => does_store (storeMatrix_ne idle_pos rfl (by decide))) (absurd rfl))
  · exact mayChange_reading (yields_u32 7) (does_store (storeMatrix_ne idle_pos rfl (by decide)))
  · exact mayChange_reading (yields_u8 7) (does_store (storeMatrix_ne idle_pos rfl (by decide)))
  · exact mayChange_reading (yields_u8 7) (does_store (storeMatrix_ne idle_pos rfl (by decide)))
  · exact mayChange_reading hxy (does_else (by decide)
      (does_store (storeMatrix_ne idle_pos rfl (by decide))))
  · exact mayChange_store (storeMatrix_ne idle_pos rfl (by decide))

/-- AddGroup always takes a number for the proxy. -/
theorem addGroup_mayChange {d : Device K} {i : ObjRef} {g : GrouperPriv} (slot : Fin 16)
    (hs : g.freeGroup = some slot) : (addGroup i g).MayChange d := by
  have hne : ∀ d' : Device K, d'.nextOno = d.nextOno + 1 → d' ≠ d := by
    rintro d' h rfl
    simp at h
  refine mayChange_reading yields_string_nil ?_
  rw [hs]
  refine does_look ?_
  split
  · next h =>
    rintro c rfl
    exact hne _ (Device.nextOno_objectAlloc h)
  · next h =>
    have hnext := Device.nextOno_objectAlloc h
    exact does_storeReply (hne _ hnext)

/-- A grouper with one group and one citizen. -/
def Obj.grouper1 : Obj :=
  { Obj.fresh .grouper 5 [] with
    priv := .grouper { GrouperPriv.init .gain (by decide) with
      groups := Function.update (fun _ => ⟨false, [], 0⟩) 0 ⟨true, [], 0⟩
      citizens := Function.update (fun _ => ⟨false, 0, false⟩) 0 ⟨true, 0, true⟩ } }

theorem grouperDispatch_canWrite (hw : methodIsWrite .grouper 3 idx = true) :
    CanWrite .grouper (grouperDispatch (K := K)) idx := by
  have hidx : idx = 1 ∨ idx = 2 ∨ idx = 5 ∨ idx = 6 ∨ idx = 10 ∨ idx = 13 ∨ idx = 15 := by
    simpa [methodIsWrite] using hw
  refine canWrite_of .grouper1 [.fresh .gain 6 []] rfl (mayChange_look ?_)
  rcases hidx with rfl | rfl | rfl | rfl | rfl | rfl | rfl
  · exact addGroup_mayChange 1 rfl
  · exact mayChange_reading (yields_u16 1)
      (does_store (storeGrouper_ne idle_pos rfl (by decide)))
  · exact mayChange_reading (yields_of_bytes [0, 0, 0, 0, 0, 0, 0, 6, 1] (a := (0, 6)) (by decide))
      (does_look (does_else (by simp) (does_else (by nofun)
        (does_storeReply (storeGrouper_ne idle_pos rfl (by decide))))))
  · exact mayChange_reading (yields_u16 1)
      (does_store (storeGrouper_ne idle_pos rfl (by decide)))
  · exact mayChange_reading (yields_of_bytes [0, 1, 0, 1, 1] (a := ((1, 1), 1)) (by decide))
      (does_else (by decide) (does_store (storeGrouper_ne idle_pos rfl (by decide))))
  · exact mayChange_reading (yields_u8 0) (does_store (storeGrouper_ne idle_pos rfl (by decide)))
  · exact mayChange_reading (yields_u8 1) (does_else (by decide)
      (does_store (storeGrouper_ne idle_pos rfl (by decide))))

theorem applyParameterData_mayChange {d : Device K} {rd : Reader} {es : List (UInt32 × F64)}
    {truncated : Bool} (hrd : recallParams rd = some (es, truncated)) (hne : d.recall es ≠ d) :
    applyParameterData.MayChange d := by
  refine ⟨⟨d, rd, Writer.init 0, 0⟩, rfl, ?_⟩
  have heq := applyParameterData_dev (⟨d, rd, Writer.init 0, 0⟩ : Call K)
  rw [hrd] at heq
  exact (congrArg Prod.snd heq).trans_ne hne

/-- A recall of the value 1 into the gain with number 6. -/
theorem blockDispatch_canWrite (hw : methodIsWrite .block 3 idx = true) :
    CanWrite .block (blockDispatch (K := K)) idx := by
  have hidx : idx = 26 := by simpa [methodIsWrite] using hw
  subst hidx
  let rd := Reader.ofBytes [0, 0, 0, 14, 0, 1, 0, 0, 0, 6, 0x3F, 0xF0, 0, 0, 0, 0, 0, 0]
  have hrd : recallParams rd = some ([(6, .ofNat 1)], false) := by decide
  refine canWrite_of (.fresh .block 5 []) [.fresh .gain 6 []] rfl
    (mayChange_look (applyParameterData_mayChange hrd ?_))
  exact Device.commitNum_ne (Nat.lt_succ_self 1)
    (show clampToRange (.fresh .gain 6 []) (.ofNat 1) ≠ .zero by decide) 4 1

end CanWrite

/-! ### The comparison -/

/-- Some call of the method is answered with something else than BadMethod and NotImplemented. -/
def Implements (kind : Kind) (h : ObjRef → UInt16 → Handler K) (index : UInt16) : Prop :=
  ∃ (c : Call K) (i : ObjRef), (c.dev.obj i).kind = kind ∧ (h i index c).1 ≠ .badMethod ∧
    (h i index c).1 ≠ .notImplemented

/-- The list `methodIsWrite` is right about a method. -/
structure MethodClassified (K : Kconfig) (kind : Kind) (level index : UInt16) : Prop where
  /-- A method that is not listed leaves the device as it is. -/
  reads : methodIsWrite kind level index = false →
    ∀ h, handlerFor kind level = some h → ∀ (d : Device K) (i : ObjRef), (d.obj i).kind = kind →
      (h i index).Keeps d
  /-- A listed method that is implemented can change the device. -/
  writes : methodIsWrite kind level index = true →
    ∀ h, handlerFor (K := K) kind level = some h → Implements kind h index → CanWrite kind h index
  /-- On a secured object an unprivileged session changes nothing through the method. -/
  unprivileged : ∀ (d : Device K) (i : ObjRef), (d.obj i).kind = kind → (d.obj i).secured = true →
    d.activePrivileged = false → (objectDispatch i level index).Keeps d

section

variable {kind : Kind} {level index : UInt16}

theorem keeps_of_not_write {h : ObjRef → UInt16 → Handler K} (hh : handlerFor kind level = some h)
    (hm : kind ∉ [Kind.deviceManager, .subscriptionManager])
    (hs : ¬(kind = .signalGen ∧ level = 4 ∧ (index = 16 ∨ index = 17)))
    (hw : methodIsWrite kind level index = false) (d : Device K) (i : ObjRef) :
    (h i index).Keeps d := by
  cases handlerOf_of_handlerFor hh with
  | root => exact rootDispatch_keeps kind hw
  | worker => exact workerDispatch_keeps kind hw
  | agent => exact agentDispatch_keeps .grouper hw
  | block => exact blockDispatch_keeps hw
  | grouper => exact grouperDispatch_keeps hw
  | matrix => exact matrixDispatch_keeps hw
  | devmgr => exact absurd (by decide) hm
  | submgr => exact absurd (by decide) hm
  | sensor => exact sensorDispatch_keeps
  | levelSensor => exact levelSensorDispatch_keeps
  | gain _ hk => exact gainDispatch_keeps hk hw
  | state2 _ hk => exact state2Dispatch_keeps hk hw
  | switch => exact switchDispatch_keeps hw
  | delay => exact delayDispatch_keeps hw
  | identify => exact identifyDispatch_keeps hw
  | dynamics => exact dynamicsDispatch_keeps hw
  | filter => exact filterDispatch_keeps hw
  | peq => exact peqDispatch_keeps hw
  | pan => exact panDispatch_keeps hw
  | siggen => exact siggenDispatch_keeps hw (by simpa using hs)
  | basic _ hk => exact basicActuatorDispatch_keeps hk hw

theorem not_implements_agent_nine : ¬Implements .grouper (agentDispatch (K := K)) 9 :=
  fun ⟨_, _, _, hbad, _⟩ => hbad rfl

theorem canWrite_of_write {h : ObjRef → UInt16 → Handler K} (hh : handlerFor kind level = some h)
    (hm : kind ∉ [Kind.deviceManager, .subscriptionManager])
    (hw : methodIsWrite kind level index = true) (hi : Implements kind h index) :
    CanWrite kind h index := by
  have hidx (hlist : methodIsWrite kind level index = decide (level = 4 ∧ index = 2)) :
      index = 2 := by simp_all
  cases handlerOf_of_handlerFor hh with
  | root => exact rootDispatch_canWrite hw
  | worker => exact workerDispatch_canWrite hw
  | agent =>
    have hidx : index = 2 ∨ index = 9 := by simpa [methodIsWrite] using hw
    rcases hidx with rfl | rfl
    · exact agentDispatch_canWrite
    · exact absurd hi not_implements_agent_nine
  | block => exact blockDispatch_canWrite hw
  | grouper => exact grouperDispatch_canWrite hw
  | matrix => exact matrixDispatch_canWrite hw
  | devmgr => exact absurd (by decide) hm
  | submgr => exact absurd (by decide) hm
  | sensor _ hk => revert hk hw; cases kind <;> simp [methodIsWrite]
  | levelSensor _ hk => revert hk hw; cases kind <;> simp [methodIsWrite]
  | gain _ hk =>
    have hidx : index = 2 := by revert hk hw; cases kind <;> simp [methodIsWrite]
    exact hidx ▸ gainDispatch_canWrite
  | state2 _ hk =>
    have hidx : index = 2 := by revert hk hw; cases kind <;> simp [methodIsWrite]
    exact hidx ▸ state2Dispatch_canWrite
  | switch =>
    have hidx : index = 2 := by simpa [methodIsWrite] using hw
    exact hidx ▸ switchDispatch_canWrite
  | delay =>
    have hidx : index = 2 := by simpa [methodIsWrite] using hw
    exact hidx ▸ delayDispatch_canWrite
  | identify =>
    have hidx : index = 2 := by simpa [methodIsWrite] using hw
    exact hidx ▸ identifyDispatch_canWrite
  | dynamics => exact dynamicsDispatch_canWrite hw
  | filter => exact filterDispatch_canWrite hw
  | peq => exact peqDispatch_canWrite hw
  | pan => exact panDispatch_canWrite hw
  | siggen => exact siggenDispatch_canWrite hw
  | basic _ hk =>
    have hidx : index = 2 := by revert hk hw; cases kind <;> simp [methodIsWrite]
    exact hidx ▸ basicActuatorDispatch_canWrite hk

/-- The gate stops every listed method of a secured object for an unprivileged session. -/
theorem gate_unprivileged {d : Device K} {i : ObjRef} (hs : (d.obj i).secured = true)
    (hp : d.activePrivileged = false) (hw : methodIsWrite (d.obj i).kind level index = true) :
    d.gate i level index = some .permissionDenied := by
  simp [Device.gate, hs, hp, hw]

/-- **The list is right about every method but Start and Stop of the signal generator**, for every
class that is not a manager. -/
theorem methodClassified_iff (K : Kconfig) (kind : Kind) (level index : UInt16)
    (hm : kind ∉ [Kind.deviceManager, .subscriptionManager]) :
    MethodClassified K kind level index ↔
      ¬(kind = .signalGen ∧ level = 4 ∧ (index = 16 ∨ index = 17)) := by
  constructor
  · rintro hc ⟨rfl, rfl, hidx⟩
    have hw : methodIsWrite .signalGen 4 index = false := by rcases hidx with rfl | rfl <;> decide
    have hkeeps := hc.reads hw siggenDispatch rfl
    rcases hidx with rfl | rfl
    · obtain ⟨c, hd, hne⟩ := start_mayChange (K := K)
      exact hne (hkeeps _ 0 rfl c hd)
    · obtain ⟨c, hd, hne⟩ := stop_mayChange (K := K)
      exact hne (hkeeps _ 0 rfl c hd)
  · intro hs
    refine ⟨fun hw h hh d i _ => keeps_of_not_write hh hm hs hw d i,
      fun hw h hh hi => canWrite_of_write hh hm hw hi, fun d i hk hsec hp => does_look ?_⟩
    split
    · exact does_ret rfl
    · next h hh =>
      split
      · exact does_ret rfl
      · next hg =>
        have hw : methodIsWrite kind level index = false := by
          by_contra hw
          rw [gate_unprivileged hsec hp (by simpa [hk] using hw)] at hg
          exact absurd hg nofun
        exact keeps_of_not_write (hk ▸ hh) hm hs hw d i

theorem methodClassified_gain_set : MethodClassified .default .gain 4 2 :=
  (methodClassified_iff .default .gain 4 2 (by decide)).2 (by decide)

/-- An unprivileged session starts a secured signal generator. -/
theorem not_methodClassified_start :
    (objectDispatch 0 4 16).MayChange
      (.idle .default [{ Obj.dsp .signalGen with secured := true }]) ∧
    ¬MethodClassified .default .signalGen 4 16 := by
  have hstart : (objectDispatch 0 4 16).MayChange
      (.idle .default [{ Obj.dsp .signalGen with secured := true }]) :=
    mayChange_look (mayChange_look (mayChange_store (sigWrite_ne idle_pos rfl (by decide))))
  refine ⟨hstart, fun hc => ?_⟩
  obtain ⟨c, hd, hne⟩ := hstart
  exact hne (hc.unprivileged _ 0 rfl rfl rfl c hd)

end

end Aes70
