import Aes70.Router.Dispatch

/-!
# What a setter stores

The setter of a scalar class reads one number and commits it, unless it is refused. The number
depends on the object and the parameters only.

* `setting` : the value the parameters set, `none` when they are refused.
* `setter_setsAt` : the setter commits this value.
-/

namespace Aes70

open Handler

variable {K : Kconfig}

/-- The value the accessor `r` reads, unless the parameters are too short or it is `bad`. -/
def accepted {α : Type} (r : Read α) (bad : α → Bool) (val : α → F64) (rd : Reader) : Option F64 :=
  let (a, rd) := r rd
  if rd.err || bad a then none else some (val a)

/-- The value is outside the range of the object. -/
def Obj.outside (o : Obj) (v : F64) : Bool := v.lt o.numMin || o.numMax.lt v

/-- The value that a call of the setter of `o` with these parameters sets. -/
def setting (o : Obj) (rd : Reader) : Option F64 :=
  match o.kind with
  | .gain | .frequency => accepted Read.f32 (fun g => o.outside (toF64 g)) toF64 rd
  | .mute | .polarity => accepted Read.u8 (fun s => s != 1 && s != 2) (fun s => .ofNat s.toNat) rd
  | .switch => accepted Read.u16 (fun p => decide (o.swCount = 0 ∨ o.swCount - 1 < p))
      (fun p => .ofNat p.toNat) rd
  | .delay => accepted Read.f64 o.outside id rd
  | .identify | .boolean =>
    accepted Read.u8 (fun _ => false) (fun v => .ofNat (flag (v != 0)).toNat) rd
  | .float32 => accepted (toF64 <$> Read.f32) o.outside id rd
  | .int32 => accepted ((fun u => .ofInt u.toInt32.toInt) <$> Read.u32) o.outside id rd
  | .uint16 => accepted ((fun u => .ofNat u.toNat) <$> Read.u16) o.outside id rd
  | .uint32 => accepted ((fun u => .ofNat u.toNat) <$> Read.u32) o.outside id rd
  | _ => none

theorem accepted_some {α : Type} {r : Read α} {bad : α → Bool} {val : α → F64} {rd : Reader}
    (h : accepted r bad val rd = some v) : ∃ a, bad a = false ∧ v = val a := by
  unfold accepted at h
  dsimp only at h
  split_ifs at h with hbad
  exact ⟨(r rd).1, by simp_all, (Option.some.inj h).symm⟩

theorem accepted_read {α : Type} {r : Read α} {bad : α → Bool} {val : α → F64} {rd : Reader}
    {v : F64} (h : accepted r bad val rd = some v) : v = val (r rd).1 := by
  unfold accepted at h
  dsimp only at h
  split_ifs at h
  exact (Option.some.inj h).symm

/-- A position that the setter of a switch does not refuse. -/
theorem lt_of_position {count p : UInt16} (h : decide (count = 0 ∨ count - 1 < p) = false) :
    p.toNat < count.toNat := by
  obtain ⟨h0, hle⟩ := not_or.1 (of_decide_eq_false h)
  have hcount : 1 ≤ count.toNat := Nat.pos_of_ne_zero fun hz => h0 (UInt16.toNat_inj.1 hz)
  rw [UInt16.lt_iff_toNat_lt, UInt16.toNat_sub_of_le _ _ hcount, Nat.not_lt] at hle
  have hone : (1 : UInt16).toNat = 1 := rfl
  omega

/-- The classes whose setter refuses a value outside the range of the object. -/
def Kind.isRanged : Kind → Bool
  | .gain | .delay | .frequency | .float32 | .int32 | .uint16 | .uint32 | .levelSensor
  | .temperature => true
  | _ => false

/-- A setter of these classes sets no other value. -/
theorem outside_of_setting {o : Obj} {rd : Reader} {v : F64} (hr : o.kind.isRanged = true)
    (h : setting o rd = some v) : o.outside v = false := by
  cases hk : o.kind with
  | gain | frequency | delay | float32 | int32 | uint16 | uint32 =>
    simp only [setting, hk] at h
    obtain ⟨x, hin, rfl⟩ := accepted_some h
    exact hin
  | _ => simp [setting, hk, Kind.isRanged] at h hr

/-- Commit a value that was accepted. -/
def Device.set (d : Device K) (i : ObjRef) (level : UInt16) : Option F64 → Device K
  | some v => d.commitNum i v level 1 true
  | none => d

/-- The call `c` of `h` sets this value of object `i`, if any. -/
def Handler.SetsAt (h : Handler K) (c : Call K) (i : ObjRef) (level : UInt16) (v : Option F64) :
    Prop := (h c).2.dev = c.dev.set i level v

section Setters

variable {i : ObjRef} {level idx : UInt16} {c : Call K}

theorem setsAt_look {f : Device K → Handler K} {v : Option F64}
    (h : SetsAt (f c.dev) c i level v) : SetsAt (look f) c i level v := h

/-- A setter commits what it accepts. -/
theorem setsAt_reading {α : Type} {r : Read α} {bad : α → Bool} {val : α → F64}
    {k : α → Handler K} (hk : ∀ a, k a = if bad a = true then ret .parameterOutOfRange
      else store fun d => d.commitNum i (val a) level 1 true) :
    SetsAt (reading r k) c i level (accepted r bad val c.rd) := by
  unfold SetsAt reading accepted
  dsimp only
  cases he : (r c.rd).2.err with
  | true => rfl
  | false =>
    cases hb : bad (r c.rd).1 with
    | true =>
      rw [hk, if_pos hb]
      rfl
    | false =>
      rw [hk, hb]
      rfl

/-- A setter that is answered with OK has accepted a value. -/
theorem accepted_of_ok {α : Type} {r : Read α} {bad : α → Bool} {val : α → F64}
    {k : α → Handler K} {l : UInt16} (hk : ∀ a, k a = if bad a = true then ret .parameterOutOfRange
      else store fun d => d.commitNum i (val a) l 1 true) (hok : (reading r k c).1 = .ok) :
    (accepted r bad val c.rd).isSome = true := by
  unfold reading at hok
  unfold accepted
  dsimp only at hok ⊢
  cases he : (r c.rd).2.err with
  | true =>
    rw [he] at hok
    cases hok
  | false =>
    rw [he, hk] at hok
    cases hb : bad (r c.rd).1 with
    | true =>
      rw [hb] at hok
      cases hok
    | false => rfl

theorem gainDispatch_setsAt (hidx : idx = 2) : SetsAt (gainDispatch i idx) c i 4
    (accepted Read.f32 (fun g => (c.dev.obj i).outside (toF64 g)) toF64 c.rd) := by
  refine setsAt_look ?_
  dsimp only
  split
  case h_2 => exact setsAt_reading fun g => rfl
  all_goals simp_all

theorem state2Dispatch_setsAt (hidx : idx = 2) : SetsAt (state2Dispatch i idx) c i 4
    (accepted Read.u8 (fun s => s != 1 && s != 2) (fun s => .ofNat s.toNat) c.rd) := by
  refine setsAt_look ?_
  split
  case h_2 => exact setsAt_reading fun s => rfl
  all_goals simp_all

theorem switchDispatch_setsAt (hidx : idx = 2) : SetsAt (switchDispatch i idx) c i 4
    (accepted Read.u16 (fun p => decide ((c.dev.obj i).swCount = 0 ∨ (c.dev.obj i).swCount - 1 < p))
      (fun p => .ofNat p.toNat) c.rd) := by
  refine setsAt_look ?_
  dsimp only
  split
  case h_2 => exact setsAt_reading fun p => by simp only [decide_eq_true_eq]
  all_goals simp_all

theorem delayDispatch_setsAt (hidx : idx = 2) : SetsAt (delayDispatch i idx) c i 4
    (accepted Read.f64 (c.dev.obj i).outside id c.rd) := by
  refine setsAt_look ?_
  dsimp only
  split
  case h_2 => exact setsAt_reading fun t => rfl
  all_goals simp_all

theorem identifyDispatch_setsAt (hidx : idx = 2) : SetsAt (identifyDispatch i idx) c i 4
    (accepted Read.u8 (fun _ => false) (fun v => .ofNat (flag (v != 0)).toNat) c.rd) := by
  refine setsAt_look ?_
  split
  case h_2 => exact setsAt_reading fun v => rfl
  all_goals simp_all

theorem basicActuatorDispatch_setsAt (hidx : idx = 2)
    (hk : (c.dev.obj i).kind ∈ [Kind.boolean, .int32, .uint16, .uint32, .float32]) :
    SetsAt (basicActuatorDispatch i idx) c i 5 (setting (c.dev.obj i) c.rd) := by
  have hset : SetsAt (setSetting i (c.dev.obj i)) c i 5 (setting (c.dev.obj i) c.rd) := by
    unfold setSetting setting
    split
    case h_2 h => simp [h] at hk
    case h_7 => simp_all
    · next h => simp only [h]; exact setsAt_reading fun v => rfl
    all_goals next h => simp only [h]; exact setsAt_reading fun v => rfl
  refine setsAt_look ?_
  split
  case h_2 => exact hset
  all_goals simp_all

/-- **The setter of a scalar class** commits the value its parameters set. -/
theorem setter_setsAt {kind : Kind} {h : ObjRef → UInt16 → Handler K}
    (hh : handlerFor kind level = some h) (hp : primaryProperty kind = some (level, 1))
    (hs : kind ≠ .string) (hk : (c.dev.obj i).kind = kind) (hidx : idx = 2) :
    SetsAt (h i idx) c i level (setting (c.dev.obj i) c.rd) := by
  cases handlerOf_of_handlerFor hh with
  | root => cases kind <;> simp [primaryProperty] at hp
  | worker => cases kind <;> simp [primaryProperty] at hp
  | sensor => cases kind <;> simp [primaryProperty] at hp
  | agent | block | grouper | matrix | devmgr | submgr | dynamics | filter | peq | pan | siggen =>
    simp [primaryProperty] at hp
  | levelSensor _ hmem =>
    simp only [List.mem_cons, List.not_mem_nil, or_false] at hmem
    have hnone : setting (c.dev.obj i) c.rd = none := by
      rcases hmem with rfl | rfl <;> simp only [setting, hk]
    rw [hnone]
    refine setsAt_look ?_
    dsimp only
    split <;> rfl
  | gain _ hmem =>
    simp only [List.mem_cons, List.not_mem_nil, or_false] at hmem
    have hset := gainDispatch_setsAt (i := i) (c := c) hidx
    rcases hmem with rfl | rfl <;> simpa only [setting, hk] using hset
  | state2 _ hmem =>
    simp only [List.mem_cons, List.not_mem_nil, or_false] at hmem
    have hset := state2Dispatch_setsAt (i := i) (c := c) hidx
    rcases hmem with rfl | rfl <;> simpa only [setting, hk] using hset
  | switch => simpa only [setting, hk] using switchDispatch_setsAt hidx
  | delay => simpa only [setting, hk] using delayDispatch_setsAt hidx
  | identify => simpa only [setting, hk] using identifyDispatch_setsAt hidx
  | basic _ hmem =>
    refine basicActuatorDispatch_setsAt hidx ?_
    rw [hk]
    simp only [List.mem_cons, List.not_mem_nil, or_false] at hmem ⊢
    tauto

/-- The setters of the classes that can be grouped. -/
theorem setting_of_ok {h : ObjRef → UInt16 → Handler K}
    (hk : ((c.dev.obj i).kind, level) ∈ [(Kind.gain, (4 : UInt16)), (.mute, 4), (.boolean, 5)])
    (hh : handlerFor (c.dev.obj i).kind level = some h) (hok : (h i 2 c).1 = .ok) :
    (setting (c.dev.obj i) c.rd).isSome = true := by
  simp only [List.mem_cons, List.not_mem_nil, or_false, Prod.mk.injEq] at hk
  rcases hk with ⟨hk, rfl⟩ | ⟨hk, rfl⟩ | ⟨hk, rfl⟩
  · rw [hk] at hh
    obtain rfl := Option.some.inj hh
    simp only [setting, hk]
    exact accepted_of_ok (i := i) (l := 4) (fun g => rfl) hok
  · rw [hk] at hh
    obtain rfl := Option.some.inj hh
    simp only [setting, hk]
    exact accepted_of_ok (i := i) (l := 4) (fun g => rfl) hok
  · rw [hk] at hh
    obtain rfl := Option.some.inj hh
    have hboolean : basicActuatorDispatch i 2 c = setSetting i (c.dev.obj i) c := rfl
    rw [hboolean] at hok
    simp only [setSetting, hk] at hok
    simp only [setting, hk]
    exact accepted_of_ok (i := i) (l := 5) (fun g => rfl) hok

end Setters

end Aes70
