import Aes70.Security.Confinement
import Aes70.Server.Control

/-!
# What a step does to the objects

Of an object only the value, the parameters of a DSP class, texts and access change once it exists.
`Action.effects` says which values and parameters a step writes, and `Action.Born` which objects it
can add; `action_changes` is the one case analysis from which invariants of objects are proved.

* `Effects` : values that are stored, in order, and at most one write of a DSP parameter.
* `Stores` : the objects of `d'` are those of `d` after these.
* `Changes` : a step stores, or uses a number up, or adds an object.
-/

namespace Aes70

open Device Handler

variable {K : Kconfig}

/-- What a step writes: the values of scalar objects, and a parameter of a DSP object. -/
structure Effects where
  nums : List (ObjRef × F64)
  param : Option (ObjRef × ParamWrite)

namespace Effects

/-- Nothing is written. -/
def none : Effects := ⟨[], .none⟩

/-- Values only. -/
def values (ws : List (ObjRef × F64)) : Effects := ⟨ws, .none⟩

/-- The private state of object `i` after the write, where it was `p`. -/
def priv (fx : Effects) (i : ObjRef) (p : Priv) : Priv :=
  match fx.param with
  | some (j, w) => if j = i then p.write w else p
  | .none => p

end Effects

/-- What no step changes of an object. -/
def Obj.frame (o : Obj) : Obj :=
  { o with
    num := .zero
    str := none
    label := none
    enabled := true
    lockState := .none
    lockOwner := none
    secured := false
    tag := 0
    priv := .null }

/-- The objects of `d'` are those of `d`, with these values and parameters written. -/
structure Stores (d d' : Device K) (fx : Effects) : Prop where
  length : d'.objects.length = d.objects.length
  nextOno : d'.nextOno = d.nextOno
  rootBlock : d'.rootBlock = d.rootBlock
  frame : ∀ i, (d'.obj i).frame = (d.obj i).frame
  num : ∀ i < d.objects.length, (d'.obj i).num = (lastWrite fx.nums i).getD (d.obj i).num
  priv : ∀ i < d.objects.length, dspIsDspKind (d.obj i).kind = true →
    (d'.obj i).priv = fx.priv i (d.obj i).priv

/-- How the objects that a step adds are made: their kind, the block they are added to, and the
stores into the fresh object. -/
abbrev Births := Kind → Option ObjRef → (Obj → Obj) → Prop

/-- The device stores `fx`, or uses a number up, or gets a new object as `B` says. -/
inductive Changes (d : Device K) (fx : Effects) (B : Births) : Device K → Prop
  | stores {d' : Device K} (h : Stores d d' fx) : Changes d fx B d'
  | full {d' : Device K} (hfull : K.maxObjects ≤ d.objects.length)
    (h : Stores { d with nextOno := d.nextOno + 1 } d' .none) : Changes d fx B d'
  | added {kind : Kind} {parent : Option ObjRef} {f : Obj → Obj} {role : Bytes} {i : ObjRef}
    {e d' : Device K} (hB : B kind parent f) (halloc : d.objectAlloc kind parent role = (some i, e))
    (h : Stores (e.modifyObj i f) d' .none) : Changes d fx B d'

/-! ### Effects of a step -/

/-- What a command of connection `conn` writes. -/
def Device.commandEffects (d : Device K) (conn : ℕ) (cmd : Command) (rd : Reader) : Effects :=
  match d.find cmd.target with
  | none => .none
  | some j =>
    if ({ d with activeConn := some conn } : Device K).gate j cmd.level cmd.index ≠ none then .none
    else if (d.obj j).kind = .block ∧ cmd.level = 3 ∧ cmd.index = 26 then
      .values (match recallParams rd with
        | some (es, _) => d.recallStores es
        | none => [])
    else if primaryProperty (d.obj j).kind = some (cmd.level, 1) ∧ cmd.index = 2 then
      .values (match setting (d.obj j) rd with
        | some v => d.commitWrites j v
        | none => [])
    else if cmd.level = 4 ∧ dspIsDspKind (d.obj j).kind = true then
      ⟨[], (dspSetting (d.obj j) cmd.index rd).map fun w => (j, w)⟩
    else .none

/-- What a set request of the application writes. -/
def Device.requestEffects (d : Device K) (req : SetReq) : Effects :=
  match d.find req.ono with
  | none => .none
  | some j =>
    if dspIsDspKind (d.obj j).kind then ⟨[], (req.write (d.obj j)).map fun w => (j, w)⟩
    else if (primaryProperty (d.obj j).kind).isSome ∧ req.isString = false then
      .values [(j, clampSet (d.obj j) req.num)]
    else .none

/-- The objects a command can add: proxies of groups. -/
abbrev proxyBorn (d : Device K) : Births :=
  fun k p f => k ∈ [Kind.gain, .mute, .boolean] ∧ p = d.rootBlock ∧ f = initProxy

namespace Action

/-- What a step writes. -/
def effects (d : Device K) : Action K → Effects
  | .operation (.command conn cmd rd) => d.commandEffects conn cmd rd
  | .operation (.set req) => d.requestEffects req
  | _ => .none

/-- The objects a step can add. -/
def Born (d : Device K) : Action K → Births
  | .create call parent _ => fun k p f => k = call.kind ∧ p = parent ∧ f = call.setup
  | .operation _ => proxyBorn d
  | .other _ => fun _ _ _ => False

end Action

/-! ### Stores -/

namespace Stores

variable {d d' d'' : Device K} {fx : Effects}

/-- Nothing is stored. -/
theorem of_core (h : d'.core = d.core) : Stores d d' .none where
  length := by rw [objects_eq_of_core h]
  nextOno := by
    have := congrArg Device.nextOno h
    exact this
  rootBlock := by
    have := congrArg Device.rootBlock h
    exact this
  frame i := by rw [obj_eq_of_core h]
  num i _ := by rw [obj_eq_of_core h]; rfl
  priv i _ _ := by rw [obj_eq_of_core h]; rfl

theorem refl (d : Device K) : Stores d d .none := of_core rfl

theorem of_objects (h : d'.objects = d.objects) (hnext : d'.nextOno = d.nextOno)
    (hroot : d'.rootBlock = d.rootBlock) : Stores d d' .none where
  length := by rw [h]
  nextOno := hnext
  rootBlock := hroot
  frame i := by rw [obj, obj, h]
  num i _ := by rw [obj, obj, h]; rfl
  priv i _ _ := by rw [obj, obj, h]; rfl

/-- Output in between is not seen. -/
theorem of_core_eq (h : Stores d d' fx) (hcore : d''.core = d'.core) : Stores d d'' fx where
  length := by rw [objects_eq_of_core hcore, h.length]
  nextOno := by
    have := congrArg Device.nextOno hcore
    exact Eq.trans this h.nextOno
  rootBlock := by
    have := congrArg Device.rootBlock hcore
    exact Eq.trans this h.rootBlock
  frame i := by rw [obj_eq_of_core hcore, h.frame]
  num i hi := by rw [obj_eq_of_core hcore, h.num i hi]
  priv i hi hk := by rw [obj_eq_of_core hcore, h.priv i hi hk]

/-- A store into an object that changes neither its value nor parameters of a DSP class. -/
theorem modifyObj {i : ObjRef} {f : Obj → Obj} (hframe : (f (d.obj i)).frame = (d.obj i).frame)
    (hnum : (f (d.obj i)).num = (d.obj i).num)
    (hpriv : dspIsDspKind (d.obj i).kind = true → (f (d.obj i)).priv = (d.obj i).priv) :
    Stores d (d.modifyObj i f) .none where
  length := d.length_modifyObj i f
  nextOno := rfl
  rootBlock := rfl
  frame j := by
    rw [obj_modifyObj]
    split_ifs with h
    · rw [← h.1, hframe]
    · rfl
  num j _ := by
    rw [obj_modifyObj]
    split_ifs with h
    · rw [← h.1, hnum]
      rfl
    · rfl
  priv j _ hk := by
    rw [obj_modifyObj]
    split_ifs with h
    · rw [← h.1] at hk ⊢
      exact hpriv hk
    · rfl

/-- Values are stored. -/
theorem writeNums (d : Device K) (ws : List (ObjRef × F64)) :
    Stores d (d.writeNums ws) (.values ws) where
  length := length_writeNums d ws
  nextOno := by rw [writeNums_eq]
  rootBlock := by rw [writeNums_eq]
  frame i := by
    have herase := congrArg Obj.frame (eraseNum_obj_writeNums d ws i)
    exact herase
  num i hi := by rw [obj_writeNums d ws hi]; rfl
  priv i hi _ := by rw [obj_writeNums d ws hi]; rfl

/-- A parameter of a DSP object is written. -/
theorem param (i : ObjRef) (b : Bool) (w : Option ParamWrite) :
    Stores d (d.param i b w) ⟨[], w.map fun w => (i, w)⟩ := by
  cases w with
  | none => exact .refl d
  | some w =>
    have hstore : Stores d (d.modifyObj i fun o => { o with priv := (d.obj i).priv.write w })
        ⟨[], some (i, w)⟩ := by
      refine ⟨d.length_modifyObj i _, rfl, rfl, ?_, ?_, ?_⟩
      · intro j
        exact obj_modifyObj_congr Obj.frame (fun _ => by rfl) d i j
      · intro j _
        exact obj_modifyObj_congr Obj.num (fun _ => by rfl) d i j
      · intro j hj _
        by_cases hij : i = j
        · subst hij
          rw [obj_modifyObj_self hj]
          exact (if_pos rfl).symm
        · rw [obj_modifyObj_ne hij]
          exact (if_neg hij).symm
    exact hstore.of_core_eq (core_dspWrite d i _ w.sel b)

/-- What happens aside. -/
theorem of_aside (h : Aside d d') : Stores d d' .none where
  length := h.length_eq
  nextOno := h.nextOno
  rootBlock := h.rootBlock
  frame i := h.obj_congr (fun _ => by rfl) i
  num i _ := h.obj_congr (fun _ => by rfl) i
  priv i _ hk := by
    have hkind : (d'.obj i).kind = (d.obj i).kind := h.obj_congr (fun _ => by rfl) i
    have hne : (d.obj i).kind ≠ .matrix := fun hm => by simp [hm, dspIsDspKind] at hk
    have hpriv := congrArg Obj.priv (h.obj_contents i)
    change (d'.obj i).priv = (d.obj i).priv
    simpa [Obj.contents, hkind, hne] using hpriv

end Stores

/-! ### Commands -/

namespace Changes

variable {d d' d'' : Device K} {fx : Effects} {B : Births}

theorem of_core_eq (h : Changes d fx B d') (hcore : d''.core = d'.core) : Changes d fx B d'' := by
  cases h with
  | stores h => exact .stores (h.of_core_eq hcore)
  | full hfull h => exact .full hfull (h.of_core_eq hcore)
  | added hB halloc h => exact .added hB halloc (h.of_core_eq hcore)

theorem of_core (h : d'.core = d.core) : Changes d .none B d' := .stores (.of_core h)

end Changes

section Commands

variable {d d' : Device K} {i : ObjRef} {level index : UInt16} {B : Births}

/-- A command that writes no values, and no parameter. -/
theorem Outcome.changes {st : Status} (h : Outcome d i level index st d')
    (hw : ¬d.WritesValues i level index)
    (hdsp : ¬(level = 4 ∧ dspIsDspKind (d.obj i).kind = true)) :
    Changes d .none (proxyBorn d) d' := by
  have hpriv (p : Priv) (hk : dspIsDspKind (d.obj i).kind = false) :
      Stores d (d.modifyObj i fun o => { o with priv := p }) .none :=
    .modifyObj rfl rfl fun h => absurd (h.symm.trans hk) (by decide)
  cases h with
  | same => exact .stores (.refl d)
  | lock | unlock | agentLabel => exact .stores (.modifyObj rfl rfl fun _ => rfl)
  | enabled | label =>
    exact .stores (.of_core_eq (.modifyObj rfl rfl fun _ => rfl) (core_notify _ _ _ _))
  | num v hm hp hs => exact absurd (.inr ⟨hp, hs, hm⟩) hw
  | str s =>
    exact .stores (.of_core_eq (.modifyObj rfl rfl fun _ => rfl) (core_commitStr d i s 5 1 true))
  | dsp p sel hm hk => exact absurd ⟨hm, hk⟩ hdsp
  | grouper g hk => exact .stores (hpriv _ (by rw [hk]; rfl))
  | matrix m hk | truncatedMembers m _ hk => exact .stores (hpriv _ (by rw [hk]; rfl))
  | noRoom hfull => exact .full hfull (.refl _)
  | @addGroup g slot name proxy e hk halloc =>
    refine .added ⟨g.citizenKind_mem, rfl, rfl⟩ halloc (.modifyObj rfl rfl fun h => ?_)
    -- the grouper is an object of `d`, so it is not the proxy
    have hi : i < d.objects.length := lt_of_kind (by rw [hk]; decide)
    obtain ⟨-, hproxy, -⟩ := objectAlloc_some halloc
    have hkind : (e.obj i).kind = (d.obj i).kind :=
      obj_objectAlloc (p := Obj.kind) (fun _ _ => by rfl) (fun _ _ => by rfl) halloc hi
    rw [obj_modifyObj_ne (by rw [hproxy]; exact hi.ne'), hkind, hk] at h
    cases h
  | «recall» es hm hk | truncatedRecall es hm hk => exact absurd (.inl ⟨hk, hm⟩) hw
  | deviceName s =>
    have hstore : Stores d { d with deviceName := strlcpy 64 s } .none := .of_objects rfl rfl rfl
    exact .stores (hstore.of_core_eq (core_notify _ _ _ _))
  | deviceRole s =>
    have hstore : Stores d { d with deviceRole := strlcpy 48 s } .none := .of_objects rfl rfl rfl
    exact .stores (hstore.of_core_eq (core_notify _ _ _ _))
  | subscribe | unsubscribe | notifications => exact .stores (.of_objects rfl rfl rfl)

/-- **What a dispatch writes.** -/
theorem dispatch_changes {conn : ℕ} {cmd : Command} {c : Call K}
    (hf : c.dev.find cmd.target = some i) (hactive : c.dev.activeConn = some conn) :
    Changes c.dev (c.dev.commandEffects conn cmd c.rd) (proxyBorn c.dev)
      (objectDispatch i cmd.level cmd.index c).2.dev := by
  have hi : i < c.dev.objects.length := find_lt hf
  have hself : ({ c.dev with activeConn := some conn } : Device K) = c.dev := by rw [← hactive]
  unfold commandEffects
  simp only [hf, hself]
  split_ifs with hg hr hs hd
  · obtain ⟨st, hst⟩ := Option.ne_none_iff_exists'.mp hg
    rw [objectDispatch_of_gate hst rfl]
    exact .of_core rfl
  · -- a recall
    have hdev : (applyParameterData c).2.dev = (c.dev.recallOutcome (recallParams c.rd)).2 :=
      congrArg Prod.snd (applyParameterData_dev c)
    rw [objectDispatch_of_recalls ⟨hr.1, hr.2.1, hr.2.2, not_not.mp hg⟩ rfl, hdev]
    refine .stores ?_
    cases recallParams c.rd with
    | none => exact .refl _
    | some p => exact (Stores.writeNums c.dev _).of_core_eq (core_recall c.dev p.1)
  · -- the setter of a scalar class
    obtain ⟨hp, hidx⟩ := hs
    by_cases hstr : (c.dev.obj i).kind = .string
    · have hnone : setting (c.dev.obj i) c.rd = none := by simp only [setting, hstr]
      rw [hnone]
      refine (objectDispatch_outcome i cmd.level cmd.index c rfl).changes ?_ ?_
      · rintro (⟨hk, -⟩ | ⟨-, hk, -⟩)
        · exact absurd (hk.symm.trans hstr) (by decide)
        · exact hk hstr
      · rintro ⟨-, hk⟩
        rw [hstr] at hk
        cases hk
    · obtain ⟨h, hh⟩ := handlerFor_of_primaryProperty (K := K) hp
      rw [objectDispatch_of_handler hh (not_not.mp hg) rfl, setter_setsAt hh hp hstr rfl hidx]
      refine .stores ?_
      cases setting (c.dev.obj i) c.rd with
      | none => exact .refl _
      | some v => exact (Stores.writeNums c.dev _).of_core_eq (core_commitNum hi v cmd.level 1)
  · -- a method of a DSP class
    obtain ⟨hlevel, hk⟩ := hd
    rw [hlevel] at hg ⊢
    obtain ⟨h, hh⟩ := handlerFor_dsp (K := K) hk
    have hwrite : WritesAt (h i cmd.index) c i (dspSetting (c.dev.obj i) cmd.index c.rd) :=
      dspDispatch_writesAt hh hk rfl
    rw [objectDispatch_of_handler hh (not_not.mp hg) rfl, hwrite]
    exact .stores (.param i true _)
  · refine (objectDispatch_outcome i cmd.level cmd.index c rfl).changes ?_ hd
    rintro (h | ⟨hp, -, hidx⟩)
    · exact hr h
    · exact hs ⟨hp, hidx⟩

theorem blockAddMember_active (d : Device K) (block : Option ObjRef) (child : ObjRef)
    (x : Option ℕ) : ({ d.blockAddMember block child with activeConn := x } : Device K) =
      ({ d with activeConn := x } : Device K).blockAddMember block child := by
  cases block with
  | none => rfl
  | some b =>
    by_cases hk : (d.obj b).kind ≠ .block
    · have hsame : d.blockAddMember (some b) child = d := if_pos hk
      rw [hsame]
      exact (if_pos hk).symm
    · have hadd : d.blockAddMember (some b) child = (d.modifyObj b fun o =>
          { o with children := o.children ++ [child] }).modifyObj child
            fun o => { o with ownerOno := (d.obj b).ono } := if_neg hk
      rw [hadd]
      exact (if_neg hk).symm

/-- It does not matter which connection is active. -/
theorem Changes.of_active {fx : Effects} {x : Option ℕ}
    (h : Changes { d with activeConn := x } fx B d') : Changes d fx B d' := by
  cases h with
  | stores h => exact .stores ⟨h.length, h.nextOno, h.rootBlock, h.frame, h.num, h.priv⟩
  | full hfull h => exact .full hfull ⟨h.length, h.nextOno, h.rootBlock, h.frame, h.num, h.priv⟩
  | @added kind parent f role i e _ hB halloc h =>
    obtain ⟨hlt, hi, he⟩ := objectAlloc_some halloc
    have hlen : i = d.objects.length := hi
    let e' := (d.registered kind role).blockAddMember
      (if parent.isSome then parent else d.rootBlock) i
    have halloc' : d.objectAlloc kind parent role = (some i, e') := by
      rw [objectAlloc_eq, if_neg (Nat.not_le.2 hlt), ← hlen]
    have heq : ({ e' with activeConn := x } : Device K) = e := by
      rw [he]
      exact blockAddMember_active _ _ i x
    rw [← heq] at h
    exact .added hB halloc' ⟨h.length, h.nextOno, h.rootBlock, h.frame, h.num, h.priv⟩

end Commands

/-! ### Steps -/

section Steps

variable {d : Device K}

/-- **What an operation writes.** -/
theorem operation_changes (d : Device K) (op : Operation) :
    Changes d ((Action.operation op : Action K).effects d) (proxyBorn d) (op.run d) := by
  cases op with
  | command conn cmd rd =>
    let call : Call K := ⟨{ d with activeConn := some conn }, rd, Writer.init K.txBufferSize, 0⟩
    change Changes d (d.commandEffects conn cmd rd) _ (execCommand conn cmd call).2.dev
    refine .of_active (x := some conn) ?_
    cases hf : call.dev.find cmd.target with
    | none =>
      have hnone : d.commandEffects conn cmd rd = .none := by
        have hf' : d.find cmd.target = none := hf
        simp only [commandEffects, hf']
      rw [execCommand_of_none hf, hnone]
      exact .of_core rfl
    | some j =>
      rw [execCommand_of_find hf]
      exact (dispatch_changes (c := call) hf rfl).of_core_eq rfl
  | set req =>
    change Changes d (d.requestEffects req) _ (d.applySet req)
    unfold requestEffects applySet
    cases hf : d.find req.ono with
    | none => exact .of_core rfl
    | some j =>
      dsimp only
      cases hdsp : dspIsDspKind (d.obj j).kind with
      | true =>
        simp only [if_true, dspApplySet_eq]
        exact .stores (.param j false _)
      | false =>
        simp only [Bool.false_eq_true, if_false]
        cases hp : primaryProperty (d.obj j).kind with
        | none => exact .of_core rfl
        | some p =>
          obtain ⟨level, index⟩ := p
          cases hstr : req.isString with
          | true =>
            have hstore : Stores d (d.modifyObj j fun o => { o with str := some req.str }) .none :=
              .modifyObj rfl rfl fun _ => rfl
            exact .stores (hstore.of_core_eq (core_commitStr d j req.str level index false))
          | false =>
            exact .stores ((Stores.writeNums d _).of_core_eq (core_commitNum_app d j _ _ _))

/-- **What a step does to the objects.** -/
theorem action_changes {a : Action K} (h : a.Legal d) :
    Changes d (a.effects d) (a.Born d) (a.run d) := by
  cases a with
  | operation op => exact operation_changes d op
  | other d' => exact .stores (.of_aside h)
  | create call parent role =>
    change Changes d .none _ (d.create call parent role)
    unfold create
    cases halloc : d.objectAlloc call.kind parent role with
    | mk i e =>
      cases i with
      | none =>
        obtain ⟨hfull, rfl⟩ := objectAlloc_none halloc
        exact .full hfull (.refl _)
      | some i => exact .added ⟨rfl, rfl, rfl⟩ halloc (.refl _)

end Steps

/-! ### What holds of every object -/

/-- An object as one of the scalar classes: its value, its range and its number of positions. -/
structure Scalar where
  kind : Kind
  num : F64
  numMin : F64
  numMax : F64
  swCount : UInt16

/-- The scalar part of an object. -/
def Obj.scalar (o : Obj) : Scalar := ⟨o.kind, o.num, o.numMin, o.numMax, o.swCount⟩

/-- The scalar part of a fresh object. -/
def Scalar.blank (k : Kind) : Scalar := ⟨k, .zero, .zero, .zero, 0⟩

/-- The scalar part of every object satisfies `P`. -/
def Device.All (d : Device K) (P : Scalar → Prop) : Prop :=
  ∀ i < d.objects.length, P (d.obj i).scalar

section All

variable {d d' : Device K} {P : Scalar → Prop}

theorem all_start {P : Scalar → Prop} (h : (server K).init d)
    (hP : ∀ k ∈ [Kind.deviceManager, .subscriptionManager, .block], P (.blank k)) : d.All P := by
  obtain ⟨cfg, net, h⟩ := h
  obtain ⟨e, rfl⟩ := start_eq h
  intro i hi
  have hthree : i = 0 ∨ i = 1 ∨ i = 2 := by
    have hlt : i < 3 := hi
    omega
  rcases hthree with rfl | rfl | rfl
  · exact hP .deviceManager (by simp)
  · exact hP .subscriptionManager (by simp)
  · exact hP .block (by simp)

/-- Stores of values that satisfy `P`. -/
theorem Stores.all {fx : Effects} (h : Stores d d' fx) (hall : d.All P)
    (hnum : ∀ i < d.objects.length, ∀ v, lastWrite fx.nums i = some v →
      P { (d.obj i).scalar with num := v }) : d'.All P := by
  intro i hi
  rw [h.length] at hi
  have hscalar : (d'.obj i).scalar =
      { (d.obj i).scalar with num := (lastWrite fx.nums i).getD (d.obj i).num } := by
    have hframe := congrArg Obj.scalar (h.frame i)
    simp only [Obj.scalar, Obj.frame, Scalar.mk.injEq, true_and] at hframe ⊢
    exact ⟨hframe.1, h.num i hi, hframe.2⟩
  rw [hscalar]
  cases hlast : lastWrite fx.nums i with
  | none => exact hall i hi
  | some v => exact hnum i hi v hlast

/-- **What a step keeps of all objects**: the values it writes, and the objects it can add. -/
theorem Changes.all {fx : Effects} {B : Births} (h : Changes d fx B d') (hall : d.All P)
    (hnum : ∀ i < d.objects.length, ∀ v, lastWrite fx.nums i = some v →
      P { (d.obj i).scalar with num := v })
    (hborn : ∀ k p f, B k p f → ∀ o : Obj, o.scalar = .blank k → P (f o).scalar) : d'.All P := by
  have hnone (e : Device K) : ∀ i < e.objects.length, ∀ v,
      lastWrite Effects.none.nums i = some v → P { (e.obj i).scalar with num := v } := by
    intro i _ v hv
    cases hv
  cases h with
  | stores h => exact h.all hall hnum
  | full hfull h => exact h.all hall (hnone _)
  | @added kind parent f role i e _ hB halloc h =>
    refine h.all (fun j hj => ?_) (hnone _)
    obtain ⟨hlt, rfl, he⟩ := objectAlloc_some halloc
    have hlen : e.objects.length = d.objects.length + 1 := by
      rw [he, length_blockAddMember]
      simp [registered]
    have hobj (k : ObjRef) : (e.obj k).scalar = ((d.registered kind role).obj k).scalar := by
      rw [he]
      exact obj_blockAddMember (p := Obj.scalar) (fun _ _ => by rfl) (fun _ _ => by rfl) _ _ _ k
    rw [length_modifyObj, hlen] at hj
    by_cases hnew : j = d.objects.length
    · have hfresh : ((d.registered kind role).obj d.objects.length).scalar = .blank kind := by
        simp [registered, obj, Obj.scalar, Obj.fresh, Scalar.blank]
      rw [hnew, obj_modifyObj_self (by rw [hlen]; exact Nat.lt_succ_self _)]
      exact hborn kind parent f hB _ ((hobj _).trans hfresh)
    · have hold : j < d.objects.length := by
        have := Nat.lt_succ_iff.1 hj
        exact lt_of_le_of_ne this hnew
      rw [obj_modifyObj_ne (Ne.symm hnew), hobj, obj_registered d kind role hold]
      exact hall j hold

end All

namespace Changes

variable {d d' : Device K} {fx : Effects} {B : Births} {t : ObjRef}

/-- What no step changes of the objects there are, their links apart. -/
theorem oldFrame (h : Changes d fx B d') (ht : t < d.objects.length) {α : Type} {p : Obj → α}
    (hframe : ∀ o, p o.frame = p o) (hchildren : ∀ o cs, p { o with children := cs } = p o)
    (howner : ∀ o n, p { o with ownerOno := n } = p o) : p (d'.obj t) = p (d.obj t) := by
  have hstores {e e' : Device K} {fx : Effects} (h : Stores e e' fx) :
      p (e'.obj t) = p (e.obj t) := by rw [← hframe, h.frame, hframe]
  cases h with
  | stores h => exact hstores h
  | full hfull h => exact hstores (e := { d with nextOno := d.nextOno + 1 }) h
  | @added kind parent f role i e _ hB halloc h =>
    obtain ⟨-, hi, -⟩ := objectAlloc_some halloc
    have hp := hstores h
    rw [obj_modifyObj_ne (by rw [hi]; exact ht.ne')] at hp
    exact hp.trans (obj_objectAlloc hchildren howner halloc ht)

/-- The objects there are stay. -/
theorem old (h : Changes d fx B d') (ht : t < d.objects.length) : t < d'.objects.length ∧
    (d'.obj t).ono = (d.obj t).ono ∧ (d'.obj t).kind = (d.obj t).kind := by
  refine ⟨?_, ?_, ?_⟩
  · cases h with
    | stores h => exact h.length ▸ ht
    | full hfull h => exact h.length ▸ ht
    | @added kind parent f role i e _ hB halloc h =>
      obtain ⟨-, -, he⟩ := objectAlloc_some halloc
      rw [h.length, length_modifyObj, he, length_blockAddMember]
      simpa [registered] using Nat.lt_succ_of_lt ht
  · exact h.oldFrame (p := Obj.ono) ht (fun _ => by rfl) (fun _ _ => by rfl) fun _ _ => by rfl
  · exact h.oldFrame (p := Obj.kind) ht (fun _ => by rfl) (fun _ _ => by rfl) fun _ _ => by rfl

/-- The values of the objects there are are those `fx` stores last. -/
theorem oldNum (h : Changes d fx B d') (ht : t < d.objects.length) :
    (d'.obj t).num = (lastWrite fx.nums t).getD (d.obj t).num ∨
      (d'.obj t).num = (d.obj t).num := by
  cases h with
  | stores h => exact .inl (h.num t ht)
  | full hfull h => exact .inr (h.num t ht)
  | @added kind parent f role i e _ hB halloc h =>
    obtain ⟨-, hi, he⟩ := objectAlloc_some halloc
    have hlen : t < (e.modifyObj i f).objects.length := by
      rw [length_modifyObj, he, length_blockAddMember]
      simpa [registered] using Nat.lt_succ_of_lt ht
    have hnum : (e.obj t).num = (d.obj t).num :=
      obj_objectAlloc (p := Obj.num) (fun _ _ => by rfl) (fun _ _ => by rfl) halloc ht
    refine .inr ((h.num t hlen).trans ?_)
    rw [obj_modifyObj_ne (by rw [hi]; exact ht.ne')]
    exact hnum

/-- The parameters of the objects there are written as `fx` says. -/
theorem oldPriv (h : Changes d fx B d') (ht : t < d.objects.length)
    (hk : dspIsDspKind (d.obj t).kind = true) : (d'.obj t).priv = fx.priv t (d.obj t).priv ∨
      (d'.obj t).priv = (d.obj t).priv := by
  cases h with
  | stores h => exact .inl (h.priv t ht hk)
  | full hfull h => exact .inr (h.priv t ht hk)
  | @added kind parent f role i e _ hB halloc h =>
    obtain ⟨-, hi, he⟩ := objectAlloc_some halloc
    have hne : i ≠ t := by
      rw [hi]
      exact ht.ne'
    have hlen : t < (e.modifyObj i f).objects.length := by
      rw [length_modifyObj, he, length_blockAddMember]
      simpa [registered] using Nat.lt_succ_of_lt ht
    have hkind : (e.obj t).kind = (d.obj t).kind :=
      obj_objectAlloc (p := Obj.kind) (fun _ _ => by rfl) (fun _ _ => by rfl) halloc ht
    have hpriv : (e.obj t).priv = (d.obj t).priv :=
      obj_objectAlloc (p := Obj.priv) (fun _ _ => by rfl) (fun _ _ => by rfl) halloc ht
    refine .inr ((h.priv t hlen ?_).trans ?_)
    · rw [obj_modifyObj_ne hne, hkind]
      exact hk
    · rw [obj_modifyObj_ne hne]
      exact hpriv

/-- An object that was not there is made as `B` says. -/
theorem new (h : Changes d fx B d') (ht : t < d'.objects.length) (hnew : d.objects.length ≤ t) :
    ∃ k p f o, B k p f ∧ o.kind = k ∧ (d'.obj t).kind = (f o).kind := by
  cases h with
  | stores h => exact absurd (h.length ▸ ht) (Nat.not_lt.2 hnew)
  | full hfull h => exact absurd (h.length ▸ ht) (Nat.not_lt.2 hnew)
  | @added kind parent f role i e _ hB halloc h =>
    obtain ⟨-, hi, he⟩ := objectAlloc_some halloc
    have hlen : e.objects.length = d.objects.length + 1 := by
      rw [he, length_blockAddMember]
      simp [registered]
    rw [h.length, length_modifyObj, hlen] at ht
    obtain rfl : t = i := by
      rw [hi]
      exact Nat.le_antisymm (Nat.lt_succ_iff.1 ht) hnew
    have hkind := congrArg Obj.kind (h.frame t)
    refine ⟨kind, parent, f, e.obj t, hB, ?_, ?_⟩
    · rw [he, obj_blockAddMember (p := Obj.kind) (fun _ _ => by rfl) (fun _ _ => by rfl), hi]
      simp [registered, obj, Obj.fresh]
    · rw [obj_modifyObj_self (by rw [hlen]; exact ht)] at hkind
      exact hkind

end Changes

/-! ### Commits -/

section Commits

variable {d : Device K} {conn : ℕ} {cmd : Command} {rd : Reader}

/-- The command is let through and sets object `j` to `v`. -/
def Device.Sets (d : Device K) (conn : ℕ) (cmd : Command) (rd : Reader) (j : ObjRef) (v : F64) :
    Prop :=
  d.find cmd.target = some j ∧
    ({ d with activeConn := some conn } : Device K).gate j cmd.level cmd.index = none ∧
      primaryProperty (d.obj j).kind = some (cmd.level, 1) ∧ cmd.index = 2 ∧
        setting (d.obj j) rd = some v

/-- The command is a recall, let through, with the value `v` for object `t`. -/
def Device.RecallsTo (d : Device K) (conn : ℕ) (cmd : Command) (rd : Reader) (t : ObjRef)
    (v : F64) : Prop :=
  ∃ b, d.find cmd.target = some b ∧
    ({ d with activeConn := some conn } : Device K).gate b cmd.level cmd.index = none ∧
      (d.obj b).kind = .block ∧ cmd.level = 3 ∧ cmd.index = 26 ∧
        ∃ es truncated ono p, recallParams rd = some (es, truncated) ∧ (ono, v) ∈ es ∧
          recallTarget d ono = some (t, p)

theorem mem_of_lastWrite {ws : List (ObjRef × F64)} {i : ObjRef} {v : F64}
    (h : lastWrite ws i = some v) : (i, v) ∈ ws := by
  obtain ⟨w, hw, rfl⟩ := Option.map_eq_some_iff.1 h
  have hi : w.1 = i := by simpa using List.find?_some hw
  exact hi ▸ List.mem_reverse.1 (List.mem_of_find?_eq_some hw)

/-- **A value a command writes** is committed by a setter or a recall. -/
theorem mem_commandEffects {w : ObjRef × F64} (h : w ∈ (d.commandEffects conn cmd rd).nums) :
    (∃ j v, d.Sets conn cmd rd j v ∧ w ∈ d.commitWrites j v) ∨
      ∃ t v, d.RecallsTo conn cmd rd t v ∧ w ∈ d.commitWrites t (clampToRange (d.obj t) v) := by
  unfold commandEffects at h
  cases hf : d.find cmd.target with
  | none =>
    rw [hf] at h
    exact absurd h List.not_mem_nil
  | some j =>
    rw [hf] at h
    dsimp only at h
    split at h
    · exact absurd h List.not_mem_nil
    next hgate =>
    rw [not_not] at hgate
    split at h
    next hb =>
      refine .inr ?_
      cases hps : recallParams rd with
      | none =>
        rw [hps] at h
        exact absurd h List.not_mem_nil
      | some r =>
        rw [hps] at h
        obtain ⟨e, he, hw⟩ := List.mem_flatMap.1 h
        unfold entryStores at hw
        split at hw
        next t p ht =>
          exact ⟨t, e.2, ⟨j, hf, hgate, hb.1, hb.2.1, hb.2.2, r.1, r.2, e.1, p, hps, he, ht⟩, hw⟩
        · exact absurd hw List.not_mem_nil
    split at h
    next hs =>
      refine .inl ?_
      cases hset : setting (d.obj j) rd with
      | none =>
        rw [hset] at h
        exact absurd h List.not_mem_nil
      | some v =>
        rw [hset] at h
        exact ⟨j, v, ⟨hf, hgate, hs.1, hs.2, hset⟩, h⟩
    split at h <;> exact absurd h List.not_mem_nil

/-- The command is let through and writes a parameter of the DSP object `j`. -/
def Device.Writes (d : Device K) (conn : ℕ) (cmd : Command) (rd : Reader) (j : ObjRef)
    (w : ParamWrite) : Prop :=
  d.find cmd.target = some j ∧
    ({ d with activeConn := some conn } : Device K).gate j cmd.level cmd.index = none ∧
      cmd.level = 4 ∧ dspIsDspKind (d.obj j).kind = true ∧
        dspSetting (d.obj j) cmd.index rd = some w

/-- **A parameter a command writes** is written by a method of its class. -/
theorem param_commandEffects {j : ObjRef} {w : ParamWrite}
    (h : (d.commandEffects conn cmd rd).param = some (j, w)) : d.Writes conn cmd rd j w := by
  unfold commandEffects at h
  cases hf : d.find cmd.target with
  | none =>
    rw [hf] at h
    cases h
  | some t =>
    rw [hf] at h
    dsimp only at h
    split at h
    · cases h
    next hgate =>
    split at h
    · cases h
    split at h
    · cases h
    split at h
    next hdsp =>
      obtain ⟨w', hset, heq⟩ := Option.map_eq_some_iff.1 h
      obtain ⟨rfl, rfl⟩ := Prod.mk.inj heq
      exact ⟨hf, not_not.1 hgate, hdsp.1, hdsp.2, hset⟩
    · cases h

/-- **A parameter a set request writes** is the one it selects. -/
theorem param_requestEffects {req : SetReq} {j : ObjRef} {w : ParamWrite}
    (h : (d.requestEffects req).param = some (j, w)) :
    d.find req.ono = some j ∧ w = ⟨req.sel, req.num, req.num2⟩ := by
  unfold requestEffects at h
  cases hf : d.find req.ono with
  | none =>
    rw [hf] at h
    cases h
  | some t =>
    rw [hf] at h
    dsimp only at h
    split at h
    · obtain ⟨w', hwrite, heq⟩ := Option.map_eq_some_iff.1 h
      obtain ⟨rfl, rfl⟩ := Prod.mk.inj heq
      unfold SetReq.write at hwrite
      split_ifs at hwrite
      exact ⟨rfl, (Option.some.inj hwrite).symm⟩
    split at h <;> cases h

/-- **A value a set request writes** is its own, clamped. -/
theorem mem_requestEffects {req : SetReq} {w : ObjRef × F64} (h : w ∈ (d.requestEffects req).nums) :
    ∃ j, d.find req.ono = some j ∧ req.isString = false ∧ w = (j, clampSet (d.obj j) req.num) := by
  unfold requestEffects at h
  cases hf : d.find req.ono with
  | none =>
    rw [hf] at h
    exact absurd h List.not_mem_nil
  | some j =>
    rw [hf] at h
    dsimp only at h
    split at h
    · exact absurd h List.not_mem_nil
    split at h
    next hs => exact ⟨j, rfl, hs.2, List.mem_singleton.1 h⟩
    · exact absurd h List.not_mem_nil

end Commits

end Aes70
