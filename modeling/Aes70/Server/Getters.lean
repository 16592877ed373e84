import Aes70.Router.Bounds
import Aes70.Router.Getters
import Aes70.Server.Callback
import Aes70.Server.Outgoing

/-!
# What is announced can be asked for

Every notification the device sends, for a command or for a set request of a typed setter, is about
a property that its class knows and that a getter reads. A controller that asks for the property
right away gets the bytes of the notification.

* `Event.Gettable` : a notification, if it is one, is about such a property.
* `Outcome.gettable`, `gettable_applySet` : the notifications of a command and of a set request.
* `notifications_match_getters` : they are about nothing else, and getters agree with them.
-/

namespace Aes70

open Handler

variable {K : Kconfig} {d d' : Device K} {i : ObjRef} {level index : UInt16}

/-! ### Parameter writes -/

section Parameters

variable {o : Obj} {idx : UInt16} {rd : Reader} {w : ParamWrite}

/-- A method of a DSP class writes a parameter of its class. -/
theorem dspSetting_sel (h : dspSetting o idx rd = some w) :
    w.sel.kind = some o.kind ∧ o.dspState = true := by
  unfold dspSetting at h
  unfold Obj.dspState
  split at h
  case h_6 => cases h
  all_goals
    next s hk hp =>
    rw [hk]
    refine ⟨?_, rfl⟩
    first
      | unfold DynState.setting at h
      | unfold FltState.setting at h
      | unfold PeqState.setting at h
      | unfold PanState.setting at h
      | unfold SigState.setting at h
    split at h
    all_goals first
      | obtain rfl := Option.some.inj h -- Start and Stop of the generator
        rfl
      | cases h
      | obtain ⟨_, -, rfl⟩ := acceptedWrite_some h
        rfl

/-- The typed setters write parameters of the class of their object. -/
theorem TypedSet.sel {req : SetReq} (h : TypedSet o req) (hk : dspIsDspKind o.kind = true) :
    req.sel.kind = some o.kind := by
  cases h with
  | dynFloat h hs | fltByte h hs | peqFloat h hs | sigFloat h hs =>
    simp only [List.mem_cons, List.not_mem_nil, or_false] at hs
    rw [h]
    rcases hs with rfl | rfl | rfl | rfl | rfl <;> rfl
  | _ h =>
    rw [h] at hk ⊢
    first
      | rfl
      | cases hk

end Parameters

/-! ### Notifications -/

/-- If the event is a notification, it is about a property that a getter reads. -/
def Event.Gettable (e : Event) : Prop :=
  ∀ i o level index sent, e = .propertyChanged i o level index sent →
    ∃ m, o.Announces (level, index) m

/-- All notifications on the way from `d` to `d'` are about properties that getters read. -/
def Gettable (d d' : Device K) : Prop := Log.Grows Event.Gettable d.log d'.log

theorem gettable_notify (h : ∃ m, (d.obj i).Announces (level, index) m) :
    Gettable d (d.notify i level index) := by
  refine Device.grows_notify (fun _ _ _ _ _ _ _ _ _ h => by cases h) ?_
  rintro _ _ _ _ _ ⟨⟩
  exact h

theorem gettable_emit {e : Event}
    (h : ∀ i o level index sent, e ≠ .propertyChanged i o level index sent) (d : Device K) :
    Gettable d (d.emit e) :=
  .concat (fun _ _ _ _ _ he => absurd he (h _ _ _ _ _)) d.log

theorem gettable_controlChanged (d : Device K) (i : ObjRef) : Gettable d (d.controlChanged i) := by
  unfold Device.controlChanged
  split_ifs
  · exact gettable_emit (fun _ _ _ _ _ h => by cases h) d
  · exact .refl _

/-- A store that keeps what is announced, and its notification. -/
theorem gettable_store {f : Obj → Obj}
    (h : ∃ m, ((d.modifyObj i f).obj i).Announces (level, index) m) :
    Gettable d ((d.modifyObj i f).notify i level index) := by
  have hnotify := gettable_notify h
  exact hnotify

/-! ### Commits -/

/-- The value of an object of the kind is announced. -/
theorem announces_value {o : Obj} {kind : Kind} (hk : o.kind = kind)
    (hp : primaryProperty kind = some (level, index)) : ∃ m, o.Announces (level, index) m :=
  ⟨_, .value (hk ▸ hp)⟩

theorem gettable_grouperOnCommit (d : Device K) (i : ObjRef) :
    Gettable d (d.grouperOnCommit i) := by
  unfold Device.grouperOnCommit
  split
  next level index hp =>
    -- copies leave the kinds alone
    have hall : Gettable d ((d.fanTargets i).foldl (Device.copyToCitizen i level index) d) ∧
        ∀ j, (((d.fanTargets i).foldl (Device.copyToCitizen i level index) d).obj j).kind =
          (d.obj j).kind := by
      refine List.foldlRecOn (motive := fun d' => Gettable d d' ∧ ∀ j, (d'.obj j).kind =
        (d.obj j).kind) _ _ ⟨.refl _, fun _ => rfl⟩ fun d' ih c hc => ?_
      have hkind (j : ObjRef) : ((d'.modifyObj c fun o => { o with num := (d'.obj i).num }).obj
          j).kind = (d.obj j).kind :=
        (Device.obj_modifyObj_congr Obj.kind (fun _ => by rfl) d' c j).trans (ih.2 j)
      refine ⟨ih.1.trans ?_, ?_⟩
      · refine Log.Grows.trans (gettable_store ?_) (gettable_controlChanged _ c)
        exact announces_value ((hkind c).trans (Device.mem_fanTargets hc).2.1) hp
      · intro j
        unfold Device.copyToCitizen
        rw [Device.obj_controlChanged, Device.obj_notify]
        exact hkind j
    exact hall.1
  next => exact .refl _

theorem gettable_commitNum (hp : primaryProperty (d.obj i).kind = some (level, index)) (v : F64)
    (fromController : Bool) : Gettable d (d.commitNum i v level index fromController) := by
  have hstore : Gettable d ((d.modifyObj i fun o => { o with num := v }).notify i level index) :=
    gettable_store
      (announces_value (Device.obj_modifyObj_congr Obj.kind (fun _ => by rfl) d i i) hp)
  unfold Device.commitNum
  dsimp only
  split_ifs
  · exact (hstore.trans (gettable_controlChanged _ i)).trans (gettable_grouperOnCommit _ i)
  · exact hstore

theorem gettable_commitStr (hp : primaryProperty (d.obj i).kind = some (level, index)) (s : Bytes)
    (fromController : Bool) : Gettable d (d.commitStr i s level index fromController) := by
  have hstore : Gettable d ((d.modifyObj i fun o => { o with str := some s }).notify i level
      index) :=
    gettable_store
      (announces_value (Device.obj_modifyObj_congr Obj.kind (fun _ => by rfl) d i i) hp)
  unfold Device.commitStr
  dsimp only
  split_ifs
  · exact hstore.trans (gettable_controlChanged _ i)
  · exact hstore

theorem gettable_recall (d : Device K) (es : List (UInt32 × F64)) : Gettable d (d.recall es) :=
  Device.recall_rel (fun _ => .refl _) .trans
    (fun _ _ _ _ v _ hp _ => gettable_commitNum hp v true) d es

/-! ### Operations -/

/-- A parameter write keeps the kind of the private state. -/
theorem dspState_write (o : Obj) (w : ParamWrite) :
    ({ o with priv := o.priv.write w } : Obj).dspState = o.dspState := by
  unfold Obj.dspState Priv.write
  cases o.kind <;> cases o.priv <;> rfl

/-- A parameter write of the class, to an object with its state. -/
theorem gettable_param {w : ParamWrite} (hsel : w.sel.kind = some (d.obj i).kind)
    (hs : (d.obj i).dspState = true) (b : Bool) : Gettable d (d.param i b (some w)) := by
  have hstore : Gettable d
      ((d.modifyObj i fun o => { o with priv := (d.obj i).priv.write w }).notify i
        (selToProp w.sel).1 (selToProp w.sel).2) := by
    refine gettable_store ⟨(4, w.sel.getter), ?_⟩
    have hprop : ∀ o, o = d.obj i ∨ o = { d.obj i with priv := (d.obj i).priv.write w } →
        o.Announces (selToProp w.sel) (4, w.sel.getter) := by
      rintro o (rfl | rfl)
      · exact .parameter hsel hs
      · exact .parameter hsel ((dspState_write _ w).trans hs)
    rw [Device.obj_modifyObj]
    split_ifs
    · exact hprop _ (.inr rfl)
    · exact hprop _ (.inl rfl)
  change Gettable d (Device.notifyAfterWrite _ i w.sel b)
  unfold Device.notifyAfterWrite
  dsimp only
  split_ifs
  · exact hstore.trans (gettable_controlChanged _ i)
  · exact hstore

/-- A command, but for the parameter writes of the DSP classes. -/
theorem Outcome.gettable {st : Status} (h : Outcome d i level index st d')
    (hdsp : ¬(level = 4 ∧ dspIsDspKind (d.obj i).kind = true)) : Gettable d d' := by
  have hsame {e : Device K} (hlog : e.log = d.log) : Gettable d e := by rw [Gettable, hlog]
  cases h with
  | same => exact .refl _
  | enabled v hk =>
    refine gettable_store ⟨_, .enabled ?_⟩
    rwa [Device.obj_modifyObj_congr Obj.kind fun _ => by rfl]
  | label s hs hk =>
    refine gettable_store ⟨_, .label ?_⟩
    rwa [Device.obj_modifyObj_congr Obj.kind fun _ => by rfl]
  | num v hm hp => exact gettable_commitNum hp v true
  | str s hs hk => exact gettable_commitStr (by rw [hk]; rfl) s true
  | dsp p sel hm hk => exact absurd ⟨hm, hk⟩ hdsp
  | «recall» es | truncatedRecall es => exact gettable_recall d es
  | deviceName s hk =>
    have hnotify := gettable_notify (d := { d with deviceName := strlcpy 64 s }) ⟨_, .deviceName hk⟩
    exact hnotify
  | deviceRole s hk =>
    have hnotify := gettable_notify (d := { d with deviceRole := strlcpy 48 s }) ⟨_, .deviceRole hk⟩
    exact hnotify
  | addGroup g slot name hk h =>
    refine hsame ?_
    rw [(Device.eq_of_objectAlloc h).1]
    rfl
  | _ => exact hsame rfl

theorem dispatch_gettable (i : ObjRef) (level index : UInt16) (c : Call K) :
    Gettable c.dev (objectDispatch i level index c).2.dev := by
  by_cases hdsp : level = 4 ∧ dspIsDspKind (c.dev.obj i).kind = true
  · obtain ⟨rfl, hk⟩ := hdsp
    obtain ⟨h, hh⟩ := handlerFor_dsp (K := K) hk
    cases hg : c.dev.gate i 4 index with
    | some st =>
      rw [objectDispatch_of_gate hg rfl]
      exact .refl _
    | none =>
      have hwrite : WritesAt (h i index) c i (dspSetting (c.dev.obj i) index c.rd) :=
        dspDispatch_writesAt hh hk rfl
      rw [objectDispatch_of_handler hh hg rfl, hwrite]
      cases hw : dspSetting (c.dev.obj i) index c.rd with
      | none => exact .refl _
      | some w => exact gettable_param (dspSetting_sel hw).1 (dspSetting_sel hw).2 true
  · exact (objectDispatch_outcome i level index c rfl).gettable hdsp

theorem execCommand_gettable (conn : ℕ) (cmd : Command) (c : Call K) :
    Gettable c.dev (execCommand conn cmd c).2.dev := by
  have hrecord (e : Device K) (st : Status) : Gettable e (e.emit (.command conn cmd st)) :=
    gettable_emit (fun _ _ _ _ _ h => by cases h) e
  refine execCommand_keeps (fun e st he => Log.Grows.trans he (hrecord e st)) (.refl _) ?_
  intro i _
  exact dispatch_gettable i cmd.level cmd.index c

/-- A set request of a typed setter. -/
theorem gettable_applySet {req : SetReq} (ht : ∀ i ∈ d.find req.ono, TypedSet (d.obj i) req) :
    Gettable d (d.applySet req) := by
  cases hf : d.find req.ono with
  | none =>
    have hsame : d.applySet req = d := by simp only [Device.applySet, hf]
    rw [hsame]
    exact .refl _
  | some i =>
    cases hdsp : dspIsDspKind (d.obj i).kind with
    | true =>
      rw [applySet_dsp hf hdsp]
      unfold SetReq.write
      split_ifs with hs
      · exact gettable_param (w := ⟨req.sel, req.num, req.num2⟩) ((ht i hf).sel hdsp) hs false
      · exact .refl _
    | false =>
      obtain hsame | ⟨level, index, hp, hstr | hnum⟩ := applySet_scalar hf hdsp
      · rw [hsame]
        exact .refl _
      · rw [hstr]
        exact gettable_commitStr hp req.str false
      · rw [hnum]
        exact gettable_commitNum hp _ false

/-! ### Runs -/

/-- A set request is one that a typed setter builds for the object it is for. -/
def Turn.Typed (d : Device K) : Turn K → Prop
  | .set req => ∀ i ∈ d.find req.ono, TypedSet (d.obj i) req
  | _ => True

/-- What one turn adds to the log. -/
theorem gettable_turn {t : Turn K} (h : t.Legal d) (ht : t.Typed d) : Gettable d (t.run d) := by
  have hsame {e : Device K} (hlog : e.log = d.log) : Gettable d e := by rw [Gettable, hlog]
  cases t with
  | create call parent role =>
    obtain ⟨objects, next, he⟩ := d.create_eq call parent role
    have hlog := congrArg Device.log he
    exact hsame hlog
  | setMember i x y member =>
    obtain ⟨objects, he⟩ := d.matrixSetMember_eq i x y member
    have hlog := congrArg Device.log he
    exact hsame hlog
  | command conn cmd params =>
    exact execCommand_gettable conn cmd
      ⟨{ d with activeConn := some conn }, params, Writer.init K.txBufferSize, 0⟩
  | set req => exact gettable_applySet ht
  | send c frame => exact Device.grows_connSend (fun _ _ _ _ _ _ h => by cases h) d
  | session d' =>
    refine (Beside.log h).mono fun e he => ?_
    rintro _ _ _ _ _ rfl
    cases he

/-- **Getters agree with notifications.** Where the application uses its typed setters, every
notification is about a property of its class that a getter reads; and in every state the response
of the getter is what a notification would carry, which is never empty, with the minimum and the
maximum of the property behind it where it has some. -/
theorem notifications_match_getters (d : Device K) :
    (((turns K).restrict fun d t => t.Typed d).Reach d → ∀ e ∈ d.log, e.Gettable) ∧
    ∀ i prop m, (d.obj i).Announces prop m → ∃ v, d.wireProperty i prop.1 prop.2 = some v ∧ v ≠ [] ∧
      ∀ (room conn : ℕ) (cmd : Command) (rd : Reader), d.find cmd.target = some i →
        (cmd.level, cmd.index) = m →
          let bounds := (d.obj i).getterBounds m
          let a := answer room conn cmd rd d
          a.response.status = .ok ∧ a.response.paramCount = getterCount bounds ∧
            (a.overflow = false → a.response.params = v ++ Field.encodeAll bounds) ∧
              (v.length + 16 ≤ room → a.overflow = false) := by
  refine ⟨fun h => ?_, fun i prop m hann => answer_announced hann⟩
  refine h.invariant (I := fun d : Device K => ∀ e ∈ d.log, e.Gettable) (fun d hd => ?_)
    fun d t _ ih ht => ?_
  · obtain ⟨cfg, net, hstart⟩ := hd
    obtain ⟨e, rfl⟩ := start_eq hstart
    exact fun e he => absurd he List.not_mem_nil
  · exact (gettable_turn ht.1 ht.2).forall_mem ih

namespace Sample

/-- `SetDynamicGainCeiling` of the compressor, to 6 dB. -/
def setCeiling : Turn .default :=
  .command 0 ⟨1, 4096, 4, 22, 1, [0x40, 0xC0, 0, 0]⟩ (Reader.ofBytes [0x40, 0xC0, 0, 0])

theorem reach_setCeiling : ((turns .default).restrict fun d t => t.Typed d).Reach
    (setCeiling.run compressor) := by
  have hstart : ((turns .default).restrict fun d t => t.Typed d).Reach start :=
    .init ⟨config, net, (Option.some_get _).symm⟩
  have hcreate : (Turn.create (.dynamics 1) none (ascii "compressor")).Legal start := by
    intro b h
    cases h
  have hcompressor : ((turns .default).restrict fun d t => t.Typed d).Reach compressor :=
    hstart.step (i := Turn.create (.dynamics 1) none (ascii "compressor")) ⟨hcreate, trivial⟩
  have hlegal : setCeiling.Legal compressor := ⟨rfl, _, rfl, Ptr.read_ofBytes _ _⟩
  exact hcompressor.step (i := setCeiling) ⟨hlegal, trivial⟩

/-- Property 11 is the ceiling, which method 21 gets; its bounds are -40 and 24 dB. -/
theorem getter_matches_ceiling :
    (∀ e ∈ (setCeiling.run compressor).log, e.Gettable) ∧
    ∃ v, (setCeiling.run compressor).wireProperty 3 4 11 = some v ∧ v ≠ [] ∧
      (answer 512 0 ⟨2, 4096, 4, 21, 0, []⟩ (Reader.ofBytes [])
        (setCeiling.run compressor)).response.params =
          v ++ [0xC2, 0x20, 0, 0, 0x41, 0xC0, 0, 0] := by
  have hann : ((setCeiling.run compressor).obj 3).Announces (4, 11) (4, 21) :=
    Obj.Announces.parameter (show Sel.dynGainCeiling.kind = _ by decide) (by decide)
  have hbounds : Field.encodeAll (((setCeiling.run compressor).obj 3).getterBounds (4, 21)) =
      [0xC2, 0x20, 0, 0, 0x41, 0xC0, 0, 0] := by decide +kernel
  obtain ⟨hlog, hgetters⟩ := notifications_match_getters (setCeiling.run compressor)
  obtain ⟨v, hv, hne, hanswer⟩ := hgetters 3 (4, 11) (4, 21) hann
  obtain ⟨-, -, hparams, -⟩ :=
    hanswer 512 0 ⟨2, 4096, 4, 21, 0, []⟩ (Reader.ofBytes []) (by decide) rfl
  rw [hbounds] at hparams
  exact ⟨hlog reach_setCeiling, v, hv, hne, hparams (by decide)⟩

end Sample

end Aes70
