import Aes70.Class.Recall
import Aes70.Device.Delivery

/-!
# What the application is told of changes

The application drives its audio from the values of the objects, which it reads when
`on_control_changed` is called. A change that no call follows would never be heard.

* `lastCall es i` : the object as it was at the last call about it.
* `Follows d d'` : every change between `d` and `d'` was followed by a call, and the last call about
  an object already found it as it is in `d'`.
* `follows_store` : a store and the call behind it.
* `follows_commitNum`, `follows_recall` : so do all copies of a commit and all entries of a recall.
* `Uncalled d d'` : nothing was called.
-/

namespace Aes70

variable {K : Kconfig}

/-! ### Calls -/

/-- The value of an object: its number, its text and the parameters of a DSP class. -/
def Obj.controlValue (o : Obj) : F64 × Option Bytes × Priv :=
  (o.num, o.str, if dspIsDspKind o.kind then o.priv else .null)

/-- The object `i`, as `on_control_changed` finds it in this call. -/
def Event.calledAbout (i : ObjRef) : Event → Option Obj
  | .controlChanged j o => if j = i then some o else none
  | _ => none

/-- The object `i` as the last call about it found it. -/
def lastCall (es : List Event) (i : ObjRef) : Option Obj :=
  (es.filterMap (Event.calledAbout i)).getLast?

section LastCall

variable {es es' : List Event} {i j : ObjRef} {o : Obj}

theorem lastCall_append : lastCall (es ++ es') i = (lastCall es' i).or (lastCall es i) := by
  rw [lastCall, List.filterMap_append, List.getLast?_append]
  rfl

theorem lastCall_concat_self : lastCall (es ++ [.controlChanged i o]) i = some o := by
  simp [lastCall, Event.calledAbout]

theorem lastCall_concat_ne (h : j ≠ i) :
    lastCall (es ++ [.controlChanged j o]) i = lastCall es i := by
  simp [lastCall, Event.calledAbout, h]

theorem lastCall_of_uncalled (h : ∀ e ∈ es, ∀ j o, e ≠ .controlChanged j o) :
    lastCall es i = none := by
  have hnone : es.filterMap (Event.calledAbout i) = [] := by
    refine List.filterMap_eq_nil_iff.2 fun e he => ?_
    cases e with
    | controlChanged j o => exact absurd rfl (h _ he j o)
    | _ => rfl
  rw [lastCall, hnone]
  rfl

end LastCall

/-! ### Devices -/

/-- Nothing was called on the way from `d` to `d'`. -/
def Uncalled (d d' : Device K) : Prop :=
  Log.Grows (fun e => ∀ j o, e ≠ .controlChanged j o) d.log d'.log

/-- Calls that tell of the change of `o` to `o'`: the last one finds the value of `o'`, and if there
is none the value is the same. -/
def Told (o o' : Obj) : Option Obj → Prop
  | some p => p.controlValue = o'.controlValue ∧ p.tag = o.tag
  | none => o'.controlValue = o.controlValue

/-- The devices differ by value changes and output, and the application, where it has set the
callback, was told of every change. -/
structure Follows (d d' : Device K) : Prop where
  cfg : d'.cfg = d.cfg
  length : d.objects.length ≤ d'.objects.length
  tag : ∀ i < d.objects.length, (d'.obj i).tag = (d.obj i).tag
  told : ∃ es, d'.log = d.log ++ es ∧ (d.cfg.onControlChanged = true →
    ∀ i < d.objects.length, Told (d.obj i) (d'.obj i) (lastCall es i))

variable {d d' d'' : Device K} {i : ObjRef} {level index : UInt16}

namespace Follows

theorem trans (h : Follows d d') (h' : Follows d' d'') : Follows d d'' where
  cfg := h'.cfg.trans h.cfg
  length := h.length.trans h'.length
  tag i hi := (h'.tag i (hi.trans_le h.length)).trans (h.tag i hi)
  told := by
    obtain ⟨es, hes, htold⟩ := h.told
    obtain ⟨es', hes', htold'⟩ := h'.told
    refine ⟨es ++ es', by rw [hes', hes, List.append_assoc], fun hon i hi => ?_⟩
    have hfirst := htold hon i hi
    have hlast := htold' (h.cfg ▸ hon) i (hi.trans_le h.length)
    rw [lastCall_append]
    cases hcall : lastCall es' i with
    | some p =>
      -- the last call is one of the second half
      rw [hcall] at hlast
      exact ⟨hlast.1, hlast.2.trans (h.tag i hi)⟩
    | none =>
      rw [hcall] at hlast
      have hsame : (d''.obj i).controlValue = (d'.obj i).controlValue := hlast
      cases hcall' : lastCall es i with
      | some p =>
        rw [hcall'] at hfirst
        exact ⟨hfirst.1.trans hsame.symm, hfirst.2⟩
      | none =>
        rw [hcall'] at hfirst
        exact hsame.trans hfirst

/-- No value changes, and nothing is called. -/
theorem of_same (hcfg : d'.cfg = d.cfg) (hlen : d.objects.length ≤ d'.objects.length)
    (hobj : ∀ i < d.objects.length, (d'.obj i).tag = (d.obj i).tag ∧
      (d'.obj i).controlValue = (d.obj i).controlValue) (hlog : Uncalled d d') :
    Follows d d' where
  cfg := hcfg
  length := hlen
  tag i hi := (hobj i hi).1
  told := by
    obtain ⟨es, hes, hun⟩ := hlog
    refine ⟨es, hes, fun _ i hi => ?_⟩
    rw [lastCall_of_uncalled hun]
    exact (hobj i hi).2

theorem of_core (hcore : d'.core = d.core) (hlog : Uncalled d d') : Follows d d' :=
  .of_same (by
    have := congrArg Device.cfg hcore
    exact this) (Device.objects_eq_of_core hcore ▸ le_rfl)
    (fun i _ => by rw [Device.obj_eq_of_core hcore]; exact ⟨rfl, rfl⟩) hlog

theorem refl (d : Device K) : Follows d d := of_core rfl (.refl _)

theorem foldl {α : Type} {f : Device K → α → Device K} {l : List α}
    (h : ∀ d', ∀ a ∈ l, Follows d d' → Follows d' (f d' a)) : Follows d (l.foldl f d) :=
  List.foldlRecOn (motive := fun d' => Follows d d') _ _ (.refl d)
    fun d' ih a ha => ih.trans (h d' a ha ih)

end Follows

/-! ### Stores -/

theorem uncalled_notify (d : Device K) (i : ObjRef) (level index : UInt16) :
    Uncalled d (d.notify i level index) :=
  Device.grows_notify (fun _ _ _ _ _ _ h => by cases h) fun _ _ h => by cases h

/-- A store, its notification, and the call. -/
theorem follows_store {f : Obj → Obj} (htag : ∀ o, (f o).tag = o.tag) :
    Follows d (((d.modifyObj i f).notify i level index).controlChanged i) where
  cfg := by
    have hcore := (Device.core_controlChanged ((d.modifyObj i f).notify i level index) i).trans
      (Device.core_notify (d.modifyObj i f) i level index)
    have hcfg := congrArg Device.cfg hcore
    exact hcfg
  length := by
    rw [Device.objects_eq_of_core (Device.core_controlChanged _ i),
      Device.objects_eq_of_core (Device.core_notify _ i level index), Device.length_modifyObj]
  tag j _ := by
    rw [Device.obj_controlChanged, Device.obj_notify, Device.obj_modifyObj_congr Obj.tag htag]
  told := by
    obtain ⟨es, hes, hun⟩ := uncalled_notify (d.modifyObj i f) i level index
    have hobj (j : ObjRef) : (((d.modifyObj i f).notify i level index).controlChanged i).obj j =
        (d.modifyObj i f).obj j := by rw [Device.obj_controlChanged, Device.obj_notify]
    have hcfg : ((d.modifyObj i f).notify i level index).cfg = d.cfg := by
      have hcfg := congrArg Device.cfg (Device.core_notify (d.modifyObj i f) i level index)
      exact hcfg
    by_cases hon : d.cfg.onControlChanged = true
    · refine ⟨es ++ [.controlChanged i (((d.modifyObj i f).notify i level index).obj i)], ?_, ?_⟩
      · rw [Device.controlChanged, hcfg, if_pos hon, Device.emit, hes, List.append_assoc]
        rfl
      · intro _ j hj
        rw [hobj]
        by_cases hij : i = j
        · subst hij
          rw [lastCall_concat_self, Device.obj_notify]
          exact ⟨rfl, Device.obj_modifyObj_congr Obj.tag htag d i i⟩
        · rw [lastCall_concat_ne hij, lastCall_of_uncalled hun, Device.obj_modifyObj_ne hij]
          exact rfl
    · refine ⟨es, ?_, fun h => absurd h hon⟩
      rw [Device.controlChanged, hcfg, if_neg hon, hes]
      rfl

/-! ### Commits -/

theorem follows_grouperOnCommit (d : Device K) (i : ObjRef) : Follows d (d.grouperOnCommit i) := by
  unfold Device.grouperOnCommit
  split
  · exact Follows.foldl fun _ _ _ _ => follows_store fun _ => by rfl
  · exact .refl d

/-- **A commit is followed by its call**, and so is every copy it makes. -/
theorem follows_commitNum (d : Device K) (i : ObjRef) (v : F64) (level index : UInt16) :
    Follows d (d.commitNum i v level index true) := by
  have hstore : Follows d (((d.modifyObj i fun o => { o with num := v }).notify i level
      index).controlChanged i) := follows_store fun _ => by rfl
  exact hstore.trans (follows_grouperOnCommit _ i)

theorem follows_commitStr (d : Device K) (i : ObjRef) (s : Bytes) (level index : UInt16) :
    Follows d (d.commitStr i s level index true) := follows_store fun _ => by rfl

theorem follows_recall (d : Device K) (es : List (UInt32 × F64)) : Follows d (d.recall es) :=
  Device.recall_rel .refl .trans
    (fun d t level index v _ _ _ => follows_commitNum d t v level index) d es

end Aes70
