import Aes70.Ocp1.Text
import Aes70.Router.Frame
import Aes70.Router.Message
import Aes70.Server.Machine

/-!
# Texts a controller sets

Six methods store a text: into a buffer of fixed size, cut where it is full. What the device writes
of it afterwards is an OcaString that a decoder can read exactly if the cut fell between two
characters.

* `TextSetter` : the six methods, each with its buffer.
* `TextSetter.Writes` : the fields in which the device writes the text afterwards.
* `writes_text` : they hold the text, cut.
* `aligned_iff` : when they can be read.
-/

namespace Aes70

open Handler

variable {K : Kconfig}

/-- The payload of an OcaString parameter. -/
def textPayload (cs : List Char) : Bytes := wr16 (UInt16.ofNat cs.length) ++ Utf8.encode cs

/-- The methods that store a text. -/
inductive TextSetter
  | workerLabel | agentLabel | deviceName | deviceRole | setting | groupName

namespace TextSetter

/-- Level and index of the method. -/
def method : TextSetter → UInt16 × UInt16
  | .workerLabel => (2, 9)
  | .agentLabel => (2, 2)
  | .deviceName => (3, 5)
  | .deviceRole => (3, 8)
  | .setting => (5, 2)
  | .groupName => (3, 1)

/-- The classes that have the method. -/
def of (t : TextSetter) (kind : Kind) : Bool :=
  match t with
  | .workerLabel => kind ∉ [Kind.grouper, .deviceManager, .subscriptionManager]
  | .agentLabel | .groupName => kind = .grouper
  | .deviceName | .deviceRole => kind = .deviceManager
  | .setting => kind = .string

/-- The size of the buffer the text is read into. -/
def cap : TextSetter → ℕ
  | .workerLabel | .agentLabel | .deviceName => 64
  | .deviceRole => 48
  | .setting => 128
  | .groupName => 40

end TextSetter

/-- After the call that took `d` to `d'`, the device writes the string `s` for the text that was set
in object `i`: in the result of the getter and, but for agents, in the notification; for the name of
a group in its entry of the group list and as the role of its proxy. -/
def TextSetter.Writes (d d' : Device K) (i : ObjRef) (s : Bytes) : TextSetter → Prop
  | .workerLabel => d'.Replies i 2 8 [.string s] ∧ d'.encodeProperty i 2 3 = some [.string s]
  | .agentLabel => d'.Replies i 2 1 [.string s]
  | .deviceName => d'.Replies i 3 4 [.string s] ∧ d'.encodeProperty i 3 4 = some [.string s]
  | .deviceRole => d'.Replies i 3 7 [.string s] ∧ d'.encodeProperty i 3 6 = some [.string s]
  | .setting => d'.Replies i 5 1 [.string s] ∧ d'.encodeProperty i 5 1 = some [.string s]
  | .groupName => ∃ g g' slot, (d.obj i).priv = .grouper g ∧ g.freeGroup = some slot ∧
      (d'.obj i).priv = .grouper g' ∧ slot ∈ g'.usedGroups ∧
        wrGroup g' slot =
          [.u16 (slotIndex slot), .string s, .u32 (d'.obj d.objects.length).ono] ∧
        d'.Replies i 3 4 (.u16 (UInt16.ofNat g'.usedGroups.length) ::
          g'.usedGroups.flatMap (wrGroup g')) ∧
        d'.Replies d.objects.length 1 5 [.string s]

/-- A decoder of OcaStrings reads what the device writes of the text to the end. -/
def TextSetter.Aligned (t : TextSetter) (d d' : Device K) (i : ObjRef) : Prop :=
  ∃ s, t.Writes d d' i s ∧ Exact s

theorem Device.Replies.string_unique {d : Device K} {i : ObjRef} {level index : UInt16}
    {s s' : Bytes} (h : d.Replies i level index [.string s])
    (h' : d.Replies i level index [.string s']) : s = s' := by
  let c : Call K := ⟨d, Reader.ofBytes [],
    Writer.init ((Field.encodeAll [.string s]).length + (Field.encodeAll [.string s']).length), 0⟩
  have hbuf : (c.wr.fields [.string s]).buf = (c.wr.fields [.string s']).buf :=
    congrArg (fun r : Status × Call K => r.2.wr.buf) ((h c rfl).symm.trans (h' c rfl))
  rw [Writer.fields_of_fits rfl (by simp [c, Writer.init, Writer.off]),
    Writer.fields_of_fits rfl (by simp [c, Writer.init, Writer.off])] at hbuf
  exact encodeAll_string_inj hbuf

/-- The string that is written is determined. -/
theorem TextSetter.Writes.unique {t : TextSetter} {d d' : Device K} {i : ObjRef} {s s' : Bytes}
    (h : t.Writes d d' i s) (h' : t.Writes d d' i s') : s = s' := by
  cases t with
  | groupName =>
    obtain ⟨g, g', slot, hg, hslot, hg', -, hentry, -⟩ := h
    obtain ⟨g₁, g₁', slot₁, hg₁, hslot₁, hg₁', -, hentry₁, -⟩ := h'
    obtain rfl : g = g₁ := by simpa using hg.symm.trans hg₁
    obtain rfl : g' = g₁' := by simpa using hg'.symm.trans hg₁'
    obtain rfl : slot = slot₁ := by simpa using hslot.symm.trans hslot₁
    simpa using hentry.symm.trans hentry₁
  | agentLabel => exact Device.Replies.string_unique h h'
  | _ => exact h.1.string_unique h'.1

section Setters

variable {d : Device K} {i : ObjRef}

/-! ### Reading the text -/

/-- A text at the front of the parameters is stored up to the size of the buffer. -/
theorem read_text {p : Ptr} {n : ℕ} {cs : List Char} (hlen : cs.length ≤ 0xFFFF)
    (h0 : '\x00' ∉ cs) (hp : textPayload cs <+: p.read n) (cap : ℕ) :
    ∃ rd, Read.string cap (Reader.init p n) = ((Utf8.encode cs).take (cap - 1), rd) ∧
      rd.err = false := by
  have hle : (textPayload cs).length ≤ n := by
    have := hp.length_le
    rwa [Ptr.length_read] at this
  have hnext : (Reader.init p n).Next (textPayload cs) := by
    refine ⟨by rw [Reader.remaining_eq]; exact hle, ?_⟩
    rw [Reader.peek, Reader.init, Ptr.add_zero, ← Ptr.take_read p hle]
    exact (List.prefix_iff_eq_take.1 hp).symm
  refine ⟨((Reader.init p n).advance 2).advance (Utf8.encode cs).length, ?_, rfl⟩
  rw [Read.string_text hlen rfl hnext cap, cstr_of_notMem]
  exact fun hmem => Utf8.zero_notMem_encode h0 (List.mem_of_mem_take hmem)

/-! ### Getters -/

theorem replies_workerLabel (hk : TextSetter.workerLabel.of (d.obj i).kind = true) :
    d.Replies i 2 8 [.string ((d.obj i).label.getD [])] := by
  refine replies_of_handler rfl (handlerFor_worker (of_decide_eq_true hk)) ?_
  rintro c rfl
  rfl

theorem replies_agentLabel (hk : (d.obj i).kind = .grouper) :
    d.Replies i 2 1 [.string ((d.obj i).label.getD [])] := by
  refine replies_of_handler rfl (h := agentDispatch) (by rw [hk]; rfl) ?_
  rintro c rfl
  rfl

theorem replies_deviceName (hk : (d.obj i).kind = .deviceManager) :
    d.Replies i 3 4 [.string d.deviceName] := by
  refine replies_of_handler (by rw [hk]; rfl) (h := devmgrDispatch) (by rw [hk]; rfl) ?_
  rintro c rfl
  rfl

theorem replies_deviceRole (hk : (d.obj i).kind = .deviceManager) :
    d.Replies i 3 7 [.string d.deviceRole] := by
  refine replies_of_handler (by rw [hk]; rfl) (h := devmgrDispatch) (by rw [hk]; rfl) ?_
  rintro c rfl
  rfl

theorem replies_setting (hk : (d.obj i).kind = .string) :
    d.Replies i 5 1 [.string ((d.obj i).str.getD [])] := by
  refine replies_of_handler (by rw [hk]; rfl) (h := basicActuatorDispatch) (by rw [hk]; rfl) ?_
  rintro c rfl
  change getSetting (c.dev.obj i) c = _
  rw [getSetting, hk]

theorem replies_groupList {g : GrouperPriv} (hk : (d.obj i).kind = .grouper)
    (hp : (d.obj i).priv = .grouper g) :
    d.Replies i 3 4 (.u16 (UInt16.ofNat g.usedGroups.length) :: g.usedGroups.flatMap (wrGroup g)) := by
  refine replies_of_handler (by rw [hk]; rfl) (h := grouperDispatch) (by rw [hk]; rfl) ?_
  rintro c rfl
  simp only [grouperDispatch, look, hp]
  rfl

theorem replies_role : d.Replies i 1 5 [.string (d.obj i).role] := by
  have hh : handlerFor (d.obj i).kind 1 = some (rootDispatch (K := K)) := by
    cases (d.obj i).kind <;> rfl
  refine replies_of_handler rfl hh ?_
  rintro c rfl
  rfl

/-! ### Setters -/

section Calls

variable {c : Call K} {s : Bytes} {rd : Reader} (herr : rd.err = false)
include herr

/-- A setter of a text stores what it reads. -/
theorem dev_of_reading {cap : ℕ} {f : Bytes → Device K → Device K}
    (hread : Read.string cap c.rd = (s, rd)) :
    (reading (Read.string cap) (fun buf => store (f buf)) c).2.dev = f s c.dev := by
  rw [reading_of_ok hread herr]
  rfl

theorem setSetting_text (hk : (c.dev.obj i).kind = .string)
    (hread : Read.string 128 c.rd = (s, rd)) (hok : (setSetting i (c.dev.obj i) c).1 = .ok) :
    (setSetting i (c.dev.obj i) c).2.dev = c.dev.commitStr i s 5 1 true := by
  unfold setSetting at hok ⊢
  rw [hk] at hok ⊢
  dsimp only at hok ⊢
  rw [reading_of_ok hread herr] at hok ⊢
  by_cases hlong : (c.dev.obj i).strMax ≠ 0 ∧ (c.dev.obj i).strMax.toNat < s.length
  · rw [if_pos hlong] at hok
    cases hok
  · rw [if_neg hlong]
    rfl

/-- A group that could be added has a slot and a proxy. -/
theorem addGroup_text {g : GrouperPriv} (hread : Read.string 40 c.rd = (s, rd))
    (hok : (addGroup i g c).1 = .ok) : ∃ slot d₁, g.freeGroup = some slot ∧
      c.dev.objectAlloc g.citizenKind c.dev.rootBlock s = (some c.dev.objects.length, d₁) ∧
        (addGroup i g c).2.dev = storeGrouper i (g.addGroup slot s
          ((d₁.modifyObj c.dev.objects.length initProxy).obj c.dev.objects.length).ono)
            (d₁.modifyObj c.dev.objects.length initProxy) := by
  unfold addGroup at hok ⊢
  rw [reading_of_ok hread herr] at hok ⊢
  cases hfree : g.freeGroup with
  | none =>
    rw [hfree] at hok
    cases hok
  | some slot =>
    rw [hfree] at hok
    unfold look at hok ⊢
    cases halloc : c.dev.objectAlloc g.citizenKind c.dev.rootBlock s with
    | mk new d₁ =>
      cases new with
      | none =>
        simp only [halloc] at hok
        cases hok
      | some proxy =>
        obtain ⟨-, rfl, -⟩ := Device.objectAlloc_some halloc
        refine ⟨slot, d₁, rfl, rfl, ?_⟩
        simp only [halloc]
        rfl

end Calls

/-! ### What is written afterwards -/

section Written

variable {c : Call K} {e : Device K} {s : Bytes} {rd : Reader}

theorem writes_workerLabel (hk : TextSetter.workerLabel.of (d.obj i).kind = true)
    (hl : (d.obj i).label = some s) {d₀ : Device K} : TextSetter.workerLabel.Writes d₀ d i s := by
  have hreply := replies_workerLabel hk
  rw [hl] at hreply
  refine ⟨hreply, ?_⟩
  simp [Device.encodeProperty, hl]

theorem writes_agentLabel (hk : (d.obj i).kind = .grouper) (hl : (d.obj i).label = some s)
    {d₀ : Device K} : TextSetter.agentLabel.Writes d₀ d i s := by
  have hreply := replies_agentLabel hk
  rw [hl] at hreply
  exact hreply

theorem writes_deviceName (hk : (d.obj i).kind = .deviceManager) {d₀ : Device K} :
    TextSetter.deviceName.Writes d₀ d i d.deviceName :=
  ⟨replies_deviceName hk, by simp [Device.encodeProperty, hk]⟩

theorem writes_deviceRole (hk : (d.obj i).kind = .deviceManager) {d₀ : Device K} :
    TextSetter.deviceRole.Writes d₀ d i d.deviceRole :=
  ⟨replies_deviceRole hk, by simp [Device.encodeProperty, hk]⟩

theorem writes_setting (hk : (d.obj i).kind = .string) (hs : (d.obj i).str = some s)
    {d₀ : Device K} : TextSetter.setting.Writes d₀ d i s := by
  have hreply := replies_setting hk
  rw [hs] at hreply
  refine ⟨hreply, ?_⟩
  simp [Device.encodeProperty, Device.encodeClassProperty, dspEncodeProperty, primaryProperty,
    encodeValue, hk, hs]

/-- A new group is in the list, and its proxy has its name. -/
theorem writes_groupName {g : GrouperPriv} {slot : Fin 16} {d₁ : Device K}
    (hk : (d.obj i).kind = .grouper) (hp : (d.obj i).priv = .grouper g) (hi : i < d.objects.length)
    (hs : s.length ≤ 39) (hfree : g.freeGroup = some slot)
    (halloc : d.objectAlloc g.citizenKind d.rootBlock s = (some d.objects.length, d₁))
    (he : e.core = (storeGrouper i (g.addGroup slot s
      ((d₁.modifyObj d.objects.length initProxy).obj d.objects.length).ono)
        (d₁.modifyObj d.objects.length initProxy)).core) :
    TextSetter.groupName.Writes d e i s := by
  let d₂ := d₁.modifyObj d.objects.length initProxy
  let g' := g.addGroup slot s (d₂.obj d.objects.length).ono
  obtain ⟨-, -, hd₁⟩ := Device.objectAlloc_some halloc
  have hlen₁ : i < d₁.objects.length := by
    rw [hd₁, Device.length_blockAddMember]
    exact Nat.lt_of_lt_of_le hi (by simp [Device.registered])
  have hi₂ : i < d₂.objects.length := by rwa [Device.length_modifyObj]
  have hne : i ≠ d.objects.length := hi.ne
  -- the grouper and the proxy after the call
  have hgrouper : e.obj i = { d₂.obj i with priv := .grouper g' } := by
    rw [Device.obj_eq_of_core he]
    exact Device.obj_modifyObj_self hi₂ _
  have hproxy : e.obj d.objects.length = d₂.obj d.objects.length := by
    rw [Device.obj_eq_of_core he]
    exact Device.obj_modifyObj_ne hne _
  have hkind : (e.obj i).kind = .grouper := by
    rw [hgrouper]
    change (d₂.obj i).kind = .grouper
    rw [Device.obj_modifyObj_ne hne.symm,
      Device.obj_objectAlloc (p := Obj.kind) (fun _ _ => rfl) (fun _ _ => rfl) halloc hi, hk]
  have hpriv : (e.obj i).priv = .grouper g' := by rw [hgrouper]
  have hused : slot ∈ g'.usedGroups := by
    simp [g', GrouperPriv.usedGroups, GrouperPriv.addGroup]
  have hname : strlcpy 40 s = s := List.take_of_length_le hs
  have hrole : (e.obj d.objects.length).role = s := by
    have hinit (o : Obj) : (initProxy o).role = o.role := by
      unfold initProxy
      split <;> rfl
    rw [hproxy, Device.obj_modifyObj_congr Obj.role hinit, hd₁,
      Device.obj_blockAddMember (p := Obj.role) (fun _ _ => rfl) fun _ _ => rfl]
    simp [Device.registered, Device.obj, Obj.fresh]
  have hreply := replies_role (d := e) (i := d.objects.length)
  rw [hrole] at hreply
  refine ⟨g, g', slot, hp, hfree, hpriv, hused, ?_, replies_groupList hkind hpriv, hreply⟩
  simp [wrGroup, g', GrouperPriv.addGroup, hname, hproxy]

section Texts

variable (hi : i < c.dev.objects.length) (herr : rd.err = false)
include hi herr

theorem workerLabel_written (hk : TextSetter.workerLabel.of (c.dev.obj i).kind = true)
    (hread : Read.string 64 c.rd = (s, rd)) (hok : (objectDispatch i 2 9 c).1 = .ok)
    (he : e.core = (objectDispatch i 2 9 c).2.dev.core) :
    TextSetter.workerLabel.Writes c.dev e i s := by
  have hdev : (workerDispatch i 9 c).2.dev =
      (c.dev.modifyObj i fun o => { o with label := some s }).notify i 2 3 :=
    dev_of_reading (f := fun buf d =>
      (d.modifyObj i fun o => { o with label := some buf }).notify i 2 3) herr hread
  rw [objectDispatch_of_handler (handlerFor_worker (of_decide_eq_true hk)) (gate_of_ok hok) rfl, hdev,
    Device.core_notify] at he
  have hobj := Device.obj_eq_of_core he i
  rw [Device.obj_modifyObj_self hi] at hobj
  exact writes_workerLabel (by rw [hobj]; exact hk) (by rw [hobj])

theorem agentLabel_written (hk : (c.dev.obj i).kind = .grouper)
    (hread : Read.string 64 c.rd = (s, rd)) (hok : (objectDispatch i 2 2 c).1 = .ok)
    (he : e.core = (objectDispatch i 2 2 c).2.dev.core) :
    TextSetter.agentLabel.Writes c.dev e i s := by
  have hdev : (agentDispatch i 2 c).2.dev =
      c.dev.modifyObj i fun o => { o with label := some s } :=
    dev_of_reading (f := fun buf d => d.modifyObj i fun o => { o with label := some buf }) herr hread
  rw [objectDispatch_of_handler (h := agentDispatch) (by rw [hk]; rfl) (gate_of_ok hok) rfl,
    hdev] at he
  have hobj := Device.obj_eq_of_core he i
  rw [Device.obj_modifyObj_self hi] at hobj
  exact writes_agentLabel (by rw [hobj]; exact hk) (by rw [hobj])

omit hi in
theorem deviceName_written (hk : (c.dev.obj i).kind = .deviceManager)
    (hread : Read.string 64 c.rd = (s, rd)) (hok : (objectDispatch i 3 5 c).1 = .ok)
    (he : e.core = (objectDispatch i 3 5 c).2.dev.core) (hs : s.length ≤ 63) :
    TextSetter.deviceName.Writes c.dev e i s := by
  have hdev : (devmgrDispatch i 5 c).2.dev =
      ({ c.dev with deviceName := strlcpy 64 s } : Device K).notify i 3 4 :=
    dev_of_reading (f := fun buf (d : Device K) =>
      ({ d with deviceName := strlcpy 64 buf } : Device K).notify i 3 4) herr hread
  rw [objectDispatch_of_handler (h := devmgrDispatch) (by rw [hk]; rfl) (gate_of_ok hok) rfl,
    hdev, Device.core_notify] at he
  have hname : e.deviceName = s := by
    have hset := congrArg Device.deviceName he
    exact hset.trans (List.take_of_length_le hs)
  have hobj := Device.obj_eq_of_core he i
  exact hname ▸ writes_deviceName (by rw [hobj]; exact hk)

omit hi in
theorem deviceRole_written (hk : (c.dev.obj i).kind = .deviceManager)
    (hread : Read.string 48 c.rd = (s, rd)) (hok : (objectDispatch i 3 8 c).1 = .ok)
    (he : e.core = (objectDispatch i 3 8 c).2.dev.core) (hs : s.length ≤ 47) :
    TextSetter.deviceRole.Writes c.dev e i s := by
  have hdev : (devmgrDispatch i 8 c).2.dev =
      ({ c.dev with deviceRole := strlcpy 48 s } : Device K).notify i 3 6 :=
    dev_of_reading (f := fun buf (d : Device K) =>
      ({ d with deviceRole := strlcpy 48 buf } : Device K).notify i 3 6) herr hread
  rw [objectDispatch_of_handler (h := devmgrDispatch) (by rw [hk]; rfl) (gate_of_ok hok) rfl,
    hdev, Device.core_notify] at he
  have hrole : e.deviceRole = s := by
    have hset := congrArg Device.deviceRole he
    exact hset.trans (List.take_of_length_le hs)
  have hobj := Device.obj_eq_of_core he i
  exact hrole ▸ writes_deviceRole (by rw [hobj]; exact hk)

theorem setting_written (hk : (c.dev.obj i).kind = .string)
    (hread : Read.string 128 c.rd = (s, rd)) (hok : (objectDispatch i 5 2 c).1 = .ok)
    (he : e.core = (objectDispatch i 5 2 c).2.dev.core) :
    TextSetter.setting.Writes c.dev e i s := by
  have hcall : objectDispatch i 5 2 c = setSetting i (c.dev.obj i) c :=
    objectDispatch_of_handler (h := basicActuatorDispatch) (by rw [hk]; rfl) (gate_of_ok hok) rfl
  rw [hcall] at hok he
  rw [setSetting_text herr hk hread hok, Device.core_commitStr] at he
  have hobj := Device.obj_eq_of_core he i
  rw [Device.obj_modifyObj_self hi] at hobj
  exact writes_setting (by rw [hobj]; exact hk) (by rw [hobj])

theorem groupName_written (hk : (c.dev.obj i).kind = .grouper)
    (hread : Read.string 40 c.rd = (s, rd)) (hok : (objectDispatch i 3 1 c).1 = .ok)
    (he : e.core = (objectDispatch i 3 1 c).2.dev.core) (hs : s.length ≤ 39) :
    TextSetter.groupName.Writes c.dev e i s := by
  have hcall : objectDispatch i 3 1 c = grouperDispatch i 1 c :=
    objectDispatch_of_handler (by rw [hk]; rfl) (gate_of_ok hok) rfl
  rw [hcall] at hok he
  cases hp : (c.dev.obj i).priv with
  | grouper g =>
    have hadd : grouperDispatch i 1 c = addGroup i g c := by
      simp only [grouperDispatch, look, hp]
    rw [hadd] at hok he
    obtain ⟨slot, d₁, hfree, halloc, hdev⟩ := addGroup_text herr hread hok
    rw [hdev] at he
    exact writes_groupName hk hp hi hs hfree halloc he
  | _ =>
    simp only [grouperDispatch, look, hp] at hok
    cases hok

/-- **A text that is set** is written afterwards, as it was read. -/
theorem dispatch_text (t : TextSetter) (hk : t.of (c.dev.obj i).kind = true)
    (hread : Read.string t.cap c.rd = (s, rd))
    (hok : (objectDispatch i t.method.1 t.method.2 c).1 = .ok)
    (he : e.core = (objectDispatch i t.method.1 t.method.2 c).2.dev.core) :
    t.Writes c.dev e i s := by
  have hs : s.length ≤ t.cap - 1 := by
    have hle := Read.length_string_le t.cap c.rd
    rwa [hread] at hle
  cases t with
  | workerLabel => exact workerLabel_written hi herr hk hread hok he
  | agentLabel => exact agentLabel_written hi herr (of_decide_eq_true hk) hread hok he
  | deviceName => exact deviceName_written herr (of_decide_eq_true hk) hread hok he hs
  | deviceRole => exact deviceRole_written herr (of_decide_eq_true hk) hread hok he hs
  | setting => exact setting_written hi herr (of_decide_eq_true hk) hread hok he
  | groupName => exact groupName_written hi herr (of_decide_eq_true hk) hread hok he hs

end Texts

end Written

end Setters

/-! ### Commands -/

section Commands

variable {d : Device K} {i : ObjRef} {conn room : ℕ} {cmd : Command} {p : Ptr} {n : ℕ}
  {cs : List Char}

/-- What a command that sets a text makes the device write. -/
theorem writes_text (t : TextSetter) (hf : d.find cmd.target = some i)
    (hm : (cmd.level, cmd.index) = t.method) (hk : t.of (d.obj i).kind = true)
    (hlen : cs.length ≤ 0xFFFF) (h0 : '\x00' ∉ cs) (hp : cmd.params = p.read n)
    (hcs : textPayload cs <+: cmd.params)
    (hok : (answer room conn cmd (Reader.init p n) d).response.status = .ok) :
    t.Writes d (answer room conn cmd (Reader.init p n) d).dev i
      ((Utf8.encode cs).take (t.cap - 1)) := by
  let c : Call K := ⟨{ d with activeConn := some conn }, Reader.init p n, Writer.init room, 0⟩
  obtain ⟨rd, hread, herr⟩ := read_text hlen h0 (hp ▸ hcs) t.cap
  have hexec : execCommand conn cmd c = ((objectDispatch i cmd.level cmd.index c).1,
      { (objectDispatch i cmd.level cmd.index c).2 with
        dev := (objectDispatch i cmd.level cmd.index c).2.dev.emit
          (.command conn cmd (objectDispatch i cmd.level cmd.index c).1) }) := by
    have hfind : c.dev.find cmd.target = some i := hf
    simp only [execCommand, hfind]
  have hmethod : cmd.level = t.method.1 ∧ cmd.index = t.method.2 := Prod.mk.inj hm
  rw [hmethod.1, hmethod.2] at hexec
  have hok' : (execCommand conn cmd c).1 = .ok := hok
  rw [hexec] at hok'
  refine dispatch_text (c := c) (Device.find_lt hf) herr t hk hread hok' ?_
  change (execCommand conn cmd c).2.dev.core = _
  rw [hexec]
  exact Device.core_emit _ _

/-- **A text that is set can be read** from what the device writes of it afterwards, exactly if the
buffer of the setter ends between two of its characters. -/
theorem aligned_iff (t : TextSetter) (hf : d.find cmd.target = some i)
    (hm : (cmd.level, cmd.index) = t.method) (hk : t.of (d.obj i).kind = true)
    (hlen : cs.length ≤ 0xFFFF) (h0 : '\x00' ∉ cs) (hp : cmd.params = p.read n)
    (hcs : textPayload cs <+: cmd.params)
    (hok : (answer room conn cmd (Reader.init p n) d).response.status = .ok) :
    t.Aligned d (answer room conn cmd (Reader.init p n) d).dev i ↔
      Utf8.CutsWhole (t.cap - 1) cs := by
  have hwrites := writes_text t hf hm hk hlen h0 hp hcs hok
  rw [← exact_take_iff hlen]
  constructor
  · rintro ⟨s, hs, hexact⟩
    rwa [hwrites.unique hs]
  · intro hexact
    exact ⟨_, hwrites, hexact⟩

end Commands

namespace Sample

/-- SetLabel of the root block. -/
def labelRoot (cs : List Char) : Command := ⟨7, 100, 2, 9, 1, textPayload cs⟩

/-- The parameters of such a command. -/
def labelParams (cs : List Char) : Reader :=
  Reader.init (Ptr.ofBytes (textPayload cs) fun _ => 0) (textPayload cs).length

theorem aligned_label : TextSetter.workerLabel.Aligned start
    (answer 2048 0 (labelRoot "Café".toList) (labelParams "Café".toList) start).dev 2 :=
  (aligned_iff .workerLabel (by decide) rfl (by decide) (by decide) (by decide)
    (Ptr.read_ofBytes _ _).symm List.prefix_rfl (by decide +kernel)).2 ⟨4, by decide⟩

/-- 32 characters of two bytes: the buffer of 64 bytes has room for 31 and a half. -/
def accents : List Char := List.replicate 32 'é'

theorem not_cutsWhole_accents : ¬Utf8.CutsWhole 63 accents := by
  rintro ⟨k, hk⟩
  have hlen (n : ℕ) : (Utf8.encode (List.replicate n 'é')).length = 2 * n := by
    induction n with
    | zero => rfl
    | succ n ih =>
      rw [List.replicate_succ, Utf8.encode_cons, List.length_append, ih]
      change 2 + 2 * n = 2 * (n + 1)
      omega
  have hlength := congrArg List.length hk
  rw [List.length_take, accents, hlen, List.take_replicate, hlen] at hlength
  omega

/-- The label is accepted, and what is written of it cannot be read. -/
theorem not_aligned_accents :
    (answer 2048 0 (labelRoot accents) (labelParams accents) start).response.status = .ok ∧
      ¬TextSetter.workerLabel.Aligned start
        (answer 2048 0 (labelRoot accents) (labelParams accents) start).dev 2 := by
  have hok : (answer 2048 0 (labelRoot accents) (labelParams accents) start).response.status =
      .ok := by decide +kernel
  refine ⟨hok, ?_⟩
  rintro ⟨s, hs, hexact⟩
  have hfind : start.find 100 = some 2 := by decide
  have hwrites := writes_text .workerLabel hfind rfl (by decide)
    (by decide) (by decide) (Ptr.read_ofBytes _ _).symm List.prefix_rfl hok
  rw [hs.unique hwrites] at hexact
  exact not_cutsWhole_accents ((exact_take_iff (by decide) 63).1 hexact)

end Sample

end Aes70
