import Mathlib.Order.Interval.Finset.Nat
import Aes70.Router.Checks
import Aes70.Router.Getters
import Aes70.Server.Enumeration
import Aes70.Server.Smoketest

/-!
# What a controller finds

The parts of `ocp1_smoketest.py` that read payloads: it cuts out the texts that the device manager
answers, and looks for a gain among the objects that the root block lists.

* `Smoketest.rdStr`, `Smoketest.rdClassid` : the decoders of `rd_str` and `rd_classid`.
* `Smoketest.enumerate` : the loop over the answer of `GetActionObjectsRecursive`.
* `Ahead` : what a payload holds at an offset.
* `enumerate_of_reach` : the loop counts the objects of the tree, and finds a gain if there is one.
* `identity_of_reach` : texts are cut out whole exactly if they have no continuation bytes.
-/

namespace Aes70

variable {K : Kconfig}

namespace Smoketest

/-! ### Decoders -/

/-- `struct.unpack(">H", b[o:o + 2])`, which raises on a slice of another length. -/
def unpackH (b : Bytes) (o : ℕ) : Option UInt16 :=
  let s := (b.drop o).take 2
  if s.length = 2 then some (rd16 s) else none

/-- `struct.unpack(">I", b[o:o + 4])`. -/
def unpackI (b : Bytes) (o : ℕ) : Option UInt32 :=
  let s := (b.drop o).take 4
  if s.length = 4 then some (rd32 s) else none

/-- `struct.unpack(">" + "H" * n, b[o:o + 2 * n])`. -/
def unpackHs (b : Bytes) : ℕ → ℕ → Option (List UInt16)
  | 0, _ => some []
  | n + 1, o => do
    let v ← unpackH b o
    return v :: (← unpackHs b n (o + 2))

/-- `rd_str` up to `.decode(errors="replace")`: the bytes that are taken for the text. -/
def rdStr (b : Bytes) (o : ℕ) : Option (Bytes × ℕ) := do
  let n ← unpackH b o
  return ((b.drop (o + 2)).take n.toNat, o + 2 + n.toNat)

/-- `rd_classid`. -/
def rdClassid (b : Bytes) (o : ℕ) : Option ((List UInt16 × UInt16) × ℕ) := do
  let n ← unpackH b o
  let fields ← unpackHs b n.toNat (o + 2)
  let ver ← unpackH b (o + 2 + 2 * n.toNat)
  return ((fields, ver), o + 2 + 2 * n.toNat + 2)

/-- `CID_GAIN`. -/
def cidGain : List UInt16 := [1, 1, 1, 5]

/-- The loop over `cnt` objects, with `gain_ono`. -/
def enumLoop (pl : Bytes) : ℕ → ℕ → Option UInt32 → Option (Option UInt32)
  | 0, _, gain => some gain
  | n + 1, o, gain => do
    let ono ← unpackI pl o
    let ((cid, _), o) ← rdClassid pl (o + 4)
    let _ ← unpackI pl o
    enumLoop pl n (o + 4) (if cid = cidGain ∧ gain = none then some ono else gain)

/-- What `main` makes of the answer of the root block: `cnt` and `gain_ono`. -/
def enumerate (pl : Bytes) : Option (UInt16 × Option UInt32) := do
  let cnt ← unpackH pl 0
  return (cnt, ← enumLoop pl cnt.toNat 2 none)

/-- The bytes that `main` takes for `mfr`, `model` and `ver` in the model description. -/
def identity (pl : Bytes) : Option (Bytes × Bytes × Bytes) := do
  let (mfr, o) ← rdStr pl 0
  let (model, o) ← rdStr pl o
  let (ver, _) ← rdStr pl o
  return (mfr, model, ver)

/-! ### Reading at an offset -/

/-- The payload goes on with `bs` at the offset `o`. -/
def Ahead (b : Bytes) (o : ℕ) (bs : Bytes) : Prop := bs <+: b.drop o

section Reading

variable {b xs ys : Bytes} {o : ℕ}

theorem ahead_zero (b : Bytes) : Ahead b 0 b := by
  rw [Ahead, List.drop_zero]

theorem Ahead.left (h : Ahead b o (xs ++ ys)) : Ahead b o xs :=
  (List.prefix_append xs ys).trans h

theorem Ahead.right (h : Ahead b o (xs ++ ys)) {n : ℕ} (hn : xs.length = n) :
    Ahead b (o + n) ys := by
  obtain ⟨rest, hrest⟩ := h
  refine ⟨rest, ?_⟩
  rw [← List.drop_drop, ← hrest, List.append_assoc, List.drop_left' hn]

theorem Ahead.take (h : Ahead b o xs) {n : ℕ} (hn : xs.length = n) : (b.drop o).take n = xs := by
  obtain ⟨rest, hrest⟩ := h
  rw [← hrest, List.take_left' hn]

theorem unpackH_of_ahead {v : UInt16} (h : Ahead b o (wr16 v)) : unpackH b o = some v := by
  rw [unpackH, h.take (length_wr16 v), if_pos (length_wr16 v), rd16_wr16]

theorem unpackI_of_ahead {v : UInt32} (h : Ahead b o (wr32 v)) : unpackI b o = some v := by
  rw [unpackI, h.take (length_wr32 v), if_pos (length_wr32 v), rd32_wr32]

theorem unpackHs_of_ahead {vs : List UInt16} (h : Ahead b o (vs.flatMap wr16)) :
    unpackHs b vs.length o = some vs := by
  induction vs generalizing o with
  | nil => rfl
  | cons v vs ih =>
    rw [List.flatMap_cons] at h
    rw [List.length_cons, unpackHs, unpackH_of_ahead h.left, ih (h.right (length_wr16 v))]
    rfl

theorem length_flatMap_wr16 (vs : List UInt16) : (vs.flatMap wr16).length = 2 * vs.length := by
  rw [List.length_flatMap, List.map_congr_left fun v _ => length_wr16 v]
  simp [Nat.mul_comm]

/-- A class identification is read, and the reader stands behind it. -/
theorem rdClassid_of_ahead {ids : List UInt16} {ver : UInt16} (hids : ids.length < 2 ^ 16)
    (h : Ahead b o (wr16 (UInt16.ofNat ids.length) ++ (ids.flatMap wr16 ++ wr16 ver))) :
    rdClassid b o = some ((ids, ver), o + 2 + 2 * ids.length + 2) := by
  have hn : (UInt16.ofNat ids.length).toNat = ids.length := UInt16.toNat_ofNat_of_lt' hids
  have hfields := h.right (length_wr16 _)
  rw [rdClassid, unpackH_of_ahead h.left]
  dsimp only [Option.bind_eq_bind, Option.bind_some]
  rw [hn, unpackHs_of_ahead hfields.left,
    unpackH_of_ahead (hfields.right (length_flatMap_wr16 ids))]
  rfl

/-- One turn of the loop. -/
theorem enumLoop_succ {ono owner : UInt32} {ids : List UInt16} {ver : UInt16} {rest : Bytes}
    (hids : ids.length < 2 ^ 16) (h : Ahead b o (wr32 ono ++ (wr16 (UInt16.ofNat ids.length) ++
      (ids.flatMap wr16 ++ wr16 ver) ++ wr32 owner) ++ rest)) (n : ℕ) (gain : Option UInt32) :
    enumLoop b (n + 1) o gain = enumLoop b n (o + 4 + 2 + 2 * ids.length + 2 + 4)
        (if ids = cidGain ∧ gain = none then some ono else gain) ∧
      Ahead b (o + 4 + 2 + 2 * ids.length + 2 + 4) rest := by
  have hentry := h.left.right (length_wr32 ono)
  have howner : Ahead b (o + 4 + 2 + 2 * ids.length + 2) (wr32 owner) := by
    have hafter := hentry.right (n := 2 + 2 * ids.length + 2) (by
      simp only [List.length_append, length_wr16, length_flatMap_wr16]
      omega)
    simpa only [Nat.add_assoc] using hafter
  refine ⟨?_, ?_⟩
  · rw [enumLoop, unpackI_of_ahead h.left.left, Option.bind_eq_bind, Option.bind_some,
      rdClassid_of_ahead hids hentry.left, Option.bind_eq_bind, Option.bind_some]
    dsimp only
    rw [unpackI_of_ahead howner]
    rfl
  · have hrest := h.right (n := 4 + 2 + 2 * ids.length + 2 + 4) (by
      simp only [List.length_append, length_wr16, length_wr32, length_flatMap_wr16]
      omega)
    simpa only [Nat.add_assoc] using hrest

end Reading

end Smoketest

/-! ### The entries of a list -/

section Entries

variable {d : Device K} {ms : List (ℕ × ℕ)} {pl : Bytes} {o : ℕ}

/-- The entry of a member on the wire. -/
theorem encodeAll_memberFields (d : Device K) (b c : ℕ) : Field.encodeAll (d.memberFields b c) =
    wr32 (d.obj c).ono ++ (wr16 (UInt16.ofNat (classForKind (d.obj c).kind).classId.length) ++
      ((classForKind (d.obj c).kind).classId.flatMap wr16 ++
        wr16 (classForKind (d.obj c).kind).classVersion) ++ wr32 (d.obj b).ono) := by
  simp [Device.memberFields, emitObjectIdentification, Field.classId, Field.encodeAll,
    Field.encode, Field.pieces, List.flatMap_map]

theorem classId_gain (kind : Kind) :
    (classForKind kind).classId = Smoketest.cidGain ↔ kind = .gain := by
  cases kind <;> decide

theorem length_classId_le (kind : Kind) : (classForKind kind).classId.length ≤ 5 := by
  cases kind <;> decide

/-- **The loop** keeps the first gain it comes to. -/
theorem enumLoop_of_ahead (d : Device K) (gain : Option UInt32)
    (h : Smoketest.Ahead pl o
      (Field.encodeAll (ms.flatMap fun m => d.memberFields m.1 m.2))) :
    Smoketest.enumLoop pl ms.length o gain = some (gain.or
      ((ms.find? fun m => (d.obj m.2).kind = .gain).map fun m => (d.obj m.2).ono)) := by
  induction ms generalizing o gain with
  | nil => simp [Smoketest.enumLoop]
  | cons m ms ih =>
    rw [List.flatMap_cons, encodeAll_append, encodeAll_memberFields] at h
    have hids : (classForKind (d.obj m.2).kind).classId.length < 2 ^ 16 :=
      (length_classId_le (d.obj m.2).kind).trans_lt (by decide)
    obtain ⟨hstep, hrest⟩ := Smoketest.enumLoop_succ hids h ms.length gain
    rw [List.length_cons, hstep, ih _ hrest, List.find?_cons]
    congr 1
    have hgain := classId_gain (d.obj m.2).kind
    by_cases hk : (d.obj m.2).kind = .gain
    · rw [decide_eq_true hk]
      cases gain with
      | none =>
        rw [if_pos ⟨hgain.2 hk, rfl⟩]
        rfl
      | some ono =>
        rw [if_neg (by simp)]
        rfl
    · rw [decide_eq_false hk, if_neg fun hboth => hk (hgain.1 hboth.1)]

end Entries

/-! ### The tree -/

section Tree

variable {d : Device K}

/-- All objects but the managers and the root block are members of the root block. -/
theorem Device.Tree.mem_descendants (h : d.Tree) {i : ℕ} :
    i ∈ (descendants d 2).map Prod.snd ↔ 3 ≤ i ∧ i < d.objects.length := by
  rw [(h.lists 2).mem_iff i]
  constructor
  · intro hbelow
    obtain ⟨b, -, hchild⟩ := Relation.TransGen.tail'_iff.1 hbelow
    exact ⟨h.added b i hchild, (h.later b i hchild).2⟩
  · rintro ⟨hge, hlt⟩
    -- containers come before their members
    induction i using Nat.strongRecOn with
    | ind i ih =>
      obtain ⟨b, hb⟩ := h.member i hlt hge
      by_cases hroot : b = 2
      · exact .single (hroot ▸ hb)
      · have hlater := h.later b i hb
        have hkind := h.kind b i hb
        have hmgr := (h.registry.deviceManager b (hlater.1.trans hlater.2)).not.1 (by simp [hkind])
        have hsub := (h.registry.subscriptionManager b (hlater.1.trans hlater.2)).not.1
          (by simp [hkind])
        exact (ih b hlater.1 (by omega) (hlater.1.trans hlater.2)).tail hb

theorem Device.Tree.length_descendants (h : d.Tree) :
    (descendants d 2).length + 3 = d.objects.length := by
  have hset : ((descendants d 2).map Prod.snd).toFinset = Finset.Ico 3 d.objects.length := by
    ext i
    rw [List.mem_toFinset, h.mem_descendants, Finset.mem_Ico]
  have hcard := List.toFinset_card_of_nodup (h.lists 2).nodup
  rw [hset, Nat.card_Ico, List.length_map] at hcard
  have hge := h.registry.length_ge
  omega

/-- **The loop finds a gain** if there is one, and counts the objects of the tree. -/
theorem enumerate_of_reach (h : (control K).Reach d) {room conn : ℕ} {cmd : Command} {rd : Reader}
    (htarget : cmd.target = 100) (hlevel : cmd.level = 3) (hindex : cmd.index = 6)
    (hfit : (answer room conn cmd rd d).overflow = false) :
    ∃ n gain, Smoketest.enumerate (answer room conn cmd rd d).response.params = some (n, gain) ∧
      n.toNat + 3 = d.objects.length ∧
      (∀ ono, gain = some ono → ∃ i, d.find ono = some i ∧ (d.obj i).kind = .gain) ∧
      (gain = none → ∀ i < d.objects.length, (d.obj i).kind ≠ .gain) := by
  have ht := reach_tree h
  have hroot : d.find cmd.target = some 2 := by
    have hfind := ht.registry.find_ono (i := 2) ht.registry.length_ge
    rwa [ht.registry.ono 2 ht.registry.length_ge, ← show cmd.target = onoAt 2 from htarget] at hfind
  have hresponse : (answer room conn cmd rd d).response = ⟨cmd.handle, .ok, 1, _⟩ :=
    response_of_replies hroot (by
      rw [hlevel, hindex]
      exact (replies_block ht.rootKind (some conn)).1) hfit
  have hcount : (UInt16.ofNat (descendants d 2).length).toNat = (descendants d 2).length :=
    UInt16.toNat_ofNat_of_lt' (lt_of_le_of_lt (length_descendants_le ht 2) (by decide))
  have hsplit : Field.encodeAll (.u16 (UInt16.ofNat (descendants d 2).length) ::
      (descendants d 2).flatMap fun m => d.memberFields m.1 m.2) =
        wr16 (UInt16.ofNat (descendants d 2).length) ++
          Field.encodeAll ((descendants d 2).flatMap fun m => d.memberFields m.1 m.2) := by
    simp [Field.encodeAll, Field.encode, Field.pieces]
  have hahead := Smoketest.ahead_zero (wr16 (UInt16.ofNat (descendants d 2).length) ++
    Field.encodeAll ((descendants d 2).flatMap fun m => d.memberFields m.1 m.2))
  have hloop := enumLoop_of_ahead d none (hahead.right (length_wr16 _))
  refine ⟨_, ((descendants d 2).find? fun m => (d.obj m.2).kind = .gain).map fun m =>
    (d.obj m.2).ono, ?_, hcount ▸ ht.length_descendants, ?_, ?_⟩
  · rw [hresponse]
    dsimp only
    rw [hsplit, Smoketest.enumerate, Smoketest.unpackH_of_ahead hahead.left, Option.bind_eq_bind,
      Option.bind_some, hcount, hloop]
    rfl
  · intro ono hono
    obtain ⟨m, hm, rfl⟩ := Option.map_eq_some_iff.1 hono
    have hmem := ht.mem_descendants.1 (List.mem_map_of_mem (List.mem_of_find?_eq_some hm))
    exact ⟨m.2, ht.registry.find_ono hmem.2, by simpa using List.find?_some hm⟩
  · intro hnone i hi hk
    have hfind := List.find?_eq_none.1 (Option.map_eq_none_iff.1 hnone)
    have hge : 3 ≤ i := by
      have hmgr := (ht.registry.deviceManager i hi).not.1 (by simp [hk])
      have hsub := (ht.registry.subscriptionManager i hi).not.1 (by simp [hk])
      have hroot : i ≠ 2 := by
        rintro rfl
        exact absurd (hk.symm.trans ht.rootKind) (by decide)
      omega
    obtain ⟨m, hm, rfl⟩ := List.mem_map.1 (ht.mem_descendants.2 ⟨hge, hi⟩)
    exact hfind m hm (decide_eq_true hk)

end Tree

/-! ### Texts -/

/-- No byte of the text continues a code point. -/
def Bytewise (s : Bytes) : Prop := ∀ c ∈ s, (c &&& 0xC0 != 0x80) = true

section Texts

open Smoketest

variable {d : Device K} {b : Bytes} {o : ℕ} {s mfr model ver : Bytes}

/-- The length that is sent counts the bytes of a text exactly if it is plain. -/
theorem codepoints_eq_length (hs : s.length < 2 ^ 16) : codepoints s = s.length ↔ Bytewise s := by
  have hle := List.countP_le_length (p := fun c : UInt8 => c &&& 0xC0 != 0x80) (l := s)
  have hcount : codepoints s = s.countP fun c => c &&& 0xC0 != 0x80 := by
    rw [codepoints]
    omega
  rw [hcount, List.countP_eq_length, Bytewise]

theorem codepoints_le (s : Bytes) : codepoints s ≤ s.length :=
  (Nat.min_le_left _ _).trans List.countP_le_length

/-- What is read of a text: as many bytes as it has code points. -/
theorem rdStr_of_ahead (h : Ahead b o (wr16 (UInt16.ofNat (codepoints s)) ++ s)) :
    rdStr b o = some (s.take (codepoints s), o + 2 + codepoints s) := by
  have hn : (UInt16.ofNat (codepoints s)).toNat = codepoints s := by
    have hle : codepoints s ≤ 0xFFFF := Nat.min_le_right _ _
    exact UInt16.toNat_ofNat_of_lt' (show _ < 2 ^ 16 by omega)
  obtain ⟨rest, hrest⟩ := h.right (length_wr16 _)
  rw [rdStr, unpackH_of_ahead h.left, Option.bind_eq_bind, Option.bind_some, hn, ← hrest,
    List.take_append_of_le_length (codepoints_le s)]
  rfl

/-- The texts of the model description on the wire. -/
theorem encodeAll_texts (mfr model ver : Bytes) :
    Field.encodeAll [.string mfr, .string model, .string ver] =
      wr16 (UInt16.ofNat (codepoints mfr)) ++ mfr ++
        (wr16 (UInt16.ofNat (codepoints model)) ++ model ++
          (wr16 (UInt16.ofNat (codepoints ver)) ++ ver)) := by
  simp [Field.encodeAll, Field.encode, Field.pieces]

/-- **Three texts** are decoded as they are exactly if their lengths count bytes. -/
theorem identity_of_ahead (h : Ahead b 0 (wr16 (UInt16.ofNat (codepoints mfr)) ++ mfr ++
    (wr16 (UInt16.ofNat (codepoints model)) ++ model ++
      (wr16 (UInt16.ofNat (codepoints ver)) ++ ver)))) :
    identity b = some (mfr, model, ver) ↔ codepoints mfr = mfr.length ∧
      codepoints model = model.length ∧ codepoints ver = ver.length := by
  have hwhole {s : Bytes} (hs : s.take (codepoints s) = s) : codepoints s = s.length :=
    Nat.le_antisymm (codepoints_le s) (List.take_eq_self_iff s |>.1 hs)
  have hmodel := h.right (n := 2 + mfr.length) (by rw [List.length_append, length_wr16])
  have hver := hmodel.right (n := 2 + model.length) (by rw [List.length_append, length_wr16])
  rw [Nat.zero_add] at hmodel hver
  rw [← Nat.add_assoc] at hver
  rw [identity, rdStr_of_ahead h.left, Option.bind_eq_bind, Option.bind_some, Nat.zero_add]
  dsimp only
  constructor
  · intro hid
    obtain ⟨⟨model', o₂⟩, hread, hid⟩ := Option.bind_eq_some_iff.1 hid
    obtain ⟨⟨ver', o₃⟩, hread', hid⟩ := Option.bind_eq_some_iff.1 hid
    obtain ⟨htake, rfl, rfl⟩ : mfr.take (codepoints mfr) = mfr ∧ model' = model ∧ ver' = ver :=
      ⟨congrArg (·.1) (Option.some.inj hid), congrArg (·.2.1) (Option.some.inj hid),
        congrArg (·.2.2) (Option.some.inj hid)⟩
    have hfirst := hwhole htake
    rw [hfirst, rdStr_of_ahead hmodel.left] at hread
    obtain ⟨htake', rfl⟩ := Prod.mk.inj (Option.some.inj hread)
    have hsecond := hwhole htake'
    rw [hsecond, rdStr_of_ahead hver] at hread'
    obtain ⟨htake'', -⟩ := Prod.mk.inj (Option.some.inj hread')
    exact ⟨hfirst, hsecond, hwhole htake''⟩
  · rintro ⟨hfirst, hsecond, hthird⟩
    rw [hfirst, rdStr_of_ahead hmodel.left, Option.bind_some, hsecond]
    dsimp only
    rw [rdStr_of_ahead hver, hthird, List.take_length, List.take_length, List.take_length]
    rfl

/-- A response that fits is no longer than the room for it. -/
theorem length_le_of_fit {room conn : ℕ} {cmd : Command} {rd : Reader} {i : ObjRef}
    {fs : List Field} (hf : d.find cmd.target = some i)
    (h : ({ d with activeConn := some conn } : Device K).Replies i cmd.level cmd.index fs)
    (hfit : (answer room conn cmd rd d).overflow = false) :
    (Field.encodeAll fs).length ≤ room := by
  have heq := answer_of_dispatch (e := ⟨.ok, { d with activeConn := some conn }, fs, 1⟩) room hf
    fun wr => h ⟨{ d with activeConn := some conn }, rd, wr, 0⟩ rfl
  rw [heq] at hfit
  change ((Writer.init room).fields fs).err = false at hfit
  refine Nat.le_of_not_lt fun hlong => ?_
  have herr : ((Writer.init room).fields fs).err = true :=
    Writer.fields_of_overflow rfl (by simpa [Writer.init, Writer.off] using hlong) (Nat.zero_le _)
  rw [hfit] at herr
  cases herr

/-- **The model description.** The bytes that are taken for its texts, before they are decoded, are
the texts of the device exactly if these have no continuation bytes. -/
theorem identity_of_reach (h : (control K).Reach d) {conn : ℕ} {cmd : Command} {rd : Reader}
    (htarget : cmd.target = 1) (hlevel : cmd.level = 3) (hindex : cmd.index = 6)
    (hfit : (answer K.txBufferSize conn cmd rd d).overflow = false) :
    identity (answer K.txBufferSize conn cmd rd d).response.params =
        some (d.manufacturer, d.model, d.version) ↔
      Bytewise d.manufacturer ∧ Bytewise d.model ∧ Bytewise d.version := by
  have ht := reach_tree h
  have hlt : 0 < d.objects.length := lt_of_lt_of_le (by decide) ht.registry.length_ge
  have hfind : d.find cmd.target = some 0 := by
    have hfind := ht.registry.find_ono hlt
    rwa [ht.registry.ono 0 hlt, ← show cmd.target = onoAt 0 from htarget] at hfind
  have hkind : (d.obj 0).kind = .deviceManager := (ht.registry.deviceManager 0 hlt).2 rfl
  have hreplies : ({ d with activeConn := some conn } : Device K).Replies 0 cmd.level cmd.index
      [.string d.manufacturer, .string d.model, .string d.version] := by
    rw [hlevel, hindex]
    refine replies_of_handler (h := devmgrDispatch) ?_ ?_ fun c hc => ?_
    · change methodIsWrite (d.obj 0).kind 3 6 = false
      rw [hkind]
      rfl
    · change handlerFor (d.obj 0).kind 3 = _
      rw [hkind]
      rfl
    · rw [devmgrDispatch, look_of hc]
      rfl
  rw [response_of_replies hfind hreplies hfit]
  dsimp only
  rw [encodeAll_texts, identity_of_ahead (ahead_zero _)]
  have hsize : (Field.encodeAll [.string d.manufacturer, .string d.model,
      .string d.version]).length < 2 ^ 16 := by
    have hroom := K.txBufferSize_range.2
    exact (length_le_of_fit hfind hreplies hfit).trans_lt (by omega)
  rw [encodeAll_texts] at hsize
  simp only [List.length_append, length_wr16] at hsize
  rw [codepoints_eq_length (by omega), codepoints_eq_length (by omega),
    codepoints_eq_length (by omega)]

end Texts

namespace Sample

theorem reach_gain : (control .default).Reach gain := by
  have hok : (server .default).ok start
      (.create (.gain ⟨0xC2700000⟩ ⟨0x41400000⟩ .zero) none (ascii "gain")) := fun _ h => nomatch h
  exact reach_control (reach_start.step hok)

theorem enumerate_gain : ∃ n ono,
    Smoketest.enumerate (answer 2048 0 listRoot (Reader.ofBytes []) gain).response.params =
      some (n, some ono) ∧ ∃ i, gain.find ono = some i ∧ (gain.obj i).kind = .gain := by
  have hfit : (answer 2048 0 listRoot (Reader.ofBytes []) gain).overflow = false := by
    decide +kernel
  obtain ⟨n, found, hread, -, hsome, hnone⟩ := enumerate_of_reach reach_gain rfl rfl rfl hfit
  cases found with
  | none => exact absurd (by decide) (hnone rfl 3 (by decide))
  | some ono => exact ⟨n, ono, hread, hsome ono rfl⟩

/-- `GetModelDescription`. -/
def describe : Command := ⟨8, 1, 3, 6, 0, []⟩

theorem identity_start : Smoketest.identity
    (answer 2048 0 describe (Reader.ofBytes []) start).response.params =
      some (start.manufacturer, start.model, start.version) := by
  have hfit : (answer 2048 0 describe (Reader.ofBytes []) start).overflow = false := by
    decide +kernel
  refine (identity_of_reach (reach_control reach_start) rfl rfl rfl hfit).2 ?_
  unfold Bytewise
  decide +kernel

end Sample

end Aes70
