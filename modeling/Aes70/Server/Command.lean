import Aes70.Router.Parse
import Aes70.Server.Steady
import Aes70.Table.Slots

/-!
# What a command does to the sessions

Three things a command can do concern other sessions: it can lock or unlock an object, subscribe to
an event, and give a subscription up. Everything else it does is steady.

* `Command.IsLock`, `Command.IsSubscribe`, .. : the methods that do so.
* `Key` : what identifies a subscription.
* `Executed T d c cmd st d'` : the command `cmd` of connection `c` took `d` to `d'` with status
  `st`.
* `execCommand_executed` : every command does.
-/

namespace Aes70

variable {K : Kconfig}

/-! ### Methods -/

namespace Command

variable (cmd : Command)

/-- SetLockNoReadWrite or SetLockNoWrite. -/
def IsLock : Prop := cmd.level = 1 ∧ (cmd.index = 3 ∨ cmd.index = 6)

def IsUnlock : Prop := cmd.level = 1 ∧ cmd.index = 4

/-- AddSubscription or AddSubscription2 of the subscription manager. -/
def IsSubscribe : Prop := cmd.target = 4 ∧ cmd.level = 3 ∧ (cmd.index = 1 ∨ cmd.index = 8)

/-- RemoveSubscription or RemoveSubscription2 of the subscription manager. -/
def IsUnsubscribe : Prop := cmd.target = 4 ∧ cmd.level = 3 ∧ (cmd.index = 2 ∨ cmd.index = 9)

instance : Decidable cmd.IsLock := inferInstanceAs (Decidable (_ ∧ _))

instance : Decidable cmd.IsUnlock := inferInstanceAs (Decidable (_ ∧ _))

instance : Decidable cmd.IsSubscribe := inferInstanceAs (Decidable (_ ∧ _))

instance : Decidable cmd.IsUnsubscribe := inferInstanceAs (Decidable (_ ∧ _))

/-- The command controls a lock or a subscription. -/
def IsControl : Prop := cmd.IsLock ∨ cmd.IsUnlock ∨ cmd.IsSubscribe ∨ cmd.IsUnsubscribe

end Command

/-! ### Keys -/

/-- What identifies a subscription: who subscribed, to which event of which object. -/
structure Key where
  conn : ℕ
  emitter : UInt32
  level : UInt16
  index : UInt16
deriving DecidableEq

/-- The key of an entry of the table. -/
def Subscription.key (s : Subscription) : Key :=
  ⟨s.connIdx, s.emitterOno, s.eventLevel, s.eventIndex⟩

/-- The key the parameters of a subscription command name. -/
def Command.key (conn : ℕ) (cmd : Command) : Key :=
  ⟨conn, rd32 (cmd.params.take 4), rd16 ((cmd.params.drop 4).take 2),
    rd16 ((cmd.params.drop 6).take 2)⟩

/-- The keys of the table. -/
abbrev subKeys (subs : Fin K.maxSubscriptions → Subscription) : Set Key :=
  Slots.keys Subscription.inUse Subscription.key subs

theorem Subscription.same_iff {s : Subscription} {c : ℕ} {emitter : UInt32}
    {level index : UInt16} : s.same (some c) emitter level index = true ↔
      s.inUse = true ∧ s.key = ⟨c, emitter, level, index⟩ := by
  simp [Subscription.same, Subscription.key, and_assoc]

/-! ### Effects -/

/-- A command of connection `c` took `d` to `d'` and was answered with `st`. -/
inductive Executed (T : Prop) (d : Device K) (c : ℕ) (cmd : Command) : Status → Device K → Prop
  /-- A command that is refused, or that controls neither locks nor subscriptions. -/
  | other {st : Status} {d' : Device K} (h : Steady T d d') (hst : st = .ok → ¬cmd.IsControl) :
    Executed T d c cmd st d'
  | lock {i : ObjRef} {s : LockState} (hm : cmd.IsLock) (hf : d.find cmd.target = some i)
    (hs : s ≠ .none) (hfree : (d.obj i).lockState = .none ∨ (d.obj i).lockOwner = some c) :
    Executed T d c cmd .ok
      (d.modifyObj i fun o => { o with lockState := s, lockOwner := some c })
  | unlock {i : ObjRef} (hm : cmd.IsUnlock) (hf : d.find cmd.target = some i)
    (hfree : (d.obj i).lockState = .none ∨ (d.obj i).lockOwner = some c) :
    Executed T d c cmd .ok
      (d.modifyObj i fun o => { o with lockState := .none, lockOwner := none })
  /-- The subscription is there already. -/
  | subscribed (hm : cmd.IsSubscribe) (hk : cmd.key c ∈ subKeys d.subs) :
    Executed T d c cmd .ok d
  | subscribe {k : Fin K.maxSubscriptions} {s : Subscription} (hm : cmd.IsSubscribe)
    (hfree : (d.subs k).inUse = false) (hs : s.inUse = true) (hkey : s.key = cmd.key c)
    (hnew : cmd.key c ∉ subKeys d.subs) (hctx : s.context.length ≤ 8) :
    Executed T d c cmd .ok { d with subs := Function.update d.subs k s }
  | unsubscribe {p : Subscription → Bool} (hm : cmd.IsUnsubscribe)
    (hp : ∀ s, p s = true ↔ s.inUse = true ∧ s.key = cmd.key c) :
    Executed T d c cmd .ok (d.dropSubs p)

/-! ### Parameters -/

section Params

variable {p : Ptr} {n : ℕ}

theorem Read.fixed_ok {α : Type} {k : ℕ} {zero : α} {f : Bytes → α} {r : Reader}
    (h : (fixed k zero f r).2.err = false) : r.err = false ∧ k ≤ r.remaining := by
  unfold fixed at h
  split_ifs at h with hbad
  · simp [Reader.fail] at h
  · simpa using hbad

theorem Read.blob_ok {r : Reader} (h : (blob r).2.err = false) : r.err = false := by
  unfold blob at h
  dsimp only at h
  split_ifs at h with hbad
  · simp [Reader.fail] at h
  · simp only [Bool.or_eq_true, not_or, Bool.not_eq_true] at hbad
    exact (fixed_ok hbad.1).1

theorem take_drop_read {m k : ℕ} (h : m + k ≤ n) :
    ((p.read n).drop m).take k = (p.add m).read k := by
  rw [Ptr.drop_read, Ptr.take_read _ (by omega)]

/-- The event a subscription command names, when its parameters hold one. -/
theorem readEvent_init (h : (readEvent (Reader.init p n)).2.err = false) :
    (readEvent (Reader.init p n)).1 = (rd32 ((p.read n).take 4),
      rd16 (((p.read n).drop 4).take 2), rd16 (((p.read n).drop 6).take 2)) := by
  let r := Reader.init p n
  have hread : readEvent r = (((Read.u32 r).1, (Read.u16 (Read.u32 r).2).1,
      (Read.u16 (Read.u16 (Read.u32 r).2).2).1), (Read.u16 (Read.u16 (Read.u32 r).2).2).2) := rfl
  rw [hread] at h
  obtain ⟨he₂, hn₃⟩ := Read.fixed_ok h
  obtain ⟨he₁, hn₂⟩ := Read.fixed_ok he₂
  obtain ⟨-, hn₁⟩ := Read.fixed_ok he₁
  have h₁ : Read.u32 r = (rd32 (r.peek 4), r.advance 4) := Read.fixed_of_le rfl hn₁
  rw [h₁] at hn₂ hn₃
  have h₂ : Read.u16 (r.advance 4) = (rd16 ((r.advance 4).peek 2), (r.advance 4).advance 2) :=
    Read.fixed_of_le rfl hn₂
  rw [h₂] at hn₃
  have h₃ : Read.u16 ((r.advance 4).advance 2) =
      (rd16 (((r.advance 4).advance 2).peek 2), ((r.advance 4).advance 2).advance 2) :=
    Read.fixed_of_le rfl hn₃
  have hn : 8 ≤ n := by
    have hrem : r.remaining = n := Reader.remaining_eq r
    rw [Reader.remaining_advance, Reader.remaining_advance, hrem] at hn₃
    omega
  rw [show readEvent (Reader.init p n) = _ from hread, h₁, h₂, h₃, take_drop_read (by omega),
    take_drop_read (by omega), Ptr.take_read _ (by omega)]
  simp only [Reader.peek, Reader.advance, r, Reader.init, Ptr.add_zero, Nat.zero_add]

/-- What an add request reads, when its parameters are complete. -/
theorem readSubscription_ok {ev2 : Bool} {rd : Reader}
    (h : (readSubscription ev2 rd).2.err = false) : (readEvent rd).2.err = false ∧
      (readSubscription ev2 rd).1.emitterOno = (readEvent rd).1.1 ∧
      (readSubscription ev2 rd).1.eventLevel = (readEvent rd).1.2.1 ∧
      (readSubscription ev2 rd).1.eventIndex = (readEvent rd).1.2.2 := by
  cases ev2 with
  | true => exact ⟨(Read.fixed_ok h).1, rfl, rfl, rfl⟩
  | false =>
    have hmethod := Read.blob_ok (Read.fixed_ok h).1
    have hevent := (Read.fixed_ok (Read.fixed_ok (Read.fixed_ok hmethod).1).1).1
    exact ⟨hevent, rfl, rfl, rfl⟩

theorem readSubscription_stored (ev2 : Bool) (rd : Reader) :
    (readSubscription ev2 rd).1.inUse = true ∧
      (readSubscription ev2 rd).1.context.length ≤ 8 := by
  cases ev2 with
  | true => exact ⟨rfl, Nat.zero_le _⟩
  | false => exact ⟨rfl, List.length_take_le 8 _⟩

/-- The key of the entry an add request stores is the one its parameters name. -/
theorem readSubscription_key {ev2 : Bool} {cmd : Command} {c : ℕ} (hparams : cmd.params = p.read n)
    (h : (readSubscription ev2 (Reader.init p n)).2.err = false) :
    { (readSubscription ev2 (Reader.init p n)).1 with connIdx := c }.key = cmd.key c := by
  obtain ⟨hevent, hemitter, hlevel, hindex⟩ := readSubscription_ok h
  rw [Subscription.key, hemitter, hlevel, hindex, readEvent_init hevent, Command.key, hparams]

end Params

/-! ### Handlers -/

section Handlers

variable {T : Prop} {d : Device K} {c : ℕ} {cmd : Command} {i : ObjRef}

theorem executed_refused {st : Status} (h : st ≠ .ok) : Executed T d c cmd st d :=
  .other (.refl d) fun hok => absurd hok h

theorem mem_subKeys_iff (d : Device K) (conn : ℕ) (emitter : UInt32) (level index : UInt16) :
    d.subscribed (some conn) emitter level index = true ↔
      (⟨conn, emitter, level, index⟩ : Key) ∈ subKeys d.subs := by
  simp only [Device.subscribed, List.any_eq_true, List.mem_finRange, true_and,
    Subscription.same_iff]
  rfl

theorem rootDispatch_executed (hactive : d.activeConn = some c) (hlevel : cmd.level = 1)
    (hf : d.find cmd.target = some i) (hg : d.gate i cmd.level cmd.index = none) :
    Handler.Does (rootDispatch i cmd.index) d (Executed T d c cmd) := by
  have hfree (hm : cmd.index = 3 ∨ cmd.index = 4 ∨ cmd.index = 6) : d.LockFree i :=
    lockFree_of_gate hg (by rcases hm with h | h | h <;> simp [methodIsWrite, hlevel, h])
  have hquery (hm : ¬(cmd.index = 3 ∨ cmd.index = 4 ∨ cmd.index = 6)) : ¬cmd.IsControl := by
    rintro (h | h | h | h)
    · exact hm (h.2.elim .inl fun h => .inr (.inr h))
    · exact hm (.inr (.inl h.2))
    · exact absurd (hlevel.symm.trans h.2.1) (by decide)
    · exact absurd (hlevel.symm.trans h.2.1) (by decide)
  unfold Device.LockFree at hfree
  rw [hactive] at hfree
  have hother (hm : ¬(cmd.index = 3 ∨ cmd.index = 4 ∨ cmd.index = 6)) {st : Status} :
      Executed T d c cmd st d := .other (.refl d) fun _ => hquery hm
  refine Handler.does_look ?_
  split
  · next h => exact Handler.does_reply (hother (by simp [h]))
  · next h => exact Handler.does_reply (hother (by simp [h]))
  · next h =>
    refine Handler.does_store ?_
    rw [hactive]
    exact .lock ⟨hlevel, .inl h⟩ hf (by decide) (hfree (.inl h))
  · next h => exact Handler.does_store (.unlock ⟨hlevel, h⟩ hf (hfree (.inr (.inl h))))
  · next h => exact Handler.does_reply (hother (by simp [h]))
  · next h =>
    refine Handler.does_store ?_
    rw [hactive]
    exact .lock ⟨hlevel, .inr h⟩ hf (by decide) (hfree (.inr (.inr h)))
  · next h => exact Handler.does_reply (hother (by simp [h]))
  · exact Handler.does_ret (executed_refused (by decide))

section Subscriptions

variable {p : Ptr} {n : ℕ} {call : Call K} (hactive : call.dev.activeConn = some c)
  (hparams : cmd.params = p.read n) (hrd : call.rd = Reader.init p n)
include hactive hparams hrd

theorem addSubscription_executed {ev2 : Bool} (hm : cmd.IsSubscribe) :
    Handler.DoesAt (addSubscription ev2) call (Executed T call.dev c cmd) := by
  refine Handler.doesAt_reading (executed_refused (by decide)) fun herr => ?_
  rw [hrd] at herr ⊢
  have hkey := readSubscription_key hparams (c := c) herr
  obtain ⟨huse, hctx⟩ := readSubscription_stored ev2 (Reader.init p n)
  generalize (readSubscription ev2 (Reader.init p n)).1 = s at hkey huse hctx
  refine Handler.does_look ?_
  rw [hactive]
  have htable := mem_subKeys_iff call.dev c s.emitterOno s.eventLevel s.eventIndex
  rw [show (⟨c, s.emitterOno, s.eventLevel, s.eventIndex⟩ : Key) = cmd.key c from hkey] at htable
  refine Handler.does_ite (fun h => Handler.does_ret (.subscribed hm (htable.1 h))) fun h => ?_
  split
  · exact Handler.does_ret (executed_refused (by decide))
  · next k hk =>
    have hfree : (call.dev.subs k).inUse = false := by simpa using List.find?_some hk
    exact Handler.does_store (.subscribe hm hfree huse hkey (fun hmem => h (htable.2 hmem)) hctx)

theorem removeSubscription_executed (hm : cmd.IsUnsubscribe) :
    Handler.DoesAt removeSubscription call (Executed T call.dev c cmd) := by
  refine Handler.doesAt_reading (executed_refused (by decide)) fun herr => ?_
  rw [hrd] at herr ⊢
  rw [readEvent_init herr, ← hparams]
  refine Handler.does_store (.unsubscribe hm fun s => ?_)
  rw [hactive]
  exact Subscription.same_iff

theorem submgrDispatch_executed (htarget : cmd.target = 4) (hlevel : cmd.level = 3) :
    Handler.DoesAt (submgrDispatch i cmd.index) call (Executed T call.dev c cmd) := by
  have hother (hm : ¬(cmd.index = 1 ∨ cmd.index = 8 ∨ cmd.index = 2 ∨ cmd.index = 9)) :
      ¬cmd.IsControl := by
    rintro (h | h | h | h)
    · exact absurd (hlevel.symm.trans h.1) (by decide)
    · exact absurd (hlevel.symm.trans h.1) (by decide)
    · exact hm (h.2.2.elim .inl fun h => .inr (.inl h))
    · exact hm (.inr (.inr h.2.2))
  have hswitch (hm : ¬(cmd.index = 1 ∨ cmd.index = 8 ∨ cmd.index = 2 ∨ cmd.index = 9)) (off : Bool) :
      Executed T call.dev c cmd .ok { call.dev with notificationsDisabled := off } :=
    .other (.of_eq rfl rfl rfl rfl rfl (fun _ h => h) rfl) fun _ => hother hm
  unfold submgrDispatch
  split
  · next h => exact addSubscription_executed hactive hparams hrd ⟨htarget, hlevel, .inl h⟩
  · next h => exact removeSubscription_executed hactive hparams hrd ⟨htarget, hlevel, .inl h⟩
  · next h => exact hswitch (by simp [h]) true
  · next h => exact hswitch (by simp [h]) false
  · next h => exact addSubscription_executed hactive hparams hrd ⟨htarget, hlevel, .inr h⟩
  · next h => exact removeSubscription_executed hactive hparams hrd ⟨htarget, hlevel, .inr h⟩
  · exact Handler.does_ret (executed_refused (by decide)) call rfl

/-- A command that reaches its object. -/
theorem objectDispatch_executed (hr : call.dev.Registry)
    (hf : call.dev.find cmd.target = some i) :
    Handler.DoesAt (objectDispatch i cmd.level cmd.index) call (Executed T call.dev c cmd) := by
  unfold Handler.DoesAt
  cases hh : handlerFor (K := K) (call.dev.obj i).kind cmd.level with
  | none =>
    rw [objectDispatch_of_none hh]
    exact executed_refused (fun hst => by cases hst)
  | some h =>
    cases hg : call.dev.gate i cmd.level cmd.index with
    | some st =>
      rw [objectDispatch_of_stop hh hg]
      exact executed_refused (gate_ne_ok hg)
    | none =>
      have hout := objectDispatch_outcome i cmd.level cmd.index call rfl
      rw [objectDispatch_of_handler hh hg rfl] at hout ⊢
      have hkind := hr.kind_eq_iff hf
      have hsteady (hlevel : cmd.level ≠ 1)
          (hne : (call.dev.obj i).kind ≠ .subscriptionManager) :
          Executed T call.dev c cmd (h i cmd.index call).1 (h i cmd.index call).2.dev := by
        refine .other (hout.steady (Device.find_lt hf) hlevel hne) fun _ => ?_
        rintro (hm | hm | hm | hm)
        · exact hlevel hm.1
        · exact hlevel hm.1
        · exact hne (hkind.2 hm.1)
        · exact hne (hkind.2 hm.1)
      have hof := handlerOf_of_handlerFor hh
      generalize hl : cmd.level = level at hof
      generalize hk : (call.dev.obj i).kind = kind at hof
      cases hof with
      | root => exact rootDispatch_executed hactive hl hf hg call rfl
      | submgr => exact submgrDispatch_executed hactive hparams hrd (hkind.1 hk) hl
      | worker _ hmem =>
        refine hsteady (by rw [hl]; decide) fun hs => hmem ?_
        rw [← hk, hs]
        decide
      | sensor _ hmem | levelSensor _ hmem | gain _ hmem | state2 _ hmem | basic _ hmem =>
        refine hsteady (by rw [hl]; decide) fun hs => ?_
        rw [← hk, hs] at hmem
        exact absurd hmem (by decide)
      | _ => exact hsteady (by rw [hl]; decide) (by rw [hk]; decide)

/-- **Every command** is steady, or locks, unlocks, subscribes or unsubscribes for its own
connection. -/
theorem execCommand_executed (hr : call.dev.Registry) :
    ∃ d', Executed T call.dev c cmd (execCommand c cmd call).1 d' ∧
      (execCommand c cmd call).2.dev = d'.emit (.command c cmd (execCommand c cmd call).1) := by
  cases hf : call.dev.find cmd.target with
  | none =>
    rw [execCommand_of_none hf]
    exact ⟨call.dev, executed_refused (show Status.badOno ≠ .ok by decide), rfl⟩
  | some i =>
    rw [execCommand_of_find hf]
    exact ⟨_, objectDispatch_executed hactive hparams hrd hr hf, rfl⟩

end Subscriptions

end Handlers

end Aes70
