import Aes70.Server.Locks

/-!
# Subscriptions are a set, and delivery is exactly once

Who is subscribed to what can be told from the log: a key is in from an accepted request of its
connection to add it, until the request to remove it or the end of the connection. The slots of
the table hold these keys and no others, each once; so a property change is sent to everyone who
is subscribed, once.

* `subscribes q log` : the key `q` is in after these events.
* `ExactlyOnce` : a notification went once to each connection subscribed when it was raised.
* `SubscriptionSet d` : the table is the set of keys the log gives.
* `subscriptions_exact` : it is in every reachable state.
-/

namespace Aes70

variable {K : Kconfig}

/-! ### Keys in the log -/

/-- What an event makes of the subscription with key `q`. -/
def subscribesNext (q : Key) (subscribed : Bool) : Event → Bool
  | .command c cmd .ok =>
    if cmd.key c = q then
      if cmd.IsSubscribe then true else if cmd.IsUnsubscribe then false else subscribed
    else subscribed
  | .closed c => if q.conn = c then false else subscribed
  | _ => subscribed

/-- After these events the key is subscribed. -/
def subscribes (q : Key) (log : List Event) : Bool := log.foldl (subscribesNext q) false

/-- A property change was sent exactly once to each connection that was subscribed. -/
def ExactlyOnce (before : List Event) (e : Event) : Prop :=
  ∀ i o level index sent, e = .propertyChanged i o level index sent →
    (sent.map Prod.fst).Nodup ∧
      ∀ c, c ∈ sent.map Prod.fst ↔ subscribes ⟨c, o.ono, 1, 1⟩ before = true

theorem subscribes_concat (q : Key) (log : List Event) (e : Event) :
    subscribes q (log ++ [e]) = subscribesNext q (subscribes q log) e := List.foldl_concat ..

theorem subscribes_output {log es : List Event} (h : ∀ e ∈ es, e.isOutput = true) (q : Key) :
    subscribes q (log ++ es) = subscribes q log := by
  rw [subscribes, List.foldl_append]
  refine Log.foldl_of_silent (fun e he b => ?_) _
  have hout := h e he
  cases e <;> first | rfl | cases hout

theorem subscribesNext_of_other {q : Key} {n : ℕ} {cmd : Command} {st : Status} {b : Bool}
    (h : st = .ok → ¬(cmd.IsSubscribe ∨ cmd.IsUnsubscribe)) :
    subscribesNext q b (.command n cmd st) = b := by
  cases st with
  | ok =>
    obtain ⟨hsub, hunsub⟩ := not_or.1 (h rfl)
    simp only [subscribesNext, if_neg hsub, if_neg hunsub, ite_self]
  | _ => rfl

/-! ### Watchers -/

section Watchers

variable {subs : Fin K.maxSubscriptions → Subscription}

theorem watches_iff (s : Subscription) (ono : UInt32) :
    s.watches ono = true ↔ s.inUse = true ∧ s.key = ⟨s.connIdx, ono, 1, 1⟩ := by
  simp [Subscription.watches, Subscription.key, and_assoc]

theorem mem_watchers {ono : UInt32} {c : ℕ} :
    c ∈ watchers subs ono ↔ (⟨c, ono, 1, 1⟩ : Key) ∈ subKeys subs := by
  simp only [watchers, List.mem_map, List.mem_filter, List.mem_finRange, true_and, watches_iff]
  constructor
  · rintro ⟨k, ⟨huse, hkey⟩, rfl⟩
    exact ⟨k, huse, hkey⟩
  · rintro ⟨k, huse, hkey⟩
    have hconn : (subs k).connIdx = c := congrArg Key.conn hkey
    exact ⟨k, ⟨huse, hconn ▸ hkey⟩, hconn⟩

theorem nodup_watchers (h : Slots.Distinct Subscription.inUse Subscription.key subs)
    (ono : UInt32) : (watchers subs ono).Nodup := by
  refine h.nodup_map (List.nodup_finRange _) (fun s hs => ((watches_iff s ono).1 hs).1)
    fun s s' hs hs' hconn => ?_
  rw [((watches_iff s ono).1 hs).2, ((watches_iff s' ono).1 hs').2, hconn]

end Watchers

/-! ### The table and the log -/

/-- The table holds the keys the log gives, each in one slot, and every notification in the log
went to those subscribed at the time. -/
structure Tracked (d : Device K) : Prop where
  keys : ∀ q, subscribes q d.log = true ↔ q ∈ subKeys d.subs
  distinct : Slots.Distinct Subscription.inUse Subscription.key d.subs
  contexts : ShortContexts d.subs
  delivery : Log.Always ExactlyOnce d.log

section Tracked

variable {d d' : Device K} {c : Fin K.maxConnections}

namespace Tracked

theorem steady (h : Tracked d) (hs : Steady True d d') : Tracked d' := by
  obtain ⟨es, hlog, hes⟩ := hs.log
  have hout (q : Key) {pre : List Event} (hpre : ∀ e ∈ pre, e ∈ es) :
      subscribes q (d.log ++ pre) = subscribes q d.log :=
    subscribes_output (fun e he => (hes e (hpre e he)).1) q
  refine ⟨?_, ?_, ?_, ?_⟩
  · intro q
    rw [hlog, hout q fun _ he => he, hs.subs]
    exact h.keys q
  · rw [hs.subs]
    exact h.distinct
  · rw [hs.subs]
    exact h.contexts
  · rw [hlog]
    refine Log.always_append h.delivery fun pre e post heq i o level index sent he => ?_
    have hmem : e ∈ es := heq ▸ List.mem_append_right _ (.head _)
    have hsent := (hes e hmem).2 trivial h.contexts i o level index sent he
    rw [hsent]
    refine ⟨nodup_watchers h.distinct o.ono, fun c => ?_⟩
    rw [mem_watchers, hout _ fun e he => heq ▸ List.mem_append_left _ he, h.keys]

/-- An event that is no notification, and the stores into the table that belong to it. -/
theorem store (h : Tracked d) {e : Event} (hlog : d'.log = d.log ++ [e])
    (hkeys : ∀ q, subscribesNext q (subscribes q d.log) e = true ↔ q ∈ subKeys d'.subs)
    (hdistinct : Slots.Distinct Subscription.inUse Subscription.key d'.subs)
    (hcontexts : ShortContexts d'.subs)
    (he : e.isOutput = false) : Tracked d' where
  keys q := by
    rw [hlog, subscribes_concat]
    exact hkeys q
  distinct := hdistinct
  contexts := hcontexts
  delivery := by
    rw [hlog]
    refine Log.always_concat h.delivery fun i o level index sent heq => ?_
    subst heq
    cases he

/-- An event that does not concern subscriptions. -/
theorem silent (h : Tracked d) {e : Event} (hlog : d'.log = d.log ++ [e]) (hsubs : d'.subs = d.subs)
    (hnext : ∀ q b, subscribesNext q b e = b)
    (he : e.isOutput = false) : Tracked d' :=
  h.store hlog (fun q => by rw [hnext, hsubs]; exact h.keys q) (hsubs ▸ h.distinct)
    (hsubs ▸ h.contexts) he

/-- The slots that `p` selects are freed; these are the ones with the keys that satisfy `P`. -/
theorem dropSubs (h : Tracked d) {e : Event} {p : Subscription → Bool} {P : Key → Prop}
    (hlog : d'.log = d.log ++ [e]) (hsubs : d'.subs = (d.dropSubs p).subs)
    (hp : ∀ s, s.inUse = true → (p s = true ↔ P s.key))
    (hnext : ∀ q b, subscribesNext q b e = true ↔ b = true ∧ ¬P q)
    (he : e.isOutput = false) : Tracked d' := by
  have hfree : d'.subs = Slots.free (fun s => { s with inUse := false }) p d.subs := hsubs
  refine h.store hlog (fun q => ?_) ?_ (fun k => ?_) he
  · rw [hnext, h.keys, hfree, subKeys, subKeys, Slots.keys_free (fun _ => by rfl) hp]
    rfl
  · rw [hfree]
    exact h.distinct.free fun _ => rfl
  · rw [hfree, Slots.free]
    split_ifs <;> exact h.contexts k

theorem executed (h : Tracked d) {n : ℕ} {cmd : Command} {st : Status}
    (hexec : Executed True d n cmd st d') : Tracked (d'.emit (.command n cmd st)) := by
  cases hexec with
  | other hs hst =>
    exact (h.steady hs).silent rfl rfl (fun q b => subscribesNext_of_other fun hok hm =>
      hst hok (.inr (.inr hm))) rfl
  | lock hm | unlock hm =>
    refine h.silent rfl rfl (fun q b => subscribesNext_of_other fun _ hk => ?_) rfl
    rcases hk with hk | hk <;> cases hm.1.symm.trans hk.2.1
  | subscribed hm hk =>
    refine h.store rfl (fun q => ?_) h.distinct h.contexts rfl
    by_cases hq : cmd.key n = q
    · subst hq
      simp only [subscribesNext, if_pos hm, if_true, true_iff]
      exact hk
    · simp only [subscribesNext, if_neg hq]
      exact h.keys q
  | @subscribe k s hm hfree hs hkey hnew hctx =>
    refine h.store rfl (fun q => ?_) (h.distinct.update (hkey ▸ hnew)) (fun k' => ?_) rfl
    · change _ ↔ q ∈ subKeys (Function.update d.subs k s)
      rw [subKeys, Slots.keys_update hfree hs, Set.mem_insert_iff, ← h.keys, hkey]
      by_cases hq : cmd.key n = q
      · simp [subscribesNext, hq, hm]
      · simp [subscribesNext, hq, Ne.symm hq]
    · by_cases hk : k' = k
      · subst hk
        simpa [Device.emit] using hctx
      · simpa [Device.emit, hk] using h.contexts k'
  | @unsubscribe p hm hp =>
    have hno : ¬cmd.IsSubscribe := by
      intro hs
      rcases hs.2.2 with h1 | h8 <;> rcases hm.2.2 with h2 | h9 <;> simp_all
    refine h.dropSubs (P := fun q => q = cmd.key n) rfl rfl (fun s hs => ?_) (fun q b => ?_) rfl
    · rw [hp]
      exact and_iff_right hs
    · by_cases hq : cmd.key n = q
      · simp [subscribesNext, hq, hno, hm]
      · simp [subscribesNext, hq, Ne.symm hq]

theorem move (h : Tracked d) (hm : Move True d d') : Tracked d' := by
  cases hm with
  | steady hs => exact h.steady hs
  | command _ hexec => exact h.executed hexec
  | @accept c _ _ _ granted =>
    have hfirst : Tracked (d.emit (.accepted c false)) := h.silent rfl rfl (fun _ _ => rfl) rfl
    exact hfirst.silent rfl rfl (fun _ _ => rfl) rfl
  | acceptTls | handshake => exact h.silent rfl rfl (fun _ _ => rfl) rfl
  | @close c huse =>
    rw [Device.closeConn_of_inUse huse]
    refine h.dropSubs (e := .closed c) (p := fun s => s.inUse && s.connIdx == c)
      (P := fun q => q.conn = c) rfl rfl (fun s hs => ?_) (fun q b => ?_) rfl
    · simp [hs, Subscription.key]
    · by_cases hq : q.conn = c <;> simp [subscribesNext, hq]
  | post => exact ⟨h.keys, h.distinct, h.contexts, h.delivery⟩

theorem start (h : (server K).init d) : Tracked d := by
  obtain ⟨cfg, net, h⟩ := h
  obtain ⟨e, rfl⟩ := start_eq h
  refine ⟨fun q => iff_of_false nofun ?_, ?_, fun _ => Nat.zero_le _, Log.always_nil⟩
  · rintro ⟨k, huse, -⟩
    cases huse
  · intro k k' huse
    cases huse

end Tracked

end Tracked

/-! ### Subscriptions of others -/

/-- The log grows, and the entries of `c` stay the same until an event of `c`. -/
def SubsKept (c : ℕ) (d d' : Device K) : Prop :=
  ∃ es, d'.log = d.log ++ es ∧ ((∀ e ∈ es, ¬e.By c) → ∀ k s, s.inUse = true → s.connIdx = c →
    (d'.subs k = s ↔ d.subs k = s))

section SubsKept

variable {T : Prop} {d d' d'' : Device K} {c : ℕ}

theorem SubsKept.refl (d : Device K) : SubsKept c d d :=
  ⟨[], (List.append_nil _).symm, fun _ _ _ _ _ => .rfl⟩

theorem SubsKept.trans (h : SubsKept c d d') (h' : SubsKept c d' d'') : SubsKept c d d'' := by
  obtain ⟨es, hlog, hsubs⟩ := h
  obtain ⟨es', hlog', hsubs'⟩ := h'
  refine ⟨es ++ es', by rw [hlog', hlog, List.append_assoc], fun hes k s hs hc => ?_⟩
  exact (hsubs' (fun e he => hes e (List.mem_append_right _ he)) k s hs hc).trans
    (hsubs (fun e he => hes e (List.mem_append_left _ he)) k s hs hc)

theorem SubsKept.of_subs (hsubs : d'.subs = d.subs) (hlog : ∃ es, d'.log = d.log ++ es) :
    SubsKept c d d' :=
  ⟨hlog.choose, hlog.choose_spec, fun _ k s _ _ => by rw [hsubs]⟩

theorem SubsKept.of_event {e : Event} (hlog : d'.log = d.log ++ [e])
    (hsubs : ¬e.By c → ∀ k s, s.inUse = true → s.connIdx = c → (d'.subs k = s ↔ d.subs k = s)) :
    SubsKept c d d' := ⟨[e], hlog, fun hes => hsubs (hes e (.head _))⟩

/-- Slots are freed whose entries are not those of `c`. -/
theorem SubsKept.dropSubs {e : Event} {p : Subscription → Bool} (hlog : d'.log = d.log ++ [e])
    (hsubs : d'.subs = (d.dropSubs p).subs) (hp : ¬e.By c → ∀ s, p s = true → s.connIdx ≠ c) :
    SubsKept c d d' := by
  refine .of_event hlog fun hby k s hs hc => ?_
  have hk : d'.subs k = if p (d.subs k) then { d.subs k with inUse := false } else d.subs k :=
    congrFun hsubs k
  rw [hk]
  split_ifs with hpk
  · refine iff_of_false ?_ ?_
    · rintro rfl
      cases hs
    · rintro rfl
      exact hp hby _ hpk hc
  · exact .rfl

theorem SubsKept.move (hm : Move T d d') : SubsKept c d d' := by
  have hsteady {d' : Device K} (hs : Steady T d d') : SubsKept c d d' :=
    .of_subs hs.subs (hs.log.imp fun _ h => h.1)
  cases hm with
  | steady hs => exact hsteady hs
  | @command n cmd _ _ _ hexec =>
    cases hexec with
    | other hs => exact (hsteady hs).trans (.of_event rfl fun _ _ _ _ _ => .rfl)
    | lock | unlock | subscribed => exact .of_event rfl fun _ _ _ _ _ => .rfl
    | @subscribe k₀ s₀ _ hfree _ hkey =>
      refine .of_event rfl fun hby k s hs hc => ?_
      change Function.update d.subs k₀ s₀ k = s ↔ d.subs k = s
      by_cases hk : k = k₀
      · -- the slot was free before and belongs to the other connection now
        subst hk
        have hconn : s₀.connIdx = n := congrArg Key.conn hkey
        refine iff_of_false (fun heq => hby ?_) fun heq => ?_
        · rw [← heq, Function.update_self] at hc
          exact hconn.symm.trans hc
        · rw [heq, hs] at hfree
          cases hfree
      · rw [Function.update_of_ne hk]
    | unsubscribe _ hp =>
      exact .dropSubs rfl rfl fun hby s hs hc =>
        hby ((congrArg Key.conn ((hp s).1 hs).2).symm.trans hc)
  | accept => exact .of_subs rfl ⟨_, List.append_assoc ..⟩
  | acceptTls | handshake => exact .of_subs rfl ⟨_, rfl⟩
  | @close k huse =>
    rw [Device.closeConn_of_inUse huse]
    refine .dropSubs (p := fun s => s.inUse && s.connIdx == k) rfl rfl fun hby s hs hc => hby ?_
    simp only [Bool.and_eq_true, beq_iff_eq] at hs
    exact hs.2.symm.trans hc
  | post => exact .of_subs rfl ⟨[], (List.append_nil _).symm⟩

theorem SubsKept.moves (hm : Moves T d d') : SubsKept c d d' := by
  induction hm with
  | refl => exact .refl d
  | tail _ hone ih => exact ih.trans (.move hone)

end SubsKept

/-! ### A full table -/

section Full

variable {c : ℕ} {cmd : Command} {p : Ptr} {n : ℕ} {call : Call K}
  (hactive : call.dev.activeConn = some c) (hparams : cmd.params = p.read n)
  (hrd : call.rd = Reader.init p n) (hfull : call.dev.findSlot = none)
  (hnew : cmd.key c ∉ subKeys call.dev.subs)
include hactive hparams hrd hfull hnew

theorem addSubscription_full {ev2 : Bool}
    (hcomplete : (readSubscription ev2 call.rd).2.err = false) :
    (addSubscription ev2 call).1 = .outOfMemory ∧ (addSubscription ev2 call).2.dev = call.dev := by
  have hkey := readSubscription_key (c := c) hparams (hrd ▸ hcomplete)
  rw [← hrd] at hkey
  have htable := mem_subKeys_iff call.dev c (readSubscription ev2 call.rd).1.emitterOno
    (readSubscription ev2 call.rd).1.eventLevel (readSubscription ev2 call.rd).1.eventIndex
  rw [show (⟨c, _, _, _⟩ : Key) = cmd.key c from hkey] at htable
  have hno := Bool.eq_false_iff.2 (mt htable.1 hnew)
  simp only [addSubscription, Handler.reading, hcomplete, Handler.look, hactive, hno, hfull,
    Handler.ret, Bool.false_eq_true, if_false, and_self]

/-- An Add that finds no free slot is answered OutOfMemory and changes nothing. -/
theorem execCommand_full (hr : call.dev.Registry) (hm : cmd.IsSubscribe)
    (hcomplete : (readSubscription (cmd.index == 8) call.rd).2.err = false) :
    (execCommand c cmd call).1 = .outOfMemory ∧
      (execCommand c cmd call).2.dev = call.dev.emit (.command c cmd .outOfMemory) := by
  obtain ⟨htarget, hlevel, hindex⟩ := hm
  have hlt : 1 < call.dev.objects.length := lt_of_lt_of_le (by decide) hr.length_ge
  have hkind : (call.dev.obj 1).kind = .subscriptionManager := (hr.subscriptionManager 1 hlt).2 rfl
  have hfind : call.dev.find cmd.target = some 1 := by
    rw [htarget, show (4 : UInt32) = (call.dev.obj 1).ono from (hr.ono 1 hlt).symm]
    exact hr.find_ono hlt
  have hhandler : handlerFor (K := K) (call.dev.obj 1).kind cmd.level = some submgrDispatch := by
    rw [hkind, hlevel]
    rfl
  have hgate : call.dev.gate 1 cmd.level cmd.index = none := by
    simp [Device.gate, hkind, hlevel, methodIsWrite]
  have hdispatch : objectDispatch 1 cmd.level cmd.index call =
      addSubscription (cmd.index == 8) call := by
    rw [objectDispatch_of_handler hhandler hgate rfl]
    rcases hindex with h1 | h8
    · rw [h1]
      rfl
    · rw [h8]
      rfl
  obtain ⟨hst, hdev⟩ := addSubscription_full hactive hparams hrd hfull hnew hcomplete
  simp only [execCommand, hfind, hdispatch, hst, hdev, and_self]

end Full

/-! ### Reachable states -/

/-- The table of subscriptions is the set of keys the log gives, each in one slot. The entries of
a connection change by its own commands and its end only, a full table takes no more of them, and
every property change went exactly once to each connection subscribed to it. -/
structure SubscriptionSet (d : Device K) : Prop where
  keys : ∀ q, q ∈ subKeys d.subs ↔ subscribes q d.log = true
  distinct : Slots.Distinct Subscription.inUse Subscription.key d.subs
  foreign : ∀ l d', (typedServer K).Run d l d' → ∃ es, d'.log = d.log ++ es ∧
    ∀ c, (∀ e ∈ es, ¬e.By c) → ∀ k s, s.inUse = true → s.connIdx = c →
      (d'.subs k = s ↔ d.subs k = s)
  full : ∀ c cmd p n wr pc, cmd.IsSubscribe → cmd.params = p.read n →
    (readSubscription (cmd.index == 8) (Reader.init p n)).2.err = false → d.findSlot = none →
    cmd.key c ∉ subKeys d.subs →
    let call : Call K := ⟨{ d with activeConn := some c }, Reader.init p n, wr, pc⟩
    (execCommand c cmd call).1 = .outOfMemory ∧
      (execCommand c cmd call).2.dev = call.dev.emit (.command c cmd .outOfMemory)
  delivery : Log.Always ExactlyOnce d.log

/-- **Subscriptions are a set, and delivery is exactly once**. -/
theorem subscriptions_exact {d : Device K} (h : (typedServer K).Reach d) : SubscriptionSet d := by
  have hsound := driven_typedServer.sound h
  have hd : Tracked d := driven_typedServer.invariant (I := Tracked) (fun _ => .start)
    (fun _ _ _ hd hm => hd.move hm) h
  refine ⟨fun q => (hd.keys q).symm, hd.distinct, fun l d' hrun => ?_,
    fun c cmd p n wr pc hm hparams hcomplete hfull hnew => ?_, hd.delivery⟩
  · have hmoves := driven_typedServer.moves h hrun
    obtain ⟨es, hlog, -⟩ := SubsKept.moves (c := 0) hmoves
    refine ⟨es, hlog, fun c hes => ?_⟩
    obtain ⟨es', hlog', hkept⟩ := SubsKept.moves (c := c) hmoves
    obtain rfl : es' = es := List.append_cancel_left (hlog'.symm.trans hlog)
    exact hkept hes
  · exact execCommand_full rfl hparams rfl hfull hnew
      (hsound.registry.congr rfl (fun _ _ => rfl) rfl) hm hcomplete

namespace Sample

/-- A frame with the command AddSubscription2 for the PropertyChanged event of the root block. -/
def subscribeFrame : Bytes :=
  [0x3B, 0, 4, 0, 0, 0, 35, 1, 0, 1, 0, 0, 0, 26, 0, 0, 0, 1, 0, 0, 0, 4, 0, 3, 0, 8, 3,
    0, 0, 0, 100, 0, 1, 0, 1, 1]

/-- The client in slot 0 subscribes to the root block. -/
def subscribeRoot : List (Input .default) :=
  [.accept [] 0 true,
    .service ⟨0, Nat.zero_lt_succ _⟩ 0 ⟨true, .done, true, [.data subscribeFrame fun _ => 0]⟩]

theorem subs_subscribeRoot : ((after subscribeRoot).subs (0 : Fin 64)).watches 100 = true := by
  have hrx : (connected.conns (0 : Fin 4)).rx = [] := rfl
  have hframe := Device.receive_frame (d := connected) 0 (fun _ => 0) hrx (by decide)
    (by decide : rxHead 2048 subscribeFrame = .frame 36 ⟨1, 1, subscribeFrame.drop 10⟩)
  change ((Device.closeUnless (0 : Fin 4)
    (connected.receive (0 : Fin 4) 0 subscribeFrame fun _ => 0)).subs (0 : Fin 64)).watches 100 = _
  rw [hframe]
  decide +kernel

theorem subscriptionSet_subscribeRoot :
    ((after subscribeRoot).subs (0 : Fin 64)).watches 100 = true ∧
      SubscriptionSet (after subscribeRoot) := by
  have hstart : (typedServer .default).Reach start := .init ⟨config, net, (Option.some_get _).symm⟩
  have hrun : (typedServer .default).Run start subscribeRoot (after subscribeRoot) :=
    .cons ⟨trivial, trivial⟩ (.cons ⟨trivial, trivial⟩ (.nil _))
  exact ⟨subs_subscribeRoot, subscriptions_exact (hstart.run hrun)⟩

end Sample

end Aes70
