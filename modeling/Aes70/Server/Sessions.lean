import Aes70.Machine.Log
import Aes70.Server.Moves

/-!
# Sessions do not leak

A connection slot is used by one client after the other. The log says who is in it: `phase` folds
the events of a slot into its state. The tables of the device agree with that, so that nothing of
a client is left when the next one gets the slot.

* `phase log c` : the state of slot `c` after these events.
* `Isolated d` : subscriptions, locks and privileges belong to the clients that are connected.
* `Newcomer d c granted` : the client in slot `c` starts with nothing but what it was granted.
* `sessions_isolated` : both hold in every reachable state.
-/

namespace Aes70

variable {K : Kconfig}

/-! ### Phases -/

/-- The state of a connection slot. -/
inductive Phase
  /-- No client has the slot. -/
  | free
  /-- Accepted; the privilege decision is not taken yet. -/
  | pending
  /-- Open for commands, with the privilege that was granted. -/
  | opened (granted : Bool)
deriving DecidableEq

/-- What an event makes of the state of slot `c`. -/
def Phase.next (c : ℕ) (p : Phase) : Event → Phase
  | .accepted k _ => if k = c then .pending else p
  | .authorized k granted => if k = c then .opened granted else p
  | .closed k => if k = c then .free else p
  | _ => p

/-- The state of slot `c` after the events of a log. -/
def phase (log : List Event) (c : ℕ) : Phase := log.foldl (Phase.next c) .free

/-- The entry of the connection table says the same as the log. -/
def Phase.Fits : Phase → Conn → Prop
  | .free, e => e.inUse = false ∧ e.privileged = false
  | .pending, e =>
    e.inUse = true ∧ e.handshaking = true ∧ e.tls = true ∧ e.privileged = false
  | .opened granted, e => e.Live ∧ e.privileged = granted

theorem phase_concat (log : List Event) (e : Event) (c : ℕ) :
    phase (log ++ [e]) c = (phase log c).next c e := List.foldl_concat ..

theorem phase_append (log es : List Event) (c : ℕ) :
    phase (log ++ es) c = es.foldl (Phase.next c) (phase log c) := List.foldl_append

/-- Output does not concern the slots. -/
theorem phase_output {log es : List Event} (h : ∀ e ∈ es, e.isOutput = true) (c : ℕ) :
    phase (log ++ es) c = phase log c := by
  rw [phase_append]
  refine Log.foldl_of_silent (fun e he p => ?_) _
  have hout := h e he
  cases e <;> first | rfl | cases hout

/-! ### Isolation -/

namespace Device

/-- The number is that of a slot whose connection is open. -/
def Open (d : Device K) (c : ℕ) : Prop := ∃ k : Fin K.maxConnections, k = c ∧ (d.conns k).Live

/-- What is left in use was not dropped. -/
theorem inUse_dropSubs {d : Device K} {p : Subscription → Bool} {k : Fin K.maxSubscriptions}
    (h : ((d.dropSubs p).subs k).inUse = true) :
    (d.dropSubs p).subs k = d.subs k ∧ ¬p (d.subs k) = true := by
  unfold dropSubs at h ⊢
  dsimp only at h ⊢
  split_ifs at h ⊢ with hp
  exact ⟨rfl, hp⟩

end Device

/-- A command is executed for an open connection only. -/
def OpenCommand (before : List Event) (e : Event) : Prop :=
  ∀ c cmd st, e = .command c cmd st → ∃ granted, phase before c = .opened granted

/-- Subscriptions, locks and privileges belong to the clients that are connected. -/
structure Isolated (d : Device K) : Prop where
  /-- The connection table agrees with the log. In particular a slot is privileged only if the
  decision for the client in it granted it. -/
  slots : ∀ c : Fin K.maxConnections, (phase d.log c).Fits (d.conns c)
  /-- Without a callback, TLS clients of a device that checks certificates are privileged. -/
  policy : ∀ c, d.cfg.authorize = false → (d.conns c).privileged = true →
    (d.conns c).tls = true ∧ d.cfg.clientCaPem = true
  subs : ∀ k, (d.subs k).inUse = true → d.Open (d.subs k).connIdx
  locks : ∀ i c, (d.obj i).lockOwner = some c → d.Open c
  owner : ∀ i, (d.obj i).lockOwner = none ↔ (d.obj i).lockState = .none
  commands : Log.Always OpenCommand d.log

/-- The client in slot `c` has nothing but the privilege it was granted. -/
structure Newcomer (d : Device K) (c : Fin K.maxConnections) (granted : Bool) : Prop where
  inUse : (d.conns c).inUse = true
  privileged : (d.conns c).privileged = granted
  rx : (d.conns c).rx = []
  heartbeat : (d.conns c).heartbeatMs = 0
  subs : ∀ k, (d.subs k).inUse = true → (d.subs k).connIdx ≠ c
  locks : ∀ i, (d.obj i).lockOwner ≠ some c.val

section Parts

variable {T : Prop} {d d' : Device K} {c : Fin K.maxConnections}

theorem not_openCommand_of_output {before : List Event} {e : Event} (h : e.isOutput = true) :
    OpenCommand before e := by
  rintro c cmd st rfl
  cases h

theorem Phase.Fits.of_standing {p : Phase} {e e' : Conn} (h : p.Fits e)
    (hs : e'.standing = e.standing) : p.Fits e' := by
  simp only [Conn.standing, Conn.mk.injEq] at hs
  obtain ⟨huse, -, hpriv, htls, hshake, -⟩ := hs
  cases p <;> simpa [Fits, Conn.Live, huse, hpriv, htls, hshake] using h

theorem Device.Open.of_standing {n : ℕ} (h : d.Open n)
    (hs : ∀ c, (d'.conns c).standing = (d.conns c).standing) : d'.Open n := by
  obtain ⟨k, hk, hlive⟩ := h
  exact ⟨k, hk, hlive.of_standing (hs k)⟩

namespace Isolated

/-- The connection is open exactly when the log says so. -/
theorem opened (h : Isolated d) (hlive : (d.conns c).Live) :
    ∃ granted, phase d.log c = .opened granted := by
  have hfits := h.slots c
  obtain ⟨huse, hshake⟩ := hlive
  cases hphase : phase d.log c with
  | free => simp [hphase, Phase.Fits, huse] at hfits
  | pending => simp [hphase, Phase.Fits, hshake] at hfits
  | opened granted => exact ⟨granted, rfl⟩

theorem steady (h : Isolated d) (hs : Steady T d d') : Isolated d' := by
  obtain ⟨es, hlog, hes⟩ := hs.log
  have hout : ∀ e ∈ es, e.isOutput = true := fun e he => (hes e he).1
  have hlock (i : ObjRef) : (d'.obj i).lockState = (d.obj i).lockState ∧
      (d'.obj i).lockOwner = (d.obj i).lockOwner := Prod.mk.inj (hs.lock i)
  refine ⟨?_, ?_, ?_, ?_, ?_, ?_⟩
  · intro c
    rw [hlog, phase_output hout]
    exact (h.slots c).of_standing (hs.standing c)
  · intro c hnone hpriv
    have hc := hs.standing c
    simp only [Conn.standing, Conn.mk.injEq] at hc
    rw [hs.cfg] at hnone ⊢
    rw [hc.2.2.2.1]
    exact h.policy c hnone (hc.2.2.1.symm.trans hpriv)
  · intro k huse
    rw [hs.subs] at huse ⊢
    exact (h.subs k huse).of_standing hs.standing
  · intro i c ho
    rw [(hlock i).2] at ho
    exact (h.locks i c ho).of_standing hs.standing
  · intro i
    rw [(hlock i).1, (hlock i).2]
    exact h.owner i
  · rw [hlog]
    refine Log.always_append h.commands fun pre e post heq => not_openCommand_of_output (hout e ?_)
    rw [heq]
    exact List.mem_append_right _ (.head _)

/-- The entry of slot `c`, which owns nothing, is replaced. -/
theorem modifyConn (h : Isolated d) {f : Conn → Conn} (es : List Event)
    (hsubs : ∀ k, (d.subs k).inUse = true → (d.subs k).connIdx ≠ c)
    (hlocks : ∀ i, (d.obj i).lockOwner ≠ some c.val)
    (hfits : (phase (d.log ++ es) c).Fits (f (d.conns c)))
    (hothers : ∀ k : ℕ, k ≠ c → phase (d.log ++ es) k = phase d.log k)
    (hpolicy : d.cfg.authorize = false → (f (d.conns c)).privileged = true →
      (f (d.conns c)).tls = true ∧ d.cfg.clientCaPem = true)
    (hes : ∀ e ∈ es, ∀ before, OpenCommand before e) :
    Isolated { d.modifyConn c f with log := d.log ++ es } := by
  have hne {k : Fin K.maxConnections} (hk : k ≠ c) : (d.modifyConn c f).conns k = d.conns k :=
    Function.update_of_ne hk _ _
  have hself : (d.modifyConn c f).conns c = f (d.conns c) := Function.update_self ..
  have hopen {n : ℕ} (hn : n ≠ c) (ho : d.Open n) :
      Device.Open { d.modifyConn c f with log := d.log ++ es } n := by
    obtain ⟨k, rfl, hlive⟩ := ho
    refine ⟨k, rfl, ?_⟩
    rwa [hne fun hk => hn (congrArg Fin.val hk)]
  refine ⟨?_, ?_, ?_, ?_, h.owner, ?_⟩
  · intro k
    by_cases hk : k = c
    · subst hk
      rwa [hself]
    · rw [hothers k (Fin.val_ne_of_ne hk), hne hk]
      exact h.slots k
  · intro k hnone hpriv
    by_cases hk : k = c
    · subst hk
      rw [hself] at hpriv ⊢
      exact hpolicy hnone hpriv
    · rw [hne hk] at hpriv ⊢
      exact h.policy k hnone hpriv
  · intro k huse
    exact hopen (hsubs k huse) (h.subs k huse)
  · intro i n ho
    exact hopen (fun hn => hlocks i (hn ▸ ho)) (h.locks i n ho)
  · refine Log.always_append h.commands fun pre e post heq => hes e ?_ _
    rw [heq]
    exact List.mem_append_right _ (.head _)

/-- A lock is taken for an open connection or given up. -/
theorem setLock (h : Isolated d) (i : ObjRef) {f : Obj → Obj}
    (howner : ∀ o, (f o).lockOwner = none ↔ (f o).lockState = .none)
    (hlocks : ∀ o n, (f o).lockOwner = some n → d.Open n) : Isolated (d.modifyObj i f) where
  slots := h.slots
  policy := h.policy
  subs := h.subs
  commands := h.commands
  locks j n ho := by
    rw [Device.obj_modifyObj] at ho
    split_ifs at ho
    · exact hlocks _ n ho
    · exact h.locks j n ho
  owner j := by
    rw [Device.obj_modifyObj]
    split_ifs
    · exact howner _
    · exact h.owner j

/-- The subscriptions are of open connections. -/
theorem setSubs (h : Isolated d) {subs : Fin K.maxSubscriptions → Subscription}
    (hsubs : ∀ k, (subs k).inUse = true → d.Open (subs k).connIdx) :
    Isolated { d with subs := subs } :=
  ⟨h.slots, h.policy, hsubs, h.locks, h.owner, h.commands⟩

theorem dropSubs (h : Isolated d) (p : Subscription → Bool) : Isolated (d.dropSubs p) := by
  refine h.setSubs fun k (huse : ((d.dropSubs p).subs k).inUse = true) => ?_
  obtain ⟨hsame, -⟩ := Device.inUse_dropSubs huse
  have hopen := h.subs k (hsame ▸ huse)
  rwa [← hsame] at hopen

theorem executed (h : Isolated d) (hlive : (d.conns c).Live) {cmd : Command} {st : Status}
    (hexec : Executed T d c cmd st d') : Isolated d' := by
  have hopen : d.Open c := ⟨c, rfl, hlive⟩
  cases hexec with
  | other hs => exact h.steady hs
  | lock _ _ hs =>
    refine h.setLock _ (fun o => ?_) fun o n ho => ?_
    · exact iff_of_false nofun hs
    · obtain rfl := Option.some.inj ho
      exact hopen
  | unlock => exact h.setLock _ (fun o => iff_of_true rfl rfl) fun o n ho => nomatch ho
  | subscribed => exact h
  | @subscribe k₀ s _ _ _ hkey =>
    refine h.setSubs fun k huse => ?_
    by_cases hk : k = k₀
    · subst hk
      rw [Function.update_self, show s.connIdx = c from congrArg Key.conn hkey]
      exact hopen
    · rw [Function.update_of_ne hk] at huse ⊢
      exact h.subs k huse
  | unsubscribe => exact h.dropSubs _

theorem emit_command (h : Isolated d) (hphase : ∃ granted, phase d.log c = .opened granted)
    (cmd : Command) (st : Status) : Isolated (d.emit (.command c cmd st)) := by
  have hsame (k : ℕ) : phase (d.log ++ [.command c cmd st]) k = phase d.log k := phase_concat ..
  refine ⟨?_, h.policy, h.subs, h.locks, h.owner, Log.always_concat h.commands ?_⟩
  · intro k
    exact (hsame k).symm ▸ h.slots k
  · rintro n cmd' st' ⟨⟩
    exact hphase

theorem not_live_of_free (hfree : (d.conns c).inUse = false) : ¬(d.conns c).Live := by
  intro hlive
  cases hfree.symm.trans hlive.1

/-- A slot that is not open owns nothing. -/
theorem of_not_live (h : Isolated d) (hnot : ¬(d.conns c).Live) :
    (∀ k, (d.subs k).inUse = true → (d.subs k).connIdx ≠ c) ∧
      ∀ i, (d.obj i).lockOwner ≠ some c.val := by
  have hclosed : ¬d.Open c := fun ⟨k, hk, hlive⟩ => hnot (Fin.ext hk ▸ hlive)
  exact ⟨fun k huse hk => hclosed (hk ▸ h.subs k huse), fun i hi => hclosed (h.locks i c hi)⟩

theorem accept (h : Isolated d) (now : ℤ) (addr : Bytes) (port : UInt16) (granted : Bool)
    (hfree : (d.conns c).inUse = false) (hpolicy : d.cfg.authorize = false → granted = false) :
    Isolated (((d.modifyConn c fun _ => .plain now addr port granted).emit
      (.accepted c false)).emit (.authorized c granted)) := by
  obtain ⟨hsubs, hlocks⟩ := h.of_not_live (not_live_of_free hfree)
  have hphase (k : ℕ) : phase (d.log ++ [.accepted c false, .authorized c granted]) k =
      if c = k then .opened granted else phase d.log k := by
    rw [phase_append]
    by_cases hk : c = k <;> simp [Phase.next, hk]
  have hnew := h.modifyConn (f := fun _ => .plain now addr port granted)
    [.accepted c false, .authorized c granted] hsubs hlocks
    (by rw [hphase, if_pos rfl]; exact ⟨⟨rfl, rfl⟩, rfl⟩)
    (fun k hk => by rw [hphase, if_neg (Ne.symm hk)])
    (fun hnone hpriv => absurd ((hpolicy hnone).symm.trans hpriv) (by decide))
    (fun e he before n cmd st heq => by subst heq; simp at he)
  rw [Device.emit, Device.emit, List.append_assoc]
  exact hnew

theorem acceptTls (h : Isolated d) (now deadline : ℤ) (addr : Bytes) (port : UInt16)
    (hfree : (d.conns c).inUse = false) :
    Isolated ((d.modifyConn c fun _ => .greeting now deadline addr port).emit
      (.accepted c true)) := by
  obtain ⟨hsubs, hlocks⟩ := h.of_not_live (not_live_of_free hfree)
  have hphase (k : ℕ) : phase (d.log ++ [.accepted c true]) k =
      if c = k then .pending else phase d.log k := phase_concat ..
  exact h.modifyConn (f := fun _ => .greeting now deadline addr port)
    [.accepted c true] hsubs hlocks
    (by rw [hphase, if_pos rfl]; exact ⟨rfl, rfl, rfl, rfl⟩)
    (fun k hk => by rw [hphase, if_neg (Ne.symm hk)]) (fun _ hpriv => nomatch hpriv)
    (fun e he before n cmd st heq => by subst heq; simp at he)

theorem handshake (h : Isolated d) (now : ℤ) (granted : Bool) (huse : (d.conns c).inUse = true)
    (hshake : (d.conns c).handshaking = true)
    (hpolicy : d.cfg.authorize = false → granted = d.cfg.clientCaPem) :
    Isolated ((d.modifyConn c fun e =>
      { e with handshaking := false, lastRxUs := now, privileged := granted }).emit
        (.authorized c granted)) := by
  obtain ⟨hsubs, hlocks⟩ := h.of_not_live (c := c) fun hlive => by
    cases hshake.symm.trans hlive.2
  have hphase (k : ℕ) : phase (d.log ++ [.authorized c granted]) k =
      if c = k then .opened granted else phase d.log k := phase_concat ..
  -- only TLS connections have a handshake to complete
  have htls : (d.conns c).tls = true := by
    have hfits := h.slots c
    cases hp : phase d.log c with
    | free => simp [hp, Phase.Fits, huse] at hfits
    | pending => exact (hp ▸ hfits).2.2.1
    | opened => simp [hp, Phase.Fits, Conn.Live, hshake] at hfits
  exact h.modifyConn
    (f := fun e => { e with handshaking := false, lastRxUs := now, privileged := granted })
    [.authorized c granted] hsubs hlocks
    (by rw [hphase, if_pos rfl]; exact ⟨⟨huse, rfl⟩, rfl⟩)
    (fun k hk => by rw [hphase, if_neg (Ne.symm hk)])
    (fun hnone hpriv => ⟨htls, (hpolicy hnone).symm.trans hpriv⟩)
    (fun e he before n cmd st heq => by subst heq; simp at he)

theorem close (h : Isolated d) (huse : (d.conns c).inUse = true) : Isolated (d.closeConn c) := by
  have hlocked : Isolated ((d.subscriptionsDropConn c).locksDropConn c) := by
    have hdropped := h.dropSubs fun s => s.inUse && s.connIdx == c
    refine { hdropped with locks := fun i n ho => ?_, owner := fun i => ?_ }
    · rw [Device.obj_locksDropConn] at ho
      split_ifs at ho
      exact h.locks i n ho
    · rw [Device.obj_locksDropConn]
      split_ifs
      · exact iff_of_true rfl rfl
      · exact h.owner i
  have hphase (k : ℕ) : phase (d.log ++ [.closed c]) k =
      if c = k then .free else phase d.log k := phase_concat ..
  rw [Device.closeConn_of_inUse huse]
  refine hlocked.modifyConn (f := fun _ => .empty) [.closed c] (fun k hk => ?_)
    (fun i ho => ?_) ?_ (fun k hk => ?_) (fun _ hpriv => nomatch hpriv)
    (fun e he before n cmd st heq => by subst heq; simp at he)
  · have hk : ((d.subscriptionsDropConn c).subs k).inUse = true := hk
    obtain ⟨hsame, hkeep⟩ := Device.inUse_dropSubs hk
    change ((d.subscriptionsDropConn c).subs k).connIdx ≠ c
    rw [Device.subscriptionsDropConn, hsame] at hk ⊢
    exact fun hc => hkeep (by simp [hk, hc])
  · rw [Device.obj_locksDropConn] at ho
    split_ifs at ho with hown
    exact hown ho
  · have hfree : phase (d.log ++ [.closed c]) c = .free := (hphase c).trans (if_pos rfl)
    exact hfree.symm ▸ ⟨rfl, rfl⟩
  · exact (hphase k).trans (if_neg (Ne.symm hk))

theorem move (h : Isolated d) (hm : Move T d d') : Isolated d' := by
  cases hm with
  | steady hs => exact h.steady hs
  | command hlive hexec =>
    have hdone := h.executed hlive hexec
    exact hdone.emit_command (hdone.opened (hlive.of_standing (conns_executed hexec _))) _ _
  | accept now addr port granted hfree hpolicy => exact h.accept now addr port granted hfree hpolicy
  | acceptTls now deadline addr port hfree => exact h.acceptTls now deadline addr port hfree
  | handshake now granted huse hshake hpolicy => exact h.handshake now granted huse hshake hpolicy
  | close huse => exact h.close huse
  | post => exact ⟨h.slots, h.policy, h.subs, h.locks, h.owner, h.commands⟩

theorem start (h : (server K).init d) : Isolated d := by
  obtain ⟨cfg, net, h⟩ := h
  obtain ⟨e, rfl⟩ := start_eq h
  -- no object is locked yet, and what lies behind the registry never is
  have hlock (i : ObjRef) : (startObjects.getD i (.fresh .block 0 [])).lock = (.none, none) := by
    rcases i with _ | _ | _ | i <;> rfl
  refine ⟨fun _ => ⟨rfl, rfl⟩, fun _ _ hpriv => ?_, fun _ huse => ?_, fun i c ho => ?_,
    fun i => ?_, Log.always_nil⟩
  · cases hpriv
  · cases huse
  · cases (congrArg Prod.snd (hlock i)).symm.trans ho
  · exact iff_of_true (congrArg Prod.snd (hlock i)) (congrArg Prod.fst (hlock i))

/-- Who gets a slot that is not in use finds nothing in it. -/
theorem newcomer (h : Isolated d) {d' : Device K} {e : Conn} (hfree : (d.conns c).inUse = false)
    (hconns : d'.conns = Function.update d.conns c e) (hsubs : d'.subs = d.subs)
    (hobj : ∀ i, d'.obj i = d.obj i) (huse : e.inUse = true) (hrx : e.rx = [])
    (hheartbeat : e.heartbeatMs = 0) : Newcomer d' c e.privileged := by
  obtain ⟨hown, hlocks⟩ := h.of_not_live (not_live_of_free hfree)
  have hself : d'.conns c = e := by rw [hconns, Function.update_self]
  refine ⟨by rw [hself, huse], by rw [hself], by rw [hself, hrx], by rw [hself, hheartbeat], ?_, ?_⟩
  · rwa [hsubs]
  · exact fun i => (hobj i).symm ▸ hlocks i

end Isolated

end Parts

/-! ### Reachable states -/

theorem isolated_of_reach {d : Device K} (h : (server K).Reach d) : Isolated d :=
  driven_server.invariant (fun _ => .start) (fun _ _ _ hd hm => hd.move hm) h

/-- **Sessions do not leak**: what a slot holds belongs to the client in it, a new client finds
nothing of its predecessor, and no command is executed before a handshake is done. -/
theorem sessions_isolated {d : Device K} (h : (server K).Reach d) : Isolated d ∧
    (∀ c addr port answer, d.freeConn = some c →
      Newcomer (d.acceptConn addr port answer) c (d.cfg.authorize && answer)) ∧
    ∀ c addr port, d.freeConn = some c → Newcomer (d.acceptTlsConn addr port true) c false := by
  have hd : Isolated d := isolated_of_reach h
  have hfree {c : Fin K.maxConnections} (hc : d.freeConn = some c) : (d.conns c).inUse = false := by
    simpa using List.find?_some hc
  refine ⟨hd, ?_, ?_⟩
  · intro c addr port answer hc
    have hgranted : (if d.cfg.authorize then answer else false) = (d.cfg.authorize && answer) := by
      cases d.cfg.authorize <;> rfl
    rw [Device.acceptConn, hc, ← hgranted]
    exact hd.newcomer (e := .plain _ addr port _) (hfree hc) rfl rfl (fun _ => rfl) rfl rfl rfl
  · intro c addr port hc
    rw [Device.acceptTlsConn, hc]
    exact hd.newcomer (e := .greeting _ _ addr port) (hfree hc) rfl rfl (fun _ => rfl) rfl rfl rfl

namespace Sample

/-- A client that is granted privilege connects. -/
def connected : Device .default := after [.accept [] 0 true]

theorem reach_connected : (server .default).Reach connected :=
  reach_after (.cons trivial (.nil _))

theorem slots_pos : 0 < Kconfig.default.maxConnections := by decide

/-- The slot of the client that is connected. -/
def firstSlot : Fin Kconfig.default.maxConnections := ⟨0, slots_pos⟩

/-- This client hangs up. -/
def hangUp : Input .default := .service firstSlot 0 ⟨true, .done, true, []⟩

/-- Its slot is free again. -/
def vacated : Device .default := after [.accept [] 0 true, hangUp]

theorem reach_vacated : (server .default).Reach vacated :=
  reach_after (.cons trivial (.cons trivial (.nil _)))

/-- The next client gets the slot, and nothing of the privilege. -/
theorem isolated_reconnected :
    (connected.conns firstSlot).privileged = true ∧ Isolated vacated ∧
      Newcomer (vacated.acceptConn [1] 7 false) firstSlot false := by
  obtain ⟨hisolated, hnewcomer, -⟩ := sessions_isolated reach_vacated
  exact ⟨by decide, hisolated, hnewcomer firstSlot [1] 7 false (by decide)⟩

end Sample

end Aes70
