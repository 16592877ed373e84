import Aes70.Server.Outgoing
import Aes70.Transport.Startup

/-!
# The iterations of the server task

The loop of `server_task`, step by step, with the application at work in between. What an iteration
has to do is decided when `select` returns. It drains the queue of set requests only if it finds the
datagram that `aes70_post_set` sends over the loopback pair.

* `Woke` : what `select`, and the calls after it, return in an iteration.
* `Task` : the device, its descriptors and the rest of the iteration, with the requests applied and
  posted since it woke up.
* `task` : the machine of the loop, from the start of the device on.
* `Task.Works`, `Task.works` : what a step of an iteration does.
* `turns_task` : every step of the loop is a run of turns.
* `AppliesQueue` : all requests that were queued were applied, in order and once.
* `appliesQueue_iff` : an iteration does so exactly if it drains the queue, or there was nothing in
  it.
-/

namespace Aes70

open Device

variable {K : Kconfig}

/-! ### An iteration -/

/-- A peer that `accept` returns: its address, its port, and the answer of `authorize`, or whether
the TLS session could be set up. -/
abbrev Peer := Bytes × UInt16 × Bool

/-- What an iteration of `server_task` finds: the results of `select`, `esp_timer_get_time` and
`accept`, and what the connection slots are offered. -/
structure Woke (K : Kconfig) where
  /-- What `select` returns. -/
  n : ℤ
  now : ℤ
  /-- `FD_ISSET`. -/
  wakeSet : Bool
  listenSet : Bool
  listenSet6 : Bool
  tlsListenSet : Bool
  tlsListenSet6 : Bool
  /-- `none` if `accept` fails. -/
  peer : Option Peer
  peer6 : Option Peer
  tlsPeer : Option Peer
  tlsPeer6 : Option Peer
  slots : Fin K.maxConnections → SlotInput

namespace Woke

/-- `accept_conn` on a listener. -/
def accepts (p : Peer) : Input K := .accept p.1 p.2.1 p.2.2

/-- `accept_tls_conn` on a listener. -/
def acceptsTls (p : Peer) : Input K := .acceptTls p.1 p.2.1 p.2.2

/-- `if (sock >= 0 && FD_ISSET(sock, &rfds))`. -/
def ready (sock : ℤ) (isSet : Bool) (todo : List (Input K)) : List (Input K) :=
  if 0 ≤ sock ∧ isSet = true then todo else []

/-- The listeners' part of an iteration. -/
def accepting (w : Woke K) (s : Sockets) : List (Input K) :=
  ready s.listenSock w.listenSet (w.peer.toList.map accepts) ++
  ready s.listenSock6 w.listenSet6 (w.peer6.toList.map accepts) ++
  ready s.tlsListenSock w.tlsListenSet (w.tlsPeer.toList.map acceptsTls) ++
  ready s.tlsListenSock6 w.tlsListenSet6 (w.tlsPeer6.toList.map acceptsTls)

/-- The loop over the connection slots, and `service_keepalive`. -/
def servicing (w : Woke K) : List (Input K) :=
  ((List.finRange K.maxConnections).map fun c => .service c w.now
    { w.slots c with readable := decide (0 < w.n) && (w.slots c).readable }) ++
  [.keepalive w.now]

/-- What the iteration does, in order. -/
def program (w : Woke K) (s : Sockets) : List (Input K) :=
  (if 0 < w.n then ready s.wakeRecvSock w.wakeSet [.drain] ++ w.accepting s else []) ++ w.servicing

end Woke

/-- The server task within an iteration. -/
structure Task (K : Kconfig) where
  dev : Device K
  socks : Sockets
  /-- The rest of the iteration, empty in front of `select`. -/
  todo : List (Input K)
  /-- The requests given to `aes70_object_apply_set` since the task woke up. -/
  applied : List SetReq
  /-- The requests queued since the task woke up. -/
  posted : List SetReq

namespace Task

/-- `select` returns. -/
def wake (s : Task K) (w : Woke K) : Task K :=
  { s with todo := w.program s.socks, applied := [], posted := [] }

/-- The next step of the iteration; `drain_cmd_queue` takes one step for each request. -/
def work (s : Task K) : Task K :=
  match s.todo with
  | [] => s
  | .drain :: todo =>
    match s.dev.cmdQ with
    | [] => { s with todo }
    | req :: cmdQ =>
      { s with dev := { s.dev with cmdQ }.applySet req, applied := s.applied ++ [req] }
  | inp :: todo => { s with dev := inp.run s.dev, todo }

/-- A call of the application. -/
def call (s : Task K) (inp : Input K) : Task K :=
  { s with
    dev := inp.run s.dev
    posted := s.posted ++ (inp.run s.dev).cmdQ.drop s.dev.cmdQ.length }

end Task

/-- The steps that the application takes. -/
def Input.isApp : Input K → Bool
  | .create .. | .setLabel .. | .setSecured .. | .setTag .. | .matrixSetMember .. | .post .. => true
  | _ => false

/-- The steps of an iteration, other than draining the queue. -/
def Input.isSession : Input K → Bool
  | .accept .. | .acceptTls .. | .service .. | .keepalive .. => true
  | _ => false

/-- Who takes the next step. -/
inductive TaskStep (K : Kconfig)
  | wake (w : Woke K)
  | work
  | call (inp : Input K)

namespace TaskStep

/-- The effect of a step. -/
def run (s : Task K) : TaskStep K → Task K
  | wake w => s.wake w
  | work => s.work
  | call inp => s.call inp

/-- The task wakes up when the iteration before is over, and goes on if the device still runs. -/
def Legal (s : Task K) : TaskStep K → Prop
  | wake _ => s.todo = [] ∧ s.dev.running = true
  | work => s.todo ≠ []
  | call inp => inp.isApp = true ∧ inp.Legal s.dev

/-- Not the beginning of an iteration. -/
def Within : TaskStep K → Prop
  | wake _ => False
  | _ => True

end TaskStep

/-- The loop of `server_task`, from the start of the device on. -/
def task (K : Kconfig) : Machine (Task K) (TaskStep K) where
  init s := ∃ ident net cfg calls d, Aes70.deviceStart K ident net = some d ∧
    (Boot.deviceStart ident cfg calls).1 = .ok ∧
    s = ⟨d, (Boot.deviceStart ident cfg calls).2.socks, [], [], []⟩
  ok s m := m.Legal s
  step s m := m.run s

/-- The same, within an iteration. -/
def iteration (K : Kconfig) : Machine (Task K) (TaskStep K) :=
  (task K).restrict fun _ m => m.Within

/-- The iteration drains the queue: `select` found the datagram of the loopback pair. -/
def Woke.Drains (w : Woke K) (s : Sockets) : Prop :=
  0 < w.n ∧ 0 ≤ s.wakeRecvSock ∧ w.wakeSet = true

instance (w : Woke K) (s : Sockets) : Decidable (w.Drains s) :=
  inferInstanceAs (Decidable (_ ∧ _ ∧ _))

/-- The requests queued in `d` were applied, in order and once, and so were some that were posted
since; the others are still queued. -/
def AppliesQueue (d : Device K) (t : Task K) : Prop :=
  ∃ later, t.applied = d.cmdQ ++ later ∧ later ++ t.dev.cmdQ = t.posted

/-! ### What leaves the queue alone -/

/-- The queue of set requests is the same. -/
def Rests (d d' : Device K) : Prop := d'.cmdQ = d.cmdQ

section Rests

variable {d d' : Device K}

theorem Rests.of_core (h : d'.core = d.core) : Rests d d' := by
  have hcmdQ := congrArg Device.cmdQ h
  exact hcmdQ

theorem commitOrder_rests : CommitOrder (Rests (K := K)) where
  refl _ := rfl
  trans h h' := h'.trans h
  modifyObj _ _ _ := rfl
  notify d i level index := .of_core (core_notify d i level index)
  controlChanged d i := .of_core (core_controlChanged d i)

/-- The server task rests the queue but for draining it. -/
theorem sessionOrder_rests : SessionOrder (Rests (K := K)) where
  refl _ := rfl
  trans h h' := h'.trans h
  command d conn cmd params _ := by
    have hexec (c : Call K) : Rests c.dev (execCommand conn cmd c).2.dev := by
      refine execCommand_keeps (P := Rests c.dev) (fun _ _ hd => hd) rfl fun i _ => ?_
      exact commitOrder_rests.outcome (fun _ _ _ _ _ _ _ => rfl)
        (objectDispatch_outcome i cmd.level cmd.index c rfl)
    exact hexec ⟨{ d with activeConn := some conn }, params, Writer.init K.txBufferSize, 0⟩
  send d c frame _ := .of_core (core_connSend d c frame)
  active _ _ := rfl
  modifyConn _ _ _ := rfl
  closeConn d c := by
    unfold Device.closeConn
    split_ifs <;> rfl
  authorized _ _ _ _ := rfl

/-- Of the steps of the device, only draining and posting touch the queue. -/
theorem rests_input {inp : Input K} (hdrain : inp ≠ .drain) (hpost : ∀ i req, inp ≠ .post i req) :
    Rests d (inp.run d) := by
  cases inp with
  | create call parent role =>
    obtain ⟨objects, next, he⟩ := d.create_eq call parent role
    change (d.create call parent role).cmdQ = d.cmdQ
    rw [he]
  | setLabel | setSecured | setTag => rfl
  | matrixSetMember i x y member =>
    obtain ⟨objects, he⟩ := d.matrixSetMember_eq i x y member
    change (d.matrixSetMember i x y member).cmdQ = d.cmdQ
    rw [he]
  | post i req => exact absurd rfl (hpost i req)
  | drain => exact absurd rfl hdrain
  | accept addr port answer =>
    change (d.acceptConn addr port answer).cmdQ = d.cmdQ
    unfold Device.acceptConn
    split <;> rfl
  | acceptTls addr port sessionOk =>
    change (d.acceptTlsConn addr port sessionOk).cmdQ = d.cmdQ
    unfold Device.acceptTlsConn
    split
    · rfl
    · split_ifs <;> rfl
  | service c now inp => exact sessionOrder_rests.serviceConn now inp d
  | keepalive now => exact sessionOrder_rests.serviceKeepalive now d

/-- The application only adds to the queue. -/
theorem cmdQ_app {inp : Input K} (h : inp.isApp = true) :
    (inp.run d).cmdQ = d.cmdQ ++ (inp.run d).cmdQ.drop d.cmdQ.length := by
  have hdrain : inp ≠ .drain := by
    rintro rfl
    cases h
  by_cases hpost : ∃ i req, inp = .post i req
  · obtain ⟨i, req, rfl⟩ := hpost
    change (d.postSet req).cmdQ = d.cmdQ ++ (d.postSet req).cmdQ.drop d.cmdQ.length
    unfold Device.postSet
    split_ifs <;> simp
  · have hrests := rests_input (d := d) hdrain fun i req he => hpost ⟨i, req, he⟩
    rw [hrests]
    simp

/-- A call of the application concerns no connection. -/
theorem conns_app {inp : Input K} (h : inp.isApp = true) :
    (inp.run d).conns = d.conns ∧ (inp.run d).log = d.log := by
  cases inp with
  | create call parent role =>
    obtain ⟨objects, next, he⟩ := d.create_eq call parent role
    rw [Input.run, he]
    exact ⟨rfl, rfl⟩
  | setLabel | setSecured | setTag => exact ⟨rfl, rfl⟩
  | matrixSetMember i x y member =>
    obtain ⟨objects, he⟩ := d.matrixSetMember_eq i x y member
    rw [Input.run, he]
    exact ⟨rfl, rfl⟩
  | post i req =>
    change (d.postSet req).conns = d.conns ∧ (d.postSet req).log = d.log
    unfold Device.postSet
    split_ifs <;> exact ⟨rfl, rfl⟩
  | _ => cases h

end Rests

/-! ### One step of an iteration -/

namespace Task

variable {s : Task K} {todo : List (Input K)} {req : SetReq} {cmdQ : List SetReq}

theorem work_drain_nil (h : s.todo = .drain :: todo) (hq : s.dev.cmdQ = []) :
    s.work = { s with todo } := by
  simp only [work, h, hq]

theorem work_drain_cons (h : s.todo = .drain :: todo) (hq : s.dev.cmdQ = req :: cmdQ) :
    s.work = { s with
      dev := { s.dev with cmdQ }.applySet req, applied := s.applied ++ [req] } := by
  simp only [work, h, hq]

/-- The ways the task goes on: the iteration is over, the queue is empty, a request of the queue is
applied, or a session is looked after. -/
inductive Works (s t : Task K) : Prop
  | ended (h : s.todo = []) (ht : t = s)
  | drained {todo : List (Input K)} (h : s.todo = .drain :: todo) (hq : s.dev.cmdQ = [])
    (ht : t = { s with todo })
  | request {todo : List (Input K)} {req : SetReq} {cmdQ : List SetReq}
    (h : s.todo = .drain :: todo) (hq : s.dev.cmdQ = req :: cmdQ)
    (ht : t = { s with
      dev := { s.dev with cmdQ }.applySet req, applied := s.applied ++ [req] })
  | session {inp : Input K} {todo : List (Input K)} (h : s.todo = inp :: todo)
    (hinp : inp.isSession = true) (ht : t = { s with dev := inp.run s.dev, todo })

/-- **A step of an iteration** that drains the queue and looks after sessions. -/
theorem works (h : ∀ inp ∈ s.todo, inp = .drain ∨ inp.isSession = true) : s.Works s.work := by
  cases htodo : s.todo with
  | nil => exact .ended htodo (by simp only [work, htodo])
  | cons inp todo =>
    obtain rfl | hinp := h inp (htodo ▸ List.mem_cons_self)
    · cases hq : s.dev.cmdQ with
      | nil => exact .drained htodo hq (work_drain_nil htodo hq)
      | cons req cmdQ => exact .request htodo hq (work_drain_cons htodo hq)
    · refine .session htodo hinp ?_
      cases inp with
      | drain => cases hinp
      | _ => simp only [work, htodo]

/-- A request that is taken from the queue leaves the others in it. -/
theorem cmdQ_applySet (d : Device K) (req : SetReq) : ({ d with cmdQ }.applySet req).cmdQ = cmdQ :=
  CommitOrder.applySet commitOrder_rests { d with cmdQ } req

end Task

/-! ### The program of an iteration -/

/-- Only steps of sessions are left. -/
def Task.Serving (s : Task K) : Prop := ∀ inp ∈ s.todo, inp.isSession = true

section Program

variable {w : Woke K} {socks : Sockets}

theorem session_accepting : ∀ inp ∈ w.accepting socks, inp.isSession = true := by
  have hready {sock : ℤ} {isSet : Bool} {f : Peer → Input K} {peer : Option Peer}
      (hf : ∀ p, (f p).isSession = true) :
      ∀ inp ∈ Woke.ready sock isSet (peer.toList.map f), inp.isSession = true := by
    unfold Woke.ready
    split_ifs
    · exact List.forall_mem_map.2 fun p _ => hf p
    · simp
  unfold Woke.accepting
  simp only [List.forall_mem_append]
  exact ⟨⟨⟨hready fun _ => rfl, hready fun _ => rfl⟩, hready fun _ => rfl⟩, hready fun _ => rfl⟩

theorem session_servicing : ∀ inp ∈ w.servicing, inp.isSession = true := by
  unfold Woke.servicing
  simp only [List.forall_mem_append, List.forall_mem_map, List.forall_mem_singleton]
  exact ⟨fun _ _ => rfl, rfl⟩

/-- An iteration that drains the queue begins with it. -/
theorem program_of_drains (h : w.Drains socks) :
    w.program socks = .drain :: (w.accepting socks ++ w.servicing) := by
  unfold Woke.program Woke.ready
  rw [if_pos h.1, if_pos h.2]
  rfl

theorem session_program (h : ¬w.Drains socks) : ∀ inp ∈ w.program socks, inp.isSession = true := by
  unfold Woke.program Woke.ready
  split_ifs with hn hset
  · exact absurd ⟨hn, hset⟩ h
  · rw [List.nil_append]
    exact List.forall_mem_append.2 ⟨session_accepting, session_servicing⟩
  · exact session_servicing

end Program

/-! ### Runs of an iteration -/

/-- The task is within an iteration that found the requests `q` in the queue: it has sessions to
look after, perhaps behind the queue, and what was applied or is still queued are these requests and
those posted since. -/
structure Underway (q : List SetReq) (s : Task K) : Prop where
  chores : ∀ inp ∈ s.todo, inp = .drain ∨ inp.isSession = true
  ledger : s.applied ++ s.dev.cmdQ = q ++ s.posted

/-- The task has the queue in front of it, or has applied the requests `q` at least. -/
def Drained (q : List SetReq) (s : Task K) : Prop :=
  (∃ todo, s.todo = .drain :: todo ∧ ∀ inp ∈ todo, inp.isSession = true) ∨
    s.Serving ∧ q.length ≤ s.applied.length

section Steps

variable {q : List SetReq} {s t : Task K} {m : TaskStep K} {l : List (TaskStep K)} {w : Woke K}

theorem rests_session {inp : Input K} (h : inp.isSession = true) (d : Device K) :
    (inp.run d).cmdQ = d.cmdQ := by
  refine rests_input ?_ fun i req => ?_
  all_goals
    rintro rfl
    cases h

theorem underway_wake (s : Task K) (w : Woke K) : Underway s.dev.cmdQ (s.wake w) := by
  refine ⟨fun inp hinp => ?_, (List.append_nil _).symm⟩
  by_cases h : w.Drains s.socks
  · change inp ∈ w.program s.socks at hinp
    rw [program_of_drains h] at hinp
    obtain rfl | hinp := List.mem_cons.1 hinp
    · exact .inl rfl
    · exact .inr ((List.mem_append.1 hinp).elim (session_accepting inp) (session_servicing inp))
  · exact .inr (session_program h inp hinp)

/-- **Every step of an iteration** keeps the ledger of requests. -/
theorem underway_step (h : Underway q s) (hlegal : m.Legal s) (hwithin : m.Within) :
    Underway q (m.run s) := by
  cases m with
  | wake w => exact hwithin.elim
  | call inp =>
    refine ⟨h.chores, ?_⟩
    change s.applied ++ (inp.run s.dev).cmdQ = q ++ (s.posted ++ _)
    rw [cmdQ_app hlegal.1, ← List.append_assoc, ← List.append_assoc, h.ledger]
    simp
  | work =>
    change Underway q s.work
    have hrest {inp : Input K} {todo : List (Input K)} (htodo : s.todo = inp :: todo) :
        ∀ inp ∈ todo, inp = .drain ∨ inp.isSession = true := by
      intro inp' hinp'
      exact h.chores inp' (htodo ▸ List.mem_cons_of_mem _ hinp')
    cases Task.works h.chores with
    | ended _ ht => rwa [ht]
    | drained htodo _ ht =>
      rw [ht]
      exact ⟨hrest htodo, h.ledger⟩
    | request _ hq ht =>
      rw [ht]
      refine ⟨h.chores, ?_⟩
      rw [← h.ledger, hq]
      simp [Task.cmdQ_applySet]
    | session htodo hinp ht =>
      rw [ht]
      refine ⟨hrest htodo, ?_⟩
      rw [← h.ledger, rests_session hinp]

/-- While sessions are looked after no request is applied. -/
theorem serving_step (h : s.Serving) (hwithin : m.Within) :
    (m.run s).Serving ∧ (m.run s).applied = s.applied := by
  cases m with
  | wake w => exact hwithin.elim
  | call inp => exact ⟨h, rfl⟩
  | work =>
    change s.work.Serving ∧ s.work.applied = s.applied
    cases Task.works fun inp hinp => .inr (h inp hinp) with
    | ended _ ht =>
      rw [ht]
      exact ⟨h, rfl⟩
    | drained htodo | request htodo =>
      -- the queue is not drained any more
      cases h .drain (htodo ▸ List.mem_cons_self)
    | session htodo _ ht =>
      rw [ht]
      exact ⟨fun inp' hinp' => h inp' (htodo ▸ List.mem_cons_of_mem _ hinp'), rfl⟩

/-- Draining goes on until the queue is empty. -/
theorem drained_step (h : Drained q s) (hu : Underway q s) (hwithin : m.Within) :
    Drained q (m.run s) := by
  obtain ⟨todo, htodo, hsession⟩ | ⟨hserving, hlen⟩ := h
  · cases m with
    | wake w => exact hwithin.elim
    | call inp => exact .inl ⟨todo, htodo, hsession⟩
    | work =>
      change Drained q s.work
      cases hq : s.dev.cmdQ with
      | nil =>
        rw [Task.work_drain_nil htodo hq]
        have hall := congrArg List.length hu.ledger
        rw [hq, List.append_nil, List.length_append] at hall
        refine .inr ⟨hsession, ?_⟩
        change q.length ≤ s.applied.length
        omega
      | cons req cmdQ =>
        rw [Task.work_drain_cons htodo hq]
        exact .inl ⟨todo, htodo, hsession⟩
  · obtain ⟨hserving', happlied⟩ := serving_step hserving hwithin
    exact .inr ⟨hserving', happlied ▸ hlen⟩

/-- A run of an iteration carries what its steps carry. -/
theorem iteration_invariant {I : Task K → Prop} (h : (iteration K).Run s l t) (hs : I s)
    (hstep : ∀ s (m : TaskStep K), I s → m.Legal s → m.Within → I (m.run s)) : I t :=
  h.invariant hs fun s m hI hok => hstep s m hI hok.1 hok.2

theorem underway_run (h : (iteration K).Run s l t) (hs : Underway q s) : Underway q t :=
  iteration_invariant h hs fun _ _ => underway_step

/-- An iteration that drains the queue has applied what it found. -/
theorem length_le_applied (h : (iteration K).Run (s.wake w) l t) (hend : t.todo = [])
    (hw : w.Drains s.socks) : s.dev.cmdQ.length ≤ t.applied.length := by
  have hstart : Drained s.dev.cmdQ (s.wake w) := by
    refine .inl ⟨_, program_of_drains hw, fun inp hinp => ?_⟩
    exact (List.mem_append.1 hinp).elim (session_accepting inp) (session_servicing inp)
  obtain ⟨-, hdrained⟩ := iteration_invariant
    (I := fun s' => Underway s.dev.cmdQ s' ∧ Drained s.dev.cmdQ s') h ⟨underway_wake s w, hstart⟩
    fun s' m hI hlegal hwithin =>
      ⟨underway_step hI.1 hlegal hwithin, drained_step hI.2 hI.1 hwithin⟩
  obtain ⟨todo, htodo, -⟩ | ⟨-, hlen⟩ := hdrained
  · rw [hend] at htodo
    cases htodo
  · exact hlen

/-- An iteration that does not drain the queue applies nothing. -/
theorem applied_eq_nil (h : (iteration K).Run (s.wake w) l t) (hw : ¬w.Drains s.socks) :
    t.applied = [] := by
  have hserving : (s.wake w).Serving := session_program hw
  exact (iteration_invariant (I := fun s' => s'.Serving ∧ s'.applied = []) h ⟨hserving, rfl⟩
    fun s' m hI _ hwithin =>
      ⟨(serving_step hI.1 hwithin).1, (serving_step hI.1 hwithin).2.trans hI.2⟩).2

/-- **An iteration applies the requests it found in the queue** exactly if it drains the queue, or
there were none. -/
theorem appliesQueue_iff (h : (iteration K).Run (s.wake w) l t) (hend : t.todo = []) :
    AppliesQueue s.dev t ↔ w.Drains s.socks ∨ s.dev.cmdQ = [] := by
  have hledger := (underway_run h (underway_wake s w)).ledger
  -- both sides of the ledger end with the queue as it is now and the requests posted since
  by_cases hw : w.Drains s.socks
  · refine iff_of_true ?_ (.inl hw)
    have hlen := length_le_applied h hend hw
    obtain ⟨missing, hfound, hqueue⟩ | ⟨later, happlied, hposted⟩ :=
      List.append_eq_append_iff.1 hledger
    · -- nothing that was found is missing
      have hnone : missing = [] := by
        rw [hfound, List.length_append] at hlen
        exact List.length_eq_zero_iff.1 (by omega)
      rw [hnone, List.append_nil] at hfound
      rw [hnone, List.nil_append] at hqueue
      exact ⟨[], by rw [hfound, List.append_nil], hqueue⟩
    · exact ⟨later, happlied, hposted.symm⟩
  · have happlied := applied_eq_nil h hw
    rw [happlied, List.nil_append] at hledger
    constructor
    · rintro ⟨later, hall, -⟩
      rw [happlied] at hall
      exact .inr (List.append_eq_nil_iff.1 hall.symm).1
    · rintro (hdrains | hempty)
      · exact absurd hdrains hw
      · rw [hempty, List.nil_append] at hledger
        exact ⟨[], by rw [happlied, hempty]; rfl, hledger⟩

/-! ### Ends of iterations -/

/-- The work that is left. -/
def Task.left (s : Task K) : ℕ := s.todo.length + s.dev.cmdQ.length

theorem left_work (h : Underway q s) (hne : s.todo ≠ []) : s.work.left < s.left := by
  cases Task.works h.chores with
  | ended hend _ => exact absurd hend hne
  | drained htodo _ ht =>
    rw [ht]
    simp [Task.left, htodo]
  | request _ hq ht =>
    rw [ht]
    simp [Task.left, hq, Task.cmdQ_applySet]
  | session htodo hinp ht =>
    rw [ht]
    simp [Task.left, htodo, rests_session hinp]

/-- Left to itself, the task comes to the end of an iteration. -/
theorem iteration_ends (h : Underway q s) : ∃ l t, (iteration K).Run s l t ∧ t.todo = [] := by
  induction hn : s.left using Nat.strong_induction_on generalizing s with
  | _ n ih =>
    by_cases hend : s.todo = []
    · exact ⟨[], s, .nil s, hend⟩
    · have hwork := underway_step (m := .work) h hend trivial
      obtain ⟨l, t, hrun, ht⟩ := ih s.work.left (hn ▸ left_work h hend) hwork rfl
      exact ⟨.work :: l, t, .cons ⟨hend, trivial⟩ hrun, ht⟩

end Steps

/-! ### The loop as turns -/

section Turns

variable {s : Task K} {m : TaskStep K}

/-- **Every step of the loop is a run of turns.** -/
theorem turns_task (h : m.Legal s) (hchores : ∀ inp ∈ s.todo, inp = .drain ∨ inp.isSession = true) :
    Turns s.dev (m.run s).dev := by
  cases m with
  | wake w => exact .refl _
  | call inp => exact turns_input h.2
  | work =>
    change Turns s.dev s.work.dev
    cases Task.works hchores with
    | ended _ ht | drained _ _ ht =>
      rw [ht]
      exact .refl _
    | @request _ req cmdQ _ _ ht =>
      rw [ht]
      have hpop : Turns s.dev { s.dev with cmdQ := cmdQ } :=
        .quiet rfl rfl rfl rfl rfl rfl rfl rfl
      exact hpop.trans (.one (t := .set req) trivial)
    | @session inp _ _ hinp ht =>
      rw [ht]
      refine turns_input ?_
      cases inp with
      | accept | acceptTls | service | keepalive => trivial
      | _ => cases hinp

/-- **The device under the loop** is a device of turns, wherever the loop stands. -/
theorem reach_task (h : (task K).Reach s) : (turns K).Reach s.dev := by
  have hinv := h.invariant (I := fun s : Task K => (turns K).Reach s.dev ∧ ∃ q, Underway q s)
    (fun s hs => ?_) fun s m _ hI hok => ?_
  · exact hinv.1
  · obtain ⟨ident, net, cfg, calls, d, hd, -, rfl⟩ := hs
    exact ⟨.init ⟨ident, net, hd⟩, d.cmdQ, fun _ h => absurd h List.not_mem_nil,
      (List.append_nil _).symm⟩
  · obtain ⟨hreach, q, hq⟩ := hI
    obtain ⟨ts, hrun⟩ := turns_task hok hq.chores
    refine ⟨hreach.run hrun, ?_⟩
    cases m with
    | wake w => exact ⟨_, underway_wake s w⟩
    | work => exact ⟨q, underway_step (m := .work) hq hok trivial⟩
    | call inp => exact ⟨q, underway_step (m := .call inp) hq hok trivial⟩

end Turns

/-! ### A request that waits -/

namespace Sample

/-- Nothing happened on the sockets, or what `select` returns was the datagram. -/
def woke (datagram : Bool) : Woke .default where
  n := if datagram then 1 else 0
  now := 0
  wakeSet := datagram
  listenSet := false
  listenSet6 := false
  tlsListenSet := false
  tlsListenSet6 := false
  peer := none
  peer6 := none
  tlsPeer := none
  tlsPeer6 := none
  slots := fun _ => ⟨false, .wouldBlock, false, []⟩

/-- The calls of a start, with or without the loopback pair. -/
def wakeCalls (pair : Bool) : StartCalls := { goodCalls with wake := ⟨5, pair, 6, pair⟩ }

/-- The task after its start. -/
def started (pair : Bool) : Task .default :=
  ⟨start, (Boot.deviceStart config plaintext (wakeCalls pair)).2.socks, [], [], []⟩

theorem reach_started (pair : Bool) : (task .default).Reach (started pair) := by
  refine .init ⟨config, net, plaintext, wakeCalls pair, start, (Option.some_get _).symm, ?_, rfl⟩
  cases pair <;> decide

/-- A request to set a gain to 6 dB is posted. -/
def posted (pair : Bool) : Task .default :=
  ((started pair).call (.create (.gain ⟨0xC2700000⟩ ⟨0x41400000⟩ .zero) none (ascii "gain"))).call
    (.post 3 ⟨4096, .scalar, false, .ofNat 6, .zero, []⟩)

theorem reach_posted (pair : Bool) : (task .default).Reach (posted pair) := by
  have hcreate : (task .default).ok (started pair)
      (.call (.create (.gain ⟨0xC2700000⟩ ⟨0x41400000⟩ .zero) none (ascii "gain"))) :=
    ⟨rfl, fun b hb => absurd hb (Option.not_mem_none b)⟩
  refine Machine.Reach.step (i := TaskStep.call _) ((reach_started pair).step hcreate) ⟨rfl, ?_⟩
  change _ < _ ∧ _ = _
  cases pair <;> decide

/-- Without the loopback pair the request waits: the tick after 500 ms does not apply it. -/
theorem not_appliesQueue_tick : (task .default).Reach (posted false) ∧
    (posted false).todo = [] ∧ (posted false).dev.running = true ∧
    ∃ l t, (iteration .default).Run ((posted false).wake (woke false)) l t ∧ t.todo = [] ∧
      ¬AppliesQueue (posted false).dev t := by
  refine ⟨reach_posted false, rfl, rfl, ?_⟩
  obtain ⟨l, t, hrun, hend⟩ := iteration_ends (underway_wake (posted false) (woke false))
  refine ⟨l, t, hrun, hend, fun h => ?_⟩
  obtain ⟨later, happlied, -⟩ := h
  rw [applied_eq_nil hrun (by decide)] at happlied
  have hqueued : (posted false).dev.cmdQ ≠ [] := by decide
  exact hqueued (List.append_eq_nil_iff.1 happlied.symm).1

/-- With the datagram it is applied. -/
theorem appliesQueue_datagram :
    ∃ l t, (iteration .default).Run ((posted true).wake (woke true)) l t ∧ t.todo = [] ∧
      (posted true).dev.cmdQ ≠ [] ∧ AppliesQueue (posted true).dev t := by
  obtain ⟨l, t, hrun, hend⟩ := iteration_ends (underway_wake (posted true) (woke true))
  refine ⟨l, t, hrun, hend, by decide, ?_⟩
  exact (appliesQueue_iff hrun hend).2 (.inl (by decide))

end Sample

end Aes70
