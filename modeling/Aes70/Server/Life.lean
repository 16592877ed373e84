import Mathlib.Algebra.BigOperators.Group.Finset.Basic
import Aes70.Server.Task

/-!
# The life of a device

From a start that succeeds to the end of `aes70_device_stop`: the loop of `server_task` and its way
out, with the application, which posts requests and stops the device when it likes.

* `Device.postAnswer` : what `aes70_post_set` returns.
* `Life` : the task and its descriptors, with the books kept of the requests and of the sockets.
* `life` : the machine.
* `requests_of_reach` : what `aes70_post_set` accepted was applied or is still queued, in order and
  once.
* `descriptors_of_reach` : the descriptors that are open are those of the listeners, of the loopback
  pair and of the connections in use; after a stop that the task has met every one was closed
  exactly once.

`aes70_transport_stop` waits two seconds for the task and then goes on. A task that is still at
work, say in `send`, is left with memory that is freed; the life ends there.
-/

namespace Aes70

open Resource

variable {K : Kconfig}

/-! ### Posting -/

/-- What `aes70_post_set` returns: `ESP_OK`, `ESP_ERR_INVALID_STATE` or `ESP_ERR_NO_MEM`. -/
inductive PostAnswer
  | ok | invalidState | noMem
deriving DecidableEq

/-- The answer of `aes70_post_set`; what it does to the queue is `Device.postSet`. -/
def Device.postAnswer (d : Device K) : PostAnswer :=
  if !d.running then .invalidState
  else if d.cmdQ.length < 16 then .ok
  else .noMem

theorem postSet_of_ok {d : Device K} (h : d.postAnswer = .ok) (req : SetReq) :
    (d.postSet req).cmdQ = d.cmdQ ++ [req] ∧ d.cmdQ.length < 16 := by
  unfold Device.postAnswer at h
  split_ifs at h with hrunning hroom
  have hposts : (d.running && decide (d.cmdQ.length < 16)) = true := by simp_all
  rw [Device.postSet, if_pos hposts]
  exact ⟨rfl, hroom⟩

theorem postSet_of_refused {d : Device K} (h : d.postAnswer ≠ .ok) (req : SetReq) :
    d.postSet req = d := by
  unfold Device.postAnswer at h
  refine if_neg fun hposts => ?_
  simp only [Bool.and_eq_true, decide_eq_true_eq] at hposts
  simp [hposts.1, hposts.2] at h

/-! ### Descriptors of connections -/

/-- What an event means for the descriptors of the connections, `conns[c].sock`, and for the ledger,
where `accept` has returned `fd`. -/
def book (fd : ℤ) (b : (ℕ → ℤ) × Descriptors) : Event → (ℕ → ℤ) × Descriptors
  | .accepted c _ => (Function.update b.1 c fd, b.2 ++ [.acquire fd])
  | .closed c =>
    let (sock, t) := closeSock (b.1 c) b.2
    (Function.update b.1 c sock, t)
  | _ => b

/-- The event gives a slot to a connection. -/
def Event.isAccepted : Event → Bool
  | .accepted .. => true
  | _ => false

/-- The descriptors of the connections in use. -/
def Device.held (d : Device K) (sock : ℕ → ℤ) : Multiset ℤ :=
  ∑ c : Fin K.maxConnections, if (d.conns c).inUse then opened (sock c) else 0

/-- The ledger leaves open the descriptors `k` and those of the connections in use. -/
def Device.Books (d : Device K) (k : Multiset ℤ) (b : (ℕ → ℤ) × Descriptors) : Prop :=
  replay b.2 0 = some (d.held b.1 + k)

/-! ### The machine -/

/-- A device with its task, its descriptors and the books kept of them. -/
structure Life (K : Kconfig) where
  task : Task K
  /-- The listeners and the loopback pair, and the ledger of all descriptors. -/
  boot : Boot
  /-- `conns[c].sock`. -/
  sock : ℕ → ℤ
  /-- The requests for which `aes70_post_set` returned `ESP_OK`. -/
  accepted : List SetReq
  /-- The requests given to `aes70_object_apply_set`. -/
  applied : List SetReq
  /-- `server_task` has ended. -/
  ended : Bool
  /-- `aes70_device_stop` has closed the listeners and the loopback pair. -/
  stopped : Bool

namespace Life

/-- The device becomes that of `task`; the sockets are booked by what was recorded on the way. -/
def record (s : Life K) (task : Task K) (fd : ℤ) : Life K :=
  let es := task.dev.log.drop s.task.dev.log.length
  let b := es.foldl (book fd) (s.sock, s.boot.ledger)
  { s with task, sock := b.1, boot := { s.boot with ledger := b.2 } }

/-- The next step of the iteration accepts a socket that finds no slot, or whose TLS session cannot
be set up. -/
def Rejects (s : Life K) : Prop :=
  match s.task.todo with
  | inp@(.accept ..) :: _ | inp@(.acceptTls ..) :: _ =>
    ((inp.run s.task.dev).log.drop s.task.dev.log.length).any Event.isAccepted = false
  | _ => False

instance (s : Life K) : Decidable s.Rejects := by
  unfold Rejects
  split <;> infer_instance

/-- The next step of the iteration, where `accept`, if it is called, returns `fd`. -/
def work (s : Life K) (fd : ℤ) : Life K :=
  let t := s.record s.task.work fd
  { t with
    boot := { t.boot with ledger :=
      if s.Rejects then t.boot.ledger ++ [.acquire fd] ++ [.release fd] else t.boot.ledger }
    applied := s.applied ++ s.task.work.applied.drop s.task.applied.length }

/-- A call of the application. -/
def call (s : Life K) (inp : Input K) : Life K :=
  { s with
    task := s.task.call inp
    accepted := match inp with
      | .post _ req => if s.task.dev.postAnswer = .ok then s.accepted ++ [req] else s.accepted
      | _ => s.accepted }

/-- `aes70_transport_stop`, up to the wait for the task. -/
def stop (s : Life K) : Life K :=
  { s with task := { s.task with dev := { s.task.dev with running := false } } }

end Life

/-- The last lines of `server_task`. -/
def Device.closeAll (d : Device K) : Device K :=
  (List.finRange K.maxConnections).foldl Device.closeConn d

/-- The task leaves its loop; no socket is accepted on the way. -/
def Life.exit (s : Life K) : Life K :=
  { s.record { s.task with dev := s.task.dev.closeAll } 0 with ended := true }

/-- Who takes the next step. -/
inductive LifeStep (K : Kconfig)
  | wake (w : Woke K)
  | work (fd : ℤ)
  | call (inp : Input K)
  | stop
  | exit
  /-- `aes70_device_stop` goes on: the task has ended, or the wait for it is over. -/
  | close

namespace LifeStep

/-- The effect of a step. -/
def run (s : Life K) : LifeStep K → Life K
  | wake w => { s with task := s.task.wake w }
  | work fd => s.work fd
  | call inp => s.call inp
  | stop => s.stop
  | exit => s.exit
  | close => { s with boot := s.boot.deviceStop, stopped := true }

/-- The task looks at `running` between two iterations. `accept` returns a descriptor. Nobody uses
the device once `aes70_device_stop` is through; that a task has not ended by then does not keep it
from going on. -/
def Legal (s : Life K) : LifeStep K → Prop
  | wake _ => s.stopped = false ∧ s.ended = false ∧ s.task.todo = [] ∧ s.task.dev.running = true
  | work fd => s.stopped = false ∧ s.task.todo ≠ [] ∧ 0 ≤ fd
  | call inp => s.stopped = false ∧ inp.isApp = true ∧ inp.Legal s.task.dev
  | stop => s.stopped = false
  | exit => s.stopped = false ∧ s.ended = false ∧ s.task.todo = [] ∧ s.task.dev.running = false
  | close => s.stopped = false ∧ s.task.dev.running = false

/-- Every step is taken by a device that is not gone. -/
theorem Legal.unstopped {s : Life K} {m : LifeStep K} (h : m.Legal s) : s.stopped = false := by
  cases m with
  | stop => exact h
  | _ => exact h.1

end LifeStep

/-- A device from its start to its end. -/
def life (K : Kconfig) : Machine (Life K) (LifeStep K) where
  init s := ∃ ident net cfg calls d, Aes70.deviceStart K ident net = some d ∧
    (Boot.deviceStart ident cfg calls).1 = .ok ∧
    s = ⟨⟨d, (Boot.deviceStart ident cfg calls).2.socks, [], [], []⟩,
      (Boot.deviceStart ident cfg calls).2, fun _ => 0, [], [], false, false⟩
  ok s m := m.Legal s
  step s m := m.run s

/-! ### Requests -/

section Requests

variable {s : Life K}

/-- The books of the requests are right: what was accepted was applied or is in the queue. -/
structure Life.Serves (s : Life K) : Prop where
  task : ∃ q, Underway q s.task
  requests : s.accepted = s.applied ++ s.task.dev.cmdQ
  room : s.task.dev.cmdQ.length ≤ 16

theorem rests_closeAll (d : Device K) : Rests d d.closeAll :=
  List.foldlRecOn (motive := Rests d) _ _ (sessionOrder_rests.refl d) fun d' hd c _ =>
    sessionOrder_rests.trans hd (sessionOrder_rests.closeConn d' c)

/-- A step of an iteration takes the oldest request from the queue, or none. -/
theorem serves_work (h : s.Serves) (fd : ℤ) (hok : s.task.todo ≠ []) : (s.work fd).Serves := by
  obtain ⟨q, hq⟩ := h.task
  have hunder : Underway q s.task.work := underway_step (m := .work) hq hok trivial
  refine ⟨⟨q, hunder⟩, ?_, ?_⟩
  · change s.accepted = (s.applied ++ s.task.work.applied.drop s.task.applied.length) ++
      s.task.work.dev.cmdQ
    rw [h.requests]
    cases Task.works hq.chores with
    | ended hend _ => exact absurd hend hok
    | drained _ _ ht => simp [ht]
    | request _ hqueue ht => simp [ht, hqueue, Task.cmdQ_applySet]
    | session _ hinp ht => simp [ht, rests_session hinp]
  · change s.task.work.dev.cmdQ.length ≤ 16
    cases Task.works hq.chores with
    | ended hend _ => exact absurd hend hok
    | drained _ _ ht => simpa [ht] using h.room
    | request _ hqueue ht =>
      have hroom := h.room
      rw [hqueue, List.length_cons] at hroom
      rw [ht, Task.cmdQ_applySet]
      omega
    | session _ hinp ht =>
      rw [ht, rests_session hinp]
      exact h.room

/-- A call of the application adds what was accepted to the queue. -/
theorem serves_call (h : s.Serves) {inp : Input K} (happ : inp.isApp = true)
    (hlegal : inp.Legal s.task.dev) : (s.call inp).Serves := by
  obtain ⟨q, hq⟩ := h.task
  have hunder : Underway q (s.task.call inp) :=
    underway_step (m := .call inp) hq ⟨happ, hlegal⟩ trivial
  by_cases hpost : ∃ i req, inp = .post i req
  · obtain ⟨i, req, rfl⟩ := hpost
    by_cases hanswer : s.task.dev.postAnswer = .ok
    · obtain ⟨hqueue, hroom⟩ := postSet_of_ok hanswer req
      refine ⟨⟨q, hunder⟩, ?_, ?_⟩
      · change (if s.task.dev.postAnswer = .ok then s.accepted ++ [req] else s.accepted) =
          s.applied ++ (s.task.dev.postSet req).cmdQ
        rw [if_pos hanswer, hqueue, h.requests, List.append_assoc]
      · change (s.task.dev.postSet req).cmdQ.length ≤ 16
        rw [hqueue, List.length_append, List.length_singleton]
        omega
    · have hsame := postSet_of_refused hanswer req
      refine ⟨⟨q, hunder⟩, ?_, ?_⟩
      · change (if s.task.dev.postAnswer = .ok then s.accepted ++ [req] else s.accepted) =
          s.applied ++ (s.task.dev.postSet req).cmdQ
        rw [if_neg hanswer, hsame, h.requests]
      · change (s.task.dev.postSet req).cmdQ.length ≤ 16
        rw [hsame]
        exact h.room
  · have hdrain : inp ≠ .drain := by
      rintro rfl
      cases happ
    have hrests : (inp.run s.task.dev).cmdQ = s.task.dev.cmdQ :=
      rests_input hdrain fun i req he => hpost ⟨i, req, he⟩
    have haccepted : (s.call inp).accepted = s.accepted := by
      cases inp with
      | post i req => exact absurd ⟨i, req, rfl⟩ hpost
      | _ => rfl
    refine ⟨⟨q, hunder⟩, ?_, ?_⟩
    · change (s.call inp).accepted = s.applied ++ (inp.run s.task.dev).cmdQ
      rw [haccepted, hrests, h.requests]
    · change (inp.run s.task.dev).cmdQ.length ≤ 16
      rw [hrests]
      exact h.room

/-- **Every step** keeps the books of the requests. -/
theorem serves_step (h : s.Serves) {m : LifeStep K} (hok : m.Legal s) : (m.run s).Serves := by
  obtain ⟨q, hq⟩ := h.task
  cases m with
  | wake w => exact ⟨⟨_, underway_wake s.task w⟩, h.requests, h.room⟩
  | work fd => exact serves_work h fd hok.2.1
  | call inp => exact serves_call h hok.2.1 hok.2.2
  | stop => exact ⟨⟨q, hq.chores, hq.ledger⟩, h.requests, h.room⟩
  | exit =>
    have hrests : s.task.dev.closeAll.cmdQ = s.task.dev.cmdQ := rests_closeAll s.task.dev
    refine ⟨⟨q, hq.chores, ?_⟩, ?_, ?_⟩
    · change s.task.applied ++ s.task.dev.closeAll.cmdQ = q ++ s.task.posted
      rw [hrests]
      exact hq.ledger
    · change s.accepted = s.applied ++ s.task.dev.closeAll.cmdQ
      rw [hrests]
      exact h.requests
    · change s.task.dev.closeAll.cmdQ.length ≤ 16
      rw [hrests]
      exact h.room
  | close => exact ⟨⟨q, hq⟩, h.requests, h.room⟩

theorem cmdQ_start {d : Device K} {ident : DeviceConfig} {net : Net}
    (h : deviceStart K ident net = some d) : d.cmdQ = [] := by
  obtain ⟨e, rfl⟩ := start_eq h
  rfl

/-- **Requests are applied in order and once.** Whatever the application posts and whenever it
stops the device: the requests that `aes70_post_set` has accepted so far are those applied so far
and behind them those in the queue, of which there are at most 16. -/
theorem requests_of_reach (h : (life K).Reach s) :
    s.accepted = s.applied ++ s.task.dev.cmdQ ∧ s.task.dev.cmdQ.length ≤ 16 := by
  have hserves : s.Serves := by
    refine h.invariant (fun s hs => ?_) fun s m _ hI hok => serves_step hI hok
    obtain ⟨ident, net, cfg, calls, d, hd, -, rfl⟩ := hs
    have hempty : d.cmdQ = [] := cmdQ_start hd
    refine ⟨⟨[], fun _ h => absurd h List.not_mem_nil, hempty⟩, hempty.symm, ?_⟩
    change d.cmdQ.length ≤ 16
    rw [hempty]
    exact Nat.zero_le 16
  exact ⟨hserves.requests, hserves.room⟩

end Requests

/-! ### Descriptors -/

section Descriptors

variable {d d' : Device K} {c : Fin K.maxConnections} {b : (ℕ → ℤ) × Descriptors} {k : Multiset ℤ}
  {fd : ℤ}

/-- Two families that differ at one place. -/
theorem sum_update {ι : Type*} [Fintype ι] [DecidableEq ι] {f g : ι → Multiset ℤ} {i : ι}
    (h : ∀ j ≠ i, g j = f j) : f i + ∑ j, g j = g i + ∑ j, f j := by
  have hrest : ∑ j ∈ Finset.univ.erase i, g j = ∑ j ∈ Finset.univ.erase i, f j :=
    Finset.sum_congr rfl fun j hj => h j (Finset.ne_of_mem_erase hj)
  rw [← Finset.add_sum_erase _ g (Finset.mem_univ i),
    ← Finset.add_sum_erase _ f (Finset.mem_univ i), hrest, add_left_comm]

theorem held_congr {sock : ℕ → ℤ} (h : ∀ c, (d'.conns c).inUse = (d.conns c).inUse) :
    d'.held sock = d.held sock := by
  unfold Device.held
  refine Finset.sum_congr rfl fun c _ => ?_
  rw [h c]

/-- A connection that is accepted holds one more descriptor. -/
theorem held_accept {sock : ℕ → ℤ} {e : Conn} (hfree : (d.conns c).inUse = false)
    (huse : e.inUse = true) (hconns : d'.conns = Function.update d.conns c e) :
    d'.held (Function.update sock c fd) = opened fd + d.held sock := by
  have hsum := sum_update (i := c)
    (f := fun k : Fin K.maxConnections => if (d.conns k).inUse then opened (sock k) else 0)
    (g := fun k : Fin K.maxConnections =>
      if (d'.conns k).inUse then opened (Function.update sock c fd k) else 0) fun k hk => by
    have hne : (k : ℕ) ≠ c := fun he => hk (Fin.ext he)
    simp [hconns, hk, hne]
  simpa [Device.held, hfree, huse, hconns] using hsum

/-- A connection that is closed holds one less. -/
theorem held_close {sock : ℕ → ℤ} (huse : (d.conns c).inUse = true) (s : ℤ) :
    d.held sock = opened (sock c) + (d.closeConn c).held (Function.update sock c s) := by
  rw [Device.closeConn_of_inUse huse]
  have hsum := sum_update (i := c)
    (f := fun k : Fin K.maxConnections => if (d.conns k).inUse then opened (sock k) else 0)
    (g := fun k : Fin K.maxConnections =>
      if (Function.update d.conns c .empty k).inUse then
        opened (Function.update sock c s k) else 0) fun k hk => by
    have hne : (k : ℕ) ≠ c := fun he => hk (Fin.ext he)
    simp [hk, hne]
  simpa [huse, Conn.empty, Device.held] using hsum.symm

/-- The books, kept by the events that are recorded between two devices. -/
def Booked (fd : ℤ) (k : Multiset ℤ) (d d' : Device K) : Prop :=
  ∀ b, d.Books k b → ∃ es, d'.log = d.log ++ es ∧ d'.Books k (es.foldl (book fd) b)

theorem Booked.trans {d'' : Device K} (h : Booked fd k d d') (h' : Booked fd k d' d'') :
    Booked fd k d d'' := by
  intro b hb
  obtain ⟨es, hlog, hes⟩ := h b hb
  obtain ⟨es', hlog', hes'⟩ := h' _ hes
  refine ⟨es ++ es', by rw [hlog', hlog, List.append_assoc], ?_⟩
  rwa [List.foldl_append]

/-- Events of a session that is not opened or closed mean nothing for the books. -/
theorem Booked.of_silent {es : List Event} (hlog : d'.log = d.log ++ es)
    (hes : ∀ e ∈ es, ∀ b, book fd b e = b) (huse : ∀ c, (d'.conns c).inUse = (d.conns c).inUse) :
    Booked fd k d d' := by
  intro b hb
  refine ⟨es, hlog, ?_⟩
  rw [Log.foldl_of_silent hes]
  unfold Device.Books
  rwa [held_congr huse]

theorem Booked.of_quiet (hlog : d'.log = d.log)
    (huse : ∀ c, (d'.conns c).inUse = (d.conns c).inUse) : Booked fd k d d' :=
  .of_silent (hlog.trans (List.append_nil _).symm) (fun _ h => absurd h List.not_mem_nil) huse

theorem Booked.refl (d : Device K) : Booked fd k d d := .of_quiet rfl fun _ => rfl

theorem inUse_of_standing {e e' : Conn} (h : e'.standing = e.standing) : e'.inUse = e.inUse := by
  have huse := congrArg Conn.inUse h
  exact huse

theorem booked_steady {T : Prop} (h : Steady T d d') : Booked fd k d d' := by
  obtain ⟨es, hlog, hes⟩ := h.log
  refine .of_silent hlog (fun e he b => ?_) fun c => inUse_of_standing (h.standing c)
  have houtput := (hes e he).1
  cases e with
  | propertyChanged | controlChanged | tx => rfl
  | _ => cases houtput

theorem booked_executed {T : Prop} {n : ℕ} {cmd : Command} {st : Status}
    (h : Executed T d n cmd st d') : Booked fd k d d' := by
  have hstanding := conns_executed h
  cases h with
  | other h => exact booked_steady h
  | _ => exact .of_quiet rfl fun c => inUse_of_standing (hstanding c)

/-- A slot is given to a socket. -/
theorem booked_accept {e : Conn} (hfd : 0 ≤ fd) (hfree : (d.conns c).inUse = false)
    (huse : e.inUse = true) (tls : Bool) :
    Booked fd k d ((d.modifyConn c fun _ => e).emit (.accepted c tls)) := by
  intro b hb
  refine ⟨[.accepted c tls], rfl, ?_⟩
  have hconns : ((d.modifyConn c fun _ => e).emit (.accepted c tls)).conns =
      Function.update d.conns c e := rfl
  change replay (b.2 ++ [.acquire fd]) 0 =
    some (Device.held _ (Function.update b.1 c fd) + k)
  rw [held_accept hfree huse hconns, opened_of_nonneg hfd, add_assoc, Multiset.singleton_add]
  exact replay_concat_acquire hb

/-- A connection is closed, and its socket with it. -/
theorem booked_close (huse : (d.conns c).inUse = true) : Booked fd k d (d.closeConn c) := by
  intro b hb
  refine ⟨[.closed c], Device.log_closeConn huse, ?_⟩
  change replay (closeSock (b.1 c) b.2).2 0 =
    some ((d.closeConn c).held (Function.update b.1 c (closeSock (b.1 c) b.2).1) + k)
  unfold Device.Books at hb
  rw [held_close huse (closeSock (b.1 c) b.2).1, add_assoc] at hb
  exact replay_closeSock hb

/-- **Every move** keeps the books. -/
theorem booked_move {T : Prop} (hfd : 0 ≤ fd) (h : Move T d d') : Booked fd k d d' := by
  have hsilent {e : Device K} {ev : Event} (hev : ∀ b, book fd b ev = b) :
      Booked fd k e (e.emit ev) :=
    .of_silent rfl (fun e' he' => List.mem_singleton.1 he' ▸ hev) fun _ => rfl
  cases h with
  | steady h => exact booked_steady h
  | command _ h => exact (booked_executed h).trans (hsilent fun _ => rfl)
  | accept now addr port granted hfree =>
    exact (booked_accept hfd hfree rfl false).trans (hsilent fun _ => rfl)
  | acceptTls now deadline addr port hfree => exact booked_accept hfd hfree rfl true
  | @handshake c now granted huse =>
    refine .of_silent rfl (fun e he b => List.mem_singleton.1 he ▸ rfl) fun k => ?_
    by_cases hk : k = c
    · subst hk
      simp [Device.modifyConn, Device.emit]
    · simp [Device.modifyConn, Device.emit, hk]
  | close huse => exact booked_close huse
  | post => exact .of_quiet rfl fun _ => rfl

theorem booked_moves {T : Prop} (hfd : 0 ≤ fd) (h : Moves T d d') : Booked fd k d d' := by
  induction h with
  | refl => exact .refl d
  | tail _ hone ih => exact ih.trans (booked_move hfd hone)

/-- The way out of the task closes one connection after the other. -/
theorem moves_closeAll {T : Prop} (d : Device K) : Moves T d d.closeAll :=
  List.foldlRecOn (motive := Moves T d) _ _ .refl fun d' hd c _ => by
    by_cases huse : (d'.conns c).inUse = true
    · exact hd.tail (.close huse)
    · rwa [Device.closeConn, if_pos (by simpa using huse)]

theorem inUse_closeAll (d : Device K) (c : Fin K.maxConnections) :
    (d.closeAll.conns c).inUse = false := by
  have hkeep (d : Device K) (k : Fin K.maxConnections) (h : (d.conns c).inUse = false) :
      ((d.closeConn k).conns c).inUse = false := by
    by_cases hk : c = k
    · subst hk
      exact d.inUse_closeConn c
    · by_cases huse : (d.conns k).inUse = true
      · simpa [Device.closeConn_of_inUse huse, hk] using h
      · rwa [Device.closeConn, if_pos (by simpa using huse)]
  -- once closed, a slot stays so
  have hall (cs : List (Fin K.maxConnections)) (d : Device K)
      (h : c ∈ cs ∨ (d.conns c).inUse = false) :
      ((cs.foldl Device.closeConn d).conns c).inUse = false := by
    induction cs generalizing d with
    | nil => exact h.resolve_left List.not_mem_nil
    | cons k cs ih =>
      refine ih _ ?_
      obtain hmem | hclosed := h
      · obtain rfl | hmem := List.mem_cons.1 hmem
        · exact .inr (d.inUse_closeConn c)
        · exact .inl hmem
      · exact .inr (hkeep d k hclosed)
  exact hall _ d (.inl (List.mem_finRange c))

end Descriptors

/-! ### Lives -/

section Lives

variable {s : Life K} {fd : ℤ}

/-- The books of the descriptors are right. -/
structure Life.Owns (s : Life K) : Prop where
  task : ∃ q, Underway q s.task
  sound : Sound False s.task.dev
  books : s.task.dev.Books s.boot.socks.held (s.sock, s.boot.ledger)
  running : s.stopped = false → s.boot.running = true
  ended : s.ended = true → s.task.todo = [] ∧ ∀ c, (s.task.dev.conns c).inUse = false
  stopped : s.stopped = true → s.boot.socks.held = 0

/-- What is recorded on the way is booked. -/
theorem books_record {t : Task K} (hbooked : Booked fd s.boot.socks.held s.task.dev t.dev)
    (h : s.task.dev.Books s.boot.socks.held (s.sock, s.boot.ledger)) :
    t.dev.Books s.boot.socks.held ((s.record t fd).sock, (s.record t fd).boot.ledger) := by
  obtain ⟨es, hlog, hbooks⟩ := hbooked _ h
  have hes : t.dev.log.drop s.task.dev.log.length = es := by
    rw [hlog, List.drop_left]
  change t.dev.Books s.boot.socks.held
    ((t.dev.log.drop s.task.dev.log.length).foldl (book fd) (s.sock, s.boot.ledger))
  rwa [hes]

/-- A step of an iteration is a sequence of moves. -/
theorem moves_work {q : List SetReq} {t : Task K} (hq : Underway q t) (h : Sound False t.dev) :
    Moves False t.dev t.work.dev := by
  cases Task.works hq.chores with
  | ended _ ht | drained _ _ ht =>
    have hdev : t.work.dev = t.dev := by rw [ht]
    exact hdev ▸ .refl
  | @request _ req cmdQ _ hqueue ht =>
    rw [ht]
    have hpop : Steady False t.dev { t.dev with cmdQ := cmdQ } :=
      .of_eq rfl rfl rfl rfl rfl (fun _ h => hqueue ▸ List.mem_cons_of_mem _ h) rfl
    have hset : Steady False { t.dev with cmdQ := cmdQ }
        ({ t.dev with cmdQ := cmdQ }.applySet req) :=
      steady_applySet False.elim (hpop.keeps.registry h.registry)
    exact .single (.steady (hpop.trans hset))
  | @session inp _ _ hinp ht =>
    rw [ht]
    refine moves_step h ?_ False.elim
    cases inp with
    | accept | acceptTls | service | keepalive => trivial
    | _ => cases hinp

/-- A socket that is rejected is closed at once. -/
theorem books_work (h : s.Owns) (hfd : 0 ≤ fd) :
    (s.work fd).task.dev.Books s.boot.socks.held ((s.work fd).sock, (s.work fd).boot.ledger) := by
  obtain ⟨q, hq⟩ := h.task
  have hbooks : s.task.work.dev.Books s.boot.socks.held
      ((s.record s.task.work fd).sock, (s.record s.task.work fd).boot.ledger) :=
    books_record (booked_moves hfd (moves_work hq h.sound)) h.books
  change replay (if s.Rejects then (s.record s.task.work fd).boot.ledger ++ [.acquire fd] ++
    [.release fd] else (s.record s.task.work fd).boot.ledger) 0 = some _
  split_ifs
  · exact replay_concat_release (replay_concat_acquire hbooks)
  · exact hbooks

/-- **Every step** keeps the books of the descriptors. -/
theorem owns_step (h : s.Owns) {m : LifeStep K} (hok : m.Legal s) : (m.run s).Owns := by
  obtain ⟨q, hq⟩ := h.task
  have hopen : s.stopped = false := hok.unstopped
  have hgone (hs : s.stopped = true) : False := Bool.noConfusion (hopen.symm.trans hs)
  cases m with
  | wake w =>
    obtain ⟨-, hgoing, -, -⟩ := hok
    exact ⟨⟨_, underway_wake s.task w⟩, h.sound, h.books, h.running,
      fun he => Bool.noConfusion (hgoing.symm.trans he), fun hs => (hgone hs).elim⟩
  | work fd =>
    obtain ⟨-, htodo, hfd⟩ := hok
    exact ⟨⟨q, underway_step (m := .work) hq htodo trivial⟩,
      (moves_work hq h.sound).sound h.sound, books_work h hfd, h.running,
      fun he => absurd (h.ended he).1 htodo, fun hs => (hgone hs).elim⟩
  | call inp =>
    obtain ⟨-, happ, hlegal⟩ := hok
    obtain ⟨hconns, hlog⟩ := conns_app (d := s.task.dev) happ
    have hbooked : Booked 0 s.boot.socks.held s.task.dev (inp.run s.task.dev) :=
      .of_quiet hlog fun c => by rw [hconns]
    obtain ⟨es, hes, hbooks⟩ := hbooked _ h.books
    have hnone : es = [] := by simpa [hlog] using hes
    subst hnone
    refine ⟨⟨q, underway_step (m := .call inp) hq ⟨happ, hlegal⟩ trivial⟩,
      (moves_step h.sound hlegal False.elim).sound h.sound, hbooks, h.running, fun he => ?_,
      h.stopped⟩
    obtain ⟨htodo, hfree⟩ := h.ended he
    refine ⟨htodo, fun c => ?_⟩
    change ((inp.run s.task.dev).conns c).inUse = false
    rw [hconns]
    exact hfree c
  | stop =>
    exact ⟨⟨q, hq.chores, hq.ledger⟩,
      ⟨h.sound.registry.congr rfl (fun _ _ => rfl) rfl, fun hT => hT.elim⟩, h.books, h.running,
      h.ended, h.stopped⟩
  | exit =>
    obtain ⟨-, -, htodo, -⟩ := hok
    have hmoves : Moves False s.task.dev s.task.dev.closeAll := moves_closeAll s.task.dev
    have hbooks := books_record (s := s) (t := { s.task with dev := s.task.dev.closeAll })
      (booked_moves le_rfl hmoves) h.books
    refine ⟨⟨q, hq.chores, ?_⟩, hmoves.sound h.sound, hbooks, h.running,
      fun _ => ⟨htodo, inUse_closeAll s.task.dev⟩, fun hs => (hgone hs).elim⟩
    change s.task.applied ++ s.task.dev.closeAll.cmdQ = q ++ s.task.posted
    rw [rests_closeAll s.task.dev]
    exact hq.ledger
  | close =>
    have hrunning := h.running hopen
    have hnone : s.boot.deviceStop.socks.held = 0 := Boot.held_deviceStop_of_running hrunning
    -- the connections in use are left as they are
    have hbooks := h.books
    unfold Device.Books at hbooks
    rw [add_comm] at hbooks
    refine ⟨⟨q, hq⟩, h.sound, ?_, fun hs => Bool.noConfusion hs, h.ended, fun _ => hnone⟩
    change replay s.boot.deviceStop.ledger 0 =
      some (s.task.dev.held s.sock + s.boot.deviceStop.socks.held)
    rw [hnone, add_zero]
    exact Boot.replay_deviceStop_of_running hbooks hrunning

theorem held_of_free (h : ∀ c, (s.task.dev.conns c).inUse = false) :
    s.task.dev.held s.sock = 0 := by
  refine Finset.sum_eq_zero fun c _ => ?_
  rw [h c]
  rfl

/-- **Every descriptor is closed at most once.** At any time the descriptors that are open are those
of the connections in use, one each, of the listeners and of the loopback pair; none was closed that
was not open. `aes70_device_stop` leaves no listener open and no loopback pair, so that exactly the
connections are open that the task did not get to close while it was waited for. If the task had
ended then every descriptor was closed exactly once. -/
theorem descriptors_of_reach (h : (life K).Reach s) :
    replay s.boot.ledger 0 = some (s.task.dev.held s.sock + s.boot.socks.held) ∧
      (s.stopped = true → s.boot.socks.held = 0 ∧
        (s.ended = true → Balanced s.boot.ledger)) := by
  have howns : s.Owns := by
    refine h.invariant (fun s hs => ?_) fun s m _ hI hok => owns_step hI hok
    obtain ⟨ident, net, cfg, calls, d, hd, hboot, rfl⟩ := hs
    obtain ⟨howns, hrunning⟩ := Boot.owns_deviceStart hboot
    refine ⟨⟨[], fun _ h => absurd h List.not_mem_nil, cmdQ_start hd⟩, sound_start ⟨_, _, hd⟩, ?_,
      fun _ => hrunning, fun he => Bool.noConfusion he, fun hs => Bool.noConfusion hs⟩
    obtain ⟨e, rfl⟩ := start_eq hd
    have hnone : ∑ _c : Fin K.maxConnections, (0 : Multiset ℤ) = 0 := Finset.sum_const_zero
    change replay _ 0 = some (∑ _c : Fin K.maxConnections, (0 : Multiset ℤ) + _)
    rw [hnone, zero_add]
    exact howns
  refine ⟨howns.books, fun hs => ⟨howns.stopped hs, fun he => balanced_iff.2 ?_⟩⟩
  have hbooks := howns.books
  unfold Device.Books at hbooks
  rwa [held_of_free (howns.ended he).2, howns.stopped hs, zero_add] at hbooks

end Lives

/-! ### A short life -/

namespace Sample

/-- A device that was just started. -/
def born : Life .default :=
  ⟨started true, (Boot.deviceStart config plaintext (wakeCalls true)).2, fun _ => 0, [], [], false,
    false⟩

theorem reach_born : (life .default).Reach born :=
  .init ⟨config, net, plaintext, wakeCalls true, start, (Option.some_get _).symm, by decide, rfl⟩

/-- A request for the gain that was created. -/
def gainRequest : SetReq := ⟨4096, .scalar, false, .ofNat 6, .zero, []⟩

/-- A gain is created, a request for it is posted and applied, and another one posted. -/
def posting : List (LifeStep .default) :=
  [.call (.create (.gain ⟨0xC2700000⟩ ⟨0x41400000⟩ .zero) none (ascii "gain")),
    .call (.post 3 gainRequest), .wake (woke true), .work 0, .call (.post 3 gainRequest)]

theorem requests_posting : (posting.foldl LifeStep.run born).applied = [gainRequest] ∧
    (posting.foldl LifeStep.run born).accepted =
      (posting.foldl LifeStep.run born).applied ++
        (posting.foldl LifeStep.run born).task.dev.cmdQ ∧
      (posting.foldl LifeStep.run born).task.dev.cmdQ.length ≤ 16 := by
  have hpost {s : Life .default} (hopen : s.stopped = false)
      (hlegal : 3 < s.task.dev.objects.length ∧ gainRequest.ono = (s.task.dev.obj 3).ono) :
      (life .default).ok s (.call (.post 3 gainRequest)) := ⟨hopen, rfl, hlegal⟩
  have hrun : (life .default).Run born posting (posting.foldl LifeStep.run born) :=
    .cons ⟨rfl, rfl, fun b hb => absurd hb (Option.not_mem_none b)⟩ <|
    .cons (hpost rfl (by decide)) <| .cons ⟨rfl, rfl, rfl, rfl⟩ <|
    .cons ⟨rfl, List.ne_nil_of_length_pos (by decide), le_rfl⟩ <|
    .cons (hpost rfl (by decide)) <| .nil _
  exact ⟨rfl, requests_of_reach (reach_born.run hrun)⟩

/-- A peer connects, on descriptor 9. -/
def visited : Woke .default := { woke true with listenSet := true, peer := some ([], 0, true) }

/-- The device is stopped while the peer is connected. -/
def visit : List (LifeStep .default) :=
  [.wake visited, .work 9, .work 9, .stop, .work 0, .work 0, .work 0, .work 0, .work 0, .exit,
    .close]

theorem balanced_visit : Balanced (visit.foldl LifeStep.run born).boot.ledger := by
  have hwork {s : Life .default} {fd : ℤ} (hopen : s.stopped = false) (h : 0 < s.task.todo.length)
      (hfd : 0 ≤ fd) : (life .default).ok s (.work fd) := ⟨hopen, List.ne_nil_of_length_pos h, hfd⟩
  have hrun : (life .default).Run born visit (visit.foldl LifeStep.run born) :=
    .cons ⟨rfl, rfl, rfl, rfl⟩ <| .cons (hwork rfl (by decide) (by decide)) <|
    .cons (hwork rfl (by decide) (by decide)) <| .cons rfl <|
    .cons (hwork rfl (by decide) le_rfl) <| .cons (hwork rfl (by decide) le_rfl) <|
    .cons (hwork rfl (by decide) le_rfl) <| .cons (hwork rfl (by decide) le_rfl) <|
    .cons (hwork rfl (by decide) le_rfl) <| .cons ⟨rfl, rfl, rfl, rfl⟩ <| .cons ⟨rfl, rfl⟩ <|
    .nil _
  exact ((descriptors_of_reach (reach_born.run hrun)).2 rfl).2 rfl

end Sample

end Aes70
