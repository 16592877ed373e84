import Mathlib.Algebra.Order.Ring.Int
import Mathlib.Tactic.Abel
import Aes70.Resource.Ledger
import Aes70.Server.Machine

/-!
# Descriptors during start-up

`aes70_device_start` and `aes70_device_stop`, with what they open and close: the listeners and the
loopback pair of `aes70_transport.c`. Every allocation and every socket call may fail.

* `StartCalls` : the outcomes of the calls.
* `Boot` : the fields of the device that start-up and teardown go by, and the ledger of descriptors.
* `Boot.deviceStart`, `Boot.deviceStop` : the two functions.
* `Boot.Owns` : the descriptors that are open are those in the fields.
* `releasesAll_iff` : a start that fails closes what it opened, and nothing else, unless the failure
  is one of two kinds.
* `balanced_deviceStop` : a device that was started and is stopped closes its descriptors.
-/

namespace Aes70

open Resource

/-! ### Calls and their outcomes -/

/-- `esp_err_t`, as far as start-up returns it. -/
inductive EspErr
  | ok | fail | noMem | invalidArg | notSupported
deriving DecidableEq

/-- Descriptors opened and closed so far. -/
abbrev Descriptors := List (Act ℤ)

/-- The outcomes of the calls that make a listener: the descriptor `socket` returns, and whether
`bind` and `listen` succeed. -/
structure ListenCalls where
  socket : ℤ
  bind : Bool
  listen : Bool

/-- The outcomes of the calls that make the loopback pair. -/
structure WakeCalls where
  recvSocket : ℤ
  bind : Bool
  sendSocket : ℤ
  connect : Bool

/-- The outcomes of all calls of `aes70_device_start`. -/
structure StartCalls where
  /-- `calloc` of the device. -/
  device : Bool
  lock : Bool
  cmdQ : Bool
  /-- `aes70_object_new` of the three required objects. -/
  deviceManager : Bool
  subscriptionManager : Bool
  rootBlock : Bool
  tlsListen : ListenCalls
  tlsListen6 : ListenCalls
  listen : ListenCalls
  listen6 : ListenCalls
  wake : WakeCalls
  /-- `xTaskCreatePinnedToCore`. -/
  task : Bool

/-- The configuration of the listeners. -/
structure ListenConfig where
  /-- `CONFIG_AES70_ENABLE_TLS`. -/
  tlsBuilt : Bool
  tlsEnable : Bool
  /-- Whether the certificate and the key are there. -/
  serverCertPem : Bool
  serverKeyPem : Bool
  disablePlaintext : Bool

/-- The descriptors of the device; a negative number stands for none. -/
structure Sockets where
  listenSock : ℤ
  listenSock6 : ℤ
  tlsListenSock : ℤ
  tlsListenSock6 : ℤ
  wakeRecvSock : ℤ
  wakeSendSock : ℤ
deriving DecidableEq

/-- What start-up and teardown of the transport see of the device, and the descriptors opened and
closed so far. -/
structure Boot where
  socks : Sockets
  running : Bool
  /-- `task` is set. -/
  task : Bool
  ledger : Descriptors
deriving DecidableEq

/-! ### Sockets -/

/-- `make_listen_socket`. -/
def makeListenSocket (calls : ListenCalls) (t : Descriptors) : ℤ × Descriptors :=
  if calls.socket < 0 then (-1, t) else
    let t := t ++ [.acquire calls.socket]
    if !calls.bind then (-1, t ++ [.release calls.socket])
    else if !calls.listen then (-1, t ++ [.release calls.socket])
    else (calls.socket, t)

/-- `make_listen_socket6`. -/
def makeListenSocket6 (calls : ListenCalls) (t : Descriptors) : ℤ × Descriptors :=
  makeListenSocket calls t

/-- `if (s >= 0) { close(s); s = -1; }`. -/
def closeSock (s : ℤ) (t : Descriptors) : ℤ × Descriptors :=
  if 0 ≤ s then (-1, t ++ [.release s]) else (s, t)

namespace Boot

/-- `make_wake_pipe`. -/
def makeWakePipe (b : Boot) (calls : WakeCalls) : EspErr × Boot :=
  let t := b.ledger
  if calls.recvSocket < 0 then (.fail, b) else
    let t := t ++ [.acquire calls.recvSocket]
    if !calls.bind then (.fail, { b with ledger := t ++ [.release calls.recvSocket] })
    else if calls.sendSocket < 0 then
      (.fail, { b with ledger := t ++ [.release calls.recvSocket] })
    else
      let t := t ++ [.acquire calls.sendSocket]
      if !calls.connect then
        (.fail, { b with
          ledger := t ++ [.release calls.recvSocket] ++ [.release calls.sendSocket] })
      else
        (.ok, { b with
          socks := { b.socks with
            wakeRecvSock := calls.recvSocket, wakeSendSock := calls.sendSocket }
          ledger := t })

/-- `close_listeners`. -/
def closeListeners (b : Boot) : Boot :=
  let (listenSock, t) := closeSock b.socks.listenSock b.ledger
  let (listenSock6, t) := closeSock b.socks.listenSock6 t
  let (tlsListenSock, t) := closeSock b.socks.tlsListenSock t
  let (tlsListenSock6, t) := closeSock b.socks.tlsListenSock6 t
  { b with
    socks := { b.socks with listenSock, listenSock6, tlsListenSock, tlsListenSock6 }, ledger := t }

/-- The TLS listeners of `aes70_transport_start`. -/
def startTls (b : Boot) (cfg : ListenConfig) (calls : StartCalls) : EspErr × Boot :=
  if !cfg.tlsEnable then (.ok, b)
  else if !cfg.tlsBuilt then (.notSupported, b)
  else if !cfg.serverCertPem || !cfg.serverKeyPem then (.invalidArg, b)
  else
    let (tlsListenSock, t) := makeListenSocket calls.tlsListen b.ledger
    let b := { b with socks := { b.socks with tlsListenSock }, ledger := t }
    if tlsListenSock < 0 then (.fail, b) else
      let (tlsListenSock6, t) := makeListenSocket6 calls.tlsListen6 b.ledger
      (.ok, { b with socks := { b.socks with tlsListenSock6 }, ledger := t })

/-- The plaintext listeners of `aes70_transport_start`. -/
def startPlain (b : Boot) (cfg : ListenConfig) (calls : StartCalls) : EspErr × Boot :=
  if !cfg.disablePlaintext then
    let (listenSock, t) := makeListenSocket calls.listen b.ledger
    let b := { b with socks := { b.socks with listenSock }, ledger := t }
    if listenSock < 0 then
      let (tlsListenSock, t) := closeSock b.socks.tlsListenSock b.ledger
      let (tlsListenSock6, t) := closeSock b.socks.tlsListenSock6 t
      (.fail, { b with socks := { b.socks with tlsListenSock, tlsListenSock6 }, ledger := t })
    else
      let (listenSock6, t) := makeListenSocket6 calls.listen6 b.ledger
      (.ok, { b with socks := { b.socks with listenSock6 }, ledger := t })
  else if b.socks.tlsListenSock < 0 then (.invalidArg, b)
  else (.ok, b)

/-- The end of `aes70_transport_start`: the loopback pair, which may fail, and the task. -/
def startTask (b : Boot) (calls : StartCalls) : EspErr × Boot :=
  let (_, b) := b.makeWakePipe calls.wake
  let b := { b with running := true }
  if !calls.task then (.noMem, { b with running := false }.closeListeners)
  else (.ok, { b with task := true })

/-- The first two lines of `aes70_transport_start`. -/
def noListeners (b : Boot) : Boot :=
  { b with socks := { b.socks with
    listenSock := -1, listenSock6 := -1, tlsListenSock := -1, tlsListenSock6 := -1 } }

/-- `aes70_transport_start`. -/
def transportStart (b : Boot) (cfg : ListenConfig) (calls : StartCalls) : EspErr × Boot :=
  let (err, b) := b.noListeners.startTls cfg calls
  if err ≠ .ok then (err, b) else
    let (err, b) := b.startPlain cfg calls
    if err ≠ .ok then (err, b) else b.startTask calls

/-- `aes70_transport_stop`, which goes on when the wait for the task is over, whether the task has
ended or not. -/
def transportStop (b : Boot) : Boot :=
  if !b.running && !b.task then b.closeListeners else
    let b := { b with running := false, task := false }.closeListeners
    let (wakeRecvSock, t) := closeSock b.socks.wakeRecvSock b.ledger
    let (wakeSendSock, t) := closeSock b.socks.wakeSendSock t
    { b with socks := { b.socks with wakeRecvSock, wakeSendSock }, ledger := t }

/-- `aes70_device_stop`, up to the release of the memory. -/
def deviceStop (b : Boot) : Boot := b.transportStop

/-- The device `calloc` returns. -/
def zeroed : Boot := ⟨⟨0, 0, 0, 0, 0, 0⟩, false, false, []⟩

/-- The device when `aes70_device_start` has set its fields. -/
def fresh : Boot := { zeroed with socks := { zeroed.socks with
  listenSock := -1, wakeRecvSock := -1, wakeSendSock := -1 } }

/-- `aes70_device_start`. -/
def deviceStart (ident : DeviceConfig) (cfg : ListenConfig) (calls : StartCalls) : EspErr × Boot :=
  if ident.deviceName = none ∨ ident.manufacturer = none ∨ ident.model = none then
    (.invalidArg, zeroed)
  else if !calls.device then (.noMem, zeroed)
  else if !calls.lock || !calls.cmdQ then (.noMem, fresh.deviceStop)
  else if !calls.deviceManager || !calls.subscriptionManager || !calls.rootBlock then
    (.noMem, fresh.deviceStop)
  else
    let (err, b) := fresh.transportStart cfg calls
    if err ≠ .ok then (err, b.deviceStop) else (.ok, b)

end Boot

/-! ### Conditions on the calls -/

/-- The listener comes up. -/
def ListenCalls.Up (calls : ListenCalls) : Prop :=
  0 ≤ calls.socket ∧ calls.bind = true ∧ calls.listen = true

/-- The loopback pair comes up. -/
def WakeCalls.Up (calls : WakeCalls) : Prop :=
  0 ≤ calls.recvSocket ∧ calls.bind = true ∧ 0 ≤ calls.sendSocket ∧ calls.connect = true

/-- The allocations after that of the device succeed. -/
def StartCalls.Setup (calls : StartCalls) : Prop :=
  calls.lock = true ∧ calls.cmdQ = true ∧ calls.deviceManager = true ∧
    calls.subscriptionManager = true ∧ calls.rootBlock = true

instance (calls : StartCalls) : Decidable calls.Setup :=
  inferInstanceAs (Decidable (_ ∧ _ ∧ _ ∧ _ ∧ _))

/-- The TLS listener, if it is asked for, comes up. -/
def ListenConfig.TlsUp (cfg : ListenConfig) (calls : StartCalls) : Prop :=
  cfg.tlsEnable = true → cfg.tlsBuilt = true ∧ cfg.serverCertPem = true ∧
    cfg.serverKeyPem = true ∧ calls.tlsListen.Up

/-- The listeners that the configuration asks for come up, and it asks for one. -/
def ListenConfig.Listens (cfg : ListenConfig) (calls : StartCalls) : Prop :=
  cfg.TlsUp calls ∧ if cfg.disablePlaintext = true then cfg.tlsEnable = true else calls.listen.Up

/-- The identity strings that a start requires are there. -/
def DeviceConfig.Named (ident : DeviceConfig) : Prop :=
  ident.deviceName ≠ none ∧ ident.manufacturer ≠ none ∧ ident.model ≠ none

/-! ### Descriptors of a device -/

/-- The descriptors a field stands for. -/
def opened (s : ℤ) : Multiset ℤ := if 0 ≤ s then {s} else 0

/-- The descriptors the fields stand for. -/
def Sockets.held (s : Sockets) : Multiset ℤ :=
  opened s.listenSock + (opened s.listenSock6 + (opened s.tlsListenSock +
    (opened s.tlsListenSock6 + (opened s.wakeRecvSock + opened s.wakeSendSock))))

/-- The descriptors that are open are those in the fields. -/
def Boot.Owns (b : Boot) : Prop := replay b.ledger 0 = some b.socks.held

@[simp] theorem opened_neg_one : opened (-1) = 0 := rfl

theorem opened_of_neg {s : ℤ} (h : s < 0) : opened s = 0 := if_neg (not_le.2 h)

theorem opened_of_nonneg {s : ℤ} (h : 0 ≤ s) : opened s = {s} := if_pos h

section Calls

variable {t : Descriptors} {k : Multiset ℤ}

theorem makeListenSocket_nonneg (calls : ListenCalls) (t : Descriptors) :
    0 ≤ (makeListenSocket calls t).1 ↔ calls.Up := by
  unfold makeListenSocket ListenCalls.Up
  split_ifs <;> simp_all

/-- The descriptor of a listener is open if it came up, else none is. -/
theorem replay_makeListenSocket (calls : ListenCalls) (h : replay t 0 = some k) :
    replay (makeListenSocket calls t).2 0 = some (opened (makeListenSocket calls t).1 + k) := by
  unfold makeListenSocket
  split_ifs with hneg hbind hlisten
  · exact h.trans (by simp)
  · exact (replay_concat_release (replay_concat_acquire h)).trans (by simp)
  · exact (replay_concat_release (replay_concat_acquire h)).trans (by simp)
  · rw [opened_of_nonneg (not_lt.1 hneg), Multiset.singleton_add]
    exact replay_concat_acquire h

theorem replay_closeSock {s : ℤ} (h : replay t 0 = some (opened s + k)) :
    replay (closeSock s t).2 0 = some k := by
  unfold closeSock
  split_ifs with hs
  · rw [opened_of_nonneg hs, Multiset.singleton_add] at h
    exact replay_concat_release h
  · rwa [opened_of_neg (not_le.1 hs), zero_add] at h

theorem opened_closeSock (s : ℤ) (t : Descriptors) : opened (closeSock s t).1 = 0 := by
  unfold closeSock
  split_ifs with hs
  · rfl
  · exact opened_of_neg (not_le.1 hs)

end Calls

/-! ### Start-up and teardown -/

namespace Boot

variable {b : Boot} {cfg : ListenConfig} {calls : StartCalls}

/-- The listeners are closed, the loopback pair and the other descriptors `k` stay open. -/
theorem replay_closeListeners {k : Multiset ℤ} (h : replay b.ledger 0 = some (b.socks.held + k)) :
    replay b.closeListeners.ledger 0 =
      some (opened b.socks.wakeRecvSock + (opened b.socks.wakeSendSock + k)) := by
  simp only [Sockets.held, add_assoc] at h
  exact replay_closeSock (replay_closeSock (replay_closeSock (replay_closeSock h)))

theorem Owns.replay_add_zero (h : b.Owns) : replay b.ledger 0 = some (b.socks.held + 0) := by
  rw [add_zero]
  exact h

theorem owns_closeListeners (h : b.Owns) : b.closeListeners.Owns := by
  have hreplay := replay_closeListeners h.replay_add_zero
  simpa [Owns, Sockets.held, closeListeners, opened_closeSock] using hreplay

theorem makeWakePipe_socks (b : Boot) (calls : WakeCalls) :
    (calls.Up → (b.makeWakePipe calls).2.socks = { b.socks with
      wakeRecvSock := calls.recvSocket, wakeSendSock := calls.sendSocket }) ∧
    (¬calls.Up → (b.makeWakePipe calls).2.socks = b.socks) := by
  unfold makeWakePipe WakeCalls.Up
  dsimp only
  split_ifs <;> simp_all

theorem owns_makeWakePipe (h : b.Owns) (hrecv : b.socks.wakeRecvSock = -1)
    (hsend : b.socks.wakeSendSock = -1) (calls : WakeCalls) :
    (b.makeWakePipe calls).2.Owns := by
  have hone {s : ℤ} : replay (b.ledger ++ [.acquire s] ++ [.release s]) 0 = some b.socks.held :=
    replay_concat_release (replay_concat_acquire h)
  have hboth := replay_concat_acquire (r := calls.sendSocket)
    (replay_concat_acquire (r := calls.recvSocket) h)
  rw [Multiset.cons_swap] at hboth
  unfold makeWakePipe
  dsimp only
  split_ifs with hneg hbind hneg' hconnect
  · exact h
  · exact hone
  · exact hone
  · exact replay_concat_release (replay_concat_release hboth)
  · refine hboth.trans (congrArg some ?_)
    simp only [Sockets.held, hrecv, hsend, opened_neg_one, opened_of_nonneg (not_lt.1 hneg),
      opened_of_nonneg (not_lt.1 hneg'), ← Multiset.singleton_add]
    abel

/-- No task was started, and the loopback pair is not there. -/
structure Idle (b : Boot) : Prop where
  owns : b.Owns
  running : b.running = false
  task : b.task = false
  wakeRecvSock : b.socks.wakeRecvSock = -1
  wakeSendSock : b.socks.wakeSendSock = -1

theorem idle_startTls (cfg : ListenConfig) (calls : StartCalls) (h : b.Idle)
    (htls : b.socks.tlsListenSock = -1) (htls6 : b.socks.tlsListenSock6 = -1) :
    (b.startTls cfg calls).2.Idle ∧
      (b.startTls cfg calls).2.socks.listenSock = b.socks.listenSock ∧
      (b.startTls cfg calls).2.socks.listenSock6 = b.socks.listenSock6 := by
  have hone := replay_makeListenSocket calls.tlsListen h.owns
  have hboth := replay_makeListenSocket calls.tlsListen6 hone
  unfold startTls
  dsimp only
  split_ifs with henable hbuilt hpem hneg
  · exact ⟨h, rfl, rfl⟩
  · exact ⟨h, rfl, rfl⟩
  · exact ⟨h, rfl, rfl⟩
  · refine ⟨⟨hone.trans (congrArg some ?_), h.running, h.task, h.wakeRecvSock, h.wakeSendSock⟩,
      rfl, rfl⟩
    simp only [Sockets.held, htls, opened_neg_one]
    abel
  · refine ⟨⟨hboth.trans (congrArg some ?_), h.running, h.task, h.wakeRecvSock, h.wakeSendSock⟩,
      rfl, rfl⟩
    simp only [Sockets.held, htls, htls6, opened_neg_one, makeListenSocket6]
    abel

/-- The TLS listeners come up as the configuration asks for, and only then. -/
theorem startTls_ok_iff : (b.startTls cfg calls).1 = .ok ↔ cfg.TlsUp calls := by
  unfold startTls ListenConfig.TlsUp
  rw [← makeListenSocket_nonneg calls.tlsListen b.ledger]
  dsimp only
  split_ifs with henable hbuilt hpem hneg
  · simp_all
  · simp_all
  · rw [Bool.or_eq_true, Bool.not_eq_true', Bool.not_eq_true'] at hpem
    refine iff_of_false (fun h => by cases h) fun hup => ?_
    obtain ⟨-, hcert, hkey, -⟩ := hup (by simpa using henable)
    rw [hcert, hkey] at hpem
    simp at hpem
  · simp_all
  · simp_all

theorem tlsListenSock_startTls (htls : b.socks.tlsListenSock = -1)
    (hok : (b.startTls cfg calls).1 = .ok) :
    0 ≤ (b.startTls cfg calls).2.socks.tlsListenSock ↔ cfg.tlsEnable = true := by
  unfold startTls at hok ⊢
  dsimp only at hok ⊢
  split_ifs at hok ⊢ <;> simp_all

theorem idle_startPlain (cfg : ListenConfig) (calls : StartCalls) (h : b.Idle)
    (hlisten : b.socks.listenSock = -1) (hlisten6 : b.socks.listenSock6 = -1) :
    (b.startPlain cfg calls).2.Idle := by
  have hone := replay_makeListenSocket calls.listen h.owns
  have hboth := replay_makeListenSocket calls.listen6 hone
  unfold startPlain
  dsimp only
  split_ifs with hplain hneg htls
  · -- the plaintext listener did not come up: the TLS listeners are closed again
    have hclosed : replay (closeSock b.socks.tlsListenSock6 (closeSock b.socks.tlsListenSock
        (makeListenSocket calls.listen b.ledger).2).2).2 0 = some 0 := by
      refine replay_closeSock (replay_closeSock (hone.trans (congrArg some ?_)))
      simp [Sockets.held, hlisten, hlisten6, h.wakeRecvSock, h.wakeSendSock, opened_of_neg hneg]
    refine ⟨hclosed.trans (congrArg some ?_), h.running, h.task, h.wakeRecvSock, h.wakeSendSock⟩
    simp [Sockets.held, hlisten6, h.wakeRecvSock, h.wakeSendSock, opened_of_neg hneg,
      opened_closeSock]
  · refine ⟨hboth.trans (congrArg some ?_), h.running, h.task, h.wakeRecvSock, h.wakeSendSock⟩
    simp only [Sockets.held, hlisten, hlisten6, opened_neg_one, makeListenSocket6]
    abel
  · exact h
  · exact h

theorem startPlain_ok_iff : (b.startPlain cfg calls).1 = .ok ↔
    if cfg.disablePlaintext = true then 0 ≤ b.socks.tlsListenSock else calls.listen.Up := by
  rw [← makeListenSocket_nonneg calls.listen b.ledger]
  unfold startPlain
  dsimp only
  split_ifs <;> simp_all

/-- What is open after a device was stopped without a task. -/
theorem replay_deviceStop (h : b.Owns) (hrunning : b.running = false) (htask : b.task = false) :
    replay b.deviceStop.ledger 0 =
      some (opened b.socks.wakeRecvSock + opened b.socks.wakeSendSock) := by
  have hlisteners := replay_closeListeners h.replay_add_zero
  rw [add_zero] at hlisteners
  unfold deviceStop transportStop
  rw [hrunning, htask]
  exact hlisteners

/-- How the start of the transport ends when the listeners came up: the loopback pair may be there
or not, and the task runs if it could be created. -/
structure Listening (calls : StartCalls) (r : EspErr × Boot) : Prop where
  owns : r.2.Owns
  up : calls.wake.Up → r.2.socks.wakeRecvSock = calls.wake.recvSocket ∧
    r.2.socks.wakeSendSock = calls.wake.sendSocket
  down : ¬calls.wake.Up → r.2.socks.wakeRecvSock = -1 ∧ r.2.socks.wakeSendSock = -1
  ok_iff : r.1 = .ok ↔ calls.task = true
  running : r.2.running = calls.task
  task : r.2.task = calls.task

theorem idle_noListeners (hledger : b.ledger = []) (hrunning : b.running = false)
    (htask : b.task = false) (hrecv : b.socks.wakeRecvSock = -1)
    (hsend : b.socks.wakeSendSock = -1) : b.noListeners.Idle := by
  refine ⟨?_, hrunning, htask, hrecv, hsend⟩
  change replay b.ledger 0 = some (Sockets.held _)
  rw [hledger]
  simp [Sockets.held, noListeners, hrecv, hsend]

theorem listening_startTask (h : b.Idle) : Listening calls (b.startTask calls) := by
  obtain ⟨hup, hdown⟩ := makeWakePipe_socks b calls.wake
  have howns := owns_makeWakePipe h.owns h.wakeRecvSock h.wakeSendSock calls.wake
  have hwake : (b.startTask calls).2.socks.wakeRecvSock =
      (b.makeWakePipe calls.wake).2.socks.wakeRecvSock ∧ (b.startTask calls).2.socks.wakeSendSock =
        (b.makeWakePipe calls.wake).2.socks.wakeSendSock := by
    unfold startTask
    dsimp only
    split_ifs <;> exact ⟨rfl, rfl⟩
  have htask : (b.makeWakePipe calls.wake).2.task = false := by
    refine Eq.trans ?_ h.task
    unfold makeWakePipe
    dsimp only
    split_ifs <;> rfl
  refine ⟨?_, fun hwakeUp => ?_, fun hwakeDown => ?_, ?_, ?_, ?_⟩
  · unfold startTask
    dsimp only
    split_ifs
    · exact owns_closeListeners howns
    · exact howns
  · rw [hwake.1, hwake.2, hup hwakeUp]
    exact ⟨rfl, rfl⟩
  · rw [hwake.1, hwake.2, hdown hwakeDown]
    exact ⟨h.wakeRecvSock, h.wakeSendSock⟩
  all_goals
    unfold startTask
    dsimp only
    split_ifs <;> simp_all [closeListeners]

/-- **How the start of the transport ends.** -/
theorem transportStart_cases (cfg : ListenConfig) (calls : StartCalls) (h : b.noListeners.Idle) :
    (¬cfg.Listens calls ∧ (b.transportStart cfg calls).1 ≠ .ok ∧
      (b.transportStart cfg calls).2.Idle) ∨
    (cfg.Listens calls ∧ Listening calls (b.transportStart cfg calls)) := by
  obtain ⟨hidle, hlisten, hlisten6⟩ := idle_startTls cfg calls h rfl rfl
  have hidle' := idle_startPlain cfg calls hidle hlisten hlisten6
  unfold transportStart
  dsimp only
  by_cases htls : (b.noListeners.startTls cfg calls).1 = .ok
  · rw [if_neg (not_not.2 htls)]
    have hlistens : ((b.noListeners.startTls cfg calls).2.startPlain cfg calls).1 = .ok ↔
        cfg.Listens calls := by
      rw [startPlain_ok_iff, tlsListenSock_startTls rfl htls, ListenConfig.Listens,
        and_iff_right (startTls_ok_iff.1 htls)]
    by_cases hplain : ((b.noListeners.startTls cfg calls).2.startPlain cfg calls).1 = .ok
    · rw [if_neg (not_not.2 hplain)]
      exact .inr ⟨hlistens.1 hplain, listening_startTask hidle'⟩
    · rw [if_pos hplain]
      exact .inl ⟨fun hl => hplain (hlistens.2 hl), hplain, hidle'⟩
  · rw [if_pos htls]
    exact .inl ⟨fun hl => htls (startTls_ok_iff.2 hl.1), htls, hidle⟩

/-! ### A start that fails -/

/-- A start that fails has closed what it opened, once, and nothing else. -/
def ReleasesAll (r : EspErr × Boot) : Prop := r.1 ≠ .ok → Balanced r.2.ledger

/-- The fields that are not set stand for descriptor 0, which teardown then closes. -/
theorem not_balanced_deviceStop_fresh : ¬Balanced fresh.deviceStop.ledger := by decide

/-- A start without a device to clean up. -/
theorem releasesAll_zeroed (err : EspErr) : ReleasesAll (err, zeroed) := fun _ =>
  balanced_iff.2 rfl

/-- A device that is stopped before it had a task leaves its loopback pair open. -/
theorem balanced_deviceStop_iff (h : b.Owns) (hrunning : b.running = false)
    (htask : b.task = false) : Balanced b.deviceStop.ledger ↔
      opened b.socks.wakeRecvSock + opened b.socks.wakeSendSock = 0 := by
  rw [balanced_iff, replay_deviceStop h hrunning htask, Option.some.injEq]

/-- The start of the transport, and the teardown if it fails. -/
theorem releasesAll_transportStart (cfg : ListenConfig) (calls : StartCalls)
    (h : b.noListeners.Idle) : (¬(b.transportStart cfg calls).1 = .ok →
      Balanced (b.transportStart cfg calls).2.deviceStop.ledger) ↔
      (cfg.Listens calls → calls.wake.Up → calls.task = true) := by
  obtain ⟨hlistens, herr, hidle⟩ | ⟨hlistens, hstart⟩ :=
    transportStart_cases cfg calls h
  · refine iff_of_true (fun _ => ?_) fun hl => absurd hl hlistens
    rw [balanced_deviceStop_iff hidle.owns hidle.running hidle.task, hidle.wakeRecvSock,
      hidle.wakeSendSock]
    rfl
  · rw [hstart.ok_iff]
    by_cases htask : calls.task = true
    · exact iff_of_true (fun hno => absurd htask hno) fun _ _ => htask
    · have hnone : calls.task = false := Bool.not_eq_true _ ▸ htask
      rw [balanced_deviceStop_iff hstart.owns (hstart.running.trans hnone)
        (hstart.task.trans hnone)]
      by_cases hwake : calls.wake.Up
      · -- both ends are still open
        refine iff_of_false (fun hopen => ?_) fun hup => htask (hup hlistens hwake)
        have hzero := hopen htask
        rw [(hstart.up hwake).1, (hstart.up hwake).2, opened_of_nonneg hwake.1] at hzero
        simp at hzero
      · refine iff_of_true (fun _ => ?_) fun _ hup => absurd hup hwake
        rw [(hstart.down hwake).1, (hstart.down hwake).2]
        rfl

/-- A start that stops before the device was allocated. -/
theorem deviceStart_zeroed (cfg : ListenConfig) (calls : StartCalls) {ident : DeviceConfig}
    (h : ¬(ident.Named ∧ calls.device = true)) :
    ∃ err, err ≠ .ok ∧ deviceStart ident cfg calls = (err, zeroed) := by
  unfold deviceStart
  split_ifs with hident hdevice hlock hobjects
  · exact ⟨.invalidArg, by decide, rfl⟩
  · exact ⟨.noMem, by decide, rfl⟩
  all_goals
    obtain ⟨hname, hmaker⟩ := not_or.1 hident
    exact absurd ⟨⟨hname, not_or.1 hmaker⟩, by simpa using hdevice⟩ h

/-- The rest of a start whose device could be allocated. -/
theorem deviceStart_eq {ident : DeviceConfig} (hnamed : ident.Named)
    (hdevice : calls.device = true) : deviceStart ident cfg calls = if calls.Setup then
      if (fresh.transportStart cfg calls).1 ≠ .ok then
        ((fresh.transportStart cfg calls).1, (fresh.transportStart cfg calls).2.deviceStop)
      else (.ok, (fresh.transportStart cfg calls).2)
    else (.noMem, fresh.deviceStop) := by
  have hident : ¬(ident.deviceName = none ∨ ident.manufacturer = none ∨ ident.model = none) :=
    not_or.2 ⟨hnamed.1, not_or.2 hnamed.2⟩
  unfold deviceStart
  rw [if_neg hident, hdevice]
  by_cases hsetup : calls.Setup
  · rw [if_pos hsetup]
    obtain ⟨hlock, hcmdQ, hdm, hsm, hrb⟩ := hsetup
    rw [hlock, hcmdQ, hdm, hsm, hrb]
    rfl
  · rw [if_neg hsetup]
    unfold StartCalls.Setup at hsetup
    split_ifs with hdev hlock hobjects
    · cases hdev
    · rfl
    · rfl
    · simp_all

/-- **A start that fails closes what it opened**, and nothing else, exactly if it does not fail for
want of memory between the allocation of the device and the start of the transport, and not at the
creation of the task after the loopback pair was made. -/
theorem releasesAll_iff (ident : DeviceConfig) (cfg : ListenConfig) (calls : StartCalls) :
    ReleasesAll (deviceStart ident cfg calls) ↔
      (ident.Named → calls.device = true →
        calls.Setup ∧ (cfg.Listens calls → calls.wake.Up → calls.task = true)) := by
  by_cases halloc : ident.Named ∧ calls.device = true
  · obtain ⟨hnamed, hdevice⟩ := halloc
    -- the sentinels are set when the transport starts, not before
    rw [deviceStart_eq hnamed hdevice]
    simp only [hnamed, hdevice, forall_const]
    by_cases hsetup : calls.Setup
    · have hstart := releasesAll_transportStart cfg calls
        (idle_noListeners (b := fresh) rfl rfl rfl rfl rfl)
      rw [if_pos hsetup, and_iff_right hsetup, ← hstart]
      split_ifs with herr
      · rfl
      · exact iff_of_true (fun hne => absurd rfl hne) fun hne => absurd hne herr
    · rw [if_neg hsetup]
      refine iff_of_false (fun hall => ?_) fun h => hsetup h.1
      exact not_balanced_deviceStop_fresh (hall fun hok => by cases hok)
  · obtain ⟨err, -, hstart⟩ := deviceStart_zeroed cfg calls halloc
    rw [hstart]
    exact iff_of_true (releasesAll_zeroed err) fun hnamed hdevice => absurd ⟨hnamed, hdevice⟩ halloc

/-! ### A device that was started -/

/-- A device that was started owns its descriptors. -/
theorem owns_deviceStart {ident : DeviceConfig} (hok : (deviceStart ident cfg calls).1 = .ok) :
    (deviceStart ident cfg calls).2.Owns ∧ (deviceStart ident cfg calls).2.running = true := by
  by_cases halloc : ident.Named ∧ calls.device = true
  · rw [deviceStart_eq halloc.1 halloc.2] at hok ⊢
    split_ifs at hok ⊢ with hsetup herr
    · exact absurd hok herr
    · obtain ⟨-, hne, -⟩ | ⟨-, hstart⟩ := transportStart_cases cfg calls
        (idle_noListeners (b := fresh) rfl rfl rfl rfl rfl)
      · exact absurd hne herr
      · exact ⟨hstart.owns, hstart.running.trans (hstart.ok_iff.1 (not_not.1 herr))⟩
  · obtain ⟨err, herr, hstart⟩ := deviceStart_zeroed cfg calls halloc
    rw [hstart] at hok
    exact absurd hok herr

/-- Teardown of a device that runs closes the descriptors in its fields and leaves the others
open. -/
theorem replay_deviceStop_of_running {k : Multiset ℤ}
    (h : replay b.ledger 0 = some (b.socks.held + k)) (hrunning : b.running = true) :
    replay b.deviceStop.ledger 0 = some k := by
  unfold deviceStop transportStop
  rw [hrunning]
  exact replay_closeSock (replay_closeSock
    (replay_closeListeners (b := { b with running := false, task := false }) h))

/-- Its fields stand for nothing. -/
theorem held_deviceStop_of_running (hrunning : b.running = true) : b.deviceStop.socks.held = 0 := by
  unfold deviceStop transportStop
  rw [hrunning]
  simp [Sockets.held, closeListeners, opened_closeSock]

/-- **A device that was started and is stopped** has closed what it opened. -/
theorem balanced_deviceStop {ident : DeviceConfig} (hok : (deviceStart ident cfg calls).1 = .ok) :
    Balanced (deviceStart ident cfg calls).2.deviceStop.ledger := by
  obtain ⟨howns, hrunning⟩ := owns_deviceStart hok
  exact balanced_iff.2 (replay_deviceStop_of_running howns.replay_add_zero hrunning)

end Boot

/-! ### A start without memory -/

namespace Sample

/-- Plaintext only. -/
def plaintext : ListenConfig := ⟨false, false, false, false, false⟩

/-- Everything succeeds. -/
def goodCalls : StartCalls where
  device := true
  lock := true
  cmdQ := true
  deviceManager := true
  subscriptionManager := true
  rootBlock := true
  tlsListen := ⟨-1, false, false⟩
  tlsListen6 := ⟨-1, false, false⟩
  listen := ⟨3, true, true⟩
  listen6 := ⟨4, true, true⟩
  wake := ⟨5, true, 6, true⟩
  task := true

/-- Without the mutex, descriptor 0 is closed three times; without the task, the loopback pair stays
open. -/
theorem not_releasesAll_noMem :
    (Boot.deviceStart config plaintext { goodCalls with lock := false }).2.ledger =
      [.release 0, .release 0, .release 0] ∧
    ¬Boot.ReleasesAll (Boot.deviceStart config plaintext { goodCalls with lock := false }) ∧
    ¬Boot.ReleasesAll (Boot.deviceStart config plaintext { goodCalls with task := false }) := by
  refine ⟨by decide, fun hall => ?_, fun hall => ?_⟩
  · have hbalanced := hall (by decide)
    revert hbalanced
    decide
  · have hbalanced := hall (by decide)
    revert hbalanced
    decide

end Sample

end Aes70
