import Aes70.Transport.Startup
import Aes70.Words.Slug

/-!
# Advertising

`aes70_mdns.c`: the host name that is made of the name of a device, and the services published while
it runs. Every call of the mDNS library may fail, and so may the start of the device.

* `sanitizeHostname` : the loop over the name.
* `hostLabel` : its words in lower case, joined by hyphens, as many bytes as a label may have.
* `sanitizeHostname_spec` : the loop makes this label, which is a label indeed and made of itself.
* `Mdns` : what the module remembers, and the ledger of services.
* `advertising` : devices that are started and stopped, one at a time.
* `published_of_reach` : what is published is what is remembered, and what could not be removed.
-/

namespace Aes70

open Resource Words

/-! ### Host names -/

/-- `isalnum`. -/
def isAlnum (c : UInt8) : Bool :=
  (0x30 ≤ c && c ≤ 0x39) || (0x41 ≤ c && c ≤ 0x5A) || (0x61 ≤ c && c ≤ 0x7A)

/-- `tolower`. -/
def toLower (c : UInt8) : UInt8 := if 0x41 ≤ c && c ≤ 0x5A then c + 0x20 else c

/-- A hyphen. -/
def hyphen : UInt8 := 0x2D

/-- A space, a hyphen or an underscore. -/
def isSeparator (c : UInt8) : Bool := c == 0x20 || c == hyphen || c == 0x5F

/-- `j > 0 && out[j - 1] != '-'`. -/
def inWord (out : Bytes) : Bool := decide (0 < out.length) && out.getLast? != some hyphen

/-- The first loop of `sanitize_hostname`, which has written `out`. -/
def sanitizeLoop (outsz : ℕ) : Bytes → Bytes → Bytes
  | [], out => out
  | c :: cs, out =>
    if out.length + 1 < outsz ∧ out.length < 32 then
      if isAlnum c then sanitizeLoop outsz cs (out ++ [toLower c])
      else if isSeparator c && inWord out then sanitizeLoop outsz cs (out ++ [hyphen])
      else sanitizeLoop outsz cs out
    else out

/-- `sanitize_hostname`. -/
def sanitizeHostname (name : Bytes) (outsz : ℕ) : Bytes :=
  let out := (sanitizeLoop outsz (cstr name) []).rdropWhile (· = hyphen)
  if out = [] then (ascii "aes70-device").take (outsz - 1) else out

/-- The words of the name in lower case, joined by hyphens and cut. -/
def hostLabel (name : Bytes) : Bytes :=
  let label := ((join toLower hyphen (words isAlnum isSeparator (cstr name))).take 32).rdropWhile
    (· = hyphen)
  if label = [] then ascii "aes70-device" else label

/-- A lower-case letter or a digit. -/
def isLabelChar (c : UInt8) : Bool := (0x30 ≤ c && c ≤ 0x39) || (0x61 ≤ c && c ≤ 0x7A)

/-- Words of lower-case letters and digits, joined by single hyphens; not empty, and no longer than
the buffer. -/
structure IsHostLabel (l : Bytes) : Prop where
  ne_nil : l ≠ []
  length_le : l.length ≤ 32
  tidy : Tidy (fun c => isLabelChar c = true) hyphen l

section Host

variable {c : UInt8} {cs out l : Bytes}

theorem forall_byte {P : UInt8 → Prop} (h : ∀ n < 256, P (UInt8.ofNat n)) (c : UInt8) : P c := by
  have hc := h c.toNat c.toNat_lt
  rwa [UInt8.ofNat_toNat] at hc

theorem isLabelChar_toLower (c : UInt8) : isAlnum c = true → isLabelChar (toLower c) = true := by
  revert c
  exact forall_byte (by decide +kernel)

theorem toLower_ne_hyphen (c : UInt8) : isAlnum c = true → toLower c ≠ hyphen := by
  revert c
  exact forall_byte (by decide +kernel)

theorem toLower_labelChar (c : UInt8) :
    isLabelChar c = true → isAlnum c = true ∧ toLower c = c := by
  revert c
  exact forall_byte (by decide +kernel)

theorem labelChar_ne_zero (c : UInt8) : isLabelChar c = true ∨ c = hyphen → c ≠ 0 := by
  revert c
  exact forall_byte (by decide +kernel)

theorem inWord_concat (out : Bytes) (c : UInt8) : inWord (out ++ [c]) = (c != hyphen) := by
  have hpos : decide (0 < (out ++ [c]).length) = true := by simp
  rw [inWord, hpos, List.getLast?_concat, Bool.true_and]
  rfl

/-- **The loop** is the pass over the name, up to the end of the buffer. -/
theorem sanitizeLoop_eq (cs : Bytes) (h : out.length ≤ 32) : sanitizeLoop 33 cs out =
    (out ++ slug isAlnum isSeparator toLower hyphen (inWord out) cs).take 32 := by
  induction cs generalizing out with
  | nil =>
    rw [slug, List.append_nil, List.take_of_length_le h]
    rfl
  | cons c cs ih =>
    unfold sanitizeLoop
    by_cases hroom : out.length < 32
    · rw [if_pos (by omega)]
      have hlong (c : UInt8) : (out ++ [c]).length ≤ 32 := by
        rw [List.length_append, List.length_singleton]
        omega
      unfold slug
      split_ifs with halnum hsep
      · have hin : inWord (out ++ [toLower c]) = true := by
          rw [inWord_concat, bne_iff_ne]
          exact toLower_ne_hyphen c halnum
        rw [ih (hlong _), hin, List.append_assoc, List.singleton_append]
      · have hin : inWord (out ++ [hyphen]) = false := by
          rw [inWord_concat]
          rfl
        rw [ih (hlong _), hin, List.append_assoc, List.singleton_append]
      · exact ih h
    · rw [if_neg (by omega), List.take_left' (by omega)]

theorem sanitizeLoop_name (name : Bytes) : sanitizeLoop 33 (cstr name) [] =
    (slug isAlnum isSeparator toLower hyphen false (cstr name)).take 32 :=
  sanitizeLoop_eq (cstr name) (Nat.zero_le 32)

/-- A hyphen behind the words makes no difference. -/
theorem rdropWhile_take (l : Bytes) :
    ((l ++ [hyphen]).take 32).rdropWhile (· = hyphen) = (l.take 32).rdropWhile (· = hyphen) := by
  by_cases hlen : 32 ≤ l.length
  · rw [List.take_append_of_le_length hlen]
  · have hall : (l ++ [hyphen]).length ≤ 32 := by
      rw [List.length_append, List.length_singleton]
      omega
    rw [List.take_of_length_le hall, List.take_of_length_le (by omega),
      List.rdropWhile_concat_pos _ _ _ (by simp)]

theorem sanitizeHostname_eq (name : Bytes) : sanitizeHostname name 33 = hostLabel name := by
  have hlabel : (sanitizeLoop 33 (cstr name) []).rdropWhile (· = hyphen) =
      ((join toLower hyphen (words isAlnum isSeparator (cstr name))).take 32).rdropWhile
        (· = hyphen) := by
    obtain ⟨t, ht, rfl | rfl⟩ := slug_eq_join isAlnum isSeparator toLower hyphen (cstr name)
    · rw [sanitizeLoop_name, ht, List.append_nil]
    · rw [sanitizeLoop_name, ht, rdropWhile_take]
  unfold sanitizeHostname hostLabel
  dsimp only
  rw [hlabel]
  rfl

theorem isHostLabel_default : IsHostLabel (ascii "aes70-device") where
  ne_nil := by decide
  length_le := by decide
  tidy := ⟨by decide +kernel, by decide +kernel, by decide, by decide⟩

theorem isHostLabel_sanitize (name : Bytes) : IsHostLabel (sanitizeHostname name 33) := by
  unfold sanitizeHostname
  dsimp only
  split_ifs with hnone
  · exact isHostLabel_default
  · rw [sanitizeLoop_name] at hnone ⊢
    refine ⟨hnone, ?_, tidy_slug isLabelChar_toLower toLower_ne_hyphen 32⟩
    exact (List.rdropWhile_prefix _ _).length_le.trans (List.length_take_le _ _)

/-- A label is its own host name. -/
theorem sanitizeHostname_of_label (h : IsHostLabel l) : sanitizeHostname l 33 = l := by
  have hstr : cstr l = l := by
    refine List.takeWhile_eq_self_iff.2 fun c hc => ?_
    simpa using labelChar_ne_zero c (h.tidy.letters c hc)
  have hslug : slug isAlnum isSeparator toLower hyphen false l = l :=
    slug_of_tidy toLower_labelChar (by decide) (by decide) h.tidy.letters h.tidy.single
      fun _ => h.tidy.head
  have hkept : l.rdropWhile (· = hyphen) = l := by
    refine List.rdropWhile_eq_self_iff.2 fun hl hlast => h.tidy.last ?_
    rw [List.getLast?_eq_some_getLast hl]
    simpa using hlast
  unfold sanitizeHostname
  dsimp only
  rw [sanitizeLoop_name, hstr, hslug, List.take_of_length_le h.length_le, hkept, if_neg h.ne_nil]

/-- **The host name** that is made of the name of a device consists of its words in lower case: what
is left of the name without the bytes that are neither letters nor digits nor separators is cut at
the separators. It is a label, and a name that is a label already is kept. -/
theorem sanitizeHostname_spec (name : Bytes) :
    sanitizeHostname name 33 = hostLabel name ∧ IsHostLabel (sanitizeHostname name 33) ∧
      (IsHostLabel name → sanitizeHostname name 33 = name) :=
  ⟨sanitizeHostname_eq name, isHostLabel_sanitize name, sanitizeHostname_of_label⟩

example : sanitizeHostname (ascii "Stage Box #2 _ left") 33 = ascii "stage-box-2-left" := by
  decide +kernel

-- the full stop does not separate words
example : sanitizeHostname (ascii "Mixer 2.0") 33 = ascii "mixer-20" := by decide +kernel

end Host

/-! ### Services -/

/-- The services of a device: `_oca._tcp` and `_ocasec._tcp`. -/
inductive Service
  | oca | ocasec
deriving DecidableEq

/-- The outcomes of the calls of `ensure_mdns` and `add_service`. -/
structure MdnsCalls where
  /-- `mdns_init`. -/
  init : Bool
  /-- `mdns_service_add`. -/
  add : Bool

/-- Whether `mdns_service_remove` succeeds. -/
structure RemoveCalls where
  oca : Bool
  ocasec : Bool

/-- What `aes70_mdns.c` remembers, and the books kept of the services. -/
structure Mdns where
  serviceAdded : Bool
  secureAdded : Bool
  /-- The host name that was set last. -/
  host : Option Bytes
  /-- The services published and removed. -/
  ledger : List (Act Service)
  /-- The services that `mdns_service_remove` failed to remove. -/
  stuck : Multiset Service

namespace Mdns

/-- The host name of `ensure_mdns`: the one that is configured, if it is not empty. -/
def hostOf (hostname : Option Bytes) (deviceName : Bytes) : Bytes :=
  match hostname with
  | some name => if cstr name = [] then sanitizeHostname deviceName 33 else strlcpy 33 (cstr name)
  | none => sanitizeHostname deviceName 33

/-- `ensure_mdns` and `add_service`; the answer says whether the service was added. -/
def addService (m : Mdns) (service : Service) (host : Bytes) (calls : MdnsCalls) : Bool × Mdns :=
  if !calls.init then (false, m) else
    let m := { m with host := some host }
    if !calls.add then (false, m)
    else (true, { m with ledger := m.ledger ++ [.acquire service] })

/-- `aes70_mdns_start`. -/
def start (m : Mdns) (host : Bytes) (calls : MdnsCalls) : Mdns :=
  let (added, m) := m.addService .oca host calls
  if added then { m with serviceAdded := true } else m

/-- `aes70_mdns_add_secure`. -/
def addSecure (m : Mdns) (host : Bytes) (calls : MdnsCalls) : Mdns :=
  let (added, m) := m.addService .ocasec host calls
  if added then { m with secureAdded := true } else m

/-- A call of `mdns_service_remove`. -/
def removeService (m : Mdns) (service : Service) (removed : Bool) : Mdns :=
  if removed then { m with ledger := m.ledger ++ [.release service] }
  else { m with stuck := service ::ₘ m.stuck }

/-- `aes70_mdns_stop`, which does not look at what `mdns_service_remove` returns. -/
def stop (m : Mdns) (calls : RemoveCalls) : Mdns :=
  let m := if m.serviceAdded then
    { m.removeService .oca calls.oca with serviceAdded := false } else m
  if m.secureAdded then
    { m.removeService .ocasec calls.ocasec with secureAdded := false } else m

/-- The services that the module remembers. -/
def published (m : Mdns) : Multiset Service :=
  (if m.serviceAdded then {.oca} else 0) + if m.secureAdded then {.ocasec} else 0

/-- The services that are published are those it remembers and those that could not be removed. -/
def Owns (m : Mdns) : Prop := replay m.ledger 0 = some (m.published + m.stuck)

end Mdns

/-! ### Devices -/

/-- What the mDNS part of a configuration says. -/
structure MdnsConfig where
  enableMdns : Bool
  mdnsHostname : Option Bytes

/-- The module, and the configuration of the device that runs. -/
structure Advertising where
  mdns : Mdns
  device : Option MdnsConfig

/-- A device is started, or the one that runs is stopped. -/
inductive AdvertisingStep
  | start (ident : DeviceConfig) (listen : ListenConfig) (cfg : MdnsConfig) (calls : StartCalls)
    (plain secure : MdnsCalls) (removes : RemoveCalls)
  | stop (removes : RemoveCalls)

instance (ident : DeviceConfig) : Decidable ident.Named :=
  inferInstanceAs (Decidable (_ ∧ _ ∧ _))

namespace Advertising

/-- The end of `aes70_device_start`, with the name that the device has by then. -/
def announce (m : Mdns) (name : Bytes) (listen : ListenConfig) (cfg : MdnsConfig)
    (plain secure : MdnsCalls) : Mdns :=
  if !cfg.enableMdns then m else
    let host := Mdns.hostOf cfg.mdnsHostname name
    let m := if !listen.disablePlaintext then m.start host plain else m
    if listen.tlsBuilt && listen.tlsEnable then m.addSecure host secure else m

/-- `aes70_device_stop`. -/
def withdraw (m : Mdns) (cfg : MdnsConfig) (removes : RemoveCalls) : Mdns :=
  if cfg.enableMdns then m.stop removes else m

/-- The effect of a step. A start that fails once there is a device stops it. -/
def step (s : Advertising) : AdvertisingStep → Advertising
  | .start ident listen cfg calls plain secure removes =>
    if (Boot.deviceStart ident listen calls).1 = .ok then
      ⟨announce s.mdns (strlcpy 64 (ident.deviceName.getD [])) listen cfg plain secure, some cfg⟩
    else if ident.Named ∧ calls.device = true then ⟨withdraw s.mdns cfg removes, s.device⟩
    else s
  | .stop removes =>
    match s.device with
    | some cfg => ⟨withdraw s.mdns cfg removes, none⟩
    | none => s

end Advertising

/-- Devices that are started and stopped, one after the other. -/
def advertising : Machine Advertising AdvertisingStep where
  init s := s = ⟨⟨false, false, none, [], 0⟩, none⟩
  ok s m := match m with
    | .start .. => s.device = none
    | .stop _ => True
  step s m := s.step m

/-- What is published is remembered or could not be removed; and nothing is remembered, unless a
device runs that asks for it. -/
structure Advertising.Right (s : Advertising) : Prop where
  owns : s.mdns.Owns
  quiet : (∀ cfg ∈ s.device, cfg.enableMdns = false) → s.mdns.published = 0

section Services

variable {m : Mdns} {s : Advertising}

theorem published_eq_zero :
    m.published = 0 ↔ m.serviceAdded = false ∧ m.secureAdded = false := by
  unfold Mdns.published
  cases m.serviceAdded <;> cases m.secureAdded <;> decide

/-- A service is added, or the module is as it was, up to the host name. -/
theorem addService_cases (m : Mdns) (service : Service) (host : Bytes) (calls : MdnsCalls) :
    ∃ set, m.addService service host calls = (false, { m with host := set }) ∨
      m.addService service host calls =
        (true, { m with host := set, ledger := m.ledger ++ [.acquire service] }) := by
  unfold Mdns.addService
  cases calls.init with
  | false => exact ⟨m.host, .inl rfl⟩
  | true =>
    refine ⟨some host, ?_⟩
    cases calls.add with
    | false => exact .inl rfl
    | true => exact .inr rfl

theorem owns_start (h : m.Owns) (hnone : m.serviceAdded = false) (host : Bytes)
    (calls : MdnsCalls) : (m.start host calls).Owns ∧
      (m.start host calls).secureAdded = m.secureAdded := by
  obtain ⟨serviceAdded, secureAdded, before, ledger, stuck⟩ := m
  obtain rfl : serviceAdded = false := hnone
  obtain ⟨set, hadd | hadd⟩ :=
    addService_cases ⟨false, secureAdded, before, ledger, stuck⟩ .oca host calls
  · rw [Mdns.start, hadd]
    exact ⟨h, rfl⟩
  · rw [Mdns.start, hadd]
    refine ⟨(replay_concat_acquire h).trans (congrArg some ?_), rfl⟩
    cases secureAdded <;> simp [Mdns.published, ← Multiset.singleton_add, add_assoc]

theorem owns_addSecure (h : m.Owns) (hnone : m.secureAdded = false) (host : Bytes)
    (calls : MdnsCalls) : (m.addSecure host calls).Owns := by
  obtain ⟨serviceAdded, secureAdded, before, ledger, stuck⟩ := m
  obtain rfl : secureAdded = false := hnone
  obtain ⟨set, hadd | hadd⟩ :=
    addService_cases ⟨serviceAdded, false, before, ledger, stuck⟩ .ocasec host calls
  · rw [Mdns.addSecure, hadd]
    exact h
  · rw [Mdns.addSecure, hadd]
    refine (replay_concat_acquire h).trans (congrArg some ?_)
    cases serviceAdded <;>
      simp [Mdns.published, ← Multiset.singleton_add, add_assoc, add_left_comm]

theorem serviceAdded_removeService (service : Service) (removed : Bool) :
    (m.removeService service removed).serviceAdded = m.serviceAdded := by
  unfold Mdns.removeService
  split_ifs <;> rfl

theorem secureAdded_removeService (service : Service) (removed : Bool) :
    (m.removeService service removed).secureAdded = m.secureAdded := by
  unfold Mdns.removeService
  split_ifs <;> rfl

/-- A service that is remembered no longer is removed, or stuck. -/
theorem replay_removeService {service : Service} {k : Multiset Service}
    (h : replay m.ledger 0 = some (service ::ₘ (k + m.stuck))) (removed : Bool) :
    replay (m.removeService service removed).ledger 0 =
      some (k + (m.removeService service removed).stuck) := by
  unfold Mdns.removeService
  split_ifs
  · exact replay_concat_release h
  · rw [Multiset.add_cons]
    exact h

theorem owns_removeService (h : m.Owns) (hadded : m.serviceAdded = true) (removed : Bool) :
    ({ m.removeService .oca removed with serviceAdded := false } : Mdns).Owns := by
  unfold Mdns.Owns Mdns.published at h ⊢
  rw [hadded, if_pos rfl, add_assoc, Multiset.singleton_add] at h
  rw [secureAdded_removeService, if_neg Bool.false_ne_true, zero_add]
  exact replay_removeService h removed

theorem owns_removeSecure (h : m.Owns) (hadded : m.secureAdded = true) (removed : Bool) :
    ({ m.removeService .ocasec removed with secureAdded := false } : Mdns).Owns := by
  unfold Mdns.Owns Mdns.published at h ⊢
  rw [hadded, if_pos rfl, add_right_comm, Multiset.add_comm _ {Service.ocasec},
    Multiset.singleton_add] at h
  rw [serviceAdded_removeService, if_neg Bool.false_ne_true, add_zero]
  exact replay_removeService h removed

/-- What was published is removed, or stuck. -/
theorem owns_stop (h : m.Owns) (calls : RemoveCalls) :
    (m.stop calls).Owns ∧ (m.stop calls).published = 0 := by
  unfold Mdns.stop
  dsimp only
  split_ifs with hservice hsecure hsecure
  · have hfirst := owns_removeService h hservice calls.oca
    refine ⟨owns_removeSecure hfirst hsecure calls.ocasec, published_eq_zero.2 ⟨?_, rfl⟩⟩
    exact serviceAdded_removeService .ocasec calls.ocasec
  · exact ⟨owns_removeService h hservice calls.oca,
      published_eq_zero.2 ⟨rfl, Bool.eq_false_of_not_eq_true hsecure⟩⟩
  · refine ⟨owns_removeSecure h hsecure calls.ocasec, published_eq_zero.2 ⟨?_, rfl⟩⟩
    rw [serviceAdded_removeService]
    exact Bool.eq_false_of_not_eq_true hservice
  · exact ⟨h, published_eq_zero.2
      ⟨Bool.eq_false_of_not_eq_true hservice, Bool.eq_false_of_not_eq_true hsecure⟩⟩

theorem owns_announce (h : m.Owns) (hnone : m.published = 0) (name : Bytes)
    (listen : ListenConfig) (cfg : MdnsConfig) (plain secure : MdnsCalls) :
    (Advertising.announce m name listen cfg plain secure).Owns := by
  obtain ⟨hservice, hsecure⟩ := published_eq_zero.1 hnone
  unfold Advertising.announce
  split_ifs with henable hplain htls htls
  · exact h
  · obtain ⟨howns, hsame⟩ := owns_start h hservice (Mdns.hostOf cfg.mdnsHostname name) plain
    exact owns_addSecure howns (hsame.trans hsecure) _ _
  · exact (owns_start h hservice (Mdns.hostOf cfg.mdnsHostname name) plain).1
  · exact owns_addSecure h hsecure _ _
  · exact h

theorem owns_withdraw (h : m.Owns) (cfg : MdnsConfig) (removes : RemoveCalls) :
    (Advertising.withdraw m cfg removes).Owns ∧ (cfg.enableMdns = true ∨ m.published = 0 →
      (Advertising.withdraw m cfg removes).published = 0) := by
  unfold Advertising.withdraw
  split_ifs with henable
  · obtain ⟨howns, hzero⟩ := owns_stop h removes
    exact ⟨howns, fun _ => hzero⟩
  · exact ⟨h, fun hnone => hnone.resolve_left henable⟩

theorem right_advertising (h : advertising.Reach s) : s.Right := by
  refine h.invariant (fun s hs => ?_) fun s m _ hI hok => ?_
  · obtain rfl := hs
    exact ⟨rfl, fun _ => rfl⟩
  cases m with
  | start ident listen cfg calls plain secure removes =>
    have hidle : s.device = none := hok
    have hnone : s.mdns.published = 0 := hI.quiet (by simp [hidle])
    change (s.step (.start ident listen cfg calls plain secure removes)).Right
    unfold Advertising.step
    dsimp only
    split_ifs
    · refine ⟨owns_announce hI.owns hnone _ _ _ _ _, fun hquiet => ?_⟩
      have henable : cfg.enableMdns = false := hquiet cfg rfl
      unfold Advertising.announce
      rw [henable]
      exact hnone
    · obtain ⟨howns, hzero⟩ := owns_withdraw hI.owns cfg removes
      exact ⟨howns, fun _ => hzero (.inr hnone)⟩
    · exact hI
  | stop removes =>
    change (s.step (.stop removes)).Right
    unfold Advertising.step
    dsimp only
    cases hdevice : s.device with
    | none => exact hI
    | some cfg =>
      obtain ⟨howns, hzero⟩ := owns_withdraw hI.owns cfg removes
      refine ⟨howns, fun _ => hzero ?_⟩
      cases henable : cfg.enableMdns with
      | true => exact .inl rfl
      | false =>
        refine .inr (hI.quiet fun cfg' hcfg => ?_)
        rw [hdevice] at hcfg
        obtain rfl := Option.some.inj hcfg
        exact henable

/-- **Advertising is balanced.** Whatever devices are started and stopped one after the other, and
whichever calls fail: the services that are published are those the module remembers and those that
could not be removed. When no device runs it remembers none, and every service that was ever
published was removed exactly once, and no other, exactly if no removal has failed. -/
theorem published_of_reach (h : advertising.Reach s) :
    replay s.mdns.ledger 0 = some (s.mdns.published + s.mdns.stuck) ∧
      (s.device = none →
        s.mdns.published = 0 ∧ (Balanced s.mdns.ledger ↔ s.mdns.stuck = 0)) := by
  have hright := right_advertising h
  refine ⟨hright.owns, fun hnone => ?_⟩
  have hzero : s.mdns.published = 0 := hright.quiet (by simp [hnone])
  have howns := hright.owns
  unfold Mdns.Owns at howns
  rw [hzero, zero_add] at howns
  exact ⟨hzero, by rw [balanced_iff, howns, Option.some.injEq]⟩

end Services

namespace Sample

/-- Nothing is published. -/
def silent : Advertising := ⟨⟨false, false, none, [], 0⟩, none⟩

/-- A device with a listener in the clear is started and advertised. -/
def advertise : AdvertisingStep :=
  .start config plaintext ⟨true, none⟩ goodCalls ⟨true, true⟩ ⟨true, true⟩ ⟨true, true⟩

/-- When it is stopped, its service is removed, or cannot be removed. -/
theorem published_advertised : replay (silent.step advertise).mdns.ledger 0 = some {.oca} ∧
    Balanced ((silent.step advertise).step (.stop ⟨true, true⟩)).mdns.ledger ∧
      ¬Balanced ((silent.step advertise).step (.stop ⟨false, true⟩)).mdns.ledger := by
  have hadvertised : advertising.Reach (silent.step advertise) :=
    Machine.Reach.step (i := advertise) (.init rfl) rfl
  have hstopped (removes : RemoveCalls) :
      advertising.Reach ((silent.step advertise).step (.stop removes)) :=
    Machine.Reach.step (i := AdvertisingStep.stop removes) hadvertised trivial
  refine ⟨(published_of_reach hadvertised).1, ?_, ?_⟩
  · exact ((published_of_reach (hstopped ⟨true, true⟩)).2 rfl).2.2 rfl
  · intro hbalanced
    have hnone := ((published_of_reach (hstopped ⟨false, true⟩)).2 rfl).2.1 hbalanced
    revert hnone
    decide

end Sample

end Aes70
