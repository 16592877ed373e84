import Aes70.Device.Heap

/-!
# Who owns a block

The heap over the whole life of a device. A text is replaced in three steps, of which only the
middle one is taken under the lock of the device; any number of threads may be between them.

* `Flight` : a thread that is about to replace a text.
* `heap` : devices that are started, furnished with objects, and stopped.
* `Heap.Orderly` : a device is stopped when no thread is about to replace a text of it.
* `blocks_of_reach` : every block has one owner, no array is overrun, and nothing is left behind.

Constructors are taken to run one at a time. The lock sees to that for most of them, but
`aes70_grouper_create`, `aes70_matrix_create` and AddGroup call `aes70_object_alloc` without it:
what happens when one of these overlaps another constructor is not considered here.
-/

namespace Aes70

open Resource

/-! ### Replacing a text -/

/-- The texts that are replaced while the device runs. -/
inductive Text
  | label | str
deriving DecidableEq

/-- A thread in the middle of `aes70_object_set_label`, of `SetLabel` or of
`aes70_object_commit_str`. -/
inductive Flight
  /-- It has made its copy. -/
  | copied (i : ObjRef) (text : Text) (copy : ℕ)
  /-- It has put its copy in place, and is about to free what was there. -/
  | swapped (old : Option ℕ)
deriving DecidableEq

/-- The block that a thread has in its hands. -/
def Flight.owned : Flight → Multiset ℕ
  | .copied _ _ copy => held (some copy)
  | .swapped old => held old

/-- The text of an object. -/
def HeapObj.text (o : HeapObj) : Text → Option ℕ
  | .label => o.label
  | .str => o.str

/-- The text of an object is replaced. -/
def HeapObj.setText (o : HeapObj) (text : Text) (copy : Option ℕ) : HeapObj :=
  match text with
  | .label => { o with label := copy }
  | .str => { o with str := copy }

theorem owned_setText (o : HeapObj) (text : Text) (copy : Option ℕ) :
    (o.setText text copy).owned + held (o.text text) = o.owned + held copy := by
  cases text with
  | label =>
    dsimp only [HeapObj.setText, HeapObj.text, HeapObj.owned, HeapObj.names]
    abel
  | str =>
    dsimp only [HeapObj.setText, HeapObj.text, HeapObj.owned, HeapObj.names]
    abel

theorem fits_setText {o : HeapObj} {n : ℕ} (h : o.Fits n) (text : Text) (copy : Option ℕ) :
    (o.setText text copy).Fits n := by
  cases text with
  | label => exact ⟨h.le_objects, h.le_cap, h.room⟩
  | str => exact ⟨h.le_objects, h.le_cap, h.room⟩

/-! ### The machine -/

/-- The device, the threads that replace a text, and the ledger of the heap. -/
structure Heap where
  device : Option HeapDevice
  flights : Multiset Flight
  ledger : Blocks

/-- The steps of the application and of the server task. -/
inductive HeapStep
  | start (calls : StartBlocks)
  /-- A constructor, or AddGroup, from its first allocation to its last; no other is under way. -/
  | create (kind : Kind) (parent : Option ObjRef) (calls : CreateBlocks)
  /-- `strdup` of a new text. -/
  | copy (i : ObjRef) (text : Text) (copy : Option ℕ)
  /-- The pointers are exchanged, under the lock. -/
  | swap (i : ObjRef) (text : Text) (copy : ℕ)
  /-- The old text is freed. -/
  | drop (old : Option ℕ)
  | stop

namespace Heap

/-- The effect of a step on a device. -/
def stepDevice (K : Kconfig) (s : Heap) (d : HeapDevice) : HeapStep → Heap
  | .start _ => s
  | .create kind parent calls =>
    let (d, t) := d.create K kind parent calls s.ledger
    { s with device := some d, ledger := t }
  | .copy i text copy =>
    match copy with
    | none => s
    | some p => { s with
        flights := .copied i text p ::ₘ s.flights, ledger := alloc s.ledger (some p) }
  | .swap i text copy =>
    match d.objects[i]? with
    | none => s
    | some o => { s with
        device := some { d with objects := d.objects.set i (o.setText text (some copy)) }
        flights := .swapped (o.text text) ::ₘ s.flights.erase (.copied i text copy) }
  | .drop old => { s with
      flights := s.flights.erase (.swapped old), ledger := free s.ledger old }
  | .stop => { s with device := none, ledger := d.deviceStop s.ledger }

/-- The effect of a step. -/
def step (K : Kconfig) (s : Heap) (m : HeapStep) : Heap :=
  match s.device with
  | some d => s.stepDevice K d m
  | none =>
    match m with
    | .start calls =>
      let (device, t) := HeapDevice.deviceStart K calls s.ledger
      { s with device, ledger := t }
    | _ => s

/-- The blocks that have an owner. -/
def owned (s : Heap) : Multiset ℕ :=
  (s.device.elim 0 HeapDevice.owned) + (s.flights.map Flight.owned).sum

end Heap

/-- A device is stopped when no thread is in the middle of replacing a text: the thread would store
into an object that is gone. -/
def Heap.Orderly (s : Heap) : HeapStep → Prop
  | .stop => s.flights = 0
  | _ => True

/-- Devices that are started, furnished and stopped, one after the other. -/
def heap (K : Kconfig) : Machine Heap HeapStep where
  init s := s = ⟨none, 0, []⟩
  ok s m := match m with
    | .start _ => s.device = none
    | .create _ parent _ => ∃ d, s.device = some d ∧ ∀ i ∈ parent, i < d.objects.length
    | .copy i _ _ => ∃ d, s.device = some d ∧ i < d.objects.length
    | .swap i text copy => .copied i text copy ∈ s.flights
    | .drop old => .swapped old ∈ s.flights
    | .stop => s.device.isSome
  step s m := s.step K m

/-- Every block has an owner: a pointer of the device, or a thread. -/
structure Heap.Clean (s : Heap) : Prop where
  replay : replay s.ledger 0 = some s.owned
  fits : ∀ d ∈ s.device, d.Fits
  /-- A copy is made for an object that exists. -/
  present : ∀ i text copy, .copied i text copy ∈ s.flights →
    ∃ d, s.device = some d ∧ i < d.objects.length
  idle : s.device = none → s.flights = 0

section Machine

variable {K : Kconfig} {s : Heap} {d : HeapDevice}

theorem clean_start (h : s.Clean) (hnone : s.device = none) (calls : StartBlocks) :
    (s.step K (.start calls)).Clean := by
  obtain ⟨device, flights, ledger⟩ := s
  obtain rfl : device = none := hnone
  obtain rfl : flights = 0 := h.idle rfl
  have hledger : replay ledger 0 = some 0 := h.replay
  refine ⟨?_, fits_deviceStart calls ledger, fun i text copy hmem => ?_, fun _ => rfl⟩
  · exact replay_deviceStart hledger calls
  · exact absurd hmem (Multiset.notMem_zero _)

theorem clean_create (h : s.Clean) (hd : s.device = some d) (kind : Kind)
    (parent : Option ObjRef) (calls : CreateBlocks) :
    (s.step K (.create kind parent calls)).Clean := by
  obtain ⟨device, flights, ledger⟩ := s
  obtain rfl : device = some d := hd
  obtain ⟨hfits, hlen⟩ := fits_create K (h.fits d rfl) kind parent calls ledger
  refine ⟨replay_create h.replay parent calls, ?_, fun i text copy hmem => ?_, fun hnone => ?_⟩
  · rintro _ ⟨⟩
    exact hfits
  · obtain ⟨_, ⟨⟩, hi⟩ := h.present i text copy hmem
    exact ⟨_, rfl, hi.trans_le hlen⟩
  · cases hnone

theorem clean_copy (h : s.Clean) (hd : s.device = some d) {i : ObjRef}
    (hi : i < d.objects.length) (text : Text) (copy : Option ℕ) :
    (s.step K (.copy i text copy)).Clean := by
  obtain ⟨device, flights, ledger⟩ := s
  obtain rfl : device = some d := hd
  cases copy with
  | none => exact h
  | some p =>
    refine ⟨?_, h.fits, fun j text' copy' hmem => ?_, nofun⟩
    · have hcopy : replay (alloc ledger (some p)) 0 =
          some (held (some p) + (d.owned + (flights.map Flight.owned).sum)) :=
        replay_alloc h.replay
      refine hcopy.trans (congrArg some ?_)
      change _ = d.owned + (Multiset.map Flight.owned (_ ::ₘ flights)).sum
      rw [Multiset.map_cons, Multiset.sum_cons, Flight.owned]
      abel
    · obtain heq | hmem := Multiset.mem_cons.1 hmem
      · cases heq
        exact ⟨d, rfl, hi⟩
      · exact h.present j text' copy' hmem

/-- The thread gives its copy to the object, and takes what was there. -/
theorem clean_swap (h : s.Clean) {i : ObjRef} {text : Text} {copy : ℕ}
    (hmem : .copied i text copy ∈ s.flights) : (s.step K (.swap i text copy)).Clean := by
  obtain ⟨device, flights, ledger⟩ := s
  obtain ⟨d, rfl, hi⟩ := h.present i text copy hmem
  obtain ⟨rest, rfl⟩ := Multiset.exists_cons_of_mem hmem
  have ho : d.objects[i]? = some d.objects[i] := List.getElem?_eq_getElem hi
  obtain ⟨others, hsum, hset⟩ := sum_map_set (f := HeapObj.owned) ho
  have htext := owned_setText d.objects[i] text (some copy)
  change (Heap.stepDevice K _ d (.swap i text copy)).Clean
  unfold Heap.stepDevice
  dsimp only
  rw [ho]
  dsimp only
  rw [Multiset.erase_cons_head]
  refine ⟨h.replay.trans (congrArg some ?_), ?_, fun j text' copy' hmem' => ?_, fun hnone => ?_⟩
  · change d.owned + (Multiset.map Flight.owned (_ ::ₘ rest)).sum =
      HeapDevice.owned _ + (Multiset.map Flight.owned (_ ::ₘ rest)).sum
    rw [Multiset.map_cons, Multiset.sum_cons, Multiset.map_cons, Multiset.sum_cons,
      HeapDevice.owned, HeapDevice.owned, hsum]
    dsimp only [Flight.owned]
    rw [hset]
    calc _ = held (some d.self) + held d.lock + held d.cmdQ + others +
          (rest.map Flight.owned).sum + (d.objects[i].owned + held (some copy)) := by abel
      _ = _ := by
        rw [← htext]
        abel
  · rintro _ ⟨⟩ o ho
    rw [List.length_set]
    obtain ho | rfl := List.mem_or_eq_of_mem_set ho
    · exact h.fits d rfl o ho
    · exact fits_setText (h.fits d rfl _ (List.getElem_mem hi)) text (some copy)
  · obtain heq | hmem' := Multiset.mem_cons.1 hmem'
    · cases heq
    · obtain ⟨_, ⟨⟩, hj⟩ := h.present j text' copy' (Multiset.mem_cons_of_mem hmem')
      exact ⟨_, rfl, hj.trans_eq List.length_set.symm⟩
  · cases hnone

theorem clean_drop (h : s.Clean) {old : Option ℕ} (hmem : .swapped old ∈ s.flights) :
    (s.step K (.drop old)).Clean := by
  obtain ⟨device, flights, ledger⟩ := s
  obtain ⟨rest, rfl⟩ := Multiset.exists_cons_of_mem hmem
  cases device with
  | none =>
    have hnone : _ ::ₘ rest = 0 := h.idle rfl
    exact absurd hnone (Multiset.cons_ne_zero)
  | some d =>
    change Heap.Clean ⟨some d, (_ ::ₘ rest).erase _, free ledger old⟩
    rw [Multiset.erase_cons_head]
    refine ⟨?_, h.fits, fun i text copy hin => ?_, nofun⟩
    · refine replay_free (h.replay.trans (congrArg some ?_))
      change d.owned + (Multiset.map Flight.owned (_ ::ₘ rest)).sum =
        held old + (d.owned + (Multiset.map Flight.owned rest).sum)
      rw [Multiset.map_cons, Multiset.sum_cons, Flight.owned]
      abel
    · exact h.present i text copy (Multiset.mem_cons_of_mem hin)

theorem clean_stop (h : s.Clean) (hd : s.device = some d) (hidle : s.flights = 0) :
    (s.step K .stop).Clean := by
  obtain ⟨device, flights, ledger⟩ := s
  obtain rfl : device = some d := hd
  obtain rfl : flights = 0 := hidle
  refine ⟨replay_deviceStop h.replay, nofun, fun i text copy hmem => ?_,
    fun _ => rfl⟩
  exact absurd hmem (Multiset.notMem_zero _)

theorem clean_heap (h : ((heap K).restrict Heap.Orderly).Reach s) : s.Clean := by
  refine h.invariant (fun s hs => ?_) fun s m _ hI ⟨hok, horderly⟩ => ?_
  · obtain rfl := hs
    refine ⟨rfl, nofun, fun i text copy hmem => ?_, fun _ => rfl⟩
    exact absurd hmem (Multiset.notMem_zero _)
  cases m with
  | start calls => exact clean_start hI hok calls
  | create kind parent calls =>
    obtain ⟨d, hd, -⟩ := hok
    exact clean_create hI hd kind parent calls
  | copy i text copy =>
    obtain ⟨d, hd, hi⟩ := hok
    exact clean_copy hI hd hi text copy
  | swap i text copy => exact clean_swap hI hok
  | drop old => exact clean_drop hI hok
  | stop =>
    obtain ⟨d, hd⟩ := Option.isSome_iff_exists.1 hok
    exact clean_stop hI hd horderly

/-- **The heap is clean.** Whatever is created, one object at a time, whatever is renamed, and
whichever allocations fail, if devices are stopped while no text is being replaced: the blocks
allocated and not yet freed are those the device, its objects and the threads that replace a text
point to, each once; no array of members is overrun; and when there is no device, every block was
freed exactly once. -/
theorem blocks_of_reach (h : ((heap K).restrict Heap.Orderly).Reach s) :
    replay s.ledger 0 = some s.owned ∧
      (∀ d ∈ s.device, ∀ o ∈ d.objects, o.childCount.toNat ≤ o.room) ∧
      (s.device = none → Balanced s.ledger) := by
  have hclean := clean_heap h
  refine ⟨hclean.replay, fun d hd o ho => ?_, fun hnone => balanced_iff.2 ?_⟩
  · have hfits := hclean.fits d hd o ho
    rw [hfits.room]
    exact hfits.le_cap
  · rw [hclean.replay, Heap.owned, hnone, hclean.idle hnone]
    rfl

end Machine

namespace Sample

/-- A device is started. -/
def booted : Heap := Heap.step .default ⟨none, 0, []⟩
  (.start ⟨some 1, some 2, some 3, (some 4, some 5), (some 6, some 7), (some 8, some 9), true⟩)

/-- It is furnished with a switch; the last of its names could not be copied. -/
def furnished : Heap := booted.step .default
  (.create .switch none ⟨some 10, some 11, some 12, none, none, some 13, [some 14, none]⟩)

/-- A label of the switch is replaced by another one, but not freed yet. -/
def labelled : Heap :=
  (furnished.step .default (.copy 3 .label (some 15))).step .default (.swap 3 .label 15)

theorem reach_labelled : ((heap .default).restrict Heap.Orderly).Reach labelled := by
  have hinit : ((heap .default).restrict Heap.Orderly).Reach ⟨none, 0, []⟩ := .init rfl
  have hstart : (heap .default).ok ⟨none, 0, []⟩ (.start ⟨some 1, some 2, some 3,
    (some 4, some 5), (some 6, some 7), (some 8, some 9), true⟩) := rfl
  have hcreate : (heap .default).ok booted (.create .switch none
    ⟨some 10, some 11, some 12, none, none, some 13, [some 14, none]⟩) := ⟨_, rfl, nofun⟩
  have hcopy : (heap .default).ok furnished (.copy 3 .label (some 15)) := ⟨_, rfl, by decide⟩
  have hswap : (heap .default).ok (furnished.step .default (.copy 3 .label (some 15)))
    (.swap 3 .label 15) := by
    change Flight.copied 3 .label 15 ∈ _
    decide
  exact (((hinit.step ⟨hstart, trivial⟩).step ⟨hcreate, trivial⟩).step ⟨hcopy, trivial⟩).step
    ⟨hswap, trivial⟩

theorem blocks_labelled : replay labelled.ledger 0 = some labelled.owned ∧
    15 ∈ labelled.owned ∧
      Balanced ((labelled.step .default (.drop none)).step .default .stop).ledger := by
  have hdrop : (heap .default).ok labelled (.drop none) := by
    change Flight.swapped none ∈ _
    decide
  have hidle : Heap.Orderly (labelled.step .default (.drop none)) .stop := by
    change (labelled.step .default (.drop none)).flights = 0
    decide
  have hstop : ((heap .default).restrict Heap.Orderly).ok (labelled.step .default (.drop none))
      .stop := ⟨rfl, hidle⟩
  refine ⟨(blocks_of_reach reach_labelled).1, by decide +kernel, ?_⟩
  exact (blocks_of_reach ((reach_labelled.step ⟨hdrop, trivial⟩).step hstop)).2.2 rfl

end Sample

end Aes70
