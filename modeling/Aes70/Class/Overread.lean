import Aes70.Class.Uniform

/-!
# The bytes ApplyParameterData looks at

`ApplyParameterData` reads its entries through a reader whose length it is sent. The check that the
blob lies inside the parameters adds that length to an offset of 4 in 32-bit arithmetic; for the
four largest lengths the sum wraps, the check passes, and nothing bounds the entries any more.

* `Overreads` : the parameters for which the call looks beyond the parameter area.
* `lt_seen_of_overreads` : for these it does.
* `recall_same` : for all others the call depends on its own bytes only.
-/

namespace Aes70

variable {K : Kconfig}

/-- The length of the blob in the parameters of `ApplyParameterData`. -/
def blobLength (p : Ptr) : ℕ := (rd32 (p.read 4)).toNat

/-- The number of entries in the blob. -/
def blobCount (p : Ptr) : ℕ := (rd16 ((p.add 4).read 2)).toNat

/-- The sum of the offset and the length of the blob wraps, and the blob is longer than the
parameters. -/
def Overreads (p : Ptr) (len : ℕ) : Prop :=
  4 ≤ len ∧ 2 ^ 32 - 4 ≤ blobLength p ∧ (len < 6 ∨ len < 6 + 12 * blobCount p)

instance (p : Ptr) (len : ℕ) : Decidable (Overreads p len) :=
  inferInstanceAs (Decidable (_ ∧ _))

/-- The entry at `p`. -/
def entryAt (p : Ptr) : UInt32 × F64 :=
  (rd32 (p.read 4), ⟨(UInt64.ofNat (BigEndian.decode ((p.add 4).read 8))).toBitVec⟩)

theorem blobLength_lt (p : Ptr) : blobLength p < 2 ^ 32 := (rd32 _).toNat_lt

theorem blobCount_lt (p : Ptr) : blobCount p < 2 ^ 16 := (rd16 _).toNat_lt

theorem respects_recallEntries {R : Reader → Reader → Prop} (hR : ReadRel R) (n : ℕ) :
    Read.Respects R (recallEntries n) := by
  induction n with
  | zero => exact Read.respects_pure _
  | succ n ih =>
    intro r r' h
    obtain ⟨hono, h₁⟩ := Read.respects_u32 hR r r' h
    obtain ⟨hv, h₂⟩ := Read.respects_f64 hR _ _ h₁
    obtain ⟨hes, h₃⟩ := ih _ _ h₂
    unfold recallEntries
    dsimp only
    rw [← hR.err h₂]
    split_ifs
    · exact ⟨rfl, h₂⟩
    · have he : ((Read.u32 r).1, (Read.f64 (Read.u32 r).2).1) =
          ((Read.u32 r').1, (Read.f64 (Read.u32 r').2).1) := Prod.ext hono hv
      exact ⟨congrArg₂ (fun e (t : List (UInt32 × F64) × Bool) => (e :: t.1, t.2)) he hes, h₃⟩

/-- The first `n` entries of a blob whose entries start at `p`. -/
def entriesAt (p : Ptr) : ℕ → List (UInt32 × F64)
  | 0 => []
  | n + 1 => entryAt p :: entriesAt (p.add 12) n

/-- Entries that lie inside the area are all read. -/
theorem recallEntries_of_le {p : Ptr} {len off seen : ℕ} (n : ℕ) (h : off + 12 * n ≤ len)
    (hs : off ≤ seen) : recallEntries n ⟨p, len, off, false, seen⟩ =
      ((entriesAt (p.add off) n, false), ⟨p, len, off + 12 * n, false, max seen (off + 12 * n)⟩) := by
  induction n generalizing off seen with
  | zero => simp [recallEntries, entriesAt, hs]
  | succ n ih =>
    have hono : Read.u32 ⟨p, len, off, false, seen⟩ = (rd32 ((p.add off).read 4),
        ⟨p, len, off + 4, false, max seen (off + 4)⟩) :=
      Read.fixed_of_le rfl (by rw [Reader.remaining_eq]; dsimp only; omega)
    have hu : Read.u64 ⟨p, len, off + 4, false, max seen (off + 4)⟩ =
        (UInt64.ofNat (BigEndian.decode ((p.add (off + 4)).read 8)),
          ⟨p, len, off + 12, false, max (max seen (off + 4)) (off + 12)⟩) :=
      Read.fixed_of_le rfl (by rw [Reader.remaining_eq]; dsimp only; omega)
    have hv : Read.f64 ⟨p, len, off + 4, false, max seen (off + 4)⟩ =
        (⟨(UInt64.ofNat (BigEndian.decode ((p.add (off + 4)).read 8))).toBitVec⟩,
          ⟨p, len, off + 12, false, max (max seen (off + 4)) (off + 12)⟩) := by
      change (_, (Read.u64 _).2) = _
      rw [hu]
    have hmax : max (max seen (off + 4)) (off + 12) = max seen (off + 12) := by omega
    rw [hmax] at hv
    have hih := ih (show off + 12 + 12 * n ≤ len by omega) (le_max_right seen (off + 12))
    have hend : off + 12 + 12 * n = off + 12 * (n + 1) := by omega
    have hseen : max (max seen (off + 12)) (off + 12 * (n + 1)) = max seen (off + 12 * (n + 1)) := by
      omega
    unfold recallEntries
    rw [hono]
    dsimp only
    rw [hv]
    dsimp only
    rw [if_neg (by simp), hih, hend, hseen, entriesAt, entryAt, Ptr.add_add, Ptr.add_add]

/-! ### Agreement inside the parameters -/

theorem Ptr.read_congr {p p' : Ptr} {n len : ℕ} (h : ∀ k < len, p k = p' k) (hn : n ≤ len) :
    p.read n = p'.read n :=
  List.map_congr_left fun k hk => h k (lt_of_lt_of_le (List.mem_range.mp hk) hn)

theorem Ptr.agree_add {p p' : Ptr} {m n len : ℕ} (h : ∀ k < len, p k = p' k) (hm : m + n ≤ len) :
    ∀ k < n, p.add m k = p'.add m k := fun k hk => h _ (by omega)

theorem entriesAt_congr {p p' : Ptr} {n len : ℕ} (h : ∀ k < len, p k = p' k)
    (hn : 12 * n ≤ len) : entriesAt p n = entriesAt p' n := by
  induction n generalizing p p' len with
  | zero => rfl
  | succ n ih =>
    have hentry : entryAt p = entryAt p' := by
      rw [entryAt, entryAt, Ptr.read_congr h (by omega),
        Ptr.read_congr (Ptr.agree_add h (show 4 + 8 ≤ len by omega)) le_rfl]
    rw [entriesAt, entriesAt, hentry,
      ih (Ptr.agree_add h (show 12 + 12 * n ≤ len by omega)) le_rfl]

theorem len_recallEntries (n : ℕ) (b : Reader) : (recallEntries n b).2.len = b.len := by
  have hnums (b : Reader) : (Read.f64 (Read.u32 b).2).2.len = b.len :=
    (Read.len_fixed 8 (0 : UInt64) _ _).trans (Read.len_fixed 4 (0 : UInt32) _ _)
  induction n generalizing b with
  | zero => rfl
  | succ n ih =>
    unfold recallEntries
    dsimp only
    split_ifs
    · exact hnums b
    · exact (ih _).trans (hnums b)

/-! ### The reads of ApplyParameterData -/

/-- What the sub-reader of `ApplyParameterData` reads. -/
def subRead (p : Ptr) : (List (UInt32 × F64) × Bool) × Reader :=
  let (n, b) := Read.u16 (Reader.init (p.add 4) (blobLength p))
  recallEntries n.toNat b

section Blob

variable {p : Ptr} {len : ℕ}

/-- The first field of the parameters. -/
theorem u32_init (h4 : 4 ≤ len) :
    Read.u32 (Reader.init p len) = (rd32 (p.read 4), ⟨p, len, 4, false, 4⟩) := by
  rw [Read.u32, Read.fixed_of_le rfl (by simpa [Reader.remaining_eq, Reader.init] using h4)]
  rfl

/-- What a recall reads when the length of the blob is accepted. -/
theorem recall_of_accepted (h4 : 4 ≤ len) (h : szAdd 4 (blobLength p) ≤ len) :
    recallParams (Reader.init p len) = some (subRead p).1 ∧
      recallRest (Reader.init p len) = ⟨p, len, szAdd 4 (blobLength p), false,
        max 4 (4 + (subRead p).2.seen)⟩ := by
  unfold recallParams recallRest
  rw [u32_init h4]
  dsimp only
  rw [if_neg, if_neg]
  · exact ⟨rfl, rfl⟩
  all_goals simpa [blobLength] using h

/-- And when it is refused. -/
theorem recall_of_refused (h : ¬(4 ≤ len ∧ szAdd 4 (blobLength p) ≤ len)) :
    recallParams (Reader.init p len) = none ∧
      recallRest (Reader.init p len) = (Read.u32 (Reader.init p len)).2 := by
  have hbad : ((Read.u32 (Reader.init p len)).2.err || decide ((Read.u32 (Reader.init p len)).2.len <
      szAdd (Read.u32 (Reader.init p len)).2.off (Read.u32 (Reader.init p len)).1.toNat)) = true := by
    by_cases h4 : 4 ≤ len
    · rw [u32_init h4]
      simpa [blobLength] using fun hle => h ⟨h4, hle⟩
    · have herr : (Read.u32 (Reader.init p len)).2.err = true := by
        rw [Read.u32, Read.fixed, if_pos (by simpa [Reader.remaining_eq, Reader.init] using h4)]
        rfl
      rw [herr, Bool.true_or]
  unfold recallParams recallRest
  dsimp only
  rw [if_pos hbad, if_pos hbad]
  exact ⟨rfl, rfl⟩

/-- A blob whose length wraps is read to its end, wherever that is. -/
theorem subRead_of_wrap (hw : 2 ^ 32 - 4 ≤ blobLength p) :
    subRead p = ((entriesAt (p.add 6) (blobCount p), false),
      ⟨p.add 4, blobLength p, 2 + 12 * blobCount p, false, 2 + 12 * blobCount p⟩) := by
  have hcount := blobCount_lt p
  have hread : Read.u16 (Reader.init (p.add 4) (blobLength p)) =
      (rd16 ((p.add 4).read 2), ⟨p.add 4, blobLength p, 2, false, 2⟩) := by
    rw [Read.u16, Read.fixed_of_le rfl (by rw [Reader.remaining_eq]; dsimp only [Reader.init]; omega)]
    rfl
  rw [subRead, hread]
  dsimp only
  rw [← blobCount, recallEntries_of_le _ (by omega) le_rfl, Ptr.add_add,
    max_eq_right (by omega : 2 ≤ 2 + 12 * blobCount p)]

theorem szAdd_of_wrap (hw : 2 ^ 32 - 4 ≤ blobLength p) : szAdd 4 (blobLength p) < 4 := by
  have hlt := blobLength_lt p
  unfold szAdd
  omega

theorem szAdd_of_fits (hw : ¬2 ^ 32 - 4 ≤ blobLength p) :
    szAdd 4 (blobLength p) = 4 + blobLength p := by
  unfold szAdd
  omega

/-- **The call looks beyond its parameters** when it overreads. -/
theorem lt_seen_of_overreads (h : Overreads p len) :
    len < (recallRest (Reader.init p len)).seen := by
  obtain ⟨h4, hw, hlen⟩ := h
  have hacc := szAdd_of_wrap hw
  rw [(recall_of_accepted h4 (by omega)).2, subRead_of_wrap hw]
  dsimp only
  omega

variable {p' : Ptr} (h : ∀ k < len, p k = p' k)
include h

theorem blobLength_congr (h4 : 4 ≤ len) : blobLength p = blobLength p' := by
  rw [blobLength, blobLength, Ptr.read_congr h h4]

/-- A blob whose length does not wrap is read inside its length. -/
theorem subRead_same_of_fits (hfit : 4 + blobLength p ≤ len) :
    (subRead p).1 = (subRead p').1 ∧ (subRead p).2.seen = (subRead p').2.seen ∧
      4 + (subRead p).2.seen ≤ len := by
  have hsub : (Reader.init (p.add 4) (blobLength p)).Same
      (Reader.init (p'.add 4) (blobLength p')) := by
    rw [← blobLength_congr h (by omega)]
    exact ⟨rfl, rfl, rfl, rfl, Ptr.agree_add h hfit, Reader.inside_init _ _⟩
  obtain ⟨hn, hb⟩ := Read.respects_u16 readRel_same _ _ hsub
  obtain ⟨hes, hend⟩ := respects_recallEntries readRel_same
    (Read.u16 (Reader.init (p.add 4) (blobLength p))).1.toNat _ _ hb
  have hin := hend.inside.seen_le
  rw [len_recallEntries] at hin
  have hlen : (Read.u16 (Reader.init (p.add 4) (blobLength p))).2.len = blobLength p :=
    Read.len_fixed 2 (0 : UInt16) _ _
  rw [subRead, subRead]
  dsimp only
  rw [← hn]
  exact ⟨hes, hend.seen, by omega⟩

/-- A blob whose length wraps is read inside the parameters, if its entries lie there. -/
theorem subRead_same_of_wrap (hw : 2 ^ 32 - 4 ≤ blobLength p) (h6 : 6 + 12 * blobCount p ≤ len) :
    (subRead p).1 = (subRead p').1 ∧ (subRead p).2.seen = (subRead p').2.seen ∧
      4 + (subRead p).2.seen ≤ len := by
  have hcount : blobCount p = blobCount p' := by
    rw [blobCount, blobCount, Ptr.read_congr (Ptr.agree_add h (show 4 + 2 ≤ len by omega)) le_rfl]
  have hes : entriesAt (p.add 6) (blobCount p) = entriesAt (p'.add 6) (blobCount p) :=
    entriesAt_congr (Ptr.agree_add h h6) le_rfl
  rw [subRead_of_wrap hw, subRead_of_wrap (blobLength_congr h (by omega) ▸ hw), ← hcount, hes]
  exact ⟨rfl, rfl, by dsimp only; omega⟩

/-- **The call depends on its own bytes only** when it does not overread. -/
theorem recall_same (hno : ¬Overreads p len) :
    recallParams (Reader.init p len) = recallParams (Reader.init p' len) ∧
      (recallRest (Reader.init p len)).Same (recallRest (Reader.init p' len)) := by
  by_cases hacc : 4 ≤ len ∧ szAdd 4 (blobLength p) ≤ len
  · have h4 := hacc.1
    have hlen := blobLength_congr h h4
    have hsub : (subRead p).1 = (subRead p').1 ∧ (subRead p).2.seen = (subRead p').2.seen ∧
        4 + (subRead p).2.seen ≤ len := by
      by_cases hw : 2 ^ 32 - 4 ≤ blobLength p
      · exact subRead_same_of_wrap h hw (by simp only [Overreads, not_and, not_or] at hno; omega)
      · exact subRead_same_of_fits h (szAdd_of_fits hw ▸ hacc.2)
    obtain ⟨hes, hseen, hin⟩ := hsub
    obtain ⟨hps, hrest⟩ := recall_of_accepted h4 hacc.2
    obtain ⟨hps', hrest'⟩ := recall_of_accepted h4 (hlen ▸ hacc.2)
    rw [hps, hps', hrest, hrest', hes, ← hlen, ← hseen]
    exact ⟨rfl, rfl, rfl, rfl, rfl, h, hacc.2, max_le h4 hin⟩
  · obtain ⟨hps, hrest⟩ := recall_of_refused hacc
    have hacc' : ¬(4 ≤ len ∧ szAdd 4 (blobLength p') ≤ len) :=
      fun ⟨h4, hle⟩ => hacc ⟨h4, blobLength_congr h h4 ▸ hle⟩
    obtain ⟨hps', hrest'⟩ := recall_of_refused hacc'
    rw [hps, hps', hrest, hrest']
    have hsame : (Reader.init p len).Same (Reader.init p' len) :=
      ⟨rfl, rfl, rfl, rfl, h, Reader.inside_init _ _⟩
    exact ⟨rfl, (Read.respects_u32 readRel_same _ _ hsame).2⟩

end Blob

theorem len_recallRest (p : Ptr) (len : ℕ) : (recallRest (Reader.init p len)).len = len := by
  by_cases hacc : 4 ≤ len ∧ szAdd 4 (blobLength p) ≤ len
  · rw [(recall_of_accepted hacc.1 hacc.2).2]
  · rw [(recall_of_refused hacc).2]
    exact Read.len_fixed 4 (0 : UInt32) _ _

/-! ### Uniformity -/

/-- Two calls of `ApplyParameterData` that read the same have the same effect. -/
theorem applyParameterData_uniformAt {R : Reader → Reader → Prop} {d : Device K} {rd rd' : Reader}
    (hps : recallParams rd = recallParams rd') (hrest : R (recallRest rd) (recallRest rd')) :
    UniformAt R applyParameterData d rd rd' := fun pc =>
  ⟨⟨(d.recallOutcome (recallParams rd)).1, (d.recallOutcome (recallParams rd)).2, [], pc⟩, _, _,
    hrest, fun _ => rfl, fun _ => ⟨applyParameterData_eq _, by rw [hps]; exact applyParameterData_eq _⟩⟩

theorem objectDispatch_of_recalls {d : Device K} {i : ObjRef} {level index : UInt16}
    (h : Recalls d i level index) {c : Call K} (hc : c.dev = d) :
    objectDispatch i level index c = applyParameterData c := by
  obtain ⟨hk, rfl, rfl, hg⟩ := h
  have hh : handlerFor (K := K) (d.obj i).kind 3 = some blockDispatch := by rw [hk]; rfl
  rw [objectDispatch_of_handler hh hg hc]
  rfl

end Aes70
