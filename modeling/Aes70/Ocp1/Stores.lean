import Aes70.Ocp1.Laws

/-!
# Stores of a writer

A writer is handed through many functions, which append to the buffer, patch what was appended and
take it back. However they are put together, no byte behind the buffer is overwritten.

* `Writer.Store w lo hi w'` : one access; the bytes `p[lo .. hi)` are overwritten.
* `Writer.Inside w w'` : accesses that all stay inside the buffer.
* `Writer.Inside.off_le` : what is written fits the buffer, overflow or not.
-/

namespace Aes70

namespace Writer

/-- One access of a writer to its buffer. It overwrites the bytes `p[lo .. hi)`. -/
inductive Store (w : Writer) : ℕ → ℕ → Writer → Prop
  | put {bs : Bytes} (h : (w.put bs).err = false) : Store w w.off (w.off + bs.length) (w.put bs)
  /-- A store that does not fit only latches the error. -/
  | refused {bs : Bytes} (h : (w.put bs).err = true) : Store w w.off w.off (w.put bs)
  | patch {pos : ℕ} {bs : Bytes} (h : pos + bs.length ≤ w.off) :
    Store w pos (pos + bs.length) (w.patch pos bs)
  | rewind {n : ℕ} (h : n ≤ w.off) : Store w n n (w.rewind n)

/-- `w'` is what accesses to `w` leave, none of them outside the buffer. -/
inductive Inside (w : Writer) : Writer → Prop
  | refl : Inside w w
  | step {w' w'' : Writer} {lo hi : ℕ} (h : Inside w w') (hs : Store w' lo hi w'')
    (hcap : hi ≤ w'.cap) : Inside w w''

variable {w w' w'' : Writer}

theorem put_cases (w : Writer) (bs : Bytes) :
    (w.put bs).err = true ∧ (w.put bs).buf = w.buf ∨
      w.err = false ∧ w.off + bs.length ≤ w.cap ∧ w.put bs = { w with buf := w.buf ++ bs } := by
  by_cases herr : w.err = true
  · rw [put_of_err herr]
    exact .inl ⟨herr, rfl⟩
  have hok : w.err = false := by simpa using herr
  by_cases hfit : w.off + bs.length ≤ w.cap
  · exact .inr ⟨hok, hfit, put_of_fits hok hfit⟩
  · refine .inl ⟨put_of_overflow (by omega), ?_⟩
    rw [put, if_pos (by simp; omega)]

theorem off_patch {pos : ℕ} {bs : Bytes} (h : pos + bs.length ≤ w.off) :
    (w.patch pos bs).off = w.off := by
  unfold off at h ⊢
  simp only [patch, List.length_append, List.length_take, List.length_drop]
  omega

theorem off_rewind {n : ℕ} (h : n ≤ w.off) : (w.rewind n).off = n := by
  unfold off at h ⊢
  simp only [rewind, List.length_take]
  omega

/-- What an access inside the buffer leaves is inside the buffer. -/
theorem Store.off_le {lo hi : ℕ} (h : Store w lo hi w') (hcap : hi ≤ w.cap) (hw : w.off ≤ w.cap) :
    w'.off ≤ w'.cap ∧ w'.cap = w.cap := by
  cases h with
  | @put bs _ | @refused bs _ =>
    refine ⟨?_, cap_put w bs⟩
    rw [cap_put]
    obtain ⟨-, hbuf⟩ | ⟨-, hfit, hput⟩ := put_cases w bs
    · rw [off, hbuf]
      exact hw
    · rw [hput]
      simpa [off] using hfit
  | patch h =>
    rw [off_patch h]
    exact ⟨hw, rfl⟩
  | rewind h =>
    rw [off_rewind h]
    exact ⟨h.trans hw, rfl⟩

namespace Inside

theorem trans (h : Inside w w') (h' : Inside w' w'') : Inside w w'' := by
  induction h' with
  | refl => exact h
  | step _ hs hcap ih => exact ih.step hs hcap

/-- **What is written fits the buffer**, and the buffer stays the same. -/
theorem off_le (h : Inside w w') (hw : w.off ≤ w.cap) : w'.off ≤ w'.cap ∧ w'.cap = w.cap := by
  induction h with
  | refl => exact ⟨hw, rfl⟩
  | step _ hs hcap ih =>
    obtain ⟨hoff, hbuf⟩ := hs.off_le hcap ih.1
    exact ⟨hoff, hbuf.trans ih.2⟩

theorem put (h : Inside w w') (hw : w.off ≤ w.cap) (bs : Bytes) : Inside w (w'.put bs) := by
  obtain ⟨herr, -⟩ | ⟨hok, hfit, hput⟩ := put_cases w' bs
  · exact h.step (.refused herr) (h.off_le hw).1
  · refine h.step (.put ?_) hfit
    rw [hput]
    exact hok

theorem fields (h : Inside w w') (hw : w.off ≤ w.cap) (fs : List Field) :
    Inside w (w'.fields fs) := by
  rw [fields_eq]
  exact List.foldlRecOn (motive := Inside w) _ _ h fun _ ih bs _ => ih.put hw bs

theorem patch (h : Inside w w') (hw : w.off ≤ w.cap) {pos : ℕ} {bs : Bytes}
    (hpos : pos + bs.length ≤ w'.off) : Inside w (w'.patch pos bs) :=
  h.step (.patch hpos) (hpos.trans (h.off_le hw).1)

theorem rewind (h : Inside w w') (hw : w.off ≤ w.cap) {n : ℕ} (hn : n ≤ w'.off) :
    Inside w (w'.rewind n) :=
  h.step (.rewind hn) (hn.trans (h.off_le hw).1)

end Inside

theorem off_init (cap : ℕ) : (init cap).off ≤ (init cap).cap := Nat.zero_le _

/-- Fields that left no error fit. -/
theorem fits_of_ok (hw : w.off ≤ w.cap) {fs : List Field} (h : (w.fields fs).err = false) :
    w.err = false ∧ w.off + (Field.encodeAll fs).length ≤ w.cap := by
  have hok : w.err = false := by
    by_contra herr
    rw [fields_of_err (by simpa using herr)] at h
    exact herr h
  refine ⟨hok, Nat.le_of_not_lt fun hlt => ?_⟩
  cases (fields_of_overflow hok hlt hw).symm.trans h

end Writer

end Aes70
