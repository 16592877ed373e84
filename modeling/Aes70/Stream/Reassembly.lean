import Mathlib.Tactic.Common

/-!
# Reassembly of frames from a stream

A stream of symbols is cut into frames by a function that looks at the front of what has arrived and
says: wait, give up, or here is a frame of this size. If a verdict other than "wait" cannot be
changed by what arrives later, the frames do not depend on how the stream arrives.

* `Framing` : such a function.
* `Framing.parse` : take frames off the front until the function waits or gives up.
* `Framing.feed` : parse after every chunk, and keep what is left for the next one.
* `Framing.feed_eq` : feeding chunks is parsing their concatenation.
-/

/-- What a framing function finds at the front of the symbols. -/
inductive Head (β : Type*)
  /-- More is needed. -/
  | wait
  /-- This is no stream of frames. -/
  | drop
  /-- A frame of `n` symbols. -/
  | frame (n : ℕ) (f : β)
deriving DecidableEq

/-- A framing function; its verdicts are final. -/
structure Framing (α β : Type*) where
  head : List α → Head β
  frame_pos : ∀ {bs n f}, head bs = .frame n f → 0 < n ∧ n ≤ bs.length
  frame_append : ∀ {bs n f} more, head bs = .frame n f → head (bs ++ more) = .frame n f
  drop_append : ∀ {bs} more, head bs = .drop → head (bs ++ more) = .drop

namespace Framing

variable {α β : Type*} (F : Framing α β)

/-- The frames at the front of `bs`, what is left after them, and `false` if the rest is no stream
of frames. -/
def parse (bs : List α) : List β × List α × Bool :=
  match h : F.head bs with
  | .wait => ([], bs, true)
  | .drop => ([], bs, false)
  | .frame n f =>
    have : bs.length - n < bs.length := by
      have := F.frame_pos h
      omega
    let (fs, rest) := parse (bs.drop n)
    (f :: fs, rest)
termination_by bs.length
decreasing_by simpa using this

variable {F} {bs : List α}

theorem parse_of_wait (h : F.head bs = .wait) : F.parse bs = ([], bs, true) := by
  rw [parse]
  split <;> simp_all

theorem parse_of_drop (h : F.head bs = .drop) : F.parse bs = ([], bs, false) := by
  rw [parse]
  split <;> simp_all

theorem parse_of_frame {n : ℕ} {f : β} (h : F.head bs = .frame n f) :
    F.parse bs = (f :: (F.parse (bs.drop n)).1, (F.parse (bs.drop n)).2) := by
  rw [parse]
  split <;> simp_all

/-- Induction along the frames at the front. -/
theorem induction {P : List α → Prop} (wait : ∀ bs, F.head bs = .wait → P bs)
    (drop : ∀ bs, F.head bs = .drop → P bs)
    (frame : ∀ bs n f, F.head bs = .frame n f → P (bs.drop n) → P bs) (bs : List α) : P bs := by
  induction h : bs.length using Nat.strongRecOn generalizing bs with
  | ind len ih =>
    cases hh : F.head bs with
    | wait => exact wait bs hh
    | drop => exact drop bs hh
    | frame n f =>
      have hpos := F.frame_pos hh
      exact frame bs n f hh (ih _ (by rw [List.length_drop]; omega) _ rfl)

/-- What is left to wait with holds no frame. -/
theorem head_rest (bs : List α) (h : (F.parse bs).2.2 = true) :
    F.head (F.parse bs).2.1 = .wait := by
  induction bs using F.induction with
  | wait bs hh => rwa [parse_of_wait hh]
  | drop bs hh =>
    rw [parse_of_drop hh] at h
    cases h
  | frame bs n f hh ih =>
    rw [parse_of_frame hh] at h ⊢
    exact ih h

/-- Parsing goes on where it had to wait. -/
theorem parse_append (bs more : List α) : F.parse (bs ++ more) =
    if (F.parse bs).2.2 then
      ((F.parse bs).1 ++ (F.parse ((F.parse bs).2.1 ++ more)).1,
        (F.parse ((F.parse bs).2.1 ++ more)).2)
    else ((F.parse bs).1, (F.parse bs).2.1 ++ more, false) := by
  induction bs using F.induction with
  | wait bs hh => simp [parse_of_wait hh]
  | drop bs hh => simp [parse_of_drop hh, parse_of_drop (F.drop_append more hh)]
  | frame bs n f hh ih =>
    have hpos := F.frame_pos hh
    rw [parse_of_frame (F.frame_append more hh), parse_of_frame hh,
      List.drop_append_of_le_length hpos.2, ih]
    split_ifs <;> rfl

variable (F)

/-- Parse after every chunk; `buf` is what is left of the chunks before. Once the rest is no stream
of frames, no more chunks are taken. -/
def feed : List (List α) → List α → List β × List α × Bool
  | [], buf => ([], buf, true)
  | c :: cs, buf =>
    let r := F.parse (buf ++ c)
    if r.2.2 then (r.1 ++ (feed cs r.2.1).1, (feed cs r.2.1).2) else r

/-- **Feeding chunks is parsing their concatenation**: the same frames, the same verdict, and the
same rest. -/
theorem feed_eq (cs : List (List α)) {buf : List α} (h : F.head buf = .wait) :
    (F.feed cs buf).1 = (F.parse (buf ++ cs.flatten)).1 ∧
      (F.feed cs buf).2.2 = (F.parse (buf ++ cs.flatten)).2.2 ∧
        ((F.feed cs buf).2.2 = true →
          (F.feed cs buf).2.1 = (F.parse (buf ++ cs.flatten)).2.1) := by
  induction cs generalizing buf with
  | nil => simp [feed, parse_of_wait h]
  | cons c cs ih =>
    rw [List.flatten_cons, ← List.append_assoc, parse_append, feed]
    have hrest := head_rest (F := F) (buf ++ c)
    generalize F.parse (buf ++ c) = r at hrest
    obtain ⟨fs, rest, ok⟩ := r
    cases ok with
    | false => simp
    | true =>
      obtain ⟨hfs, hok, hleft⟩ := ih (hrest rfl)
      exact ⟨congrArg (fs ++ ·) hfs, hok, hleft⟩

end Framing
