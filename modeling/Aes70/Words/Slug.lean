import Mathlib.Data.List.Chain
import Mathlib.Data.List.DropRight
import Mathlib.Tactic.Common

/-!
# Words joined into one

A name is cut into words at its separators; what is neither part of a word nor a separator is left
out. The words are joined by one separator of another kind, in one pass and from left to right.

* `words` : the words of a name.
* `slug` : the pass, which knows of what it has written only whether it ends in a word.
* `slug_eq_join` : it writes the words, joined, and perhaps a separator behind them.
* `Tidy` : words of some alphabet, joined; `tidy_slug` : so is the beginning of what is written,
  when the separators at its end are taken off.
* `slug_of_tidy` : what is tidy is written as it is.
-/

namespace Words

variable {α : Type*} (letter sep : α → Bool) (f : α → α) (d : α)

/-- What is between two separators. -/
def segments (cs : List α) : List (List α) :=
  (cs.filter fun c => letter c || sep c).splitOnP fun c => !letter c

/-- The words of a name. -/
def words (cs : List α) : List (List α) := (segments letter sep cs).filter fun w => !w.isEmpty

/-- The words, joined. -/
def join (ws : List (List α)) : List α := [d].intercalate (ws.map (List.map f))

/-- What is written when `inWord` says whether there is a word to separate the next one from. -/
def slug (inWord : Bool) : List α → List α
  | [] => []
  | c :: cs =>
    if letter c then f c :: slug true cs
    else if sep c && inWord then d :: slug false cs
    else slug inWord cs

variable {letter sep : α → Bool} {f : α → α} {d : α} {cs : List α}

/-! ### The pass -/

theorem segments_ne_nil (cs : List α) : segments letter sep cs ≠ [] := List.splitOnP_ne_nil _ _

theorem segments_letter {c : α} (hc : letter c = true) :
    segments letter sep (c :: cs) = (segments letter sep cs).modifyHead (List.cons c) := by
  rw [segments, List.filter_cons_of_pos (by simp [hc]), List.splitOnP_cons_eq_if_modifyHead,
    if_neg (by simp [hc])]
  rfl

theorem segments_sep {c : α} (hc : letter c = false) (hsep : sep c = true) :
    segments letter sep (c :: cs) = [] :: segments letter sep cs := by
  rw [segments, List.filter_cons_of_pos (by simp [hsep]), List.splitOnP_cons_eq_if_modifyHead,
    if_pos (by simp [hc])]
  rfl

theorem segments_other {c : α} (hc : letter c = false) (hsep : sep c = false) :
    segments letter sep (c :: cs) = segments letter sep cs := by
  rw [segments, List.filter_cons_of_neg (by simp [hc, hsep])]
  rfl

/-- What is written for the segments that follow a word, and for those that do not. -/
def written (f : α → α) (d : α) (inWord : Bool) : List (List α) → List α
  | [] => []
  | [s] => s.map f
  | s :: ss =>
    if s = [] ∧ inWord = false then written f d false ss
    else s.map f ++ d :: written f d false ss

theorem written_cons {s : List α} {ss : List (List α)} (hss : ss ≠ []) (inWord : Bool) :
    written f d inWord (s :: ss) = if s = [] ∧ inWord = false then written f d false ss
      else s.map f ++ d :: written f d false ss := by
  cases ss with
  | nil => exact absurd rfl hss
  | cons s' ss => rfl

/-- **The pass** goes from segment to segment. -/
theorem slug_eq_written (inWord : Bool) (cs : List α) :
    slug letter sep f d inWord cs = written f d inWord (segments letter sep cs) := by
  induction cs generalizing inWord with
  | nil => rfl
  | cons c cs ih =>
    unfold slug
    by_cases hc : letter c = true
    · rw [if_pos hc, segments_letter hc, ih]
      have hne : segments letter sep cs ≠ [] := segments_ne_nil cs
      obtain ⟨s, ss, hs⟩ := List.exists_cons_of_ne_nil hne
      rw [hs, List.modifyHead_cons]
      cases ss with
      | nil => rfl
      | cons s' ss =>
        rw [written_cons (List.cons_ne_nil _ _), written_cons (List.cons_ne_nil _ _),
          if_neg (by simp), if_neg (by simp)]
        rfl
    · rw [if_neg hc]
      have hc : letter c = false := by simpa using hc
      by_cases hsep : sep c = true
      · rw [segments_sep hc hsep, written_cons (segments_ne_nil cs)]
        cases inWord with
        | true => simp [hsep, ih]
        | false => simp [ih]
      · have hsep : sep c = false := by simpa using hsep
        rw [segments_other hc hsep, if_neg (by simp [hsep]), ih]

theorem join_singleton (w : List α) : join f d [w] = w.map f := List.intercalate_singleton

theorem join_cons {ws : List (List α)} (hws : ws ≠ []) (w : List α) :
    join f d (w :: ws) = w.map f ++ d :: join f d ws := by
  have hmap : ws.map (List.map f) ≠ [] := by simpa using hws
  rw [join, List.map_cons, List.intercalate_cons_of_ne_nil hmap, List.append_assoc]
  rfl

/-- **It writes the words, joined**, and a separator behind them if the name goes on with one. -/
theorem written_eq_join (ss : List (List α)) :
    ∃ t, written f d false ss = join f d (ss.filter fun w => !w.isEmpty) ++ t ∧
      (t = [] ∨ t = [d] ∧ ss.filter (fun w => !w.isEmpty) ≠ []) := by
  induction ss with
  | nil => exact ⟨[], rfl, .inl rfl⟩
  | cons s ss ih =>
    obtain ⟨t, ht, htail⟩ := ih
    by_cases hss : ss = []
    · subst hss
      cases s with
      | nil => exact ⟨[], rfl, .inl rfl⟩
      | cons c s =>
        refine ⟨[], ?_, .inl rfl⟩
        rw [List.append_nil, List.filter_cons_of_pos (by simp), List.filter_nil, join_singleton]
        rfl
    rw [written_cons hss]
    cases s with
    | nil => exact ⟨t, ht, htail⟩
    | cons c s =>
      rw [if_neg (by simp), ht]
      by_cases hws : ss.filter (fun w => !w.isEmpty) = []
      · obtain rfl : t = [] := htail.resolve_right fun h => h.2 hws
        refine ⟨[d], ?_, .inr ⟨rfl, by simp⟩⟩
        rw [List.filter_cons_of_pos (by simp), hws, join_singleton]
        rfl
      · refine ⟨t, ?_, htail.imp_right fun h => ⟨h.1, by simp⟩⟩
        rw [List.filter_cons_of_pos (by simp), join_cons hws, List.append_assoc, List.cons_append]

theorem slug_eq_join (letter sep : α → Bool) (f : α → α) (d : α) (cs : List α) :
    ∃ t, slug letter sep f d false cs = join f d (words letter sep cs) ++ t ∧
      (t = [] ∨ t = [d]) := by
  obtain ⟨t, ht, htail⟩ := written_eq_join (f := f) (d := d) (segments letter sep cs)
  exact ⟨t, (slug_eq_written false cs).trans ht, htail.imp_right And.left⟩

/-! ### Tidy names -/

/-- Letters of the alphabet `A` in words that are joined by single `d`. -/
structure Tidy (A : α → Prop) (d : α) (l : List α) : Prop where
  letters : ∀ c ∈ l, A c ∨ c = d
  single : l.IsChain fun a b => a ≠ d ∨ b ≠ d
  head : l.head? ≠ some d
  last : l.getLast? ≠ some d

section Tidy

variable {A : α → Prop} {inWord : Bool}

theorem letters_slug (hf : ∀ c, letter c = true → A (f c)) :
    ∀ c ∈ slug letter sep f d inWord cs, A c ∨ c = d := by
  induction cs generalizing inWord with
  | nil => exact fun c hc => absurd hc List.not_mem_nil
  | cons c cs ih =>
    unfold slug
    split_ifs with hc
    · exact List.forall_mem_cons.2 ⟨.inl (hf c hc), ih⟩
    · exact List.forall_mem_cons.2 ⟨.inr rfl, ih⟩
    · exact ih

/-- It does not begin with a separator, unless it goes on behind a word. -/
theorem head_slug (hne : ∀ c, letter c = true → f c ≠ d) :
    (slug letter sep f d false cs).head? ≠ some d := by
  induction cs with
  | nil => exact fun h => by cases h
  | cons c cs ih =>
    unfold slug
    split_ifs with hc hsep
    · exact fun h => hne c hc (Option.some.inj h)
    · simp at hsep
    · exact ih

theorem single_slug (hne : ∀ c, letter c = true → f c ≠ d) :
    (slug letter sep f d inWord cs).IsChain fun a b => a ≠ d ∨ b ≠ d := by
  induction cs generalizing inWord with
  | nil => exact .nil
  | cons c cs ih =>
    unfold slug
    split_ifs with hc
    · exact List.isChain_cons.2 ⟨fun b _ => .inl (hne c hc), ih⟩
    · have hhead : (slug letter sep f d false cs).head? ≠ some d := head_slug hne
      refine List.isChain_cons.2 ⟨fun b hb => .inr ?_, ih⟩
      rintro rfl
      exact hhead hb
    · exact ih

/-- **The beginning of what is written is tidy**, without the separators at its end. -/
theorem tidy_slug [DecidableEq α] (hf : ∀ c, letter c = true → A (f c))
    (hne : ∀ c, letter c = true → f c ≠ d) (n : ℕ) :
    Tidy A d (((slug letter sep f d false cs).take n).rdropWhile (· = d)) := by
  have hpre : ((slug letter sep f d false cs).take n).rdropWhile (· = d) <+:
      slug letter sep f d false cs := (List.rdropWhile_prefix _ _).trans (List.take_prefix _ _)
  refine ⟨fun c hc => letters_slug hf c (hpre.subset hc),
    List.IsChain.prefix (single_slug hne) hpre, fun h => ?_, fun h => ?_⟩
  · have hhead : (slug letter sep f d false cs).head? ≠ some d := head_slug hne
    obtain ⟨rest, hrest⟩ := hpre
    rw [← hrest, List.head?_append, h] at hhead
    exact hhead rfl
  · have hl : ((slug letter sep f d false cs).take n).rdropWhile (· = d) ≠ [] := by
      intro hnil
      rw [hnil] at h
      cases h
    have hlast := List.rdropWhile_last_not _ _ hl
    rw [List.getLast?_eq_some_getLast hl] at h
    exact hlast (by simpa using h)

/-- **A tidy name is kept.** -/
theorem slug_of_tidy (hf : ∀ c, A c → letter c = true ∧ f c = c) (hd : letter d = false)
    (hsep : sep d = true) {l : List α} (hletters : ∀ c ∈ l, A c ∨ c = d)
    (hsingle : l.IsChain fun a b => a ≠ d ∨ b ≠ d) (hhead : inWord = false → l.head? ≠ some d) :
    slug letter sep f d inWord l = l := by
  induction l generalizing inWord with
  | nil => rfl
  | cons c l ih =>
    obtain ⟨hc, hl⟩ := List.forall_mem_cons.1 hletters
    obtain ⟨hnext, hchain⟩ := List.isChain_cons.1 hsingle
    unfold slug
    obtain hA | rfl := hc
    · obtain ⟨hletter, hsame⟩ := hf c hA
      rw [if_pos hletter, hsame, ih hl hchain (by simp)]
    · have hin : inWord = true := by
        by_contra hno
        exact hhead (by simpa using hno) rfl
      rw [if_neg (by simp [hd]), if_pos (by simp [hsep, hin]), ih hl hchain fun _ hnone => ?_]
      exact (hnext _ hnone).elim (fun h => h rfl) fun h => h rfl

end Tidy

end Words
