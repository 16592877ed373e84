import Aes70.Server.Outgoing

/-!
# The byte stream of a connection

What the socket of a session took of the frames handed to it, over whole runs. Nobody looks at the
result of `aes70_conn_send`: a frame that was cut stays in the stream, and whether something follows
it is up to the socket.

* `intake rs` : what a socket takes before its first failure.
* `sendAll_eq` : the loop of `aes70_conn_send` in these terms.
* `session c l` : the transmissions of the last session of connection `c`.
* `WholeFrames` : their bytes are whole frames, and a cut one has nothing behind it.
* `stream_whole_iff` : so it is if and only if a socket that cut a frame takes no more.
-/

namespace Aes70

variable {K : Kconfig}

/-! ### The loop of `aes70_conn_send` -/

/-- How many bytes the socket takes before it fails, if it is offered enough. -/
def intake : List SendResult → ℕ
  | .wrote n :: rs => if n = 0 then 0 else n + intake rs
  | .again :: rs => intake rs
  | _ => 0

/-- A socket with these results takes the beginning of a frame of `len` bytes only. -/
def Cuts (len : ℕ) (rs : List SendResult) : Prop := 0 < intake rs ∧ intake rs < len

theorem sendAll_of_le {len sent : ℕ} (h : len ≤ sent) (rs : List SendResult) :
    sendAll len rs sent = (sent, true) := by
  unfold sendAll
  exact if_pos h

/-- **The loop** passes on what the socket takes. -/
theorem sendAll_from {len : ℕ} (rs : List SendResult) {sent : ℕ} (h : sent ≤ len) :
    (sendAll len rs sent).1 = min len (sent + intake rs) := by
  induction rs generalizing sent with
  | nil =>
    unfold sendAll intake
    split_ifs <;> simp [h]
  | cons r rs ih =>
    by_cases hdone : len ≤ sent
    · rw [sendAll_of_le hdone]
      omega
    · unfold sendAll intake
      rw [if_neg hdone]
      cases r with
      | again => exact ih h
      | failed => simp [h]
      | wrote n =>
        dsimp only
        by_cases hn : n = 0
        · simp [hn, h]
        · rw [if_neg hn, if_neg hn, ih (by omega)]
          omega

theorem sendAll_eq (len : ℕ) (rs : List SendResult) :
    (sendAll len rs 0).1 = min len (intake rs) := by
  rw [sendAll_from rs (Nat.zero_le len), Nat.zero_add]

/-! ### Sessions -/

/-- A frame handed to a socket, how many bytes it took, and what happened before. -/
structure Transmission where
  before : List Event
  frame : Bytes
  taken : ℕ
deriving DecidableEq

/-- The transmissions of the session of connection `c`, after one more event. -/
def sessionNext (c : ℕ) (before : List Event) (ts : List Transmission) : Event → List Transmission
  | .accepted c' _ => if c' = c then [] else ts
  | .tx c' frame n => if c' = c then ts ++ [⟨before, frame, n⟩] else ts
  | _ => ts

/-- The transmissions of connection `c` since it was last accepted. -/
def session (c : ℕ) (l : List Event) : List Transmission :=
  (l.foldl (fun s e => (s.1 ++ [e], sessionNext c s.1 s.2 e)) (([], []) :
    List Event × List Transmission)).2

theorem session_concat (c : ℕ) (l : List Event) (e : Event) :
    session c (l ++ [e]) = sessionNext c l (session c l) e := by
  have hbefore (l : List Event) : (l.foldl (fun s e => (s.1 ++ [e], sessionNext c s.1 s.2 e))
      (([], []) : List Event × List Transmission)).1 = l := by
    induction l using List.reverseRecOn with
    | nil => rfl
    | append_singleton l e ih => rw [List.foldl_concat, ih]
  rw [session, List.foldl_concat, hbefore]
  rfl

/-- The log tells of every transmission of a session. -/
theorem log_of_session {c : ℕ} {l : List Event} : ∀ t ∈ session c l,
    ∃ post, l = t.before ++ .tx c t.frame t.taken :: post := by
  induction l using List.reverseRecOn with
  | nil => exact fun _ ht => absurd ht List.not_mem_nil
  | append_singleton l e ih =>
    intro t ht
    have hold (ht : t ∈ session c l) :
        ∃ post, l ++ [e] = t.before ++ .tx c t.frame t.taken :: post := by
      obtain ⟨post, hpost⟩ := ih t ht
      exact ⟨post ++ [e], by conv_lhs => rw [hpost, List.append_assoc, List.cons_append]⟩
    rw [session_concat] at ht
    cases e with
    | accepted c' secure =>
      simp only [sessionNext] at ht
      split_ifs at ht
      · exact absurd ht List.not_mem_nil
      · exact hold ht
    | tx c' frame n =>
      simp only [sessionNext] at ht
      split_ifs at ht with hc
      · obtain ht | ht := List.mem_append.1 ht
        · exact hold ht
        · obtain rfl := List.mem_singleton.1 ht
          exact ⟨[], by rw [hc]⟩
      · exact hold ht
    | _ => exact hold ht

/-! ### Whole frames -/

/-- The bytes the socket took. -/
def streamOf (ts : List Transmission) : Bytes := ts.flatMap fun t => t.frame.take t.taken

/-- The frames it took completely. -/
def completed (ts : List Transmission) : List Bytes :=
  (ts.filter fun t => t.frame.length ≤ t.taken).map Transmission.frame

theorem completed_cons (t : Transmission) (ts : List Transmission) : completed (t :: ts) =
    if t.frame.length ≤ t.taken then t.frame :: completed ts else completed ts := by
  simp only [completed, List.filter_cons, decide_eq_true_eq]
  split_ifs <;> rfl

/-- The stream consists of whole frames in the order they were sent, up to the beginning of one more
at its end: behind a cut frame nothing is taken. -/
structure WholeFrames (ts : List Transmission) : Prop where
  cut : ts.Pairwise fun t u => 0 < t.taken → t.taken < t.frame.length → u.taken = 0
  stream : ∃ tail, streamOf ts = (completed ts).flatten ++ tail ∧
    (tail = [] ∨ ∃ t ∈ ts, tail <+: t.frame ∧ tail.length < t.frame.length)

/-- It is enough that nothing is taken behind a cut frame. -/
theorem wholeFrames_of_cut {ts : List Transmission} (hframe : ∀ t ∈ ts, t.frame ≠ [])
    (h : ts.Pairwise fun t u => 0 < t.taken → t.taken < t.frame.length → u.taken = 0) :
    WholeFrames ts := by
  refine ⟨h, ?_⟩
  induction ts with
  | nil => exact ⟨[], rfl, .inl rfl⟩
  | cons t ts ih =>
    obtain ⟨hhead, htail⟩ := List.pairwise_cons.1 h
    obtain ⟨tail, hstream, hcut⟩ := ih (fun u hu => hframe u (List.mem_cons_of_mem t hu)) htail
    have hcons : streamOf (t :: ts) = t.frame.take t.taken ++ streamOf ts := List.flatMap_cons
    have hmore : tail = [] ∨ ∃ u ∈ t :: ts, tail <+: u.frame ∧ tail.length < u.frame.length :=
      hcut.imp_right fun ⟨u, hu, hprefix⟩ => ⟨u, List.mem_cons_of_mem t hu, hprefix⟩
    by_cases hwhole : t.frame.length ≤ t.taken
    · -- a complete frame
      refine ⟨tail, ?_, hmore⟩
      rw [hcons, hstream, List.take_of_length_le hwhole, completed_cons, if_pos hwhole,
        List.flatten_cons, List.append_assoc]
    rw [hcons, completed_cons, if_neg hwhole]
    by_cases hnone : t.taken = 0
    · exact ⟨tail, by rw [hnone, hstream]; rfl, hmore⟩
    · -- a cut one, with nothing behind it
      have hzero : ∀ u ∈ ts, u.taken = 0 := fun u hu => hhead u hu (by omega) (by omega)
      have hrest : streamOf ts = [] := List.flatMap_eq_nil_iff.2 fun u hu => by
        rw [hzero u hu, List.take_zero]
      have hdone : completed ts = [] := by
        rw [completed, List.filter_eq_nil_iff.2 fun u hu => ?_, List.map_nil]
        have hpos := List.length_pos_of_ne_nil (hframe u (List.mem_cons_of_mem t hu))
        rw [decide_eq_true_eq, hzero u hu]
        omega
      refine ⟨t.frame.take t.taken, by rw [hrest, hdone, List.append_nil]; rfl, .inr
        ⟨t, List.mem_cons_self, List.take_prefix .., ?_⟩⟩
      rw [List.length_take]
      omega

/-! ### The server -/

/-- A transmission is what the socket takes of the frame at that point of the log. -/
def Counted (net : Net) (before : List Event) (e : Event) : Prop :=
  ∀ c frame n, e = .tx c frame n → n = min frame.length (intake (net.sends before c))

/-- Sending keeps the count. -/
theorem sendOrder_counted : SendOrder (K := K) (fun _ => True) fun d d' =>
    d'.net = d.net ∧ (Log.Always (Counted d.net) d.log → Log.Always (Counted d.net) d'.log) where
  refl _ := ⟨rfl, id⟩
  trans h h' := ⟨h'.1.trans h.1, fun hd => by
    have hcounted := h'.2
    rw [h.1] at hcounted
    exact hcounted (h.2 hd)⟩
  same hlog hnet := ⟨hnet, fun hd => by rwa [hlog]⟩
  emit d e hquiet _ := ⟨rfl, fun hd => Log.always_concat hd fun c frame n he => by
    rw [he] at hquiet
    cases hquiet⟩
  send d c frame _ := by
    have htx : Counted d.net d.log
        (.tx c frame (sendAll frame.length (d.net.sends d.log c) 0).1) := by
      rintro _ _ _ ⟨⟩
      exact sendAll_eq _ _
    unfold Device.connSend
    split_ifs
    · dsimp only
      split_ifs
      · exact ⟨rfl, fun hd => Log.always_concat hd htx⟩
      · exact ⟨rfl, fun hd => Log.always_concat hd htx⟩
    · exact ⟨rfl, id⟩
    · exact ⟨rfl, id⟩

theorem counted_of_reach {d : Device K} (h : (server K).Reach d) :
    Log.Always (Counted d.net) d.log := by
  refine (reach_turns h).invariant (I := fun d : Device K => Log.Always (Counted d.net) d.log)
    (fun d hd => ?_) fun d t _ ih ht => ?_
  · obtain ⟨cfg, net, hstart⟩ := hd
    obtain ⟨e, rfl⟩ := start_eq hstart
    exact Log.always_nil
  · obtain ⟨hnet, hcounted⟩ := sendOrder_counted.turn (fun _ _ => trivial) ht
    change Log.Always (Counted (t.run d).net) (t.run d).log
    rw [hnet]
    exact hcounted ih

/-- In the session of `c`, a socket that cut a frame takes nothing more. -/
def Device.CutIsLast (d : Device K) (c : ℕ) : Prop :=
  (session c d.log).Pairwise fun t u =>
    Cuts t.frame.length (d.net.sends t.before c) → intake (d.net.sends u.before c) = 0

/-- **The stream of a session consists of whole frames** exactly if no socket that cut a frame takes
anything of the frames behind it. -/
theorem stream_whole_iff {d : Device K} (h : (server K).Reach d) (c : ℕ) :
    WholeFrames (session c d.log) ↔ d.CutIsLast c := by
  have htaken : ∀ t ∈ session c d.log,
      t.taken = min t.frame.length (intake (d.net.sends t.before c)) ∧ 0 < t.frame.length := by
    intro t ht
    obtain ⟨post, hlog⟩ := log_of_session t ht
    refine ⟨counted_of_reach h t.before _ post hlog c _ _ rfl, ?_⟩
    have hframed : Framed K t.frame := sends_of_reach h (.tx c t.frame t.taken) (by
      rw [hlog]
      exact List.mem_append_right _ List.mem_cons_self)
    exact List.length_pos_of_ne_nil fun hnil => by
      have hsync := hframed.sync
      rw [hnil] at hsync
      cases hsync
  have hpair : (session c d.log).Pairwise
      (fun t u => 0 < t.taken → t.taken < t.frame.length → u.taken = 0) ↔ d.CutIsLast c := by
    refine List.Pairwise.iff_of_mem fun {t u} ht hu => ?_
    obtain ⟨hutaken, hpos⟩ := htaken u hu
    obtain ⟨httaken, -⟩ := htaken t ht
    unfold Cuts
    omega
  rw [← hpair]
  refine ⟨fun hwhole => hwhole.cut, wholeFrames_of_cut fun t ht hnil => ?_⟩
  have hpos := (htaken t ht).2
  rw [hnil] at hpos
  exact absurd hpos (lt_irrefl 0)

namespace Sample

/-- A socket that cuts the first frame after five bytes and takes the next one. -/
def cuttingNet : Net :=
  ⟨fun l _ => if l.all Event.isQuiet then [.wrote 5, .failed] else [.wrote 12], fun _ => 0⟩

/-- The sample device with this network. -/
def cuttingStart : Device .default := (deviceStart .default config cuttingNet).get rfl

/-- The client in slot 0 connects and sends two heartbeats. -/
def cutting : Device .default := [.accept [] 0 true, beat, beat].foldl Input.run cuttingStart

theorem cutting_eq : cutting = beaten (beaten (cuttingStart.acceptConn [] 0 true)) := by
  change beat.run (beat.run (cuttingStart.acceptConn [] 0 true)) = _
  rw [run_beat (d := cuttingStart.acceptConn [] 0 true) (by decide +kernel),
    run_beat (d := beaten _) (by decide +kernel)]

theorem reach_cutting : (server .default).Reach cutting := by
  have hstart : (server .default).Reach cuttingStart :=
    .init ⟨config, cuttingNet, (Option.some_get _).symm⟩
  have hrun : (server .default).Run cuttingStart [.accept [] 0 true, beat, beat] cutting :=
    .cons trivial (.cons trivial (.cons trivial (.nil _)))
  exact hstart.run hrun

/-- The second answer follows the five bytes of the first. -/
theorem not_wholeFrames_cutting :
    (server .default).Reach cutting ∧ ¬WholeFrames (session 0 cutting.log) := by
  refine ⟨reach_cutting, fun h => ?_⟩
  have hcut := h.cut
  rw [cutting_eq] at hcut
  revert hcut
  decide +kernel

/-- The client asks for the version, and sends a heartbeat. -/
def attending : Device .default := beat.run inquired

theorem attending_eq : attending = beaten (asked taking) := by
  have hbeat : beat.run (asked taking) = beaten (asked taking) := run_beat (by decide +kernel)
  rw [attending, inquired_eq, hbeat]

theorem reach_attending : (server .default).Reach attending :=
  Machine.Reach.step (i := beat) reach_inquired trivial

/-- The response and the keep-alive are taken whole. -/
theorem wholeFrames_attending : (session 0 attending.log).length = 2 ∧
    WholeFrames (session 0 attending.log) := by
  have htaken : (session 0 attending.log).length = 2 ∧
      (∀ t ∈ session 0 attending.log, t.frame.length ≤ 2048) ∧
        ∀ t ∈ session 0 attending.log, intake (attending.net.sends t.before 0) = 2048 := by
    rw [attending_eq]
    decide +kernel
  obtain ⟨htwo, hframes, hintake⟩ := htaken
  refine ⟨htwo, (stream_whole_iff reach_attending 0).2 ?_⟩
  refine List.pairwise_of_forall_mem_list fun t ht u _ hcut => ?_
  have hshort := hframes t ht
  have hall := hintake t ht
  unfold Cuts at hcut
  omega

end Sample

end Aes70
