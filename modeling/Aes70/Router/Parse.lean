import Aes70.Ocp1.Laws
import Aes70.Router.Route

/-!
# The commands in a PDU body

What the parsing loop of the router finds depends on the bytes of the body only.

* `commands` : the commands the loop finds when `n` are announced.
* `HoldsCommands n bs` : the bytes start with `n` complete commands.
* `length_commands_eq_iff` : the loop finds as many as announced exactly then.
* `commands_encode` : a body made of encoded commands is read back as these.
-/

namespace Aes70

/-- The commands the router loop finds when `n` are announced, with their parameter readers. -/
def commands : ℕ → Reader → List (Command × Reader)
  | 0, _ => []
  | n + 1, rd =>
    match nextCommand rd with
    | none => []
    | some p => (p.cmd, p.params) :: commands n p.rest

/-- The parameters of a command are what its reader reads. -/
theorem params_of_nextCommand {rd : Reader} {q : Parsed} (h : nextCommand rd = some q) :
    ∃ p n, q.params = Reader.init p n ∧ q.cmd.params = p.read n := by
  unfold nextCommand at h
  dsimp only at h
  split_ifs at h
  obtain rfl := Option.some.inj h
  exact ⟨_, _, rfl, rfl⟩

/-! ### One command -/

/-- The size field of the command at the start of these bytes. -/
def commandSize (bs : Bytes) : ℕ := (rd32 (bs.take 4)).toNat

/-- The command of that size at `p`. -/
def commandAt (p : Ptr) (size : ℕ) : Command where
  handle := rd32 ((p.add 4).read 4)
  target := rd32 ((p.add 8).read 4)
  level := rd16 ((p.add 12).read 2)
  index := rd16 ((p.add 14).read 2)
  paramCount := UInt8.ofNat (BigEndian.decode ((p.add 16).read 1))
  params := (p.add 17).read (size - 17)

theorem Ptr.take_read (p : Ptr) {m n : ℕ} (h : m ≤ n) : (p.read n).take m = p.read m := by
  rw [read, read, ← List.map_take, List.take_range, min_eq_left h]

theorem Ptr.drop_read (p : Ptr) (m n : ℕ) : (p.read n).drop m = (p.add m).read (n - m) := by
  apply List.ext_getElem (by simp)
  intro k hk hk'
  simp [read, add]

section Next

variable {p : Ptr} {len off seen : ℕ}

theorem fixed_at_offset {α : Type} {n : ℕ} (zero : α) (f : Bytes → α) (h : off + n ≤ len) :
    Read.fixed n zero f ⟨p, len, off, false, seen⟩ =
      (f ((p.add off).read n), ⟨p, len, off + n, false, max seen (off + n)⟩) :=
  Read.fixed_of_le rfl (by rw [Reader.remaining_eq]; dsimp only; omega)

/-- A complete command is found. -/
theorem nextCommand_of_fits (size : ℕ) (hsize : (rd32 ((p.add off).read 4)).toNat = size)
    (h17 : 17 ≤ size) (hfit : off + size ≤ len) :
    nextCommand ⟨p, len, off, false, seen⟩ = some
      { cmd := commandAt (p.add off) size
        params := Reader.init (p.add (off + 17)) (size - 17)
        rest := ⟨p, len, off + size, false, max seen (off + 17)⟩ } := by
  have hread {α : Type} (k n : ℕ) (zero : α) (f : Bytes → α) (h : k + n ≤ 17) :
      Read.fixed n zero f ⟨p, len, off + k, false, max seen (off + k)⟩ =
        (f (((p.add off).add k).read n), ⟨p, len, off + (k + n), false, max seen (off + (k + n))⟩) := by
    rw [fixed_at_offset zero f (by omega), Ptr.add_add, Nat.add_assoc,
      (by omega : max (max seen (off + k)) (off + (k + n)) = max seen (off + (k + n)))]
  have hhead : Read.u32 ⟨p, len, off, false, seen⟩ =
      (rd32 ((p.add off).read 4), ⟨p, len, off + 4, false, max seen (off + 4)⟩) :=
    fixed_at_offset 0 rd32 (by omega)
  have hnext : min (off + 4 + (size - 4)) len = off + size := by omega
  have hparams : min (size - 17) (len - (off + 17)) = size - 17 := by omega
  have hfits : ¬(false || decide ((rd32 ((p.add off).read 4)).toNat < 17) ||
      decide (len - (off + 4) < (rd32 ((p.add off).read 4)).toNat - 4)) = true := by
    simp only [hsize, Bool.false_or, Bool.or_eq_true, decide_eq_true_eq, not_or]
    omega
  unfold nextCommand
  rw [hhead]
  dsimp only
  rw [if_neg hfits, show Read.u32 ⟨p, len, off + 4, _, _⟩ = _ from hread 4 4 0 rd32 (by decide)]
  dsimp only
  rw [show Read.u32 ⟨p, len, off + 8, _, _⟩ = _ from hread 8 4 0 rd32 (by decide)]
  dsimp only
  rw [show Read.u16 ⟨p, len, off + 12, _, _⟩ = _ from hread 12 2 0 rd16 (by decide)]
  dsimp only
  rw [show Read.u16 ⟨p, len, off + 14, _, _⟩ = _ from hread 14 2 0 rd16 (by decide)]
  dsimp only
  rw [show Read.u8 ⟨p, len, off + 16, _, _⟩ = _ from
    hread 16 1 0 (fun bs => UInt8.ofNat (BigEndian.decode bs)) (by decide)]
  dsimp only
  rw [if_neg (by simp), hsize, hnext, hparams, ← Ptr.add_add]
  rfl

/-- An incomplete one ends the loop. -/
theorem nextCommand_of_not_fits
    (h : ¬(17 ≤ (rd32 ((p.add off).read 4)).toNat ∧
      off + (rd32 ((p.add off).read 4)).toNat ≤ len)) :
    nextCommand ⟨p, len, off, false, seen⟩ = none := by
  unfold nextCommand
  dsimp only
  rw [if_pos]
  by_cases h4 : off + 4 ≤ len
  · have hhead : Read.u32 ⟨p, len, off, false, seen⟩ =
        (rd32 ((p.add off).read 4), ⟨p, len, off + 4, false, max seen (off + 4)⟩) :=
      fixed_at_offset 0 rd32 h4
    rw [hhead]
    simp only [Bool.false_or, Bool.or_eq_true, decide_eq_true_eq]
    omega
  · have herr : (Read.u32 ⟨p, len, off, false, seen⟩).2.err = true := by
      rw [Read.u32, Read.fixed, if_pos]
      · rfl
      · simp only [Reader.remaining_eq, Bool.false_or, decide_eq_true_eq]
        omega
    rw [herr, Bool.true_or, Bool.true_or]

end Next

/-! ### Bodies -/

/-- The bytes start with `n` complete commands: each announces its size, which counts itself. -/
def HoldsCommands : ℕ → Bytes → Prop
  | 0, _ => True
  | n + 1, bs => (17 ≤ commandSize bs ∧ commandSize bs ≤ bs.length) ∧
    HoldsCommands n (bs.drop (commandSize bs))

instance decidableHoldsCommands : ∀ n bs, Decidable (HoldsCommands n bs)
  | 0, _ => inferInstanceAs (Decidable True)
  | n + 1, bs =>
    have := decidableHoldsCommands n (bs.drop (commandSize bs))
    inferInstanceAs (Decidable (_ ∧ _))

theorem commandSize_read {p : Ptr} {n : ℕ} (h : 4 ≤ n) :
    commandSize (p.read n) = (rd32 (p.read 4)).toNat := by
  rw [commandSize, Ptr.take_read p h]

/-- **The loop finds all commands announced** when the body holds that many. -/
theorem length_commands_eq_iff (n : ℕ) (p : Ptr) {len off : ℕ} (seen : ℕ) (hoff : off ≤ len) :
    (commands n ⟨p, len, off, false, seen⟩).length = n ↔
      HoldsCommands n ((p.add off).read (len - off)) := by
  induction n generalizing off seen with
  | zero => exact iff_of_true rfl trivial
  | succ n ih =>
    let size := (rd32 ((p.add off).read 4)).toNat
    by_cases hfit : 17 ≤ size ∧ off + size ≤ len
    · obtain ⟨h17, hle⟩ := hfit
      have hsize : commandSize ((p.add off).read (len - off)) = size :=
        commandSize_read (by omega)
      have hsub : len - off - size = len - (off + size) := by omega
      rw [HoldsCommands, hsize, Ptr.drop_read, Ptr.add_add, hsub, ← ih (max seen (off + 17)) hle,
        commands, nextCommand_of_fits size rfl h17 hle]
      simp only [List.length_cons, Nat.succ_inj, Ptr.length_read]
      exact ⟨fun h => ⟨⟨h17, by omega⟩, h⟩, And.right⟩
    · refine iff_of_false ?_ ?_
      · rw [commands, nextCommand_of_not_fits hfit]
        exact Nat.zero_ne_add_one n
      · rintro ⟨⟨h17, hle⟩, -⟩
        rw [Ptr.length_read] at hle
        have h4 : 4 ≤ len - off := h17.trans' (by decide) |>.trans hle
        rw [commandSize_read h4] at h17 hle
        exact hfit ⟨h17, by omega⟩

/-! ### Encoded commands -/

/-- The bytes of a command: size(4) | handle(4) | target(4) | method(2+2) | paramCount(1) |
params. -/
def Command.encode (c : Command) : Bytes :=
  wr32 (UInt32.ofNat (17 + c.params.length)) ++ (wr32 c.handle ++ (wr32 c.target ++
    (wr16 c.level ++ (wr16 c.index ++ ([c.paramCount] ++ c.params)))))

@[simp] theorem Command.length_encode (c : Command) : c.encode.length = 17 + c.params.length := by
  simp only [encode, List.length_append, length_wr32, length_wr16, List.length_singleton]
  omega

/-- The size field of the command can hold its size. -/
def Command.Encodable (c : Command) : Prop := 17 + c.params.length < 2 ^ 32

instance (c : Command) : Decidable c.Encodable := inferInstanceAs (Decidable (_ < _))

/-- The command and the reader that the loop makes of an encoded command, whatever follows it. -/
def Carries (c : Command) (q : Command × Reader) : Prop :=
  q.1 = c ∧ ∃ p : Ptr, q.2 = Reader.init p c.params.length ∧ p.read c.params.length = c.params

theorem Ptr.read_part {bs pre a x b : Bytes} (mem : Ptr) (hbs : bs = pre ++ (a ++ (x ++ b))) :
    (((ofBytes bs mem).add pre.length).add a.length).read x.length = x := by
  rw [add_add, ← List.length_append, hbs, ← List.append_assoc]
  exact read_add_ofBytes

/-- The reader the loop makes for the parameters of a command that stands at `off`. -/
def paramsReader (p : Ptr) (off : ℕ) (c : Command) : Reader :=
  Reader.init (p.add (off + 17)) c.params.length

/-- An encoded command is found and read back. -/
theorem nextCommand_encode {bs pre post : Bytes} (mem : Ptr) {c : Command} (hc : c.Encodable)
    (hbs : bs = pre ++ (c.encode ++ post)) (seen : ℕ) :
    ∃ seen', nextCommand ⟨Ptr.ofBytes bs mem, bs.length, pre.length, false, seen⟩ = some
      ⟨c, paramsReader (Ptr.ofBytes bs mem) pre.length c,
        ⟨Ptr.ofBytes bs mem, bs.length, (pre ++ c.encode).length, false, seen'⟩⟩ ∧
          Carries c (c, paramsReader (Ptr.ofBytes bs mem) pre.length c) := by
  let P := (Ptr.ofBytes bs mem).add pre.length
  let size := wr32 (UInt32.ofNat (17 + c.params.length))
  have hread (a x b : Bytes) (k n : ℕ) (hk : a.length = k) (hn : x.length = n)
      (h : c.encode = a ++ (x ++ b)) : (P.add k).read n = x := by
    subst hk hn
    exact Ptr.read_part (b := b ++ post) mem (by rw [hbs, h]; simp only [List.append_assoc])
  have hsize : (rd32 (P.read 4)).toNat = 17 + c.params.length := by
    rw [← Ptr.add_zero P, hread [] size _ 0 4 rfl (length_wr32 _) rfl, rd32_wr32,
      UInt32.toNat_ofNat_of_lt' hc]
  have hlen : pre.length + (17 + c.params.length) ≤ bs.length := by
    rw [hbs]
    simp only [List.length_append, Command.length_encode]
    omega
  have hparams : (P.add 17).read c.params.length = c.params :=
    hread (size ++ (wr32 c.handle ++ (wr32 c.target ++ (wr16 c.level ++ (wr16 c.index ++
      [c.paramCount]))))) _ [] 17 _ (by simp [size]) rfl (by simp [Command.encode, size])
  have hcmd : commandAt P (17 + c.params.length) = c := by
    have hcount : UInt8.ofNat (BigEndian.decode [c.paramCount]) = c.paramCount := by
      simp [BigEndian.decode]
    rw [commandAt, hread size (wr32 c.handle) _ 4 4 (length_wr32 _) (length_wr32 _) rfl,
      hread (size ++ wr32 c.handle) (wr32 c.target) (wr16 c.level ++ (wr16 c.index ++
        ([c.paramCount] ++ c.params))) 8 4 (by simp [size]) (length_wr32 _)
        (by simp [Command.encode, size]),
      hread (size ++ (wr32 c.handle ++ wr32 c.target)) (wr16 c.level) (wr16 c.index ++
        ([c.paramCount] ++ c.params)) 12 2 (by simp [size]) (length_wr16 _)
        (by simp [Command.encode, size]),
      hread (size ++ (wr32 c.handle ++ (wr32 c.target ++ wr16 c.level))) (wr16 c.index)
        ([c.paramCount] ++ c.params) 14 2 (by simp [size]) (length_wr16 _)
        (by simp [Command.encode, size]),
      hread (size ++ (wr32 c.handle ++ (wr32 c.target ++ (wr16 c.level ++ wr16 c.index))))
        [c.paramCount] c.params 16 1 (by simp [size]) rfl (by simp [Command.encode, size]),
      Nat.add_sub_cancel_left, hparams, hcount]
    simp only [rd32_wr32, rd16_wr16]
  have hnext : nextCommand ⟨Ptr.ofBytes bs mem, bs.length, pre.length, false, seen⟩ = _ :=
    nextCommand_of_fits _ hsize (Nat.le_add_right _ _) hlen
  rw [hcmd, Nat.add_sub_cancel_left] at hnext
  refine ⟨max seen (pre.length + 17), ?_, rfl, _, rfl, ?_⟩
  · rw [hnext, List.length_append, Command.length_encode]
    rfl
  · rw [← Ptr.add_add]
    exact hparams

/-- **Encoded commands are read back**, one after the other. -/
theorem commands_encode {bs pre post : Bytes} (mem : Ptr) {cs : List Command}
    (hcs : ∀ c ∈ cs, c.Encodable) (hbs : bs = pre ++ (cs.flatMap Command.encode ++ post))
    (seen : ℕ) : List.Forall₂ Carries cs
      (commands cs.length ⟨Ptr.ofBytes bs mem, bs.length, pre.length, false, seen⟩) := by
  induction cs generalizing pre seen with
  | nil => exact .nil
  | cons c cs ih =>
    obtain ⟨hc, hcs⟩ := List.forall_mem_cons.mp hcs
    rw [List.flatMap_cons, List.append_assoc] at hbs
    obtain ⟨seen', hnext, hq⟩ := nextCommand_encode mem hc hbs seen
    rw [List.length_cons, commands, hnext]
    exact .cons hq (ih hcs (by rw [hbs, List.append_assoc]) seen')

/-- A body that is one encoded command. -/
theorem commands_one (mem : Ptr) {c : Command} (hc : c.Encodable) :
    commands 1 (Reader.init (Ptr.ofBytes c.encode mem) c.encode.length) =
      [(c, paramsReader (Ptr.ofBytes c.encode mem) 0 c)] := by
  have hbs : c.encode = [] ++ (c.encode ++ []) := by rw [List.nil_append, List.append_nil]
  obtain ⟨seen', hnext, -⟩ := nextCommand_encode mem hc hbs 0
  have hone : nextCommand (Reader.init (Ptr.ofBytes c.encode mem) c.encode.length) = _ := hnext
  rw [commands, hone]
  rfl

end Aes70
