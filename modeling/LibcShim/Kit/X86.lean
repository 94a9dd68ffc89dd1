import LibcShim.Kit.Bytes

/-! A machine with 32-bit registers: the moves, the arithmetic and the stack of x86, and calls of
compiled functions that keep the calling convention. -/

namespace LibcShim.Kit.X86

inductive Reg where
  | eax | ebx | ecx | edx | esp | ebp | esi | edi
  deriving DecidableEq

abbrev Word := BitVec 32

structure Machine where
  reg : Reg → Word
  zf : Bool
  mem : Bytes

/-- The word in memory at an address. -/
def read (m : Bytes) (a : Nat) : Word := BitVec.ofNat 32 (m.loadWord a 4)

def write (m : Bytes) (a : Nat) (v : Word) : Bytes := m.storeWord a 4 v.toNat

inductive Operand where
  | imm (v : Word)
  | reg (r : Reg)
  | mem (disp : Word) (base : Reg)

/-- The operands stand in the order of the assembler: source, destination. -/
inductive Instr where
  | movl (src dst : Operand)
  | addl (src dst : Operand)
  | subl (src dst : Operand)
  | xorl (src dst : Operand)
  | andl (src dst : Operand)
  | testl (src dst : Operand)
  | leal (src : Operand) (dst : Reg)
  | incl (dst : Operand)
  | pushl (src : Operand)
  | popl (dst : Reg)

namespace Machine

def set (m : Machine) (r : Reg) (v : Word) : Machine :=
  { m with reg := fun r' => if r' = r then v else m.reg r' }

def address (m : Machine) : Operand → Word
  | .imm v => v
  | .reg r => m.reg r
  | .mem disp base => m.reg base + disp

def value (m : Machine) : Operand → Word
  | .imm v => v
  | .reg r => m.reg r
  | .mem disp base => read m.mem (m.reg base + disp).toNat

def assign (m : Machine) (v : Word) : Operand → Machine
  | .imm _ => m
  | .reg r => m.set r v
  | .mem disp base => { m with mem := write m.mem (m.reg base + disp).toNat v }

/-- The result of an operation, with the zero flag that it leaves. -/
def result (m : Machine) (v : Word) (dst : Operand) : Machine :=
  { m.assign v dst with zf := v == 0 }

def push (m : Machine) (v : Word) : Machine :=
  { m.set .esp (m.reg .esp - 4) with mem := write m.mem (m.reg .esp - 4).toNat v }

def step (m : Machine) : Instr → Machine
  | .movl src dst => m.assign (m.value src) dst
  | .addl src dst => m.result (m.value dst + m.value src) dst
  | .subl src dst => m.result (m.value dst - m.value src) dst
  | .xorl src dst => m.result (m.value dst ^^^ m.value src) dst
  | .andl src dst => m.result (m.value dst &&& m.value src) dst
  | .testl src dst => { m with zf := (m.value dst &&& m.value src) == 0 }
  | .leal src dst => m.set dst (m.address src)
  | .incl dst => m.result (m.value dst + 1) dst
  | .pushl src => m.push (m.value src)
  | .popl dst => (m.set .esp (m.reg .esp + 4)).set dst (read m.mem (m.reg .esp).toNat)

/-- A block of instructions without a jump. -/
def block (m : Machine) : List Instr → Machine
  | [] => m
  | i :: is => (m.step i).block is

end Machine

/-- What a compiled function leaves in the registers that it need not keep, and in its own frame:
the `depth` bytes below its arguments. -/
structure Scratch where
  ecx : Word
  edx : Word
  zf : Bool
  depth : Nat
  bytes : Bytes

/-- The addresses from `lo` up to `hi` hold whatever a called function left there. -/
def scribble (m : Bytes) (lo hi : Nat) (bytes : Bytes) : Bytes :=
  fun a => if lo ≤ a ∧ a < hi then bytes a else m a

/-- A call of a compiled function has returned: its result is in `eax`, the registers that the
convention names are kept, and it owned its frame and the words of its arguments. -/
def Machine.called (m : Machine) (k : Scratch) (args : Nat) (result : Word) : Machine :=
  { reg := fun
      | .eax => result
      | .ecx => k.ecx
      | .edx => k.edx
      | r => m.reg r
    zf := k.zf
    mem := scribble m.mem ((m.reg .esp).toNat - k.depth) ((m.reg .esp).toNat + 4 * args) k.bytes }

theorem Machine.called_reg {m : Machine} {k : Scratch} {args : Nat} {result : Word} {r : Reg}
    (hEax : r ≠ .eax) (hEcx : r ≠ .ecx) (hEdx : r ≠ .edx) :
    (m.called k args result).reg r = m.reg r := by
  cases r <;> first | rfl | contradiction

theorem Machine.block_append (m : Machine) (is js : List Instr) :
    m.block (is ++ js) = (m.block is).block js := by
  induction is generalizing m with
  | nil => rfl
  | cons i is ih => exact ih (m.step i)

theorem Machine.set_reg (m : Machine) (r : Reg) : m.set r (m.reg r) = m := by
  have hReg : (fun r' => if r' = r then m.reg r else m.reg r') = m.reg := by
    funext r'
    split
    · rename_i hr
      rw [hr]
    · rfl
  rw [Machine.set, hReg]

theorem Machine.set_set (m : Machine) (r : Reg) (v w : Word) : (m.set r v).set r w = m.set r w := by
  simp only [Machine.set]
  congr 1
  funext r'
  split <;> rfl

/-! ### Words -/

theorem xor_xor_same (x y : Word) : x ^^^ y ^^^ y = x := by
  rw [BitVec.xor_assoc, BitVec.xor_self]
  exact BitVec.xor_zero

/-! A sum with exclusive or tells one changed term. -/

theorem foldl_xor_iff {is : List Nat} {f g : Nat → Word} {x y : Word}
    (h : ∀ j ∈ is, f j = g j) :
    is.foldl (fun x j => x ^^^ f j) x = is.foldl (fun x j => x ^^^ g j) y ↔ x = y := by
  induction is generalizing x y with
  | nil => exact Iff.rfl
  | cons j is ih =>
    obtain ⟨hj, hRest⟩ := List.forall_mem_cons.mp h
    rw [List.foldl_cons, List.foldl_cons, ih hRest, hj]
    exact BitVec.xor_left_inj _

theorem foldl_xor_ne {is : List Nat} {f g : Nat → Word} {i : Nat} {x : Word} (hNodup : is.Nodup)
    (hi : i ∈ is) (hNe : f i ≠ g i) (hOther : ∀ j ∈ is, j ≠ i → f j = g j) :
    is.foldl (fun x j => x ^^^ f j) x ≠ is.foldl (fun x j => x ^^^ g j) x := by
  induction is generalizing x with
  | nil => contradiction
  | cons j is ih =>
    obtain ⟨hNotMem, hNodup⟩ := List.nodup_cons.mp hNodup
    obtain ⟨hj, hRest⟩ := List.forall_mem_cons.mp hOther
    by_cases hji : j = i
    · subst hji
      have hSame : ∀ k ∈ is, f k = g k := fun k hk => hRest k hk fun h => hNotMem (h ▸ hk)
      rw [List.foldl_cons, List.foldl_cons, Ne, foldl_xor_iff hSame]
      exact fun h => hNe ((BitVec.xor_right_inj _).mp h)
    · rw [List.foldl_cons, List.foldl_cons, hj hji]
      exact ih hNodup ((List.mem_cons.mp hi).resolve_left (Ne.symm hji)) hRest

theorem and_not_one {x : Word} (h : x &&& 1 = 0) : x &&& ~~~1 = x := by
  have hSplit : x &&& (1 ||| ~~~1) = x := BitVec.and_allOnes
  rw [BitVec.and_or_distrib_left, h] at hSplit
  exact BitVec.zero_or.symm.trans hSplit

theorem and_one {x : Word} (h : x &&& ~~~1 = 0) : x &&& 1 = x := by
  have hSplit : x &&& (1 ||| ~~~1) = x := BitVec.and_allOnes
  rw [BitVec.and_or_distrib_left, h] at hSplit
  exact BitVec.or_zero.symm.trans hSplit

theorem eq_zero_or_one {x : Word} (h : x &&& ~~~1 = 0) : x = 0 ∨ x = 1 := by
  have hMod : x.toNat % 2 = x.toNat := by
    have hOne := congrArg BitVec.toNat (and_one h)
    rwa [BitVec.toNat_and, show BitVec.toNat (1 : Word) = 2 ^ 1 - 1 from rfl,
      Nat.and_two_pow_sub_one_eq_mod] at hOne
  rcases Nat.mod_two_eq_zero_or_one x.toNat with hZero | hOne
  · exact Or.inl (BitVec.eq_of_toNat_eq (hMod.symm.trans hZero))
  · exact Or.inr (BitVec.eq_of_toNat_eq (hMod.symm.trans hOne))

theorem sub_sub_word (x a b : Word) : x - a - b = x - (a + b) := BitVec.sub_sub ..

theorem sub_add_word (x a b : Word) : x - a + b = x - (a - b) := by bv_omega

theorem toNat_add_ofNat {x : Word} {n : Nat} (h : x.toNat + n < 4294967296) :
    (x + BitVec.ofNat 32 n).toNat = x.toNat + n := by
  rw [BitVec.toNat_add, BitVec.toNat_ofNat, Nat.mod_eq_of_lt (a := n) (by omega),
    Nat.mod_eq_of_lt h]

theorem toNat_sub_ofNat {x : Word} {n : Nat} (h : n ≤ x.toNat) :
    (x - BitVec.ofNat 32 n).toNat = x.toNat - n := by
  have hx := x.isLt
  have hn : (BitVec.ofNat 32 n).toNat = n := by
    rw [BitVec.toNat_ofNat, Nat.mod_eq_of_lt (by omega)]
  rw [BitVec.toNat_sub_of_le (by rw [BitVec.le_def, hn]; exact h), hn]

/-! ### Words in memory -/

theorem read_write {m : Bytes} {a : Nat} {v : Word} : read (write m a v) a = v := by
  rw [read, write, Bytes.loadWord_storeWord (by simpa using v.isLt)]
  simp

theorem read_storeWord {m : Bytes} {a b n v : Nat} (h : a + 4 ≤ b ∨ b + n ≤ a) :
    read (m.storeWord b n v) a = read m a := by
  rw [read, Bytes.loadWord_storeWord_disjoint h, read]

theorem read_write_disjoint {m : Bytes} {a b : Nat} {v : Word} (h : a + 4 ≤ b ∨ b + 4 ≤ a) :
    read (write m b v) a = read m a := read_storeWord h

theorem read_scribble {m bytes : Bytes} {a lo hi : Nat} (h : a + 4 ≤ lo ∨ hi ≤ a) :
    read (scribble m lo hi bytes) a = read m a :=
  congrArg _ (Bytes.loadWord_congr fun k _ _ => if_neg (by omega))

/-- The memories agree outside the addresses from `lo` up to `hi`. -/
def Agree (lo hi : Nat) (m m' : Bytes) : Prop := ∀ a, a < lo ∨ hi ≤ a → m' a = m a

theorem Agree.refl (lo hi : Nat) (m : Bytes) : Agree lo hi m m := fun _ _ => rfl

theorem Agree.trans {lo hi : Nat} {m m' m'' : Bytes} (h : Agree lo hi m m')
    (h' : Agree lo hi m' m'') : Agree lo hi m m'' := fun a ha => (h' a ha).trans (h a ha)

theorem Agree.mono {lo hi lo' hi' : Nat} {m m' : Bytes} (h : Agree lo hi m m') (hLow : lo' ≤ lo)
    (hHigh : hi ≤ hi') : Agree lo' hi' m m' := fun a _ => h a (by omega)

theorem Agree.write {lo hi a : Nat} {m m' : Bytes} {v : Word} (h : Agree lo hi m m')
    (hLow : lo ≤ a) (hHigh : a + 4 ≤ hi) : Agree lo hi m (write m' a v) := fun b hb =>
  (Bytes.storeWord_outside (by omega)).trans (h b hb)

theorem Agree.scribble {lo hi a b : Nat} {m m' bytes : Bytes} (h : Agree lo hi m m')
    (hLow : lo ≤ a) (hHigh : b ≤ hi) : Agree lo hi m (scribble m' a b bytes) := fun c hc =>
  (if_neg (by omega)).trans (h c hc)

theorem Agree.read {lo hi a : Nat} {m m' : Bytes} (h : Agree lo hi m m')
    (ha : a + 4 ≤ lo ∨ hi ≤ a) : read m' a = read m a := by
  rw [X86.read, X86.read, Bytes.loadWord_congr fun k _ _ => h k (by omega)]

/-- The words of a list, one behind the other from `a` on. -/
def writeAll (m : Bytes) (a : Nat) : List Word → Bytes
  | [] => m
  | v :: vs => writeAll (write m a v) (a + 4) vs

theorem writeAll_outside {m : Bytes} {a b : Nat} {vs : List Word}
    (h : b < a ∨ a + vs.length * 4 ≤ b) : writeAll m a vs b = m b := by
  induction vs generalizing m a with
  | nil => rfl
  | cons v vs ih =>
    rw [List.length_cons] at h
    rw [writeAll, ih (by omega)]
    exact Bytes.storeWord_outside (by omega)

theorem read_writeAll_disjoint {m : Bytes} {a b : Nat} {vs : List Word}
    (h : b + 4 ≤ a ∨ a + vs.length * 4 ≤ b) : read (writeAll m a vs) b = read m b :=
  congrArg _ (Bytes.loadWord_congr fun k _ _ => writeAll_outside (by omega))

theorem read_writeAll {m : Bytes} {a i : Nat} {vs : List Word} (h : i < vs.length) :
    read (writeAll m a vs) (a + i * 4) = vs[i] := by
  induction vs generalizing m a i with
  | nil => contradiction
  | cons v vs ih =>
    cases i with
    | zero =>
      rw [writeAll, read_writeAll_disjoint (by omega), Nat.zero_mul, Nat.add_zero, read_write]
      rfl
    | succ i =>
      rw [writeAll, show a + (i + 1) * 4 = a + 4 + i * 4 by omega]
      exact ih (by simpa using h)

end LibcShim.Kit.X86
