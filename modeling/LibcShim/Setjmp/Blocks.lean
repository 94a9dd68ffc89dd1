import LibcShim.Setjmp

/-! What the blocks of `setjmp` and `longjmp` leave in the registers, on the stack and in the
buffer. -/

namespace LibcShim.Setjmp

open Kit Kit.X86

variable {host : HostSignals}

theorem value_at4 {m : Machine} {i : Nat} {base : Reg}
    (h : (m.reg base).toNat + i * 4 < 4294967296) :
    m.value (at4 i base) = read m.mem ((m.reg base).toNat + i * 4) := by
  rw [at4, Machine.value, toNat_add_ofNat h]

theorem assign_at4 {m : Machine} {i : Nat} {base : Reg} {v : Word}
    (h : (m.reg base).toNat + i * 4 < 4294967296) :
    m.assign v (at4 i base) = { m with mem := write m.mem ((m.reg base).toNat + i * 4) v } := by
  rw [at4, Machine.assign, toNat_add_ofNat h]

/-- The registers that a `jmp_buf` holds. -/
def mangled : List Reg := [.edx, .ebx, .esp, .ebp, .esi, .edi]

theorem mangleRegisters_spec (m : Machine) {reg : Reg} (h : reg ∉ mangled) :
    m.block (mangleRegisters reg) =
      { m with
        reg := fun r => if r ∈ mangled then m.reg r ^^^ m.reg reg else m.reg r
        zf := m.reg .edi ^^^ m.reg reg == 0 } := by
  have hNot : ∀ r ∈ mangled, reg ≠ r := fun r hr hEq => h (hEq ▸ hr)
  simp only [mangled, List.forall_mem_cons] at hNot
  simp only [mangleRegisters, Machine.block, Machine.step, Machine.value, Machine.result,
    Machine.assign, Machine.set, hNot, reduceCtorEq, if_false]
  congr 1
  funext r
  cases r <;> rfl

/-- The exclusive or of the words of the registers. -/
def checksum (mem : Bytes) (env : Nat) : Word :=
  [jbEdx, jbEbx, jbEsp, jbEbp, jbEsi, jbEdi].foldl (fun x i => x ^^^ read mem (env + i * 4)) 0

theorem xorl_block {m : Machine} {dst src : Reg} (h : src ≠ dst) (is : List Nat)
    (hFits : ∀ i ∈ is, (m.reg src).toNat + i * 4 < 4294967296) :
    ∃ zf, m.block (is.map fun i => .xorl (at4 i src) (.reg dst)) =
      { m.set dst (is.foldl (fun x i => x ^^^ read m.mem ((m.reg src).toNat + i * 4)) (m.reg dst))
        with zf } := by
  induction is generalizing m with
  | nil => exact ⟨m.zf, (m.set_reg dst).symm⟩
  | cons i is ih =>
    obtain ⟨hi, hRest⟩ := List.forall_mem_cons.mp hFits
    have hStep : m.step (.xorl (at4 i src) (.reg dst)) =
        m.result (m.reg dst ^^^ read m.mem ((m.reg src).toNat + i * 4)) (.reg dst) := by
      rw [Machine.step, value_at4 hi, Machine.value]
    have hSrc : (m.step (.xorl (at4 i src) (.reg dst))).reg src = m.reg src := by
      rw [hStep]
      exact if_neg h
    obtain ⟨zf, hBlock⟩ := ih (m := m.step (.xorl (at4 i src) (.reg dst))) (by rwa [hSrc])
    refine ⟨zf, ?_⟩
    rw [List.map_cons, Machine.block, hBlock, hSrc, hStep, List.foldl_cons]
    simp only [Machine.result, Machine.assign, Machine.set, if_true]
    congr 1
    funext r
    split <;> rfl

theorem calculateChecksum_spec {m : Machine} {dst src : Reg} (h : src ≠ dst)
    (hFits : (m.reg src).toNat + 40 ≤ 4294967296) :
    ∃ zf, m.block (calculateChecksum dst src) =
      { m.set dst (checksum m.mem (m.reg src).toNat) with zf } := by
  have hSrc : (m.set dst 0).reg src = m.reg src := if_neg h
  have hIs : ∀ i ∈ [0, 1, 2, 3, 4, 5], ((m.set dst 0).reg src).toNat + i * 4 < 4294967296 := by
    intro i hi
    have hLe : i ≤ 5 := by simp at hi; omega
    rw [hSrc]
    omega
  obtain ⟨zf, hBlock⟩ := xorl_block h _ hIs
  refine ⟨zf, hBlock.trans ?_⟩
  rw [hSrc, show (m.set dst 0).reg dst = 0 from if_pos rfl, Machine.set_set]
  rfl

theorem cookieGet_spec (m : Machine) (k : Scratch) (label cookie : Word)
    (hRoom : 12 + k.depth ≤ (m.reg .esp).toNat)
    (hEnv : (m.reg .ecx).toNat + 40 ≤ 4294967296) :
    let m₁ := m.block (cookieGetArgs label)
    let m₂ := (m₁.called k 1 cookie).block cookieGetDone
    read m₁.mem (m₁.reg .esp).toNat = m.reg .eax ∧
      (∀ r, r ≠ .eax → r ≠ .edx → m₂.reg r = m.reg r) ∧ m₂.reg .eax = cookie ∧
      m₂.zf = (cookie &&& 1 == 0) ∧
      ∃ mem, Agree ((m.reg .esp).toNat - 12 - k.depth) (m.reg .esp).toNat m.mem mem ∧
        m₂.mem = write mem ((m.reg .ecx).toNat + jbSigflag * 4) cookie := by
  intro m₁ m₂
  simp only [m₁, m₂, Machine.block, Machine.step, cookieGetArgs, cookieGetDone,
    picPrologue, picEpilogue, List.cons_append, List.nil_append, Machine.push, Machine.set,
    Machine.assign, Machine.value, Machine.result, Machine.called, at4, reduceCtorEq, if_true,
    if_false, sub_sub_word, sub_add_word, BitVec.reduceAdd, BitVec.reduceSub, BitVec.sub_zero,
    jbSigflag, BitVec.ofNat_eq_ofNat, Nat.reduceMul]
  refine ⟨read_write, fun r hEax hEdx => ?_, trivial, trivial, ?_⟩
  · cases r
    · contradiction
    all_goals simp (disch := omega) only [reduceCtorEq, if_true, if_false, toNat_sub_ofNat,
      read_scribble, read_write_disjoint, read_write]
    contradiction
  · simp (disch := omega) only [toNat_sub_ofNat, read_scribble, read_write_disjoint, read_write,
      toNat_add_ofNat]
    refine ⟨_, Agree.scribble (.write (.write (.write (.write (.refl _ _ _) ?_ ?_) ?_ ?_) ?_ ?_)
      ?_ ?_) ?_ ?_, rfl⟩ <;> omega

theorem saveMaskArgs_spec (m : Machine) (label : Word) (hRoom : 28 ≤ (m.reg .esp).toNat) :
    let m' := m.block (saveMaskArgs label)
    let esp := (m.reg .esp).toNat - 28
    m'.reg .esp = m.reg .esp - 28 ∧
      (∀ r, r ≠ .eax → r ≠ .ebx → r ≠ .esp → m'.reg r = m.reg r) ∧
      read m'.mem esp = 2 ∧ read m'.mem (esp + 4) = 0 ∧
      read m'.mem (esp + 8) = m.reg .ecx + 24 ∧ read m'.mem (esp + 20) = m.reg .ebx ∧
      read m'.mem (esp + 24) = m.reg .ecx ∧ Agree esp (m.reg .esp).toNat m.mem m'.mem := by
  intro m' esp
  simp only [m', esp, Machine.block, Machine.step, saveMaskArgs, picPrologue,
    List.cons_append, List.nil_append, Machine.push, Machine.set, Machine.assign, Machine.value,
    Machine.address, Machine.result, at4, reduceCtorEq, if_true, if_false, sub_sub_word,
    sub_add_word, BitVec.reduceAdd, BitVec.reduceSub, jbSigmask, BitVec.ofNat_eq_ofNat,
    Nat.reduceMul]
  refine ⟨trivial, fun r hEax hEbx hEsp => ?_, ?_⟩
  · simp only [hEax, hEbx, hEsp, if_false]
  simp (disch := omega) only [toNat_sub_ofNat]
  generalize (m.reg .esp).toNat = S at hRoom ⊢
  obtain ⟨S, rfl⟩ := Nat.exists_eq_add_of_le' hRoom
  simp only [Nat.reduceSubDiff, Nat.add_sub_cancel]
  refine ⟨read_write, ?_, ?_, ?_, ?_, ?_⟩
  rotate_right
  · refine .write (.write (.write (.write (.write (.write (.refl _ _ _) ?_ ?_) ?_ ?_) ?_ ?_)
      ?_ ?_) ?_ ?_) ?_ ?_ <;> omega
  all_goals simp (disch := omega) only [read_write_disjoint, read_write]

theorem saveMaskDone_spec {m : Machine} (hRoom : (m.reg .esp).toNat + 28 < 4294967296) :
    let m' := m.block saveMaskDone
    let esp := (m.reg .esp).toNat
    m'.reg .esp = m.reg .esp + 28 ∧ m'.reg .ebx = read m.mem (esp + 20) ∧
      m'.reg .ecx = read m.mem (esp + 24) ∧
      (∀ r, r ≠ .ebx → r ≠ .ecx → r ≠ .esp → m'.reg r = m.reg r) ∧ m'.mem = m.mem := by
  intro m' esp
  simp only [m', esp, Machine.block, Machine.step, saveMaskDone, picEpilogue, List.cons_append,
    List.nil_append, Machine.set, Machine.assign, Machine.value, Machine.result, reduceCtorEq,
    if_true, if_false, BitVec.add_assoc, BitVec.reduceAdd, BitVec.ofNat_eq_ofNat]
  rw [toNat_add_ofNat (by omega), toNat_add_ofNat (by omega)]
  refine ⟨trivial, rfl, rfl, fun r hEbx hEcx hEsp => ?_, trivial⟩
  simp only [hEbx, hEcx, hEsp, if_false]

theorem saveMaskCall_spec (m : Machine) (k : Scratch) (label : Word) (p : Process host)
    (hRoom : 28 + k.depth ≤ (m.reg .esp).toNat)
    (hEnv : (m.reg .ecx).toNat + 40 ≤ 4294967296)
    (hApart : (m.reg .ecx).toNat + 40 ≤ (m.reg .esp).toNat - 28 - k.depth ∨
      (m.reg .esp).toNat ≤ (m.reg .ecx).toNat) :
    ∃ m₁, sigprocmask k (m.block (saveMaskArgs label)) p = (m₁, p) ∧
      (∀ r, r ≠ .eax → r ≠ .edx → (m₁.block saveMaskDone).reg r = m.reg r) ∧
      ∃ mem, Agree ((m.reg .esp).toNat - 28 - k.depth) (m.reg .esp).toNat m.mem mem ∧
        (m₁.block saveMaskDone).mem =
          mem.storeWord ((m.reg .ecx).toNat + jbSigmask * 4) host.size p.mask.toNat := by
  have hSize := host.fits
  obtain ⟨hEsp, hRegs, hHow, hSet, hOld, hEbx, hEcx, hAgree⟩ :=
    saveMaskArgs_spec m label (by omega)
  generalize m.block (saveMaskArgs label) = m₀ at *
  have hLt := (m.reg .esp).isLt
  have hTop : (m₀.reg .esp).toNat = (m.reg .esp).toNat - 28 := by
    rw [hEsp]
    exact toNat_sub_ofNat (n := 28) (by omega)
  have hMask : (m.reg .ecx + 24).toNat = (m.reg .ecx).toNat + jbSigmask * 4 :=
    toNat_add_ofNat (n := 24) (by omega)
  have hNonzero : m.reg .ecx + 24 ≠ 0 := by
    intro hZero
    rw [hZero] at hMask
    simp [jbSigmask] at hMask
  rw [← hTop] at hSet hOld hEbx hEcx
  simp only [sigprocmask, hSet, hOld, if_true, hNonzero, if_false, hMask]
  refine ⟨_, rfl, ?_⟩
  generalize hm₁ : (⟨_, _, _⟩ : Machine) = m₁
  have hReads : ∀ i, 12 ≤ i → i + 4 ≤ 28 →
      read m₁.mem ((m₁.reg .esp).toNat + i) = read m₀.mem ((m₀.reg .esp).toNat + i) := by
    intro i hLow hHigh
    rw [← hm₁]
    show read (Bytes.storeWord _ _ _ _) ((m₀.reg .esp).toNat + i) = _
    rw [read_storeWord (by simp only [jbSigmask]; omega)]
    exact read_scribble (by omega)
  have hSame : ∀ r, r ≠ .eax → r ≠ .ecx → r ≠ .edx → m₁.reg r = m₀.reg r := by
    intro r hEax hEcx hEdx
    rw [← hm₁]
    show (m₀.called k 3 0).reg r = m₀.reg r
    exact Machine.called_reg hEax hEcx hEdx
  obtain ⟨hEsp', hEbx', hEcx', hRest, hMem⟩ := saveMaskDone_spec (m := m₁) (by
    rw [hSame .esp (by decide) (by decide) (by decide)]
    omega)
  refine ⟨fun r hEax hEdx => ?_, ?_⟩
  · cases r with
    | eax => contradiction
    | edx => contradiction
    | ebx => rw [hEbx', hReads 20 (by decide) (by decide), hEbx]
    | ecx => rw [hEcx', hReads 24 (by decide) (by decide), hEcx]
    | esp =>
      rw [hEsp', hSame .esp (by decide) (by decide) (by decide), hEsp]
      exact BitVec.sub_add_cancel ..
    | _ =>
      rw [hRest _ (by decide) (by decide) (by decide),
        hSame _ (by decide) (by decide) (by decide), hRegs _ (by decide) (by decide) (by decide)]
  · rw [hMem, ← hm₁]
    refine ⟨_, ?_, rfl⟩
    exact (hAgree.mono (by omega) (Nat.le_refl _)).scribble (by omega) (by omega)

/-- The place that a jump goes back to: the address behind the call of `setjmp`, its stack, and the
signal mask if it was asked for. -/
structure Context (host : HostSignals) where
  pc : Word
  ebx : Word
  esp : Word
  ebp : Word
  esi : Word
  edi : Word
  mask : Option host.Sigset

def Context.words (c : Context host) : List Word := [c.pc, c.ebx, c.esp, c.ebp, c.esi, c.edi]

def Context.flag (c : Context host) : Word := if c.mask.isSome then 1 else 0

/-- The buffer at `env` holds a context, mangled by the cookie. -/
structure Holds (mem : Bytes) (env : Nat) (cookie : Word) (c : Context host) : Prop where
  words : ∀ i (h : i < c.words.length), read mem (env + i * 4) = c.words[i] ^^^ cookie
  mask : ∀ set, c.mask = some set → mem.loadWord (env + jbSigmask * 4) host.size = set.toNat
  sigflag : read mem (env + jbSigflag * 4) = cookie ||| c.flag
  checksum : read mem (env + jbChecksum * 4) = checksum mem env

theorem loadCookie_spec {m : Machine} (hEnv : (m.reg .ecx).toNat + 40 ≤ 4294967296)
    (hEsp : (m.reg .esp).toNat + 4 ≤ 4294967296) :
    let m' := m.block [.movl (at4 jbSigflag .ecx) (.reg .eax), .andl (.imm (-2)) (.reg .eax),
      .movl (at4 0 .esp) (.reg .edx)]
    m'.reg .eax = read m.mem ((m.reg .ecx).toNat + jbSigflag * 4) &&& -2 ∧
      m'.reg .edx = read m.mem (m.reg .esp).toNat ∧
      (∀ r, r ≠ .eax → r ≠ .edx → m'.reg r = m.reg r) ∧ m'.mem = m.mem := by
  intro m'
  simp only [m', at4, Machine.block, Machine.step, Machine.assign, Machine.set, Machine.value,
    Machine.result, if_true, reduceCtorEq, if_false]
  rw [toNat_add_ofNat (by simp only [jbSigflag]; omega), toNat_add_ofNat (by omega)]
  refine ⟨rfl, rfl, fun r hEax hEdx => ?_, trivial⟩
  simp only [hEax, hEdx, if_false]

theorem storeWords_spec {m : Machine} (hEnv : (m.reg .ecx).toNat + 40 ≤ 4294967296) :
    m.block [.movl (.reg .edx) (at4 jbEdx .ecx), .movl (.reg .ebx) (at4 jbEbx .ecx),
      .movl (.reg .esp) (at4 jbEsp .ecx), .movl (.reg .ebp) (at4 jbEbp .ecx),
      .movl (.reg .esi) (at4 jbEsi .ecx), .movl (.reg .edi) (at4 jbEdi .ecx)] =
      { m with mem := writeAll m.mem (m.reg .ecx).toNat (mangled.map m.reg) } := by
  simp (disch := omega) only [Machine.block, Machine.step, at4, Machine.assign, Machine.value,
    toNat_add_ofNat, jbEdx, jbEbx, jbEsp, jbEbp, jbEsi, jbEdi, Nat.reduceMul]
  rfl

theorem saveRegisters_spec {m : Machine} (hEnv : (m.reg .ecx).toNat + 40 ≤ 4294967296)
    (hEsp : (m.reg .esp).toNat + 4 ≤ 4294967296) :
    let m' := m.block saveRegisters
    let env := (m.reg .ecx).toNat
    let cookie := read m.mem (env + jbSigflag * 4) &&& -2
    let mem := writeAll m.mem env ([read m.mem (m.reg .esp).toNat, m.reg .ebx, m.reg .esp,
      m.reg .ebp, m.reg .esi, m.reg .edi].map (· ^^^ cookie))
    m'.reg .eax = 0 ∧ (∀ r, r ≠ .eax → r ≠ .edx → m'.reg r = m.reg r) ∧
      m'.mem = write mem (env + jbChecksum * 4) (checksum mem env) := by
  intro m' env cookie mem
  obtain ⟨hCookie, hPc, hRest, hMem⟩ := loadCookie_spec hEnv hEsp
  simp only [m', saveRegisters, Machine.block_append]
  generalize m.block [.movl (at4 jbSigflag .ecx) (.reg .eax), .andl (.imm (-2)) (.reg .eax),
    .movl (at4 0 .esp) (.reg .edx)] = m₁ at *
  rw [mangleRegisters_spec m₁ (show Reg.eax ∉ mangled by decide)]
  generalize hm₂ : ({ m₁ with reg := _, zf := _ } : Machine) = m₂
  have hReg : ∀ r, m₂.reg r = if r ∈ mangled then m₁.reg r ^^^ cookie else m₁.reg r := by
    intro r
    rw [← hm₂]
    show (if r ∈ mangled then m₁.reg r ^^^ m₁.reg .eax else m₁.reg r) = _
    rw [hCookie]
  have hEcx : m₂.reg .ecx = m.reg .ecx := (hReg .ecx).trans (hRest .ecx (by decide) (by decide))
  have hWords : mangled.map m₂.reg = [read m.mem (m.reg .esp).toNat, m.reg .ebx, m.reg .esp,
      m.reg .ebp, m.reg .esi, m.reg .edi].map (· ^^^ cookie) := by
    have hSaved : ∀ r, r ∈ mangled → r ≠ .edx → m₂.reg r = m.reg r ^^^ cookie := by
      intro r hMem hEdx
      rw [hReg, if_pos hMem, hRest r (by rintro rfl; contradiction) hEdx]
    have hEdx : m₂.reg .edx = read m.mem (m.reg .esp).toNat ^^^ cookie := by
      rw [hReg, if_pos (by decide), hPc]
    simp only [mangled, List.map, hEdx, hSaved .ebx (by decide) (by decide),
      hSaved .esp (by decide) (by decide), hSaved .ebp (by decide) (by decide),
      hSaved .esi (by decide) (by decide), hSaved .edi (by decide) (by decide)]
  have hMem₂ : m₂.mem = m.mem := by rw [← hm₂, hMem]
  rw [storeWords_spec (by rw [hEcx]; exact hEnv), hEcx, hWords, hMem₂,
    mangleRegisters_spec _ (show Reg.eax ∉ mangled by decide)]
  generalize hm₃ : ({ m₂ with mem := _, reg := _, zf := _ } : Machine) = m₃
  have hCookie₂ : m₂.reg .eax = cookie := (hReg .eax).trans hCookie
  have hBack : ∀ r, r ≠ .eax → r ≠ .edx → m₃.reg r = m.reg r := by
    intro r hEax hEdx
    rw [← hm₃]
    show (if r ∈ mangled then m₂.reg r ^^^ m₂.reg .eax else m₂.reg r) = _
    rw [hReg r, hRest r hEax hEdx, hCookie₂]
    split
    · exact xor_xor_same _ _
    · rfl
  have hMem₃ : m₃.mem = mem := by rw [← hm₃]
  have hEcx₃ := hBack .ecx (by decide) (by decide)
  obtain ⟨zf, hChecksum⟩ := calculateChecksum_spec (m := m₃) (show Reg.ecx ≠ .eax by decide)
    (by rw [hEcx₃]; exact hEnv)
  rw [hChecksum, hEcx₃, hMem₃]
  simp only [Machine.block, Machine.step, Machine.value, Machine.result]
  rw [assign_at4 (by
    show (m₃.reg .ecx).toNat + jbChecksum * 4 < 4294967296
    rw [hEcx₃]
    simp only [jbChecksum]
    omega)]
  refine ⟨BitVec.xor_self, fun r hEax hEdx => ?_, ?_⟩
  · simp only [Machine.assign, Machine.set, hEax, if_false]
    exact hBack r hEax hEdx
  · simp only [Machine.assign, Machine.set, reduceCtorEq, if_false, if_true, hEcx₃, hMem₃]
    rfl

/-! ### `siglongjmp` -/

/-- The words of the registers, as they leave a buffer with this word for the flag. -/
def unmangled (mem : Bytes) (env i : Nat) : Word :=
  read mem (env + jbSigflag * 4) &&& -2 ^^^ read mem (env + i * 4)

theorem checkChecksum_spec {m : Machine} {env : Word}
    (hEnv : read m.mem ((m.reg .esp).toNat + 4) = env) (hFits : env.toNat + 40 ≤ 4294967296)
    (hEsp : (m.reg .esp).toNat + 12 ≤ 4294967296) :
    let m' := m.block checkChecksum
    m'.reg .edx = env ∧ (∀ r, r ≠ .eax → r ≠ .edx → m'.reg r = m.reg r) ∧ m'.mem = m.mem ∧
      (m'.zf ↔ checksum m.mem env.toNat = read m.mem (env.toNat + jbChecksum * 4)) := by
  intro m'
  have hArg : m.block [.movl (at4 1 .esp) (.reg .edx)] = m.set .edx env := by
    simp only [Machine.block, Machine.step, Machine.assign]
    rw [value_at4 (by omega), hEnv]
  obtain ⟨zf, hChecksum⟩ := calculateChecksum_spec (m := m.set .edx env)
    (show Reg.edx ≠ .eax by decide) hFits
  simp only [m', checkChecksum, Machine.block_append, hArg, hChecksum]
  simp only [Machine.block, Machine.step, Machine.result, Machine.assign]
  rw [value_at4 (by
    show env.toNat + jbChecksum * 4 < 4294967296
    simp only [jbChecksum]
    omega)]
  refine ⟨rfl, fun r hEax hEdx => ?_, rfl, ?_⟩
  · simp only [Machine.set, hEax, hEdx, if_false]
  · show (checksum m.mem env.toNat ^^^ read m.mem (env.toNat + jbChecksum * 4) == 0) = true ↔ _
    rw [beq_iff_eq]
    exact BitVec.xor_eq_zero_iff

theorem restoreMaskArgs_spec (m : Machine) (label : Word) (hRoom : 16 ≤ (m.reg .esp).toNat) :
    let m' := m.block (restoreMaskArgs label)
    let esp := (m.reg .esp).toNat - 16
    m'.reg .esp = m.reg .esp - 16 ∧
      read m'.mem esp = 2 ∧ read m'.mem (esp + 4) = m.reg .edx + 24 ∧
      read m'.mem (esp + 8) = 0 ∧ Agree esp (m.reg .esp).toNat m.mem m'.mem := by
  intro m' esp
  simp only [m', esp, Machine.block, Machine.step, restoreMaskArgs, picPrologue,
    List.cons_append, List.nil_append, Machine.push, Machine.set, Machine.value,
    Machine.address, at4, reduceCtorEq, if_true, if_false, sub_sub_word,
    sub_add_word, BitVec.reduceAdd, BitVec.reduceSub, jbSigmask, BitVec.ofNat_eq_ofNat,
    Nat.reduceMul]
  refine ⟨trivial, ?_⟩
  simp (disch := omega) only [toNat_sub_ofNat]
  generalize (m.reg .esp).toNat = S at hRoom ⊢
  obtain ⟨S, rfl⟩ := Nat.exists_eq_add_of_le' hRoom
  simp only [Nat.reduceSubDiff, Nat.add_sub_cancel]
  refine ⟨read_write, ?_, ?_, ?_⟩
  rotate_right
  · refine .write (.write (.write (.write (.write (.refl _ _ _) ?_ ?_) ?_ ?_) ?_ ?_)
      ?_ ?_) ?_ ?_ <;> omega
  all_goals simp (disch := omega) only [read_write_disjoint, read_write]

/-- What the call that restores the mask makes of the thread; the host reads the 2 its own way. -/
def Process.restored (p : Process host) (set : host.Sigset) : Process host :=
  { p with mask := (host.change 2 p.mask set).getD p.mask }

theorem restoreMaskCall_spec (m : Machine) (k : Scratch) (label : Word) (p : Process host)
    (hRoom : 16 + k.depth ≤ (m.reg .esp).toNat)
    (hEnv : (m.reg .edx).toNat + 40 ≤ 4294967296)
    (hApart : (m.reg .edx).toNat + 40 ≤ (m.reg .esp).toNat - 16 - k.depth ∨
      (m.reg .esp).toNat ≤ (m.reg .edx).toNat) :
    ∃ m₁, sigprocmask k (m.block (restoreMaskArgs label)) p = (m₁, p.restored
        (loadSet host m.mem ((m.reg .edx).toNat + jbSigmask * 4))) ∧
      (m₁.block restoreMaskDone).reg .esp = m.reg .esp ∧
      Agree ((m.reg .esp).toNat - 16 - k.depth) (m.reg .esp).toNat m.mem
        (m₁.block restoreMaskDone).mem := by
  obtain ⟨hEsp, hHow, hSet, hOld, hAgree⟩ := restoreMaskArgs_spec m label (by omega)
  generalize m.block (restoreMaskArgs label) = m₀ at *
  have hSize := host.fits
  have hTop : (m₀.reg .esp).toNat = (m.reg .esp).toNat - 16 := by
    rw [hEsp]
    exact toNat_sub_ofNat (n := 16) (by omega)
  have hMask : (m.reg .edx + 24).toNat = (m.reg .edx).toNat + jbSigmask * 4 :=
    toNat_add_ofNat (n := 24) (by omega)
  have hNonzero : m.reg .edx + 24 ≠ 0 := by
    intro hZero
    rw [hZero] at hMask
    simp [jbSigmask] at hMask
  rw [← hTop] at hHow hSet hOld
  have hLoad : m₀.mem.loadWord ((m.reg .edx).toNat + jbSigmask * 4) host.size =
      m.mem.loadWord ((m.reg .edx).toNat + jbSigmask * 4) host.size :=
    Bytes.loadWord_congr fun a hLow hHigh => hAgree a (by simp only [jbSigmask] at *; omega)
  have hDone : ∀ ret, ((m₀.called k 3 ret).block restoreMaskDone).reg .esp = m.reg .esp ∧
      Agree ((m.reg .esp).toNat - 16 - k.depth) (m.reg .esp).toNat m.mem
        ((m₀.called k 3 ret).block restoreMaskDone).mem := by
    refine fun ret => ⟨?_, ?_⟩
    · show m₀.reg .esp + 12 + 4 = m.reg .esp
      rw [hEsp, BitVec.add_assoc]
      exact BitVec.sub_add_cancel ..
    · exact (hAgree.mono (by omega) (Nat.le_refl _)).scribble (by omega) (by omega)
  simp only [sigprocmask, hHow, hSet, hOld, if_true, hNonzero, if_false, hMask, loadSet, hLoad,
    Process.restored]
  cases host.change 2 p.mask (BitVec.ofNat _
      (m.mem.loadWord ((m.reg .edx).toNat + jbSigmask * 4) host.size)) with
  | none => exact ⟨_, rfl, hDone _⟩
  | some next => exact ⟨_, rfl, hDone _⟩

theorem restoreRegisters_spec {m : Machine} {env : Word}
    (hEnv : read m.mem ((m.reg .esp).toNat + 4) = env) (hFits : env.toNat + 40 ≤ 4294967296)
    (hEsp : (m.reg .esp).toNat + 12 ≤ 4294967296) :
    let m' := m.block restoreRegisters
    m'.reg .eax = read m.mem ((m.reg .esp).toNat + 8) ∧ m'.reg .edx = env ∧
      m'.reg .ecx = unmangled m.mem env.toNat jbEdx ∧
      m'.reg .ebx = unmangled m.mem env.toNat jbEbx ∧
      m'.reg .esp = unmangled m.mem env.toNat jbEsp ∧
      m'.reg .ebp = unmangled m.mem env.toNat jbEbp ∧
      m'.reg .esi = unmangled m.mem env.toNat jbEsi ∧
      m'.reg .edi = unmangled m.mem env.toNat jbEdi ∧ m'.mem = m.mem := by
  intro m'
  have hArgs : m.block [.movl (at4 1 .esp) (.reg .edx), .movl (at4 2 .esp) (.reg .eax)] =
      (m.set .edx env).set .eax (read m.mem ((m.reg .esp).toNat + 8)) := by
    simp only [Machine.block, Machine.step, Machine.assign]
    rw [value_at4 (by omega), hEnv, value_at4 (by show (m.reg .esp).toNat + 2 * 4 < _; omega)]
    rfl
  rw [show m' = (m.block [.movl (at4 1 .esp) (.reg .edx), .movl (at4 2 .esp) (.reg .eax)]).block
    (restoreRegisters.drop 2) from rfl, hArgs]
  generalize hm₁ : (m.set .edx env).set .eax (read m.mem ((m.reg .esp).toNat + 8)) = m₁
  have hEdx : m₁.reg .edx = env := by rw [← hm₁]; rfl
  have hMem : m₁.mem = m.mem := by rw [← hm₁]; rfl
  simp only [restoreRegisters, List.drop, Machine.block, Machine.step, Machine.assign,
    Machine.value, Machine.result, Machine.set, at4, reduceCtorEq, if_true, if_false, hEdx, hMem]
  simp (disch := omega) only [toNat_add_ofNat, jbSigflag, jbEdx, jbEbx, jbEsp, jbEbp, jbEsi,
    jbEdi, unmangled]
  refine ⟨?_, trivial, trivial, trivial, trivial, trivial, trivial, trivial, trivial⟩
  rw [← hm₁]
  rfl

theorem cookieCheckArgs_spec (m : Machine) (label : Word) (hRoom : 16 ≤ (m.reg .esp).toNat)
    (hEnv : (m.reg .edx).toNat + 40 ≤ 4294967296)
    (hApart : (m.reg .edx).toNat + 40 ≤ (m.reg .esp).toNat - 16 ∨
      (m.reg .esp).toNat ≤ (m.reg .edx).toNat) :
    let m' := m.block (cookieCheckArgs label)
    let esp := (m.reg .esp).toNat - 16
    m'.reg .esp = m.reg .esp - 16 ∧ (∀ r, r ≠ .ebx → r ≠ .esp → m'.reg r = m.reg r) ∧
      read m'.mem esp = read m.mem ((m.reg .edx).toNat + jbSigflag * 4) ∧
      read m'.mem (esp + 4) = m.reg .ecx ∧ read m'.mem (esp + 8) = m.reg .eax ∧
      read m'.mem (esp + 12) = m.reg .ebx ∧ Agree esp (m.reg .esp).toNat m.mem m'.mem := by
  intro m' esp
  simp only [m', esp, Machine.block, Machine.step, cookieCheckArgs, picPrologue,
    List.cons_append, List.nil_append, Machine.push, Machine.set, Machine.value,
    at4, reduceCtorEq, if_true, if_false, sub_sub_word,
    sub_add_word, BitVec.reduceAdd, BitVec.reduceSub, jbSigflag, BitVec.ofNat_eq_ofNat,
    Nat.reduceMul]
  refine ⟨trivial, fun r hEbx hEsp => ?_, ?_⟩
  · simp only [hEbx, hEsp, if_false]
  simp (disch := omega) only [toNat_sub_ofNat, toNat_add_ofNat]
  generalize (m.reg .esp).toNat = S at hRoom hApart ⊢
  obtain ⟨S, rfl⟩ := Nat.exists_eq_add_of_le' hRoom
  simp only [Nat.reduceSubDiff, Nat.add_sub_cancel] at hApart ⊢
  refine ⟨?_, ?_, ?_, ?_, ?_⟩
  rotate_right
  · refine .write (.write (.write (.write (.write (.refl _ _ _) ?_ ?_) ?_ ?_) ?_ ?_)
      ?_ ?_) ?_ ?_ <;> omega
  all_goals simp (disch := omega) only [read_write_disjoint, read_write]

theorem cookieCheckDone_spec {m : Machine} (hRoom : (m.reg .esp).toNat + 16 < 4294967296) :
    let m' := m.block cookieCheckDone
    let esp := (m.reg .esp).toNat
    m'.reg .esp = m.reg .esp + 16 ∧ m'.reg .ecx = read m.mem (esp + 4) ∧
      m'.reg .eax = read m.mem (esp + 8) ∧ m'.reg .ebx = read m.mem (esp + 12) ∧
      (∀ r, r ≠ .eax → r ≠ .ebx → r ≠ .ecx → r ≠ .esp → m'.reg r = m.reg r) ∧
      m'.zf = (read m.mem (esp + 8) == 0) ∧ m'.mem = m.mem := by
  intro m' esp
  simp only [m', esp, Machine.block, Machine.step, cookieCheckDone, picEpilogue,
    List.cons_append, List.nil_append, Machine.set, Machine.assign, Machine.value,
    Machine.result, reduceCtorEq, if_true, if_false, BitVec.add_assoc, BitVec.reduceAdd,
    BitVec.ofNat_eq_ofNat, BitVec.and_self]
  rw [toNat_add_ofNat (by omega), toNat_add_ofNat (by omega), toNat_add_ofNat (by omega)]
  refine ⟨trivial, rfl, rfl, rfl, fun r hEax hEbx hEcx hEsp => ?_, rfl, trivial⟩
  simp only [hEax, hEbx, hEcx, hEsp, if_false]

end LibcShim.Setjmp
