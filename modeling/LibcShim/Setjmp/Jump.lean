import LibcShim.Kit.Run
import LibcShim.Setjmp.Blocks

/-! A jump goes back to the call that filled its buffer, in every run, and a damaged buffer stops
the program. -/

namespace LibcShim.Setjmp

open Kit Kit.X86

variable {host : HostSignals}

/-! ### `setjmp` -/

/-- The forty bytes of a buffer are apart from the arguments and from the `room` below them that a
call uses. -/
structure Apart (room : Nat) (esp env : Word) : Prop where
  below : room ≤ esp.toNat
  top : esp.toNat + 12 ≤ 4294967296
  fits : env.toNat + 40 ≤ 4294967296
  apart : env.toNat + 40 ≤ esp.toNat - room ∨ esp.toNat + 12 ≤ env.toNat

/-- The functions that are called from this place need no more than the `room`. -/
def Site.Within (site : Site) (room : Nat) : Prop := ∀ i, (site.scratch i).depth + 28 ≤ room

/-- What a call with this flag records. -/
def recorded (m : Machine) (p : Process host) : Context host where
  pc := read m.mem (m.reg .esp).toNat
  ebx := m.reg .ebx
  esp := m.reg .esp
  ebp := m.reg .ebp
  esi := m.reg .esi
  edi := m.reg .edi
  mask := if m.reg .eax = 0 then none else some p.mask

/-- The cookie, drawn if there is none yet. -/
def initialized (arc4random : Word) (p : Process host) : Process host :=
  if p.setjmpCookie = 0 then initSetjmpCookie arc4random p else p

theorem sigflag_zf {p : Process host} {flag : Word} (hFlag : flag &&& ~~~1 = 0) :
    ((p.setjmpCookie ||| flag) &&& 1 == 0) = (flag == 0) := by
  rw [BitVec.and_comm, BitVec.and_or_distrib_left, BitVec.and_comm, p.flagless, BitVec.and_comm,
    and_one hFlag]
  exact congrArg (· == 0) BitVec.zero_or

theorem sigflag_cookie {p : Process host} {flag : Word} (hFlag : flag &&& ~~~1 = 0) :
    (p.setjmpCookie ||| flag) &&& ~~~1 = p.setjmpCookie := by
  rw [BitVec.and_comm, BitVec.and_or_distrib_left, BitVec.and_comm, and_not_one p.flagless,
    BitVec.and_comm, hFlag]
  exact BitVec.or_zero

/-- The memories agree but for the free stack and the buffer. -/
def Elsewhere (room esp env : Nat) (m m' : Bytes) : Prop :=
  ∀ a, (a < esp - room ∨ esp ≤ a) → (a < env ∨ env + 40 ≤ a) → m' a = m a

/-- The buffer has the cookie, the flag and the mask, and only the registers are left to save. -/
structure Prepared (room : Nat) (m : Machine) (p : Process host) (m' : Machine) : Prop where
  reg : ∀ r, r ≠ .eax → r ≠ .edx → m'.reg r = m.reg r
  sigflag : read m'.mem ((m.reg .ecx).toNat + jbSigflag * 4) = p.setjmpCookie ||| m.reg .eax
  mask : m.reg .eax ≠ 0 →
    m'.mem.loadWord ((m.reg .ecx).toNat + jbSigmask * 4) host.size = p.mask.toNat
  elsewhere : Elsewhere room (m.reg .esp).toNat (m.reg .ecx).toNat m.mem m'.mem

theorem cookieGet_prepared {site : Site} {m : Machine} {p : Process host} {room : Nat}
    (hFlag : m.reg .eax &&& ~~~1 = 0) (hSite : site.Within room)
    (hApart : Apart room (m.reg .esp) (m.reg .ecx)) :
    let m₁ := m.block (cookieGetArgs (site.label 0))
    let m₂ := (m₁.called (site.scratch 0) 1 (p.setjmpCookie ||| m.reg .eax)).block cookieGetDone
    read m₁.mem (m₁.reg .esp).toNat = m.reg .eax ∧ (m₂.zf ↔ m.reg .eax = 0) ∧
      (∀ r, r ≠ .eax → r ≠ .edx → m₂.reg r = m.reg r) ∧
      read m₂.mem ((m.reg .ecx).toNat + jbSigflag * 4) = p.setjmpCookie ||| m.reg .eax ∧
      Elsewhere room (m.reg .esp).toNat (m.reg .ecx).toNat m.mem m₂.mem := by
  obtain ⟨hBelow, hTop, hFits, hDisjoint⟩ := hApart
  have hDepth := hSite 0
  obtain ⟨hArg, hRegs, hEax, hZf, mem, hAgree, hMem⟩ := cookieGet_spec m (site.scratch 0)
    (site.label 0) (p.setjmpCookie ||| m.reg .eax) (by omega) hFits
  refine ⟨hArg, ?_, hRegs, ?_, fun a hStack hBuffer => ?_⟩
  · rw [hZf, sigflag_zf hFlag, beq_iff_eq]
  · rw [hMem, read_write]
  · rw [hMem]
    exact (Bytes.storeWord_outside (by simp only [jbSigflag]; omega)).trans
      (hAgree a (by omega))

theorem saveMask_prepared {site : Site} {m m' : Machine} {p : Process host} {room : Nat}
    (hSite : site.Within room) (hApart : Apart room (m.reg .esp) (m.reg .ecx))
    (hZf : m'.zf ↔ m.reg .eax = 0) (hReg : ∀ r, r ≠ .eax → r ≠ .edx → m'.reg r = m.reg r)
    (hSigflag : read m'.mem ((m.reg .ecx).toNat + jbSigflag * 4) = p.setjmpCookie ||| m.reg .eax)
    (hElsewhere : Elsewhere room (m.reg .esp).toNat (m.reg .ecx).toNat m.mem m'.mem) :
    ∃ m₁, saveMask (site.scratch 1) (site.label 1) m' p = (m₁, p) ∧ Prepared room m p m₁ := by
  by_cases hUnasked : m'.zf
  · refine ⟨m', if_pos hUnasked, hReg, hSigflag, fun hNonzero => ?_, hElsewhere⟩
    exact absurd (hZf.mp hUnasked) hNonzero
  obtain ⟨hBelow, hTop, hFits, hDisjoint⟩ := hApart
  have hSize := host.fits
  have hDepth := hSite 1
  have hEsp := hReg .esp (by decide) (by decide)
  have hEcx := hReg .ecx (by decide) (by decide)
  obtain ⟨m₁, hCall, hRegs, mem, hAgree, hMem⟩ := saveMaskCall_spec m' (site.scratch 1)
    (site.label 1) p (by rw [hEsp]; omega) (by rwa [hEcx]) (by rw [hEsp, hEcx]; omega)
  rw [hEsp, hEcx] at *
  refine ⟨m₁.block saveMaskDone, ?_, fun r hEax hEdx => ?_, ?_, fun _ => ?_, ?_⟩
  · rw [saveMask, if_neg hUnasked, hCall]
  · exact (hRegs r hEax hEdx).trans (hReg r hEax hEdx)
  · rw [hMem, read_storeWord (by simp only [jbSigmask, jbSigflag]; omega),
      hAgree.read (by simp only [jbSigflag]; omega), hSigflag]
  · rw [hMem, Bytes.loadWord_storeWord p.mask_lt]
  · intro a hStack hBuffer
    rw [hMem, Bytes.storeWord_outside (by simp only [jbSigmask]; omega), hAgree a (by omega)]
    exact hElsewhere a hStack hBuffer

theorem checksum_congr {mem mem' : Bytes} {env : Nat}
    (h : ∀ a, env ≤ a → a < env + 24 → mem a = mem' a) : checksum mem env = checksum mem' env := by
  have hRead : ∀ i ≤ 5, read mem (env + i * 4) = read mem' (env + i * 4) := fun i hi =>
    congrArg _ (Bytes.loadWord_congr fun a hLow hHigh => h a (by omega) (by omega))
  simp only [checksum, jbEdx, jbEbx, jbEsp, jbEbp, jbEsi, jbEdi, List.foldl]
  rw [hRead 0 (by decide), hRead 1 (by decide), hRead 2 (by decide), hRead 3 (by decide),
    hRead 4 (by decide), hRead 5 (by decide)]

theorem saveRegisters_holds {m m' : Machine} {p : Process host} {room : Nat}
    (hFlag : m.reg .eax &&& ~~~1 = 0) (hApart : Apart room (m.reg .esp) (m.reg .ecx))
    (hPrepared : Prepared room m p m') :
    Holds (m'.block saveRegisters).mem (m.reg .ecx).toNat p.setjmpCookie (recorded m p) ∧
      Elsewhere room (m.reg .esp).toNat (m.reg .ecx).toNat m.mem (m'.block saveRegisters).mem := by
  obtain ⟨hBelow, hTop, hFits, hDisjoint⟩ := hApart
  obtain ⟨hReg, hSigflag, hMask, hElsewhere⟩ := hPrepared
  have hEsp := hReg .esp (by decide) (by decide)
  have hEcx := hReg .ecx (by decide) (by decide)
  obtain ⟨-, -, hMem⟩ := saveRegisters_spec (m := m') (by rwa [hEcx]) (by rw [hEsp]; omega)
  have hPc : read m'.mem (m.reg .esp).toNat = read m.mem (m.reg .esp).toNat :=
    congrArg _ (Bytes.loadWord_congr fun a _ _ => hElsewhere a (by omega) (by omega))
  have hCookie : read m'.mem ((m.reg .ecx).toNat + jbSigflag * 4) &&& -2 = p.setjmpCookie := by
    rw [hSigflag]
    exact sigflag_cookie hFlag
  rw [hEsp, hEcx, hCookie, hPc, hReg .ebx (by decide) (by decide),
    hReg .ebp (by decide) (by decide), hReg .esi (by decide) (by decide),
    hReg .edi (by decide) (by decide)] at hMem
  have hWords : ([read m.mem (m.reg .esp).toNat, m.reg .ebx, m.reg .esp, m.reg .ebp, m.reg .esi,
      m.reg .edi].map (· ^^^ p.setjmpCookie)).length = 6 := rfl
  rw [hMem]
  refine ⟨⟨fun i hi => ?_, fun set hSet => ?_, ?_, ?_⟩, fun a hStack hBuffer => ?_⟩
  · have hLt : i < 6 := hi
    rw [read_write_disjoint (by simp only [jbChecksum]; omega), read_writeAll (hWords ▸ hLt),
      List.getElem_map]
    rfl
  · have hSaved : m.reg .eax ≠ 0 ∧ p.mask = set := by
      simp only [recorded] at hSet
      split at hSet
      · contradiction
      · exact ⟨by assumption, Option.some.inj hSet⟩
    rw [← hSaved.2, ← hMask hSaved.1]
    have hSize := host.fits
    refine Bytes.loadWord_congr fun a hLow hHigh => ?_
    simp only [jbSigmask, jbChecksum] at *
    exact (Bytes.storeWord_outside (by omega)).trans (writeAll_outside (by omega))
  · have hRecorded : (recorded m p).flag = m.reg .eax := by
      rcases eq_zero_or_one hFlag with hZero | hOne
      · simp [recorded, Context.flag, hZero]
      · simp [recorded, Context.flag, hOne]
    simp only [jbSigflag, jbChecksum] at *
    rw [hRecorded, read_write_disjoint (by omega), read_writeAll_disjoint (by omega), hSigflag]
  · rw [read_write]
    refine checksum_congr fun a hLow hHigh => (Bytes.storeWord_outside ?_).symm
    simp only [jbChecksum]
    omega
  · simp only [jbChecksum]
    rw [write, Bytes.storeWord_outside (by omega), writeAll_outside (by omega)]
    exact hElsewhere a hStack hBuffer

/-- `setjmp` returns 0, leaves its caller in the buffer and touches nothing else that is live. -/
theorem sigsetjmpBody_spec {site : Site} {m : Machine} {p : Process host} {room : Nat}
    (hFlag : m.reg .eax &&& ~~~1 = 0) (hSite : site.Within room)
    (hApart : Apart room (m.reg .esp) (m.reg .ecx)) :
    ∃ r, sigsetjmpBody site m p = .ok r ∧ r.pc = read m.mem (m.reg .esp).toNat ∧
      r.process = initialized site.arc4random p ∧ r.machine.reg .eax = 0 ∧
      r.machine.reg .esp = m.reg .esp + 4 ∧
      (∀ reg ∈ [Reg.ebx, .ebp, .esi, .edi], r.machine.reg reg = m.reg reg) ∧
      Holds r.machine.mem (m.reg .ecx).toNat r.process.setjmpCookie (recorded m p) ∧
      ∀ a, (a < (m.reg .esp).toNat - room ∨ (m.reg .esp).toNat ≤ a) →
        (a < (m.reg .ecx).toNat ∨ (m.reg .ecx).toNat + 40 ≤ a) → r.machine.mem a = m.mem a := by
  generalize hp : initialized site.arc4random p = p'
  obtain ⟨hArg, hZf, hReg, hSigflag, hElsewhere⟩ :=
    cookieGet_prepared (p := p') hFlag hSite hApart
  have hGet : setjmpCookieGet site.arc4random p (m.reg .eax) =
      .ok (p'.setjmpCookie ||| m.reg .eax, p') := by
    simp only [setjmpCookieGet, hFlag, ne_eq, not_true, if_false]
    rw [← hp]
    rfl
  have hRecorded : recorded m p = recorded m p' := by
    rw [← hp, initialized]
    split <;> rfl
  simp only [sigsetjmpBody, hArg, hGet, bind, Except.bind, pure, Except.pure]
  generalize ((m.block (cookieGetArgs (site.label 0))).called (site.scratch 0) 1
    (p'.setjmpCookie ||| m.reg .eax)).block cookieGetDone = m₂ at *
  obtain ⟨m₃, hBranch, hPrepared⟩ := saveMask_prepared hSite hApart hZf hReg hSigflag hElsewhere
  obtain ⟨hHolds, hRest⟩ := saveRegisters_holds hFlag hApart hPrepared
  obtain ⟨hBelow, hTop, hFits, hDisjoint⟩ := hApart
  have hEsp := hPrepared.reg .esp (by decide) (by decide)
  obtain ⟨hEax, hKept, -⟩ := saveRegisters_spec (m := m₃)
    (by rwa [hPrepared.reg .ecx (by decide) (by decide)]) (by rw [hEsp]; omega)
  rw [hBranch, hRecorded]
  generalize m₃.block saveRegisters = m₄ at *
  have hKept' : ∀ r, r ≠ .eax → r ≠ .edx → m₄.reg r = m.reg r :=
    fun r hEax hEdx => (hKept r hEax hEdx).trans (hPrepared.reg r hEax hEdx)
  have hStack : read m₄.mem (m.reg .esp).toNat = read m.mem (m.reg .esp).toNat :=
    congrArg _ (Bytes.loadWord_congr fun a _ _ => hRest a (by omega) (by omega))
  refine ⟨ret m₄ p', rfl, ?_, rfl, hEax, ?_, fun r hr => ?_, hHolds, hRest⟩
  · rw [ret, hKept' .esp (by decide) (by decide)]
    exact hStack
  · show m₄.reg .esp + 4 = _
    rw [hKept' .esp (by decide) (by decide)]
  · have hNe : r ≠ .eax ∧ r ≠ .edx ∧ r ≠ .esp := by
      revert r
      decide
    show (if r = .esp then _ else m₄.reg r) = _
    rw [if_neg hNe.2.2]
    exact hKept' r hNe.1 hNe.2.1

/-! ### `longjmp` -/

/-- The control is where the buffer says, and `setjmp` seems to return there again. -/
structure Jumped (mem : Bytes) (env : Nat) (val : Word) (r : Returned host) : Prop where
  pc : r.pc = unmangled mem env jbEdx
  ebx : r.machine.reg .ebx = unmangled mem env jbEbx
  esp : r.machine.reg .esp = unmangled mem env jbEsp + 4
  ebp : r.machine.reg .ebp = unmangled mem env jbEbp
  esi : r.machine.reg .esi = unmangled mem env jbEsi
  edi : r.machine.reg .edi = unmangled mem env jbEdi
  eax : r.machine.reg .eax = if val = 0 then 1 else val

/-- The thread with the mask of the buffer, if the buffer has one. -/
def unmasked (mem : Bytes) (env : Nat) (p : Process host) : Process host :=
  if read mem (env + jbSigflag * 4) &&& 1 = 0 then p
  else p.restored (loadSet host mem (env + jbSigmask * 4))

theorem siglongjmp_damaged {site : Site} {m : Machine} {p : Process host} {env : Word}
    (hEnv : read m.mem ((m.reg .esp).toNat + 4) = env) (hFits : env.toNat + 40 ≤ 4294967296)
    (hTop : (m.reg .esp).toNat + 12 ≤ 4294967296)
    (hDamaged : checksum m.mem env.toNat ≠ read m.mem (env.toNat + jbChecksum * 4)) :
    siglongjmp site m p = .error (setjmpChecksumMismatch p) := by
  obtain ⟨-, -, -, hZf⟩ := checkChecksum_spec hEnv hFits hTop
  have hSet : (m.block checkChecksum).zf = false :=
    Bool.eq_false_iff.mpr fun hSet => hDamaged (hZf.mp hSet)
  simp only [siglongjmp, hSet]
  rfl

theorem restoreMask_effect {site : Site} {m : Machine} {p : Process host} {room : Nat}
    (hSite : site.Within room) (hApart : Apart room (m.reg .esp) (m.reg .edx)) :
    ∃ m₁, restoreMask (site.scratch 0) (site.label 0) (m.block loadSigflag) p =
        (m₁, unmasked m.mem (m.reg .edx).toNat p) ∧
      m₁.reg .esp = m.reg .esp ∧
      Agree ((m.reg .esp).toNat - room) (m.reg .esp).toNat m.mem m₁.mem := by
  obtain ⟨hBelow, hTop, hFits, hDisjoint⟩ := hApart
  have hDepth := hSite 0
  have hLoad : m.value (at4 jbSigflag .edx) =
      read m.mem ((m.reg .edx).toNat + jbSigflag * 4) :=
    value_at4 (by simp only [jbSigflag]; omega)
  have hBlock : m.block loadSigflag =
      { m.set .eax (read m.mem ((m.reg .edx).toNat + jbSigflag * 4)) with
        zf := read m.mem ((m.reg .edx).toNat + jbSigflag * 4) &&& 1 == 0 } := by
    simp only [loadSigflag, Machine.block, Machine.step, Machine.assign, hLoad]
    rfl
  generalize hm' : m.block loadSigflag = m'
  have hZf : m'.zf = (read m.mem ((m.reg .edx).toNat + jbSigflag * 4) &&& 1 == 0) := by
    rw [← hm', hBlock]
  have hEsp : m'.reg .esp = m.reg .esp := by rw [← hm', hBlock]; rfl
  have hEdx : m'.reg .edx = m.reg .edx := by rw [← hm', hBlock]; rfl
  have hMem : m'.mem = m.mem := by rw [← hm', hBlock]; rfl
  by_cases hAsked : read m.mem ((m.reg .edx).toNat + jbSigflag * 4) &&& 1 = 0
  · refine ⟨m', ?_, hEsp, hMem ▸ Agree.refl _ _ _⟩
    rw [restoreMask, hZf, unmasked, if_pos hAsked, hAsked]
    rfl
  · obtain ⟨m₁, hCall, hEsp₁, hAgree⟩ := restoreMaskCall_spec m' (site.scratch 0) (site.label 0) p
      (by rw [hEsp]; omega) (by rwa [hEdx]) (by rw [hEsp, hEdx]; omega)
    rw [hEsp, hEdx, hMem] at *
    refine ⟨m₁.block restoreMaskDone, ?_, hEsp₁, hAgree.mono (by omega) (Nat.le_refl _)⟩
    rw [restoreMask, hZf, unmasked, if_neg hAsked, if_neg (by simpa using hAsked), hCall]

theorem unmangled_congr {mem mem' : Bytes} {env i : Nat} (hIndex : i ≤ jbEdi)
    (h : ∀ a, env ≤ a → a < env + 40 → mem' a = mem a) :
    unmangled mem' env i = unmangled mem env i := by
  have hRead : ∀ j ≤ 9, read mem' (env + j * 4) = read mem (env + j * 4) := fun j hj =>
    congrArg _ (Bytes.loadWord_congr fun a hLow hHigh => h a (by omega) (by omega))
  simp only [jbEdi] at hIndex
  rw [unmangled, unmangled, hRead i (by omega), hRead jbSigflag (by decide)]

/-- The machine behind the call that checks the cookie. -/
theorem cookieCheck_kept {site : Site} {m : Machine} {room : Nat} (flag : Word)
    (hSite : site.Within room) (hApart : Apart room (m.reg .esp) (m.reg .edx)) :
    let m₁ := m.block (cookieCheckArgs (site.label 1))
    let m₂ := (m₁.called (site.scratch 1) 1 flag).block cookieCheckDone
    read m₁.mem (m₁.reg .esp).toNat = read m.mem ((m.reg .edx).toNat + jbSigflag * 4) ∧
      (∀ r, r ≠ .edx → m₂.reg r = m.reg r) ∧ (m₂.zf ↔ m.reg .eax = 0) ∧
      Agree ((m.reg .esp).toNat - room) (m.reg .esp).toNat m.mem m₂.mem := by
  dsimp only
  obtain ⟨hBelow, hTop, hFits, hDisjoint⟩ := hApart
  have hDepth := hSite 1
  obtain ⟨hEsp, hRegs, hSigflag, hEcx, hEax, hEbx, hAgree⟩ :=
    cookieCheckArgs_spec m (site.label 1) (by omega) hFits (by omega)
  generalize m.block (cookieCheckArgs (site.label 1)) = m₁ at *
  have hTop₁ : (m₁.reg .esp).toNat = (m.reg .esp).toNat - 16 := by
    rw [hEsp]
    exact toNat_sub_ofNat (n := 16) (by omega)
  rw [← hTop₁] at hSigflag hEcx hEax hEbx
  have hReads : ∀ i, 4 ≤ i → read (m₁.called (site.scratch 1) 1 flag).mem
      ((m₁.reg .esp).toNat + i) = read m₁.mem ((m₁.reg .esp).toNat + i) :=
    fun i hi => read_scribble (by omega)
  have hAgree' : Agree ((m.reg .esp).toNat - room) (m.reg .esp).toNat m.mem
      (m₁.called (site.scratch 1) 1 flag).mem :=
    (hAgree.mono (by omega) (Nat.le_refl _)).scribble (by omega) (by omega)
  have hSame : ∀ r, r ≠ .eax → r ≠ .ecx → r ≠ .edx →
      (m₁.called (site.scratch 1) 1 flag).reg r = m₁.reg r :=
    fun _ => Machine.called_reg
  generalize m₁.called (site.scratch 1) 1 flag = m₂ at *
  have hEsp₂ := hSame .esp (by decide) (by decide) (by decide)
  obtain ⟨hEsp', hEcx', hEax', hEbx', hRest, hZf, hMem⟩ :=
    cookieCheckDone_spec (m := m₂) (by rw [hEsp₂]; omega)
  rw [hEsp₂] at hEsp' hEcx' hEax' hEbx' hZf
  refine ⟨hSigflag, fun r hEdx => ?_, ?_, ?_⟩
  · cases r with
    | edx => contradiction
    | eax => rw [hEax', hReads 8 (by decide), hEax]
    | ecx => rw [hEcx', hReads 4 (by decide), hEcx]
    | ebx => rw [hEbx', hReads 12 (by decide), hEbx]
    | esp =>
      rw [hEsp', hEsp]
      exact BitVec.sub_add_cancel ..
    | _ =>
      rw [hRest _ (by decide) (by decide) (by decide) (by decide),
        hSame _ (by decide) (by decide) (by decide), hRegs _ (by decide) (by decide)]
  · rw [hZf, hReads 8 (by decide), hEax, beq_iff_eq]
  · rw [hMem]
    exact hAgree'

/-- The last instructions leave the value that `setjmp` returns. -/
theorem leave_spec {m : Machine} {p : Process host} (hZf : m.zf ↔ m.reg .eax = 0)
    (hEsp : (m.reg .esp).toNat + 4 ≤ 4294967296) :
    let m' := if m.zf then m.block [.incl (.reg .eax)] else m
    let r := ret (m'.block [.movl (.reg .ecx) (at4 0 .esp)]) p
    r.pc = m.reg .ecx ∧ r.machine.reg .esp = m.reg .esp + 4 ∧
      r.machine.reg .eax = (if m.reg .eax = 0 then 1 else m.reg .eax) ∧
      ∀ reg, reg ≠ .eax → reg ≠ .esp → r.machine.reg reg = m.reg reg := by
  intro m' r
  have hEax : m'.reg .eax = if m.reg .eax = 0 then 1 else m.reg .eax := by
    by_cases hZero : m.zf
    · show (if m.zf then m.block [.incl (.reg .eax)] else m).reg .eax = _
      rw [if_pos hZero, if_pos (hZf.mp hZero)]
      show m.reg .eax + 1 = 1
      rw [hZf.mp hZero]
      rfl
    · show (if m.zf then m.block [.incl (.reg .eax)] else m).reg .eax = _
      rw [if_neg hZero, if_neg (mt hZf.mpr hZero)]
  have hReg : ∀ r, r ≠ .eax → m'.reg r = m.reg r := by
    intro r hEax
    show (if m.zf then m.block [.incl (.reg .eax)] else m).reg r = _
    split
    · exact if_neg hEax
    · rfl
  have hEsp' := hReg .esp (by decide)
  have hBlock : m'.block [.movl (.reg .ecx) (at4 0 .esp)] =
      { m' with mem := write m'.mem (m'.reg .esp).toNat (m'.reg .ecx) } := by
    simp only [Machine.block, Machine.step]
    exact assign_at4 (by rw [hEsp']; omega)
  have hRet : r = ⟨m'.reg .ecx, ⟨fun r' => if r' = .esp then m'.reg .esp + 4 else m'.reg r',
      m'.zf, write m'.mem (m'.reg .esp).toNat (m'.reg .ecx)⟩, p⟩ := by
    show ret (m'.block [.movl (.reg .ecx) (at4 0 .esp)]) p = _
    rw [hBlock, ret, read_write]
    rfl
  rw [hRet]
  refine ⟨hReg .ecx (by decide), ?_, hEax, fun reg hEaxNe hEspNe => ?_⟩
  · show m'.reg .esp + 4 = _
    rw [hEsp']
  · show (if reg = .esp then _ else m'.reg reg) = _
    rw [if_neg hEspNe, hReg reg hEaxNe]

theorem unmasked_cookie (mem : Bytes) (env : Nat) (p : Process host) :
    (unmasked mem env p).setjmpCookie = p.setjmpCookie := by
  unfold unmasked
  split <;> rfl

theorem siglongjmp_effect {site : Site} {m : Machine} {p : Process host} {env : Word}
    {room : Nat} (hEnv : read m.mem ((m.reg .esp).toNat + 4) = env) (hSite : site.Within room)
    (hApart : Apart room (m.reg .esp) env)
    (hTarget : Apart room (unmangled m.mem env.toNat jbEsp) env)
    (hSum : checksum m.mem env.toNat = read m.mem (env.toNat + jbChecksum * 4)) :
    let p' := unmasked m.mem env.toNat p
    if p.setjmpCookie = read m.mem (env.toNat + jbSigflag * 4) &&& ~~~1 then
      ∃ r, siglongjmp site m p = .ok r ∧ r.process = p' ∧
        Jumped m.mem env.toNat (read m.mem ((m.reg .esp).toNat + 8)) r
    else siglongjmp site m p = .error ⟨"setjmp cookie mismatch", p'⟩ := by
  intro p'
  obtain ⟨hEdx, hKept, hMem, hZf⟩ := checkChecksum_spec hEnv hApart.fits hApart.top
  have hSet : (m.block checkChecksum).zf = true := hZf.mpr hSum
  have hEsp := hKept .esp (by decide) (by decide)
  generalize hm₀ : m.block checkChecksum = m₀ at *
  obtain ⟨m₁, hMask, hEsp₁, hAgree⟩ := restoreMask_effect (p := p) hSite
    (show Apart room (m₀.reg .esp) (m₀.reg .edx) by rwa [hEsp, hEdx])
  rw [hEsp, hEdx, hMem] at *
  have hArg : read m₁.mem ((m.reg .esp).toNat + 4) = env := by
    rw [hAgree.read (Or.inr (by omega)), hEnv]
  have hVal : read m₁.mem ((m.reg .esp).toNat + 8) = read m.mem ((m.reg .esp).toNat + 8) :=
    hAgree.read (Or.inr (by omega))
  have hBuffer : ∀ a, env.toNat ≤ a → a < env.toNat + 40 → m₁.mem a = m.mem a := by
    intro a hLow hHigh
    have hDisjoint := hApart.apart
    exact hAgree a (by omega)
  rw [← hEsp₁] at hArg hVal
  obtain ⟨hEax, hEdx₂, hEcx, hEbx, hEsp₂, hEbp, hEsi, hEdi, hMem₂⟩ :=
    restoreRegisters_spec hArg hApart.fits (by rw [hEsp₁]; exact hApart.top)
  have hWord : ∀ i ≤ jbEdi, unmangled m₁.mem env.toNat i = unmangled m.mem env.toNat i :=
    fun i hi => unmangled_congr hi hBuffer
  rw [hWord jbEdx (by decide)] at hEcx
  rw [hWord jbEbx (by decide)] at hEbx
  rw [hWord jbEsp (by decide)] at hEsp₂
  rw [hWord jbEbp (by decide)] at hEbp
  rw [hWord jbEsi (by decide)] at hEsi
  rw [hWord jbEdi (by decide)] at hEdi
  have hWord₉ : read m₁.mem (env.toNat + jbSigflag * 4) = read m.mem (env.toNat + jbSigflag * 4) :=
    congrArg _ (Bytes.loadWord_congr fun a hLow hHigh =>
      hBuffer a (by omega) (by simp only [jbSigflag] at *; omega))
  generalize hm₂ : m₁.block restoreRegisters = m₂ at *
  have hTarget₂ : Apart room (m₂.reg .esp) (m₂.reg .edx) := by rwa [hEsp₂, hEdx₂]
  have hChecked (flag : Word) := cookieCheck_kept flag hSite hTarget₂
  rw [hEdx₂, hMem₂, hWord₉] at hChecked
  have hCheck : setjmpCookieCheck p' (read (m₂.block (cookieCheckArgs (site.label 1))).mem
      ((m₂.block (cookieCheckArgs (site.label 1))).reg .esp).toNat) =
      if p.setjmpCookie = read m.mem (env.toNat + jbSigflag * 4) &&& ~~~1 then
        .ok (read m.mem (env.toNat + jbSigflag * 4) &&& 1)
      else .error ⟨"setjmp cookie mismatch", p'⟩ := by
    rw [(hChecked 0).1, setjmpCookieCheck, unmasked_cookie]
    exact ite_not _ _ _
  have hJumped : ∀ m₃ : Machine, (∀ r, r ≠ .edx → m₃.reg r = m₂.reg r) →
      (m₃.zf ↔ m₂.reg .eax = 0) → Jumped m.mem env.toNat (read m.mem ((m.reg .esp).toNat + 8))
        (ret ((if m₃.zf then m₃.block [.incl (.reg .eax)] else m₃).block
          [.movl (.reg .ecx) (at4 0 .esp)]) p') := by
    intro m₃ hReg hZero
    have hEspFits := hTarget.top
    obtain ⟨hPc, hEsp₃, hEax₃, hRest⟩ := leave_spec (m := m₃) (p := p')
      (by rw [hReg .eax (by decide)]; exact hZero)
      (by rw [hReg .esp (by decide), hEsp₂]; omega)
    refine ⟨?_, ?_, ?_, ?_, ?_, ?_, ?_⟩
    · rw [hPc, hReg .ecx (by decide), hEcx]
    · rw [hRest .ebx (by decide) (by decide), hReg .ebx (by decide), hEbx]
    · rw [hEsp₃, hReg .esp (by decide), hEsp₂]
    · rw [hRest .ebp (by decide) (by decide), hReg .ebp (by decide), hEbp]
    · rw [hRest .esi (by decide) (by decide), hReg .esi (by decide), hEsi]
    · rw [hRest .edi (by decide) (by decide), hReg .edi (by decide), hEdi]
    · rw [hEax₃, hReg .eax (by decide), hEax, hVal, hEsp₁]
  simp only [siglongjmp, hm₀, hSet, hMask, hm₂, bind, Except.bind, pure, Except.pure]
  rw [hCheck]
  split
  · obtain ⟨-, hRegs, hZero, -⟩ := hChecked (read m.mem (env.toNat + jbSigflag * 4) &&& 1)
    exact ⟨_, rfl, rfl, hJumped _ hRegs hZero⟩
  · rfl

/-! ### Runs of a thread -/

structure Thread (host : HostSignals) where
  pc : Word
  machine : Machine
  process : Process host

/-- The functions that fill a buffer. -/
inductive Entry where
  | setjmp
  | underscoreSetjmp
  | sigsetjmp
  deriving DecidableEq

def Entry.call : Entry → Site → Machine → Process host → Result host
  | .setjmp => Setjmp.setjmp
  | .underscoreSetjmp => Setjmp.underscoreSetjmp
  | .sigsetjmp => Setjmp.sigsetjmp

/-- The flag that tells whether to save the mask. -/
def Entry.flag (m : Machine) : Entry → Word
  | .setjmp => 1
  | .underscoreSetjmp => 0
  | .sigsetjmp => read m.mem ((m.reg .esp).toNat + 8)

/-- The rest of the program does what it likes with the registers, the memory and the mask. -/
inductive Action (host : HostSignals) where
  | guest (pc : Word) (machine : Machine) (mask : host.Sigset)
  | setjmp (entry : Entry) (site : Site)
  | longjmp (site : Site)

def returned (r : Result host) : Option (Thread host) :=
  r.toOption.map fun r => ⟨r.pc, r.machine, r.process⟩

def step (t : Thread host) : Action host → Option (Thread host)
  | .guest pc machine mask => some ⟨pc, machine, { t.process with mask }⟩
  | .setjmp entry site => returned (entry.call site t.machine t.process)
  | .longjmp site => returned (siglongjmp site t.machine t.process)

theorem sigprocmask_cookie (k : Scratch) (m : Machine) (p : Process host) :
    (sigprocmask k m p).2.setjmpCookie = p.setjmpCookie := by
  simp only [sigprocmask]
  split <;> rfl

theorem saveMask_cookie (k : Scratch) (label : Word) (m : Machine) (p : Process host) :
    (saveMask k label m p).2.setjmpCookie = p.setjmpCookie := by
  have hCall := sigprocmask_cookie k (m.block (saveMaskArgs label)) p
  unfold saveMask
  generalize sigprocmask k (m.block (saveMaskArgs label)) p = called at hCall ⊢
  split
  · rfl
  · exact hCall

theorem restoreMask_cookie (k : Scratch) (label : Word) (m : Machine) (p : Process host) :
    (restoreMask k label m p).2.setjmpCookie = p.setjmpCookie := by
  have hCall := sigprocmask_cookie k (m.block (restoreMaskArgs label)) p
  unfold restoreMask
  generalize sigprocmask k (m.block (restoreMaskArgs label)) p = called at hCall ⊢
  split
  · rfl
  · exact hCall

theorem setjmpCookieGet_ok {arc4random sigflag word : Word} {p p' : Process host}
    (h : setjmpCookieGet arc4random p sigflag = .ok (word, p')) :
    sigflag &&& ~~~1 = 0 ∧ p' = initialized arc4random p := by
  simp only [setjmpCookieGet] at h
  split at h
  · contradiction
  · rename_i hFlag
    exact ⟨not_not.mp hFlag, (Prod.mk.inj (Except.ok.inj h)).2.symm⟩

theorem sigsetjmpBody_ok {site : Site} {m : Machine} {p : Process host}
    {r : Returned host} (h : sigsetjmpBody site m p = .ok r) :
    read (m.block (cookieGetArgs (site.label 0))).mem
        ((m.block (cookieGetArgs (site.label 0))).reg .esp).toNat &&& ~~~1 = 0 ∧
      r.process.setjmpCookie = (initialized site.arc4random p).setjmpCookie := by
  simp only [sigsetjmpBody, bind, Except.bind] at h
  split at h
  · contradiction
  · rename_i cookie hGet
    obtain ⟨hFlag, hProcess⟩ := setjmpCookieGet_ok hGet
    refine ⟨hFlag, ?_⟩
    rw [← Except.ok.inj h, ← hProcess]
    exact saveMask_cookie ..

theorem siglongjmp_cookie {site : Site} {m : Machine} {p : Process host}
    {r : Returned host} (h : siglongjmp site m p = .ok r) :
    r.process.setjmpCookie = p.setjmpCookie := by
  have hMask := restoreMask_cookie (site.scratch 0) (site.label 0)
    ((m.block checkChecksum).block loadSigflag) p
  simp only [siglongjmp, bind, Except.bind] at h
  split at h
  · contradiction
  generalize restoreMask (site.scratch 0) (site.label 0)
    ((m.block checkChecksum).block loadSigflag) p = masked at hMask h
  split at h
  · contradiction
  · rw [← Except.ok.inj h]
    exact hMask

theorem initialized_cookie {arc4random : Word} {p : Process host}
    (h : p.setjmpCookie ≠ 0) : initialized arc4random p = p := if_neg h

theorem Entry.call_eq (entry : Entry) (site : Site) (m : Machine) (p : Process host)
    (hTop : (m.reg .esp).toNat + 12 ≤ 4294967296) :
    ∃ m', entry.call site m p = sigsetjmpBody site m' p ∧
      m'.reg .ecx = read m.mem ((m.reg .esp).toNat + 4) ∧ m'.reg .eax = entry.flag m ∧
      (∀ r, r ≠ .eax → r ≠ .ecx → m'.reg r = m.reg r) ∧ m'.mem = m.mem := by
  have hArg : ∀ src, m.block [.movl (at4 1 .esp) (.reg .ecx), .movl src (.reg .eax)] =
      (m.set .ecx (read m.mem ((m.reg .esp).toNat + 4))).set .eax
        ((m.set .ecx (read m.mem ((m.reg .esp).toNat + 4))).value src) := by
    intro src
    simp only [Machine.block, Machine.step, Machine.assign]
    rw [value_at4 (by omega)]
  have hRest : ∀ ecx eax r, r ≠ .eax → r ≠ .ecx → ((m.set .ecx ecx).set .eax eax).reg r = m.reg r :=
    fun _ _ r hEax hEcx => (if_neg hEax).trans (if_neg hEcx)
  cases entry with
  | setjmp =>
    refine ⟨_, rfl, ?_⟩
    rw [hArg]
    exact ⟨rfl, rfl, hRest _ _, rfl⟩
  | underscoreSetjmp =>
    refine ⟨_, rfl, ?_⟩
    rw [hArg]
    exact ⟨rfl, rfl, hRest _ _, rfl⟩
  | sigsetjmp =>
    refine ⟨_, rfl, ?_⟩
    rw [hArg, value_at4 (by show (m.reg .esp).toNat + 2 * 4 < 4294967296; omega)]
    exact ⟨rfl, rfl, hRest _ _, rfl⟩

theorem step_cookie {t t' : Thread host} {a : Action host} (hStep : step t a = some t')
    (h : t.process.setjmpCookie ≠ 0) : t'.process.setjmpCookie = t.process.setjmpCookie := by
  have hOk : ∀ {r : Result host}, returned r = some t' →
      ∃ r', r = .ok r' ∧ t' = ⟨r'.pc, r'.machine, r'.process⟩ := by
    intro r hReturned
    cases r with
    | error e => contradiction
    | ok r => exact ⟨r, rfl, (Option.some.inj hReturned).symm⟩
  cases a with
  | guest pc machine set =>
    rw [← Option.some.inj hStep]
  | setjmp entry site =>
    obtain ⟨r, hCall, rfl⟩ := hOk hStep
    have hCookie : r.process.setjmpCookie =
        (initialized site.arc4random t.process).setjmpCookie := by
      cases entry <;> exact (sigsetjmpBody_ok hCall).2
    rw [hCookie, initialized_cookie h]
  | longjmp site =>
    obtain ⟨r, hCall, rfl⟩ := hOk hStep
    exact siglongjmp_cookie hCall

/-! ### A buffer on the way from its `setjmp` to a jump -/

theorem Holds.congr {mem mem' : Bytes} {env : Nat} {cookie : Word} {c : Context host}
    (hHolds : Holds mem env cookie c) (h : ∀ a, env ≤ a → a < env + 40 → mem' a = mem a) :
    Holds mem' env cookie c := by
  have hRead : ∀ i ≤ 9, read mem' (env + i * 4) = read mem (env + i * 4) := fun i hi =>
    congrArg _ (Bytes.loadWord_congr fun a hLow hHigh => h a (by omega) (by omega))
  refine ⟨fun i hi => ?_, fun set hSet => ?_, ?_, ?_⟩
  · rw [hRead i (by have hLt : i < 6 := hi; omega), hHolds.words i hi]
  · have hSize := host.fits
    rw [← hHolds.mask set hSet]
    exact Bytes.loadWord_congr fun a hLow hHigh =>
      h a (by omega) (by simp only [jbSigmask] at *; omega)
  · rw [hRead jbSigflag (by decide), hHolds.sigflag]
  · rw [hRead jbChecksum (by decide), hHolds.checksum]
    exact checksum_congr fun a hLow hHigh => (h a hLow (by omega)).symm

theorem Context.flag_low (c : Context host) : c.flag &&& ~~~1 = 0 := by
  unfold Context.flag
  split <;> rfl

section Held

variable {mem : Bytes} {env : Nat} {p : Process host} {c : Context host}

theorem Holds.sigflag_cookie (hHolds : Holds mem env p.setjmpCookie c) :
    read mem (env + jbSigflag * 4) &&& ~~~1 = p.setjmpCookie := by
  rw [hHolds.sigflag]
  exact Setjmp.sigflag_cookie c.flag_low

theorem Holds.unmangled (hHolds : Holds mem env p.setjmpCookie c) {i : Nat}
    (hi : i < c.words.length) : unmangled mem env i = c.words[i] := by
  have hCookie : read mem (env + jbSigflag * 4) &&& -2 = p.setjmpCookie := hHolds.sigflag_cookie
  rw [Setjmp.unmangled, hCookie, hHolds.words i hi, BitVec.xor_comm]
  exact xor_xor_same ..

theorem Holds.registers (hHolds : Holds mem env p.setjmpCookie c) :
    Setjmp.unmangled mem env jbEdx = c.pc ∧ Setjmp.unmangled mem env jbEbx = c.ebx ∧
      Setjmp.unmangled mem env jbEsp = c.esp ∧ Setjmp.unmangled mem env jbEbp = c.ebp ∧
      Setjmp.unmangled mem env jbEsi = c.esi ∧ Setjmp.unmangled mem env jbEdi = c.edi :=
  have hLength : c.words.length = 6 := rfl
  ⟨hHolds.unmangled (i := jbEdx) (hLength ▸ by decide),
    hHolds.unmangled (i := jbEbx) (hLength ▸ by decide),
    hHolds.unmangled (i := jbEsp) (hLength ▸ by decide),
    hHolds.unmangled (i := jbEbp) (hLength ▸ by decide),
    hHolds.unmangled (i := jbEsi) (hLength ▸ by decide),
    hHolds.unmangled (i := jbEdi) (hLength ▸ by decide)⟩

theorem Holds.unmasked (hHolds : Holds mem env p.setjmpCookie c) (p' : Process host) :
    unmasked mem env p' = c.mask.elim p' p'.restored := by
  have hFlag : read mem (env + jbSigflag * 4) &&& 1 = c.flag := by
    rw [hHolds.sigflag, BitVec.and_comm, BitVec.and_or_distrib_left, BitVec.and_comm, p.flagless,
      BitVec.and_comm, and_one c.flag_low]
    exact BitVec.zero_or
  rw [Setjmp.unmasked, hFlag, Context.flag]
  cases hMask : c.mask with
  | none => rfl
  | some set =>
    have hSet : loadSet host mem (env + jbSigmask * 4) = set := by
      rw [loadSet, hHolds.mask set hMask, BitVec.ofNat_toNat, BitVec.setWidth_eq]
    rw [hSet]
    rfl

end Held

/-! ### Jumps -/

/-- The program goes on where it was, with the value that the second return of `setjmp` gives. -/
structure BackAt (t : Thread host) (val : Word) (r : Returned host) : Prop where
  pc : r.pc = t.pc
  reg : ∀ reg ∈ [Reg.ebx, .esp, .ebp, .esi, .edi], r.machine.reg reg = t.machine.reg reg
  eax : r.machine.reg .eax = if val = 0 then 1 else val

theorem setjmp_holds {entry : Entry} {site : Site} {t t₁ : Thread host} {env : Word}
    {room : Nat} (hEnv : read t.machine.mem ((t.machine.reg .esp).toNat + 4) = env)
    (hSite : site.Within room) (hApart : Apart room (t.machine.reg .esp) env)
    (hSet : step t (.setjmp entry site) = some t₁) :
    ∃ c : Context host, Holds t₁.machine.mem env.toNat t₁.process.setjmpCookie c ∧
      c.pc = t₁.pc ∧ c.ebx = t₁.machine.reg .ebx ∧ c.esp = t.machine.reg .esp ∧
      c.esp + 4 = t₁.machine.reg .esp ∧ c.ebp = t₁.machine.reg .ebp ∧
      c.esi = t₁.machine.reg .esi ∧ c.edi = t₁.machine.reg .edi ∧
      c.mask = if entry.flag t.machine = 0 then none else some t.process.mask := by
  obtain ⟨m', hCall, hEcx, hEax, hReg, hMem⟩ :=
    entry.call_eq site t.machine t.process hApart.top
  have hEsp := hReg .esp (by decide) (by decide)
  have hSet' : returned (sigsetjmpBody site m' t.process) = some t₁ := hCall ▸ hSet
  cases hBody : sigsetjmpBody site m' t.process with
  | error e =>
    rw [hBody] at hSet'
    contradiction
  | ok r =>
    rw [hBody] at hSet'
    obtain rfl := Option.some.inj hSet'
    have hApart' : Apart room (m'.reg .esp) (m'.reg .ecx) := by rwa [hEsp, hEcx, hEnv]
    have hFlag : m'.reg .eax &&& ~~~1 = 0 := by
      have hFits := hApart'.fits
      have hBelow := hApart'.below
      have hDepth := hSite 0
      rw [← (cookieGet_spec m' (site.scratch 0) (site.label 0) 0 (by omega) hFits).1]
      exact (sigsetjmpBody_ok hBody).1
    obtain ⟨r', hOk, hPc, -, -, hEsp', hKept, hHolds, -⟩ :=
      sigsetjmpBody_spec (p := t.process) hFlag hSite hApart'
    obtain rfl : r = r' := Except.ok.inj (hBody.symm.trans hOk)
    rw [hEcx, hEnv] at hHolds
    refine ⟨recorded m' t.process, hHolds, hPc.symm, (hKept .ebx (by decide)).symm, hEsp,
      hEsp'.symm, (hKept .ebp (by decide)).symm, (hKept .esi (by decide)).symm,
      (hKept .edi (by decide)).symm, ?_⟩
    rw [recorded, hEax]

/-- A jump goes back behind the `setjmp` that filled the buffer, whatever ran in between, as long as
nothing wrote to the buffer.  Only a cookie drawn as zero does not last.  The signal mask is what
the host's `how` 2 makes of it and of the saved one. -/
theorem longjmp_returns_to_setjmp {entry : Entry} {site site' : Site}
    {t t₁ t₂ : Thread host} {tr : List (Action host)} {env : Word} {room : Nat}
    (hEnv : read t.machine.mem ((t.machine.reg .esp).toNat + 4) = env)
    (hSite : site.Within room) (hApart : Apart room (t.machine.reg .esp) env)
    (hSet : step t (.setjmp entry site) = some t₁) (hRun : exec step t₁ tr = some t₂)
    (hUntouched : ∀ a, env.toNat ≤ a → a < env.toNat + 40 → t₂.machine.mem a = t₁.machine.mem a)
    (hEnv' : read t₂.machine.mem ((t₂.machine.reg .esp).toNat + 4) = env)
    (hSite' : site'.Within room) (hApart' : Apart room (t₂.machine.reg .esp) env) :
    if t₁.process.setjmpCookie = 0 ∧ t₂.process.setjmpCookie ≠ 0 then
      ∃ p, siglongjmp site' t₂.machine t₂.process = .error ⟨"setjmp cookie mismatch", p⟩
    else
      ∃ r, siglongjmp site' t₂.machine t₂.process = .ok r ∧
        BackAt t₁ (read t₂.machine.mem ((t₂.machine.reg .esp).toNat + 8)) r ∧
        r.process.mask = if entry.flag t.machine = 0 then t₂.process.mask
          else (host.change 2 t₂.process.mask t.process.mask).getD t₂.process.mask := by
  obtain ⟨c, hHolds₁, hPc, hEbx, hEsp, hEsp₁, hEbp, hEsi, hEdi, hMask⟩ :=
    setjmp_holds hEnv hSite hApart hSet
  have hHolds := hHolds₁.congr hUntouched
  obtain ⟨hPc', hEbx', hEsp', hEbp', hEsi', hEdi'⟩ := hHolds.registers
  have hTarget : Apart room (unmangled t₂.machine.mem env.toNat jbEsp) env := by
    rwa [hEsp', hEsp]
  have hEffect := siglongjmp_effect (p := t₂.process) hEnv' hSite' hApart' hTarget
    hHolds.checksum.symm
  rw [hHolds.sigflag_cookie] at hEffect
  have hCookie : t₁.process.setjmpCookie ≠ 0 →
      t₂.process.setjmpCookie = t₁.process.setjmpCookie := by
    intro hNonzero
    refine exec_invariant (I := fun t : Thread host =>
      t.process.setjmpCookie = t₁.process.setjmpCookie) rfl (fun t a t' hI hStep => ?_) hRun
    rw [step_cookie hStep (by rwa [hI]), hI]
  split
  · rename_i hLost
    rw [if_neg fun hEq => hLost.2 (hEq.trans hLost.1)] at hEffect
    exact ⟨_, hEffect⟩
  · rename_i hKept
    have hSame : t₂.process.setjmpCookie = t₁.process.setjmpCookie := by
      by_cases hZero : t₁.process.setjmpCookie = 0
      · rw [hZero]
        exact not_not.mp fun hNonzero => hKept ⟨hZero, hNonzero⟩
      · exact hCookie hZero
    rw [if_pos hSame] at hEffect
    obtain ⟨r, hOk, hProcess, hJumped⟩ := hEffect
    refine ⟨r, hOk, ⟨?_, fun reg hReg => ?_, hJumped.eax⟩, ?_⟩
    · rw [hJumped.pc, hPc', hPc]
    · simp only [List.mem_cons, List.not_mem_nil, or_false] at hReg
      rcases hReg with rfl | rfl | rfl | rfl | rfl
      · rw [hJumped.ebx, hEbx', hEbx]
      · rw [hJumped.esp, hEsp', hEsp₁]
      · rw [hJumped.ebp, hEbp', hEbp]
      · rw [hJumped.esi, hEsi', hEsi]
      · rw [hJumped.edi, hEdi', hEdi]
    · rw [hProcess, hHolds.unmasked, hMask]
      split <;> rfl

/-- macOS: sets of 32 signals; 1 blocks, 2 unblocks and 3 sets, all but `SIGKILL` and `SIGSTOP`. -/
def darwin : HostSignals where
  size := 4
  fits := by decide
  change how old set := Option.map (· &&& ~~~0x10100) <|
    match how.toNat with
    | 1 => some (old ||| set)
    | 2 => some (old &&& ~~~set)
    | 3 => some set
    | _ => none

/-- A caller of `setjmp` on the buffer at 8192, with its stack at 4096 and two signals blocked. -/
def caller : Thread darwin where
  pc := 0
  machine :=
    { reg := fun
        | .esp => 4096
        | .ebp => 5000
        | _ => 7
      zf := false
      mem := write (write Bytes.zero 4096 64) 4100 8192 }
  process := ⟨0, rfl, 3⟩

def quietSite : Site := ⟨fun _ => 1, fun _ => ⟨9, 9, true, 8, Bytes.zero⟩, 5⟩

theorem quietSite_within : quietSite.Within 64 := fun _ => Nat.le_of_ble_eq_true rfl

/-- A third signal is blocked in between; the jump unblocks the saved two instead of this one. -/
theorem longjmp_returns_to_setjmp_again :
    ∃ t₁ r, step caller (.setjmp .setjmp quietSite) = some t₁ ∧
      siglongjmp quietSite (t₁.machine.set .esp 4096) { t₁.process with mask := 7 } = .ok r ∧
      BackAt t₁ 0 r ∧ r.process.mask = 4 := by
  have hAny : (step caller (.setjmp .setjmp quietSite)).any (fun t =>
      t.process.setjmpCookie != 0 && read t.machine.mem 4100 == 8192 &&
        read t.machine.mem 4104 == 0) = true := by
    decide +kernel
  obtain ⟨t₁, hNext, hFacts⟩ := (Option.any_eq_true _ _).mp hAny
  simp only [Bool.and_eq_true, bne_iff_ne, beq_iff_eq] at hFacts
  obtain ⟨⟨hCookie, hArg⟩, hVal⟩ := hFacts
  have hApart : Apart 64 4096 8192 := ⟨by decide, by decide, by decide, by decide⟩
  have hBack := @longjmp_returns_to_setjmp darwin .setjmp quietSite quietSite caller t₁
    ⟨0, t₁.machine.set .esp 4096, { t₁.process with mask := 7 }⟩
    [.guest 0 (t₁.machine.set .esp 4096) 7] 8192 64 (by decide) quietSite_within hApart hNext rfl
    (fun _ _ _ => rfl) hArg quietSite_within hApart
  rw [if_neg fun hLost => hCookie hLost.1] at hBack
  obtain ⟨r, hOk, hBackAt, hMask⟩ := hBack
  have hUnblocked : (darwin.change 2 7 3).getD 7 = 4 := by decide +kernel
  exact ⟨t₁, r, hNext, hOk, hVal ▸ hBackAt, hMask.trans ((if_neg (by decide)).trans hUnblocked)⟩

/-! ### Damaged buffers -/

/-- A jump to a stack apart from the buffer arrives exactly when the checksum and the cookie of the
buffer are right. -/
theorem longjmp_returns_iff {site : Site} {m : Machine} {p : Process host} {env : Word}
    {room : Nat} (hEnv : read m.mem ((m.reg .esp).toNat + 4) = env) (hSite : site.Within room)
    (hApart : Apart room (m.reg .esp) env)
    (hTarget : Apart room (unmangled m.mem env.toNat jbEsp) env) :
    (∃ r, siglongjmp site m p = .ok r) ↔
      checksum m.mem env.toNat = read m.mem (env.toNat + jbChecksum * 4) ∧
        p.setjmpCookie = read m.mem (env.toNat + jbSigflag * 4) &&& ~~~1 := by
  by_cases hSum : checksum m.mem env.toNat = read m.mem (env.toNat + jbChecksum * 4)
  · have hEffect := siglongjmp_effect (p := p) hEnv hSite hApart hTarget hSum
    rw [iff_true_intro hSum, true_and]
    split at hEffect
    · rename_i hCookie
      obtain ⟨r, hOk, -⟩ := hEffect
      exact iff_of_true ⟨r, hOk⟩ hCookie
    · rename_i hCookie
      refine iff_of_false ?_ hCookie
      rintro ⟨r, hOk⟩
      rw [hEffect] at hOk
      contradiction
  · refine iff_of_false ?_ fun h => hSum h.1
    rintro ⟨r, hOk⟩
    rw [siglongjmp_damaged hEnv hApart.fits hApart.top hSum] at hOk
    contradiction

theorem longjmp_returns_iff_unmangled :
    ∃ r, siglongjmp quietSite
      { caller.machine with mem := write (write (write Bytes.zero 4100 8192) 8200 4096) 8228 4096 }
      caller.process = .ok r :=
  (@longjmp_returns_iff darwin quietSite _ _ 8192 64 (by decide +kernel) quietSite_within
    ⟨by decide, by decide, by decide, by decide⟩
    ⟨by decide +kernel, by decide +kernel, by decide, by decide +kernel⟩).mpr
      ⟨by decide +kernel, by decide +kernel⟩

theorem mem_registers {i : Nat} : i ∈ [jbEdx, jbEbx, jbEsp, jbEbp, jbEsi, jbEdi] ↔ i ≤ jbEdi := by
  simp [jbEdx, jbEbx, jbEsp, jbEbp, jbEsi, jbEdi]
  omega

/-- One damaged word, of a register or of the checksum itself, does not get past the check. -/
theorem damaged_buffer_stops_longjmp {entry : Entry} {site site' : Site}
    {t t₁ t₂ : Thread host} {env : Word} {room i : Nat}
    (hEnv : read t.machine.mem ((t.machine.reg .esp).toNat + 4) = env)
    (hSite : site.Within room) (hApart : Apart room (t.machine.reg .esp) env)
    (hSet : step t (.setjmp entry site) = some t₁) (hIndex : i ≤ jbEdi ∨ i = jbChecksum)
    (hDamaged : read t₂.machine.mem (env.toNat + i * 4) ≠ read t₁.machine.mem (env.toNat + i * 4))
    (hOther : ∀ j, j ≠ i → j ≤ jbEdi ∨ j = jbChecksum →
      read t₂.machine.mem (env.toNat + j * 4) = read t₁.machine.mem (env.toNat + j * 4))
    (hEnv' : read t₂.machine.mem ((t₂.machine.reg .esp).toNat + 4) = env)
    (hTop : (t₂.machine.reg .esp).toNat + 12 ≤ 4294967296) :
    siglongjmp site' t₂.machine t₂.process = .error (setjmpChecksumMismatch t₂.process) := by
  obtain ⟨c, hHolds, -⟩ := setjmp_holds hEnv hSite hApart hSet
  have hSum := hHolds.checksum
  refine siglongjmp_damaged hEnv' hApart.fits hTop ?_
  have hApartWords : ∀ j ≤ jbEdi, j ≠ jbChecksum := fun j hj hEq => by
    rw [hEq] at hj
    contradiction
  rcases hIndex with hRegister | rfl
  · rw [hOther jbChecksum (hApartWords i hRegister).symm (Or.inr rfl), hSum]
    exact foldl_xor_ne (by decide) (mem_registers.mpr hRegister) hDamaged
      fun j hj hNe => hOther j hNe (Or.inl (mem_registers.mp hj))
  · have hSame : checksum t₂.machine.mem env.toNat = checksum t₁.machine.mem env.toNat :=
      (foldl_xor_iff fun j hj => hOther j (hApartWords j (mem_registers.mp hj))
        (Or.inl (mem_registers.mp hj))).mpr rfl
    rw [hSame, ← hSum]
    exact hDamaged.symm

theorem damaged_buffer_stops_longjmp_esi :
    ∃ t₁, step caller (.setjmp .setjmp quietSite) = some t₁ ∧
      siglongjmp quietSite { caller.machine with mem := write t₁.machine.mem 8208 0 } t₁.process =
        .error (setjmpChecksumMismatch t₁.process) := by
  have hAny : (step caller (.setjmp .setjmp quietSite)).any (fun t =>
      read t.machine.mem 4100 == 8192 && read t.machine.mem 8208 != 0) = true := by
    decide +kernel
  obtain ⟨t₁, hNext, hFacts⟩ := (Option.any_eq_true _ _).mp hAny
  simp only [Bool.and_eq_true, bne_iff_ne, beq_iff_eq] at hFacts
  obtain ⟨hArg, hEsi⟩ := hFacts
  refine ⟨t₁, hNext, ?_⟩
  refine @damaged_buffer_stops_longjmp darwin .setjmp quietSite quietSite caller t₁
    ⟨0, { caller.machine with mem := write t₁.machine.mem 8208 0 }, t₁.process⟩ 8192 64 jbEsi
    (by decide) quietSite_within ⟨by decide, by decide, by decide, by decide⟩ hNext
    (Or.inl (by decide)) ?_ (fun j hNe _ => ?_) ?_
    (show (4096 : Word).toNat + 12 ≤ 4294967296 by decide)
  · show read (write t₁.machine.mem 8208 0) 8208 ≠ read t₁.machine.mem 8208
    rw [read_write]
    exact hEsi.symm
  · show read (write t₁.machine.mem 8208 0) (8192 + j * 4) = read t₁.machine.mem (8192 + j * 4)
    exact read_write_disjoint (by simp only [jbEsi] at hNe; omega)
  · show read (write t₁.machine.mem 8208 0) 4100 = 8192
    rw [read_write_disjoint (by decide), hArg]

end LibcShim.Setjmp
