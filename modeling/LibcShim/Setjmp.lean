import LibcShim.Kit.X86

/-! `setjmp` and `longjmp` for 32-bit x86: the instructions of setjmp.S and the cookie functions
that they call. -/

namespace LibcShim.Setjmp

open Kit Kit.X86

/-- The words of a `jmp_buf`, `_JB_EDX` to `_JB_CHECKSUM`. -/
def jbEdx : Nat := 0
def jbEbx : Nat := 1
def jbEsp : Nat := 2
def jbEbp : Nat := 3
def jbEsi : Nat := 4
def jbEdi : Nat := 5
def jbSigmask : Nat := 6
def jbSigflag : Nat := 8
def jbChecksum : Nat := 9

/-- The signal sets of the host, of `size` bytes, and the mask that its `sigprocmask` makes of the
present one and a set; `none` is a `how` that it refuses. -/
structure HostSignals where
  size : Nat
  fits : size ≤ 8
  change : Word → BitVec (size * 8) → BitVec (size * 8) → Option (BitVec (size * 8))

abbrev HostSignals.Sigset (host : HostSignals) := BitVec (host.size * 8)

/-- The cookie leaves the low bit of its word to the signal flag. -/
structure Process (host : HostSignals) where
  setjmpCookie : Word
  flagless : setjmpCookie &&& 1 = 0
  mask : host.Sigset

variable {host : HostSignals}

theorem Process.mask_lt (p : Process host) : p.mask.toNat < 256 ^ host.size := by
  have hBytes : 256 ^ host.size = 2 ^ (host.size * 8) := by
    rw [Nat.mul_comm, Nat.pow_mul]
  exact hBytes ▸ p.mask.isLt

structure Abort (host : HostSignals) where
  message : String
  process : Process host

/-! ### setjmp_cookie.c -/

def initSetjmpCookie (arc4random : Word) (p : Process host) : Process host :=
  { p with
    setjmpCookie := arc4random &&& ~~~1
    flagless := by rw [BitVec.and_assoc, BitVec.not_and_self]; exact BitVec.and_zero }

def setjmpCookieGet (arc4random : Word) (p : Process host) (sigflag : Word) :
    Except (Abort host) (Word × Process host) :=
  let p := if p.setjmpCookie = 0 then initSetjmpCookie arc4random p else p
  if sigflag &&& ~~~1 ≠ 0 then
    .error ⟨"unexpected sigflag value: " ++ toString sigflag.toInt ++ "\n", p⟩
  else .ok (p.setjmpCookie ||| sigflag, p)

def setjmpCookieCheck (p : Process host) (cookie : Word) :
    Except (Abort host) Word :=
  if p.setjmpCookie ≠ cookie &&& ~~~1 then .error ⟨"setjmp cookie mismatch", p⟩
  else .ok (cookie &&& 1)

def setjmpChecksumMismatch (p : Process host) : Abort host :=
  ⟨"setjmp checksum mismatch\n", p⟩

/-! ### The host's `sigprocmask` -/

def loadSet (host : HostSignals) (mem : Bytes) (a : Nat) : host.Sigset :=
  BitVec.ofNat _ (mem.loadWord a host.size)

/-- `sigprocmask(how, set, oldset)` with its arguments on the stack. -/
def sigprocmask (k : Scratch) (m : Machine) (p : Process host) : Machine × Process host :=
  let how := read m.mem (m.reg .esp).toNat
  let set := read m.mem ((m.reg .esp).toNat + 4)
  let oldset := read m.mem ((m.reg .esp).toNat + 8)
  let next := if set = 0 then some p.mask
    else host.change how p.mask (loadSet host m.mem set.toNat)
  match next with
  | none => (m.called k 3 (-1), p)
  | some next =>
    let m := m.called k 3 0
    let mem := if oldset = 0 then m.mem
      else m.mem.storeWord oldset.toNat host.size p.mask.toNat
    ({ m with mem }, { p with mask := next })

/-! ### setjmp.S -/

def at4 (index : Nat) (base : Reg) : Operand := .mem (BitVec.ofNat 32 (index * 4)) base

/-- `call 666f` pushes the address of the label behind it. -/
def picPrologue (label : Word) : List Instr :=
  [.pushl (.reg .ebx), .pushl (.imm label), .popl .ebx]

def picEpilogue : List Instr := [.popl .ebx]

def mangleRegisters (reg : Reg) : List Instr :=
  [.xorl (.reg reg) (.reg .edx), .xorl (.reg reg) (.reg .ebx), .xorl (.reg reg) (.reg .esp),
    .xorl (.reg reg) (.reg .ebp), .xorl (.reg reg) (.reg .esi), .xorl (.reg reg) (.reg .edi)]

def calculateChecksum (dst src : Reg) : List Instr :=
  .movl (.imm 0) (.reg dst) ::
    [0, 1, 2, 3, 4, 5].map fun i => .xorl (at4 i src) (.reg dst)

/-- What the code around a call of the assembly supplies: the addresses of its labels, what the
called functions leave behind, and the next random number. -/
structure Site where
  label : Nat → Word
  scratch : Nat → Scratch
  arc4random : Word

/-- Where the control goes after the function, with the machine there. -/
structure Returned (host : HostSignals) where
  pc : Word
  machine : Machine
  process : Process host

abbrev Result (host : HostSignals) :=
  Except (Abort host) (Returned host)

def ret (m : Machine) (p : Process host) : Returned host :=
  ⟨read m.mem (m.reg .esp).toNat, m.set .esp (m.reg .esp + 4), p⟩

def cookieGetArgs (label : Word) : List Instr :=
  picPrologue label ++ [.pushl (.reg .ecx), .pushl (.reg .eax)]

def cookieGetDone : List Instr :=
  [.addl (.imm 4) (.reg .esp), .popl .ecx] ++ picEpilogue ++
    [.movl (.reg .eax) (at4 jbSigflag .ecx), .testl (.imm 1) (.reg .eax)]

def saveMaskArgs (label : Word) : List Instr :=
  [.pushl (.reg .ecx)] ++ picPrologue label ++
    [.leal (at4 jbSigmask .ecx) .eax, .subl (.imm 8) (.reg .esp), .pushl (.reg .eax),
      .pushl (.imm 0), .pushl (.imm 2)]

def saveMaskDone : List Instr :=
  [.addl (.imm 12) (.reg .esp), .addl (.imm 8) (.reg .esp)] ++ picEpilogue ++ [.popl .ecx]

def saveRegisters : List Instr :=
  [.movl (at4 jbSigflag .ecx) (.reg .eax), .andl (.imm (-2)) (.reg .eax),
    .movl (at4 0 .esp) (.reg .edx)] ++ mangleRegisters .eax ++
    [.movl (.reg .edx) (at4 jbEdx .ecx), .movl (.reg .ebx) (at4 jbEbx .ecx),
      .movl (.reg .esp) (at4 jbEsp .ecx), .movl (.reg .ebp) (at4 jbEbp .ecx),
      .movl (.reg .esi) (at4 jbEsi .ecx), .movl (.reg .edi) (at4 jbEdi .ecx)] ++
    mangleRegisters .eax ++ calculateChecksum .eax .ecx ++
    [.movl (.reg .eax) (at4 jbChecksum .ecx), .xorl (.reg .eax) (.reg .eax)]

/-- `jz 1f` goes past the call. -/
def saveMask (k : Scratch) (label : Word) (m : Machine) (p : Process host) :
    Machine × Process host :=
  if m.zf then (m, p) else
    let (m, p) := sigprocmask k (m.block (saveMaskArgs label)) p
    (m.block saveMaskDone, p)

/-- `.L_sigsetjmp`: the buffer in `ecx`, the flag in `eax`. -/
def sigsetjmpBody (site : Site) (m : Machine) (p : Process host) : Result host := do
  let m := m.block (cookieGetArgs (site.label 0))
  let (cookie, p) ← setjmpCookieGet site.arc4random p (read m.mem (m.reg .esp).toNat)
  let m := (m.called (site.scratch 0) 1 cookie).block cookieGetDone
  let (m, p) := saveMask (site.scratch 1) (site.label 1) m p
  return ret (m.block saveRegisters) p

def setjmp (site : Site) (m : Machine) (p : Process host) : Result host :=
  sigsetjmpBody site
    (m.block [.movl (at4 1 .esp) (.reg .ecx), .movl (.imm 1) (.reg .eax)]) p

def underscoreSetjmp (site : Site) (m : Machine) (p : Process host) :
    Result host :=
  sigsetjmpBody site
    (m.block [.movl (at4 1 .esp) (.reg .ecx), .movl (.imm 0) (.reg .eax)]) p

def sigsetjmp (site : Site) (m : Machine) (p : Process host) : Result host :=
  sigsetjmpBody site
    (m.block [.movl (at4 1 .esp) (.reg .ecx), .movl (at4 2 .esp) (.reg .eax)]) p

def checkChecksum : List Instr :=
  [.movl (at4 1 .esp) (.reg .edx)] ++ calculateChecksum .eax .edx ++
    [.xorl (at4 jbChecksum .edx) (.reg .eax)]

def loadSigflag : List Instr :=
  [.movl (at4 jbSigflag .edx) (.reg .eax), .testl (.imm 1) (.reg .eax)]

def restoreMaskArgs (label : Word) : List Instr :=
  [.leal (at4 jbSigmask .edx) .eax] ++ picPrologue label ++
    [.pushl (.imm 0), .pushl (.reg .eax), .pushl (.imm 2)]

def restoreMaskDone : List Instr := [.addl (.imm 12) (.reg .esp)] ++ picEpilogue

def restoreMask (k : Scratch) (label : Word) (m : Machine) (p : Process host) :
    Machine × Process host :=
  if m.zf then (m, p) else
    let (m, p) := sigprocmask k (m.block (restoreMaskArgs label)) p
    (m.block restoreMaskDone, p)

def restoreRegisters : List Instr :=
  [.movl (at4 1 .esp) (.reg .edx), .movl (at4 2 .esp) (.reg .eax),
    .movl (at4 jbSigflag .edx) (.reg .ecx), .andl (.imm (-2)) (.reg .ecx),
    .movl (.reg .ecx) (.reg .ebx), .movl (.reg .ecx) (.reg .esp), .movl (.reg .ecx) (.reg .ebp),
    .movl (.reg .ecx) (.reg .esi), .movl (.reg .ecx) (.reg .edi),
    .xorl (at4 jbEdx .edx) (.reg .ecx), .xorl (at4 jbEbx .edx) (.reg .ebx),
    .xorl (at4 jbEsp .edx) (.reg .esp), .xorl (at4 jbEbp .edx) (.reg .ebp),
    .xorl (at4 jbEsi .edx) (.reg .esi), .xorl (at4 jbEdi .edx) (.reg .edi)]

def cookieCheckArgs (label : Word) : List Instr :=
  picPrologue label ++ [.pushl (.reg .eax), .pushl (.reg .ecx), .pushl (at4 jbSigflag .edx)]

def cookieCheckDone : List Instr :=
  [.addl (.imm 4) (.reg .esp), .popl .ecx, .popl .eax] ++ picEpilogue ++
    [.testl (.reg .eax) (.reg .eax)]

def siglongjmp (site : Site) (m : Machine) (p : Process host) : Result host := do
  let m := m.block checkChecksum
  if !m.zf then throw (setjmpChecksumMismatch p) else
  let m := m.block loadSigflag
  let (m, p) := restoreMask (site.scratch 0) (site.label 0) m p
  let m := (m.block restoreRegisters).block (cookieCheckArgs (site.label 1))
  let flag ← setjmpCookieCheck p (read m.mem (m.reg .esp).toNat)
  let m := (m.called (site.scratch 1) 1 flag).block cookieCheckDone
  let m := if m.zf then m.block [.incl (.reg .eax)] else m
  return ret (m.block [.movl (.reg .ecx) (at4 0 .esp)]) p

end LibcShim.Setjmp
