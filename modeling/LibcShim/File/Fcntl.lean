import LibcShim.Kit.Renumber
import Mathlib.Data.BitVec

/-! `fcntl`: the status flags of a descriptor in both directions, and the guest that reads them,
adds `NONBLOCK` and writes them back. -/

namespace LibcShim.File

open Kit

inductive StatusFlag
  | rdonly
  | wronly
  | rdwr
  | creat
  | excl
  | noctty
  | trunc
  | append
  | nonblock
  | cloexec
  deriving DecidableEq, Repr

namespace StatusFlag

/-- `bionic::file_status_flags`. -/
def bionic : StatusFlag → BitVec 32
  | .rdonly => 0o0
  | .wronly => 0o1
  | .rdwr => 0o2
  | .creat => 0o100
  | .excl => 0o200
  | .noctty => 0o400
  | .trunc => 0o1000
  | .append => 0o2000
  | .nonblock => 0o4000
  | .cloexec => 0o2000000

def all : List StatusFlag :=
  [.rdonly, .wronly, .rdwr, .creat, .excl, .noctty, .trunc, .append, .nonblock, .cloexec]

theorem mem_all (a : StatusFlag) : a ∈ all := by cases a <;> decide

theorem bionic_nonzero {a : StatusFlag} (h : a ≠ .rdonly) : a.bionic ≠ 0 := by
  cases a <;> first | decide | exact absurd rfl h

theorem bionic_disjoint {a b : StatusFlag} (h : b.bionic &&& a.bionic ≠ 0) : b = a := by
  revert h
  cases a <;> cases b <;> decide

end StatusFlag

def knownFlags : BitVec 32 := StatusFlag.all.foldl (fun ret a => ret ||| a.bionic) 0

structure Flock where
  type : Int
  whence : Int
  start : Int
  len : Int
  pid : Int
  deriving DecidableEq, Repr

/-- The flags of the open file, or the error that the host answers with; and the host's errno. -/
structure FdState where
  status : Except Int (BitVec 32)
  errno : Int

/-- The host's `O_` constants, the flags that its `F_SETFL` can change, and its other commands. -/
structure FcntlHost where
  flag : StatusFlag → BitVec 32
  settable : BitVec 32
  rdonly_zero : flag .rdonly = 0
  single : ∀ a, a ≠ .rdonly → ∃ k < 32, flag a = BitVec.twoPow 32 k
  disjoint : ∀ a b, flag a &&& flag b ≠ 0 → a = b
  nonblock_settable : settable &&& flag .nonblock ≠ 0
  setfd (arg : BitVec 32) (s : FdState) : BitVec 32 × FdState
  setlk (lock : Flock) (s : FdState) : BitVec 32 × FdState

namespace FcntlHost

/-- `fcntl(fd, F_GETFL)`. -/
def getfl (_ : FcntlHost) (s : FdState) : BitVec 32 × FdState :=
  match s.status with
  | .error e => (-1, { s with errno := e })
  | .ok word => (word, s)

/-- `fcntl(fd, F_SETFL, flags)`. -/
def setfl (host : FcntlHost) (flags : BitVec 32) (s : FdState) : BitVec 32 × FdState :=
  match s.status with
  | .error e => (-1, { s with errno := e })
  | .ok word =>
    (0, { s with status := .ok (word &&& ~~~host.settable ||| flags &&& host.settable) })

end FcntlHost

def toHostFileStatusFlags (host : FcntlHost) (flags : BitVec 32) : BitVec 32 :=
  remask StatusFlag.all (fun a => some a.bionic) host.flag flags

/-- The check has the guest's numbers, and the word is the host's. -/
def fromHostFileStatusFlags (host : FcntlHost) (flags : BitVec 32) : Except String (BitVec 32) :=
  if flags &&& ~~~knownFlags ≠ 0 then .error s!"Unsupported fd flag used {flags.toInt}"
  else .ok (remask StatusFlag.all (fun a => some (host.flag a)) StatusFlag.bionic flags)

/-- The third argument, as a number and as a pointer. -/
structure FcntlArg where
  word : BitVec 64
  lock : Flock

def fcntl (host : FcntlHost) (cmd : Int) (arg : FcntlArg) (s : FdState) :
    Except String (BitVec 32) × FdState :=
  match cmd with
  | 2 =>
    let (ret, s) := host.setfd (arg.word.setWidth 32) s
    (.ok ret, s)
  | 3 =>
    let (ret, s) := host.getfl s
    (fromHostFileStatusFlags host ret, s)
  | 4 =>
    let (ret, s) := host.setfl (toHostFileStatusFlags host (arg.word.setWidth 32)) s
    (.ok ret, s)
  | 6 =>
    let afl := arg.lock
    let (ret, s) := host.setlk ⟨afl.type, afl.whence, afl.start, afl.len, afl.pid⟩ s
    (.ok ret, s)
  | cmd => (.error s!"Unsupported fcntl {cmd}", s)

/-! ### Read, modify, write -/

/-- A flag word as the argument of `SETFL`. -/
def FcntlArg.ofFlags (flags : BitVec 32) (lock : Flock) : FcntlArg := ⟨flags.signExtend 64, lock⟩

/-- The guest's word has the guest's form of the host's flags and no other bit. -/
def GuestForm (host : FcntlHost) (word guest : BitVec 32) : Prop :=
  ∀ bits, guest &&& bits ≠ 0 ↔ ∃ a, word &&& host.flag a ≠ 0 ∧ a.bionic &&& bits ≠ 0

/-- `O_NONBLOCK` is set, and what else `F_SETFL` can change is as it was. -/
structure OnlyNonblock (host : FcntlHost) (word word' : BitVec 32) : Prop where
  set : word' &&& host.flag .nonblock = host.flag .nonblock
  kept : word' &&& host.settable &&& ~~~host.flag .nonblock =
    word &&& host.settable &&& ~~~host.flag .nonblock

structure FaithfulStatus (host : FcntlHost) (s : FdState) (arg : FcntlArg) : Prop where
  fails : ∀ e, s.status = .error e → fcntl host 3 arg s = (.ok (-1), { s with errno := e })
  reads : ∀ word, s.status = .ok word →
    ∃ guest, fcntl host 3 arg s = (.ok guest, s) ∧ GuestForm host word guest
  sets : ∀ word guest, s.status = .ok word → fcntl host 3 arg s = (.ok guest, s) →
    ∃ word', fcntl host 4 (.ofFlags (guest ||| StatusFlag.nonblock.bionic) arg.lock) s =
      (.ok 0, { s with status := .ok word' }) ∧ OnlyNonblock host word word'

/-- The bits of the host's constants. -/
def translated (host : FcntlHost) : BitVec 32 :=
  remask StatusFlag.all (fun a => some (host.flag a)) host.flag (BitVec.allOnes 32)

section Bits

variable {host : FcntlHost} {word guest : BitVec 32} {a : StatusFlag} {i : Nat}

theorem whole (hMeets : word &&& host.flag a ≠ 0) : word &&& host.flag a = host.flag a := by
  by_cases ha : a = .rdonly
  · rw [ha, host.rdonly_zero] at hMeets
    exact absurd BitVec.and_zero hMeets
  · obtain ⟨k, -, hSingle⟩ := host.single a ha
    rw [hSingle, BitVec.and_twoPow] at hMeets ⊢
    split_ifs at hMeets ⊢ with hBit
    · rfl
    · exact absurd rfl hMeets

theorem bit_of_meets (hMeets : word &&& host.flag a ≠ 0) (hBit : (host.flag a).getLsbD i) :
    word.getLsbD i := by
  rw [← whole hMeets, BitVec.getLsbD_and, Bool.and_eq_true] at hBit
  exact hBit.1

theorem translated_getLsbD : (translated host).getLsbD i ↔ ∃ a, (host.flag a).getLsbD i := by
  unfold translated
  rw [remask_getLsbD]
  constructor
  · rintro ⟨a, -, -, hBit⟩
    exact ⟨a, hBit⟩
  · rintro ⟨a, hBit⟩
    refine ⟨a, a.mem_all, ?_, hBit⟩
    have hOnes : (BitVec.allOnes 32).getLsbD i := by
      rw [BitVec.getLsbD_allOnes]
      exact decide_eq_true (BitVec.lt_of_getLsbD hBit)
    simpa [flagSet] using and_ne_zero_of_getLsbD hOnes hBit

theorem guestForm_remask : GuestForm host word
    (remask StatusFlag.all (fun a => some (host.flag a)) StatusFlag.bionic word) := by
  intro bits
  rw [remask_and]
  simp [flagSet, StatusFlag.mem_all]

theorem GuestForm.flag (hGuest : GuestForm host word guest) :
    guest &&& a.bionic ≠ 0 ↔ word &&& host.flag a ≠ 0 := by
  rw [hGuest]
  constructor
  · rintro ⟨b, hWord, hBits⟩
    exact StatusFlag.bionic_disjoint hBits ▸ hWord
  · intro hWord
    refine ⟨a, hWord, ?_⟩
    rw [BitVec.and_self]
    refine StatusFlag.bionic_nonzero fun hRdonly => hWord ?_
    rw [hRdonly, host.rdonly_zero]
    exact BitVec.and_zero

/-- What is written back has the flags that were read, and `O_NONBLOCK`. -/
theorem toHost_getLsbD (hGuest : GuestForm host word guest) :
    (toHostFileStatusFlags host (guest ||| StatusFlag.nonblock.bionic)).getLsbD i ↔
      ∃ a, (word &&& host.flag a ≠ 0 ∨ a = .nonblock) ∧ (host.flag a).getLsbD i := by
  have hFlag : ∀ a : StatusFlag, (guest ||| StatusFlag.nonblock.bionic) &&& a.bionic ≠ 0 ↔
      word &&& host.flag a ≠ 0 ∨ a = .nonblock := by
    intro a
    rw [or_and_ne_zero, hGuest.flag]
    refine or_congr_right ⟨fun h => (StatusFlag.bionic_disjoint h).symm, ?_⟩
    rintro rfl
    decide
  unfold toHostFileStatusFlags
  rw [remask_getLsbD]
  simp only [flagSet, Option.any_some, bne_iff_ne, hFlag, StatusFlag.mem_all, true_and]

theorem settable_nonblock (hNonblock : (host.flag .nonblock).getLsbD i) :
    host.settable.getLsbD i :=
  bit_of_meets host.nonblock_settable hNonblock

/-- The flags after `SETFL`, bit by bit. -/
theorem onlyNonblock_iff (hGuest : GuestForm host word guest) :
    OnlyNonblock host word (word &&& ~~~host.settable |||
        toHostFileStatusFlags host (guest ||| StatusFlag.nonblock.bionic) &&& host.settable) ↔
      word &&& host.settable &&& ~~~translated host = 0 := by
  have hNonblock : ∀ i, (host.flag .nonblock).getLsbD i →
      (toHostFileStatusFlags host (guest ||| StatusFlag.nonblock.bionic)).getLsbD i :=
    fun i hBit => (toHost_getLsbD hGuest).mpr ⟨.nonblock, Or.inr rfl, hBit⟩
  have hOther : ∀ i, ¬(host.flag .nonblock).getLsbD i →
      ((toHostFileStatusFlags host (guest ||| StatusFlag.nonblock.bionic)).getLsbD i ↔
        word.getLsbD i ∧ (translated host).getLsbD i) := by
    intro i hNot
    rw [toHost_getLsbD hGuest, translated_getLsbD]
    constructor
    · rintro ⟨a, hMeets | rfl, hBit⟩
      · exact ⟨bit_of_meets hMeets hBit, a, hBit⟩
      · exact absurd hBit hNot
    · rintro ⟨hWord, a, hBit⟩
      exact ⟨a, Or.inl (and_ne_zero_of_getLsbD hWord hBit), hBit⟩
  generalize toHostFileStatusFlags host (guest ||| StatusFlag.nonblock.bionic) = given
    at hNonblock hOther ⊢
  constructor
  · rintro ⟨-, hKept⟩
    refine BitVec.eq_of_getLsbD_eq fun i hi => ?_
    have hBit := congrArg (BitVec.getLsbD · i) hKept
    have hGiven := hOther i
    have hTranslated : (host.flag .nonblock).getLsbD i → (translated host).getLsbD i :=
      fun hNb => translated_getLsbD.mpr ⟨.nonblock, hNb⟩
    simp only [BitVec.getLsbD_and, BitVec.getLsbD_or, BitVec.getLsbD_not, BitVec.ofNat_eq_ofNat,
      BitVec.getLsbD_zero] at hBit ⊢
    grind
  · intro hAll
    constructor
    · refine BitVec.eq_of_getLsbD_eq fun i _ => ?_
      have hSettable : (host.flag .nonblock).getLsbD i → host.settable.getLsbD i :=
        settable_nonblock
      have hGiven := hNonblock i
      simp only [BitVec.getLsbD_and, BitVec.getLsbD_or, BitVec.getLsbD_not]
      grind
    · refine BitVec.eq_of_getLsbD_eq fun i _ => ?_
      have hGiven := hOther i
      have hBit := congrArg (BitVec.getLsbD · i) hAll
      simp only [BitVec.getLsbD_and, BitVec.getLsbD_or, BitVec.getLsbD_not, BitVec.ofNat_eq_ofNat,
        BitVec.getLsbD_zero] at hBit ⊢
      grind

end Bits

/-! ### The commands -/

section Commands

variable {host : FcntlHost} {arg : FcntlArg} {s : FdState} {word : BitVec 32}

theorem fromHostFileStatusFlags_ok {guest : BitVec 32} :
    fromHostFileStatusFlags host word = .ok guest ↔ word &&& ~~~knownFlags = 0 ∧
      remask StatusFlag.all (fun a => some (host.flag a)) StatusFlag.bionic word = guest := by
  unfold fromHostFileStatusFlags
  by_cases hKnown : word &&& ~~~knownFlags = 0
  · rw [if_neg (not_not.mpr hKnown), Except.ok.injEq]
    exact (and_iff_right hKnown).symm
  · rw [if_pos hKnown]
    exact iff_of_false (by simp) fun h => hKnown h.1

/-- The word of a failed `F_GETFL` does not pass the check. -/
theorem fcntl_getfl_error {e : Int} (hStatus : s.status = .error e) :
    (fcntl host 3 arg s).1 = .error "Unsupported fd flag used -1" := by
  simp only [fcntl, FcntlHost.getfl, hStatus, fromHostFileStatusFlags]
  rw [if_pos (by decide)]
  rfl

theorem fcntl_getfl_ok (hStatus : s.status = .ok word) :
    fcntl host 3 arg s = (fromHostFileStatusFlags host word, s) := by
  simp only [fcntl, FcntlHost.getfl, hStatus]

theorem fcntl_setfl_ok {flags : BitVec 32} {lock : Flock} (hStatus : s.status = .ok word) :
    fcntl host 4 (.ofFlags flags lock) s = (.ok 0, { s with status := .ok (word &&& ~~~host.settable
      ||| toHostFileStatusFlags host flags &&& host.settable) }) := by
  have hWord : (FcntlArg.ofFlags flags lock).word.setWidth 32 = flags := by
    refine BitVec.eq_of_getLsbD_eq fun i hi => ?_
    rw [FcntlArg.ofFlags, BitVec.getLsbD_setWidth, BitVec.getLsbD_signExtend]
    simp [hi, Nat.lt_trans hi (by decide : 32 < 64)]
  simp only [fcntl, FcntlHost.setfl, hStatus, hWord]

end Commands

/-- The idiom is faithful exactly where the status can be read, has no bit beyond the guest's own
constants, and has no flag that `F_SETFL` can change and the translation does not know. -/
theorem fcntl_faithful (host : FcntlHost) (s : FdState) (arg : FcntlArg) :
    FaithfulStatus host s arg ↔ ∃ word, s.status = .ok word ∧ word &&& ~~~knownFlags = 0 ∧
      word &&& host.settable &&& ~~~translated host = 0 := by
  cases hStatus : s.status with
  | error e =>
    refine iff_of_false (fun hFaithful => ?_) (by simp)
    have hFails := congrArg Prod.fst (hFaithful.fails e hStatus)
    rw [fcntl_getfl_error hStatus] at hFails
    cases hFails
  | ok word =>
    simp only [Except.ok.injEq, exists_eq_left']
    have hGuest : GuestForm host word _ := guestForm_remask
    constructor
    · intro hFaithful
      obtain ⟨guest, hRead, hForm⟩ := hFaithful.reads word hStatus
      obtain ⟨word', hSet, hOnly⟩ := hFaithful.sets word guest hStatus hRead
      rw [fcntl_setfl_ok hStatus] at hSet
      obtain rfl := Except.ok.inj (congrArg (fun r => r.2.status) hSet)
      rw [fcntl_getfl_ok hStatus] at hRead
      have hKnown := (fromHostFileStatusFlags_ok.mp (congrArg Prod.fst hRead)).1
      exact ⟨hKnown, (onlyNonblock_iff hForm).mp hOnly⟩
    · rintro ⟨hKnown, hSettable⟩
      have hRead : fromHostFileStatusFlags host word = .ok _ :=
        fromHostFileStatusFlags_ok.mpr ⟨hKnown, rfl⟩
      refine ⟨fun e hError => ?_, fun v hv => ?_, fun v guest hv hSecond => ?_⟩
      · rw [hStatus] at hError
        cases hError
      · obtain rfl : word = v := Except.ok.inj (hStatus.symm.trans hv)
        exact ⟨_, (fcntl_getfl_ok hStatus).trans (congrArg (·, s) hRead), hGuest⟩
      · obtain rfl : word = v := Except.ok.inj (hStatus.symm.trans hv)
        rw [fcntl_getfl_ok hStatus] at hSecond
        obtain ⟨-, rfl⟩ := fromHostFileStatusFlags_ok.mp (congrArg Prod.fst hSecond)
        exact ⟨_, fcntl_setfl_ok hStatus, (onlyNonblock_iff hGuest).mpr hSettable⟩

/-! ### Linux -/

/-- Linux has bionic's numbers. -/
def linuxFcntl : FcntlHost where
  flag := StatusFlag.bionic
  settable := 0o1066000
  rdonly_zero := rfl
  single a h := by
    cases a with
    | rdonly => exact absurd rfl h
    | wronly => exact ⟨0, by decide⟩
    | rdwr => exact ⟨1, by decide⟩
    | creat => exact ⟨6, by decide⟩
    | excl => exact ⟨7, by decide⟩
    | noctty => exact ⟨8, by decide⟩
    | trunc => exact ⟨9, by decide⟩
    | append => exact ⟨10, by decide⟩
    | nonblock => exact ⟨11, by decide⟩
    | cloexec => exact ⟨19, by decide⟩
  disjoint _ _ := StatusFlag.bionic_disjoint
  nonblock_settable := by decide
  setfd _ s := (0, s)
  setlk _ s := (0, s)

/-- The word of a regular file that is open for reading and writing, with `O_LARGEFILE`. -/
theorem fcntl_not_faithful :
    ¬FaithfulStatus linuxFcntl ⟨.ok 0o100002, 0⟩ ⟨0, ⟨0, 0, 0, 0, 0⟩⟩ := by
  intro hFaithful
  obtain ⟨guest, hRead, -⟩ := hFaithful.reads 0o100002 rfl
  have hThrown : (fcntl linuxFcntl 3 ⟨0, ⟨0, 0, 0, 0, 0⟩⟩ ⟨.ok 0o100002, 0⟩).1 =
      .error "Unsupported fd flag used 32770" := by decide
  rw [hRead] at hThrown
  cases hThrown

end LibcShim.File
