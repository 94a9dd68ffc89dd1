import LibcShim.Kit.Renumber
import Mathlib.Data.BitVec

/-! `mmap`: the guest's flags are checked and taken over one by one, and the host places the
mapping. -/

namespace LibcShim.File

open Kit

/-- The flags of `bionic::mmap_flags` that pass the check. -/
inductive MmapFlag
  | priv
  | fixed
  | anon
  | shared
  | noreserve
  | growsdown
  | stack
  deriving DecidableEq, Repr

namespace MmapFlag

def bionic : MmapFlag → BitVec 32
  | .priv => 2
  | .fixed => 0x10
  | .anon => 0x20
  | .shared => 1
  | .noreserve => 0x4000
  | .growsdown => 0x100
  | .stack => 0x20000

/-- In the order of `to_host_mmap_flags`. -/
def all : List MmapFlag := [.priv, .fixed, .anon, .shared, .noreserve, .growsdown, .stack]

theorem mem_all (a : MmapFlag) : a ∈ all := by cases a <;> decide

end MmapFlag

abbrev mapFailed : Int := -1

/-- A host that has a `MAP_` constant for every flag, and its `mmap`.  `MAP_FILE` is the name for no
flag, and the host keeps to the address for `MAP_FIXED`. -/
structure MmapHost where
  flag : MmapFlag → BitVec 32
  mapFile : BitVec 32
  nonzero : ∀ a, flag a ≠ 0
  disjoint : ∀ a b, flag a &&& flag b ≠ 0 → a = b
  mapFile_eq : mapFile = 0
  mmap (addr length prot : Int) (flags : BitVec 32) (fd offset : Int) : Int
  mmap_fixed : ∀ addr length prot flags fd offset, flags &&& flag .fixed ≠ 0 →
    mmap addr length prot flags fd offset = addr ∨
      mmap addr length prot flags fd offset = mapFailed

def knownMmapFlags : BitVec 32 :=
  MmapFlag.fixed.bionic ||| MmapFlag.anon.bionic ||| MmapFlag.noreserve.bionic |||
    MmapFlag.priv.bionic ||| MmapFlag.shared.bionic ||| MmapFlag.stack.bionic |||
    MmapFlag.growsdown.bionic

/-- What `to_host_mmap_flags` sets for a flag. -/
def MmapHost.given (host : MmapHost) : MmapFlag → BitVec 32
  | .fixed => host.mapFile
  | a => host.flag a

def toHostMmapFlags (host : MmapHost) (flags : BitVec 32) : Except String (BitVec 32) :=
  if flags &&& ~~~knownMmapFlags ≠ 0 then .error s!"Used unsupported mmap flags {flags.toInt}"
  else .ok (remask MmapFlag.all (fun a => some a.bionic) host.given flags)

def mmap (host : MmapHost) (addr length prot : Int) (flags : BitVec 32) (fd offset : Int) :
    Except String Int :=
  (toHostMmapFlags host flags).map fun hflags => host.mmap addr length prot hflags fd offset

/-! ### Which flags arrive -/

/-- The host's word has the counterparts of the guest's flags and no other bit. -/
def Carries (host : MmapHost) (flags hflags : BitVec 32) : Prop :=
  ∀ bits, hflags &&& bits ≠ 0 ↔
    ∃ a : MmapFlag, flags &&& a.bionic ≠ 0 ∧ host.flag a &&& bits ≠ 0

/-- A fixed mapping is where it was asked for, or nowhere. -/
def PlacedAt (host : MmapHost) (flags : BitVec 32) : Prop :=
  flags &&& MmapFlag.fixed.bionic ≠ 0 → ∀ addr length prot fd offset,
    mmap host addr length prot flags fd offset = .ok addr ∨
      mmap host addr length prot flags fd offset = .ok mapFailed

/-- The flags pass the check of `to_host_mmap_flags`. -/
def Accepted (flags : BitVec 32) : Prop := flags &&& ~~~knownMmapFlags = 0

instance (flags : BitVec 32) : Decidable (Accepted flags) := inferInstanceAs (Decidable (_ = _))

section Flags

variable {host : MmapHost} {flags : BitVec 32}

theorem toHostMmapFlags_accepted (hAccepted : Accepted flags) : toHostMmapFlags host flags =
    .ok (remask MmapFlag.all (fun a => some a.bionic) host.given flags) := by
  unfold toHostMmapFlags
  exact if_neg (not_not.mpr hAccepted)

theorem given_eq {a : MmapFlag} (h : a ≠ .fixed) : host.given a = host.flag a := by
  cases a <;> first | rfl | exact absurd rfl h

theorem given_fixed : host.given .fixed = 0 := host.mapFile_eq

theorem flagSet_bionic {a : MmapFlag} :
    flagSet (fun a : MmapFlag => some a.bionic) flags a ↔ flags &&& a.bionic ≠ 0 := by
  simp [flagSet]

/-- `MAP_FIXED` never arrives. -/
theorem fixed_dropped :
    remask MmapFlag.all (fun a => some a.bionic) host.given flags &&& host.flag .fixed = 0 := by
  by_contra hMeet
  obtain ⟨a, -, -, hBits⟩ := remask_and.mp hMeet
  by_cases ha : a = .fixed
  · subst ha
    rw [given_fixed] at hBits
    simp at hBits
  · rw [given_eq ha] at hBits
    exact ha (host.disjoint a .fixed hBits)

theorem carries_iff : Carries host flags
      (remask MmapFlag.all (fun a => some a.bionic) host.given flags) ↔
    flags &&& MmapFlag.fixed.bionic = 0 := by
  constructor
  · intro hCarries
    by_contra hFixed
    have hArrives := (hCarries (host.flag .fixed)).mpr
      ⟨.fixed, hFixed, by rw [BitVec.and_self]; exact host.nonzero .fixed⟩
    exact hArrives fixed_dropped
  · intro hNone bits
    have hGiven : ∀ a : MmapFlag, flags &&& a.bionic ≠ 0 → host.given a = host.flag a := by
      intro a hSet
      exact given_eq fun hFixed => hSet (hFixed ▸ hNone)
    rw [remask_and]
    constructor
    · rintro ⟨a, -, hSet, hBits⟩
      have hFlag := flagSet_bionic.mp hSet
      exact ⟨a, hFlag, hGiven a hFlag ▸ hBits⟩
    · rintro ⟨a, hFlag, hBits⟩
      exact ⟨a, a.mem_all, flagSet_bionic.mpr hFlag, (hGiven a hFlag).symm ▸ hBits⟩

end Flags

/-- An accepted word is honoured by the host exactly where it does not ask for a fixed mapping. -/
theorem mmap_honours (host : MmapHost) (flags : BitVec 32) (hAccepted : Accepted flags) :
    ((∃ hflags, toHostMmapFlags host flags = .ok hflags ∧ Carries host flags hflags) ∧
      PlacedAt host flags) ↔ flags &&& MmapFlag.fixed.bionic = 0 := by
  rw [toHostMmapFlags_accepted hAccepted]
  constructor
  · rintro ⟨⟨hflags, hEq, hCarries⟩, -⟩
    obtain rfl := Except.ok.inj hEq
    exact carries_iff.mp hCarries
  · intro hNone
    exact ⟨⟨_, rfl, carries_iff.mpr hNone⟩, fun hFixed => absurd hNone hFixed⟩

/-! ### Linux -/

/-- Linux has bionic's numbers.  Its `mmap` places a mapping that is not fixed where it likes. -/
def linuxMmap : MmapHost where
  flag := MmapFlag.bionic
  mapFile := 0
  nonzero a := by cases a <;> decide
  disjoint a b := by cases a <;> cases b <;> decide
  mapFile_eq := rfl
  mmap addr _ _ flags _ _ :=
    if flags &&& MmapFlag.fixed.bionic ≠ 0 then addr else 0x7f0000000000
  mmap_fixed addr _ _ flags _ _ h := Or.inl (if_pos h)

theorem mmap_honours_anonymous :
    (∃ hflags, toHostMmapFlags linuxMmap 0x4022 = .ok hflags ∧ Carries linuxMmap 0x4022 hflags) ∧
      PlacedAt linuxMmap 0x4022 :=
  (mmap_honours linuxMmap 0x4022 (by decide)).mpr (by decide)

theorem mmap_misplaced :
    Accepted 0x32 ∧ mmap linuxMmap 0x10000 4096 3 0x32 (-1) 0 = .ok 0x7f0000000000 ∧
      ¬((∃ hflags, toHostMmapFlags linuxMmap 0x32 = .ok hflags ∧ Carries linuxMmap 0x32 hflags) ∧
        PlacedAt linuxMmap 0x32) := by
  have hResult : mmap linuxMmap 0x10000 4096 3 0x32 (-1) 0 = .ok 0x7f0000000000 := by decide
  refine ⟨by decide, hResult, fun ⟨_, hPlaced⟩ => ?_⟩
  have hFixed := hPlaced (by decide) 0x10000 4096 3 (-1) 0
  rw [hResult] at hFixed
  simp [mapFailed] at hFixed

end LibcShim.File
