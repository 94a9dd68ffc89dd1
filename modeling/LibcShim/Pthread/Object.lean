import Mathlib.Data.Nat.Bitwise
import Mathlib.Data.BitVec

/-! The guest's synchronisation objects: where `pthread_mutex_t`, `pthread_cond_t` and
`pthread_rwlock_t` keep the pointer to their host object, and when that payload word counts as
initialised. -/

namespace LibcShim.Pthread

/-- `__LP64__` or not: the payload word is hidden behind `data[0]`, or is `data[0]`. -/
inductive Abi
  | lp64
  | ilp32
  deriving DecidableEq, Repr

def Abi.bits : Abi → Nat
  | .lp64 => 64
  | .ilp32 => 32

abbrev Abi.Word (abi : Abi) := BitVec abi.bits

def Abi.pointerAlignment : Abi → Nat
  | .lp64 => 8
  | .ilp32 => 4

inductive SyncKind
  | mutex
  | cond
  | rwlock
  deriving DecidableEq, Repr

def recursiveMutexInitValue : Nat := 0x4000
def errorcheckMutexInitValue : Nat := 0x8000

/-- `get_payload_pointer`: on LP64 the first 4 bytes of the object stay untouched. -/
def getPayloadPointer {abi : Abi} (p : abi.Word) : abi.Word :=
  match abi with
  | .lp64 => (p + 11) &&& -8
  | .ilp32 => p

/-- `INIT_MUTEX_MASK`: every bit but the two that select the type of a static mutex. -/
def initMutexMask (w : Nat) : BitVec w := ~~~(BitVec.ofNat w 3 <<< 14)

def isMutexInitialized {abi : Abi} (v : abi.Word) : Bool :=
  match abi with
  | .lp64 => v != 0
  | .ilp32 => v &&& initMutexMask Abi.ilp32.bits != 0

def isCondInitialized {abi : Abi} (v : abi.Word) : Bool := v != 0

def isRwlockInitialized {abi : Abi} (v : abi.Word) : Bool := v != 0

def SyncKind.isInitialized {abi : Abi} : SyncKind → abi.Word → Bool
  | .mutex => isMutexInitialized
  | .cond => isCondInitialized
  | .rwlock => isRwlockInitialized

inductive MutexType
  | normal
  | recursive
  | errorcheck
  deriving DecidableEq, Repr

/-- What the host's `pthread.h` chooses: the type of a fresh `pthread_mutexattr_t`. -/
structure HostPthread where
  mutexDefault : MutexType

def selectMutexType (host : HostPthread) (initValue : BitVec 32) : MutexType :=
  if initValue = recursiveMutexInitValue then .recursive
  else if initValue = errorcheckMutexInitValue then .errorcheck
  else host.mutexDefault

def failedToInit : SyncKind → String
  | .mutex => "Failed to init mutex"
  | .cond => "Failed to init cond"
  | .rwlock => "Failed to init rwlock"

/-- A guest object in memory; the types have alignment 4. -/
structure GuestObject (abi : Abi) where
  address : abi.Word
  aligned : address.toNat % 4 = 0

theorem and_neg_eight (x : BitVec 64) : (x &&& -8).toNat = x.toNat / 8 * 8 := by
  have hMask : ∀ i, i < 64 → (-8 : BitVec 64).getLsbD i = decide (3 ≤ i) := by decide
  have hShift : x &&& (-8 : BitVec 64) = (x >>> 3) <<< 3 := by
    apply BitVec.eq_of_getLsbD_eq
    intro i hi
    rw [BitVec.getLsbD_and, hMask i hi]
    by_cases h : 3 ≤ i
    · simp [h, hi, Nat.not_lt.mpr h]
    · simp [h]
  rw [hShift]
  simp [Nat.shiftLeft_eq, Nat.shiftRight_eq_div_pow]
  omega

theorem and_neg_eight_mod (x : BitVec 64) : (x &&& -8).toNat % 8 = 0 := by
  rw [and_neg_eight, Nat.mul_mod_left]

theorem getPayloadPointer_aligned {abi : Abi} (o : GuestObject abi) :
    (getPayloadPointer o.address).toNat % abi.pointerAlignment = 0 := by
  cases abi with
  | lp64 => exact and_neg_eight_mod _
  | ilp32 => exact o.aligned

/-- The host gives out no address in the first 64 KiB, which are never mapped. -/
def hostAddress {abi : Abi} (a : abi.Word) : Bool := decide (0x10000 ≤ a.toNat)

theorem le_of_mask_eq_zero {v : BitVec 32} (h : v &&& initMutexMask 32 = 0) :
    v.toNat ≤ 0xC000 := by
  have hBits : v &&& ~~~initMutexMask 32 = v := by
    calc v &&& ~~~initMutexMask 32
        = v &&& initMutexMask 32 ||| v &&& ~~~initMutexMask 32 := by rw [h]; simp
      _ = v &&& (initMutexMask 32 ||| ~~~initMutexMask 32) := by rw [BitVec.and_or_distrib_left]
      _ = v := by
        rw [show initMutexMask 32 ||| ~~~initMutexMask 32 = BitVec.allOnes 32 by decide,
          BitVec.and_allOnes]
  calc v.toNat = (v &&& ~~~initMutexMask 32).toNat := by rw [hBits]
    _ ≤ (~~~initMutexMask 32).toNat := by rw [BitVec.toNat_and]; exact Nat.and_le_right
    _ = 0xC000 := by decide

/-- A host address counts as initialised for every kind of object: it is not null, and it is none
of the static init words of a mutex. -/
theorem isInitialized_hostAddress {abi : Abi} {kind : SyncKind} {a : abi.Word}
    (h : hostAddress a = true) : kind.isInitialized a = true := by
  have hLow : 0x10000 ≤ a.toNat := of_decide_eq_true h
  have hNonzero : (a != 0) = true := by
    rw [bne_iff_ne]
    rintro rfl
    simp at hLow
  cases kind with
  | cond => exact hNonzero
  | rwlock => exact hNonzero
  | mutex =>
    cases abi with
    | lp64 => exact hNonzero
    | ilp32 =>
      show (a &&& initMutexMask Abi.ilp32.bits != 0) = true
      rw [bne_iff_ne]
      intro hMask
      exact absurd hLow (Nat.not_le.mpr (Nat.lt_of_le_of_lt (le_of_mask_eq_zero hMask) (by decide)))

end LibcShim.Pthread
