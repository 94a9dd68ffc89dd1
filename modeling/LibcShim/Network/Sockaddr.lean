import LibcShim.Errno
import LibcShim.Kit.Bytes
import LibcShim.Kit.Renumber

/-! Socket addresses of the guest and of the host.  The fields lie at the same offsets on both
sides; the first two bytes and the numbers of the families differ. -/

namespace LibcShim.Network

open Kit

inductive AfFamily
  | unspec
  | unix
  | inet
  | inet6
  deriving DecidableEq, Repr

namespace AfFamily

def bionic : AfFamily → Nat
  | .unspec => 0
  | .unix => 1
  | .inet => 2
  | .inet6 => 10

def host (os : Os) : AfFamily → Nat
  | .unspec => 0
  | .unix => 1
  | .inet => 2
  | .inet6 => match os with
    | .linux => 10
    | .apple => 30
    | .freebsd => 28

def all : List AfFamily := [.unspec, .unix, .inet, .inet6]

def ofBionic (n : Nat) : Option AfFamily := all.find? fun f => f.bionic == n

def ofHost (os : Os) (n : Nat) : Option AfFamily := all.find? fun f => f.host os == n

theorem ofBionic_eq {n : Nat} {f : AfFamily} : ofBionic n = some f ↔ n = f.bionic := by
  constructor
  · intro h
    have hCase := List.find?_some (p := fun f : AfFamily => f.bionic == n) h
    exact (beq_iff_eq.mp hCase).symm
  · rintro rfl
    cases f <;> rfl

theorem ofHost_eq {os : Os} {n : Nat} {f : AfFamily} : ofHost os n = some f ↔ n = f.host os := by
  constructor
  · intro h
    have hCase := List.find?_some (p := fun f : AfFamily => f.host os == n) h
    exact (beq_iff_eq.mp hCase).symm
  · rintro rfl
    cases os <;> cases f <;> rfl

/-- The fields after the family, as bytes to copy. -/
def payload : AfFamily → Nat
  | .unspec => 0
  | .unix => 108
  | .inet => 2 + 4
  | .inet6 => 2 + 4 + 16 + 4

end AfFamily

def sunPath : Os → Nat
  | .linux => 108
  | .apple | .freebsd => 104

def bionicFamily (m : Bytes) : Nat := m.load16 0

def setBionicFamily (m : Bytes) (v : Nat) : Bytes := m.store16 0 v

/-- `sa_family` of a host address: one byte behind `sa_len`, but a half word on Linux. -/
def hostFamily (os : Os) (m : Bytes) : Nat :=
  match os with
  | .linux => m.load16 0
  | .apple | .freebsd => (m 1).toNat

def setHostFamily (os : Os) (m : Bytes) (v : Nat) : Bytes :=
  match os with
  | .linux => m.store16 0 v
  | .apple | .freebsd => m.store8 1 (UInt8.ofNat v)

/-- `sun_path`; both sides are read and written for the guest's 108 bytes. -/
def copyUn (out src : Bytes) : Bytes := out.memcpy 2 src 2 108

def copyIn (out src : Bytes) : Bytes := (out.memcpy 2 src 2 2).memcpy 4 src 4 4

def copyIn6 (out src : Bytes) : Bytes :=
  (((out.memcpy 2 src 2 2).memcpy 4 src 4 4).memcpy 8 src 8 16).memcpy 24 src 24 4

def fromHost (os : Os) (src out : Bytes) : Except String Bytes :=
  match AfFamily.ofHost os (hostFamily os src) with
  | some .unspec => .ok (setBionicFamily out 0)
  | some .unix => .ok (copyUn (setBionicFamily out (hostFamily os src)) src)
  | some .inet => .ok (copyIn (setBionicFamily out 2) src)
  | some .inet6 => .ok (copyIn6 (setBionicFamily out 10) src)
  | none =>
    .error s!"Unknown socket family when converting sockaddr from host {hostFamily os src}"

def toHost (os : Os) (src out : Bytes) : Except String Bytes :=
  match AfFamily.ofBionic (bionicFamily src) with
  | some .unspec => .ok (setHostFamily os out 0)
  | some .unix => .ok (copyUn (setHostFamily os out (bionicFamily src)) src)
  | some .inet => .ok (copyIn (setHostFamily os out 2) src)
  | some .inet6 => .ok (copyIn6 (setHostFamily os out (AfFamily.inet6.host os)) src)
  | none => .error s!"Unknown socket family when converting sockaddr to host {bionicFamily src}"

def getHostLen (os : Os) (src : Bytes) : Except String Nat :=
  match AfFamily.ofBionic (bionicFamily src) with
  | some .unix => .ok (2 + sunPath os)
  | some .inet => .ok 16
  | some .inet6 => .ok 28
  | _ => .error s!"Unknown socket family when converting sockaddr to host {bionicFamily src}"

def getBionicLen (os : Os) (src : Bytes) : Except String Nat :=
  match AfFamily.ofHost os (hostFamily os src) with
  | some .unix => .ok 110
  | some .inet => .ok 16
  | some .inet6 => .ok 28
  | _ => .error s!"Unknown socket family when converting sockaddr from host {hostFamily os src}"

/-- `detail::sockaddr_in`: what the host is handed.  The guest's length is not used. -/
def sockaddrIn (os : Os) (addr : Option Bytes) (_ : Nat) : Except String (Option (List UInt8)) :=
  match addr with
  | none => .ok none
  | some addr => do
    let haddr ← toHost os addr Bytes.zero
    let len ← getHostLen os addr
    .ok (some (haddr.take len))

/-- The guest's buffer for an address and the length it declares, `*addrlen`. -/
structure GuestAddr where
  bytes : Bytes
  len : Nat

/-- `detail::sockaddr_out::apply`, after the host has filled the storage with `haddr`. -/
def apply (os : Os) (haddr : Bytes) (guest : GuestAddr) : Except String GuestAddr := do
  if (← getBionicLen os haddr) > guest.len then
    .error "buffer for sockaddr not big enough"
  else
    let bytes ← fromHost os haddr guest.bytes
    let len ← getBionicLen os haddr
    .ok ⟨bytes, len⟩

section Specs

variable {os : Os} {f : AfFamily} {src out m : Bytes} {v : Nat}

theorem setBionicFamily_get (hv : v < 65536) : bionicFamily (setBionicFamily m v) = v :=
  Bytes.load16_store16 hv

theorem setHostFamily_get (hv : v < 256) : hostFamily os (setHostFamily os m v) = v := by
  cases os
  · exact Bytes.load16_store16 (by omega)
  · simp [hostFamily, setHostFamily, Bytes.store8, Nat.mod_eq_of_lt hv]
  · simp [hostFamily, setHostFamily, Bytes.store8, Nat.mod_eq_of_lt hv]

/-- What is copied behind the family leaves it alone. -/
theorem copied_family {n : Nat} :
    bionicFamily ((setBionicFamily out f.bionic).memcpy 2 src 2 n) = f.bionic := by
  have hNumber : f.bionic < 65536 := by cases f <;> decide
  have hKept : bionicFamily ((setBionicFamily out f.bionic).memcpy 2 src 2 n) =
      bionicFamily (setBionicFamily out f.bionic) := by
    simp [bionicFamily, Bytes.load16, Bytes.memcpy]
  exact hKept.trans (setBionicFamily_get hNumber)

theorem copyIn_eq : copyIn out src = out.memcpy 2 src 2 6 := Bytes.memcpy_memcpy out src 2 2 4

theorem copyIn6_eq : copyIn6 out src = out.memcpy 2 src 2 26 := by
  have h₁ : (out.memcpy 2 src 2 2).memcpy 4 src 4 4 = out.memcpy 2 src 2 6 := copyIn_eq
  have h₂ : (out.memcpy 2 src 2 6).memcpy 8 src 8 16 = out.memcpy 2 src 2 22 :=
    Bytes.memcpy_memcpy out src 2 6 16
  have h₃ : (out.memcpy 2 src 2 22).memcpy 24 src 24 4 = out.memcpy 2 src 2 26 :=
    Bytes.memcpy_memcpy out src 2 22 4
  rw [copyIn6, h₁, h₂, h₃]

theorem fromHost_eq (h : AfFamily.ofHost os (hostFamily os src) = some f) :
    fromHost os src out =
      .ok ((setBionicFamily out f.bionic).memcpy 2 src 2 f.payload) := by
  have hNumber := AfFamily.ofHost_eq.mp h
  unfold fromHost
  rw [h]
  cases f with
  | unspec => exact congrArg Except.ok (Bytes.memcpy_empty _ _ _ _).symm
  | unix => simp [hNumber, AfFamily.host, AfFamily.bionic, AfFamily.payload, copyUn]
  | inet => exact congrArg Except.ok copyIn_eq
  | inet6 => exact congrArg Except.ok copyIn6_eq

theorem toHost_eq (h : AfFamily.ofBionic (bionicFamily src) = some f) :
    toHost os src out =
      .ok ((setHostFamily os out (f.host os)).memcpy 2 src 2 f.payload) := by
  have hNumber := AfFamily.ofBionic_eq.mp h
  unfold toHost
  rw [h]
  cases f with
  | unspec => exact congrArg Except.ok (Bytes.memcpy_empty _ _ _ _).symm
  | unix => simp [hNumber, AfFamily.host, AfFamily.bionic, AfFamily.payload, copyUn]
  | inet => exact congrArg Except.ok copyIn_eq
  | inet6 => exact congrArg Except.ok copyIn6_eq

/-- The families that have a size, and it on the guest's side. -/
def AfFamily.bionicLen : AfFamily → Option Nat
  | .unspec => none
  | .unix => some 110
  | .inet => some 16
  | .inet6 => some 28

def AfFamily.hostLen (os : Os) : AfFamily → Option Nat
  | .unspec => none
  | .unix => some (2 + sunPath os)
  | .inet => some 16
  | .inet6 => some 28

theorem getBionicLen_ok {n : Nat} :
    getBionicLen os src = .ok n ↔
      ∃ f, AfFamily.ofHost os (hostFamily os src) = some f ∧ f.bionicLen = some n := by
  unfold getBionicLen
  cases AfFamily.ofHost os (hostFamily os src) with
  | none => simp
  | some f => cases f <;> simp [AfFamily.bionicLen]

theorem getHostLen_ok {n : Nat} :
    getHostLen os src = .ok n ↔
      ∃ f, AfFamily.ofBionic (bionicFamily src) = some f ∧ f.hostLen os = some n := by
  unfold getHostLen
  cases AfFamily.ofBionic (bionicFamily src) with
  | none => simp
  | some f => cases f <;> simp [AfFamily.hostLen]

theorem sockaddrIn_eq {n addrlen : Nat} (hFamily : AfFamily.ofBionic (bionicFamily src) = some f)
    (hLen : f.hostLen os = some n) :
    sockaddrIn os (some src) addrlen =
      .ok (some (((setHostFamily os Bytes.zero (f.host os)).memcpy 2 src 2 f.payload).take n)) := by
  have hTo : toHost os src Bytes.zero = _ := toHost_eq hFamily
  have hHostLen : getHostLen os src = .ok n := getHostLen_ok.mpr ⟨f, hFamily, hLen⟩
  simp only [sockaddrIn, hTo, hHostLen]
  rfl

theorem apply_eq {n : Nat} {guest : GuestAddr}
    (hFamily : AfFamily.ofHost os (hostFamily os src) = some f) (hLen : f.bionicLen = some n)
    (hFits : n ≤ guest.len) :
    apply os src guest =
      .ok ⟨(setBionicFamily guest.bytes f.bionic).memcpy 2 src 2 f.payload, n⟩ := by
  have hFrom : fromHost os src guest.bytes = _ := fromHost_eq hFamily
  have hBionicLen : getBionicLen os src = .ok n := getBionicLen_ok.mpr ⟨f, hFamily, hLen⟩
  have hRoom : ¬n > guest.len := by omega
  refine bind_ok.mpr ⟨n, hBionicLen, ?_⟩
  rw [if_neg hRoom]
  exact bind_ok.mpr ⟨_, hFrom, bind_ok.mpr ⟨n, hBionicLen, rfl⟩⟩

/-- The reported address has a size, and its guest form fits into `len` bytes. -/
def Fits (os : Os) (haddr : Bytes) (len : Nat) : Prop :=
  ∃ f n, AfFamily.ofHost os (hostFamily os haddr) = some f ∧ f.bionicLen = some n ∧ n ≤ len

theorem apply_ok {g : GuestAddr} :
    (∃ g', apply os src g = .ok g') ↔ Fits os src g.len := by
  constructor
  · rintro ⟨g', h⟩
    obtain ⟨n, hLen, h⟩ := bind_ok.mp h
    obtain ⟨f, hFamily, hBionic⟩ := getBionicLen_ok.mp hLen
    refine ⟨f, n, hFamily, hBionic, ?_⟩
    by_contra hRoom
    rw [if_pos (Nat.not_le.mp hRoom)] at h
    cases h
  · rintro ⟨f, n, hFamily, hLen, hFits⟩
    exact ⟨_, apply_eq hFamily hLen hFits⟩

/-- `bytes` is the address `haddr` for the guest, in its first `n` bytes; what the address leaves
open is as it was in `old`. -/
structure TranslatedAddr (os : Os) (haddr : Bytes) (old bytes : Bytes) (n : Nat) : Prop where
  named : ∃ f : AfFamily, hostFamily os haddr = f.host os ∧ bionicFamily bytes = f.bionic ∧
    f.bionicLen = some n ∧ (∀ i, 2 ≤ i → i < 2 + f.payload → bytes i = haddr i) ∧
    ∀ i, 2 + f.payload ≤ i → bytes i = old i

theorem fromHost_translated {n : Nat} {bytes : Bytes} (hLen : getBionicLen os src = .ok n)
    (h : fromHost os src out = .ok bytes) : TranslatedAddr os src out bytes n := by
  obtain ⟨f, hFamily, hSize⟩ := getBionicLen_ok.mp hLen
  rw [fromHost_eq hFamily] at h
  obtain rfl := Except.ok.inj h
  refine ⟨f, AfFamily.ofHost_eq.mp hFamily, copied_family, hSize, fun i hLow hHigh => ?_,
    fun i hi => ?_⟩
  · rw [Bytes.memcpy_inside ⟨hLow, hHigh⟩]
    congr 1
    omega
  · rw [Bytes.memcpy_outside (Or.inr hi)]
    unfold setBionicFamily Bytes.store16
    rw [Bytes.store8_other (by omega), Bytes.store8_other (by omega)]

theorem apply_translated {g g' : GuestAddr} (h : apply os src g = .ok g') :
    TranslatedAddr os src g.bytes g'.bytes g'.len := by
  obtain ⟨f, n, hFamily, hLen, hFits⟩ := apply_ok.mp ⟨g', h⟩
  rw [apply_eq hFamily hLen hFits] at h
  obtain rfl := Except.ok.inj h
  exact fromHost_translated (getBionicLen_ok.mpr ⟨f, hFamily, hLen⟩) (fromHost_eq hFamily)

end Specs

end LibcShim.Network
