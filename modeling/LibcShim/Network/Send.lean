import LibcShim.Network.Sockaddr
import Mathlib.Data.BitVec

/-! The calls that hand the host an address of the guest, `bind`, `connect` and `sendto`, and the
bytes of the guest's memory that the host's address depends on. -/

namespace LibcShim.Network

open Kit

/-- A call of the host; the address is missing where the pointer is null. -/
inductive HostCall
  | bind (sockfd : Int) (addr : Option (List UInt8))
  | connect (sockfd : Int) (addr : Option (List UInt8))
  | sendto (sockfd : Int) (buf : List UInt8) (noSignal : Bool) (addr : Option (List UInt8))
  deriving DecidableEq

/-- `detail::sock_send_flags`: whether the host call raises no `SIGPIPE`, by `MSG_NOSIGNAL` or by
`SO_NOSIGPIPE` for its time. -/
def sockSendFlags (flags : BitVec 32) : Except String Bool :=
  let rest := flags &&& ~~~0x4000#32
  if rest ≠ 0 then .error s!"Unexpected flags in a socket send operation {rest.toInt}"
  else .ok (flags &&& 0x4000#32 != 0)

def bind (os : Os) (sockfd : Int) (addr : Option Bytes) (addrlen : Nat) :
    Except String HostCall := do
  let haddr ← sockaddrIn os addr addrlen
  .ok (.bind sockfd haddr)

def connect (os : Os) (sockfd : Int) (addr : Option Bytes) (addrlen : Nat) :
    Except String HostCall := do
  let haddr ← sockaddrIn os addr addrlen
  .ok (.connect sockfd haddr)

def sendto (os : Os) (sockfd : Int) (buf : List UInt8) (flags : BitVec 32) (addr : Option Bytes)
    (addrlen : Nat) : Except String HostCall := do
  let haddr ← sockaddrIn os addr addrlen
  let noSignal ← sockSendFlags flags
  .ok (.sendto sockfd buf noSignal haddr)

inductive AddrCall
  | bind
  | connect
  | sendto (buf : List UInt8) (flags : BitVec 32)

namespace AddrCall

def run (os : Os) (sockfd : Int) (addr : Option Bytes) (addrlen : Nat) :
    AddrCall → Except String HostCall
  | .bind => Network.bind os sockfd addr addrlen
  | .connect => Network.connect os sockfd addr addrlen
  | .sendto buf flags => Network.sendto os sockfd buf flags addr addrlen

/-- The flags of a `sendto` are none or `MSG_NOSIGNAL`. -/
def Accepted : AddrCall → Prop
  | .sendto _ flags => flags &&& ~~~0x4000#32 = 0
  | _ => True

def finish (sockfd : Int) (haddr : Option (List UInt8)) : AddrCall → Except String HostCall
  | .bind => .ok (.bind sockfd haddr)
  | .connect => .ok (.connect sockfd haddr)
  | .sendto buf flags => (sockSendFlags flags).map fun noSignal =>
    .sendto sockfd buf noSignal haddr

end AddrCall

def SameOutcome (r r' : Except String HostCall) : Prop :=
  (∃ e e', r = .error e ∧ r' = .error e') ∨ ∃ call, r = .ok call ∧ r' = .ok call

/-- A guest address of a family that the host has a size for. -/
structure GuestSockaddr where
  bytes : Bytes
  family : AfFamily
  tagged : AfFamily.ofBionic (bionicFamily bytes) = some family
  named : family ≠ .unspec

/-- How many bytes of a guest address the host's address depends on. -/
def AfFamily.needed (os : Os) : AfFamily → Nat
  | .unspec => 0
  | .unix => 2 + sunPath os
  | .inet => 8
  | .inet6 => 28

section Declared

variable {os : Os} {c : AddrCall} {sockfd : Int} {a b : GuestSockaddr} {n : Nat}

/-- The bytes that the host is handed for an address. -/
def GuestSockaddr.hostBytes (os : Os) (a : GuestSockaddr) : List UInt8 :=
  ((setHostFamily os Bytes.zero (a.family.host os)).memcpy 2 a.bytes 2 a.family.payload).take
    ((a.family.hostLen os).getD 0)

theorem AfFamily.hostLen_some {f : AfFamily} (h : f ≠ .unspec) :
    f.hostLen os = some ((f.hostLen os).getD 0) := by
  cases f <;> first | rfl | exact absurd rfl h

theorem AddrCall.run_eq (a : GuestSockaddr) :
    c.run os sockfd (some a.bytes) n = c.finish sockfd (some (a.hostBytes os)) := by
  have hAddr : sockaddrIn os (some a.bytes) n = .ok (some (a.hostBytes os)) :=
    sockaddrIn_eq a.tagged (AfFamily.hostLen_some a.named)
  cases c with
  | bind => simp only [AddrCall.run, Network.bind, hAddr]; rfl
  | connect => simp only [AddrCall.run, Network.connect, hAddr]; rfl
  | sendto buf flags =>
    simp only [AddrCall.run, Network.sendto, hAddr, AddrCall.finish]
    cases sockSendFlags flags <;> rfl

theorem AddrCall.sockSendFlags_eq {buf : List UInt8} {flags : BitVec 32}
    (h : (AddrCall.sendto buf flags).Accepted) :
    sockSendFlags flags = .ok (flags &&& 0x4000#32 != 0) := if_neg (not_not_intro h)

theorem AddrCall.finish_accepted {x y : Option (List UInt8)} (h : c.Accepted) :
    SameOutcome (c.finish sockfd x) (c.finish sockfd y) ↔ x = y := by
  cases c with
  | bind => simp [finish, SameOutcome, eq_comm]
  | connect => simp [finish, SameOutcome, eq_comm]
  | sendto buf flags =>
    simp [finish, SameOutcome, sockSendFlags_eq h, Except.map, eq_comm]

theorem AddrCall.finish_rejected {x y : Option (List UInt8)} (h : ¬c.Accepted) :
    SameOutcome (c.finish sockfd x) (c.finish sockfd y) := by
  cases c with
  | bind => exact absurd trivial h
  | connect => exact absurd trivial h
  | sendto buf flags =>
    have hFlags : sockSendFlags flags = .error _ := if_pos h
    exact Or.inl ⟨_, _, by rw [finish, hFlags]; rfl, by rw [finish, hFlags]; rfl⟩

theorem hostBytes_eq (hFamily : a.family = b.family) :
    a.hostBytes os = b.hostBytes os ↔
      ∀ i, 2 ≤ i → i < a.family.needed os → a.bytes i = b.bytes i := by
  have hNeeded : ∀ f : AfFamily, f ≠ .unspec →
      f.needed os = min (2 + f.payload) ((f.hostLen os).getD 0) := by
    intro f hNamed
    cases f with
    | unspec => exact absurd rfl hNamed
    | unix => cases os <;> rfl
    | inet => rfl
    | inet6 => rfl
  have hCopied := hNeeded a.family a.named
  rw [GuestSockaddr.hostBytes, GuestSockaddr.hostBytes, ← hFamily, Bytes.take_inj]
  constructor
  · intro h i hLow hHigh
    have hByte := h i (by omega)
    rw [Bytes.memcpy_inside (by omega), Bytes.memcpy_inside (by omega)] at hByte
    rwa [show 2 + (i - 2) = i by omega] at hByte
  · intro h i hi
    by_cases hIn : 2 ≤ i ∧ i < 2 + a.family.payload
    · rw [Bytes.memcpy_inside hIn, Bytes.memcpy_inside hIn, show 2 + (i - 2) = i by omega]
      exact h i hIn.1 (by omega)
    · rw [Bytes.memcpy_outside (by omega), Bytes.memcpy_outside (by omega)]

theorem AfFamily.needed_ge (os : Os) {f : AfFamily} (h : f ≠ .unspec) : 8 ≤ f.needed os := by
  cases f with
  | unspec => exact absurd rfl h
  | unix => cases os <;> decide
  | inet => exact Nat.le_refl 8
  | inet6 => exact Nat.le_of_ble_eq_true rfl

theorem family_eq (h₀ : a.bytes 0 = b.bytes 0) (h₁ : a.bytes 1 = b.bytes 1) :
    a.family = b.family := by
  have hLoad : bionicFamily a.bytes = bionicFamily b.bytes := by
    simp [bionicFamily, Bytes.load16, h₀, h₁]
  exact Option.some.inj (a.tagged.symm.trans (hLoad ▸ b.tagged))

theorem GuestSockaddr.flip_tagged (a : GuestSockaddr) {i : Nat} (hi : 2 ≤ i) :
    AfFamily.ofBionic (bionicFamily (a.bytes.store8 i (a.bytes i + 1))) = some a.family := by
  have hLoad : bionicFamily (a.bytes.store8 i (a.bytes i + 1)) = bionicFamily a.bytes := by
    simp only [bionicFamily, Bytes.load16, zero_add]
    rw [Bytes.store8_other (by omega), Bytes.store8_other (by omega)]
  rw [hLoad]
  exact a.tagged

def GuestSockaddr.flip (a : GuestSockaddr) (i : Nat) (hi : 2 ≤ i) : GuestSockaddr where
  bytes := a.bytes.store8 i (a.bytes i + 1)
  family := a.family
  tagged := a.flip_tagged hi
  named := a.named

theorem flip_ne {i : Nat} (hi : 2 ≤ i) : (a.flip i hi).bytes i ≠ a.bytes i := by
  have hByte : (a.flip i hi).bytes i = a.bytes i + 1 := if_pos rfl
  rw [hByte]
  intro h
  have hNat := congrArg UInt8.toNat h
  have hBound := (a.bytes i).toNat_lt
  rw [UInt8.toNat_add, UInt8.toNat_one] at hNat
  omega

/-- A `bind`, `connect` or `sendto` of the `n` bytes that the guest declares depends on no byte
behind them exactly when they hold all fields of the address's family, or the call refuses its
flags. -/
theorem declared_bytes_determine_host_address :
    (∀ b : GuestSockaddr, (∀ i < n, a.bytes i = b.bytes i) →
        SameOutcome (c.run os sockfd (some a.bytes) n) (c.run os sockfd (some b.bytes) n)) ↔
      a.family.needed os ≤ n ∨ ¬c.Accepted := by
  simp only [AddrCall.run_eq]
  have hNeeded := AfFamily.needed_ge os a.named
  constructor
  · intro hSame
    by_cases hAccepted : c.Accepted
    · left
      by_contra hShort
      -- the first field byte that the guest did not declare
      have hi : 2 ≤ max n 2 := by omega
      have hAgree : ∀ i < n, a.bytes i = (a.flip (max n 2) hi).bytes i := fun i hi =>
        (Bytes.store8_other (by omega)).symm
      have hBytes := (AddrCall.finish_accepted hAccepted).mp (hSame _ hAgree)
      have hByte := (hostBytes_eq (by rfl)).mp (Option.some.inj hBytes) (max n 2) hi (by omega)
      exact flip_ne hi hByte.symm
    · exact Or.inr hAccepted
  · intro hWhen b hAgree
    rcases hWhen with hLong | hRejected
    · have hFamily := family_eq (hAgree 0 (by omega)) (hAgree 1 (by omega))
      have hBytes : a.hostBytes os = b.hostBytes os :=
        (hostBytes_eq hFamily).mpr fun i _ hi => hAgree i (Nat.lt_of_lt_of_le hi hLong)
      by_cases hAccepted : c.Accepted
      · exact (AddrCall.finish_accepted hAccepted).mpr (congrArg some hBytes)
      · exact AddrCall.finish_rejected hAccepted
    · exact AddrCall.finish_rejected hRejected

end Declared

/-! ### An abstract name on Linux, `"\0a"`, declared with its four bytes -/

def abstractName (rest : UInt8) : GuestSockaddr where
  bytes := fun i => match i with
    | 0 => 1
    | 1 | 2 => 0
    | 3 => 97
    | _ => rest
  family := .unix
  tagged := rfl
  named := nofun

theorem undeclared_bytes_reach_host :
    ¬ ∀ (os : Os) (c : AddrCall) (sockfd : Int) (a b : GuestSockaddr) (n : Nat),
      (∀ i < n, a.bytes i = b.bytes i) →
      SameOutcome (c.run os sockfd (some a.bytes) n) (c.run os sockfd (some b.bytes) n) := by
  intro hClaim
  have hAgree : ∀ i < 4, (abstractName 0).bytes i = (abstractName 98).bytes i := by decide
  rcases hClaim .linux .bind 3 _ _ 4 hAgree with ⟨e, -, hError, -⟩ | ⟨call, hLeft, hRight⟩
  · rw [AddrCall.run_eq] at hError
    cases hError
  · rw [AddrCall.run_eq] at hLeft hRight
    have hBytes : (abstractName 0).hostBytes .linux = (abstractName 98).hostBytes .linux := by
      simpa [AddrCall.finish] using hLeft.trans hRight.symm
    have hByte := (hostBytes_eq (by rfl)).mp hBytes 4 (by decide) (by decide)
    exact absurd hByte (by decide)

end LibcShim.Network
