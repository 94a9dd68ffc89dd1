import LibcShim.Network.Receive
import LibcShim.Network.Send

/-! What a socket address names, and the way of a name through the guest: from the host to the guest
in a call that reports an address, and back in one that takes it. -/

namespace LibcShim.Network

open Kit

/-- The names of sockets; the fields are in network order. -/
inductive Endpoint
  | inet (port addr : List UInt8)
  | inet6 (port flowInfo addr scope : List UInt8)
  | unnamed
  | pathname (name : List UInt8)
  | abstract (name : List UInt8)
  deriving DecidableEq

/-- What the host takes the first `len` bytes for.  A name of the family `AF_UNIX` that starts with
a zero is abstract, and `len` is the only end that it has. -/
def endpoint (os : Os) (m : Bytes) (len : Nat) : Option Endpoint :=
  match AfFamily.ofHost os (hostFamily os m) with
  | some .inet => some (.inet (m.slice 2 2) (m.slice 4 4))
  | some .inet6 => some (.inet6 (m.slice 2 2) (m.slice 4 4) (m.slice 8 16) (m.slice 24 4))
  | some .unix =>
    if len ≤ 2 then some .unnamed
    else if m 2 = 0 then some (.abstract (m.slice 3 (len - 3)))
    else some (.pathname (m.cstring 2 (len - 2)))
  | _ => none

/-- The lengths of the host's addresses.  A pathname may end with a zero behind `sun_path`. -/
def HostLength (os : Os) (m : Bytes) (len : Nat) : AfFamily → Prop
  | .unspec => False
  | .unix => 2 ≤ len ∧ (len ≤ 2 + sunPath os ∨
    len = 3 + sunPath os ∧ m 2 ≠ 0 ∧ m (2 + sunPath os) = 0)
  | .inet => len = 16
  | .inet6 => len = 28

/-- An address that the host reports: `len` bytes in a storage that was zero. -/
structure HostSockaddr (os : Os) where
  bytes : Bytes
  len : Nat
  family : AfFamily
  tagged : AfFamily.ofHost os (hostFamily os bytes) = some family
  sized : HostLength os bytes len family
  zeroed : ∀ i, len ≤ i → bytes i = 0

def HostSockaddr.endpoint {os : Os} (h : HostSockaddr os) : Option Endpoint :=
  Network.endpoint os h.bytes h.len

inductive AddrReport
  | accept
  | accept4 (flag : Int)
  | recvfrom (flags : BitVec 32)
  | getsockname
  | getpeername

namespace AddrReport

/-- The guest's buffer after the call, when the host's call returned `ret` and left `haddr`. -/
def run (os : Os) (ret : Int) (haddr : Bytes) (guest : GuestAddr) :
    AddrReport → Except String (Option GuestAddr)
  | .accept => (Network.accept os ⟨ret, haddr⟩ (some guest)).map Prod.snd
  | .accept4 flag => (Network.accept4 os ⟨ret, haddr⟩ (some guest) flag).map Prod.snd
  | .recvfrom flags => (Network.recvfrom os flags ⟨ret, haddr⟩ (some guest)).map Prod.snd
  | .getsockname => (Network.getsockname os ⟨ret, haddr⟩ guest).map fun r => some r.2
  | .getpeername => (Network.getpeername os ⟨ret, haddr⟩ guest).map fun r => some r.2

def Succeeds (ret : Int) : AddrReport → Prop
  | .accept | .accept4 _ => 0 ≤ ret
  | .recvfrom flags => (flags = 0 ∨ flags = 0x4000) ∧ 0 ≤ ret ∧ ret < 2 ^ 31
  | .getsockname | .getpeername => ret = 0

end AddrReport

def HostCall.addr : HostCall → Option (List UInt8)
  | .bind _ addr => addr
  | .connect _ addr => addr
  | .sendto _ _ _ addr => addr

section RoundTrip

variable {os : Os} {h : HostSockaddr os} {r : AddrReport} {ret : Int} {guest : GuestAddr}
  {c : AddrCall} {sockfd : Int}

/-- The guest gets the address `h` from `r`, passes it on to `c` as it got it, and the host is
handed an address of the same name. -/
def RoundTrips (h : HostSockaddr os) (r : AddrReport) (ret : Int) (guest : GuestAddr) (c : AddrCall)
    (sockfd : Int) : Prop :=
  ∃ g call addr, r.run os ret h.bytes guest = .ok (some g) ∧
    c.run os sockfd (some g.bytes) g.len = .ok call ∧ call.addr = some addr ∧
    endpoint os (Bytes.ofList addr) addr.length = h.endpoint

theorem HostSockaddr.named (h : HostSockaddr os) : h.family ≠ .unspec := by
  intro hFamily
  have hSized := h.sized
  rw [hFamily] at hSized
  exact hSized

theorem HostSockaddr.toGuest_tagged (h : HostSockaddr os) (guest : Bytes) :
    AfFamily.ofBionic (bionicFamily ((setBionicFamily guest h.family.bionic).memcpy 2 h.bytes 2
      h.family.payload)) = some h.family :=
  AfFamily.ofBionic_eq.mpr copied_family

def HostSockaddr.toGuest (h : HostSockaddr os) (guest : Bytes) : GuestSockaddr where
  bytes := (setBionicFamily guest h.family.bionic).memcpy 2 h.bytes 2 h.family.payload
  family := h.family
  tagged := h.toGuest_tagged guest
  named := h.named

theorem AfFamily.bionicLen_some {f : AfFamily} (h : f ≠ .unspec) :
    f.bionicLen = some (f.bionicLen.getD 0) := by
  cases f <;> first | rfl | exact absurd rfl h

theorem AddrReport.run_eq (hRet : r.Succeeds ret) (hRoom : h.family.bionicLen.getD 0 ≤ guest.len) :
    r.run os ret h.bytes guest =
      .ok (some ⟨(h.toGuest guest.bytes).bytes, h.family.bionicLen.getD 0⟩) := by
  have hApply : applyIf os true ret h.bytes guest =
      .ok (ret, ⟨(h.toGuest guest.bytes).bytes, h.family.bionicLen.getD 0⟩) := by
    rw [applyIf, apply_eq h.tagged (AfFamily.bionicLen_some h.named) hRoom]
    rfl
  cases r with
  | accept | accept4 flag =>
    have hAccept : Network.accept os ⟨ret, h.bytes⟩ (some guest) = _ := accept_eq hRet
    simp only [AddrReport.run, Network.accept4, hAccept, hApply]
    rfl
  | recvfrom flags =>
    obtain ⟨hFlags, hLow, hHigh⟩ := hRet
    have hRecvfrom : Network.recvfrom os flags ⟨ret, h.bytes⟩ (some guest) = _ :=
      recvfrom_eq hFlags hLow hHigh
    simp only [AddrReport.run, hRecvfrom, hApply]
    rfl
  | getsockname | getpeername =>
    have hSuccess : decide (ret = 0) = true := decide_eq_true hRet
    simp only [AddrReport.run, Network.getsockname, Network.getpeername, hSuccess, hApply]
    rfl

theorem length_hostBytes (a : GuestSockaddr) :
    (a.hostBytes os).length = (a.family.hostLen os).getD 0 := by
  rw [GuestSockaddr.hostBytes, Bytes.length_take]

theorem AfFamily.needed_le (os : Os) {f : AfFamily} (h : f ≠ .unspec) :
    f.needed os ≤ 2 + f.payload ∧ f.needed os ≤ (f.hostLen os).getD 0 := by
  cases f with
  | unspec => exact absurd rfl h
  | unix => cases os <;> decide
  | inet => exact ⟨Nat.le_refl 8, Nat.le_of_ble_eq_true rfl⟩
  | inet6 => exact ⟨Nat.le_refl 28, Nat.le_refl 28⟩

theorem returned_byte {m : Bytes} {i : Nat} (hLow : 2 ≤ i) (hHigh : i < h.family.needed os) :
    Bytes.ofList ((h.toGuest m).hostBytes os) i = h.bytes i := by
  obtain ⟨hPayload, hLen⟩ := AfFamily.needed_le os h.named
  have hIndex : 2 + (i - 2) = i := by omega
  have hIn : i < ((h.toGuest m).family.hostLen os).getD 0 := Nat.lt_of_lt_of_le hHigh hLen
  rw [GuestSockaddr.hostBytes, Bytes.ofList_take hIn]
  show Bytes.memcpy _ 2 (h.toGuest m).bytes 2 h.family.payload i = _
  rw [Bytes.memcpy_inside (by omega), hIndex]
  show Bytes.memcpy _ 2 h.bytes 2 h.family.payload i = _
  rw [Bytes.memcpy_inside (by omega), hIndex]

theorem hostFamily_congr {m m' : Bytes} (h₀ : m 0 = m' 0) (h₁ : m 1 = m' 1) :
    hostFamily os m = hostFamily os m' := by
  cases os <;> simp [hostFamily, Bytes.load16, h₀, h₁]

theorem returned_family {m : Bytes} :
    AfFamily.ofHost os (hostFamily os (Bytes.ofList ((h.toGuest m).hostBytes os))) =
      some h.family := by
  have hNumber : h.family.host os < 256 := by cases os <;> cases h.family <;> decide
  have hNeeded := AfFamily.needed_ge os h.named
  obtain ⟨-, hLen⟩ := AfFamily.needed_le os h.named
  have hByte : ∀ i < 2, Bytes.ofList ((h.toGuest m).hostBytes os) i =
      setHostFamily os Bytes.zero (h.family.host os) i := by
    intro i hi
    have hIn : i < ((h.toGuest m).family.hostLen os).getD 0 :=
      Nat.lt_of_lt_of_le (by omega) (Nat.le_trans hNeeded hLen)
    rw [GuestSockaddr.hostBytes, Bytes.ofList_take hIn]
    exact Bytes.memcpy_outside (Or.inl hi)
  rw [hostFamily_congr (hByte 0 (by omega)) (hByte 1 (by omega)), setHostFamily_get hNumber]
  exact AfFamily.ofHost_eq.mpr rfl

theorem AddrCall.finish_addr {addr : Option (List UInt8)} (hFlags : c.Accepted) :
    ∃ call, c.finish sockfd addr = .ok call ∧ call.addr = addr := by
  cases c with
  | bind => exact ⟨_, rfl, rfl⟩
  | connect => exact ⟨_, rfl, rfl⟩
  | sendto buf flags =>
    refine ⟨.sendto sockfd buf (flags &&& 0x4000#32 != 0) addr, ?_, rfl⟩
    rw [AddrCall.finish, AddrCall.sockSendFlags_eq hFlags]
    rfl

theorem roundTrips_iff (hRet : r.Succeeds ret) (hRoom : h.family.bionicLen.getD 0 ≤ guest.len)
    (hFlags : c.Accepted) :
    RoundTrips h r ret guest c sockfd ↔
      endpoint os (Bytes.ofList ((h.toGuest guest.bytes).hostBytes os))
        ((h.family.hostLen os).getD 0) = h.endpoint := by
  obtain ⟨call, hFinish, hAddr⟩ : ∃ call,
      c.finish sockfd (some ((h.toGuest guest.bytes).hostBytes os)) = .ok call ∧
        call.addr = some ((h.toGuest guest.bytes).hostBytes os) := AddrCall.finish_addr hFlags
  have hCall : c.run os sockfd (some (h.toGuest guest.bytes).bytes)
      (h.family.bionicLen.getD 0) = .ok call := (AddrCall.run_eq _).trans hFinish
  have hLength : ((h.toGuest guest.bytes).hostBytes os).length = (h.family.hostLen os).getD 0 :=
    length_hostBytes _
  rw [RoundTrips, AddrReport.run_eq hRet hRoom, ← hLength]
  constructor
  · rintro ⟨g, call', addr, hReport, hBack, hAddr', hSame⟩
    obtain rfl := Option.some.inj (Except.ok.inj hReport)
    obtain rfl := Except.ok.inj (hCall.symm.trans hBack)
    obtain rfl := Option.some.inj (hAddr.symm.trans hAddr')
    exact hSame
  · intro hSame
    exact ⟨_, call, _, rfl, hCall, hAddr, hSame⟩

theorem slice_returned {m : Bytes} {i n : Nat} (hLow : 2 ≤ i)
    (hHigh : i + n ≤ h.family.needed os) :
    (Bytes.ofList ((h.toGuest m).hostBytes os)).slice i n = h.bytes.slice i n :=
  Bytes.slice_congr fun _ hi hn => returned_byte (by omega) (by omega)

/-- A name that ends before the end of `sun_path` is read the same at its full size. -/
theorem cstring_full (hFamily : h.family = .unix) :
    h.bytes.cstring 2 (sunPath os) = h.bytes.cstring 2 (h.len - 2) := by
  have hSized := h.sized
  rw [hFamily] at hSized
  obtain ⟨hMin, hMax | ⟨hOver, -, hEnd⟩⟩ := hSized
  · have hPad : sunPath os = h.len - 2 + (2 + sunPath os - h.len) := by omega
    rw [hPad]
    exact Bytes.cstring_add fun k hk => h.zeroed k (by omega)
  · have hPad : h.len - 2 = sunPath os + 1 := by omega
    rw [hPad]
    refine (Bytes.cstring_add fun k hk => ?_).symm
    by_cases hk : k = 2 + sunPath os
    · exact hk ▸ hEnd
    · exact h.zeroed k (by omega)

theorem unix_returned {m : Bytes} (hFamily : h.family = .unix) :
    endpoint os (Bytes.ofList ((h.toGuest m).hostBytes os)) (2 + sunPath os) = h.endpoint ↔
      ¬(h.bytes 2 = 0 ∧ h.len ≠ 2 + sunPath os) := by
  have hNeeded : h.family.needed os = 2 + sunPath os := by rw [hFamily]; rfl
  have hLong : ¬2 + sunPath os ≤ 2 := by cases os <;> decide
  have hFirst : Bytes.ofList ((h.toGuest m).hostBytes os) 2 = h.bytes 2 :=
    returned_byte (Nat.le_refl 2) (by omega)
  have hSized := h.sized
  rw [hFamily] at hSized
  have hTagged := h.tagged
  rw [hFamily] at hTagged
  have hReturned := returned_family (h := h) (m := m)
  rw [hFamily] at hReturned
  simp only [endpoint, HostSockaddr.endpoint, hTagged, hReturned, hFirst, if_neg hLong]
  by_cases hZero : h.bytes 2 = 0
  · -- an unnamed or abstract name: its length is part of it
    have hMax : h.len ≤ 2 + sunPath os := by
      rcases hSized.2 with hMax | ⟨-, hNonzero, -⟩
      · exact hMax
      · exact absurd hZero hNonzero
    by_cases hUnnamed : h.len ≤ 2
    · simp only [hZero, hUnnamed, if_true, Option.some.injEq, reduceCtorEq, false_iff, true_and,
        not_not]
      omega
    · simp only [hZero, hUnnamed, if_true, if_false, Option.some.injEq, Endpoint.abstract.injEq,
        true_and, not_not]
      constructor
      · intro hName
        have hLength := Bytes.length_of_slice_eq hName
        omega
      · intro hLen
        rw [hLen]
        exact slice_returned (by omega) (by omega)
  · have hShort : ¬h.len ≤ 2 := fun hShort => hZero (h.zeroed 2 hShort)
    have hName : (Bytes.ofList ((h.toGuest m).hostBytes os)).cstring 2 (sunPath os) =
        h.bytes.cstring 2 (sunPath os) := by
      rw [Bytes.cstring, slice_returned (Nat.le_refl 2) (by omega), Bytes.cstring]
    simp only [hZero, hShort, if_false, Nat.add_sub_cancel_left, hName, cstring_full hFamily,
      false_and, not_false_eq_true]

/-- An address survives the way through the guest exactly when it is not a name of the family
`AF_UNIX` that its length ends before the end of `sun_path`. -/
theorem address_survives_round_trip (hRet : r.Succeeds ret)
    (hRoom : h.family.bionicLen.getD 0 ≤ guest.len) (hFlags : c.Accepted) :
    RoundTrips h r ret guest c sockfd ↔
      ¬(h.family = .unix ∧ h.bytes 2 = 0 ∧ h.len ≠ 2 + sunPath os) := by
  rw [roundTrips_iff hRet hRoom hFlags]
  cases hFamily : h.family with
  | unspec => exact absurd hFamily h.named
  | unix =>
    simp only [true_and]
    exact unix_returned hFamily
  | inet =>
    have hNeeded : h.family.needed os = 8 := by rw [hFamily]; rfl
    have hReturned := returned_family (h := h) (m := guest.bytes)
    have hTagged := h.tagged
    rw [hFamily] at hTagged hReturned
    simp only [endpoint, HostSockaddr.endpoint, hTagged, hReturned, reduceCtorEq, false_and,
      not_false_eq_true, iff_true]
    rw [slice_returned (by omega) (by omega), slice_returned (by omega) (by omega)]
  | inet6 =>
    have hNeeded : h.family.needed os = 28 := by rw [hFamily]; rfl
    have hReturned := returned_family (h := h) (m := guest.bytes)
    have hTagged := h.tagged
    rw [hFamily] at hTagged hReturned
    simp only [endpoint, HostSockaddr.endpoint, hTagged, hReturned, reduceCtorEq, false_and,
      not_false_eq_true, iff_true]
    rw [slice_returned (by omega) (by omega), slice_returned (by omega) (by omega),
      slice_returned (by omega) (by omega), slice_returned (by omega) (by omega)]

end RoundTrip

/-! ### On Linux -/

/-- `getsockname` of an unbound socket: the family and nothing else. -/
def unnamedSocket : HostSockaddr .linux where
  bytes := Bytes.zero.store8 0 1
  len := 2
  family := .unix
  tagged := rfl
  sized := ⟨by decide, Or.inl (by decide)⟩
  zeroed i hi := Bytes.store8_other (by omega)

def pathnameSocket : HostSockaddr .linux where
  bytes := (Bytes.zero.store8 0 1).store8 2 97
  len := 4
  family := .unix
  tagged := rfl
  sized := ⟨by decide, Or.inl (by decide)⟩
  zeroed i hi := by rw [Bytes.store8_other (by omega), Bytes.store8_other (by omega)]; rfl

theorem pathname_survives :
    RoundTrips pathnameSocket .getsockname 0 ⟨Bytes.zero, 110⟩ .bind 3 := by
  have hSucceeds : AddrReport.getsockname.Succeeds 0 := rfl
  have hAccepted : AddrCall.bind.Accepted := trivial
  refine (address_survives_round_trip hSucceeds (by decide) hAccepted).mpr ?_
  rintro ⟨-, hUnnamed, -⟩
  exact absurd hUnnamed (by decide)

theorem unnamed_lost :
    ¬ ∀ (os : Os) (h : HostSockaddr os) (r : AddrReport) (ret : Int) (guest : GuestAddr)
      (c : AddrCall) (sockfd : Int), r.Succeeds ret → h.family.bionicLen.getD 0 ≤ guest.len →
      c.Accepted → RoundTrips h r ret guest c sockfd := by
  intro hClaim
  have hSucceeds : AddrReport.getsockname.Succeeds 0 := rfl
  have hRoom : unnamedSocket.family.bionicLen.getD 0 ≤ 110 := by decide
  have hAccepted : AddrCall.bind.Accepted := trivial
  have hTrips := hClaim .linux unnamedSocket .getsockname 0 ⟨Bytes.zero, 110⟩ .bind 3 hSucceeds
    hRoom hAccepted
  have hSame := (roundTrips_iff hSucceeds hRoom hAccepted).mp hTrips
  exact (unix_returned rfl).mp hSame ⟨rfl, by decide⟩

end LibcShim.Network
