import Mathlib.Logic.Function.Basic
import LibcShim.Network.Endpoint
import LibcShim.Network.Sendmmsg

/-! The destination of a message on a host whose socket addresses need not be laid out as the
guest's: `sendto` translates it, `sendmsg` and `sendmmsg` hand on the guest's own bytes. -/

namespace LibcShim.Network

open Kit

/-! ### Layouts -/

/-- How a host numbers the families and lays out their addresses.  `wide` tells a family of two
bytes from one behind `sa_len`.  `AF_UNSPEC` is 0 and `AF_UNIX` is 1 on every host, and no
`sun_path` is longer than the guest's. -/
structure HostLayout where
  wide : Bool
  number : AfFamily → Nat
  sunPath : Nat
  unspec : number .unspec = 0
  unix : number .unix = 1
  distinct : Function.Injective number
  bounded : ∀ f, number f < if wide then 65536 else 256
  named : 0 < sunPath
  fits : sunPath ≤ 108

def HostLayout.ofOs (os : Os) : HostLayout where
  wide := match os with
    | .linux => true
    | .apple | .freebsd => false
  number := AfFamily.host os
  sunPath := Network.sunPath os
  unspec := rfl
  unix := rfl
  distinct f f' h := by
    cases os <;> cases f <;> cases f' <;> first | rfl | cases h
  bounded f := by cases os <;> cases f <;> decide
  named := by cases os <;> decide
  fits := by cases os <;> decide

namespace HostLayout

variable (L : HostLayout)

def family (m : Bytes) : Nat := if L.wide then m.load16 0 else (m 1).toNat

def setFamily (m : Bytes) (v : Nat) : Bytes :=
  if L.wide then m.store16 0 v else m.store8 1 (UInt8.ofNat v)

def ofNumber (n : Nat) : Option AfFamily := AfFamily.all.find? fun f => L.number f == n

/-- `bionic::to_host`. -/
def toHost (src out : Bytes) : Except String Bytes :=
  match AfFamily.ofBionic (bionicFamily src) with
  | some .unspec => .ok (L.setFamily out 0)
  | some .unix => .ok (copyUn (L.setFamily out (bionicFamily src)) src)
  | some .inet => .ok (copyIn (L.setFamily out (L.number .inet)) src)
  | some .inet6 => .ok (copyIn6 (L.setFamily out (L.number .inet6)) src)
  | none => .error s!"Unknown socket family when converting sockaddr to host {bionicFamily src}"

def getHostLen (src : Bytes) : Except String Nat :=
  match AfFamily.ofBionic (bionicFamily src) with
  | some .unix => .ok (2 + L.sunPath)
  | some .inet => .ok 16
  | some .inet6 => .ok 28
  | _ => .error s!"Unknown socket family when converting sockaddr to host {bionicFamily src}"

/-- `detail::sockaddr_in`. -/
def sockaddrIn (addr : Option Bytes) (_ : Nat) : Except String (Option (List UInt8)) :=
  match addr with
  | none => .ok none
  | some addr => do
    let haddr ← L.toHost addr Bytes.zero
    let len ← L.getHostLen addr
    .ok (some (haddr.take len))

end HostLayout

/-- The name that the fields of an address of the family `f` are. -/
def Endpoint.ofFields (m : Bytes) (len : Nat) : AfFamily → Option Endpoint
  | .unspec => none
  | .inet => some (.inet (m.slice 2 2) (m.slice 4 4))
  | .inet6 => some (.inet6 (m.slice 2 2) (m.slice 4 4) (m.slice 8 16) (m.slice 24 4))
  | .unix =>
    if len ≤ 2 then some .unnamed
    else if m 2 = 0 then some (.abstract (m.slice 3 (len - 3)))
    else some (.pathname (m.cstring 2 (len - 2)))

/-- What a host of the layout takes an address for. -/
def HostLayout.endpoint (L : HostLayout) (addr : List UInt8) : Option Endpoint :=
  (L.ofNumber (L.family (Bytes.ofList addr))).bind fun f =>
    Endpoint.ofFields (Bytes.ofList addr) addr.length f

section Os

variable (os : Os)

theorem ofOs_sockaddrIn : (HostLayout.ofOs os).sockaddrIn = Network.sockaddrIn os := by
  cases os <;> rfl

theorem ofOs_endpoint (addr : List UInt8) :
    (HostLayout.ofOs os).endpoint addr = Network.endpoint os (Bytes.ofList addr) addr.length := by
  have hFamily :
      (HostLayout.ofOs os).family (Bytes.ofList addr) = hostFamily os (Bytes.ofList addr) := by
    cases os <;> rfl
  unfold HostLayout.endpoint Network.endpoint
  rw [hFamily]
  show ((AfFamily.ofHost os (hostFamily os (Bytes.ofList addr))).bind _) = _
  cases AfFamily.ofHost os (hostFamily os (Bytes.ofList addr)) with
  | none => rfl
  | some f => cases f <;> rfl

end Os

/-! ### The three calls -/

/-- The host's `sendmsg`, on the guest's own msghdr. -/
structure SendmsgCall where
  sockfd : Int
  msg : Msghdr
  flags : HostFlags

def sendmsg (os : Os) (sockfd : Int) (m : Msghdr) (flags : BitVec 32) :
    Except String SendmsgCall := do
  let hflags ← decodeFlags os flags .send
  .ok ⟨sockfd, m, hflags⟩

/-- `sendto` on a host of the layout; on one of `ofOs os` it is `Network.sendto`. -/
def HostLayout.sendto (L : HostLayout) (sockfd : Int) (buf : List UInt8) (flags : BitVec 32)
    (addr : Option Bytes) (addrlen : Nat) : Except String HostCall := do
  let haddr ← L.sockaddrIn addr addrlen
  let noSignal ← sockSendFlags flags
  .ok (.sendto sockfd buf noSignal haddr)

theorem ofOs_sendto (os : Os) : (HostLayout.ofOs os).sendto = Network.sendto os := by
  unfold HostLayout.sendto
  rw [ofOs_sockaddrIn]
  rfl

/-- The address that the host reads where `msg_name` points. -/
def Msghdr.destination (m : Msghdr) : Option (List UInt8) :=
  m.name.map fun buffer => buffer.bytes.take m.namelen

/-- The lengths that a guest gives its addresses: all fields of `AF_INET` and `AF_INET6`, and any
part of an `AF_UNIX` name. -/
def GuestLength (len : Nat) : AfFamily → Prop
  | .unspec => False
  | .inet => 16 ≤ len
  | .inet6 => 28 ≤ len
  | .unix => 2 ≤ len ∧ len ≤ 110

structure Destination extends GuestSockaddr where
  len : Nat
  sized : GuestLength len family

/-- The message `m` to `a`, with the address of the bytes of `a`. -/
def Destination.msghdr (a : Destination) (address : Nat) (m : Msghdr) : Msghdr :=
  { m with name := some ⟨address, a.bytes⟩, namelen := a.len }

/-- The three calls hand the host addresses of one endpoint. -/
def SentAlike (L : HostLayout) (os : Os) (sockfd : Int) (a : Destination) (address : Nat)
    (m : Msghdr) (flags : BitVec 32) (script : Nat → Int) : Prop :=
  ∃ call event noSignal single batch addr name,
    sendmsg os sockfd (a.msghdr address m) flags = .ok call ∧
    (sendmmsg os [⟨a.msghdr address m, 0⟩] flags script).log = [event] ∧
    L.sendto sockfd m.data flags (some a.bytes) a.len =
      .ok (.sendto sockfd m.data noSignal (some addr)) ∧
    call.msg.destination = some single ∧ event.msg.destination = some batch ∧
    L.endpoint single = some name ∧ L.endpoint batch = some name ∧ L.endpoint addr = some name

/-- The host takes the guest's bytes for what `to_host` makes of them. -/
def Destination.ReadAlike (a : Destination) (L : HostLayout) : Prop :=
  L.wide = true ∧ L.number a.family = a.family.bionic ∧
    (a.family = .unix → a.len = 2 + L.sunPath ∨
      2 < a.len ∧ a.bytes 2 ≠ 0 ∧ ∃ k ≤ min (a.len - 2) L.sunPath, a.bytes (2 + k) = 0)

section Fields

variable {L : HostLayout} {f : AfFamily} {m m' : Bytes} {len n : Nat} {e : Endpoint}

/-- Where the fields of a name end. -/
def AfFamily.extent (len : Nat) : AfFamily → Nat
  | .unspec => 0
  | .inet => 8
  | .inet6 => 28
  | .unix => len

theorem Endpoint.ofFields_congr (h : ∀ i, 2 ≤ i → i < f.extent len → m i = m' i) :
    Endpoint.ofFields m len f = Endpoint.ofFields m' len f := by
  have hSlice : ∀ i k, 2 ≤ i → i + k ≤ f.extent len → m.slice i k = m'.slice i k :=
    fun i k hi hk => Bytes.slice_congr fun j hj hjk => h j (by omega) (by omega)
  cases f with
  | unspec => rfl
  | inet =>
    simp only [AfFamily.extent] at hSlice
    rw [Endpoint.ofFields, Endpoint.ofFields, hSlice 2 2 (by omega) (by omega),
      hSlice 4 4 (by omega) (by omega)]
  | inet6 =>
    simp only [AfFamily.extent] at hSlice
    rw [Endpoint.ofFields, Endpoint.ofFields, hSlice 2 2 (by omega) (by omega),
      hSlice 4 4 (by omega) (by omega), hSlice 8 16 (by omega) (by omega),
      hSlice 24 4 (by omega) (by omega)]
  | unix =>
    simp only [AfFamily.extent] at hSlice h
    by_cases hShort : len ≤ 2
    · rw [Endpoint.ofFields, Endpoint.ofFields, if_pos hShort, if_pos hShort]
    · rw [Endpoint.ofFields, Endpoint.ofFields, h 2 (by omega) (by omega),
        hSlice 3 (len - 3) (by omega) (by omega), Bytes.cstring,
        hSlice 2 (len - 2) (by omega) (by omega), Bytes.cstring]

def Endpoint.family : Endpoint → AfFamily
  | .inet .. => .inet
  | .inet6 .. => .inet6
  | .unnamed | .pathname _ | .abstract _ => .unix

theorem Endpoint.ofFields_family (h : Endpoint.ofFields m len f = some e) : e.family = f := by
  cases f with
  | unspec => cases h
  | inet =>
    obtain rfl := Option.some.inj h
    rfl
  | inet6 =>
    obtain rfl := Option.some.inj h
    rfl
  | unix =>
    simp only [Endpoint.ofFields] at h
    split at h
    · obtain rfl := Option.some.inj h
      rfl
    · split at h <;> obtain rfl := Option.some.inj h <;> rfl

theorem Endpoint.ofFields_some (h : f ≠ .unspec) : ∃ e, Endpoint.ofFields m len f = some e := by
  unfold Endpoint.ofFields
  cases f with
  | unspec => exact absurd rfl h
  | inet => exact ⟨_, rfl⟩
  | inet6 => exact ⟨_, rfl⟩
  | unix =>
    dsimp only
    split
    · exact ⟨_, rfl⟩
    · split <;> exact ⟨_, rfl⟩

theorem HostLayout.ofNumber_eq : L.ofNumber n = some f ↔ n = L.number f := by
  constructor
  · intro h
    have hCase := List.find?_some (p := fun f : AfFamily => L.number f == n) h
    exact (beq_iff_eq.mp hCase).symm
  · rintro rfl
    have hSelf : (fun f' : AfFamily => L.number f' == L.number f) = fun f' => f' == f := by
      funext f'
      rw [Bool.eq_iff_iff, beq_iff_eq, beq_iff_eq, L.distinct.eq_iff]
    rw [HostLayout.ofNumber, hSelf]
    cases f <;> rfl

theorem HostLayout.family_congr (h₀ : m 0 = m' 0) (h₁ : m 1 = m' 1) : L.family m = L.family m' := by
  unfold HostLayout.family
  split
  · simp [Bytes.load16, h₀, h₁]
  · rw [h₁]

theorem HostLayout.family_setFamily (f : AfFamily) :
    L.family (L.setFamily m (L.number f)) = L.number f := by
  have hBound := L.bounded f
  unfold HostLayout.family HostLayout.setFamily
  split
  · rename_i hWide
    rw [if_pos hWide] at hBound
    exact Bytes.load16_store16 hBound
  · rename_i hNarrow
    rw [if_neg hNarrow] at hBound
    simp [Bytes.store8, Nat.mod_eq_of_lt hBound]

end Fields

section Alike

variable {L : HostLayout} {a : Destination}

def HostLayout.len (L : HostLayout) : AfFamily → Nat
  | .unspec => 0
  | .unix => 2 + L.sunPath
  | .inet => 16
  | .inet6 => 28

/-- What `to_host` and `get_host_len` make of the address. -/
def Destination.translated (a : Destination) (L : HostLayout) : List UInt8 :=
  ((L.setFamily Bytes.zero (L.number a.family)).memcpy 2 a.bytes 2 a.family.payload).take
    (L.len a.family)

theorem HostLayout.toHost_eq {src out : Bytes} {f : AfFamily}
    (h : AfFamily.ofBionic (bionicFamily src) = some f) :
    L.toHost src out = .ok ((L.setFamily out (L.number f)).memcpy 2 src 2 f.payload) := by
  have hNumber := AfFamily.ofBionic_eq.mp h
  unfold HostLayout.toHost
  rw [h]
  cases f with
  | unspec =>
    rw [L.unspec]
    exact congrArg Except.ok (Bytes.memcpy_empty _ _ _ _).symm
  | unix =>
    rw [hNumber, L.unix]
    rfl
  | inet => exact congrArg Except.ok copyIn_eq
  | inet6 => exact congrArg Except.ok copyIn6_eq

theorem Destination.sockaddrIn_eq (n : Nat) :
    L.sockaddrIn (some a.bytes) n = .ok (some (a.translated L)) := by
  have hLen : L.getHostLen a.bytes = .ok (L.len a.family) := by
    unfold HostLayout.getHostLen
    rw [a.tagged]
    cases hFamily : a.family with
    | unspec => exact absurd hFamily a.named
    | unix => rfl
    | inet => rfl
    | inet6 => rfl
  simp only [HostLayout.sockaddrIn, L.toHost_eq a.tagged, hLen]
  rfl

theorem HostLayout.len_bounds (L : HostLayout) {f : AfFamily} (h : f ≠ .unspec) :
    2 < L.len f ∧ f.extent (L.len f) ≤ L.len f ∧ f.extent (L.len f) ≤ 2 + f.payload := by
  have hNamed := L.named
  have hFits := L.fits
  cases f with
  | unspec => exact absurd rfl h
  | unix =>
    simp only [HostLayout.len, AfFamily.extent, AfFamily.payload]
    omega
  | inet =>
    simp only [HostLayout.len, AfFamily.extent, AfFamily.payload]
    omega
  | inet6 =>
    simp only [HostLayout.len, AfFamily.extent, AfFamily.payload]
    omega

theorem Destination.endpoint_translated :
    L.endpoint (a.translated L) = Endpoint.ofFields a.bytes (L.len a.family) a.family := by
  obtain ⟨hTwo, hLen, hPayload⟩ := L.len_bounds a.named
  have hByte : ∀ i < L.len a.family, Bytes.ofList (a.translated L) i =
      (L.setFamily Bytes.zero (L.number a.family)).memcpy 2 a.bytes 2 a.family.payload i :=
    fun i hi => Bytes.ofList_take hi
  have hHead : ∀ i < 2, Bytes.ofList (a.translated L) i =
      L.setFamily Bytes.zero (L.number a.family) i := by
    intro i hi
    rw [hByte i (by omega)]
    exact Bytes.memcpy_outside (Or.inl hi)
  have hFamily : L.ofNumber (L.family (Bytes.ofList (a.translated L))) = some a.family := by
    rw [HostLayout.ofNumber_eq, HostLayout.family_congr (hHead 0 (by omega)) (hHead 1 (by omega)),
      HostLayout.family_setFamily]
  have hLength : (a.translated L).length = L.len a.family := Bytes.length_take _ _
  rw [HostLayout.endpoint, hFamily, Option.bind_some, hLength]
  refine Endpoint.ofFields_congr fun i hLow hHigh => ?_
  rw [hByte i (by omega), Bytes.memcpy_inside (by omega)]
  congr 1
  omega

theorem Destination.two_le (a : Destination) : 2 ≤ a.len ∧ a.family.extent a.len ≤ a.len := by
  have hSized := a.sized
  cases hFamily : a.family with
  | unspec => exact absurd hFamily a.named
  | unix =>
    rw [hFamily] at hSized
    exact ⟨hSized.1, Nat.le_refl _⟩
  | inet =>
    rw [hFamily] at hSized
    exact ⟨Nat.le_trans (by decide) hSized, Nat.le_trans (Nat.le_of_ble_eq_true rfl) hSized⟩
  | inet6 =>
    rw [hFamily] at hSized
    exact ⟨Nat.le_trans (by decide) hSized, hSized⟩

/-- The family that the host reads in the guest's own bytes. -/
theorem Destination.family_raw (a : Destination) :
    L.family (Bytes.ofList (a.bytes.take a.len)) = if L.wide then a.family.bionic else 0 := by
  have hTwo := a.two_le.1
  have hNumber : bionicFamily a.bytes = a.family.bionic := AfFamily.ofBionic_eq.mp a.tagged
  have hSmall : a.family.bionic < 256 := by cases a.family <;> decide
  rw [HostLayout.family_congr (Bytes.ofList_take (by omega)) (Bytes.ofList_take (by omega))]
  unfold HostLayout.family
  split
  · exact hNumber
  · rw [bionicFamily, Bytes.load16, Nat.zero_add] at hNumber
    omega

theorem Destination.endpoint_raw (hWide : L.wide = true)
    (hNumber : L.number a.family = a.family.bionic) :
    L.endpoint (a.bytes.take a.len) = Endpoint.ofFields a.bytes a.len a.family := by
  have hFamily : L.ofNumber (L.family (Bytes.ofList (a.bytes.take a.len))) = some a.family := by
    rw [HostLayout.ofNumber_eq, a.family_raw, if_pos hWide, hNumber]
  rw [HostLayout.endpoint, hFamily, Option.bind_some, Bytes.length_take]
  refine Endpoint.ofFields_congr fun i _ hHigh => Bytes.ofList_take ?_
  exact Nat.lt_of_lt_of_le hHigh a.two_le.2

/-- Where the host reads another family, or none, it reads another endpoint. -/
theorem Destination.endpoint_misread {name : Endpoint}
    (hMisread : ¬(L.wide = true ∧ L.number a.family = a.family.bionic))
    (hRaw : L.endpoint (a.bytes.take a.len) = some name) : name.family ≠ a.family := by
  rintro hSame
  obtain ⟨f, hFamily, hFields⟩ := Option.bind_eq_some_iff.mp hRaw
  obtain rfl : f = a.family := (Endpoint.ofFields_family hFields).symm.trans hSame
  rw [HostLayout.ofNumber_eq, a.family_raw] at hFamily
  split at hFamily
  · rename_i hWide
    exact hMisread ⟨hWide, hFamily.symm⟩
  · exact a.named (L.distinct (hFamily.symm.trans L.unspec.symm))

/-- The name of the address is the same at its own length and at the host's. -/
theorem Destination.ofFields_len_iff :
    Endpoint.ofFields a.bytes a.len a.family = Endpoint.ofFields a.bytes (L.len a.family) a.family ↔
      (a.family = .unix → a.len = 2 + L.sunPath ∨ 2 < a.len ∧ a.bytes 2 ≠ 0 ∧
        ∃ k ≤ min (a.len - 2) L.sunPath, a.bytes (2 + k) = 0) := by
  cases hFamily : a.family with
  | unspec => exact absurd hFamily a.named
  | inet => exact iff_of_true rfl nofun
  | inet6 => exact iff_of_true rfl nofun
  | unix =>
    have hNamed := L.named
    have hTranslated : Endpoint.ofFields a.bytes (L.len .unix) .unix =
        if a.bytes 2 = 0 then some (.abstract (a.bytes.slice 3 (2 + L.sunPath - 3)))
        else some (.pathname (a.bytes.cstring 2 (2 + L.sunPath - 2))) :=
      if_neg (by simp only [HostLayout.len]; omega)
    rw [hTranslated, Endpoint.ofFields]
    simp only [true_implies]
    by_cases hShort : a.len ≤ 2
    · -- unnamed, while `to_host` makes a name of the bytes behind it
      rw [if_pos hShort]
      refine iff_of_false ?_ (by omega)
      split <;> exact nofun
    · rw [if_neg hShort]
      by_cases hZero : a.bytes 2 = 0
      · simp only [hZero, if_true, Option.some.injEq, Endpoint.abstract.injEq, ne_eq,
          not_true_eq_false, false_and, and_false, or_false]
        constructor
        · intro hName
          have hLength := Bytes.length_of_slice_eq hName
          omega
        · intro hLen
          rw [hLen]
      · simp only [hZero, if_false, Option.some.injEq, Endpoint.pathname.injEq, ne_eq,
          not_false_eq_true, true_and, Bytes.cstring_eq_iff, Nat.add_sub_cancel_left]
        refine or_congr ⟨fun h => by omega, fun h => by omega⟩ ⟨fun h => ⟨by omega, h⟩, And.right⟩

theorem Destination.readAlike_iff :
    (∃ name, L.endpoint (a.bytes.take a.len) = some name ∧
      L.endpoint (a.translated L) = some name) ↔ a.ReadAlike L := by
  rw [a.endpoint_translated]
  by_cases hRead : L.wide = true ∧ L.number a.family = a.family.bionic
  · obtain ⟨name, hName⟩ : ∃ name,
        Endpoint.ofFields a.bytes (L.len a.family) a.family = some name :=
      Endpoint.ofFields_some a.named
    rw [a.endpoint_raw hRead.1 hRead.2, hName]
    have hSame := a.ofFields_len_iff (L := L)
    rw [hName] at hSame
    constructor
    · rintro ⟨name', hRaw, hTranslated⟩
      exact ⟨hRead.1, hRead.2, hSame.mp (hRaw.trans hTranslated.symm)⟩
    · rintro ⟨-, -, hLen⟩
      exact ⟨name, hSame.mpr hLen, rfl⟩
  · refine iff_of_false ?_ fun h => hRead ⟨h.1, h.2.1⟩
    rintro ⟨name, hRaw, hTranslated⟩
    exact a.endpoint_misread hRead hRaw (Endpoint.ofFields_family hTranslated)

theorem decodeFlags_send {os : Os} {flags : BitVec 32} (h : flags &&& ~~~0x4000#32 = 0) :
    ∃ f, decodeFlags os flags .send = .ok f := by
  unfold decodeFlags
  dsimp only
  rw [if_neg (not_not_intro h)]
  split <;> exact ⟨_, rfl⟩

/-- `sendmmsg` of one message makes one call, whatever comes of it. -/
theorem sendmmsg_single {os : Os} {m : Mmsghdr} {flags : BitVec 32} {script : Nat → Int}
    {f : HostFlags} (h : decodeFlags os flags .send = .ok f) :
    (sendmmsg os [m] flags script).log = [⟨m.hdr, f, script 0⟩] := by
  simp only [sendmmsg, h, sendmmsgLoop]
  split <;> rfl

/-- `sendmsg` and `sendmmsg` hand on the guest's bytes, `sendto` their translation. -/
theorem sentAlike_iff {os : Os} {sockfd : Int} {address : Nat} {m : Msghdr}
    {flags : BitVec 32} {script : Nat → Int} (hFlags : flags &&& ~~~0x4000#32 = 0) :
    SentAlike L os sockfd a address m flags script ↔
      ∃ name, L.endpoint (a.bytes.take a.len) = some name ∧
        L.endpoint (a.translated L) = some name := by
  obtain ⟨f, hDecoded⟩ : ∃ f, decodeFlags os flags .send = .ok f := decodeFlags_send hFlags
  have hSingle : sendmsg os sockfd (a.msghdr address m) flags =
      .ok ⟨sockfd, a.msghdr address m, f⟩ := by
    simp only [sendmsg, hDecoded]
    rfl
  have hBatch : (sendmmsg os [⟨a.msghdr address m, 0⟩] flags script).log =
      [⟨a.msghdr address m, f, script 0⟩] := sendmmsg_single hDecoded
  have hSendto : L.sendto sockfd m.data flags (some a.bytes) a.len =
      .ok (.sendto sockfd m.data (flags &&& 0x4000#32 != 0) (some (a.translated L))) := by
    have hSend : sockSendFlags flags = .ok (flags &&& 0x4000#32 != 0) :=
      if_neg (not_not_intro hFlags)
    simp only [HostLayout.sendto, a.sockaddrIn_eq, hSend]
    rfl
  constructor
  · rintro ⟨call, event, noSignal, single, batch, addr, name, hCall, hEvent, hTo, hFirst, -,
      hRaw, -, hTranslated⟩
    obtain rfl := Except.ok.inj (hSingle.symm.trans hCall)
    obtain rfl : a.bytes.take a.len = single := Option.some.inj hFirst
    have hAddr := Except.ok.inj (hSendto.symm.trans hTo)
    obtain rfl : a.translated L = addr := Option.some.inj (HostCall.sendto.inj hAddr).2.2.2
    exact ⟨name, hRaw, hTranslated⟩
  · rintro ⟨name, hRaw, hTranslated⟩
    exact ⟨_, _, _, _, _, _, name, hSingle, hBatch, hSendto, rfl, rfl, hRaw, hRaw, hTranslated⟩

/-- The three calls name one endpoint exactly when the host reads the guest's own bytes as
`to_host` would translate them. -/
theorem destinations_alike {os : Os} {sockfd : Int} {address : Nat} {m : Msghdr}
    {flags : BitVec 32} {script : Nat → Int} (hFlags : flags &&& ~~~0x4000#32 = 0) :
    SentAlike L os sockfd a address m flags script ↔ a.ReadAlike L :=
  (sentAlike_iff hFlags).trans a.readAlike_iff

end Alike

/-! ### `0.0.0.0`, and an abstract name -/

def anyAddress : Destination where
  bytes := inetAny
  family := .inet
  tagged := rfl
  named := nofun
  len := 16
  sized := Nat.le_refl 16

theorem AfFamily.unix_ne_unspec : AfFamily.unix ≠ .unspec := by decide

/-- The name is one byte. -/
def abstractAddress : Destination where
  bytes := (Bytes.zero.store8 0 1).store8 3 97
  family := .unix
  tagged := rfl
  named := AfFamily.unix_ne_unspec
  len := 4
  sized := ⟨by decide, by decide⟩

def fiveBytes : Msghdr := ⟨none, 0, [(0x2000, 5)], [1, 2, 3, 4, 5], 0, 0⟩

theorem sendmsg_to_any_address :
    SentAlike (.ofOs .linux) .linux 3 anyAddress 0x1000 fiveBytes 0 fun _ => 5 :=
  (destinations_alike rfl).mpr ⟨rfl, rfl, nofun⟩

/-- Darwin reads the guest's `AF_INET` as a length and no family, and Linux the name of four bytes
as one of 108. -/
theorem sendmsg_destination_untranslated :
    (¬ ∀ (L : HostLayout) (os : Os) (sockfd : Int) (a : Destination) (address : Nat) (m : Msghdr)
      (flags : BitVec 32) (script : Nat → Int), flags &&& ~~~0x4000#32 = 0 →
      SentAlike L os sockfd a address m flags script) ∧
    ¬ SentAlike (.ofOs .linux) .linux 3 abstractAddress 0x1000 fiveBytes 0 fun _ => 5 := by
  constructor
  · intro hClaim
    have hAlike := hClaim (.ofOs .apple) .apple 3 anyAddress 0x1000 fiveBytes 0 (fun _ => 5) rfl
    cases (Destination.readAlike_iff.mp ((sentAlike_iff rfl).mp hAlike)).1
  · intro hAlike
    have hRead := (Destination.readAlike_iff.mp ((sentAlike_iff rfl).mp hAlike)).2.2 rfl
    rcases hRead with hLen | ⟨-, hNonzero, -⟩
    · exact absurd hLen (by decide)
    · exact hNonzero rfl

end LibcShim.Network
