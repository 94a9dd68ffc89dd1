import LibcShim.Kit.Chain
import LibcShim.Network.Sockaddr

/-! `getifaddrs`: the host's list is walked once, and a list of its IP interfaces is linked together
behind a tail pointer. -/

namespace LibcShim.Network

open Kit

inductive Iff
  | up
  | broadcast
  | debug
  | loopback
  | pointopoint
  | notrailers
  | running
  | noarp
  | promisc
  | allmulti
  | master
  | slave
  | multicast
  | portsel
  | automedia
  | dynamic
  | lowerUp
  | dormant
  | echo
  deriving DecidableEq, Repr

namespace Iff

def bionic : Iff → BitVec 32
  | .up => 1 <<< 0
  | .broadcast => 1 <<< 1
  | .debug => 1 <<< 2
  | .loopback => 1 <<< 3
  | .pointopoint => 1 <<< 4
  | .notrailers => 1 <<< 5
  | .running => 1 <<< 6
  | .noarp => 1 <<< 7
  | .promisc => 1 <<< 8
  | .allmulti => 1 <<< 9
  | .master => 1 <<< 10
  | .slave => 1 <<< 11
  | .multicast => 1 <<< 12
  | .portsel => 1 <<< 13
  | .automedia => 1 <<< 14
  | .dynamic => 1 <<< 15
  | .lowerUp => 1 <<< 16
  | .dormant => 1 <<< 17
  | .echo => 1 <<< 18

/-- In the order of the tests. -/
def all : List Iff :=
  [.up, .broadcast, .debug, .loopback, .pointopoint, .notrailers, .running, .noarp, .promisc,
    .allmulti, .master, .slave, .multicast, .portsel, .automedia, .dynamic, .lowerUp, .dormant,
    .echo]

end Iff

/-- `IFF_*` of the host's headers; `none` where they do not define it. -/
abbrev HostIff := Iff → Option (BitVec 32)

/-- An allocated `sockaddr` of `size` bytes. -/
structure SockaddrBlock where
  size : Nat
  bytes : Bytes

structure HostIfaddrs where
  name : Option (List UInt8)
  flags : BitVec 32
  addr : Option Bytes
  netmask : Option Bytes

/-- The guest's `ifaddrs`, without `ifa_next`. -/
structure Ifaddrs where
  name : Option (List UInt8)
  flags : BitVec 32
  addr : Option SockaddrBlock
  netmask : Option SockaddrBlock

def isIp (os : Os) (addr : Bytes) : Bool :=
  hostFamily os addr = AfFamily.inet.host os || hostFamily os addr = AfFamily.inet6.host os

/-- `malloc(get_bionic_len(addr))`, with what it holds in `buf`, and `from_host` into it. -/
def mallocFromHost (os : Os) (buf : Bytes) (addr : Bytes) : Except String SockaddrBlock := do
  let size ← getBionicLen os addr
  let bytes ← fromHost os addr buf
  .ok ⟨size, bytes⟩

/-- A netmask of another family is left out. -/
def netmaskFromHost (os : Os) (buf : Bytes) :
    Option Bytes → Except String (Option SockaddrBlock)
  | some netmask =>
    if isIp os netmask then (mallocFromHost os buf netmask).map some else .ok none
  | none => .ok none

/-- `bufs` are the buffers for the address and for the netmask. -/
def fromHostIfaddrs (os : Os) (iff : HostIff) (bufs : Bytes × Bytes) (c : HostIfaddrs)
    (addr : Bytes) : Except String Ifaddrs := do
  let ifaAddr ← mallocFromHost os bufs.1 addr
  let ifaNetmask ← netmaskFromHost os bufs.2 c.netmask
  .ok ⟨c.name, remask Iff.all iff Iff.bionic c.flags, some ifaAddr, ifaNetmask⟩

/-- One turn of the loop; `first` is `*result` and `last` is `pc`. -/
def getifaddrsStep (os : Os) (iff : HostIff) (bufs : Bytes × Bytes) (t : Tail Ifaddrs)
    (c : HostIfaddrs) : Except String (Tail Ifaddrs) :=
  match c.addr with
  | some addr =>
    if isIp os addr then (fromHostIfaddrs os iff bufs c addr).map t.push else .ok t
  | none => .ok t

def getifaddrsLoop (os : Os) (iff : HostIff) (bufs : Nat → Bytes × Bytes) (i : Nat)
    (t : Tail Ifaddrs) : List HostIfaddrs → Except String (Tail Ifaddrs)
  | [] => .ok t
  | c :: next => do
    let t ← getifaddrsStep os iff (bufs i) t c
    getifaddrsLoop os iff bufs (i + 1) t next

/-- What the host's `getifaddrs` answers; the list is there where `ret` is 0. -/
structure HostInterfaces where
  ret : Int
  list : List HostIfaddrs

structure Interfaces where
  ret : Int
  heap : Heap (Node Ifaddrs)
  result : Option Nat

/-- `result` is the value of `*result`, before and after. -/
def getifaddrs (os : Os) (iff : HostIff) (bufs : Nat → Bytes × Bytes) (host : HostInterfaces)
    (heap : Heap (Node Ifaddrs)) (result : Option Nat) : Except String Interfaces :=
  if host.ret ≠ 0 then .ok ⟨host.ret, heap, result⟩
  else do
    let t ← getifaddrsLoop os iff bufs 0 ⟨heap, none, none⟩ host.list
    .ok ⟨0, t.heap, t.first⟩

/-- `block` holds the address `addr`, in as many bytes as its family takes. -/
def HoldsAddr (os : Os) (addr : Bytes) (block : SockaddrBlock) : Prop :=
  ∃ buf, TranslatedAddr os addr buf block.bytes block.size

/-- `n` describes to the guest the interface that `c` describes to the host. -/
structure SameInterface (os : Os) (iff : HostIff) (c : HostIfaddrs) (n : Ifaddrs) : Prop where
  name : n.name = c.name
  addr : ∃ addr block, c.addr = some addr ∧ n.addr = some block ∧ HoldsAddr os addr block
  netmask : ∀ mask, c.netmask = some mask → isIp os mask →
    ∃ block, n.netmask = some block ∧ HoldsAddr os mask block
  noNetmask : n.netmask = none ↔ ∀ mask, c.netmask = some mask → ¬isIp os mask
  flags : ∀ f : Iff, n.flags &&& f.bionic ≠ 0 ↔ ∃ mask, iff f = some mask ∧ c.flags &&& mask ≠ 0
  noFlags : n.flags &&& ~~~0x7FFFF#32 = 0

/-- An interface with an address of IPv4 or IPv6. -/
def hasIp (os : Os) (c : HostIfaddrs) : Bool := c.addr.any (isIp os)

section Entries

variable {os : Os} {iff : HostIff} {flags : BitVec 32} {buf addr : Bytes}

theorem ifaFlags_flag (f : Iff) : remask Iff.all iff Iff.bionic flags &&& f.bionic ≠ 0 ↔
    ∃ mask, iff f = some mask ∧ flags &&& mask ≠ 0 := by
  have hMem : f ∈ Iff.all := by cases f <;> decide
  have hNonzero : f.bionic ≠ 0 := by cases f <;> decide
  have hDisjoint : ∀ b ∈ Iff.all, b.bionic &&& f.bionic ≠ 0 → b = f := by cases f <;> decide
  rw [remask_flag hMem hNonzero hDisjoint, flagSet]
  cases iff f <;> simp

theorem ifaFlags_rest : remask Iff.all iff Iff.bionic flags &&& ~~~0x7FFFF#32 = 0 := by
  by_contra hRest
  obtain ⟨f, -, -, hBit⟩ := remask_and.mp hRest
  revert hBit
  cases f <;> decide

theorem mallocFromHost_ip (h : isIp os addr) :
    ∃ block, mallocFromHost os buf addr = .ok block ∧ HoldsAddr os addr block := by
  obtain ⟨f, len, hFamily, hSize⟩ : ∃ f len, AfFamily.ofHost os (hostFamily os addr) = some f ∧
      f.bionicLen = some len := by
    rcases (Bool.or_eq_true _ _).mp h with hInet | hInet6
    · exact ⟨.inet, 16, AfFamily.ofHost_eq.mpr (of_decide_eq_true hInet), rfl⟩
    · exact ⟨.inet6, 28, AfFamily.ofHost_eq.mpr (of_decide_eq_true hInet6), rfl⟩
  have hLen : getBionicLen os addr = .ok len := getBionicLen_ok.mpr ⟨f, hFamily, hSize⟩
  have hFrom : fromHost os addr buf = _ := fromHost_eq hFamily
  exact ⟨_, bind_ok.mpr ⟨len, hLen, bind_ok.mpr ⟨_, hFrom, rfl⟩⟩, buf,
    fromHost_translated hLen hFrom⟩

theorem netmaskFromHost_ok (os : Os) (buf : Bytes) (netmask : Option Bytes) :
    ∃ m, netmaskFromHost os buf netmask = .ok m ∧
      (∀ mask, netmask = some mask → isIp os mask → ∃ block, m = some block ∧
        HoldsAddr os mask block) ∧
      (m = none ↔ ∀ mask, netmask = some mask → ¬isIp os mask) := by
  cases netmask with
  | none => exact ⟨none, rfl, nofun, iff_of_true rfl nofun⟩
  | some mask =>
    by_cases hIp : isIp os mask
    · obtain ⟨block, hBlock, hHolds⟩ := mallocFromHost_ip hIp
      refine ⟨some block, ?_, fun mask' hMask _ => ?_, iff_of_false nofun fun hNone => ?_⟩
      · rw [netmaskFromHost, if_pos hIp, hBlock]
        rfl
      · obtain rfl := Option.some.inj hMask
        exact ⟨block, rfl, hHolds⟩
      · exact hNone mask rfl hIp
    · refine ⟨none, if_neg hIp, fun mask' hMask hIp' => ?_, iff_of_true rfl fun mask' hMask => ?_⟩
      · obtain rfl := Option.some.inj hMask
        exact absurd hIp' hIp
      · obtain rfl := Option.some.inj hMask
        exact hIp

theorem fromHostIfaddrs_same (bufs : Bytes × Bytes) {c : HostIfaddrs} (hAddr : c.addr = some addr)
    (hIp : isIp os addr) :
    ∃ n, fromHostIfaddrs os iff bufs c addr = .ok n ∧ SameInterface os iff c n := by
  obtain ⟨block, hBlock, hHolds⟩ := mallocFromHost_ip hIp
  obtain ⟨netmask, hNetmask, hMask, hNoMask⟩ := netmaskFromHost_ok os bufs.2 c.netmask
  exact ⟨_, bind_ok.mpr ⟨block, hBlock, bind_ok.mpr ⟨netmask, hNetmask, rfl⟩⟩, rfl,
    ⟨addr, block, hAddr, rfl, hHolds⟩, hMask, hNoMask, ifaFlags_flag, ifaFlags_rest⟩

end Entries

section Loop

variable {os : Os} {iff : HostIff} {bufs : Nat → Bytes × Bytes} {i base : Nat} {t : Tail Ifaddrs}
  {c : HostIfaddrs} {items : List Ifaddrs} {list : List HostIfaddrs}

theorem getifaddrsStep_kept {buf : Bytes × Bytes} (hIp : hasIp os c) :
    ∃ n, getifaddrsStep os iff buf t c = .ok (t.push n) ∧ SameInterface os iff c n := by
  obtain ⟨addr, hAddr, hFamily⟩ := (Option.any_eq_true _ _).mp hIp
  obtain ⟨n, hEntry, hSame⟩ := fromHostIfaddrs_same buf hAddr hFamily
  refine ⟨n, ?_, hSame⟩
  simp only [getifaddrsStep, hAddr, hFamily, if_true, hEntry]
  rfl

theorem getifaddrsStep_skipped {buf : Bytes × Bytes} (hIp : ¬hasIp os c) :
    getifaddrsStep os iff buf t c = .ok t := by
  unfold getifaddrsStep
  cases hAddr : c.addr with
  | none => rfl
  | some addr =>
    have hFamily : ¬isIp os addr := by simpa [hasIp, hAddr] using hIp
    exact if_neg hFamily

/-- The translations of the entries before this one are in the list, `pc` is its last node, and
older objects are as they were. -/
theorem getifaddrsLoop_holds (hHolds : Tail.Holds base t items) :
    ∃ t' more, getifaddrsLoop os iff bufs i t list = .ok t' ∧ Tail.Holds base t' (items ++ more) ∧
      List.Forall₂ (SameInterface os iff) (list.filter (hasIp os)) more ∧
      ∀ j < base, ∀ node, t.heap.load j = some node → t'.heap.load j = some node := by
  induction list generalizing i t items with
  | nil => exact ⟨t, [], rfl, by simpa using hHolds, .nil, fun _ _ _ h => h⟩
  | cons c next ih =>
    by_cases hIp : hasIp os c
    · obtain ⟨n, hStep, hSame⟩ := getifaddrsStep_kept hIp
      obtain ⟨t', more, hLoop, hAll, hMore, hOld⟩ := ih (i := i + 1) hHolds.push
      refine ⟨t', n :: more, bind_ok.mpr ⟨_, hStep, hLoop⟩, by simpa using hAll, ?_, ?_⟩
      · rw [List.filter_cons_of_pos hIp]
        exact .cons hSame hMore
      · exact fun j hj node hLoad => hOld j hj node (hHolds.push_old hj hLoad)
    · obtain ⟨t', more, hLoop, hAll, hMore, hOld⟩ := ih (i := i + 1) hHolds
      refine ⟨t', more, bind_ok.mpr ⟨_, getifaddrsStep_skipped hIp, hLoop⟩, hAll, ?_, hOld⟩
      rwa [List.filter_cons_of_neg hIp]

end Loop

/-- A reader of `*result` finds the IP interfaces of the host and nothing else; nothing that was
there before has changed. -/
theorem getifaddrs_ip_interfaces (os : Os) (iff : HostIff) (bufs : Nat → Bytes × Bytes)
    (host : HostInterfaces) (heap : Heap (Node Ifaddrs)) (result : Option Nat) :
    (host.ret ≠ 0 → getifaddrs os iff bufs host heap result = .ok ⟨host.ret, heap, result⟩) ∧
    (host.ret = 0 → ∃ heap' result' items,
      getifaddrs os iff bufs host heap result = .ok ⟨0, heap', result'⟩ ∧
      (∀ l, Chain heap' result' l ↔ l = items) ∧ (items = [] → result' = none) ∧
      List.Forall₂ (SameInterface os iff) (host.list.filter (hasIp os)) items ∧
      ∀ j node, heap.load j = some node → heap'.load j = some node) := by
  constructor
  · exact fun hFail => if_pos hFail
  · intro hRet
    obtain ⟨t, items, hLoop, hHolds, hSame, hOld⟩ :=
      getifaddrsLoop_holds (Tail.Holds.empty heap (Nat.le_refl _))
    refine ⟨t.heap, t.first, items, ?_, hHolds.chain.unique, ?_, hSame, fun j node hLoad => ?_⟩
    · rw [getifaddrs, if_neg (not_not_intro hRet)]
      exact bind_ok.mpr ⟨t, hLoop, rfl⟩
    · rintro rfl
      exact hHolds.chain.null
    · exact hOld j (Heap.load_lt hLoad) node hLoad

end LibcShim.Network
