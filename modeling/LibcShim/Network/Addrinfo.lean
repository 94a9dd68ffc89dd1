import LibcShim.Network.Sockaddr

/-! Lists of `addrinfo` in both directions, and `getaddrinfo`.  An entry of the host that the guest
has no values for is dropped. -/

namespace LibcShim.Network

open Kit

inductive AiFlag
  | passive
  | canonname
  | numerichost
  deriving DecidableEq, Repr

/-- The same on the two sides, as are the numbers of `Socktype` and `Ipproto`. -/
def AiFlag.number : AiFlag → BitVec 32
  | .passive => 1
  | .canonname => 2
  | .numerichost => 4

def AiFlag.all : List AiFlag := [.passive, .canonname, .numerichost]

inductive Socktype
  | stream
  | dgram
  | raw
  deriving DecidableEq, Repr

def Socktype.number : Socktype → Int
  | .stream => 1
  | .dgram => 2
  | .raw => 3

def Socktype.all : List Socktype := [.stream, .dgram, .raw]

inductive Ipproto
  | ip
  | tcp
  | udp
  | ipv6
  deriving DecidableEq, Repr

def Ipproto.number : Ipproto → Int
  | .ip => 0
  | .tcp => 6
  | .udp => 17
  | .ipv6 => 41

def Ipproto.all : List Ipproto := [.ip, .tcp, .udp, .ipv6]

/-- The families of `ai_family`: those of the addresses, and one more. -/
inductive AiFamily
  | sock (f : AfFamily)
  | netlink
  deriving DecidableEq, Repr

namespace AiFamily

def bionic : AiFamily → Int
  | .sock f => f.bionic
  | .netlink => 16

def host (os : Os) : AiFamily → Option Int
  | .sock f => some (f.host os)
  | .netlink => match os with
    | .linux => some 16
    | .apple => none
    | .freebsd => some 38

def all : List AiFamily := [.sock .unspec, .sock .unix, .sock .inet, .sock .inet6, .netlink]

end AiFamily

def fromHostAiFlags (flags : BitVec 32) : BitVec 32 :=
  remask AiFlag.all (fun f => some f.number) AiFlag.number flags

def toHostAiFlags (flags : BitVec 32) : BitVec 32 :=
  remask AiFlag.all (fun f => some f.number) AiFlag.number flags

def fromHostAfFamily (os : Os) (family : Int) : Int :=
  (renumber AiFamily.all (AiFamily.host os) AiFamily.bionic family).getD 0

/-- A family that the host has no number for has no case. -/
def toHostAfFamily (os : Os) (family : Int) : Int :=
  (renumber AiFamily.all (fun f => (f.host os).map fun _ => f.bionic) (fun f => (f.host os).getD 0)
    family).getD 0

def fromHostSocktype (socktype : Int) : Except String Int :=
  orThrow (renumber Socktype.all (fun s => some s.number) Socktype.number socktype)
    s!"Unknown socktype {socktype}"

/-- `socktype & 0b11` selects the case. -/
def toHostSocktype (socktype : Int) : Except String Int :=
  orThrow (renumber Socktype.all (fun s => some s.number) Socktype.number (socktype % 4))
    s!"Unknown socktype {socktype}"

def fromHostIpproto (proto : Int) : Except String Int :=
  orThrow (renumber Ipproto.all (fun p => some p.number) Ipproto.number proto)
    s!"Unknown ipproto {proto}"

def toHostIpproto (proto : Int) : Except String Int :=
  orThrow (renumber Ipproto.all (fun p => some p.number) Ipproto.number proto)
    s!"Unknown ipproto {proto}"

/-- The host's `addrinfo`, without `ai_next`. -/
structure HostAddrinfo where
  flags : BitVec 32
  family : Int
  socktype : Int
  protocol : Int
  addrlen : Nat
  addr : Option Bytes
  canonname : Option (List UInt8)

/-- The guest's `addrinfo`, without `ai_next`. -/
structure Addrinfo where
  flags : BitVec 32
  family : Int
  socktype : Int
  protocol : Int
  addrlen : Nat
  addr : Option Bytes
  canonname : Option (List UInt8)

/-- `get_bionic_len` of a pointer that may be null. -/
def aiBionicLen (os : Os) : Option Bytes → Except String Nat
  | none => .ok 0
  | some addr => getBionicLen os addr

def aiHostLen (os : Os) : Option Bytes → Except String Nat
  | none => .ok 0
  | some addr => getHostLen os addr

/-- `malloc` of `len` bytes, `buf` as they come, and the conversion into them. -/
def aiAddr (convert : Bytes → Bytes → Except String Bytes) (buf : Bytes) (len : Nat) :
    Option Bytes → Except String (Option Bytes)
  | some addr => if len = 0 then .ok none else (convert addr buf).map some
  | none => .ok none

/-- The `try` block of `from_host_alloc`, up to `ai_next`. -/
def fromHostEntry (os : Os) (buf : Bytes) (node : HostAddrinfo) : Except String Addrinfo := do
  let socktype ← fromHostSocktype node.socktype
  let protocol ← fromHostIpproto node.protocol
  let addrlen ← aiBionicLen os node.addr
  let addr ← aiAddr (fromHost os) buf addrlen node.addr
  .ok ⟨fromHostAiFlags node.flags, fromHostAfFamily os node.family, socktype, protocol, addrlen,
    addr, node.canonname⟩

/-- `bufs i` is what `malloc` hands out for the entry `i` of the list. -/
def fromHostAlloc (os : Os) (bufs : Nat → Bytes) (i : Nat) :
    List HostAddrinfo → Except String (List Addrinfo)
  | [] => .ok []
  | node :: next =>
    let block := do
      let out ← fromHostEntry os (bufs i) node
      let rest ← fromHostAlloc os bufs (i + 1) next
      .ok (out :: rest)
    match block with
    | .ok list => .ok list
    | .error _ => fromHostAlloc os bufs (i + 1) next

/-- `ai_socktype` 0 is allowed in hints. -/
def toHostEntry (os : Os) (buf : Bytes) (node : Addrinfo) : Except String HostAddrinfo := do
  let socktype ← if node.socktype ≠ 0 then toHostSocktype node.socktype else .ok 0
  let protocol ← toHostIpproto node.protocol
  let addrlen ← aiHostLen os node.addr
  let addr ← aiAddr (toHost os) buf addrlen node.addr
  .ok ⟨toHostAiFlags node.flags, toHostAfFamily os node.family, socktype, protocol, addrlen, addr,
    node.canonname⟩

def toHostAlloc (os : Os) (bufs : Nat → Bytes) (i : Nat) :
    List Addrinfo → Except String (List HostAddrinfo)
  | [] => .ok []
  | node :: next => do
    let out ← toHostEntry os (bufs i) node
    let rest ← toHostAlloc os bufs (i + 1) next
    .ok (out :: rest)

/-- What the host's `getaddrinfo` answers for one node and service, given the hints; the list is
there where `ret` is 0. -/
structure Resolved where
  ret : Int
  list : List HostAddrinfo

/-- What the guest gets; `res` is `none` where `*res` is not written. -/
structure Lookup where
  ret : Int
  res : Option (List Addrinfo)

def getaddrinfo (os : Os) (hbufs bufs : Nat → Bytes) (host : List HostAddrinfo → Resolved)
    (hints : List Addrinfo) : Except String Lookup := do
  let hhints ← toHostAlloc os hbufs 0 hints
  let resolved := host hhints
  if resolved.ret ≠ 0 then .ok ⟨resolved.ret, none⟩
  else
    let list ← fromHostAlloc os bufs 0 resolved.list
    .ok ⟨0, some list⟩

/-- The guest has values for the type, the protocol and the address. -/
def Representable (os : Os) (h : HostAddrinfo) : Prop :=
  h.socktype ∈ Socktype.all.map Socktype.number ∧ h.protocol ∈ Ipproto.all.map Ipproto.number ∧
    ∀ addr ∈ h.addr, hostFamily os addr ∈ [AfFamily.unix, .inet, .inet6].map (AfFamily.host os)

instance (os : Os) (h : HostAddrinfo) : Decidable (Representable os h) :=
  inferInstanceAs (Decidable (_ ∧ _ ∧ _))

/-- The number `bionic` of the guest names the family `host`; 0 stands for those without a name. -/
def SameFamily (os : Os) (host bionic : Int) : Prop :=
  (∃ f : AiFamily, f.host os = some host ∧ f.bionic = bionic) ∨
    (∀ f : AiFamily, f.host os ≠ some host) ∧ bionic = 0

/-- `g` says to the guest what `h` says to the host. -/
structure Translates (os : Os) (h : HostAddrinfo) (g : Addrinfo) : Prop where
  flags : ∀ f : AiFlag, g.flags &&& f.number ≠ 0 ↔ h.flags &&& f.number ≠ 0
  noFlags : g.flags &&& ~~~7#32 = 0
  family : SameFamily os h.family g.family
  socktype : g.socktype = h.socktype
  protocol : g.protocol = h.protocol
  unaddressed : h.addr = none → g.addr = none ∧ g.addrlen = 0
  addressed : ∀ addr, h.addr = some addr → ∃ buf bytes, g.addr = some bytes ∧
    TranslatedAddr os addr buf bytes g.addrlen
  canonname : g.canonname = h.canonname

section Converters

variable {os : Os} {n m : Int} {flags : BitVec 32}

theorem AiFamily.mem_all (f : AiFamily) : f ∈ AiFamily.all := by
  cases f with
  | sock f => cases f <;> decide
  | netlink => decide

theorem AiFamily.host_distinct (a b : AiFamily) (n : Int) (ha : a.host os = some n)
    (hb : b.host os = some n) : a = b := by
  have hAll : ∀ a ∈ AiFamily.all, ∀ b ∈ AiFamily.all,
      a.host os = b.host os → a.host os ≠ none → a = b := by
    cases os <;> decide
  exact hAll a a.mem_all b b.mem_all (ha.trans hb.symm) (by simp [ha])

theorem fromHostAiFlags_flag (f : AiFlag) :
    fromHostAiFlags flags &&& f.number ≠ 0 ↔ flags &&& f.number ≠ 0 := by
  have hMem : f ∈ AiFlag.all := by cases f <;> decide
  have hNonzero : f.number ≠ 0 := by cases f <;> decide
  have hDisjoint : ∀ b ∈ AiFlag.all, b.number &&& f.number ≠ 0 → b = f := by
    cases f <;> decide
  rw [fromHostAiFlags, remask_flag hMem hNonzero hDisjoint]
  simp [flagSet]

theorem fromHostAiFlags_rest : fromHostAiFlags flags &&& ~~~7#32 = 0 := by
  by_contra hRest
  obtain ⟨f, -, -, hBit⟩ := remask_and.mp hRest
  revert hBit
  cases f <;> decide

theorem fromHostAfFamily_same : SameFamily os n (fromHostAfFamily os n) := by
  unfold fromHostAfFamily
  cases hFamily : renumber AiFamily.all (AiFamily.host os) AiFamily.bionic n with
  | none => exact Or.inr ⟨fun f => renumber_none.mp hFamily f f.mem_all, rfl⟩
  | some m => exact Or.inl ((renumber_some AiFamily.mem_all AiFamily.host_distinct).mp hFamily)

theorem fromHostSocktype_ok :
    fromHostSocktype n = .ok m ↔ n ∈ Socktype.all.map Socktype.number ∧ m = n :=
  orThrow_ok.trans renumber_same

theorem fromHostIpproto_ok :
    fromHostIpproto n = .ok m ↔ n ∈ Ipproto.all.map Ipproto.number ∧ m = n :=
  orThrow_ok.trans renumber_same

theorem getBionicLen_sized {addr : Bytes} :
    (∃ len, getBionicLen os addr = .ok len) ↔
      hostFamily os addr ∈ [AfFamily.unix, .inet, .inet6].map (AfFamily.host os) := by
  constructor
  · rintro ⟨len, hLen⟩
    obtain ⟨f, hFamily, hSize⟩ := getBionicLen_ok.mp hLen
    rw [AfFamily.ofHost_eq.mp hFamily]
    cases f with
    | unspec => cases hSize
    | unix | inet | inet6 => simp
  · intro hMem
    obtain ⟨f, hSized, hFamily⟩ := List.mem_map.mp hMem
    obtain ⟨len, hSize⟩ : ∃ len, f.bionicLen = some len := by
      revert hSized
      cases f <;> simp [AfFamily.bionicLen]
    exact ⟨len, getBionicLen_ok.mpr ⟨f, AfFamily.ofHost_eq.mpr hFamily.symm, hSize⟩⟩

/-- An address with a size is converted. -/
theorem aiAddr_fromHost {src buf : Bytes} {len : Nat} (hLen : getBionicLen os src = .ok len) :
    ∃ bytes, aiAddr (fromHost os) buf len (some src) = .ok (some bytes) ∧
      TranslatedAddr os src buf bytes len := by
  obtain ⟨f, hFamily, hSize⟩ := getBionicLen_ok.mp hLen
  have hPositive : len ≠ 0 := by
    rintro rfl
    revert hSize
    cases f <;> simp [AfFamily.bionicLen]
  have hFrom : fromHost os src buf = _ := fromHost_eq hFamily
  refine ⟨_, ?_, fromHost_translated hLen hFrom⟩
  rw [aiAddr, if_neg hPositive, hFrom]
  rfl

end Converters

section Lists

variable {os : Os} {buf : Bytes} {bufs : Nat → Bytes} {i : Nat} {node : HostAddrinfo}
  {g : Addrinfo} {hosts : List HostAddrinfo}

theorem fromHostEntry_ok (h : fromHostEntry os buf node = .ok g) :
    Representable os node ∧ Translates os node g := by
  obtain ⟨socktype, hSocktype, h⟩ := bind_ok.mp h
  obtain ⟨protocol, hProtocol, h⟩ := bind_ok.mp h
  obtain ⟨addrlen, hLen, h⟩ := bind_ok.mp h
  obtain ⟨addr, hAddr, h⟩ := bind_ok.mp h
  obtain rfl := Except.ok.inj h
  obtain ⟨hKnownType, rfl⟩ := fromHostSocktype_ok.mp hSocktype
  obtain ⟨hKnownProtocol, rfl⟩ := fromHostIpproto_ok.mp hProtocol
  cases hNode : node.addr with
  | none =>
    rw [hNode] at hLen hAddr
    obtain rfl : 0 = addrlen := Except.ok.inj hLen
    obtain rfl : none = addr := Except.ok.inj hAddr
    refine ⟨⟨hKnownType, hKnownProtocol, by simp [hNode]⟩, fromHostAiFlags_flag,
      fromHostAiFlags_rest, fromHostAfFamily_same, rfl, rfl, fun _ => ⟨rfl, rfl⟩, ?_, rfl⟩
    simp [hNode]
  | some src =>
    rw [hNode] at hLen hAddr
    have hSized := getBionicLen_sized.mp ⟨addrlen, hLen⟩
    obtain ⟨bytes, hBytes, hTranslated⟩ := aiAddr_fromHost hLen
    obtain rfl := Except.ok.inj (hBytes.symm.trans hAddr)
    refine ⟨⟨hKnownType, hKnownProtocol, by simpa [hNode] using hSized⟩, fromHostAiFlags_flag,
      fromHostAiFlags_rest, fromHostAfFamily_same, rfl, rfl, ?_, fun src' hSrc => ?_, rfl⟩
    · simp [hNode]
    · obtain rfl : src = src' := Option.some.inj (hNode.symm.trans hSrc)
      exact ⟨buf, bytes, rfl, hTranslated⟩

theorem fromHostEntry_representable (h : Representable os node) :
    ∃ g, fromHostEntry os buf node = .ok g := by
  obtain ⟨hSocktype, hProtocol, hSized⟩ := h
  have hType := fromHostSocktype_ok.mpr ⟨hSocktype, rfl⟩
  have hProto := fromHostIpproto_ok.mpr ⟨hProtocol, rfl⟩
  obtain ⟨len, addr, hLen, hAddr⟩ : ∃ len addr, aiBionicLen os node.addr = .ok len ∧
      aiAddr (fromHost os) buf len node.addr = .ok addr := by
    cases hNode : node.addr with
    | none => exact ⟨0, none, rfl, rfl⟩
    | some src =>
      obtain ⟨len, hLen⟩ := getBionicLen_sized.mpr (hSized src hNode)
      obtain ⟨bytes, hBytes, -⟩ := aiAddr_fromHost hLen
      exact ⟨len, some bytes, hLen, hBytes⟩
  exact ⟨_, bind_ok.mpr ⟨_, hType, bind_ok.mpr ⟨_, hProto, bind_ok.mpr ⟨len, hLen,
    bind_ok.mpr ⟨addr, hAddr, rfl⟩⟩⟩⟩⟩

/-- The list goes on behind an entry that throws just as behind one that does not. -/
theorem fromHostAlloc_ok : ∃ out, fromHostAlloc os bufs i hosts = .ok out ∧
    List.Forall₂ (Translates os) (hosts.filter fun h => Representable os h) out := by
  induction hosts generalizing i with
  | nil => exact ⟨[], rfl, .nil⟩
  | cons node next ih =>
    obtain ⟨rest, hRest, hTranslated⟩ := ih (i := i + 1)
    rw [fromHostAlloc, hRest]
    cases hEntry : fromHostEntry os (bufs i) node with
    | ok out =>
      obtain ⟨hKept, hOut⟩ := fromHostEntry_ok hEntry
      refine ⟨out :: rest, rfl, ?_⟩
      rw [List.filter_cons_of_pos (by simpa using hKept)]
      exact .cons hOut hTranslated
    | error e =>
      have hDropped : ¬Representable os node := by
        intro hKept
        obtain ⟨out, hOk⟩ := fromHostEntry_representable hKept
        cases hOk.symm.trans hEntry
      refine ⟨rest, rfl, ?_⟩
      rwa [List.filter_cons_of_neg (by simpa using hDropped)]

/-- Whatever entries the list has and wherever they stand: those that the guest has values for come
out, each once and in their order, and no exception does. -/
theorem from_host_alloc_keeps_representable (os : Os) (bufs : Nat → Bytes)
    (hosts : List HostAddrinfo) : ∃ out, fromHostAlloc os bufs 0 hosts = .ok out ∧
      List.Forall₂ (Translates os) (hosts.filter fun h => Representable os h) out :=
  fromHostAlloc_ok

end Lists

/-- The guest has an address of the host's `list`, or an error. -/
def YieldsAddress (os : Os) (list : List HostAddrinfo) (result : Except String Lookup) : Prop :=
  ∃ lookup, result = .ok lookup ∧
    (lookup.ret = 0 → ∃ first rest, lookup.res = some (first :: rest) ∧
      ∃ h ∈ list, Translates os h first) ∧
    ((∀ h ∈ list, ¬Representable os h) → lookup.ret ≠ 0)

section Lookups

variable {os : Os} {hbufs bufs : Nat → Bytes} {host : List HostAddrinfo → Resolved}
  {hints : List Addrinfo} {hhints : List HostAddrinfo}

theorem getaddrinfo_failed (hAccepted : toHostAlloc os hbufs 0 hints = .ok hhints)
    (hRet : (host hhints).ret ≠ 0) :
    getaddrinfo os hbufs bufs host hints = .ok ⟨(host hhints).ret, none⟩ := by
  simp only [getaddrinfo, hAccepted]
  exact if_pos hRet

theorem getaddrinfo_found (hAccepted : toHostAlloc os hbufs 0 hints = .ok hhints)
    (hRet : (host hhints).ret = 0) :
    ∃ out, getaddrinfo os hbufs bufs host hints = .ok ⟨0, some out⟩ ∧
      List.Forall₂ (Translates os) ((host hhints).list.filter fun h => Representable os h) out := by
  obtain ⟨out, hOut, hTranslated⟩ := @fromHostAlloc_ok os bufs 0 (host hhints).list
  refine ⟨out, ?_, hTranslated⟩
  simp only [getaddrinfo, hAccepted]
  show (if (host hhints).ret ≠ 0 then _ else _) = _
  rw [if_neg (not_not_intro hRet), hOut]
  rfl

theorem getaddrinfo_yields_address (hAccepted : toHostAlloc os hbufs 0 hints = .ok hhints) :
    YieldsAddress os (host hhints).list (getaddrinfo os hbufs bufs host hints) ↔
      (host hhints).ret ≠ 0 ∨ ∃ h ∈ (host hhints).list, Representable os h := by
  by_cases hRet : (host hhints).ret = 0
  · obtain ⟨out, hFound, hTranslated⟩ :=
      @getaddrinfo_found os hbufs bufs host hints hhints hAccepted hRet
    constructor
    · rintro ⟨lookup, hLookup, -, hNone⟩
      obtain rfl := Except.ok.inj (hFound.symm.trans hLookup)
      refine Or.inr ?_
      by_contra hMissing
      exact hNone (fun h hh hKept => hMissing ⟨h, hh, hKept⟩) rfl
    · rintro (hFail | ⟨h, hh, hKept⟩)
      · exact absurd hRet hFail
      · have hMem : h ∈ (host hhints).list.filter fun h => Representable os h :=
          List.mem_filter.mpr ⟨hh, decide_eq_true hKept⟩
        obtain ⟨first, rest, hList⟩ := List.exists_cons_of_ne_nil (List.ne_nil_of_mem hMem)
        rw [hList] at hTranslated
        cases hTranslated with
        | cons hFirst hRest =>
          have hIn : first ∈ (host hhints).list :=
            List.mem_of_mem_filter (hList ▸ List.mem_cons_self)
          exact ⟨_, hFound, fun _ => ⟨_, _, rfl, first, hIn, hFirst⟩,
            fun hNone => absurd hKept (hNone h hh)⟩
  · refine iff_of_true ?_ (Or.inl hRet)
    exact ⟨_, getaddrinfo_failed hAccepted hRet, fun h => absurd h hRet, fun _ => hRet⟩

end Lookups

/-! ### A service of SCTP -/

/-- `127.0.0.1:36412`. -/
def loopback : Bytes := Bytes.ofList [2, 0, 0x8E, 0x3C, 127, 0, 0, 1]

/-- A service that the host knows for SCTP alone. -/
def sctpService : List HostAddrinfo :=
  [⟨0, 2, 1, 132, 16, some loopback, none⟩, ⟨0, 2, 5, 132, 16, some loopback, none⟩]

def tcpService : List HostAddrinfo :=
  [⟨0, 2, 5, 132, 16, some loopback, none⟩, ⟨0, 2, 1, 6, 16, some loopback, none⟩]

theorem getaddrinfo_tcp_service :
    YieldsAddress .linux tcpService (getaddrinfo .linux (fun _ => Bytes.zero) (fun _ => Bytes.zero)
      (fun _ => ⟨0, tcpService⟩) [⟨0, 2, 0, 0, 0, none, none⟩]) := by
  refine (getaddrinfo_yields_address rfl).mpr (Or.inr ⟨_, List.mem_cons_of_mem _
    List.mem_cons_self, ?_⟩)
  decide

/-- Every entry is dropped, and the call succeeds. -/
theorem getaddrinfo_sctp_service :
    toHostAlloc .linux (fun _ => Bytes.zero) 0 [] = .ok [] ∧ sctpService ≠ [] ∧
    ¬YieldsAddress .linux sctpService (getaddrinfo .linux (fun _ => Bytes.zero)
      (fun _ => Bytes.zero) (fun _ => ⟨0, sctpService⟩) []) := by
  refine ⟨rfl, by decide, ?_⟩
  rintro ⟨lookup, hLookup, hFirst, -⟩
  have hEmpty : getaddrinfo .linux (fun _ => Bytes.zero) (fun _ => Bytes.zero)
    (fun _ => ⟨0, sctpService⟩) [] = .ok ⟨0, some []⟩ := rfl
  obtain rfl := Except.ok.inj (hEmpty.symm.trans hLookup)
  obtain ⟨first, rest, hRes, -⟩ := hFirst rfl
  cases hRes

end LibcShim.Network
