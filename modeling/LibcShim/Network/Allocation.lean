import LibcShim.Kit.Owned
import LibcShim.Network.Addrinfo
import LibcShim.Network.Interfaces

/-! The blocks behind the lists of `addrinfo` and of `ifaddrs`: what each function allocates, what
it frees, and what a list takes. -/

namespace LibcShim.Network.Allocation

open Kit Kit.Heap

/-- The guest's `addrinfo` in memory. -/
structure AddrinfoRecord where
  flags : BitVec 32
  family : Int
  socktype : Int
  protocol : Int
  addrlen : Nat
  addr : Option Nat
  canonname : Option Nat

/-- The host's `addrinfo` of the hints; `ai_canonname` is the guest's own string. -/
structure HostAddrinfoRecord where
  flags : BitVec 32
  family : Int
  socktype : Int
  protocol : Int
  addrlen : Nat
  addr : Option Nat
  canonname : Option (List UInt8)

structure IfaddrsRecord where
  name : Option Nat
  flags : BitVec 32
  addr : Option Nat
  netmask : Option Nat

/-- What a block holds.  The lists that the host allocates are one block each. -/
inductive Block
  | addrinfo (record : AddrinfoRecord)
  | hostAddrinfo (record : HostAddrinfoRecord)
  | ifaddrs (record : IfaddrsRecord)
  | sockaddr (block : SockaddrBlock)
  | string (chars : List UInt8)
  | hostAddrinfos (list : List HostAddrinfo)
  | hostIfaddrs (list : List HostIfaddrs)
  | raw

abbrev Memory := Heap (Node Block)

/-- `p ? strdup(p) : nullptr`. -/
def strdup : Option (List UInt8) → HeapM Block (Option Nat)
  | none => pure none
  | some chars => do
    let i ← new (.string chars)
    pure (some i)

/-- `malloc(len)`, which hands out `buf`, and the conversion into it. -/
def mallocSockaddr (convert : Bytes → Bytes → Except String Bytes) (buf : Bytes) (len : Nat)
    (addr : Bytes) : HeapM Block Nat := do
  let i ← new .raw
  let bytes ← lift (convert addr buf)
  fill i (.sockaddr ⟨len, bytes⟩) none
  pure i

/-- `ai_addr`, when `ai_addrlen` is not 0. -/
def mallocAiAddr (convert : Bytes → Bytes → Except String Bytes) (buf : Bytes) (len : Nat) :
    Option Bytes → HeapM Block (Option Nat)
  | some addr =>
    if len = 0 then pure none
    else do
      let i ← mallocSockaddr convert buf len addr
      pure (some i)
  | none => pure none

/-- The `try` block of `from_host_alloc`, up to `ai_next`. -/
def fromHostRecord (os : Os) (buf : Bytes) (node : HostAddrinfo) : HeapM Block AddrinfoRecord := do
  let socktype ← lift (fromHostSocktype node.socktype)
  let protocol ← lift (fromHostIpproto node.protocol)
  let addrlen ← lift (aiBionicLen os node.addr)
  let addr ← mallocAiAddr (fromHost os) buf addrlen node.addr
  let canonname ← strdup node.canonname
  pure ⟨fromHostAiFlags node.flags, fromHostAfFamily os node.family, socktype, protocol, addrlen,
    addr, canonname⟩

def fromHostAlloc (os : Os) (bufs : Nat → Bytes) (i : Nat) :
    List HostAddrinfo → HeapM Block (Option Nat)
  | [] => pure none
  | node :: next => do
    let out ← new .raw
    tryCatch
      (do
        let record ← fromHostRecord os (bufs i) node
        let aiNext ← fromHostAlloc os bufs (i + 1) next
        fill out (.addrinfo record) aiNext
        pure (some out))
      fun _ => do
        delete out
        fromHostAlloc os bufs (i + 1) next

/-- `ai_socktype` 0 is allowed in hints. -/
def hintSocktype (node : Addrinfo) : Except String Int :=
  if node.socktype ≠ 0 then toHostSocktype node.socktype else .ok 0

def toHostRecord (os : Os) (buf : Bytes) (node : Addrinfo) : HeapM Block HostAddrinfoRecord := do
  let socktype ← lift (hintSocktype node)
  let protocol ← lift (toHostIpproto node.protocol)
  let addrlen ← lift (aiHostLen os node.addr)
  let addr ← mallocAiAddr (toHost os) buf addrlen node.addr
  pure ⟨toHostAiFlags node.flags, toHostAfFamily os node.family, socktype, protocol, addrlen, addr,
    node.canonname⟩

/-- Nothing is caught here. -/
def toHostAlloc (os : Os) (bufs : Nat → Bytes) (i : Nat) :
    List Addrinfo → HeapM Block (Option Nat)
  | [] => pure none
  | node :: next => do
    let out ← new .raw
    let record ← toHostRecord os (bufs i) node
    let aiNext ← toHostAlloc os bufs (i + 1) next
    fill out (.hostAddrinfo record) aiNext
    pure (some out)

/-- What `free_bionic_list` frees of a node, the node apart; `free(nullptr)` does nothing. -/
def bionicParts : Block → Option (List Nat)
  | .addrinfo record => some (record.addr.toList ++ record.canonname.toList)
  | _ => none

def freeBionicList : Memory → Option Nat → Option Memory := freeList bionicParts

def hostParts : Block → Option (List Nat)
  | .hostAddrinfo record => some record.addr.toList
  | _ => none

def freeHostList : Memory → Option Nat → Option Memory := freeList hostParts

def freeaddrinfo : Memory → Option Nat → Option Memory := freeBionicList

def ifaddrsParts : Block → Option (List Nat)
  | .ifaddrs record => some (record.addr.toList ++ record.netmask.toList ++ record.name.toList)
  | _ => none

def freeifaddrs : Memory → Option Nat → Option Memory := freeList ifaddrsParts

/-- The bytes behind a pointer that may be null. -/
def readSockaddr (h : Memory) : Option Nat → Option (Option Bytes)
  | none => some none
  | some i =>
    match h.load i with
    | some ⟨.sockaddr block, _⟩ => some (some block.bytes)
    | _ => none

/-- What the host reads of a node of the hints. -/
def readHostAddrinfo (h : Memory) : Block → Option HostAddrinfo
  | .hostAddrinfo r => (readSockaddr h r.addr).map fun addr =>
      ⟨r.flags, r.family, r.socktype, r.protocol, r.addrlen, addr, r.canonname⟩
  | _ => none

/-- `ret`, and `*res` where it is written. -/
structure Answer where
  ret : Int
  res : Option (Option Nat)

/-- `::getaddrinfo` reads the hints, and where it succeeds it allocates the list `hres`. -/
def hostGetaddrinfo (host : List HostAddrinfo → Resolved) (h : Memory) (hints : Option Nat) :
    Option (Int × Nat × Memory) :=
  (readList readHostAddrinfo h hints).map fun hints =>
    let resolved := host hints
    (resolved.ret, h.length,
      if resolved.ret ≠ 0 then h else h.alloc ⟨.hostAddrinfos resolved.list, none⟩)

/-- The host's list, as long as it is there. -/
def readHres (h : Memory) (hres : Nat) : Option (List HostAddrinfo) :=
  match h.load hres with
  | some ⟨.hostAddrinfos list, _⟩ => some list
  | _ => none

/-- `none` is an access to a block that is not in use. -/
def getaddrinfo (os : Os) (hbufs bufs : Nat → Bytes) (host : List HostAddrinfo → Resolved)
    (hints : List Addrinfo) (h : Memory) : Option (Except String Answer × Memory) :=
  match toHostAlloc os hbufs 0 hints h with
  | .error e h => some (.error e, h)
  | .ok hhints h =>
    (hostGetaddrinfo host h hhints).bind fun (ret, hres, h) =>
      (freeHostList h hhints).bind fun h =>
        if ret ≠ 0 then some (.ok ⟨ret, none⟩, h)
        else (readHres h hres).bind fun list =>
          match fromHostAlloc os bufs 0 list h with
          | .error e h => some (.error e, h)
          | .ok res h => some (.ok ⟨0, some res⟩, h.free hres)

/-- The netmask's block, for a netmask of IPv4 or IPv6. -/
def mallocNetmask (os : Os) (buf : Bytes) : Option Bytes → HeapM Block (Option Nat)
  | some netmask =>
    if isIp os netmask then do
      let len ← lift (getBionicLen os netmask)
      let i ← mallocSockaddr (fromHost os) buf len netmask
      pure (some i)
    else pure none
  | none => pure none

/-- The fields of the node `n` of `getifaddrs`. -/
def ifaddrsRecord (os : Os) (iff : HostIff) (bufs : Bytes × Bytes) (c : HostIfaddrs)
    (addr : Bytes) : HeapM Block IfaddrsRecord := do
  let len ← lift (getBionicLen os addr)
  let ifaAddr ← mallocSockaddr (fromHost os) bufs.1 len addr
  let ifaNetmask ← mallocNetmask os bufs.2 c.netmask
  let ifaName ← strdup c.name
  pure ⟨ifaName, remask Iff.all iff Iff.bionic c.flags, some ifaAddr, ifaNetmask⟩

/-- `(pc ? pc->ifa_next : *result) = n`. -/
def linkBehind (pc : Option Nat) (n : Nat) : HeapM Block Unit := fun h => .ok () (link h pc n)

/-- `first` is `*result` and `pc` the last node. -/
def getifaddrsLoop (os : Os) (iff : HostIff) (bufs : Nat → Bytes × Bytes) (i : Nat)
    (first pc : Option Nat) : List HostIfaddrs → HeapM Block (Option Nat)
  | [] => pure first
  | c :: next =>
    match c.addr.filter (isIp os) with
    | some addr => do
      let n ← new .raw
      let record ← ifaddrsRecord os iff (bufs i) c addr
      fill n (.ifaddrs record) none
      linkBehind pc n
      getifaddrsLoop os iff bufs (i + 1) (if pc.isSome then first else some n) (some n) next
    | none => getifaddrsLoop os iff bufs (i + 1) first pc next

/-- The host's list is a block behind `nresult`. -/
def getifaddrs (os : Os) (iff : HostIff) (bufs : Nat → Bytes × Bytes) (host : HostInterfaces)
    (h : Memory) : Except String Answer × Memory :=
  if host.ret ≠ 0 then (.ok ⟨host.ret, none⟩, h)
  else
    let nresult := h.length
    match getifaddrsLoop os iff bufs 0 none none host.list
        (h.alloc ⟨.hostIfaddrs host.list, none⟩) with
    | .error e h => (.error e, h)
    | .ok result h => (.ok ⟨0, some result⟩, h.free nresult)

/-- The pointer `p` is null, or leads to a block with this content. -/
def Points (h : Memory) (p : Option Nat) (content : Option Block) : Prop :=
  p.map h.load = content.map fun block => some ⟨block, none⟩

/-- The record stands for `a`; `ids` are the blocks that it leads to. -/
def HoldsAddrinfo (h : Memory) (block : Block) (ids : List Nat) (a : Addrinfo) : Prop :=
  ∃ addr canonname,
    block = .addrinfo ⟨a.flags, a.family, a.socktype, a.protocol, a.addrlen, addr, canonname⟩ ∧
    Points h addr (a.addr.map fun bytes => .sockaddr ⟨a.addrlen, bytes⟩) ∧
    Points h canonname (a.canonname.map .string) ∧ ids = addr.toList ++ canonname.toList

def HoldsHint (h : Memory) (block : Block) (ids : List Nat) (a : HostAddrinfo) : Prop :=
  ∃ addr, block = .hostAddrinfo ⟨a.flags, a.family, a.socktype, a.protocol, a.addrlen, addr,
      a.canonname⟩ ∧
    Points h addr (a.addr.map fun bytes => .sockaddr ⟨a.addrlen, bytes⟩) ∧ ids = addr.toList

def HoldsIfaddrs (h : Memory) (block : Block) (ids : List Nat) (n : Ifaddrs) : Prop :=
  ∃ name addr netmask, block = .ifaddrs ⟨name, n.flags, addr, netmask⟩ ∧
    Points h addr (n.addr.map .sockaddr) ∧ Points h netmask (n.netmask.map .sockaddr) ∧
    Points h name (n.name.map .string) ∧ ids = addr.toList ++ netmask.toList ++ name.toList

theorem Points.same {h h' : Memory} {p : Option Nat} {content : Option Block}
    (hPoints : Points h p content) (hSame : Same h h' p.toList) : Points h' p content := by
  unfold Points at hPoints ⊢
  rw [← hPoints]
  cases p with
  | none => rfl
  | some i =>
    have hLoad : h'.load i = h.load i := hSame.load (by simp)
    simp [hLoad]

theorem holdsAddrinfo_local : Local HoldsAddrinfo := by
  rintro h h' block ids a ⟨addr, canonname, hBlock, hAddr, hName, rfl⟩ hSame
  exact ⟨addr, canonname, hBlock, hAddr.same (hSame.subset (List.subset_append_left _ _)),
    hName.same (hSame.subset (List.subset_append_right _ _)), rfl⟩

theorem holdsHint_local : Local HoldsHint := by
  rintro h h' block ids a ⟨addr, hBlock, hAddr, rfl⟩ hSame
  exact ⟨addr, hBlock, hAddr.same hSame, rfl⟩

theorem holdsIfaddrs_local : Local HoldsIfaddrs := by
  rintro h h' block ids n ⟨name, addr, netmask, hBlock, hAddr, hNetmask, hName, rfl⟩ hSame
  have hAddrs := hSame.subset (List.subset_append_left _ _)
  exact ⟨name, addr, netmask, hBlock, hAddr.same (hAddrs.subset (List.subset_append_left _ _)),
    hNetmask.same (hAddrs.subset (List.subset_append_right _ _)),
    hName.same (hSame.subset (List.subset_append_right _ _)), rfl⟩

section Blocks

variable {os : Os} {buf : Bytes} {convert : Bytes → Bytes → Except String Bytes}

theorem strdup_builds (chars : Option (List UInt8)) :
    Builds (strdup chars) fun h p ids => Points h p (chars.map .string) ∧ ids = p.toList := by
  cases chars with
  | none => exact builds_pure fun h => ⟨rfl, rfl⟩
  | some chars =>
    intro h owned hOwns
    refine ⟨some h.length, _, [h.length], rfl, hOwns.alloc _, hOwns.alloc_same, ?_, rfl⟩
    simp [Points, load_alloc_new]

theorem mallocSockaddr_builds {len : Nat} {addr bytes : Bytes}
    (hBytes : convert addr buf = .ok bytes) :
    Builds (mallocSockaddr convert buf len addr) fun h i ids =>
      h.load i = some ⟨.sockaddr ⟨len, bytes⟩, none⟩ ∧ ids = [i] := by
  intro h owned hOwns
  have hAlloc : Owns (h.alloc ⟨Block.raw, none⟩) ([] ++ h.length :: owned) := hOwns.alloc _
  obtain ⟨hOwns', hSame, -, hLoad⟩ :=
    hOwns.filled hAlloc (.refl _ _) ⟨.sockaddr ⟨len, bytes⟩, none⟩
  refine ⟨h.length, _, [h.length], ?_, hOwns', hSame, hLoad, rfl⟩
  rw [mallocSockaddr, hBytes]
  rfl

theorem mallocAiAddr_builds {len : Nat} {addr a : Option Bytes}
    (hAddr : aiAddr convert buf len addr = .ok a) :
    Builds (mallocAiAddr convert buf len addr) fun h p ids =>
      Points h p (a.map fun bytes => .sockaddr ⟨len, bytes⟩) ∧ ids = p.toList := by
  cases addr with
  | none =>
    obtain rfl : none = a := Except.ok.inj hAddr
    exact builds_pure fun h => ⟨rfl, rfl⟩
  | some addr =>
    by_cases hLen : len = 0
    · rw [aiAddr, if_pos hLen] at hAddr
      rw [mallocAiAddr, if_pos hLen]
      obtain rfl : none = a := Except.ok.inj hAddr
      exact builds_pure fun h => ⟨rfl, rfl⟩
    · rw [aiAddr, if_neg hLen] at hAddr
      rw [mallocAiAddr, if_neg hLen]
      cases hBytes : convert addr buf with
      | error e =>
        rw [hBytes] at hAddr
        cases hAddr
      | ok bytes =>
        rw [hBytes] at hAddr
        obtain rfl : some bytes = a := Except.ok.inj hAddr
        intro h owned hOwns
        obtain ⟨i, h', ids, hRun, hOwns', hSame, hLoad, rfl⟩ :=
          @mallocSockaddr_builds buf convert len addr bytes hBytes h owned hOwns
        refine ⟨some i, h', [i], ?_, hOwns', hSame, by simp [Points, hLoad], rfl⟩
        rw [bind_of_ok hRun]
        rfl

end Blocks

section Records

variable {os : Os} {buf : Bytes}

theorem fromHostRecord_builds {node : HostAddrinfo} {a : Addrinfo}
    (hEntry : fromHostEntry os buf node = .ok a) :
    Builds (fromHostRecord os buf node) fun h r ids => HoldsAddrinfo h (.addrinfo r) ids a := by
  obtain ⟨socktype, hSocktype, hEntry⟩ := bind_ok.mp hEntry
  obtain ⟨protocol, hProtocol, hEntry⟩ := bind_ok.mp hEntry
  obtain ⟨addrlen, hLen, hEntry⟩ := bind_ok.mp hEntry
  obtain ⟨addr, hAddr, hEntry⟩ := bind_ok.mp hEntry
  obtain rfl := Except.ok.inj hEntry
  rw [fromHostRecord, hSocktype, lift_bind, hProtocol, lift_bind, hLen, lift_bind]
  intro h owned hOwns
  obtain ⟨p, h₁, ids, hRun, hOwns₁, hSame, hPoints, rfl⟩ := mallocAiAddr_builds hAddr h owned hOwns
  obtain ⟨q, h₂, ids, hRun', hOwns₂, hSame', hPoints', rfl⟩ :=
    strdup_builds node.canonname h₁ _ hOwns₁
  refine ⟨_, h₂, p.toList ++ q.toList, (bind_of_ok hRun).trans (bind_of_ok hRun'),
    hOwns₂.perm ?_, hSame.trans (hSame'.subset (List.subset_append_right _ _)),
    p, q, rfl, hPoints.same (hSame'.subset (List.subset_append_left _ _)), hPoints', rfl⟩
  rw [← List.append_assoc]
  exact List.perm_append_comm.append_right owned

/-- What throws does so before anything is allocated. -/
theorem fromHostRecord_throws {node : HostAddrinfo} {e : String}
    (hEntry : fromHostEntry os buf node = .error e) (h : Memory) :
    fromHostRecord os buf node h = .error e h := by
  refine lift_bind_throws hEntry fun socktype _ hEntry => ?_
  refine lift_bind_throws hEntry fun protocol _ hEntry => ?_
  refine lift_bind_throws hEntry fun addrlen hLen hEntry => ?_
  obtain ⟨addr, hAddr⟩ : ∃ addr, aiAddr (fromHost os) buf addrlen node.addr = .ok addr := by
    cases hNode : node.addr with
    | none => exact ⟨none, rfl⟩
    | some src =>
      rw [hNode] at hLen
      obtain ⟨bytes, hBytes, -⟩ := aiAddr_fromHost hLen
      exact ⟨some bytes, hBytes⟩
  rw [hAddr] at hEntry
  cases hEntry

theorem toHostEntry_eq (node : Addrinfo) :
    toHostEntry os buf node = (do
      let socktype ← hintSocktype node
      let protocol ← toHostIpproto node.protocol
      let addrlen ← aiHostLen os node.addr
      let addr ← aiAddr (toHost os) buf addrlen node.addr
      .ok ⟨toHostAiFlags node.flags, toHostAfFamily os node.family, socktype, protocol, addrlen,
        addr, node.canonname⟩) := by
  unfold toHostEntry hintSocktype
  split <;> rfl

theorem toHostRecord_builds {node : Addrinfo} {a : HostAddrinfo}
    (hEntry : toHostEntry os buf node = .ok a) :
    Builds (toHostRecord os buf node) fun h r ids => HoldsHint h (.hostAddrinfo r) ids a := by
  rw [toHostEntry_eq] at hEntry
  obtain ⟨socktype, hSocktype, hEntry⟩ := bind_ok.mp hEntry
  obtain ⟨protocol, hProtocol, hEntry⟩ := bind_ok.mp hEntry
  obtain ⟨addrlen, hLen, hEntry⟩ := bind_ok.mp hEntry
  obtain ⟨addr, hAddr, hEntry⟩ := bind_ok.mp hEntry
  obtain rfl := Except.ok.inj hEntry
  rw [toHostRecord, hSocktype, lift_bind, hProtocol, lift_bind, hLen, lift_bind]
  intro h owned hOwns
  obtain ⟨p, h₁, ids, hRun, hOwns₁, hSame, hPoints, rfl⟩ := mallocAiAddr_builds hAddr h owned hOwns
  exact ⟨_, h₁, p.toList, bind_of_ok hRun, hOwns₁, hSame, p, rfl, hPoints, rfl⟩

theorem aiAddr_toHost {addr : Option Bytes} {addrlen : Nat}
    (hLen : aiHostLen os addr = .ok addrlen) :
    ∃ a, aiAddr (toHost os) buf addrlen addr = .ok a := by
  cases addr with
  | none => exact ⟨none, rfl⟩
  | some src =>
    obtain ⟨f, hFamily, -⟩ := getHostLen_ok.mp hLen
    have hTo : toHost os src buf = _ := toHost_eq hFamily
    rw [aiAddr, hTo]
    split
    · exact ⟨none, rfl⟩
    · exact ⟨_, rfl⟩

theorem toHostRecord_throws {node : Addrinfo} {e : String}
    (hEntry : toHostEntry os buf node = .error e) (h : Memory) :
    toHostRecord os buf node h = .error e h := by
  rw [toHostEntry_eq] at hEntry
  refine lift_bind_throws hEntry fun socktype _ hEntry => ?_
  refine lift_bind_throws hEntry fun protocol _ hEntry => ?_
  refine lift_bind_throws hEntry fun addrlen hLen hEntry => ?_
  obtain ⟨addr, hAddr⟩ := @aiAddr_toHost os buf node.addr addrlen hLen
  rw [hAddr] at hEntry
  cases hEntry

end Records

section Lists

variable {os : Os} {bufs : Nat → Bytes} {i : Nat}

/-- The blocks of a node's fields, then those of the nodes behind it, then the node itself. -/
theorem record_filled {h h₁ h₂ : Memory} {owned ids ids' : List Nat} (hOwns : Owns h owned)
    (hOwns₂ : Owns h₂ (ids' ++ (ids ++ h.length :: owned)))
    (hSame₁ : Same (h.alloc ⟨.raw, none⟩) h₁ (h.length :: owned))
    (hSame₂ : Same h₁ h₂ (ids ++ h.length :: owned)) (node : Node Block) :
    Owns (h₂.store h.length node) (h.length :: (ids ++ ids') ++ owned) ∧
      (Same h (h₂.store h.length node) owned ∧
        (h₂.store h.length node).load h.length = some node) ∧
      Same h₁ (h₂.store h.length node) ids ∧ Same h₂ (h₂.store h.length node) ids' := by
  have hMade : Owns h₂ ((ids ++ ids') ++ h.length :: owned) := by
    refine hOwns₂.perm ?_
    rw [← List.append_assoc]
    exact List.perm_append_comm.append_right _
  obtain ⟨hOwns₃, hSame₃, hSameMade, hLoad⟩ := hOwns.filled hMade
    (hSame₁.trans (hSame₂.subset (List.subset_append_right _ _))) node
  exact ⟨hOwns₃, ⟨hSame₃, hLoad⟩, (hSame₂.subset (List.subset_append_left _ _)).trans
    (hSameMade.subset (List.subset_append_left _ _)),
    hSameMade.subset (List.subset_append_right _ _)⟩

theorem fromHostAlloc_builds {hosts : List HostAddrinfo} {out : List Addrinfo}
    (hOut : Network.fromHostAlloc os bufs i hosts = .ok out) :
    Builds (fromHostAlloc os bufs i hosts) fun h p ids =>
      Spans HoldsAddrinfo h p out ids none := by
  induction hosts generalizing i out with
  | nil =>
    obtain rfl : [] = out := Except.ok.inj hOut
    exact builds_pure fun h => .nil none
  | cons node next ih =>
    obtain ⟨rest, hRest, -⟩ := @fromHostAlloc_ok os bufs (i + 1) next
    rw [Network.fromHostAlloc, hRest] at hOut
    intro h owned hOwns
    cases hEntry : fromHostEntry os (bufs i) node with
    | ok a =>
      rw [hEntry] at hOut
      obtain rfl : a :: rest = out := Except.ok.inj hOut
      obtain ⟨r, h₁, ids, hRun, hOwns₁, hSame₁, hHolds⟩ :=
        fromHostRecord_builds hEntry _ _ (hOwns.alloc ⟨.raw, none⟩)
      obtain ⟨p, h₂, ids', hRun', hOwns₂, hSame₂, hSpans⟩ := ih hRest h₁ _ hOwns₁
      obtain ⟨hOwns₃, hSame₃, hAddrinfo, hNext⟩ := record_filled hOwns hOwns₂ hSame₁ hSame₂
        ⟨.addrinfo r, p⟩
      refine ⟨some h.length, _, h.length :: (ids ++ ids'), ?_, hOwns₃, hSame₃.1, ?_⟩
      · refine (bind_of_ok (rfl : new Block.raw h = .ok h.length _)).trans ?_
        refine tryCatch_of_ok ((bind_of_ok hRun).trans ((bind_of_ok hRun').trans ?_))
        rfl
      · exact .cons hSame₃.2 (holdsAddrinfo_local _ _ _ _ _ hHolds hAddrinfo)
          (hSpans.same holdsAddrinfo_local hNext)
    | error e =>
      rw [hEntry] at hOut
      obtain rfl : rest = out := Except.ok.inj hOut
      have hDeleted : Owns ((h.alloc ⟨.raw, none⟩).free h.length) owned := (hOwns.alloc _).free
      obtain ⟨p, h₂, ids, hRun, hOwns₂, hSame₂, hSpans⟩ := ih hRest _ _ hDeleted
      refine ⟨p, h₂, ids, ?_, hOwns₂,
        (hOwns.alloc_same.trans (hOwns.alloc _).free_same).trans hSame₂, hSpans⟩
      refine (bind_of_ok (rfl : new Block.raw h = .ok h.length _)).trans ?_
      refine (tryCatch_of_error (bind_of_error (fromHostRecord_throws hEntry _))).trans ?_
      exact hRun

theorem toHostAlloc_builds {hints : List Addrinfo} {out : List HostAddrinfo}
    (hOut : Network.toHostAlloc os bufs i hints = .ok out) :
    Builds (toHostAlloc os bufs i hints) fun h p ids => Spans HoldsHint h p out ids none := by
  induction hints generalizing i out with
  | nil =>
    obtain rfl : [] = out := Except.ok.inj hOut
    exact builds_pure fun h => .nil none
  | cons node next ih =>
    obtain ⟨a, hEntry, hOut⟩ := bind_ok.mp hOut
    obtain ⟨rest, hRest, hOut⟩ := bind_ok.mp hOut
    obtain rfl : a :: rest = out := Except.ok.inj hOut
    intro h owned hOwns
    obtain ⟨r, h₁, ids, hRun, hOwns₁, hSame₁, hHolds⟩ :=
      toHostRecord_builds hEntry _ _ (hOwns.alloc ⟨.raw, none⟩)
    obtain ⟨p, h₂, ids', hRun', hOwns₂, hSame₂, hSpans⟩ := ih hRest h₁ _ hOwns₁
    obtain ⟨hOwns₃, hSame₃, hAddrinfo, hNext⟩ := record_filled hOwns hOwns₂ hSame₁ hSame₂
      ⟨.hostAddrinfo r, p⟩
    refine ⟨some h.length, _, h.length :: (ids ++ ids'), ?_, hOwns₃, hSame₃.1, ?_⟩
    · refine (bind_of_ok (rfl : new Block.raw h = .ok h.length _)).trans ?_
      refine (bind_of_ok hRun).trans ((bind_of_ok hRun').trans ?_)
      rfl
    · exact .cons hSame₃.2 (holdsHint_local _ _ _ _ _ hHolds hAddrinfo)
        (hSpans.same holdsHint_local hNext)

/-- The nodes before the one that throws, and its own, stay allocated. -/
theorem toHostAlloc_leaks {hints : List Addrinfo} {e : String}
    (hThrows : Network.toHostAlloc os bufs i hints = .error e) {h : Memory} {owned : List Nat}
    (hOwns : Owns h owned) :
    ∃ h' lost, toHostAlloc os bufs i hints h = .error e h' ∧ Owns h' (lost ++ owned) ∧
      Same h h' owned ∧ lost ≠ [] := by
  induction hints generalizing i h owned with
  | nil => cases hThrows
  | cons node next ih =>
    have hNew := hOwns.alloc ⟨.raw, none⟩
    rw [Network.toHostAlloc] at hThrows
    cases hEntry : toHostEntry os (bufs i) node with
    | error e' =>
      rw [hEntry] at hThrows
      obtain rfl : e' = e := Except.error.inj hThrows
      refine ⟨_, [h.length], ?_, hNew, hOwns.alloc_same, List.cons_ne_nil _ _⟩
      refine (bind_of_ok (rfl : new Block.raw h = .ok h.length _)).trans ?_
      exact bind_of_error (toHostRecord_throws hEntry _)
    | ok a =>
      rw [hEntry] at hThrows
      obtain ⟨r, h₁, ids, hRun, hOwns₁, hSame₁, -⟩ := toHostRecord_builds hEntry _ _ hNew
      cases hRest : Network.toHostAlloc os bufs (i + 1) next with
      | ok rest =>
        have hOk : (Network.toHostAlloc os bufs (i + 1) next >>= fun rest => .ok (a :: rest) :
            Except String (List HostAddrinfo)) = .error e := hThrows
        rw [hRest] at hOk
        cases hOk
      | error e' =>
        have hError : (Network.toHostAlloc os bufs (i + 1) next >>= fun rest => .ok (a :: rest) :
            Except String (List HostAddrinfo)) = .error e := hThrows
        rw [hRest] at hError
        obtain rfl : e' = e := Except.error.inj hError
        obtain ⟨h₂, lost, hRun', hOwns₂, hSame₂, hLost⟩ := ih hRest hOwns₁
        refine ⟨h₂, lost ++ ids ++ [h.length], ?_, by simpa using hOwns₂, ?_, by simp⟩
        · refine (bind_of_ok (rfl : new Block.raw h = .ok h.length _)).trans ?_
          exact (bind_of_ok hRun).trans (bind_of_error hRun')
        · have hBoth := hSame₁.trans (hSame₂.subset (List.subset_append_right _ _))
          exact hOwns.alloc_same.trans (hBoth.subset (List.subset_cons_self _ _))

end Lists

section Interfaces

variable {os : Os} {iff : HostIff} {bufs : Nat → Bytes × Bytes} {i : Nat}

theorem mallocNetmask_builds {buf : Bytes} {netmask : Option Bytes} {m : Option SockaddrBlock}
    (hMask : netmaskFromHost os buf netmask = .ok m) :
    Builds (mallocNetmask os buf netmask) fun h p ids =>
      Points h p (m.map .sockaddr) ∧ ids = p.toList := by
  cases netmask with
  | none =>
    obtain rfl : none = m := Except.ok.inj hMask
    exact builds_pure fun h => ⟨rfl, rfl⟩
  | some mask =>
    by_cases hIp : isIp os mask
    · rw [netmaskFromHost, if_pos hIp] at hMask
      rw [mallocNetmask, if_pos hIp]
      obtain ⟨block, hBlock⟩ : ∃ block, mallocFromHost os buf mask = .ok block :=
        (mallocFromHost_ip hIp).imp fun _ h => h.1
      rw [hBlock] at hMask
      obtain rfl : some block = m := Except.ok.inj hMask
      obtain ⟨len, hLen, hRest⟩ := bind_ok.mp hBlock
      obtain ⟨bytes, hBytes, hRest⟩ := bind_ok.mp hRest
      obtain rfl := Except.ok.inj hRest
      intro h owned hOwns
      obtain ⟨i, h', ids, hRun, hOwns', hSame, hLoad, rfl⟩ :=
        @mallocSockaddr_builds buf (fromHost os) len mask bytes hBytes h owned hOwns
      refine ⟨some i, h', [i], ?_, hOwns', hSame, by simp [Points, hLoad], rfl⟩
      rw [hLen, lift_bind, bind_of_ok hRun]
      rfl
    · rw [netmaskFromHost, if_neg hIp] at hMask
      rw [mallocNetmask, if_neg hIp]
      obtain rfl : none = m := Except.ok.inj hMask
      exact builds_pure fun h => ⟨rfl, rfl⟩

theorem ifaddrsRecord_builds {buf : Bytes × Bytes} {c : HostIfaddrs} {addr : Bytes} {n : Ifaddrs}
    (hEntry : fromHostIfaddrs os iff buf c addr = .ok n) :
    Builds (ifaddrsRecord os iff buf c addr) fun h r ids => HoldsIfaddrs h (.ifaddrs r) ids n := by
  obtain ⟨block, hBlock, hEntry⟩ := bind_ok.mp hEntry
  obtain ⟨m, hMask, hEntry⟩ := bind_ok.mp hEntry
  obtain rfl := Except.ok.inj hEntry
  obtain ⟨len, hLen, hRest⟩ := bind_ok.mp hBlock
  obtain ⟨bytes, hBytes, hRest⟩ := bind_ok.mp hRest
  obtain rfl := Except.ok.inj hRest
  intro h owned hOwns
  obtain ⟨p, h₁, ids, hRun₁, hOwns₁, hSame₁, hLoad, rfl⟩ :=
    @mallocSockaddr_builds buf.1 (fromHost os) len addr bytes hBytes h owned hOwns
  obtain ⟨q, h₂, ids, hRun₂, hOwns₂, hSame₂, hMasked, rfl⟩ := mallocNetmask_builds hMask h₁ _ hOwns₁
  obtain ⟨r, h₃, ids, hRun₃, hOwns₃, hSame₃, hNamed, rfl⟩ := strdup_builds c.name h₂ _ hOwns₂
  have hAddr : Points h₁ (some p) (some (.sockaddr ⟨len, bytes⟩)) := by simp [Points, hLoad]
  have hLate := hSame₃.subset (List.subset_append_right q.toList ([p] ++ owned))
  refine ⟨⟨r, remask Iff.all iff Iff.bionic c.flags, some p, q⟩, h₃,
    [p] ++ q.toList ++ r.toList, ?_, hOwns₃.perm ?_, ?_, r, some p, q, rfl, ?_, ?_, hNamed, rfl⟩
  · rw [ifaddrsRecord, hLen, lift_bind]
    exact (bind_of_ok hRun₁).trans ((bind_of_ok hRun₂).trans (bind_of_ok hRun₃))
  · simp only [← List.append_assoc]
    refine List.Perm.append_right owned ?_
    rw [List.append_assoc]
    exact List.perm_append_comm.trans (List.perm_append_comm.append_right _)
  · have hOld := hSame₂.subset (List.subset_append_right [p] owned)
    exact (hSame₁.trans hOld).trans (hLate.subset (List.subset_append_right [p] owned))
  · exact (hAddr.same (hSame₂.subset (List.subset_append_left [p] owned))).same
      (hLate.subset (List.subset_append_left [p] owned))
  · exact hMasked.same (hSame₃.subset (List.subset_append_left _ _))

/-- `*result` is a list under construction of the IP interfaces so far. -/
theorem getifaddrsLoop_builds {list : List HostIfaddrs} {h : Memory} {first pc : Option Nat}
    {items : List Ifaddrs} {ids owned : List Nat}
    (hLinked : Linked HoldsIfaddrs h first pc items ids)
    (hOwns : Owns h (ids ++ owned)) :
    ∃ p h' more ids', getifaddrsLoop os iff bufs i first pc list h = .ok p h' ∧
      Spans HoldsIfaddrs h' p (items ++ more) ids' none ∧ Owns h' (ids' ++ owned) ∧
      Same h h' owned ∧ List.Forall₂ (SameInterface os iff) (list.filter (hasIp os)) more := by
  induction list generalizing i h first pc items ids with
  | nil => exact ⟨first, h, [], ids, rfl, by simpa using hLinked.spans, hOwns, .refl h owned, .nil⟩
  | cons c next ih =>
    by_cases hIp : hasIp os c
    · obtain ⟨addr, hAddr, hFamily⟩ := (Option.any_eq_true _ _).mp hIp
      obtain ⟨n, hEntry, hSame⟩ := @fromHostIfaddrs_same os iff addr (bufs i) c hAddr hFamily
      have hAlloc := hOwns.alloc ⟨Block.raw, none⟩
      obtain ⟨r, h₁, parts, hRun, hOwns₁, hSame₁, hHolds⟩ :=
        ifaddrsRecord_builds hEntry _ _ hAlloc
      obtain ⟨hOwns₂, hSame₂, hParts, hNode⟩ := hOwns.filled hOwns₁ hSame₁ ⟨.ifaddrs r, none⟩
      have hLinked₂ := hLinked.same holdsIfaddrs_local
        (hSame₂.subset (List.subset_append_left ids owned))
      have hOrder : Owns (h₁.store h.length ⟨.ifaddrs r, none⟩)
          (ids ++ h.length :: (parts ++ owned)) := by
        have hSwap : ((h.length :: parts) ++ ids ++ owned).Perm
            (ids ++ (h.length :: parts) ++ owned) :=
          List.perm_append_comm.append_right owned
        exact hOwns₂.perm (by simpa using hSwap)
      obtain ⟨hLinked₃, hSame₃⟩ := hLinked₂.push holdsIfaddrs_local hOrder hNode
        (holdsIfaddrs_local _ _ _ _ _ hHolds hParts)
      obtain ⟨p, h', more, ids', hLoop, hSpans, hOwns', hSame', hMore⟩ :=
        ih (i := i + 1) hLinked₃ (by simpa using link_owns hOrder)
      refine ⟨p, h', n :: more, ids', ?_, by simpa using hSpans, hOwns', ?_, ?_⟩
      · have hFilter : c.addr.filter (isIp os) = some addr := by simp [hAddr, hFamily]
        rw [getifaddrsLoop, hFilter]
        refine (bind_of_ok (rfl : new Block.raw h = .ok h.length _)).trans ?_
        exact (bind_of_ok hRun).trans hLoop
      · exact ((hSame₂.subset (List.subset_append_right ids owned)).trans hSame₃).trans hSame'
      · rw [List.filter_cons_of_pos hIp]
        exact .cons hSame hMore
    · obtain ⟨p, h', more, ids', hLoop, hSpans, hOwns', hSame', hMore⟩ :=
        ih (i := i + 1) hLinked hOwns
      refine ⟨p, h', more, ids', ?_, hSpans, hOwns', hSame', ?_⟩
      · have hFilter : c.addr.filter (isIp os) = none := by
          cases hAddr : c.addr with
          | none => rfl
          | some addr => simpa [hasIp, hAddr] using hIp
        rw [getifaddrsLoop, hFilter]
        exact hLoop
      · rwa [List.filter_cons_of_neg hIp]

end Interfaces

/-! ### Frees -/

section Frees

variable {h : Memory} {p : Option Nat} {ids rest : List Nat}

theorem freeaddrinfo_spans {out : List Addrinfo} (hSpans : Spans HoldsAddrinfo h p out ids none)
    (hOwns : Owns h (ids ++ rest)) :
    ∃ h', freeaddrinfo h p = some h' ∧ Owns h' rest ∧ Same h h' rest := by
  refine freeList_spans holdsAddrinfo_local ?_ hSpans hOwns
  rintro h block ids a ⟨addr, canonname, rfl, -, -, rfl⟩
  rfl

theorem freeHostList_spans {out : List HostAddrinfo} (hSpans : Spans HoldsHint h p out ids none)
    (hOwns : Owns h (ids ++ rest)) :
    ∃ h', freeHostList h p = some h' ∧ Owns h' rest ∧ Same h h' rest := by
  refine freeList_spans holdsHint_local ?_ hSpans hOwns
  rintro h block ids a ⟨addr, rfl, -, rfl⟩
  rfl

theorem freeifaddrs_spans {out : List Ifaddrs} (hSpans : Spans HoldsIfaddrs h p out ids none)
    (hOwns : Owns h (ids ++ rest)) :
    ∃ h', freeifaddrs h p = some h' ∧ Owns h' rest ∧ Same h h' rest := by
  refine freeList_spans holdsIfaddrs_local ?_ hSpans hOwns
  rintro h block ids n ⟨name, addr, netmask, rfl, -, -, -, rfl⟩
  rfl

/-- The host reads the hints that the guest has given. -/
theorem readHints_spans {hints : List HostAddrinfo} (hSpans : Spans HoldsHint h p hints ids none)
    (hOwns : Owns h (ids ++ rest)) : readList readHostAddrinfo h p = some hints := by
  refine readList_spans ?_ hSpans hOwns
  rintro block ids a ⟨addr, rfl, hAddr, -⟩
  have hBytes : readSockaddr h addr = some a.addr := by
    unfold Points at hAddr
    cases addr with
    | none =>
      cases hNone : a.addr with
      | none => rfl
      | some bytes =>
        rw [hNone] at hAddr
        cases hAddr
    | some i =>
      cases hSome : a.addr with
      | none =>
        rw [hSome] at hAddr
        cases hAddr
      | some bytes =>
        rw [hSome] at hAddr
        have hLoad : h.load i = some ⟨.sockaddr ⟨a.addrlen, bytes⟩, none⟩ := Option.some.inj hAddr
        simp [readSockaddr, hLoad]
  simp [readHostAddrinfo, hBytes]

end Frees

/-! ### Whole calls -/

/-- The blocks `ids` that a call leaves behind, against what the same call returns as values. -/
inductive Answers (h : Memory) (ids : List Nat) : Except String Lookup → Except String Answer → Prop
  | thrown {e : String} (hLost : ids ≠ []) : Answers h ids (.error e) (.error e)
  | failed {ret : Int} (hNone : ids = []) : Answers h ids (.ok ⟨ret, none⟩) (.ok ⟨ret, none⟩)
  | found {out : List Addrinfo} {p : Option Nat} (hSpans : Spans HoldsAddrinfo h p out ids none) :
      Answers h ids (.ok ⟨0, some out⟩) (.ok ⟨0, some p⟩)

theorem getaddrinfo_answers (os : Os) (hbufs bufs : Nat → Bytes)
    (host : List HostAddrinfo → Resolved) (hints : List Addrinfo) {h : Memory} {owned : List Nat}
    (hOwns : Owns h owned) :
    ∃ answer h' ids, getaddrinfo os hbufs bufs host hints h = some (answer, h') ∧
      Owns h' (ids ++ owned) ∧ Same h h' owned ∧
      Answers h' ids (Network.getaddrinfo os hbufs bufs host hints) answer := by
  cases hHints : Network.toHostAlloc os hbufs 0 hints with
  | error e =>
    obtain ⟨h', lost, hRun, hOwns', hSame, hLost⟩ := toHostAlloc_leaks hHints hOwns
    refine ⟨.error e, h', lost, by rw [getaddrinfo, hRun], hOwns', hSame, ?_⟩
    rw [Network.getaddrinfo, hHints]
    exact .thrown hLost
  | ok hhints =>
    obtain ⟨p, h₁, hintIds, hRun, hOwns₁, hSame₁, hSpans⟩ := toHostAlloc_builds hHints h owned hOwns
    have hRead := readHints_spans hSpans hOwns₁
    by_cases hRet : (host hhints).ret = 0
    · obtain ⟨out, hOut, -⟩ := @fromHostAlloc_ok os bufs 0 (host hhints).list
      have hHres := hOwns₁.alloc ⟨.hostAddrinfos (host hhints).list, none⟩
      have hKept := hOwns₁.alloc_same (v := ⟨.hostAddrinfos (host hhints).list, none⟩)
      obtain ⟨h₂, hFree, hOwns₂, hSame₂⟩ := freeHostList_spans
        (hSpans.same holdsHint_local (hKept.subset (List.subset_append_left _ _)))
        (hHres.perm List.perm_middle.symm)
      have hList : readHres h₂ h₁.length = some (host hhints).list := by
        have hLoad := (hSame₂.load List.mem_cons_self).trans (load_alloc_new h₁ _)
        simp only [readHres, hLoad]
      obtain ⟨res, h₃, ids, hRun', hOwns₃, hSame₃, hRes⟩ :=
        fromHostAlloc_builds hOut h₂ _ hOwns₂
      have hDone : Owns h₃ (h₁.length :: (ids ++ owned)) := hOwns₃.perm List.perm_middle
      have hFreed := hDone.free_same
      refine ⟨.ok ⟨0, some res⟩, h₃.free h₁.length, ids, ?_, hDone.free, ?_, ?_⟩
      · simp only [getaddrinfo, hRun, hostGetaddrinfo, hRead, Option.map_some, Option.bind_some,
          hRet, ne_eq, not_true, if_false, hFree, hList, hRun']
      · have hOld := hSame₁.trans (hKept.subset (List.subset_append_right _ _))
        have hBoth := (hSame₂.trans hSame₃).subset (List.subset_cons_self _ _)
        exact (hOld.trans hBoth).trans (hFreed.subset (List.subset_append_right _ _))
      · have hPure : Network.getaddrinfo os hbufs bufs host hints = .ok ⟨0, some out⟩ := by
          rw [Network.getaddrinfo, hHints]
          show (if (host hhints).ret ≠ 0 then _ else _) = _
          rw [if_neg (not_not_intro hRet), hOut]
          rfl
        rw [hPure]
        exact .found (hRes.same holdsAddrinfo_local (hFreed.subset (List.subset_append_left _ _)))
    · obtain ⟨h₂, hFree, hOwns₂, hSame₂⟩ := freeHostList_spans hSpans hOwns₁
      refine ⟨.ok ⟨(host hhints).ret, none⟩, h₂, [], ?_, hOwns₂, hSame₁.trans hSame₂, ?_⟩
      · simp only [getaddrinfo, hRun, hostGetaddrinfo, hRead, Option.map_some, Option.bind_some,
          hRet, ne_eq, not_false_eq_true, if_true, hFree]
      · rw [getaddrinfo_failed hHints hRet]
        exact .failed rfl

theorem getifaddrs_builds (os : Os) (iff : HostIff) (bufs : Nat → Bytes × Bytes)
    (host : HostInterfaces) {h : Memory} {owned : List Nat} (hOwns : Owns h owned) :
    (host.ret ≠ 0 → getifaddrs os iff bufs host h = (.ok ⟨host.ret, none⟩, h)) ∧
    (host.ret = 0 → ∃ p h' ids items, getifaddrs os iff bufs host h = (.ok ⟨0, some p⟩, h') ∧
      Owns h' (ids ++ owned) ∧ Same h h' owned ∧ Spans HoldsIfaddrs h' p items ids none ∧
      List.Forall₂ (SameInterface os iff) (host.list.filter (hasIp os)) items) := by
  constructor
  · exact fun hFail => if_pos hFail
  · intro hRet
    obtain ⟨p, h', items, ids, hLoop, hSpans, hOwns', hSame, hItems⟩ :=
      @getifaddrsLoop_builds os iff bufs 0 host.list _ _ _ _ _ _ .empty
        (hOwns.alloc ⟨.hostIfaddrs host.list, none⟩)
    have hDone : Owns h' (h.length :: (ids ++ owned)) := hOwns'.perm List.perm_middle
    have hFreed := hDone.free_same
    refine ⟨p, h'.free h.length, ids, items, ?_, hDone.free, ?_,
      hSpans.same holdsIfaddrs_local (hFreed.subset (List.subset_append_left _ _)), hItems⟩
    · rw [getifaddrs, if_neg (not_not_intro hRet)]
      simp only [hLoop]
    · have hOld := hOwns.alloc_same.trans (hSame.subset (List.subset_cons_self _ _))
      exact hOld.trans (hFreed.subset (List.subset_append_right _ _))

end LibcShim.Network.Allocation
