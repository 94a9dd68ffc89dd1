import LibcShim.Network.Addrinfo
import LibcShim.Network.Receive

/-! The calls that make sockets: `socket`, `socketpair` and `accept4`, with the kind and the modes
that the guest asks for in one word. -/

namespace LibcShim.Network.Socket

open Kit

def sockNonblock : BitVec 32 := 0o4000
def sockCloexec : BitVec 32 := 0o2000000

/-- A new descriptor. -/
structure Endpoint where
  kind : Int
  nonblock : Bool
  cloexec : Bool
  deriving DecidableEq, Repr

/-- What the host's calls make, for a type without modes; `accept` also has the number of the new
descriptor.  On the BSDs an accepted socket takes `O_NONBLOCK` over from the listener. -/
structure SocketHost (os : Os) where
  socket (domain type proto : Int) : Option Endpoint
  socketpair (domain type proto : Int) : Option (Endpoint × Endpoint)
  accept (listener : Endpoint) : Option (Nat × Endpoint)
  socket_plain : ∀ domain type proto d, type = 1 ∨ type = 2 ∨ type = 3 →
    socket domain type proto = some d → d = ⟨type, false, false⟩
  socketpair_plain : ∀ domain type proto p, type = 1 ∨ type = 2 ∨ type = 3 →
    socketpair domain type proto = some p → p = (⟨type, false, false⟩, ⟨type, false, false⟩)
  accept_plain : ∀ listener fd d, accept listener = some (fd, d) →
    d = ⟨listener.kind, os != .linux && listener.nonblock, false⟩

variable {os : Os}

/-- The conversions that `socket` and `socketpair` share. -/
def create {α : Type} (call : Int → Int → Option α) (type : BitVec 32) (proto : Int) :
    Except String (Option α) := do
  let type ← toHostSocktype type.toInt
  let proto ← toHostIpproto proto
  .ok (call type proto)

def socket (host : SocketHost os) (domain : Int) (type : BitVec 32) (proto : Int) :
    Except String (Option Endpoint) :=
  create (host.socket (toHostAfFamily os domain)) type proto

def socketpair (host : SocketHost os) (domain : Int) (type : BitVec 32) (proto : Int) :
    Except String (Option (Endpoint × Endpoint)) :=
  create (host.socketpair (toHostAfFamily os domain)) type proto

/-- The new descriptor, once its address is handed over. -/
def accept4 (host : SocketHost os) (listener : Endpoint) (haddr : Bytes) (addr : Option GuestAddr)
    (flag : BitVec 32) : Except String (Option Endpoint) :=
  match host.accept listener with
  | none => (Network.accept4 os ⟨-1, haddr⟩ addr flag.toInt).map fun _ => none
  | some (fd, d) => (Network.accept4 os ⟨fd, haddr⟩ addr flag.toInt).map fun _ => some d

/-! ### What the guest asks for -/

/-- The type word without its modes. -/
def kindField (type : BitVec 32) : BitVec 32 := type &&& ~~~(sockNonblock ||| sockCloexec)

def KnownKind (type : BitVec 32) : Prop :=
  kindField type = 1 ∨ kindField type = 2 ∨ kindField type = 3

instance (type : BitVec 32) : Decidable (KnownKind type) := inferInstanceAs (Decidable (_ ∨ _))

def HasModes (word : BitVec 32) (d : Endpoint) : Prop :=
  (d.nonblock ↔ word &&& sockNonblock ≠ 0) ∧ (d.cloexec ↔ word &&& sockCloexec ≠ 0)

/-- A kind that the shim does not know is refused, and a success has the kind and the modes that
were asked for. -/
structure AsRequested {α : Type} (type : BitVec 32) (ends : α → List Endpoint)
    (r : Except String (Option α)) : Prop where
  rejects : ¬KnownKind type → ∃ e, r = .error e
  gives : ∀ a, r = .ok (some a) → ∀ d ∈ ends a, d.kind = (kindField type).toNat ∧ HasModes type d

/-- The protocol is refused, or the kind is, or the kind is known and the word has no modes, or the
host fails. -/
def NothingLost {α : Type} (call : Int → Int → Option α) (type : BitVec 32) (proto : Int) : Prop :=
  proto ∉ Ipproto.all.map Ipproto.number ∨ type &&& 3 = 0 ∨
    KnownKind type ∧ (type &&& (sockNonblock ||| sockCloexec) = 0 ∨
      call (type &&& 3).toNat proto = none)

section Words

variable {type : BitVec 32}

theorem toInt_emod (type : BitVec 32) : type.toInt % 4 = (type &&& 3).toNat := by
  have hMod : (type &&& 3).toNat = type.toNat % 4 := by
    rw [BitVec.toNat_and]
    exact Nat.and_two_pow_sub_one_eq_mod type.toNat 2
  rw [hMod, BitVec.toInt_eq_toNat_cond]
  split <;> omega

theorem low_eq (type : BitVec 32) : type &&& 3 = kindField type &&& 3 := by
  rw [kindField, BitVec.and_assoc]
  rfl

theorem low_lt (type : BitVec 32) : (type &&& 3).toNat < 4 := by
  have hLow := toInt_emod type
  omega

theorem low_zero : type &&& 3 = 0 ↔ (type &&& 3).toNat = 0 := by
  rw [← BitVec.toNat_inj]
  rfl

theorem KnownKind.low (h : KnownKind type) : type &&& 3 = kindField type := by
  rw [low_eq]
  rcases h with h | h | h <;> rw [h] <;> rfl

theorem toHostSocktype_ok {n : Int} : toHostSocktype type.toInt = .ok n ↔
    type &&& 3 ≠ 0 ∧ n = (type &&& 3).toNat := by
  have hLow := low_lt type
  rw [toHostSocktype, orThrow_ok, renumber_same, toInt_emod, Ne, low_zero]
  simp only [Socktype.all, Socktype.number, List.map_cons, List.map_nil, List.mem_cons,
    List.not_mem_nil, or_false]
  omega

theorem toHostIpproto_ok {proto n : Int} : toHostIpproto proto = .ok n ↔
    proto ∈ Ipproto.all.map Ipproto.number ∧ n = proto := by
  rw [toHostIpproto, orThrow_ok, renumber_same]

theorem modes_zero {word : BitVec 32} : word &&& (sockNonblock ||| sockCloexec) = 0 ↔
    word &&& sockNonblock = 0 ∧ word &&& sockCloexec = 0 := by
  rw [BitVec.and_or_distrib_left]
  exact BitVec.or_eq_zero_iff

theorem hasModes_plain {word : BitVec 32} {kind : Int} :
    HasModes word ⟨kind, false, false⟩ ↔ word &&& (sockNonblock ||| sockCloexec) = 0 := by
  rw [modes_zero]
  simp [HasModes]

end Words

section Create

variable {α : Type} {call : Int → Int → Option α} {ends : α → List Endpoint} {type : BitVec 32}
  {proto : Int}

theorem create_ok {made : Option α} : create call type proto = .ok made ↔
    (type &&& 3 ≠ 0 ∧ proto ∈ Ipproto.all.map Ipproto.number) ∧
      made = call (type &&& 3).toNat proto := by
  unfold create
  simp only [bind_ok, toHostSocktype_ok, toHostIpproto_ok, Except.ok.injEq]
  constructor
  · rintro ⟨_, ⟨hLow, rfl⟩, _, ⟨hProto, rfl⟩, rfl⟩
    exact ⟨⟨hLow, hProto⟩, rfl⟩
  · rintro ⟨⟨hLow, hProto⟩, rfl⟩
    exact ⟨_, ⟨hLow, rfl⟩, _, ⟨hProto, rfl⟩, rfl⟩

theorem low_cases (hLow : type &&& 3 ≠ 0) : (((type &&& 3).toNat : Nat) : Int) = 1 ∨
    (((type &&& 3).toNat : Nat) : Int) = 2 ∨ (((type &&& 3).toNat : Nat) : Int) = 3 := by
  have hLt := low_lt type
  have hPos := mt low_zero.mpr hLow
  omega

theorem asRequested_create (hPlain : ∀ type proto a, type = 1 ∨ type = 2 ∨ type = 3 →
      call type proto = some a → ends a ≠ [] ∧ ∀ d ∈ ends a, d = ⟨type, false, false⟩) :
    AsRequested type ends (create call type proto) ↔ NothingLost call type proto := by
  by_cases hPasses : type &&& 3 ≠ 0 ∧ proto ∈ Ipproto.all.map Ipproto.number
  · have hMade : create call type proto = .ok _ := create_ok.mpr ⟨hPasses, rfl⟩
    constructor
    · rintro ⟨hRejects, hGives⟩
      have hKnown : KnownKind type := by
        by_contra hUnknown
        obtain ⟨e, hError⟩ := hRejects hUnknown
        rw [hMade] at hError
        cases hError
      refine Or.inr (Or.inr ⟨hKnown, ?_⟩)
      cases hCall : call (type &&& 3).toNat proto with
      | none => exact Or.inr rfl
      | some a =>
        obtain ⟨hEnds, hAll⟩ := hPlain _ proto a (low_cases hPasses.1) hCall
        obtain ⟨d, hd⟩ := List.exists_mem_of_ne_nil _ hEnds
        have hModes := (hGives a (hMade.trans (congrArg _ hCall)) d hd).2
        rw [hAll d hd, hasModes_plain] at hModes
        exact Or.inl hModes
    · rintro (hProto | hLow | ⟨hKnown, hModes⟩)
      · exact absurd hPasses.2 hProto
      · exact absurd hLow hPasses.1
      · refine ⟨fun hUnknown => absurd hKnown hUnknown, fun a ha d hd => ?_⟩
        have hCall : call (type &&& 3).toNat proto = some a := (create_ok.mp ha).2.symm
        rw [(hPlain _ proto a (low_cases hPasses.1) hCall).2 d hd, hasModes_plain, hKnown.low]
        rcases hModes with hModes | hNone
        · exact ⟨rfl, hModes⟩
        · rw [hCall] at hNone
          cases hNone
  · have hLost : NothingLost call type proto := by
      unfold NothingLost
      tauto
    refine iff_of_true ⟨fun _ => ?_, fun a ha => absurd (create_ok.mp ha).1 hPasses⟩ hLost
    cases hCreate : create call type proto with
    | error e => exact ⟨e, rfl⟩
    | ok made => exact absurd (create_ok.mp hCreate).1 hPasses

end Create

section Accept

variable {host : SocketHost os} {listener : Endpoint} {haddr : Bytes} {addr : Option GuestAddr}
  {flag : BitVec 32}

/-- The address of the new socket cannot be handed over. -/
def Refused (os : Os) (haddr : Bytes) (addr : Option GuestAddr) : Prop :=
  ∃ guest, addr = some guest ∧ ¬Fits os haddr guest.len

theorem accept4_none (hNone : host.accept listener = none) (d : Endpoint) :
    accept4 host listener haddr addr flag ≠ .ok (some d) := by
  intro hOk
  simp only [accept4, hNone, map_ok] at hOk
  obtain ⟨_, -, hSame⟩ := hOk
  cases hSame

theorem accept4_some {fd : Nat} {made d : Endpoint}
    (hMade : host.accept listener = some (fd, made)) :
    accept4 host listener haddr addr flag = .ok (some d) ↔ ¬Refused os haddr addr ∧ made = d := by
  simp only [accept4, hMade, map_ok, Option.some.injEq, Refused, Network.accept4]
  rw [exists_and_right]
  refine and_congr_left fun _ => ?_
  cases addr with
  | none => exact iff_of_true ⟨_, rfl⟩ (by simp)
  | some guest =>
    obtain ⟨hReports, hFails⟩ :=
      @accept_reports os ⟨fd, haddr⟩ guest (Int.natCast_nonneg fd)
    by_cases hFits : Fits os haddr guest.len
    · obtain ⟨a, ha⟩ := hReports hFits
      exact iff_of_true ⟨_, ha⟩ (by simpa using hFits)
    · obtain ⟨e, he⟩ := hFails hFits
      rw [he]
      simpa using hFits

/-- A new descriptor has the modes of the flag word exactly where the flag asks for what `accept`
gives: no `SOCK_CLOEXEC`, and `SOCK_NONBLOCK` where it is inherited. -/
theorem accept4_modes :
    (∀ d, accept4 host listener haddr addr flag = .ok (some d) → HasModes flag d) ↔
      host.accept listener = none ∨ Refused os haddr addr ∨
        (flag &&& sockNonblock ≠ 0 ↔ os ≠ .linux ∧ listener.nonblock) ∧
          flag &&& sockCloexec = 0 := by
  cases hAccept : host.accept listener with
  | none => exact iff_of_true (fun d hOk => absurd hOk (accept4_none hAccept d)) (Or.inl rfl)
  | some made =>
    obtain ⟨fd, d⟩ := made
    have hModes : HasModes flag d ↔
        (flag &&& sockNonblock ≠ 0 ↔ os ≠ .linux ∧ listener.nonblock) ∧
          flag &&& sockCloexec = 0 := by
      rw [host.accept_plain listener fd d hAccept]
      simp [HasModes, iff_comm]
    rw [← hModes]
    simp only [accept4_some hAccept, reduceCtorEq, false_or]
    constructor
    · intro hAll
      by_cases hRefused : Refused os haddr addr
      · exact Or.inl hRefused
      · exact Or.inr (hAll d ⟨hRefused, rfl⟩)
    · rintro (hRefused | hGiven) _ ⟨hTaken, rfl⟩
      · exact absurd hRefused hTaken
      · exact hGiven

end Accept

/-- Which type and flag words are honoured, for the three calls. -/
theorem socket_as_requested (host : SocketHost os) (domain : Int) (type : BitVec 32) (proto : Int)
    (listener : Endpoint) (haddr : Bytes) (addr : Option GuestAddr) (flag : BitVec 32) :
    (AsRequested type (fun d => [d]) (socket host domain type proto) ↔
      NothingLost (host.socket (toHostAfFamily os domain)) type proto) ∧
    (AsRequested type (fun p => [p.1, p.2]) (socketpair host domain type proto) ↔
      NothingLost (host.socketpair (toHostAfFamily os domain)) type proto) ∧
    ((∀ d, accept4 host listener haddr addr flag = .ok (some d) → HasModes flag d) ↔
      host.accept listener = none ∨ Refused os haddr addr ∨
        (flag &&& sockNonblock ≠ 0 ↔ os ≠ .linux ∧ listener.nonblock) ∧
          flag &&& sockCloexec = 0) := by
  refine ⟨asRequested_create ?_, asRequested_create ?_, accept4_modes⟩
  · intro type proto d hType hMade
    exact ⟨by simp, by simpa using host.socket_plain _ type proto d hType hMade⟩
  · intro type proto p hType hMade
    obtain rfl := host.socketpair_plain _ type proto p hType hMade
    exact ⟨by simp, by simp⟩

/-! ### A host that makes every socket -/

def willing (os : Os) : SocketHost os where
  socket _ type _ := some ⟨type, false, false⟩
  socketpair _ type _ := some (⟨type, false, false⟩, ⟨type, false, false⟩)
  accept listener := some (3, ⟨listener.kind, os != .linux && listener.nonblock, false⟩)
  socket_plain _ _ _ _ _ h := (Option.some.inj h).symm
  socketpair_plain _ _ _ _ _ h := (Option.some.inj h).symm
  accept_plain _ _ _ h := (congrArg Prod.snd (Option.some.inj h)).symm

/-- `SOCK_STREAM | SOCK_NONBLOCK` blocks, `SOCK_SEQPACKET` is a stream, and `SOCK_CLOEXEC` of
`accept4` is lost. -/
theorem socket_not_as_requested :
    ¬AsRequested 0x801 (fun d => [d]) (socket (willing .linux) 2 0x801 6) ∧
      ¬AsRequested 5 (fun p => [p.1, p.2]) (socketpair (willing .linux) 1 5 0) ∧
      ¬∀ d, accept4 (willing .linux) ⟨1, false, false⟩ Bytes.zero none sockCloexec = .ok (some d) →
        HasModes sockCloexec d := by
  refine ⟨fun h => ?_, fun h => ?_, fun h => ?_⟩
  · have hMade : socket (willing .linux) 2 0x801 6 = .ok (some ⟨1, false, false⟩) := by decide
    have hModes := (h.gives _ hMade _ (List.mem_singleton_self _)).2.1
    exact absurd hModes (by decide)
  · obtain ⟨e, he⟩ := h.rejects (by decide)
    have hMade : socketpair (willing .linux) 1 5 0 =
        .ok (some (⟨1, false, false⟩, ⟨1, false, false⟩)) := by decide
    rw [he] at hMade
    cases hMade
  · have hModes := (h ⟨1, false, false⟩ rfl).2
    exact absurd hModes (by decide)

end LibcShim.Network.Socket
