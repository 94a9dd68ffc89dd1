import LibcShim.Network.Receive
import LibcShim.Network.Send

/-! The flags of one socket call.  The guest's word is bionic's, the host's numbers are its own, and
each family of calls has a decoder of its own. -/

namespace LibcShim.Network

/-- `MSG_PEEK` is 2 everywhere. -/
def msgPeek : BitVec 32 := 2

def msgDontwait : Os → BitVec 32
  | .linux => 0x40
  | .apple | .freebsd => 0x80

def msgNosignal : Os → BitVec 32
  | .linux => 0x4000
  | .apple => 0x80000
  | .freebsd => 0x20000

/-- The word for the host's call, and whether the socket has `SO_NOSIGPIPE` for its time. -/
structure HostFlags where
  word : BitVec 32
  noSigpipe : Bool
  deriving DecidableEq, Repr

namespace HostFlags

def dontWait (os : Os) (f : HostFlags) : Bool := f.word &&& msgDontwait os != 0

def peek (f : HostFlags) : Bool := f.word &&& msgPeek != 0

def noSignal (os : Os) (f : HostFlags) : Bool := f.noSigpipe || f.word &&& msgNosignal os != 0

end HostFlags

/-- `nflags`, as `recv` and `recvmmsg` put it together. -/
def nflags (os : Os) (flags : BitVec 32) : BitVec 32 :=
  (if flags &&& 0x4000#32 ≠ 0 then msgDontwait os else 0) |||
    (if flags &&& 2#32 ≠ 0 then msgPeek else 0)

/-- The calls that decode a word of flags; `send` stands for the four that use
`detail::sock_send_flags`. -/
inductive FlagsCall
  | recv
  | recvfrom
  | recvmmsg
  | send
  deriving DecidableEq, Repr

/-- `recv` drops the bits that it does not know, the others refuse them. -/
def decodeFlags (os : Os) (flags : BitVec 32) : FlagsCall → Except String HostFlags
  | .recv => .ok ⟨nflags os flags, false⟩
  | .recvfrom =>
    if flags ≠ 0 ∧ flags ≠ 0x4000 then .error s!"recvfrom with unsupported flags {flags.toInt}"
    else .ok ⟨if flags = 0x4000 then msgNosignal os else 0, false⟩
  | .recvmmsg =>
    if flags &&& ~~~0x4002#32 ≠ 0 then .error s!"recvmmsg with unsupported flags {flags.toInt}"
    else .ok ⟨nflags os flags, false⟩
  | .send =>
    let rest := flags &&& ~~~0x4000#32
    if rest ≠ 0 then .error s!"Unexpected flags in a socket send operation {rest.toInt}"
    else
      let noSignal := flags &&& 0x4000#32 != 0
      if os = .apple then .ok ⟨0, noSignal⟩
      else .ok ⟨if noSignal then msgNosignal os else 0, false⟩

/-- The host's `recv`, or its `recvfrom` without an address. -/
structure RecvCall where
  sockfd : Int
  len : Nat
  flags : HostFlags
  deriving DecidableEq, Repr

def recv (os : Os) (sockfd : Int) (len : Nat) (flags : BitVec 32) : Except String RecvCall := do
  let hflags ← decodeFlags os flags .recv
  .ok ⟨sockfd, len, hflags⟩

/-- `recvfrom` with a null `addr`. -/
def recvfromNull (os : Os) (sockfd : Int) (len : Nat) (flags : BitVec 32) :
    Except String RecvCall := do
  let hflags ← decodeFlags os flags .recvfrom
  .ok ⟨sockfd, len, hflags⟩

section Decoders

variable {os : Os} {flags : BitVec 32} {f : HostFlags}

theorem nflags_dontWait : (HostFlags.mk (nflags os flags) false).dontWait os =
    (flags &&& 0x4000#32 != 0) := by
  unfold HostFlags.dontWait nflags
  split <;> split <;> cases os <;> simp_all [msgDontwait, msgPeek]

theorem nflags_peek : (HostFlags.mk (nflags os flags) false).peek = (flags &&& 2#32 != 0) := by
  unfold HostFlags.peek nflags
  split <;> split <;> cases os <;> simp_all [msgDontwait, msgPeek]

theorem nflags_noSignal : (HostFlags.mk (nflags os flags) false).noSignal os = false := by
  unfold HostFlags.noSignal nflags
  split <;> split <;> cases os <;> decide

/-! ### The decoders are those of the calls -/

theorem recvfrom_decodes (host : Reported) : recvfrom os flags host none =
    (decodeFlags os flags .recvfrom).map fun _ => (host.ret, none) := by
  unfold recvfrom decodeFlags
  dsimp only
  split <;> rfl

theorem recvmmsg_decodes {vec : List Mmsghdr} {timeout : Option (Int × Int)} {start : Int}
    {script : Nat → Turn} : recvmmsg os vec flags timeout start script =
      match decodeFlags os flags .recvmmsg with
      | .error e => ⟨.error e, vec, []⟩
      | .ok f => recvmmsgLoop os (timeout.map (deadline start)) ⟨f.dontWait os, f.peek⟩ script 0
          vec := by
  unfold recvmmsg decodeFlags
  dsimp only
  split
  · rfl
  · simp only [nflags_dontWait, nflags_peek]

theorem sockSendFlags_decodes :
    sockSendFlags flags = (decodeFlags os flags .send).map (·.noSignal os) := by
  unfold sockSendFlags decodeFlags
  dsimp only
  split
  · rfl
  · cases flags &&& 0x4000#32 != 0 <;> cases os <;> rfl

/-! ### What the bit `0x4000` means -/

theorem recvfrom_noSignal (h : decodeFlags os flags .recvfrom = .ok f) :
    f.noSignal os = (flags &&& 0x4000#32 != 0) := by
  unfold decodeFlags at h
  dsimp only at h
  split at h
  · cases h
  · obtain rfl := Except.ok.inj h
    obtain rfl | rfl : flags = 0 ∨ flags = 0x4000 := by tauto
    · cases os <;> rfl
    · cases os <;> rfl

theorem send_noSignal (h : decodeFlags os flags .send = .ok f) :
    f.noSignal os = (flags &&& 0x4000#32 != 0) := by
  have hSend : sockSendFlags flags = .ok (f.noSignal os) := by
    rw [@sockSendFlags_decodes os, h]
    rfl
  unfold sockSendFlags at hSend
  dsimp only at hSend
  split at hSend
  · cases hSend
  · exact (Except.ok.inj hSend).symm

theorem decodeFlags_noSignal {c : FlagsCall} (h : decodeFlags os flags c = .ok f) :
    f.noSignal os = (flags &&& 0x4000#32 != 0) ↔
      flags &&& 0x4000#32 = 0 ∨ c = .recvfrom ∨ c = .send := by
  have hNflags : (HostFlags.mk (nflags os flags) false).noSignal os = (flags &&& 0x4000#32 != 0) ↔
      flags &&& 0x4000#32 = 0 := by
    rw [nflags_noSignal, eq_comm, bne_eq_false_iff_eq]
  cases c with
  | recv =>
    obtain rfl := Except.ok.inj h
    exact hNflags.trans (by simp)
  | recvfrom => exact iff_of_true (recvfrom_noSignal h) (Or.inr (Or.inl rfl))
  | recvmmsg =>
    unfold decodeFlags at h
    dsimp only at h
    split at h
    · cases h
    · obtain rfl := Except.ok.inj h
      exact hNflags.trans (by simp)
  | send => exact iff_of_true (send_noSignal h) (Or.inr (Or.inr rfl))

theorem recv_eq_recvfrom {sockfd : Int} {len : Nat} {call : RecvCall}
    (h : recvfromNull os sockfd len flags = .ok call) :
    recv os sockfd len flags = .ok call ↔ flags &&& 0x4000#32 = 0 := by
  obtain rfl | rfl : flags = 0 ∨ flags = 0x4000 := by
    by_contra hFlags
    have hRefused : flags ≠ 0 ∧ flags ≠ 0x4000 := not_or.mp hFlags
    rw [recvfromNull, decodeFlags, if_pos hRefused] at h
    cases h
  · rw [← h]
    exact iff_of_true (by cases os <;> rfl) rfl
  · rw [← h]
    refine iff_of_false (fun hSame => ?_) (by decide)
    cases os <;> cases hSame

/-- A word that both accept gives `recv` and `recvfrom` the same call of the host, and the bit
`0x4000` its meaning `MSG_NOSIGNAL` in each call, exactly when the bit is clear; but `recvfrom` and
the send family give it that meaning always. -/
theorem flags_decoded_alike (os : Os) (flags : BitVec 32) :
    (∀ sockfd len call, recvfromNull os sockfd len flags = .ok call →
      (recv os sockfd len flags = .ok call ↔ flags &&& 0x4000#32 = 0)) ∧
    ∀ c f, decodeFlags os flags c = .ok f →
      (f.noSignal os = (flags &&& 0x4000#32 != 0) ↔
        flags &&& 0x4000#32 = 0 ∨ c = .recvfrom ∨ c = .send) :=
  ⟨fun _ _ _ => recv_eq_recvfrom, fun _ _ => decodeFlags_noSignal⟩

end Decoders

/-- `MSG_NOSIGNAL` makes `recv` return from an empty socket, and `recvfrom` wait. -/
theorem recv_nosignal_does_not_wait :
    (¬ ∀ (os : Os) (sockfd : Int) (len : Nat) (flags : BitVec 32) (call : RecvCall),
      recvfromNull os sockfd len flags = .ok call → recv os sockfd len flags = .ok call) ∧
    recv .linux 3 16 0x4000 = .ok ⟨3, 16, ⟨0x40, false⟩⟩ ∧
    recvfromNull .linux 3 16 0x4000 = .ok ⟨3, 16, ⟨0x4000, false⟩⟩ ∧
    (HostFlags.mk 0x40 false).dontWait .linux = true ∧
    (HostFlags.mk 0x4000 false).dontWait .linux = false := by
  refine ⟨fun hClaim => ?_, rfl, rfl, rfl, rfl⟩
  cases hClaim .linux 3 16 0x4000 _ rfl

/-- Without flags the two are one call, and a `sendto` with `MSG_NOSIGNAL` raises no signal. -/
theorem recv_without_flags :
    recv .apple 3 16 0 = .ok ⟨3, 16, ⟨0, false⟩⟩ ∧
    (HostFlags.mk 0 true).noSignal .apple = (0x4000#32 &&& 0x4000#32 != 0) :=
  ⟨((flags_decoded_alike .apple 0).1 3 16 ⟨3, 16, ⟨0, false⟩⟩ rfl).mpr rfl,
    ((flags_decoded_alike .apple 0x4000).2 .send ⟨0, true⟩ rfl).mpr (Or.inr (Or.inr rfl))⟩

end LibcShim.Network
