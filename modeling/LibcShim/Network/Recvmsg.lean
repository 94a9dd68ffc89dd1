import LibcShim.Network.Receive

/-! `recvmsg`, which lets the host work in the guest's own msghdr, beside `recvmmsg` of one
message, which works in a copy. -/

namespace LibcShim.Network

open Kit

/-- What `msg_name` holds: the guest's pointer, or one to the storage of the shim's call. -/
inductive NamePtr
  | null
  | guest (address : Nat)
  | storage
  deriving DecidableEq, Repr

def Msghdr.namePtr (m : Msghdr) : NamePtr :=
  match m.name with
  | none => .null
  | some buffer => .guest buffer.address

/-- The guest's msghdr after a call; `hdr.name` is the guest's own buffer, wherever `msg_name`
points to now. -/
structure Received where
  result : Except String Int
  namePtr : NamePtr
  hdr : Msghdr

def sockaddrStorage : Nat := 128

/-- The host's `recvmsg` on a msghdr whose `msg_name` is null or storage of `sockaddrStorage`
bytes.  One that fails leaves the msghdr alone. -/
def Delivery.into (d : Delivery) (m : Msghdr) : Msghdr :=
  if d.ret < 0 then m
  else { m with
    namelen := if m.name.isSome then d.namelen else m.namelen
    data := d.data, controllen := d.controllen, flags := d.flags }

def recvmsg (os : Os) (flags : BitVec 32) (m : Msghdr) (d : Delivery) : Received :=
  if flags ≠ 0 then ⟨.error s!"recvmsg with unsupported flags {flags.toInt}", m.namePtr, m⟩
  else
    match m.name with
    | none => ⟨.ok d.ret, .null, { d.into m with controllen := 0 }⟩
    | some buffer =>
      let after := d.into { m with namelen := sockaddrStorage }
      if d.ret > 0 then
        match apply os d.haddr ⟨buffer.bytes, after.namelen⟩ with
        | .error e => ⟨.error e, .storage, after⟩
        | .ok g =>
          ⟨.ok d.ret, .storage, { after with
            name := some { buffer with bytes := g.bytes }, namelen := g.len, controllen := 0 }⟩
      else ⟨.ok d.ret, .storage, { after with controllen := 0 }⟩

/-- The byte count that a `recvmmsg` of one message reports, or its failure. -/
def Run.count (run : Run) : Except String Int :=
  match run.result, run.vec with
  | .ok 1, [m] => .ok m.len
  | result, _ => result

/-- The two calls say the same and leave the same msghdr, which is the guest's still, with the
address in the guest's buffer and no byte beyond the guest's length. -/
structure Agree (os : Os) (m m' : Mmsghdr) (d : Delivery) (single : Received) (batch : Run) :
    Prop where
  vec : batch.vec = [m']
  result : single.result = batch.count
  single_name : single.namePtr = m.hdr.namePtr
  batch_name : m'.hdr.namePtr = m.hdr.namePtr
  hdr : single.hdr = m'.hdr
  namelen_ok : 0 ≤ d.ret → m.hdr.name.isSome → getBionicLen os d.haddr = .ok m'.hdr.namelen
  namelen_fail : d.ret < 0 → m'.hdr.namelen = m.hdr.namelen
  bounded : ∀ buffer buffer', m.hdr.name = some buffer → m'.hdr.name = some buffer' →
    ∀ i, m.hdr.namelen ≤ i → buffer'.bytes i = buffer.bytes i

/-- The host's outcome is one that the two calls treat alike. -/
def TreatedAlike (m : Msghdr) (d : Delivery) : Prop :=
  m.name = none ∧ (0 ≤ d.ret ∧ d.ret < 2 ^ 32 ∨ d.ret = -1 ∧ m.controllen = 0)

section Single

variable {os : Os} {m : Mmsghdr} {start : Int} {script : Nat → Turn}

theorem recvmsg_named {d : Delivery} {buffer : NameBuffer} (h : m.hdr.name = some buffer) :
    (recvmsg os 0 m.hdr d).namePtr = .storage := by
  simp only [recvmsg, ne_eq, not_true_eq_false, if_false, h]
  split
  · split <;> rfl
  · rfl

theorem recvmsg_unnamed {d : Delivery} (h : m.hdr.name = none) :
    recvmsg os 0 m.hdr d = ⟨.ok d.ret, .null, { d.into m.hdr with controllen := 0 }⟩ := by
  simp [recvmsg, h]

/-- Without a timeout nothing is waited for. -/
theorem recvmmsg_single_fail (h : (script 0).recv.ret < 0) :
    recvmmsg os [m] 0 none start script =
      ⟨.ok (-1), [m], [.recv ⟨false, false⟩ (script 0).recv]⟩ := by
  simp [recvmmsg, recvmmsgLoop, wait, h]

theorem recvmmsg_single_unnamed (h : 0 ≤ (script 0).recv.ret) (hName : m.hdr.name = none) :
    recvmmsg os [m] 0 none start script =
      ⟨.ok 1, [⟨{ (script 0).recv.into m.hdr with controllen := 0 },
        (script 0).recv.ret.toNat % 2 ^ 32⟩], [.recv ⟨false, false⟩ (script 0).recv]⟩ := by
  have hRet : ¬ (script 0).recv.ret < 0 := by omega
  have hEntry : receiveEntry os (script 0).recv m =
      .ok ⟨{ (script 0).recv.into m.hdr with controllen := 0 },
        (script 0).recv.ret.toNat % 2 ^ 32⟩ := by
    simp [receiveEntry, hName, Delivery.into, hRet, Bind.bind, Except.bind]
  simp [recvmmsg, recvmmsgLoop, wait, hRet, hEntry]
  rfl

/-- `recvmsg` leaves `msg_name` at its own storage, so the two agree on no msghdr with a name; on
one without, when the count fits `msg_len` and a failure leaves the same `msg_controllen`. -/
theorem recvmsg_agrees_with_recvmmsg :
    (∃ m', Agree os m m' (script 0).recv (recvmsg os 0 m.hdr (script 0).recv)
      (recvmmsg os [m] 0 none start script)) ↔ TreatedAlike m.hdr (script 0).recv := by
  cases hName : m.hdr.name with
  | some buffer =>
    refine iff_of_false ?_ fun h => by simp [TreatedAlike, hName] at h
    rintro ⟨m', hAgree⟩
    have hPtr := hAgree.single_name
    rw [recvmsg_named hName, Msghdr.namePtr, hName] at hPtr
    cases hPtr
  | none =>
    have hPtr : m.hdr.namePtr = .null := by simp [Msghdr.namePtr, hName]
    rw [recvmsg_unnamed hName]
    by_cases hFail : (script 0).recv.ret < 0
    · rw [recvmmsg_single_fail hFail]
      have hInto : (script 0).recv.into m.hdr = m.hdr := if_pos hFail
      rw [hInto]
      constructor
      · rintro ⟨m', hAgree⟩
        obtain rfl : m = m' := (List.cons.inj hAgree.vec).1
        have hRet : (script 0).recv.ret = -1 := Except.ok.inj hAgree.result
        exact ⟨hName, Or.inr ⟨hRet, (congrArg Msghdr.controllen hAgree.hdr).symm⟩⟩
      · rintro ⟨-, hOk | ⟨hRet, hControl⟩⟩
        · omega
        · exact ⟨m, rfl, congrArg Except.ok hRet, hPtr.symm, rfl, by rw [← hControl],
            fun hOk => absurd hOk (Int.not_le.mpr hFail), fun _ => rfl,
            fun _ _ h => by rw [hName] at h; cases h⟩
    · rw [recvmmsg_single_unnamed (Int.not_lt.mp hFail) hName]
      have hInto : ((script 0).recv.into m.hdr).name = none := by
        simp [Delivery.into, hFail, hName]
      constructor
      · rintro ⟨m', hAgree⟩
        have hCount : (script 0).recv.ret = ((script 0).recv.ret.toNat % 2 ^ 32 : Nat) :=
          Except.ok.inj hAgree.result
        exact ⟨hName, Or.inl ⟨Int.not_lt.mp hFail, by omega⟩⟩
      · rintro ⟨-, ⟨hOk, hCount⟩ | ⟨hRet, -⟩⟩
        · refine ⟨_, rfl, ?_, hPtr.symm, ?_, rfl, ?_, fun h => absurd h hFail, ?_⟩
          · refine congrArg Except.ok ?_
            show (script 0).recv.ret = ((script 0).recv.ret.toNat % 2 ^ 32 : Nat)
            omega
          · rw [hPtr]
            simp [Msghdr.namePtr, hInto]
          · intro _ hSome
            rw [hName] at hSome
            cases hSome
          · intro _ _ h
            rw [hName] at h
            cases h
        · omega

end Single

/-! ### On Linux -/

/-- A datagram of 5 bytes from `0.0.0.0`, into a msghdr with a buffer of 128 bytes for the name. -/
theorem recvmsg_moves_msg_name :
    ¬ ∀ (os : Os) (m : Mmsghdr) (start : Int) (script : Nat → Turn),
      (script 0).recv.ret = -1 ∨ 0 ≤ (script 0).recv.ret →
      (m.hdr.name.isSome → Fits os (script 0).recv.haddr m.hdr.namelen) →
      ∃ m', Agree os m m' (script 0).recv (recvmsg os 0 m.hdr (script 0).recv)
        (recvmmsg os [m] 0 none start script) := by
  intro hClaim
  have hFits : Fits .linux inetAny 128 := ⟨.inet, 16, rfl, rfl, by decide⟩
  obtain ⟨m', hAgree⟩ := hClaim .linux
    ⟨⟨some ⟨0x1000, Bytes.zero⟩, 128, [(0x2000, 8)], [], 0, 0⟩, 0⟩ 0
    (fun _ => ⟨0, 0, ⟨5, inetAny, 16, [104, 101, 108, 108, 111], 0, 0⟩⟩) (Or.inr (by decide))
    fun _ => hFits
  cases hAgree.single_name

end LibcShim.Network
