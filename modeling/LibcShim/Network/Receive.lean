import LibcShim.Network.Sockaddr
import Mathlib.Data.BitVec

/-! The calls in which the host reports an address, and what the guest gets of their success:
`accept`, `recvfrom`, `getsockname`, `getpeername` and the loop of `recvmmsg`.  What the host does
is an argument. -/

namespace LibcShim.Network

open Kit

/-- The result of the host's call and the storage for the address after it. -/
structure Reported where
  ret : Int
  haddr : Bytes

def toInt32 (n : Int) : Int := n.bmod (2 ^ 32)

def toInt64 (n : Int) : Int := n.bmod (2 ^ 64)

/-- `haddr.apply(addr, addrlen)` if the call succeeded. -/
def applyIf (os : Os) (success : Bool) (ret : Int) (haddr : Bytes) (guest : GuestAddr) :
    Except String (Int × GuestAddr) :=
  if success then do
    let guest ← apply os haddr guest
    .ok (ret, guest)
  else .ok (ret, guest)

/-- A null `addrlen` asks for no address. -/
def accept (os : Os) (host : Reported) (addr : Option GuestAddr) :
    Except String (Int × Option GuestAddr) :=
  match addr with
  | none => .ok (host.ret, none)
  | some guest =>
    (applyIf os (host.ret ≥ 0) host.ret host.haddr guest).map fun r => (r.1, some r.2)

/-- `flag` is not used. -/
def accept4 (os : Os) (host : Reported) (addr : Option GuestAddr) (_ : Int) :
    Except String (Int × Option GuestAddr) :=
  accept os host addr

def getsockname (os : Os) (host : Reported) (guest : GuestAddr) :
    Except String (Int × GuestAddr) :=
  applyIf os (host.ret = 0) host.ret host.haddr guest

def getpeername (os : Os) (host : Reported) (guest : GuestAddr) :
    Except String (Int × GuestAddr) :=
  applyIf os (host.ret = 0) host.ret host.haddr guest

/-- A null `addr` asks for no address; with one the host's count goes through an `int`. -/
def recvfrom (os : Os) (flags : BitVec 32) (host : Reported) (addr : Option GuestAddr) :
    Except String (Int × Option GuestAddr) :=
  if flags ≠ 0 ∧ flags ≠ 0x4000 then .error s!"recvfrom with unsupported flags {flags.toInt}"
  else
    match addr with
    | none => .ok (host.ret, none)
    | some guest =>
      let ret := toInt32 host.ret
      (applyIf os (ret ≥ 0) ret host.haddr guest).map fun r => (r.1, some r.2)

/-! ### The loop of `recvmmsg` -/

/-- What `msg_name` points to. -/
structure NameBuffer where
  address : Nat
  bytes : Bytes

/-- `iov` has the bases and the lengths of `msg_iov`, and `data` is what its buffers hold. -/
structure Msghdr where
  name : Option NameBuffer
  namelen : Nat
  iov : List (Nat × Nat)
  data : List UInt8
  controllen : Nat
  flags : Int

structure Mmsghdr where
  hdr : Msghdr
  len : Nat

/-- What one `recvmsg` of the host does; `haddr` is the storage for the address after it, and the
lengths are what it stores into its msghdr. -/
structure Delivery where
  ret : Int
  haddr : Bytes
  namelen : Nat
  data : List UInt8
  controllen : Nat
  flags : Int

structure Turn where
  now : Int
  poll : Int
  recv : Delivery

structure HostRecvFlags where
  dontWait : Bool
  peek : Bool

inductive HostEvent
  | poll (timeout : Int)
  | recv (flags : HostRecvFlags) (d : Delivery)

structure Run where
  result : Except String Int
  vec : List Mmsghdr
  log : List HostEvent

/-- `clock::now() + seconds(tv_sec) + nanoseconds(tv_nsec)`. -/
def deadline (start : Int) (timeout : Int × Int) : Int :=
  toInt64 (toInt64 (start + toInt64 (timeout.1 * 10 ^ 9)) + timeout.2)

def remaining (deadline now : Int) : Int := toInt32 ((toInt64 (deadline - now)).tdiv (10 ^ 6))

/-- The wait before message `i`: the calls of the host, and the result if the loop ends here. -/
def wait (limit : Option Int) (flags : HostRecvFlags) (i : Nat) (turn : Turn) :
    List HostEvent × Option Int :=
  match limit with
  | none => ([], none)
  | some limit =>
    if i > 0 ∧ flags.dontWait = false then
      if turn.now ≥ limit then ([], some (toInt32 i))
      else
        ([.poll (remaining limit turn.now)],
          if turn.poll < 0 then some (if i = 0 then -1 else toInt32 i)
          else if turn.poll = 0 then some (toInt32 i)
          else none)
    else ([], none)

/-- The entry after the message `d` was received into it. -/
def receiveEntry (os : Os) (d : Delivery) (m : Mmsghdr) : Except String Mmsghdr := do
  let (name, namelen) ← match m.hdr.name with
    | none => .ok (none, m.hdr.namelen)
    | some buffer =>
      (apply os d.haddr ⟨buffer.bytes, m.hdr.namelen⟩).map fun g =>
        (some { buffer with bytes := g.bytes }, g.len)
  let hdr := { m.hdr with
    name := name, namelen := namelen, data := d.data, controllen := 0, flags := d.flags }
  .ok ⟨hdr, d.ret.toNat % 2 ^ 32⟩

def recvmmsgLoop (os : Os) (limit : Option Int) (flags : HostRecvFlags) (script : Nat → Turn)
    (i : Nat) : List Mmsghdr → Run
  | [] => ⟨.ok (toInt32 i), [], []⟩
  | m :: rest =>
    let (events, stop) := wait limit flags i (script i)
    match stop with
    | some r => ⟨.ok r, m :: rest, events⟩
    | none =>
      let d := (script i).recv
      let log := events ++ [.recv flags d]
      if d.ret < 0 then ⟨.ok (if i = 0 then -1 else toInt32 i), m :: rest, log⟩
      else
        match receiveEntry os d m with
        | .error e => ⟨.error e, { m with hdr := { m.hdr with data := d.data } } :: rest, log⟩
        | .ok m' =>
          let run := recvmmsgLoop os limit flags script (i + 1) rest
          ⟨run.result, m' :: run.vec, log ++ run.log⟩

/-- The loop runs over the `vlen` entries of `vec`; `start` is the clock at its beginning. -/
def recvmmsg (os : Os) (vec : List Mmsghdr) (flags : BitVec 32) (timeout : Option (Int × Int))
    (start : Int) (script : Nat → Turn) : Run :=
  if flags &&& ~~~0x4002#32 ≠ 0 then
    ⟨.error s!"recvmmsg with unsupported flags {flags.toInt}", vec, []⟩
  else
    recvmmsgLoop os (timeout.map (deadline start))
      ⟨flags &&& 0x4000#32 != 0, flags &&& 2#32 != 0⟩ script 0 vec

def handed (log : List HostEvent) : List Delivery :=
  log.filterMap fun
    | .recv _ d => if 0 ≤ d.ret then some d else none
    | .poll _ => none

theorem handed_append (log log' : List HostEvent) :
    handed (log ++ log') = handed log ++ handed log' := List.filterMap_append

theorem handed_recv {flags : HostRecvFlags} {d : Delivery} (h : 0 ≤ d.ret) :
    handed [.recv flags d] = [d] := by
  simp [handed, h]

theorem handed_fail {flags : HostRecvFlags} {d : Delivery} (h : d.ret < 0) :
    handed [.recv flags d] = [] := by
  simp [handed, Int.not_le.mpr h]

section Success

variable {os : Os}

theorem toInt32_eq {n : Int} (hLow : 0 ≤ n) (hHigh : n < 2 ^ 31) : toInt32 n = n := by
  unfold toInt32
  rw [Int.bmod_eq_of_le] <;> omega

/-- A success `n` of the host is reported to the guest when `fits`, and is refused otherwise. -/
def ReportsIf {α : Type} (fits : Prop) (n : Int) (r : Except String (Int × α)) : Prop :=
  (fits → ∃ a, r = .ok (n, a)) ∧ (¬fits → ∃ e, r = .error e)

def EntryFits (os : Os) (d : Delivery) (m : Mmsghdr) : Prop :=
  m.hdr.name.isSome → Fits os d.haddr m.hdr.namelen

def AllFit (os : Os) (vec : List Mmsghdr) (messages : List Delivery) : Prop :=
  ∀ (j : Nat) (m : Mmsghdr) (d : Delivery), vec[j]? = some m → messages[j]? = some d →
    EntryFits os d m

theorem apply_error {haddr : Bytes} {g : GuestAddr} (h : ¬Fits os haddr g.len) :
    ∃ e, apply os haddr g = .error e := by
  cases hApply : apply os haddr g with
  | error e => exact ⟨e, rfl⟩
  | ok g' => exact absurd (apply_ok.mp ⟨g', hApply⟩) h

theorem applyIf_reports {ret : Int} {haddr : Bytes} {guest : GuestAddr} :
    ReportsIf (Fits os haddr guest.len) ret (applyIf os true ret haddr guest) := by
  constructor
  · intro hFits
    obtain ⟨guest', hApply⟩ := apply_ok.mpr hFits
    rw [applyIf, if_pos rfl]
    exact ⟨guest', bind_ok.mpr ⟨guest', hApply, rfl⟩⟩
  · intro hFits
    obtain ⟨e, hApply⟩ := apply_error hFits
    rw [applyIf, if_pos rfl, hApply]
    exact ⟨e, rfl⟩

theorem ReportsIf.map {α β : Type} {fits : Prop} {n : Int} {r : Except String (Int × α)}
    (f : α → β) (h : ReportsIf fits n r) :
    ReportsIf fits n (r.map fun r => (r.1, f r.2)) := by
  constructor
  · intro hFits
    obtain ⟨a, rfl⟩ := h.1 hFits
    exact ⟨f a, rfl⟩
  · intro hFits
    obtain ⟨e, rfl⟩ := h.2 hFits
    exact ⟨e, rfl⟩

/-- After a success of the host, what is left to do is the translation of the address. -/
theorem accept_eq {host : Reported} {guest : GuestAddr} (hRet : 0 ≤ host.ret) :
    accept os host (some guest) =
      (applyIf os true host.ret host.haddr guest).map fun r => (r.1, some r.2) := by
  have hSuccess : decide (host.ret ≥ 0) = true := decide_eq_true hRet
  simp only [accept, hSuccess]

theorem recvfrom_eq {flags : BitVec 32} {host : Reported} {guest : GuestAddr}
    (hFlags : flags = 0 ∨ flags = 0x4000) (hRet : 0 ≤ host.ret) (hInt : host.ret < 2 ^ 31) :
    recvfrom os flags host (some guest) =
      (applyIf os true host.ret host.haddr guest).map fun r => (r.1, some r.2) := by
  have hSupported : ¬(flags ≠ 0 ∧ flags ≠ 0x4000) := by
    rcases hFlags with rfl | rfl <;> simp
  have hSuccess : decide (host.ret ≥ 0) = true := decide_eq_true hRet
  simp only [recvfrom, if_neg hSupported, toInt32_eq hRet hInt, hSuccess]

theorem accept_reports {host : Reported} {guest : GuestAddr} (hRet : 0 ≤ host.ret) :
    ReportsIf (Fits os host.haddr guest.len) host.ret (accept os host (some guest)) := by
  rw [accept_eq hRet]
  exact applyIf_reports.map some

theorem recvfrom_reports {flags : BitVec 32} {host : Reported} {guest : GuestAddr}
    (hFlags : flags = 0 ∨ flags = 0x4000) (hRet : 0 ≤ host.ret) (hInt : host.ret < 2 ^ 31) :
    ReportsIf (Fits os host.haddr guest.len) host.ret (recvfrom os flags host (some guest)) := by
  rw [recvfrom_eq hFlags hRet hInt]
  exact applyIf_reports.map some

theorem receiveEntry_reports {d : Delivery} {m : Mmsghdr} :
    (EntryFits os d m → ∃ m', receiveEntry os d m = .ok m') ∧
      (¬EntryFits os d m → ∃ e, receiveEntry os d m = .error e) := by
  unfold receiveEntry EntryFits
  cases m.hdr.name with
  | none => exact ⟨fun _ => ⟨_, rfl⟩, fun h => absurd nofun h⟩
  | some buffer =>
    constructor
    · intro h
      obtain ⟨guest, hApply⟩ :=
        (apply_ok (g := ⟨buffer.bytes, m.hdr.namelen⟩)).mpr (h rfl)
      exact ⟨_, bind_ok.mpr ⟨_, map_ok.mpr ⟨guest, hApply, rfl⟩, rfl⟩⟩
    · intro h
      obtain ⟨e, hApply⟩ :=
        apply_error (g := ⟨buffer.bytes, m.hdr.namelen⟩) fun hFits => h fun _ => hFits
      exact ⟨e, by simp only [hApply]; rfl⟩

theorem wait_events {limit : Option Int} {flags : HostRecvFlags} {i : Nat} {turn : Turn} :
    handed (wait limit flags i turn).1 = [] := by
  unfold wait
  cases limit with
  | none => rfl
  | some limit =>
    dsimp only
    split
    · split <;> rfl
    · rfl

theorem wait_stop {limit : Option Int} {flags : HostRecvFlags} {i : Nat} {turn : Turn} {r : Int}
    (h : (wait limit flags i turn).2 = some r) : r = toInt32 i := by
  unfold wait at h
  cases limit with
  | none => cases h
  | some limit =>
    dsimp only at h
    split at h
    · rename_i hWait
      have hLater : i ≠ 0 := by omega
      split at h
      · exact (Option.some.inj h).symm
      · split at h
        · exact (Option.some.inj h).symm
        · split at h
          · exact (Option.some.inj h).symm
          · cases h
    · cases h

theorem AllFit.cons {m : Mmsghdr} {rest : List Mmsghdr} {d : Delivery} {messages : List Delivery} :
    AllFit os (m :: rest) (d :: messages) ↔ EntryFits os d m ∧ AllFit os rest messages := by
  constructor
  · intro h
    exact ⟨h 0 m d rfl rfl, fun j => h (j + 1)⟩
  · rintro ⟨hHead, hTail⟩ j m' d' hm hd
    cases j with
    | zero =>
      obtain rfl := Option.some.inj hm
      obtain rfl := Option.some.inj hd
      exact hHead
    | succ j => exact hTail j m' d' hm hd

/-- The turns of the loop from entry `i` on, as far as the guest and the messages are concerned. -/
inductive Turns (os : Os) : Nat → List Mmsghdr → Run → Prop
  | done (i : Nat) : Turns os i [] ⟨.ok (toInt32 i), [], []⟩
  | stop (i : Nat) (m : Mmsghdr) (rest : List Mmsghdr) (r : Int) (log : List HostEvent)
    (hLog : handed log = []) (hr : 0 < i → r = toInt32 i) :
    Turns os i (m :: rest) ⟨.ok r, m :: rest, log⟩
  | refuse (i : Nat) (m m' : Mmsghdr) (rest : List Mmsghdr) (d : Delivery) (e : String)
    (log : List HostEvent) (hLog : handed log = [d]) (hEntry : receiveEntry os d m = .error e) :
    Turns os i (m :: rest) ⟨.error e, m' :: rest, log⟩
  | message (i : Nat) (m m' : Mmsghdr) (rest : List Mmsghdr) (d : Delivery) (run : Run)
    (log : List HostEvent) (hLog : handed log = [d]) (hEntry : receiveEntry os d m = .ok m')
    (hRest : Turns os (i + 1) rest run) :
    Turns os i (m :: rest) ⟨run.result, m' :: run.vec, log ++ run.log⟩

theorem recvmmsgLoop_turns {limit : Option Int} {flags : HostRecvFlags} {script : Nat → Turn}
    {vec : List Mmsghdr} {i : Nat} :
    Turns os i vec (recvmmsgLoop os limit flags script i vec) := by
  induction vec generalizing i with
  | nil => exact .done i
  | cons m rest ih =>
    have hEvents : handed (wait limit flags i (script i)).1 = [] := wait_events
    rw [recvmmsgLoop]
    dsimp only
    split
    · rename_i r hStop
      exact .stop i m rest r _ hEvents fun _ => wait_stop hStop
    · split
      · rename_i hFail
        refine .stop i m rest _ _ ?_ fun hi => if_neg (by omega)
        rw [handed_append, hEvents, handed_fail hFail, List.nil_append]
      · rename_i hRet
        have hLog : handed ((wait limit flags i (script i)).1 ++ [.recv flags (script i).recv]) =
            [(script i).recv] := by
          rw [handed_append, hEvents, handed_recv (by omega), List.nil_append]
        split
        · rename_i e hEntry
          exact .refuse i m _ rest _ e _ hLog hEntry
        · rename_i m' hEntry
          exact .message i m m' rest _ _ _ hLog hEntry ih

/-- The loop from entry `i` on counts the messages before it and those that it was handed, or stops
at one that does not fit. -/
theorem Turns.reports {vec : List Mmsghdr} {i : Nat} {run : Run} (h : Turns os i vec run) :
    (AllFit os vec (handed run.log) → 0 < i + (handed run.log).length →
      run.result = .ok (toInt32 ↑(i + (handed run.log).length))) ∧
    (¬AllFit os vec (handed run.log) → ∃ e, run.result = .error e) := by
  have hNone : ∀ vec : List Mmsghdr, AllFit os vec [] := by
    intro vec j m d _ hd
    cases hd
  induction h with
  | done i => exact ⟨fun _ _ => rfl, fun h => absurd (hNone []) h⟩
  | stop i m rest r log hLog hr =>
    rw [hLog]
    exact ⟨fun _ hi => congrArg Except.ok (hr hi), fun h => absurd (hNone _) h⟩
  | refuse i m m' rest d e log hLog hEntry =>
    rw [hLog]
    refine ⟨fun hFit => ?_, fun _ => ⟨e, rfl⟩⟩
    obtain ⟨m'', hOk⟩ := receiveEntry_reports.1 (AllFit.cons.mp hFit).1
    cases hEntry.symm.trans hOk
  | message i m m' rest d run log hLog hEntry hRest ih =>
    have hFits : EntryFits os d m := by
      by_contra hMisfit
      obtain ⟨e, hError⟩ := receiveEntry_reports.2 hMisfit
      cases hEntry.symm.trans hError
    have hMessages : handed (log ++ run.log) = d :: handed run.log := by
      rw [handed_append, hLog]
      rfl
    rw [hMessages, AllFit.cons, List.length_cons]
    constructor
    · rintro ⟨-, hTail⟩ -
      have hCount := ih.1 hTail (by omega)
      rwa [show i + 1 + (handed run.log).length = i + ((handed run.log).length + 1) by omega]
        at hCount
    · intro hMisfit
      exact ih.2 fun hTail => hMisfit ⟨hFits, hTail⟩

theorem Turns.length_le {vec : List Mmsghdr} {i : Nat} {run : Run} (h : Turns os i vec run) :
    (handed run.log).length ≤ vec.length := by
  induction h with
  | done i => exact Nat.le_refl 0
  | stop i m rest r log hLog hr => simp [hLog]
  | refuse i m m' rest d e log hLog hEntry => simp [hLog]
  | message i m m' rest d run log hLog hEntry hRest ih =>
    rw [handed_append, hLog, List.length_append, List.length_cons, List.length_cons,
      List.length_nil]
    omega

/-- What the guest learns of a success of the host.  An address of the family `AF_UNSPEC` and a
count beyond the `int`s are left open. -/
structure SuccessReported (os : Os) : Prop where
  accept : ∀ (host : Reported) (guest : GuestAddr), 0 ≤ host.ret →
    hostFamily os host.haddr ≠ AfFamily.unspec.host os →
    ReportsIf (Fits os host.haddr guest.len) host.ret (accept os host (some guest))
  accept4 : ∀ (host : Reported) (guest : GuestAddr) (flag : Int), 0 ≤ host.ret →
    hostFamily os host.haddr ≠ AfFamily.unspec.host os →
    ReportsIf (Fits os host.haddr guest.len) host.ret (accept4 os host (some guest) flag)
  recvfrom : ∀ (flags : BitVec 32) (host : Reported) (guest : GuestAddr),
    flags = 0 ∨ flags = 0x4000 → 0 ≤ host.ret → host.ret < 2 ^ 31 →
    hostFamily os host.haddr ≠ AfFamily.unspec.host os →
    ReportsIf (Fits os host.haddr guest.len) host.ret (recvfrom os flags host (some guest))
  recvmmsg : ∀ (vec : List Mmsghdr) (flags : BitVec 32) (timeout : Option (Int × Int))
    (start : Int) (script : Nat → Turn) (run : Run), vec.length < 2 ^ 31 →
    recvmmsg os vec flags timeout start script = run → handed run.log ≠ [] →
    (∀ (j : Nat) (m : Mmsghdr) (d : Delivery), vec[j]? = some m →
      (handed run.log)[j]? = some d → m.hdr.name.isSome →
      hostFamily os d.haddr ≠ AfFamily.unspec.host os) →
    (AllFit os vec (handed run.log) → run.result = .ok (handed run.log).length) ∧
      (¬AllFit os vec (handed run.log) → ∃ e, run.result = .error e)

/-- A success of the host is reported exactly when the address it reports, or each one that it
reports with a message, fits the guest's buffer. -/
theorem success_reported (os : Os) : SuccessReported os where
  accept _ _ hRet _ := accept_reports hRet
  accept4 _ _ _ hRet _ := accept_reports hRet
  recvfrom _ _ _ hFlags hRet hInt _ := recvfrom_reports hFlags hRet hInt
  recvmmsg := by
    intro vec flags timeout start script run hLength hRun hHanded _
    rw [recvmmsg] at hRun
    split at hRun
    · subst hRun
      exact absurd rfl hHanded
    · have hTurns : Turns os 0 vec run := hRun ▸ recvmmsgLoop_turns
      have hCount : 0 < (handed run.log).length := List.length_pos_iff.mpr hHanded
      have hBound := hTurns.length_le
      have hReports := hTurns.reports
      rw [Nat.zero_add, toInt32_eq (by omega) (by omega)] at hReports
      exact ⟨fun hFit => hReports.1 hFit hCount, hReports.2⟩

end Success

/-! ### On Linux -/

def inetAny : Bytes := Bytes.zero.store8 0 2

/-- A connection whose peer does not fit an 8 byte buffer, a message of 5 bytes without an address,
as from a connected stream socket, and one of 2 GiB. -/
theorem success_lost :
    ¬ (∀ (os : Os) (host : Reported) (guest : GuestAddr), 0 ≤ host.ret →
        ∃ g, accept os host (some guest) = .ok (host.ret, g)) ∧
    ¬ (∀ (os : Os) (host : Reported) (guest : GuestAddr), 0 ≤ host.ret →
        ∃ g, recvfrom os 0 host (some guest) = .ok (host.ret, g)) ∧
    ¬ (∀ (os : Os) (host : Reported) (guest : GuestAddr), 0 ≤ host.ret →
        Fits os host.haddr guest.len →
        ∃ g, recvfrom os 0 host (some guest) = .ok (host.ret, g)) := by
  refine ⟨?_, ?_, ?_⟩
  · intro hClaim
    obtain ⟨g, h⟩ := hClaim .linux ⟨7, inetAny⟩ ⟨Bytes.zero, 8⟩ (by decide)
    cases h
  · intro hClaim
    obtain ⟨g, h⟩ := hClaim .linux ⟨5, Bytes.zero⟩ ⟨Bytes.zero, 128⟩ (by decide)
    cases h
  · intro hClaim
    have hFits : Fits .linux inetAny 128 := ⟨.inet, 16, rfl, rfl, by decide⟩
    obtain ⟨g, h⟩ := hClaim .linux ⟨2 ^ 31, inetAny⟩ ⟨Bytes.zero, 128⟩ (by decide) hFits
    cases h

end LibcShim.Network
