import LibcShim.Kit.Prefix
import LibcShim.Network.Receive

/-! `recvmmsg` reports an exact prefix: the messages that it took from the host are the ones that
its result counts, and each is in its entry. -/

namespace LibcShim.Network

open Kit

/-- Every `recvmsg` of the host that was made, whether it failed or not. -/
def attempts (log : List HostEvent) : List Delivery :=
  log.filterMap fun
    | .recv _ d => some d
    | .poll _ => none

theorem attempts_append (log log' : List HostEvent) :
    attempts (log ++ log') = attempts log ++ attempts log' := List.filterMap_append

/-- The turn of entry `i` takes no message: the host fails, or past the first entry the deadline is
over, or the wait fails or ends without a message. -/
def Stops (limit : Option Int) (dontWait : Bool) (i : Nat) (turn : Turn) : Prop :=
  turn.recv.ret < 0 ∨ 0 < i ∧ dontWait = false ∧
    ∃ deadline, limit = some deadline ∧ (deadline ≤ turn.now ∨ turn.poll ≤ 0)

/-- The entry `m'` holds the message `d`, received into the entry `m`. -/
structure HoldsMessage (os : Os) (d : Delivery) (m m' : Mmsghdr) : Prop where
  len : m'.len = d.ret
  flags : m'.hdr.flags = d.flags
  data : m'.hdr.data = d.data
  controllen : m'.hdr.controllen = 0
  iov : m'.hdr.iov = m.hdr.iov
  unnamed : m.hdr.name = none → m'.hdr.name = none ∧ m'.hdr.namelen = m.hdr.namelen
  named : ∀ buffer, m.hdr.name = some buffer → ∃ bytes,
    m'.hdr.name = some ⟨buffer.address, bytes⟩ ∧
    TranslatedAddr os d.haddr buffer.bytes bytes m'.hdr.namelen

section Entries

variable {os : Os} {d : Delivery} {m m' : Mmsghdr}

theorem receiveEntry_holds (hRet : 0 ≤ d.ret) (hCount : d.ret < 2 ^ 31)
    (h : receiveEntry os d m = .ok m') : HoldsMessage os d m m' := by
  have hLen : ((d.ret.toNat % 2 ^ 32 : Nat) : Int) = d.ret := by omega
  unfold receiveEntry at h
  cases hName : m.hdr.name with
  | none =>
    simp only [hName] at h
    obtain rfl := Except.ok.inj h
    refine ⟨hLen, rfl, rfl, rfl, rfl, fun _ => ⟨rfl, rfl⟩, fun buffer hSome => ?_⟩
    rw [hName] at hSome
    cases hSome
  | some buffer =>
    simp only [hName] at h
    obtain ⟨filled, hFilled, h⟩ := bind_ok.mp h
    obtain ⟨g, hApply, rfl⟩ := map_ok.mp hFilled
    obtain rfl := Except.ok.inj h
    refine ⟨hLen, rfl, rfl, rfl, rfl, fun hNone => ?_, fun b hb => ?_⟩
    · rw [hName] at hNone
      cases hNone
    · obtain rfl : buffer = b := Option.some.inj (hName.symm.trans hb)
      exact ⟨g.bytes, rfl, apply_translated hApply⟩

end Entries

section Loop

variable {os : Os} {limit : Option Int} {flags : HostRecvFlags} {script : Nat → Turn}
  {vec : List Mmsghdr} {i : Nat} {run : Run}

/-- The entries of a loop that fits are those of `receiveEntry`, message by message. -/
theorem Turns.exactPrefix (h : Turns os i vec run) (hFit : AllFit os vec (handed run.log)) :
    ExactPrefix (fun d m m' => receiveEntry os d m = .ok m') (handed run.log) vec run.vec := by
  induction h with
  | done i => exact .nothing _ []
  | stop i m rest r log hLog hr =>
    rw [hLog]
    exact .nothing _ _
  | refuse i m m' rest d e log hLog hEntry =>
    rw [hLog] at hFit
    obtain ⟨m'', hOk⟩ := receiveEntry_reports.1 (AllFit.cons.mp hFit).1
    cases hEntry.symm.trans hOk
  | message i m m' rest d run log hLog hEntry hRest ih =>
    have hMessages : handed (log ++ run.log) = d :: handed run.log := by
      rw [handed_append, hLog]
      rfl
    rw [hMessages] at hFit ⊢
    exact (ih (AllFit.cons.mp hFit).2).cons hEntry

theorem Turns.holdsMessages (h : Turns os i vec run) (hFit : AllFit os vec (handed run.log))
    (hCounts : ∀ d ∈ handed run.log, 0 ≤ d.ret ∧ d.ret < 2 ^ 31) :
    ExactPrefix (HoldsMessage os) (handed run.log) vec run.vec :=
  (h.exactPrefix hFit).mono fun d hd _ _ hEntry =>
    receiveEntry_holds (hCounts d hd).1 (hCounts d hd).2 hEntry

/-- Before the first entry nothing is waited for. -/
theorem wait_first {turn : Turn} : wait limit flags 0 turn = ([], none) := by
  unfold wait
  cases limit <;> rfl

theorem wait_attempts {turn : Turn} : attempts (wait limit flags i turn).1 = [] := by
  unfold wait
  cases limit with
  | none => rfl
  | some limit =>
    dsimp only
    split
    · split <;> rfl
    · rfl

/-- The loop makes its calls of `recvmsg` in the order of its turns. -/
theorem attempts_cons (os : Os) (limit : Option Int) (flags : HostRecvFlags)
    (script : Nat → Turn) (i : Nat) (m : Mmsghdr) (rest : List Mmsghdr) :
    attempts (recvmmsgLoop os limit flags script i (m :: rest)).log = [] ∨
    ∃ later, attempts (recvmmsgLoop os limit flags script i (m :: rest)).log =
        (script i).recv :: later ∧
      (later = [] ∨ later = attempts (recvmmsgLoop os limit flags script (i + 1) rest).log) := by
  have hRecv : attempts ((wait limit flags i (script i)).1 ++ [.recv flags (script i).recv]) =
      [(script i).recv] := by
    rw [attempts_append, wait_attempts]
    rfl
  rw [recvmmsgLoop]
  dsimp only
  split
  · exact Or.inl wait_attempts
  · split
    · exact Or.inr ⟨[], hRecv, Or.inl rfl⟩
    · split
      · exact Or.inr ⟨[], hRecv, Or.inl rfl⟩
      · refine Or.inr ⟨_, ?_, Or.inr rfl⟩
        rw [attempts_append, hRecv]
        rfl

/-- No turn after one whose clock reading is at or past the deadline receives anything, nor does
that turn. -/
theorem attempts_deadline {deadline : Int} {k : Nat} (hWait : flags.dontWait = false)
    (hPast : deadline ≤ (script k).now) (hk : 0 < k) (hik : i ≤ k) :
    (attempts (recvmmsgLoop os (some deadline) flags script i vec).log).length ≤ k - i := by
  induction vec generalizing i with
  | nil => exact Nat.zero_le _
  | cons m rest ih =>
    by_cases hi : i = k
    · subst hi
      have hStop : wait (some deadline) flags i (script i) = ([], some (toInt32 i)) := by
        simp [wait, hk, hWait, hPast]
      rw [recvmmsgLoop]
      simp [hStop, attempts]
    · have hRest := ih (i := i + 1) (by omega)
      rcases attempts_cons os (some deadline) flags script i m rest with
        hNone | ⟨later, hLater, rfl | rfl⟩
      · simp [hNone]
      · rw [hLater]
        simp only [List.length_singleton]
        omega
      · rw [hLater, List.length_cons]
        omega

theorem recvmmsgLoop_first_fail {m : Mmsghdr} {rest : List Mmsghdr}
    (h : (script 0).recv.ret < 0) :
    recvmmsgLoop os limit flags script 0 (m :: rest) =
      ⟨.ok (-1), m :: rest, [.recv flags (script 0).recv]⟩ := by
  simp [recvmmsgLoop, wait_first, h]

theorem handed_first {m : Mmsghdr} {rest : List Mmsghdr} (h : 0 ≤ (script 0).recv.ret) :
    handed (recvmmsgLoop os limit flags script 0 (m :: rest)).log ≠ [] := by
  rw [recvmmsgLoop]
  simp only [wait_first, List.nil_append, Int.not_lt.mpr h, if_false]
  split
  · simp [handed_recv h]
  · simp [handed, h]

theorem handed_mem {d : Delivery} (h : d ∈ handed (recvmmsgLoop os limit flags script i vec).log) :
    0 ≤ d.ret ∧ ∃ k, d = (script k).recv := by
  induction vec generalizing i with
  | nil => cases h
  | cons m rest ih =>
    have hEvents : handed (wait limit flags i (script i)).1 = [] := wait_events
    rw [recvmmsgLoop] at h
    dsimp only at h
    split at h
    · simp [hEvents] at h
    · split at h
      · rename_i hFail
        simp [handed_append, hEvents, handed_fail hFail] at h
      · rename_i hRet
        have hTurn : handed ((wait limit flags i (script i)).1 ++ [.recv flags (script i).recv]) =
            [(script i).recv] := by
          rw [handed_append, hEvents, handed_recv (by omega), List.nil_append]
        split at h
        · rw [hTurn, List.mem_singleton] at h
          exact ⟨h ▸ Int.not_lt.mp hRet, i, h⟩
        · rw [handed_append, hTurn, List.singleton_append, List.mem_cons] at h
          rcases h with rfl | h
          · exact ⟨Int.not_lt.mp hRet, i, rfl⟩
          · exact ih h

end Loop

/-- The deadline does not wrap around where the sum of its three parts fits. -/
theorem deadline_eq {start : Int} {timeout : Int × Int}
    (hLow : -2 ^ 63 ≤ start + timeout.1 * 10 ^ 9 + timeout.2)
    (hHigh : start + timeout.1 * 10 ^ 9 + timeout.2 < 2 ^ 63) :
    deadline start timeout = start + timeout.1 * 10 ^ 9 + timeout.2 := by
  unfold deadline toInt64
  rw [Int.add_bmod_bmod, Int.bmod_add_bmod]
  rw [Int.bmod_eq_of_le] <;> omega

/-- The loop from entry `i` on makes its calls of `recvmsg` in the order of the script, and comes to
the first turn that takes no message. -/
structure Orderly (limit : Option Int) (flags : HostRecvFlags) (script : Nat → Turn) (i : Nat)
    (vec : List Mmsghdr) (run : Run) : Prop where
  asked : ∀ (j : Nat) (d : Delivery), (attempts run.log)[j]? = some d → d = (script (i + j)).recv
  took : ∀ j < (handed run.log).length, ¬Stops limit flags.dontWait (i + j) (script (i + j))
  stopped : (handed run.log).length < vec.length → Stops limit flags.dontWait
    (i + (handed run.log).length) (script (i + (handed run.log).length))
  tried : (attempts run.log).length ≤ (handed run.log).length + 1

section Order

variable {os : Os} {limit : Option Int} {flags : HostRecvFlags} {script : Nat → Turn}
  {vec rest : List Mmsghdr} {m m' : Mmsghdr} {i : Nat} {run : Run} {events : List HostEvent}
  {d : Delivery}

/-- The wait goes on to the call of `recvmsg` exactly when it is not what ends the loop. -/
theorem wait_goes_on {turn : Turn} (hRet : 0 ≤ turn.recv.ret) :
    (wait limit flags i turn).2 = none ↔ ¬Stops limit flags.dontWait i turn := by
  have hHost : ¬turn.recv.ret < 0 := Int.not_lt.mpr hRet
  unfold wait Stops
  cases limit with
  | none => simp [hHost]
  | some deadline =>
    dsimp only
    by_cases hWaits : i > 0 ∧ flags.dontWait = false
    · obtain ⟨hLater, hWaiting⟩ := hWaits
      by_cases hPast : turn.now ≥ deadline
      · simp [hHost, hLater, hWaiting, hPast]
      · by_cases hFail : turn.poll < 0
        · simp [hHost, hLater, hWaiting, hPast, hFail, Int.le_of_lt hFail]
        · by_cases hEmpty : turn.poll = 0
          · simp [hHost, hLater, hWaiting, hPast, hEmpty]
          · have hReady : ¬turn.poll ≤ 0 := by omega
            simp [hHost, hLater, hWaiting, hPast, hFail, hEmpty, hReady]
    · have hNot : ¬(0 < i ∧ flags.dontWait = false ∧ ∃ l, some deadline = some l ∧
          (l ≤ turn.now ∨ turn.poll ≤ 0)) := fun h => hWaits ⟨h.1, h.2.1⟩
      simp only [if_neg hWaits, hHost, hNot, or_self, not_false_eq_true]

/-- A loop that ends at entry `i`. -/
theorem Orderly.stop (hNone : handed events = [])
    (hAsked : attempts events = [] ∨ attempts events = [(script i).recv])
    (hStops : Stops limit flags.dontWait i (script i)) {result : Except String Int} :
    Orderly limit flags script i (m :: rest) ⟨result, m :: rest, events⟩ := by
  refine ⟨fun j d hd => ?_, ?_, fun _ => ?_, ?_⟩
  · rcases hAsked with hNot | hOnce
    · rw [hNot] at hd
      cases hd
    · rw [hOnce] at hd
      cases j with
      | zero => exact (Option.some.inj hd).symm
      | succ j => cases hd
  · intro j hj
    rw [hNone] at hj
    cases hj
  · rw [hNone]
    exact hStops
  · rcases hAsked with hNot | hOnce
    · simp [hNot]
    · simp [hOnce]

/-- A turn that takes a message, before a loop from the next entry on. -/
theorem Orderly.message (hTaken : handed events = [(script i).recv])
    (hAsked : attempts events = [(script i).recv])
    (hTook : ¬Stops limit flags.dontWait i (script i))
    (hRest : Orderly limit flags script (i + 1) rest run) :
    Orderly limit flags script i (m :: rest) ⟨run.result, m' :: run.vec, events ++ run.log⟩ := by
  have hShift : ∀ j, i + (j + 1) = i + 1 + j := fun j => by omega
  have hHanded : handed (events ++ run.log) = (script i).recv :: handed run.log := by
    rw [handed_append, hTaken]
    rfl
  have hAttempts : attempts (events ++ run.log) = (script i).recv :: attempts run.log := by
    rw [attempts_append, hAsked]
    rfl
  refine ⟨fun j d hd => ?_, fun j hj => ?_, fun hLess => ?_, ?_⟩
  · rw [hAttempts] at hd
    cases j with
    | zero => exact (Option.some.inj hd).symm
    | succ j =>
      rw [hShift]
      exact hRest.asked j d hd
  · rw [hHanded] at hj
    cases j with
    | zero => exact hTook
    | succ j =>
      rw [hShift]
      exact hRest.took j (Nat.lt_of_succ_lt_succ hj)
  · rw [hHanded] at hLess ⊢
    rw [List.length_cons, hShift]
    exact hRest.stopped (Nat.lt_of_succ_lt_succ hLess)
  · rw [hHanded, hAttempts]
    exact Nat.succ_le_succ hRest.tried

theorem recvmmsgLoop_orderly
    (hFit : AllFit os vec (handed (recvmmsgLoop os limit flags script i vec).log)) :
    Orderly limit flags script i vec (recvmmsgLoop os limit flags script i vec) := by
  induction vec generalizing i with
  | nil => exact ⟨nofun, nofun, nofun, Nat.zero_le _⟩
  | cons m rest ih =>
    have hEvents : handed (wait limit flags i (script i)).1 = [] := wait_events
    have hAsked : attempts ((wait limit flags i (script i)).1 ++ [.recv flags (script i).recv]) =
        [(script i).recv] := by
      rw [attempts_append, wait_attempts]
      rfl
    rw [recvmmsgLoop] at hFit ⊢
    dsimp only at hFit ⊢
    by_cases hRet : (script i).recv.ret < 0
    · -- Whether the loop comes to the call or not, its failure ends the loop.
      split
      · exact .stop hEvents (Or.inl wait_attempts) (Or.inl hRet)
      · rw [if_pos hRet]
        refine .stop ?_ (Or.inr hAsked) (Or.inl hRet)
        rw [handed_append, hEvents, handed_fail hRet, List.nil_append]
    · have hGoes : (wait limit flags i (script i)).2 = none ↔
          ¬Stops limit flags.dontWait i (script i) := wait_goes_on (Int.not_lt.mp hRet)
      have hTaken : handed ((wait limit flags i (script i)).1 ++
          [.recv flags (script i).recv]) = [(script i).recv] := by
        rw [handed_append, hEvents, handed_recv (Int.not_lt.mp hRet), List.nil_append]
      split at hFit
      · rename_i r hStop
        refine .stop hEvents (Or.inl wait_attempts) (not_not.mp fun hTook => ?_)
        rw [hGoes.mpr hTook] at hStop
        cases hStop
      · rename_i hNone
        rw [if_neg hRet] at hFit ⊢
        split at hFit
        · rename_i e hEntry
          rw [hTaken] at hFit
          obtain ⟨m', hOk⟩ := receiveEntry_reports.1 (AllFit.cons.mp hFit).1
          cases hEntry.symm.trans hOk
        · rename_i m' hEntry
          rw [handed_append, hTaken] at hFit
          exact .message hTaken hAsked (hGoes.mp hNone) (ih (AllFit.cons.mp hFit).2)

end Order

/-- What the guest and the host know of each other after `recvmmsg`, on a host that acts by
`script`. -/
structure ExactReport (os : Os) (vec : List Mmsghdr) (flags : BitVec 32)
    (timeout : Option (Int × Int)) (start : Int) (script : Nat → Turn) (run : Run) : Prop where
  asked : ∀ (j : Nat) (d : Delivery), (attempts run.log)[j]? = some d → d = (script j).recv
  returns : ∃ r : Int, -1 ≤ r ∧ run.result = .ok r
  reported : ∀ k : Nat, run.result = .ok k → (handed run.log).length = k ∧
    ExactPrefix (HoldsMessage os) (handed run.log) vec run.vec
  /-- The result is the number of the first turn that takes no message, or that of the entries. -/
  ends : ∀ k : Nat, run.result = .ok k →
    (∀ j < k, ¬Stops (timeout.map (deadline start)) (flags &&& 0x4000#32 != 0) j (script j)) ∧
    (k < vec.length →
      Stops (timeout.map (deadline start)) (flags &&& 0x4000#32 != 0) k (script k)) ∧
    (attempts run.log).length ≤ k + 1
  failed : run.result = .ok (-1) ↔ vec ≠ [] ∧ (script 0).recv.ret < 0
  untouched : run.result = .ok (-1) → handed run.log = [] ∧ run.vec = vec
  empty : vec = [] → run.result = .ok 0 ∧ attempts run.log = []
  expired : ∀ limit k, timeout.map (deadline start) = some limit → flags &&& 0x4000#32 = 0 →
    0 < k → limit ≤ (script k).now → (attempts run.log).length ≤ k

section Report

variable {os : Os} {vec : List Mmsghdr} {flags : BitVec 32} {timeout : Option (Int × Int)}
  {start : Int} {script : Nat → Turn} {run : Run}

/-- `hCounts` is the host's promise: it refuses buffers of more than `INT_MAX` bytes, or moves no
more at once. -/
theorem recvmmsg_exact_prefix (hVlen : vec.length < 2 ^ 31) (hFlags : flags &&& ~~~0x4002#32 = 0)
    (hRun : recvmmsg os vec flags timeout start script = run)
    (hFit : AllFit os vec (handed run.log)) (hCounts : ∀ i, (script i).recv.ret < 2 ^ 31) :
    ExactReport os vec flags timeout start script run := by
  rw [recvmmsg, if_neg (not_not_intro hFlags)] at hRun
  have hTurns : Turns os 0 vec run := hRun ▸ recvmmsgLoop_turns
  have hPrefix : ExactPrefix (HoldsMessage os) (handed run.log) vec run.vec := by
    refine hTurns.holdsMessages hFit fun d hd => ?_
    rw [← hRun] at hd
    obtain ⟨hRet, k, rfl⟩ := handed_mem hd
    exact ⟨hRet, hCounts k⟩
  have hOrderly : Orderly (timeout.map (deadline start)) ⟨flags &&& 0x4000#32 != 0,
      flags &&& 2#32 != 0⟩ script 0 vec run := by
    subst hRun
    exact recvmmsgLoop_orderly hFit
  have hAsked : ∀ (j : Nat) (d : Delivery), (attempts run.log)[j]? = some d →
      d = (script j).recv := by
    intro j d hd
    rw [← Nat.zero_add j]
    exact hOrderly.asked j d hd
  have hEnds : ∀ k : Nat, (handed run.log).length = k →
      (∀ j < k, ¬Stops (timeout.map (deadline start)) (flags &&& 0x4000#32 != 0) j (script j)) ∧
      (k < vec.length →
        Stops (timeout.map (deadline start)) (flags &&& 0x4000#32 != 0) k (script k)) ∧
      (attempts run.log).length ≤ k + 1 := by
    rintro k rfl
    refine ⟨fun j hj => ?_, fun hLess => ?_, hOrderly.tried⟩
    · rw [← Nat.zero_add j]
      exact hOrderly.took j hj
    · rw [← Nat.zero_add (handed run.log).length]
      exact hOrderly.stopped hLess
  have hExpired : ∀ limit k, timeout.map (deadline start) = some limit →
      flags &&& 0x4000#32 = 0 → 0 < k → limit ≤ (script k).now →
      (attempts run.log).length ≤ k := by
    intro limit k hLimit hWait hk hPast
    rw [← hRun, hLimit]
    exact attempts_deadline (by simp [hWait]) hPast hk (Nat.zero_le k)
  cases vec with
  | nil =>
    subst hRun
    have hSuccess : (Except.ok 0 : Except String Int) ≠ .ok (-1) := by simp
    have hNone : ∀ k : Nat, (Except.ok 0 : Except String Int) = .ok k → 0 = k := fun k hk =>
      Int.ofNat.inj (Except.ok.inj hk)
    exact ⟨hAsked, ⟨0, by decide, rfl⟩, fun k hk => ⟨hNone k hk, hPrefix⟩,
      fun k hk => hEnds k (hNone k hk), iff_of_false hSuccess fun h => h.1 rfl,
      fun hMinus => absurd hMinus hSuccess, fun _ => ⟨rfl, rfl⟩, hExpired⟩
  | cons m rest =>
    have hSome : m :: rest ≠ [] := List.cons_ne_nil m rest
    by_cases hFail : (script 0).recv.ret < 0
    · rw [recvmmsgLoop_first_fail hFail] at hRun
      subst hRun
      have hMinus : ∀ k : Nat, (Except.ok (-1) : Except String Int) ≠ .ok k := fun k hk => by
        have := Except.ok.inj hk
        omega
      exact ⟨hAsked, ⟨-1, by decide, rfl⟩, fun k hk => absurd hk (hMinus k),
        fun k hk => absurd hk (hMinus k), iff_of_true rfl ⟨hSome, hFail⟩,
        fun _ => ⟨handed_fail hFail, rfl⟩, fun hNone => absurd hNone hSome, hExpired⟩
    · have hTaken : handed run.log ≠ [] := hRun ▸ handed_first (Int.not_lt.mp hFail)
      have hCount : 0 < (handed run.log).length := List.length_pos_iff.mpr hTaken
      have hResult := hTurns.reports.1 hFit (by omega)
      have hBound := hTurns.length_le
      rw [Nat.zero_add, toInt32_eq (by omega) (by omega)] at hResult
      have hSuccess : run.result ≠ .ok (-1) := by
        rw [hResult]
        intro hMinus
        have := Except.ok.inj hMinus
        omega
      have hReported : ∀ k : Nat, run.result = .ok k → (handed run.log).length = k := by
        intro k hk
        rw [hResult] at hk
        exact Int.ofNat.inj (Except.ok.inj hk)
      exact ⟨hAsked, ⟨_, by omega, hResult⟩, fun k hk => ⟨hReported k hk, hPrefix⟩,
        fun k hk => hEnds k (hReported k hk), iff_of_false hSuccess fun h => hFail h.2,
        fun hMinus => absurd hMinus hSuccess, fun hNone => absurd hNone hSome, hExpired⟩

end Report

/-! ### On Linux -/

def twoEntries : List Mmsghdr :=
  [⟨⟨some ⟨0x1000, Bytes.zero⟩, 128, [(0x2000, 8)], [], 0, 0⟩, 0⟩,
    ⟨⟨none, 0, [(0x3000, 8)], [], 0, 0⟩, 0⟩]

/-- One datagram of 3 bytes from `0.0.0.0`; the second turn comes after a second. -/
def oneDatagram : Nat → Turn
  | 0 => ⟨0, 1, ⟨3, inetAny, 16, [1, 2, 3], 0, 0⟩⟩
  | _ => ⟨2 * 10 ^ 9, 1, ⟨-1, Bytes.zero, 0, [], 0, 0⟩⟩

theorem recvmmsg_one_datagram : ∃ run,
    recvmmsg .linux twoEntries 0 (some (1, 0)) 0 oneDatagram = run ∧
      ExactReport .linux twoEntries 0 (some (1, 0)) 0 oneDatagram run ∧ run.result = .ok 1 ∧
      run.vec.map (·.len) = [3, 0] ∧ run.vec.map (·.hdr.namelen) = [16, 0] ∧
      run.vec.map (·.hdr.data) = [[1, 2, 3], []] := by
  refine ⟨_, rfl, ?_, rfl, rfl, rfl, rfl⟩
  have hHanded : handed (recvmmsg .linux twoEntries 0 (some (1, 0)) 0 oneDatagram).log =
      [(oneDatagram 0).recv] := rfl
  refine recvmmsg_exact_prefix (by decide) (by decide) rfl ?_ fun i => ?_
  · rw [hHanded]
    intro j m d hm hd _
    cases j with
    | zero =>
      obtain rfl := Option.some.inj hm
      obtain rfl := Option.some.inj hd
      exact ⟨.inet, 16, rfl, rfl, by decide⟩
    | succ j => cases hd
  · unfold oneDatagram
    split <;> decide

end LibcShim.Network
