import LibcShim.Kit.Prefix
import LibcShim.Network.Flags

/-! `sendmmsg` sends an exact prefix of its messages, in order, and stops at the first one that the
host refuses. -/

namespace LibcShim.Network

open Kit

/-- One `sendmsg` of the host with its result. -/
structure SendEvent where
  msg : Msghdr
  flags : HostFlags
  ret : Int

structure SendRun where
  result : Except String Int
  vec : List Mmsghdr
  log : List SendEvent

def sendmmsgLoop (flags : HostFlags) (script : Nat → Int) (i : Nat) : List Mmsghdr → SendRun
  | [] => ⟨.ok (toInt32 i), [], []⟩
  | m :: rest =>
    let event : SendEvent := ⟨m.hdr, flags, script i⟩
    if event.ret < 0 then ⟨.ok (if i = 0 then -1 else toInt32 i), m :: rest, [event]⟩
    else
      let run := sendmmsgLoop flags script (i + 1) rest
      ⟨run.result, { m with len := event.ret.toNat % 2 ^ 32 } :: run.vec, event :: run.log⟩

/-- The loop runs over the `vlen` entries of `vec`; the host's results are those of `script`. -/
def sendmmsg (os : Os) (vec : List Mmsghdr) (flags : BitVec 32) (script : Nat → Int) : SendRun :=
  match decodeFlags os flags .send with
  | .error e => ⟨.error e, vec, []⟩
  | .ok hflags => sendmmsgLoop hflags script 0 vec

/-- The messages that the host took. -/
def accepted (log : List SendEvent) : List SendEvent := log.filter fun e => 0 ≤ e.ret

/-- The entry `m'` is `m` with the byte count that the host returned for it. -/
structure HoldsCount (e : SendEvent) (m m' : Mmsghdr) : Prop where
  msg : e.msg = m.hdr
  len : m'.len = e.ret
  hdr : m'.hdr = m.hdr

/-- The host refused the message after the accepted ones, and no later one was tried. -/
def Refused (vec : List Mmsghdr) (log : List SendEvent) : Prop :=
  ∃ e m, log = accepted log ++ [e] ∧ e.ret < 0 ∧ vec[(accepted log).length]? = some m ∧
    e.msg = m.hdr

/-- The host's answers from number `i` on, in order, one for each message that was tried. -/
def Asked (script : Nat → Int) (i : Nat) (log : List SendEvent) : Prop :=
  ∀ (j : Nat) (e : SendEvent), log[j]? = some e → e.ret = script (i + j)

/-- The loop from entry `i` on: it either comes to the end, or the host refuses a message. -/
structure Sent (script : Nat → Int) (i : Nat) (vec : List Mmsghdr) (run : SendRun) : Prop where
  asked : Asked script i run.log
  exact : ExactPrefix HoldsCount (accepted run.log) vec run.vec
  outcome : (run.log = accepted run.log ∧ (accepted run.log).length = vec.length ∧
      run.result = .ok (toInt32 ↑(i + vec.length))) ∨
    (Refused vec run.log ∧ (accepted run.log).length < vec.length ∧
      run.result = .ok (if i + (accepted run.log).length = 0 then -1
        else toInt32 ↑(i + (accepted run.log).length)))

section Loop

variable {flags : HostFlags} {script : Nat → Int} {vec : List Mmsghdr} {i : Nat}

theorem Asked.cons {e : SendEvent} {log : List SendEvent} (hHead : e.ret = script i)
    (hTail : Asked script (i + 1) log) : Asked script i (e :: log) := by
  intro j e' hj
  cases j with
  | zero =>
    obtain rfl := Option.some.inj hj
    exact hHead
  | succ j =>
    rw [hTail j e' hj, Nat.add_right_comm, Nat.add_assoc]

theorem sendmmsgLoop_sent (hCounts : ∀ i, script i < 2 ^ 31) :
    Sent script i vec (sendmmsgLoop flags script i vec) := by
  induction vec generalizing i with
  | nil => exact ⟨nofun, .nothing _ _, Or.inl ⟨rfl, rfl, rfl⟩⟩
  | cons m rest ih =>
    rw [sendmmsgLoop]
    dsimp only
    split
    · rename_i hRefused
      have hNone : accepted [⟨m.hdr, flags, script i⟩] = [] := by
        simp [accepted, hRefused]
      refine ⟨.cons rfl nofun, ?_,
        Or.inr ⟨⟨⟨m.hdr, flags, script i⟩, m, ?_, hRefused, ?_, rfl⟩, ?_, ?_⟩⟩
      · rw [hNone]
        exact .nothing _ _
      · rw [hNone, List.nil_append]
      · rw [hNone]
        rfl
      · simp [hNone]
      · simp [hNone]
    · rename_i hTaken
      have hLen : ((script i).toNat % 2 ^ 32 : Nat) = script i := by
        have := hCounts i
        omega
      have hAccepted : ∀ log, accepted (⟨m.hdr, flags, script i⟩ :: log) =
          ⟨m.hdr, flags, script i⟩ :: accepted log := by
        intro log
        simp [accepted, Int.not_lt.mp hTaken]
      have hRest := ih (i := i + 1)
      refine ⟨hRest.asked.cons rfl, ?_, ?_⟩
      · rw [hAccepted]
        exact hRest.exact.cons ⟨rfl, hLen, rfl⟩
      · rcases hRest.outcome with ⟨hAll, hCount, hResult⟩ |
          ⟨⟨e, m', hLog, he, hm, hMsg⟩, hCount, hResult⟩
        · refine Or.inl ⟨?_, ?_, ?_⟩
          · rw [hAccepted, ← hAll]
          · rw [hAccepted, List.length_cons, List.length_cons, hCount]
          · rw [hResult, List.length_cons, Nat.add_right_comm, Nat.add_assoc]
        · refine Or.inr ⟨⟨e, m', ?_, he, ?_, hMsg⟩, ?_, ?_⟩
          · rw [hAccepted, List.cons_append, ← hLog]
          · rw [hAccepted]
            exact hm
          · rw [hAccepted]
            simpa using hCount
          · rw [hResult, hAccepted, List.length_cons]
            rw [if_neg (by omega), if_neg (by omega), Nat.add_right_comm, Nat.add_assoc]

end Loop

/-- What `sendmmsg` did with the messages of `vec`, on a host that answers `script`. -/
structure SentExactly (script : Nat → Int) (vec : List Mmsghdr) (run : SendRun) : Prop where
  asked : Asked script 0 run.log
  returns : ∃ r : Int, -1 ≤ r ∧ run.result = .ok r
  sent : ∀ k : Nat, run.result = .ok k →
    (accepted run.log).map (·.msg) = (vec.take k).map (·.hdr) ∧
    (accepted run.log).length = k ∧ ExactPrefix HoldsCount (accepted run.log) vec run.vec
  failed : run.result = .ok (-1) ↔ vec ≠ [] ∧ script 0 < 0
  untouched : run.result = .ok (-1) → accepted run.log = [] ∧ run.vec = vec
  short : ∀ r, run.result = .ok r → (r < vec.length ↔ Refused vec run.log)

section Exact

variable {os : Os} {vec : List Mmsghdr} {flags : BitVec 32} {script : Nat → Int} {run : SendRun}

/-- The accepted messages are the first ones of the vector. -/
theorem accepted_messages {log : List SendEvent} {vec' : List Mmsghdr}
    (h : ExactPrefix HoldsCount (accepted log) vec vec') :
    (accepted log).map (·.msg) = (vec.take (accepted log).length).map (·.hdr) := by
  refine List.ext_getElem? fun j => ?_
  rw [List.getElem?_map, List.getElem?_map, List.getElem?_take]
  cases hEvent : (accepted log)[j]? with
  | none =>
    have hj : (accepted log).length ≤ j := List.getElem?_eq_none_iff.mp hEvent
    rw [if_neg (by omega)]
    rfl
  | some e =>
    have hj : j < (accepted log).length := (List.getElem?_eq_some_iff.mp hEvent).1
    have hBound := h.fits
    have hBound' := h.length
    obtain ⟨m, hm⟩ : ∃ m, vec[j]? = some m := ⟨vec[j], List.getElem?_eq_getElem (by omega)⟩
    obtain ⟨m', hm'⟩ : ∃ m', vec'[j]? = some m' := ⟨vec'[j], List.getElem?_eq_getElem (by omega)⟩
    rw [if_pos hj, hm]
    exact congrArg some (h.written j e m m' hEvent hm hm').msg

theorem accepted_ret {e : SendEvent} {log : List SendEvent} (h : e ∈ accepted log) :
    0 ≤ e.ret := by
  simpa using (List.mem_filter.mp h).2

/-- Where a message was accepted, the first one was. -/
theorem first_accepted (hAsked : Asked script 0 run.log) (hSome : accepted run.log ≠ [])
    (hPrefix : accepted run.log <+: run.log) : 0 ≤ script 0 := by
  obtain ⟨e, rest, hAccepted⟩ := List.exists_cons_of_ne_nil hSome
  obtain ⟨later, hLog⟩ := hPrefix
  have hFirst : run.log[0]? = some e := by
    rw [← hLog, hAccepted]
    rfl
  have hTaken : e ∈ accepted run.log := hAccepted ▸ List.mem_cons_self
  rw [← Nat.zero_add 0, ← hAsked 0 e hFirst]
  exact accepted_ret hTaken

theorem not_refused (h : run.log = accepted run.log) : ¬ Refused vec run.log := by
  rintro ⟨e, m, hLog, -⟩
  have hLength := congrArg List.length (hLog.symm.trans h)
  simp at hLength

theorem sent_of_count {k : Nat} (hExact : ExactPrefix HoldsCount (accepted run.log) vec run.vec)
    (hCount : (accepted run.log).length = k) :
    (accepted run.log).map (·.msg) = (vec.take k).map (·.hdr) ∧
    (accepted run.log).length = k ∧ ExactPrefix HoldsCount (accepted run.log) vec run.vec := by
  subst hCount
  exact ⟨accepted_messages hExact, rfl, hExact⟩

theorem not_minus_one {k : Nat} (hResult : run.result = .ok k) : run.result ≠ .ok (-1) := by
  intro hMinus
  have := Except.ok.inj (hResult.symm.trans hMinus)
  omega

theorem sentExactly_all (hAsked : Asked script 0 run.log)
    (hExact : ExactPrefix HoldsCount (accepted run.log) vec run.vec)
    (hAll : run.log = accepted run.log) (hCount : (accepted run.log).length = vec.length)
    (hResult : run.result = .ok vec.length) : SentExactly script vec run := by
  have hNotMinus := not_minus_one hResult
  refine ⟨hAsked, ⟨_, by omega, hResult⟩, fun k hk => sent_of_count hExact ?_,
    iff_of_false hNotMinus ?_, fun hMinus => absurd hMinus hNotMinus,
    fun r hr => iff_of_false ?_ (not_refused hAll)⟩
  · have hk' := Except.ok.inj (hResult.symm.trans hk)
    omega
  · rintro ⟨hSome, hFirst⟩
    have hTaken : accepted run.log ≠ [] := by
      rw [← List.length_pos_iff, hCount]
      exact List.length_pos_iff.mpr hSome
    exact absurd hFirst (Int.not_lt.mpr (first_accepted hAsked hTaken (hAll ▸ List.prefix_rfl)))
  · have hr' := Except.ok.inj (hResult.symm.trans hr)
    omega

theorem sentExactly_first_refused (hAsked : Asked script 0 run.log)
    (hExact : ExactPrefix HoldsCount (accepted run.log) vec run.vec)
    (hRefused : Refused vec run.log) (hNone : accepted run.log = [])
    (hResult : run.result = .ok (-1)) : SentExactly script vec run := by
  rw [hNone] at hExact
  have hUntouched : run.vec = vec := List.ext_getElem? fun j => hExact.rest j (Nat.zero_le j)
  have hFirst : vec ≠ [] ∧ script 0 < 0 := by
    obtain ⟨e, m, hLog, he, hm, -⟩ := hRefused
    rw [hNone] at hLog hm
    exact ⟨fun hEmpty => by simp [hEmpty] at hm, hAsked 0 e (by rw [hLog]; rfl) ▸ he⟩
  refine ⟨hAsked, ⟨-1, by omega, hResult⟩, fun k hk => ?_, iff_of_true hResult hFirst,
    fun _ => ⟨hNone, hUntouched⟩, fun r hr => iff_of_true ?_ hRefused⟩
  · have hk' := Except.ok.inj (hResult.symm.trans hk)
    omega
  · have hr' := Except.ok.inj (hResult.symm.trans hr)
    omega

theorem sentExactly_later_refused (hAsked : Asked script 0 run.log)
    (hExact : ExactPrefix HoldsCount (accepted run.log) vec run.vec)
    (hRefused : Refused vec run.log) (hSome : accepted run.log ≠ [])
    (hCount : (accepted run.log).length < vec.length)
    (hResult : run.result = .ok (accepted run.log).length) : SentExactly script vec run := by
  have hNotMinus := not_minus_one hResult
  refine ⟨hAsked, ⟨_, by omega, hResult⟩, fun k hk => sent_of_count hExact ?_,
    iff_of_false hNotMinus ?_, fun hMinus => absurd hMinus hNotMinus,
    fun r hr => iff_of_true ?_ hRefused⟩
  · have hk' := Except.ok.inj (hResult.symm.trans hk)
    omega
  · rintro ⟨-, hFirst⟩
    obtain ⟨e, m, hLog, -⟩ := hRefused
    exact absurd hFirst (Int.not_lt.mpr (first_accepted hAsked hSome ⟨[e], hLog.symm⟩))
  · have hr' := Except.ok.inj (hResult.symm.trans hr)
    omega

theorem Sent.sentExactly (hVlen : vec.length < 2 ^ 31) (h : Sent script 0 vec run) :
    SentExactly script vec run := by
  have hBound := h.exact.fits
  rcases h.outcome with ⟨hAll, hCount, hResult⟩ | ⟨hRefused, hCount, hResult⟩
  · rw [Nat.zero_add, toInt32_eq (by omega) (by omega)] at hResult
    exact sentExactly_all h.asked h.exact hAll hCount hResult
  · by_cases hNone : accepted run.log = []
    · rw [hNone] at hResult
      exact sentExactly_first_refused h.asked h.exact hRefused hNone hResult
    · have hPositive := List.length_pos_iff.mpr hNone
      rw [if_neg (by omega), Nat.zero_add, toInt32_eq (by omega) (by omega)] at hResult
      exact sentExactly_later_refused h.asked h.exact hRefused hNone hCount hResult

/-- `hCounts` is the host's promise: it refuses buffers of more than `INT_MAX` bytes, or moves no
more at once. -/
theorem sendmmsg_exact_prefix (hVlen : vec.length < 2 ^ 31)
    (hRun : sendmmsg os vec flags script = run) (hCounts : ∀ i, script i < 2 ^ 31) :
    (flags &&& ~~~0x4000#32 ≠ 0 →
      (∃ e, run.result = .error e) ∧ run.log = [] ∧ run.vec = vec) ∧
    (flags &&& ~~~0x4000#32 = 0 → SentExactly script vec run) := by
  subst hRun
  unfold sendmmsg decodeFlags
  dsimp only
  constructor
  · intro hFlags
    rw [if_pos hFlags]
    exact ⟨⟨_, rfl⟩, rfl, rfl⟩
  · intro hFlags
    rw [if_neg (not_not_intro hFlags)]
    cases os <;> exact (sendmmsgLoop_sent hCounts).sentExactly hVlen

end Exact

/-! ### On Linux -/

def twoMessages : List Mmsghdr :=
  [⟨⟨none, 0, [(0x2000, 5)], [1, 2, 3, 4, 5], 0, 0⟩, 0⟩,
    ⟨⟨none, 0, [(0x3000, 2)], [6, 7], 0, 0⟩, 0⟩]

/-- The host takes the first of two messages and refuses the second. -/
def secondRefused : Nat → Int := fun i => if i = 0 then 5 else -1

theorem sendmmsg_second_refused : ∃ run,
    sendmmsg .linux twoMessages 0x4000 secondRefused = run ∧
      SentExactly secondRefused twoMessages run ∧ run.result = .ok 1 ∧
      run.log.map (·.ret) = [5, -1] ∧ run.vec.map (·.len) = [5, 0] := by
  refine ⟨_, rfl, ?_, rfl, rfl, rfl⟩
  have hCounts : ∀ i, secondRefused i < 2 ^ 31 := fun i => by
    unfold secondRefused
    split <;> decide
  exact And.right ( sendmmsg_exact_prefix (by decide) rfl hCounts) (by decide)

end LibcShim.Network
