import LibcShim.Network.Recvmmsg

/-! How long `recvmmsg` lets the host's `poll` wait: the deadline is a sum in 64-bit nanoseconds,
and the time left goes through an `int` of milliseconds. -/

namespace LibcShim.Network

/-- The deadline that the guest's timeout means, in nanoseconds. -/
def due (start : Int) (timeout : Int × Int) : Int := start + timeout.1 * 10 ^ 9 + timeout.2

/-- Milliseconds, rounded down. -/
def timeLeft (start : Int) (timeout : Int × Int) (now : Int) : Int :=
  (due start timeout - now) / 10 ^ 6

/-- No value on the way to the deadline, nor the time left at `now`, overflows. -/
structure Represented (start : Int) (timeout : Int × Int) (now : Int) : Prop where
  seconds : timeout.1 * 10 ^ 9 < 2 ^ 63
  later : start + timeout.1 * 10 ^ 9 < 2 ^ 63
  due : due start timeout < 2 ^ 63
  left : Network.due start timeout - now < 2 ^ 63

/-- A wait of `ms` milliseconds from `now` on ends in time; `ms` may be a smaller number than the
time left, but not one that lost high bits. -/
structure WaitWithin (start : Int) (timeout : Int × Int) (now ms : Int) : Prop where
  nonneg : 0 ≤ ms
  atMost : ms ≤ timeLeft start timeout now
  unwrapped : ms ≠ timeLeft start timeout now → ¬2 ^ 32 ∣ timeLeft start timeout now - ms

section Reading

variable {start now : Int} {timeout : Int × Int}

theorem remaining_eq (hStart : -2 ^ 63 ≤ start) (hSec : 0 ≤ timeout.1) (hNsec : 0 ≤ timeout.2)
    (hBefore : now < due start timeout) (hRepresented : Represented start timeout now) :
    remaining (deadline start timeout) now = toInt32 (timeLeft start timeout now) := by
  have hDue := hRepresented.due
  have hSpan := hRepresented.left
  have hDeadline : deadline start timeout = due start timeout := deadline_eq (by omega) hDue
  have hLeft : toInt64 (due start timeout - now) = due start timeout - now := by
    unfold toInt64
    rw [Int.bmod_eq_of_le] <;> omega
  unfold remaining timeLeft
  rw [hDeadline, hLeft, Int.tdiv_eq_ediv_of_nonneg (by omega)]

theorem toInt32_lt (n : Int) : toInt32 n < 2 ^ 31 := by
  have hLt : n.bmod (2 ^ 32) < (((2 ^ 32 : Nat) : Int) + 1) / 2 := Int.bmod_lt (by decide)
  unfold toInt32
  omega

theorem toInt32_dvd (n : Int) : 2 ^ 32 ∣ n - toInt32 n := by
  have hMod : toInt32 n % 2 ^ 32 = n % 2 ^ 32 := Int.bmod_emod
  omega

/-- An `int` is as many milliseconds as are left exactly if these fit. -/
theorem waitWithin_toInt32 (hBefore : now < due start timeout) :
    WaitWithin start timeout now (toInt32 (timeLeft start timeout now)) ↔
      timeLeft start timeout now < 2 ^ 31 := by
  have hNonneg : 0 ≤ timeLeft start timeout now := Int.ediv_nonneg (by omega) (by decide)
  constructor
  · rintro ⟨-, -, hUnwrapped⟩
    have hSame : toInt32 (timeLeft start timeout now) = timeLeft start timeout now :=
      not_not.mp fun hNe => hUnwrapped hNe (toInt32_dvd _)
    rw [← hSame]
    exact toInt32_lt _
  · intro hFits
    rw [toInt32_eq hNonneg hFits]
    exact ⟨hNonneg, Int.le_refl _, fun hNe => absurd rfl hNe⟩

theorem represented_of (hNsec : 0 ≤ timeout.2) (hSeconds : timeout.1 * 10 ^ 9 < 2 ^ 63)
    (hDue : due start timeout < 2 ^ 63) (hFits : timeLeft start timeout now < 2 ^ 31) :
    Represented start timeout now := by
  refine ⟨hSeconds, ?_, hDue, ?_⟩
  · unfold due at hDue
    omega
  · unfold timeLeft at hFits
    omega

end Reading

/-! ### Whole runs -/

section Runs

variable {os : Os} {flags : HostRecvFlags} {script : Nat → Turn}

theorem poll_wait {limit : Option Int} {i : Nat} {turn : Turn} {ms : Int}
    (hPoll : .poll ms ∈ (wait limit flags i turn).1) :
    ∃ deadline, limit = some deadline ∧ turn.now < deadline ∧ ms = remaining deadline turn.now := by
  cases limit with
  | none => simp [wait] at hPoll
  | some deadline =>
    by_cases hWaits : i > 0 ∧ flags.dontWait = false
    · by_cases hPast : turn.now ≥ deadline
      · simp [wait, hWaits, hPast] at hPoll
      · simp only [wait, if_pos hWaits, if_neg hPast, List.mem_singleton] at hPoll
        exact ⟨deadline, rfl, Int.not_le.mp hPast, HostEvent.poll.inj hPoll⟩
    · simp [wait, if_neg hWaits] at hPoll

/-- Every wait of a run is the time left at a reading before the deadline. -/
theorem poll_recvmmsgLoop {limit : Option Int} {i : Nat} {vec : List Mmsghdr} {ms : Int}
    (hPoll : .poll ms ∈ (recvmmsgLoop os limit flags script i vec).log) :
    ∃ deadline k, limit = some deadline ∧ (script k).now < deadline ∧
      ms = remaining deadline (script k).now := by
  induction vec generalizing i with
  | nil => simp [recvmmsgLoop] at hPoll
  | cons m rest ih =>
    have hTurn : .poll ms ∈ (wait limit flags i (script i)).1 → ∃ deadline k,
        limit = some deadline ∧ (script k).now < deadline ∧
          ms = remaining deadline (script k).now := by
      intro hWait
      obtain ⟨deadline, hLimit, hBefore, hMs⟩ := poll_wait hWait
      exact ⟨deadline, i, hLimit, hBefore, hMs⟩
    have hEvents : .poll ms ∈ (wait limit flags i (script i)).1 ++ [.recv flags (script i).recv] →
        .poll ms ∈ (wait limit flags i (script i)).1 := by simp
    simp only [recvmmsgLoop] at hPoll
    split at hPoll
    · exact hTurn hPoll
    · split at hPoll
      · exact hTurn (hEvents hPoll)
      · split at hPoll
        · exact hTurn (hEvents hPoll)
        · rcases List.mem_append.mp hPoll with hPoll | hPoll
          · exact hTurn (hEvents hPoll)
          · exact ih hPoll

/-- When the timeout fits in all its forms, every wait of a run ends before the deadline. -/
theorem recvmmsg_waits_within {os : Os} {vec : List Mmsghdr} {flags : BitVec 32} {start : Int}
    {timeout : Int × Int} {script : Nat → Turn} {ms : Int} (hStart : -2 ^ 63 ≤ start)
    (hSec : 0 ≤ timeout.1) (hNsec : 0 ≤ timeout.2) (hSeconds : timeout.1 * 10 ^ 9 < 2 ^ 63)
    (hDue : due start timeout < 2 ^ 63) (hFits : timeLeft start timeout start < 2 ^ 31)
    (hLater : ∀ k, start ≤ (script k).now)
    (hPoll : .poll ms ∈ (recvmmsg os vec flags (some timeout) start script).log) :
    ∃ k, (script k).now < due start timeout ∧ WaitWithin start timeout (script k).now ms := by
  unfold recvmmsg at hPoll
  split at hPoll
  · simp at hPoll
  · obtain ⟨limit, k, hLimit, hBefore, rfl⟩ := poll_recvmmsgLoop hPoll
    obtain rfl : deadline start timeout = limit := Option.some.inj hLimit
    have hDeadline : deadline start timeout = due start timeout := by
      refine deadline_eq ?_ hDue
      omega
    have hLess : timeLeft start timeout (script k).now < 2 ^ 31 := by
      have hk := hLater k
      unfold timeLeft at hFits ⊢
      omega
    rw [hDeadline] at hBefore
    refine ⟨k, hBefore, ?_⟩
    rw [remaining_eq hStart hSec hNsec hBefore (represented_of hNsec hSeconds hDue hLess)]
    exact (waitWithin_toInt32 hBefore).mpr hLess

end Runs

/-- What `poll` is handed at a reading `now` before the deadline, for every timeout: it is within
the time left exactly where nothing on the way to it overflows. -/
theorem recvmmsg_wait_within (start : Int) (timeout : Int × Int) (now : Int)
    (hStart : -2 ^ 63 ≤ start) (hSec : 0 ≤ timeout.1) (hNsec : 0 ≤ timeout.2)
    (hBefore : now < due start timeout) :
    (Represented start timeout now ∧
      WaitWithin start timeout now (remaining (deadline start timeout) now)) ↔
      timeout.1 * 10 ^ 9 < 2 ^ 63 ∧ due start timeout < 2 ^ 63 ∧
        timeLeft start timeout now < 2 ^ 31 := by
  constructor
  · rintro ⟨hRepresented, hWithin⟩
    rw [remaining_eq hStart hSec hNsec hBefore hRepresented, waitWithin_toInt32 hBefore] at hWithin
    exact ⟨hRepresented.seconds, hRepresented.due, hWithin⟩
  · rintro ⟨hSeconds, hDue, hFits⟩
    have hRepresented := represented_of hNsec hSeconds hDue hFits
    rw [remaining_eq hStart hSec hNsec hBefore hRepresented]
    exact ⟨hRepresented, (waitWithin_toInt32 hBefore).mpr hFits⟩

theorem recvmmsg_wait_within_two_seconds :
    Represented 0 (5, 0) 3000000000 ∧ WaitWithin 0 (5, 0) 3000000000
      (remaining (deadline 0 (5, 0)) 3000000000) :=
  (recvmmsg_wait_within 0 (5, 0) 3000000000 (by decide) (by decide) (by decide) (by decide)).mpr
    ⟨by decide, by decide, by decide⟩

/-- Thirty days are more milliseconds than an `int` holds: `poll` waits without limit. -/
theorem recvmmsg_wait_not_within :
    ¬(Represented 0 (2592000, 0) 0 ∧
      WaitWithin 0 (2592000, 0) 0 (remaining (deadline 0 (2592000, 0)) 0)) := by
  rintro ⟨-, hNonneg, -, -⟩
  exact absurd hNonneg (by decide)

end LibcShim.Network
