import LibcShim.Errno.Update
import LibcShim.Kit.Timespec

/-! `sem_timedwait` as it is on Darwin, where the host waits for a time and not until one. -/

namespace LibcShim.Pthread.Semaphore

open Kit

/-- `kern_return_t`, as far as `sem_timedwait` and the contract of its host tell them apart. -/
inductive KernReturn
  | success
  | invalidValue
  | operationTimedOut
  | aborted
  | other
  deriving DecidableEq, Repr

/-- `semaphore_timedwait`: what it returns for a `mach_timespec_t`, and the nanoseconds after which
it does. -/
structure MachHost where
  semaphoreTimedwait : Timespec → KernReturn × Int
  waits : ∀ ts, 0 ≤ (semaphoreTimedwait ts).2
  rejects : ∀ ts, (semaphoreTimedwait ts).1 = .invalidValue ↔ ¬ts.Normal
  atMost : ∀ ts, ts.Normal → 0 ≤ ts.sec → (semaphoreTimedwait ts).2 ≤ ts.total
  timedOut : ∀ ts, (semaphoreTimedwait ts).1 = .operationTimedOut →
    (semaphoreTimedwait ts).2 = ts.total

/-- A host whose semaphore nobody signals. -/
def unsignalled : MachHost where
  semaphoreTimedwait ts :=
    if ts.Normal then
      if 0 ≤ ts.total then (.operationTimedOut, ts.total) else (.other, 0)
    else (.invalidValue, 0)
  waits ts := by split_ifs <;> simp [*]
  rejects ts := by split_ifs <;> simp [*]
  atMost ts hNormal hSec := by
    have hTotal : 0 ≤ ts.total := by
      unfold Timespec.Normal at hNormal
      unfold Timespec.total
      omega
    simp [hNormal, hTotal]
  timedOut ts := by split_ifs <;> simp

/-- The relative time that is handed to the host: `tv_sec` is an `unsigned int` in it, and `tv_nsec`
an `int`. -/
def relativeTimeout (now absTimeout : Timespec) : Timespec :=
  if absTimeout.sec > now.sec ∨ absTimeout.sec = now.sec ∧ absTimeout.nsec > now.nsec then
    ⟨(absTimeout.sec - now.sec) % 2 ^ 32, (absTimeout.nsec - now.nsec).bmod (2 ^ 32)⟩
  else ⟨0, 0⟩

def semTimedwait (host : MachHost) (now absTimeout : Timespec) (s : ErrnoState) :
    ErrnoState × Int :=
  match (host.semaphoreTimedwait (relativeTimeout now absTimeout)).1 with
  | .success => (s.updateErrno, 0)
  | .operationTimedOut =>
    ({ s with errno := Errno.darwinNumber .etimedout }.updateErrno, -1)
  | .aborted => ({ s with errno := Errno.darwinNumber .eintr }.updateErrno, -1)
  | .invalidValue | .other => (s.updateErrno, -1)

/-! ### The exact remaining time -/

/-- The longest time that a `mach_timespec_t` holds. -/
def longest : Timespec := ⟨2 ^ 32 - 1, 10 ^ 9 - 1⟩

/-- The host is handed the time that is left, as far as it can be told. -/
structure Exact (now absTimeout : Timespec) : Prop where
  normal : (relativeTimeout now absTimeout).Normal
  total : (relativeTimeout now absTimeout).total =
    min (max 0 (absTimeout.total - now.total)) longest.total

/-- The call does not fail at once before the deadline, and does not wait past it. -/
structure InTime (host : MachHost) (now absTimeout : Timespec) : Prop where
  accepted : now.total < absTimeout.total →
    (host.semaphoreTimedwait (relativeTimeout now absTimeout)).1 ≠ .invalidValue
  waited : now.total < absTimeout.total →
    (host.semaphoreTimedwait (relativeTimeout now absTimeout)).1 = .operationTimedOut →
      0 < (host.semaphoreTimedwait (relativeTimeout now absTimeout)).2
  notPast : now.total + (host.semaphoreTimedwait (relativeTimeout now absTimeout)).2 ≤
    max now.total absTimeout.total

/-- No second has to be borrowed, and the seconds fit; or what is left after the seconds wrapped is
the longest time. -/
def Fits (now absTimeout : Timespec) : Prop :=
  now.nsec ≤ absTimeout.nsec ∧
    (absTimeout.sec - now.sec < 2 ^ 32 ∨
      (absTimeout.sec - now.sec) % 2 ^ 32 = 2 ^ 32 - 1 ∧ absTimeout.nsec - now.nsec = 10 ^ 9 - 1)

instance (now absTimeout : Timespec) : Decidable (Fits now absTimeout) :=
  inferInstanceAs (Decidable (_ ∧ _))

section Remaining

variable {now absTimeout : Timespec}

theorem relativeTimeout_sec : 0 ≤ (relativeTimeout now absTimeout).sec := by
  unfold relativeTimeout
  split
  · exact Int.emod_nonneg _ (by decide)
  · exact Int.le_refl 0

theorem relativeTimeout_past (hNow : now.Normal) (hAbs : absTimeout.Normal)
    (hPast : absTimeout.total ≤ now.total) : relativeTimeout now absTimeout = ⟨0, 0⟩ := by
  have hNot := mt (Timespec.total_lt hNow hAbs).mpr (Int.not_lt.mpr hPast)
  unfold relativeTimeout
  rw [if_neg]
  omega

theorem relativeTimeout_future (hNow : now.Normal) (hAbs : absTimeout.Normal)
    (hFuture : now.total < absTimeout.total) : relativeTimeout now absTimeout =
      ⟨(absTimeout.sec - now.sec) % 2 ^ 32, absTimeout.nsec - now.nsec⟩ := by
  have hLater := (Timespec.total_lt hNow hAbs).mp hFuture
  unfold Timespec.Normal at hNow hAbs
  have hInt : (absTimeout.nsec - now.nsec).bmod (2 ^ 32) = absTimeout.nsec - now.nsec := by
    apply Int.bmod_eq_of_le <;> omega
  unfold relativeTimeout
  rw [if_pos (by omega), hInt]

theorem exact_past (hNow : now.Normal) (hAbs : absTimeout.Normal)
    (hPast : absTimeout.total ≤ now.total) : Exact now absTimeout := by
  have hRelative := relativeTimeout_past hNow hAbs hPast
  constructor
  · rw [hRelative]
    decide
  · rw [hRelative, max_eq_left (by omega)]
    decide

theorem longest_total : longest.total = (2 ^ 32 - 1) * 10 ^ 9 + (10 ^ 9 - 1) := rfl

theorem exact_future (hNow : now.Normal) (hAbs : absTimeout.Normal)
    (hFuture : now.total < absTimeout.total) : Exact now absTimeout ↔ Fits now absTimeout := by
  have hRelative := relativeTimeout_future hNow hAbs hFuture
  have hLater := (Timespec.total_lt hNow hAbs).mp hFuture
  have hLeft : absTimeout.total - now.total =
      (absTimeout.sec - now.sec) * 10 ^ 9 + (absTimeout.nsec - now.nsec) := by
    unfold Timespec.total
    omega
  unfold Timespec.Normal at hNow hAbs
  constructor
  · rintro ⟨hNormal, hTotal⟩
    rw [hRelative] at hNormal hTotal
    rw [hLeft, longest_total] at hTotal
    unfold Timespec.Normal at hNormal
    unfold Timespec.total at hTotal
    simp only at hNormal hTotal
    unfold Fits
    omega
  · rintro ⟨hBorrow, hFits⟩
    constructor
    · rw [hRelative]
      unfold Timespec.Normal
      simp only
      omega
    · rw [hRelative, hLeft, longest_total]
      unfold Timespec.total
      simp only
      omega

theorem exact_iff (hNow : now.Normal) (hAbs : absTimeout.Normal) :
    Exact now absTimeout ↔ absTimeout.total ≤ now.total ∨ Fits now absTimeout := by
  by_cases hPast : absTimeout.total ≤ now.total
  · exact iff_of_true (exact_past hNow hAbs hPast) (Or.inl hPast)
  · rw [exact_future hNow hAbs (Int.not_le.mp hPast)]
    exact (or_iff_right hPast).symm

/-- Every host that is handed the exact time keeps the deadline. -/
theorem Exact.inTime (hExact : Exact now absTimeout) (host : MachHost) :
    InTime host now absTimeout := by
  obtain ⟨hNormal, hTotal⟩ := hExact
  have hAtMost := host.atMost _ hNormal relativeTimeout_sec
  have hLongest := longest_total
  refine ⟨fun hFuture hInvalid => (host.rejects _).mp hInvalid hNormal, fun hFuture hTimedOut => ?_,
    ?_⟩
  · rw [host.timedOut _ hTimedOut, hTotal]
    omega
  · omega

/-- Where a second would have to be borrowed, every call before the deadline fails at once. -/
theorem semTimedwait_borrow (hNow : now.Normal) (hAbs : absTimeout.Normal)
    (hFuture : now.total < absTimeout.total) (hBorrow : absTimeout.nsec < now.nsec)
    (host : MachHost) (s : ErrnoState) :
    semTimedwait host now absTimeout s = (s.updateErrno, -1) := by
  have hInvalid : (host.semaphoreTimedwait (relativeTimeout now absTimeout)).1 = .invalidValue := by
    rw [host.rejects, relativeTimeout_future hNow hAbs hFuture]
    rintro ⟨hLow, -⟩
    simp only at hLow
    omega
  simp only [semTimedwait, hInvalid]

example : (semTimedwait unsignalled ⟨5, 900000000⟩ ⟨6, 100000000⟩ ⟨0, 0⟩).2 = -1 := by decide

end Remaining

/-- The relative time is exact, and so the deadline is kept, unless the deadline is in the future
and its nanoseconds or the seconds left do not fit. -/
theorem semTimedwait_exact (now absTimeout : Timespec) (hNow : now.Normal)
    (hAbs : absTimeout.Normal) :
    (Exact now absTimeout ∧ ∀ host, InTime host now absTimeout) ↔
      absTimeout.total ≤ now.total ∨ Fits now absTimeout := by
  rw [← exact_iff hNow hAbs]
  exact ⟨And.left, fun hExact => ⟨hExact, hExact.inTime⟩⟩

theorem semTimedwait_exact_three_seconds :
    Exact ⟨5, 0⟩ ⟨8, 0⟩ ∧ ∀ host, InTime host ⟨5, 0⟩ ⟨8, 0⟩ :=
  (semTimedwait_exact ⟨5, 0⟩ ⟨8, 0⟩ (by decide) (by decide)).mpr (Or.inr (by decide))

/-- From 5.9 s to 6.1 s the host is handed one second less eight tenths. -/
theorem semTimedwait_not_exact :
    Timespec.Normal ⟨5, 900000000⟩ ∧ Timespec.Normal ⟨6, 100000000⟩ ∧
      ¬(Exact ⟨5, 900000000⟩ ⟨6, 100000000⟩ ∧
        ∀ host, InTime host ⟨5, 900000000⟩ ⟨6, 100000000⟩) := by
  refine ⟨by decide, by decide, ?_⟩
  rintro ⟨⟨hNormal, -⟩, -⟩
  exact absurd hNormal (by decide)

end LibcShim.Pthread.Semaphore
