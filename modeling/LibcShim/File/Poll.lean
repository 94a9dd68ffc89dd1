import Mathlib.Data.BitVec
import Mathlib.Data.Finset.Card
import Mathlib.Data.List.Forall2

/-! `poll_via_select`: a `poll` made of the host's `select`. -/

namespace LibcShim.File

structure PollFd where
  fd : Int
  events : BitVec 16
  revents : BitVec 16
  deriving DecidableEq, Repr

abbrev pollin : BitVec 16 := 1#16
abbrev pollpri : BitVec 16 := 2#16
abbrev pollout : BitVec 16 := 4#16
abbrev pollerr : BitVec 16 := 8#16

abbrev fdSetsize : Int := 1024

structure Timeval where
  sec : Int
  usec : Int
  deriving DecidableEq, Repr

namespace Timeval

def Valid (t : Timeval) : Prop := 0 ≤ t.sec ∧ 0 ≤ t.usec ∧ t.usec < 10 ^ 6

instance (t : Timeval) : Decidable t.Valid := inferInstanceAs (Decidable (_ ∧ _))

/-- In microseconds. -/
def total (t : Timeval) : Int := t.sec * 10 ^ 6 + t.usec

end Timeval

/-! ### The host's `select` -/

structure FdSets where
  read : Finset Int
  write : Finset Int
  except : Finset Int
  deriving DecidableEq

/-- How a call with a valid time ends: it fails, or finds the descriptors that are ready for each
of the three conditions. -/
inductive Outcome
  | fails
  | finds (ready : FdSets)
  deriving DecidableEq

/-- A null time is no limit. -/
structure SelectCall where
  nfds : Int
  sets : FdSets
  timeout : Option Timeval
  deriving DecidableEq

def FdSets.meet (nfds : Int) (sets ready : FdSets) : FdSets where
  read := sets.read.filter fun fd => fd < nfds ∧ fd ∈ ready.read
  write := sets.write.filter fun fd => fd < nfds ∧ fd ∈ ready.write
  except := sets.except.filter fun fd => fd < nfds ∧ fd ∈ ready.except

/-- The result, and the sets after the call.  A failed call leaves them alone. -/
def select (outcome : Outcome) (call : SelectCall) : Int × FdSets :=
  if ∀ t ∈ call.timeout, t.Valid then
    match outcome with
    | .fails => (-1, call.sets)
    | .finds ready =>
      let sets := call.sets.meet call.nfds ready
      (↑(sets.read.card + sets.write.card + sets.except.card), sets)
  else (-1, call.sets)

/-! ### The shim -/

/-- `FD_SET` for each condition that the entry asks for. -/
def FdSets.add (sets : FdSets) (p : PollFd) : FdSets where
  read :=
    if p.events &&& pollin ≠ 0 ∨ p.events &&& pollpri ≠ 0 then insert p.fd sets.read
    else sets.read
  write := if p.events &&& pollout ≠ 0 then insert p.fd sets.write else sets.write
  except := insert p.fd sets.except

def maxFd (maxfd : Int) (p : PollFd) : Int := if p.fd > maxfd then p.fd else maxfd

def selectCall (fds : List PollFd) (timeout : Int) : SelectCall where
  nfds := fds.foldl maxFd 0 + 1
  sets := fds.foldl FdSets.add ⟨∅, ∅, ∅⟩
  timeout := some ⟨timeout.tdiv 1000, timeout.tmod 1000 * 1000⟩

def report (sets : FdSets) (p : PollFd) : PollFd :=
  { p with revents :=
      (if p.fd ∈ sets.read then pollin else 0) ||| (if p.fd ∈ sets.write then pollout else 0) |||
        (if p.fd ∈ sets.except then pollerr else 0) }

structure PollRun where
  call : SelectCall
  ret : Int
  fds : List PollFd
  deriving DecidableEq

def pollViaSelect (outcome : Outcome) (fds : List PollFd) (timeout : Int) : PollRun :=
  let call := selectCall fds timeout
  let (ret, sets) := select outcome call
  ⟨call, ret, fds.map (report sets)⟩

/-! ### What `poll` promises -/

/-- Distinct descriptors that an `fd_set` can hold. -/
structure Entries (fds : List PollFd) : Prop where
  distinct : (fds.map PollFd.fd).Nodup
  inRange : ∀ p ∈ fds, 0 ≤ p.fd ∧ p.fd < fdSetsize

/-- An entry after the call says no more than was asked and is so. -/
structure Honest (ready : FdSets) (p p' : PollFd) : Prop where
  same : p'.fd = p.fd ∧ p'.events = p.events
  read : p'.revents &&& pollin ≠ 0 → p.events &&& pollin ≠ 0 ∧ p.fd ∈ ready.read
  write : p'.revents &&& pollout ≠ 0 → p.events &&& pollout ≠ 0 ∧ p.fd ∈ ready.write

structure RefinesPoll (outcome : Outcome) (fds : List PollFd) (timeout : Int) (run : PollRun) :
    Prop where
  unlimited : timeout < 0 → run.call.timeout = none
  limited : 0 ≤ timeout → ∃ t, run.call.timeout = some t ∧ t.total ≤ timeout * 1000
  valid : ∀ t ∈ run.call.timeout, t.Valid
  succeeds : ∀ ready, outcome = .finds ready →
    run.ret = run.fds.countP (·.revents ≠ 0) ∧ List.Forall₂ (Honest ready) fds run.fds
  fails : outcome = .fails → run.ret = -1 ∧ ∀ p ∈ run.fds, p.revents = 0

/-- The entry is ready for at most one of the conditions that it was put into a set for, and not for
reading when it asked for `POLLPRI` only. -/
structure Unambiguous (ready : FdSets) (p : PollFd) : Prop where
  readWrite : p.events &&& pollin ≠ 0 → p.fd ∈ ready.read → p.events &&& pollout ≠ 0 →
    p.fd ∉ ready.write
  readExcept : p.events &&& pollin ≠ 0 → p.fd ∈ ready.read → p.fd ∉ ready.except
  writeExcept : p.events &&& pollout ≠ 0 → p.fd ∈ ready.write → p.fd ∉ ready.except
  notPri : p.events &&& pollin = 0 → p.events &&& pollpri ≠ 0 → p.fd ∉ ready.read

/-! ### The three sets -/

def WantsRead (p : PollFd) : Prop := p.events &&& pollin ≠ 0 ∨ p.events &&& pollpri ≠ 0

def WantsWrite (p : PollFd) : Prop := p.events &&& pollout ≠ 0

instance : DecidablePred WantsRead := fun _ => inferInstanceAs (Decidable (_ ∨ _))

instance : DecidablePred WantsWrite := fun _ => inferInstanceAs (Decidable (_ ≠ _))

/-- `get` is the set into which the entries go that meet `wants`. -/
structure Channel (get : FdSets → Finset Int) (wants : PollFd → Prop) [DecidablePred wants] :
    Prop where
  empty : get ⟨∅, ∅, ∅⟩ = ∅
  add : ∀ sets p, get (sets.add p) = if wants p then insert p.fd (get sets) else get sets
  meet : ∀ nfds sets ready, get (sets.meet nfds ready) =
    (get sets).filter fun fd => fd < nfds ∧ fd ∈ get ready

theorem channel_read : Channel FdSets.read WantsRead :=
  ⟨rfl, fun _ _ => rfl, fun _ _ _ => rfl⟩

theorem channel_write : Channel FdSets.write WantsWrite :=
  ⟨rfl, fun _ _ => rfl, fun _ _ _ => rfl⟩

theorem channel_except : Channel FdSets.except (fun _ => True) :=
  ⟨rfl, fun _ _ => rfl, fun _ _ _ => rfl⟩

theorem le_foldl_maxFd (fds : List PollFd) (m : Int) :
    m ≤ fds.foldl maxFd m ∧ ∀ p ∈ fds, p.fd ≤ fds.foldl maxFd m := by
  induction fds generalizing m with
  | nil => simp
  | cons q fds ih =>
    have hStep : m ≤ maxFd m q ∧ q.fd ≤ maxFd m q := by
      unfold maxFd
      split <;> omega
    obtain ⟨hFirst, hRest⟩ := ih (maxFd m q)
    refine ⟨Int.le_trans hStep.1 hFirst, fun p hp => ?_⟩
    rcases List.mem_cons.mp hp with rfl | hp
    · exact Int.le_trans hStep.2 hFirst
    · exact hRest p hp

theorem lt_nfds {fds : List PollFd} {p : PollFd} (hp : p ∈ fds) (timeout : Int) :
    p.fd < (selectCall fds timeout).nfds := by
  have hLe := (le_foldl_maxFd fds 0).2 p hp
  show p.fd < fds.foldl maxFd 0 + 1
  omega

section Channels

variable {get : FdSets → Finset Int} {wants : PollFd → Prop} [DecidablePred wants]

theorem Channel.mem_foldl (hChannel : Channel get wants) (fds : List PollFd) (sets : FdSets)
    (fd : Int) : fd ∈ get (fds.foldl FdSets.add sets) ↔
      fd ∈ get sets ∨ ∃ p ∈ fds, wants p ∧ p.fd = fd := by
  induction fds generalizing sets with
  | nil => simp
  | cons q fds ih =>
    rw [List.foldl_cons, ih, hChannel.add]
    by_cases hq : wants q
    · simp only [hq, if_true, Finset.mem_insert, List.exists_mem_cons_iff, true_and]
      rw [eq_comm, or_assoc, or_left_comm]
    · simp [hq]

variable {fds : List PollFd} {timeout : Int} {ready : FdSets}

/-- The descriptors that are left in a set are those of the entries that are in it and ready. -/
theorem Channel.found (hChannel : Channel get wants) :
    get ((selectCall fds timeout).sets.meet (selectCall fds timeout).nfds ready) =
      ((fds.filter fun p => wants p ∧ p.fd ∈ get ready).map PollFd.fd).toFinset := by
  ext fd
  rw [hChannel.meet, Finset.mem_filter, List.mem_toFinset, List.mem_map, selectCall,
    hChannel.mem_foldl, hChannel.empty]
  simp only [Finset.notMem_empty, false_or, List.mem_filter, decide_eq_true_eq]
  constructor
  · rintro ⟨⟨p, hp, hWants, rfl⟩, -, hReady⟩
    exact ⟨p, ⟨hp, hWants, hReady⟩, rfl⟩
  · rintro ⟨p, ⟨hp, hWants, hReady⟩, rfl⟩
    exact ⟨⟨p, hp, hWants, rfl⟩, lt_nfds hp timeout, hReady⟩

theorem Channel.card_found (hChannel : Channel get wants) (hDistinct : (fds.map PollFd.fd).Nodup) :
    (get ((selectCall fds timeout).sets.meet (selectCall fds timeout).nfds ready)).card =
      fds.countP fun p => wants p ∧ p.fd ∈ get ready := by
  rw [hChannel.found, List.toFinset_card_of_nodup, List.length_map, List.countP_eq_length_filter]
  exact (List.filter_sublist.map PollFd.fd).nodup hDistinct

theorem Channel.mem_found (hChannel : Channel get wants) (hDistinct : (fds.map PollFd.fd).Nodup)
    {p : PollFd} (hp : p ∈ fds) :
    p.fd ∈ get ((selectCall fds timeout).sets.meet (selectCall fds timeout).nfds ready) ↔
      wants p ∧ p.fd ∈ get ready := by
  rw [hChannel.found, List.mem_toFinset, List.mem_map]
  simp only [List.mem_filter, decide_eq_true_eq]
  constructor
  · rintro ⟨q, ⟨hq, hWants, hReady⟩, hSame⟩
    obtain rfl : q = p := List.inj_on_of_nodup_map hDistinct hq hp hSame
    exact ⟨hWants, hReady⟩
  · intro hFound
    exact ⟨p, ⟨hp, hFound⟩, rfl⟩

end Channels

/-! ### Counting -/

/-- Three counts add up to the count of the entries that are in any of them when no entry is in
two. -/
theorem countP_add_eq_iff {α : Type*} (p q r : α → Bool) (l : List α) :
    l.countP p + l.countP q + l.countP r = l.countP (fun x => p x || q x || r x) ↔
      ∀ x ∈ l, (p x → ¬q x) ∧ (p x → ¬r x) ∧ (q x → ¬r x) := by
  have hLe : ∀ l : List α, l.countP (fun x => p x || q x || r x) ≤
      l.countP p + l.countP q + l.countP r := by
    intro l
    induction l with
    | nil => simp
    | cons x l ih =>
      simp only [List.countP_cons]
      cases p x <;> cases q x <;> cases r x <;> simp <;> omega
  induction l with
  | nil => simp
  | cons x l ih =>
    have hRest := hLe l
    simp only [List.forall_mem_cons, ← ih, List.countP_cons]
    cases p x <;> cases q x <;> cases r x <;> simp <;> omega

section Reports

theorem revents_bits (a b c : Prop) [Decidable a] [Decidable b] [Decidable c] {revents : BitVec 16}
    (h : revents = (if a then pollin else 0) ||| (if b then pollout else 0) |||
      (if c then pollerr else 0)) :
    (revents &&& pollin ≠ 0 ↔ a) ∧ (revents &&& pollout ≠ 0 ↔ b) ∧ (revents ≠ 0 ↔ a ∨ b ∨ c) := by
  subst h
  by_cases a <;> by_cases b <;> by_cases c <;> simp [*] <;> decide

variable {sets : FdSets} {p : PollFd}

theorem report_read : (report sets p).revents &&& pollin ≠ 0 ↔ p.fd ∈ sets.read :=
  (revents_bits _ _ _ rfl).1

theorem report_write : (report sets p).revents &&& pollout ≠ 0 ↔ p.fd ∈ sets.write :=
  (revents_bits _ _ _ rfl).2.1

theorem report_ne_zero : (report sets p).revents ≠ 0 ↔
    p.fd ∈ sets.read ∨ p.fd ∈ sets.write ∨ p.fd ∈ sets.except :=
  (revents_bits _ _ _ rfl).2.2

end Reports

/-! ### The refinement -/

theorem timeout_valid {timeout : Int} (hTimeout : 0 ≤ timeout) :
    (⟨timeout.tdiv 1000, timeout.tmod 1000 * 1000⟩ : Timeval).Valid ∧
      (⟨timeout.tdiv 1000, timeout.tmod 1000 * 1000⟩ : Timeval).total = timeout * 1000 := by
  unfold Timeval.Valid Timeval.total
  simp only [Int.tdiv_eq_ediv_of_nonneg hTimeout, Int.tmod_eq_emod_of_nonneg hTimeout]
  omega

section Refinement

variable {fds : List PollFd} {timeout : Int}

theorem pollViaSelect_fails : pollViaSelect .fails fds timeout =
    ⟨selectCall fds timeout, -1, fds.map (report (selectCall fds timeout).sets)⟩ := by
  simp [pollViaSelect, select]

theorem pollViaSelect_finds (hTimeout : 0 ≤ timeout) (ready : FdSets) :
    let sets := (selectCall fds timeout).sets.meet (selectCall fds timeout).nfds ready
    pollViaSelect (.finds ready) fds timeout = ⟨selectCall fds timeout,
      ↑(sets.read.card + sets.write.card + sets.except.card), fds.map (report sets)⟩ := by
  have hValid : ∀ t ∈ (selectCall fds timeout).timeout, t.Valid := by
    intro t ht
    obtain rfl := Option.some.inj ht
    exact (timeout_valid hTimeout).1
  simp only [pollViaSelect, select, if_pos hValid]

/-- After a failed call every descriptor is still in the third set. -/
theorem failed_report {p : PollFd} (hp : p ∈ fds) :
    (report (selectCall fds timeout).sets p).revents ≠ 0 := by
  refine report_ne_zero.mpr (Or.inr (Or.inr ?_))
  exact (channel_except.mem_foldl fds _ p.fd).mpr (Or.inr ⟨p, hp, trivial, rfl⟩)

theorem unambiguous_iff {ready : FdSets} {p : PollFd} : Unambiguous ready p ↔
    ((WantsRead p ∧ p.fd ∈ ready.read → ¬(WantsWrite p ∧ p.fd ∈ ready.write)) ∧
      (WantsRead p ∧ p.fd ∈ ready.read → p.fd ∉ ready.except) ∧
      (WantsWrite p ∧ p.fd ∈ ready.write → p.fd ∉ ready.except)) ∧
    (WantsRead p ∧ p.fd ∈ ready.read → p.events &&& pollin ≠ 0) := by
  constructor
  · intro h
    have hIn : WantsRead p ∧ p.fd ∈ ready.read → p.events &&& pollin ≠ 0 := by
      rintro ⟨hWants, hReady⟩ hNotIn
      rcases hWants with hAsked | hPri
      · exact hAsked hNotIn
      · exact h.notPri hNotIn hPri hReady
    refine ⟨⟨fun hRead hWrite => ?_, fun hRead => ?_, fun hWrite => ?_⟩, hIn⟩
    · exact h.readWrite (hIn hRead) hRead.2 hWrite.1 hWrite.2
    · exact h.readExcept (hIn hRead) hRead.2
    · exact h.writeExcept hWrite.1 hWrite.2
  · rintro ⟨⟨hReadWrite, hReadExcept, hWriteExcept⟩, hIn⟩
    refine ⟨fun hAsked hRead hOut hWrite => ?_, fun hAsked hRead => ?_, fun hOut hWrite => ?_,
      fun hNotIn hPri hRead => ?_⟩
    · exact hReadWrite ⟨Or.inl hAsked, hRead⟩ ⟨hOut, hWrite⟩
    · exact hReadExcept ⟨Or.inl hAsked, hRead⟩
    · exact hWriteExcept ⟨hOut, hWrite⟩
    · exact hIn ⟨Or.inr hPri, hRead⟩ hNotIn

/-- A found set counts its entries once each, and the entries are counted by their reports. -/
theorem counts_iff (hDistinct : (fds.map PollFd.fd).Nodup) (ready : FdSets) :
    let sets := (selectCall fds timeout).sets.meet (selectCall fds timeout).nfds ready
    sets.read.card + sets.write.card + sets.except.card =
        (fds.map (report sets)).countP (·.revents ≠ 0) ↔
      ∀ p ∈ fds, (WantsRead p ∧ p.fd ∈ ready.read → ¬(WantsWrite p ∧ p.fd ∈ ready.write)) ∧
        (WantsRead p ∧ p.fd ∈ ready.read → p.fd ∉ ready.except) ∧
        (WantsWrite p ∧ p.fd ∈ ready.write → p.fd ∉ ready.except) := by
  intro sets
  have hReports : (fds.map (report sets)).countP (·.revents ≠ 0) =
      fds.countP fun p => decide (WantsRead p ∧ p.fd ∈ ready.read) ||
        decide (WantsWrite p ∧ p.fd ∈ ready.write) || decide (True ∧ p.fd ∈ ready.except) := by
    rw [List.countP_map]
    refine List.countP_congr fun p hp => ?_
    simp only [Function.comp_apply, decide_eq_true_eq, report_ne_zero, Bool.or_eq_true, or_assoc]
    rw [channel_read.mem_found hDistinct hp, channel_write.mem_found hDistinct hp,
      channel_except.mem_found hDistinct hp]
  rw [hReports, channel_read.card_found hDistinct, channel_write.card_found hDistinct,
    channel_except.card_found hDistinct, countP_add_eq_iff]
  simp only [decide_eq_true_eq, true_and]

theorem honest_iff (hDistinct : (fds.map PollFd.fd).Nodup) (ready : FdSets) :
    let sets := (selectCall fds timeout).sets.meet (selectCall fds timeout).nfds ready
    List.Forall₂ (Honest ready) fds (fds.map (report sets)) ↔
      ∀ p ∈ fds, WantsRead p ∧ p.fd ∈ ready.read → p.events &&& pollin ≠ 0 := by
  intro sets
  rw [List.forall₂_map_right_iff, List.forall₂_same]
  refine forall₂_congr fun p hp => ?_
  have hRead : (report sets p).revents &&& pollin ≠ 0 ↔ _ :=
    report_read.trans (channel_read.mem_found hDistinct hp)
  have hWrite : (report sets p).revents &&& pollout ≠ 0 ↔ _ :=
    report_write.trans (channel_write.mem_found hDistinct hp)
  constructor
  · intro hHonest hFound
    exact (hHonest.read (hRead.mpr hFound)).1
  · intro hIn
    refine ⟨⟨rfl, rfl⟩, fun h => ?_, fun h => hWrite.mp h⟩
    exact ⟨hIn (hRead.mp h), (hRead.mp h).2⟩

end Refinement

theorem pollViaSelect_refines (outcome : Outcome) (fds : List PollFd) (timeout : Int)
    (hEntries : Entries fds) :
    RefinesPoll outcome fds timeout (pollViaSelect outcome fds timeout) ↔
      0 ≤ timeout ∧ (outcome = .fails → fds = []) ∧
        ∀ ready, outcome = .finds ready → ∀ p ∈ fds, Unambiguous ready p := by
  have hDistinct := hEntries.distinct
  constructor
  · intro hRefines
    have hTimeout : 0 ≤ timeout := by
      by_contra hNegative
      exact absurd (hRefines.unlimited (by omega)) (Option.some_ne_none _)
    refine ⟨hTimeout, fun hFails => ?_, fun ready hFinds p hp => ?_⟩
    · subst hFails
      have hNone := (hRefines.fails rfl).2
      rw [pollViaSelect_fails] at hNone
      refine List.eq_nil_iff_forall_not_mem.mpr fun p hp => ?_
      exact failed_report hp (hNone _ (List.mem_map_of_mem hp))
    · subst hFinds
      obtain ⟨hCounts, hHonest⟩ := hRefines.succeeds ready rfl
      rw [pollViaSelect_finds hTimeout] at hCounts hHonest
      refine unambiguous_iff.mpr ⟨?_, (honest_iff hDistinct ready).mp hHonest p hp⟩
      exact (counts_iff hDistinct ready).mp (Int.ofNat_inj.mp hCounts) p hp
  · rintro ⟨hTimeout, hFails, hFinds⟩
    refine ⟨fun hNegative => absurd hTimeout (by omega), fun _ => ?_, ?_, ?_, ?_⟩
    · exact ⟨_, rfl, Int.le_of_eq (timeout_valid hTimeout).2⟩
    · intro t ht
      obtain rfl := Option.some.inj ht
      exact (timeout_valid hTimeout).1
    · rintro ready rfl
      have hAll := fun p hp => unambiguous_iff.mp (hFinds ready rfl p hp)
      rw [pollViaSelect_finds hTimeout]
      refine ⟨Int.ofNat_inj.mpr ?_, (honest_iff hDistinct ready).mpr fun p hp => (hAll p hp).2⟩
      exact (counts_iff hDistinct ready).mpr fun p hp => (hAll p hp).1
    · rintro rfl
      rw [hFails rfl, pollViaSelect_fails]
      simp

theorem pollViaSelect_refines_reader :
    RefinesPoll (.finds ⟨{3}, ∅, ∅⟩) [⟨3, pollin, 0⟩] 1500
      (pollViaSelect (.finds ⟨{3}, ∅, ∅⟩) [⟨3, pollin, 0⟩] 1500) := by
  refine (pollViaSelect_refines _ _ 1500 ⟨by decide, by decide⟩).mpr ⟨by decide, by simp, ?_⟩
  rintro ready ⟨⟩ p hp
  obtain rfl := List.mem_singleton.mp hp
  exact ⟨by decide, by decide, by decide, by decide⟩

/-- A descriptor that is ready for reading and writing is counted twice. -/
theorem pollViaSelect_counts_twice :
    Entries [⟨3, pollin ||| pollout, 0⟩] ∧
      ¬RefinesPoll (.finds ⟨{3}, {3}, ∅⟩) [⟨3, pollin ||| pollout, 0⟩] 0
        (pollViaSelect (.finds ⟨{3}, {3}, ∅⟩) [⟨3, pollin ||| pollout, 0⟩] 0) := by
  refine ⟨⟨by decide, by decide⟩, fun hRefines => ?_⟩
  have hCount := (hRefines.succeeds _ rfl).1
  exact absurd hCount (by decide)

end LibcShim.File
