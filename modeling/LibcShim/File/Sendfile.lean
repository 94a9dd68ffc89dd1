import LibcShim.Kit.Run
import LibcShim.Pthread.Object

/-! `sendfile` on Linux: the guest's offset variable, and the calls with which a guest sends a
file. -/

namespace LibcShim.File

open Kit
open Pthread (Abi)

/-- The `n` bytes of `file` from position `c` on. -/
def slice (file : List UInt8) (c : Int) (n : Nat) : List UInt8 := (file.drop c.toNat).take n

/-- The host's `sendfile` from `file`, in one call: how many bytes it transfers from a position, or
that it fails.  It transfers less than `2^31` bytes, and none only at the end of the file. -/
structure SendHost (file : List UInt8) where
  transfer : Int → Nat → Option Nat
  negative : ∀ c count, c < 0 → transfer c count = none
  atMost : ∀ c count n, transfer c count = some n → n ≤ count ∧ n ≤ file.length - c.toNat
  fitsInt : ∀ c count n, transfer c count = some n → n < 2 ^ 31
  progress : ∀ c count n, transfer c count = some n → 0 < count → c < file.length → 0 < n

/-- A `bionic::off_t` of the guest: where it is, and what it holds. -/
structure OffsetVar (abi : Abi) where
  address : abi.Word
  value : abi.Word

structure SendResult (abi : Abi) where
  ret : Int
  offset : Option (OffsetVar abi)
  position : Int
  bytes : List UInt8

/-- What the host transfers from position `c`, and its result. -/
def readAt {file : List UInt8} (host : SendHost file) (c : Int) (count : Nat) : Int × List UInt8 :=
  match host.transfer c count with
  | none => (-1, [])
  | some n => (n, slice file c n)

/-- The host advances its `off_t`, or the file's own position without one; the result goes through
an `int`. -/
def sendfile {abi : Abi} {file : List UInt8} (host : SendHost file) (position : Int)
    (offset : Option (OffsetVar abi)) (count : Nat) : SendResult abi :=
  match offset with
  | none =>
    let (ret, bytes) := readAt host position count
    ⟨ret.bmod (2 ^ 32), none, position + bytes.length, bytes⟩
  | some v =>
    -- `(off_t)offset`, and not `*offset`
    let c := v.address.toInt
    let (ret, bytes) := readAt host c count
    ⟨ret.bmod (2 ^ 32), some { v with value := BitVec.ofInt abi.bits (c + bytes.length) }, position,
      bytes⟩

/-! ### Runs of calls -/

/-- A call of the guest, with the host's answer to it. -/
structure SendCall (file : List UInt8) where
  host : SendHost file
  count : Nat

/-- A host that transfers all that is asked for and there. -/
def eager (file : List UInt8) : SendHost file where
  transfer c count :=
    if c < 0 then none else some (min count (min (file.length - c.toNat) (2 ^ 31 - 1)))
  negative _ _ h := if_pos h
  atMost c count n h := by
    split_ifs at h
    have hn := Option.some.inj h
    omega
  fitsInt c count n h := by
    split_ifs at h
    have hn := Option.some.inj h
    omega
  progress c count n h hCount hBefore := by
    split_ifs at h
    have hn := Option.some.inj h
    omega

structure Sent (file : List UInt8) extends SendCall file where
  ret : Int
  bytes : List UInt8

/-- A guest that sends with one offset variable; the last call first. -/
structure Sender (abi : Abi) (file : List UInt8) where
  offset : OffsetVar abi
  calls : List (Sent file)

namespace Sender

variable {abi : Abi} {file : List UInt8}

def start (file : List UInt8) (offset : OffsetVar abi) : Sender abi file := ⟨offset, []⟩

def step (s : Sender abi file) (a : SendCall file) : Option (Sender abi file) :=
  let r := sendfile a.host 0 (some s.offset) a.count
  r.offset.map fun offset => ⟨offset, ⟨a, r.ret, r.bytes⟩ :: s.calls⟩

/-- All the bytes that were sent, in order. -/
def sent (s : Sender abi file) : List UInt8 := s.calls.reverse.flatMap Sent.bytes

end Sender

/-- Each call reads at the offset that the guest has reached, which starts at `first` and ends at
`last`. -/
def Answers {file : List UInt8} (first : Int) : List (Sent file) → Int → Prop
  | [], last => last = first
  | call :: calls, last => ∃ reached, Answers first calls reached ∧
      (call.ret, call.bytes) = readAt call.host reached call.count ∧
      last = reached + call.bytes.length

/-- What the guest relies on, from the offset `first` on. -/
structure ExactStream {abi : Abi} {file : List UInt8} (first : Int) (s : Sender abi file) :
    Prop where
  answers : Answers first s.calls s.offset.value.toInt
  sent : s.sent = slice file first s.sent.length
  finished : ∀ call ∈ s.calls, call.ret = 0 → 0 < call.count → s.sent = file.drop first.toNat

/-- The variable is at the address that is its own value, and the next offset fits. -/
def AtOwnValue {abi : Abi} {file : List UInt8} (s : Sender abi file) (a : SendCall file) : Prop :=
  s.offset.address = s.offset.value ∧
    s.offset.value.toInt + (readAt a.host s.offset.value.toInt a.count).2.length <
      2 ^ (abi.bits - 1)

section Reading

variable {file : List UInt8} {host : SendHost file} {c : Int} {count : Nat}

theorem readAt_ret : (readAt host c count).1.bmod (2 ^ 32) = (readAt host c count).1 := by
  unfold readAt
  cases hTransfer : host.transfer c count with
  | none => rfl
  | some n =>
    have hInt := host.fitsInt c count n hTransfer
    simp only
    rw [Int.bmod_eq_of_le] <;> omega

theorem slice_length {n : Nat} (hn : n ≤ file.length - c.toNat) : (slice file c n).length = n := by
  rw [slice, List.length_take, List.length_drop, Nat.min_eq_left hn]

theorem readAt_bytes : (readAt host c count).2 = slice file c (readAt host c count).2.length := by
  unfold readAt
  cases hTransfer : host.transfer c count with
  | none => rfl
  | some n => simp only [slice_length (host.atMost c count n hTransfer).2]

/-- Pieces that follow on each other are one piece. -/
theorem slice_append (hc : 0 ≤ c) (m n : Nat) :
    slice file c m ++ slice file (c + m) n = slice file c (m + n) := by
  have hNext : (c + m).toNat = c.toNat + m := by omega
  rw [slice, slice, slice, hNext, List.take_add, List.drop_drop]

theorem readAt_zero (hCount : 0 < count) (hZero : (readAt host c count).1 = 0) :
    file.length ≤ c.toNat := by
  unfold readAt at hZero
  cases hTransfer : host.transfer c count with
  | none => simp [hTransfer] at hZero
  | some n =>
    simp only [hTransfer, Int.natCast_eq_zero] at hZero
    by_contra hBefore
    have hProgress := host.progress c count n hTransfer hCount (by omega)
    omega

end Reading

section Answers

variable {file : List UInt8} {first last : Int} {calls : List (Sent file)}

theorem Answers.unique {last' : Int} (h : Answers first calls last)
    (h' : Answers first calls last') : last' = last := by
  induction calls generalizing last last' with
  | nil => exact h'.trans h.symm
  | cons call calls ih =>
    obtain ⟨reached, hBefore, -, rfl⟩ := h
    obtain ⟨reached', hBefore', -, rfl⟩ := h'
    rw [ih hBefore hBefore']

/-- The calls send one piece of the file, from the first offset to the last. -/
theorem Answers.bytes (h : Answers first calls last) (hFirst : 0 ≤ first) :
    last = first + (calls.reverse.flatMap Sent.bytes).length ∧ calls.reverse.flatMap Sent.bytes =
      slice file first (calls.reverse.flatMap Sent.bytes).length := by
  induction calls generalizing last with
  | nil =>
    obtain rfl : last = first := h
    simp [slice]
  | cons call calls ih =>
    obtain ⟨reached, hBefore, hRead, rfl⟩ := h
    obtain ⟨hReached, hSent⟩ := ih hBefore
    have hBytes : call.bytes = slice file reached call.bytes.length := by
      have hSecond : call.bytes = (readAt call.host reached call.count).2 := congrArg Prod.snd hRead
      rw [hSecond]
      exact readAt_bytes
    have hAll : (call :: calls).reverse.flatMap Sent.bytes =
        calls.reverse.flatMap Sent.bytes ++ call.bytes := by simp
    rw [hAll, List.length_append]
    refine ⟨by omega, ?_⟩
    rw [← slice_append hFirst, ← hReached, ← hBytes, ← hSent]

/-- A call that sent nothing was at the end of the file, and the calls after it are too. -/
theorem Answers.finished (h : Answers first calls last) :
    ∀ call ∈ calls, call.ret = 0 → 0 < call.count → file.length ≤ last.toNat := by
  induction calls generalizing last with
  | nil => simp
  | cons call calls ih =>
    obtain ⟨reached, hBefore, hRead, rfl⟩ := h
    intro earlier hEarlier hRet hCount
    rcases List.mem_cons.mp hEarlier with rfl | hEarlier
    · have hZero : (readAt earlier.host reached earlier.count).1 = 0 := by rw [← hRead, hRet]
      have hEnd := readAt_zero hCount hZero
      omega
    · have hEnd := ih hBefore earlier hEarlier hRet hCount
      omega

theorem exactStream_iff {abi : Abi} {s : Sender abi file} (hFirst : 0 ≤ first) :
    ExactStream first s ↔ Answers first s.calls s.offset.value.toInt := by
  constructor
  · exact ExactStream.answers
  · intro hAnswers
    obtain ⟨hLast, hSent⟩ := hAnswers.bytes hFirst
    refine ⟨hAnswers, hSent, fun call hCall hRet hCount => ?_⟩
    have hEnd := hAnswers.finished call hCall hRet hCount
    refine hSent.trans (List.take_of_length_le ?_)
    rw [List.length_drop]
    omega

end Answers

section Step

variable {abi : Abi} {file : List UInt8} {first : Int} {s s' : Sender abi file} {a : SendCall file}

theorem step_eq (hStep : s.step a = some s') :
    s' = ⟨{ s.offset with value := BitVec.ofInt abi.bits (s.offset.address.toInt +
        (readAt a.host s.offset.address.toInt a.count).2.length) },
      ⟨a, (readAt a.host s.offset.address.toInt a.count).1,
        (readAt a.host s.offset.address.toInt a.count).2⟩ :: s.calls⟩ := by
  simp only [Sender.step, sendfile, readAt_ret, Option.map_some, Option.some.injEq] at hStep
  exact hStep.symm

theorem advance_iff {address value : abi.Word} {k : Nat} :
    (BitVec.ofInt abi.bits (address.toInt + k)).toInt = value.toInt + k ↔
      address = value ∧ value.toInt + k < 2 ^ (abi.bits - 1) := by
  constructor
  · intro hNext
    constructor
    · have hWords : BitVec.ofInt abi.bits (address.toInt + k) =
          BitVec.ofInt abi.bits (value.toInt + k) := by rw [← hNext, BitVec.ofInt_toInt]
      rw [BitVec.ofInt_add, BitVec.ofInt_add, BitVec.ofInt_toInt, BitVec.ofInt_toInt] at hWords
      exact (BitVec.add_left_inj _).mp hWords
    · rw [← hNext]
      exact BitVec.toInt_lt
  · rintro ⟨rfl, hFits⟩
    have hLow := BitVec.le_toInt address
    have hBits : 0 < abi.bits := by cases abi <;> decide
    exact BitVec.toInt_ofInt_eq_self hBits (by omega) hFits

/-- A call at the guest's offset is answered there and leaves the next offset exactly where the
variable is at its own value. -/
theorem step_answers (hAnswers : Answers first s.calls s.offset.value.toInt)
    (hStep : s.step a = some s') :
    Answers first s'.calls s'.offset.value.toInt ↔ AtOwnValue s a := by
  rw [step_eq hStep]
  constructor
  · rintro ⟨reached, hBefore, -, hNext⟩
    obtain rfl := hAnswers.unique hBefore
    obtain ⟨hAddress, hFits⟩ := advance_iff.mp hNext
    exact ⟨hAddress, hAddress ▸ hFits⟩
  · rintro ⟨hAddress, hFits⟩
    refine ⟨s.offset.value.toInt, hAnswers, ?_, ?_⟩
    · rw [hAddress]
    · rw [← hAddress] at hFits ⊢
      exact advance_iff.mpr ⟨rfl, hFits⟩

/-- Every call is admitted. -/
theorem exec_total (s : Sender abi file) (tr : List (SendCall file)) :
    ∃ last, exec Sender.step s tr = some last := by
  induction tr generalizing s with
  | nil => exact ⟨s, rfl⟩
  | cons a tr ih =>
    obtain ⟨last, hLast⟩ := ih _
    exact ⟨last, exec_cons.mpr ⟨_, rfl, hLast⟩⟩

end Step

/-- In every run of calls, every state is as the guest relies on exactly when every call finds the
variable at the address that is its own value. -/
theorem sendfile_streams {abi : Abi} {file : List UInt8} (offset : OffsetVar abi)
    (hFirst : 0 ≤ offset.value.toInt) (tr : List (SendCall file)) :
    (∀ s, Visits Sender.step (Sender.start file offset) tr s →
        ExactStream offset.value.toInt s) ↔
      Along Sender.step AtOwnValue (Sender.start file offset) tr := by
  obtain ⟨last, hLast⟩ := exec_total (Sender.start file offset) tr
  simp only [exactStream_iff hFirst]
  exact visits_invariant_iff (fun s a s' hI hStep => step_answers hI hStep) rfl hLast

/-- A variable at address 8 that holds 8: the last two bytes of ten are sent. -/
theorem sendfile_streams_tail :
    ∃ s, Visits Sender.step (Sender.start (List.replicate 10 7) (⟨8, 8⟩ : OffsetVar .lp64))
        [⟨eager _, 64⟩] s ∧ s.sent = [7, 7] ∧ ExactStream (8 : Abi.lp64.Word).toInt s := by
  have hAll := (@sendfile_streams .lp64 (List.replicate 10 7) ⟨8, 8⟩ (by decide)
    [⟨eager _, 64⟩]).mpr ⟨⟨rfl, by decide⟩, fun _ _ => trivial⟩
  have hLast : Visits Sender.step (Sender.start (List.replicate 10 7) (⟨8, 8⟩ : OffsetVar .lp64))
      [⟨eager _, 64⟩] _ := ⟨[⟨eager _, 64⟩], [], rfl, rfl⟩
  exact ⟨_, hLast, by decide, hAll _ hLast⟩

/-- The variable at `0x1000` holds zero, and the host is asked for what follows byte `0x1000`. -/
theorem sendfile_lost :
    ¬∀ s, Visits Sender.step (Sender.start [1, 2, 3] (⟨0x1000, 0⟩ : OffsetVar .lp64))
        [⟨eager _, 3⟩] s → ExactStream (0 : Abi.lp64.Word).toInt s := by
  intro hAll
  obtain ⟨reached, rfl, hRead, -⟩ := (hAll _ ⟨[⟨eager _, 3⟩], [], rfl, rfl⟩).answers
  exact absurd hRead (by decide)

end LibcShim.File
