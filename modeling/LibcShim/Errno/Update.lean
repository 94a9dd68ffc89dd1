import LibcShim.Errno
import LibcShim.Kit.Run

/-! The guest's errno where it is a variable of its own, as on Darwin: `errno_value`, the host's
errno, and the wrapper that carries the one into a call of the host and the other out of it. -/

namespace LibcShim

open Kit

def translateErrnoToHost (host : HostErrno) (err : Int) : Int :=
  match (errnoRows host.os).find? fun row => row.2 == err with
  | some row => host.number row.1
  | none => err

section Translation

variable (host : HostErrno)

theorem translateErrnoFromHost_row {row : Errno × Int} (h : row ∈ errnoRows host.os) :
    translateErrnoFromHost host (host.number row.1) = row.2 := by
  unfold translateErrnoFromHost
  cases hFind : (errnoRows host.os).find? fun r => host.number r.1 == host.number row.1 with
  | none =>
    have hNot := List.find?_eq_none.mp hFind row h
    simp at hNot
  | some r =>
    have hNumber : host.number r.1 = host.number row.1 := by simpa using List.find?_some hFind
    rw [host.distinct r (List.mem_of_find?_eq_some hFind) row h hNumber]

theorem translateErrnoFromHost_default {err : Int}
    (h : ∀ row ∈ errnoRows host.os, host.number row.1 ≠ err) :
    translateErrnoFromHost host err = err := by
  unfold translateErrnoFromHost
  rw [List.find?_eq_none.mpr (by simpa using h)]

theorem translateErrnoToHost_row {row : Errno × Int} (h : row ∈ errnoRows host.os) :
    translateErrnoToHost host row.2 = host.number row.1 := by
  unfold translateErrnoToHost
  cases hFind : (errnoRows host.os).find? fun r => r.2 == row.2 with
  | none =>
    have hNot := List.find?_eq_none.mp hFind row h
    simp at hNot
  | some r =>
    have hCode : r.2 = row.2 := by simpa using List.find?_some hFind
    have hMem : r ∈ errnoTable := List.mem_of_mem_filter (List.mem_of_find?_eq_some hFind)
    rw [errnoTable_injective hMem (List.mem_of_mem_filter h) hCode]

theorem translateErrnoToHost_default {err : Int} (h : ∀ row ∈ errnoRows host.os, row.2 ≠ err) :
    translateErrnoToHost host err = err := by
  unfold translateErrnoToHost
  rw [List.find?_eq_none.mpr (by simpa using h)]

/-- The guest's codes that come back from the host: those of a row, and those that are no number
of a row on the host either. -/
def Kept (err : Int) : Prop :=
  (∃ row ∈ errnoRows host.os, row.2 = err) ∨ ∀ row ∈ errnoRows host.os, host.number row.1 ≠ err

theorem translateErrno_round_trip (err : Int) :
    translateErrnoFromHost host (translateErrnoToHost host err) = err ↔ Kept host err := by
  by_cases hGuest : ∃ row ∈ errnoRows host.os, row.2 = err
  · obtain ⟨row, hRow, rfl⟩ := hGuest
    rw [translateErrnoToHost_row host hRow, translateErrnoFromHost_row host hRow]
    exact iff_of_true rfl (Or.inl ⟨row, hRow, rfl⟩)
  · have hNone : ∀ row ∈ errnoRows host.os, row.2 ≠ err :=
      fun row hRow hCode => hGuest ⟨row, hRow, hCode⟩
    rw [translateErrnoToHost_default host hNone]
    constructor
    · intro hSame
      refine Or.inr fun row hRow hNumber => hNone row hRow ?_
      rw [← hSame, ← hNumber, translateErrnoFromHost_row host hRow]
    · rintro (hRow | hHost)
      · exact absurd hRow hGuest
      · exact translateErrnoFromHost_default host hHost

end Translation

/-! ### Darwin's `errno.h` -/

/-- The names that the translation knows, with Darwin's numbers. -/
def darwinTable : List (Errno × Int) :=
  [(.eperm, 1), (.enoent, 2), (.esrch, 3), (.eintr, 4), (.eio, 5), (.enxio, 6), (.e2big, 7),
  (.enoexec, 8), (.ebadf, 9), (.echild, 10), (.edeadlk, 11), (.enomem, 12), (.eacces, 13),
  (.efault, 14), (.enotblk, 15), (.ebusy, 16), (.eexist, 17), (.exdev, 18), (.enodev, 19),
  (.enotdir, 20), (.eisdir, 21), (.einval, 22), (.enfile, 23), (.emfile, 24), (.enotty, 25),
  (.etxtbsy, 26), (.efbig, 27), (.enospc, 28), (.espipe, 29), (.erofs, 30), (.emlink, 31),
  (.epipe, 32), (.edom, 33), (.erange, 34), (.eagain, 35), (.einprogress, 36), (.ealready, 37),
  (.enotsock, 38), (.edestaddrreq, 39), (.emsgsize, 40), (.eprototype, 41), (.enoprotoopt, 42),
  (.eprotonosupport, 43), (.esocktnosupport, 44), (.epfnosupport, 46), (.eafnosupport, 47),
  (.eaddrinuse, 48), (.eaddrnotavail, 49), (.enetdown, 50), (.enetunreach, 51), (.enetreset, 52),
  (.econnaborted, 53), (.econnreset, 54), (.enobufs, 55), (.eisconn, 56), (.enotconn, 57),
  (.eshutdown, 58), (.etoomanyrefs, 59), (.etimedout, 60), (.econnrefused, 61), (.eloop, 62),
  (.enametoolong, 63), (.ehostdown, 64), (.ehostunreach, 65), (.enotempty, 66), (.eusers, 68),
  (.edquot, 69), (.estale, 70), (.eremote, 71), (.enolck, 77), (.enosys, 78), (.eoverflow, 84),
  (.ecanceled, 89), (.eidrm, 90), (.enomsg, 91), (.eilseq, 92), (.ebadmsg, 94), (.emultihop, 95),
  (.enodata, 96), (.enolink, 97), (.enosr, 98), (.enostr, 99), (.eproto, 100), (.etime, 101),
  (.eopnotsupp, 102), (.enotrecoverable, 104), (.eownerdead, 105)]

/-- The names that Darwin lacks have no row in the translation. -/
def Errno.darwinNumber (e : Errno) : Int :=
  match darwinTable.find? fun row => row.1 == e with
  | some row => row.2
  | none => 1

def darwinErrno : HostErrno where
  os := .apple
  number := Errno.darwinNumber
  positive e := by
    have hAll : ∀ row ∈ darwinTable, 0 < row.2 := by decide +kernel
    unfold Errno.darwinNumber
    split
    · exact hAll _ (List.mem_of_find?_eq_some ‹_›)
    · decide
  distinct := by decide +kernel

/-- The names that Darwin has and the translation does not know. -/
inductive DarwinOnly
  | enotsup | eproclim | ebadrpc | erpcmismatch | eprogunavail | eprogmismatch | eprocunavail
  | eftype | eauth | eneedauth | epwroff | edeverr | ebadexec | ebadarch | eshlibvers | ebadmacho
  | enoattr | enopolicy | eqfull
  deriving DecidableEq, Repr

def DarwinOnly.number : DarwinOnly → Int
  | .enotsup => 45
  | .eproclim => 67
  | .ebadrpc => 72
  | .erpcmismatch => 73
  | .eprogunavail => 74
  | .eprogmismatch => 75
  | .eprocunavail => 76
  | .eftype => 79
  | .eauth => 80
  | .eneedauth => 81
  | .epwroff => 82
  | .edeverr => 83
  | .ebadexec => 85
  | .ebadarch => 86
  | .eshlibvers => 87
  | .ebadmacho => 88
  | .enoattr => 93
  | .enopolicy => 103
  | .eqfull => 106

theorem darwinNumber_mem (e : Errno) : ∃ row ∈ darwinTable, row.2 = e.darwinNumber := by
  unfold Errno.darwinNumber
  cases hFind : darwinTable.find? fun row => row.1 == e with
  | none => exact ⟨(.eperm, 1), by decide, rfl⟩
  | some row => exact ⟨row, List.mem_of_find?_eq_some hFind, rfl⟩

theorem DarwinOnly.number_not_named (e : DarwinOnly) : ∀ row ∈ darwinTable, row.2 ≠ e.number := by
  cases e <;> decide +kernel

theorem DarwinOnly.number_injective {a b : DarwinOnly} (h : a.number = b.number) : a = b := by
  cases a <;> cases b <;> first | rfl | cases h

theorem errnoTable_complete (e : Errno) : (e, e.linuxNumber) ∈ errnoTable := by
  cases e <;> decide +kernel

theorem errnoRows_apple {e : Errno} (h : e.linuxOnly = false) :
    (e, e.linuxNumber) ∈ errnoRows .apple :=
  List.mem_filter.mpr ⟨errnoTable_complete e, by simp [h]⟩

/-- An error of Darwin, by its name. -/
inductive DarwinError
  | known (e : Errno) (h : e.linuxOnly = false)
  | only (e : DarwinOnly)
  deriving DecidableEq

namespace DarwinError

def number : DarwinError → Int
  | known e _ => e.darwinNumber
  | only e => e.number

/-- The number of the same name in bionic's `errno.h`, where `ENOTSUP` is `EOPNOTSUPP`. -/
def guestNumber : DarwinError → Option Int
  | known e _ => some e.linuxNumber
  | only .enotsup => some 95
  | only _ => none

/-- What the guest is shown: an error that only Darwin has falls through to the default case. -/
def shown : DarwinError → Int
  | known e _ => e.linuxNumber
  | only e => e.number

theorem translateErrnoFromHost_number (e : DarwinError) :
    translateErrnoFromHost darwinErrno e.number = e.shown := by
  cases e with
  | known e h =>
    exact translateErrnoFromHost_row darwinErrno (errnoRows_apple h)
  | only e =>
    refine translateErrnoFromHost_default darwinErrno fun row _ => ?_
    obtain ⟨named, hNamed, hNumber⟩ := darwinNumber_mem row.1
    exact fun hSame => e.number_not_named named hNamed (hNumber.trans hSame)

theorem guestNumber_eq_shown {e : DarwinError} :
    (∀ v ∈ e.guestNumber, e.shown = v) ↔ e ≠ only .enotsup := by
  cases e with
  | known e h => simp [guestNumber, shown]
  | only e => cases e <;> simp [guestNumber, shown, DarwinOnly.number]

/-- An error that only Darwin has, with bionic's number for the other one. -/
def SharesNumber : DarwinError → DarwinError → Prop
  | known e _, only e' => e.linuxNumber = e'.number
  | only e, known e' _ => e.number = e'.linuxNumber
  | _, _ => False

theorem shown_eq_iff {e e' : DarwinError} (hNe : e ≠ e') :
    e.shown = e'.shown ↔ SharesNumber e e' := by
  cases e with
  | known e h =>
    cases e' with
    | known e' h' =>
      refine iff_of_false (fun hSame => hNe ?_) id
      have hRow := errnoTable_injective (errnoTable_complete e) (errnoTable_complete e') hSame
      obtain rfl : e = e' := congrArg Prod.fst hRow
      rfl
    | only e' => rfl
  | only e =>
    cases e' with
    | known e' h' => rfl
    | only e' =>
      refine iff_of_false (fun hSame => hNe ?_) id
      rw [DarwinOnly.number_injective hSame]

end DarwinError

/-! ### The two variables of a thread -/

structure ErrnoState where
  errnoValue : Int
  errno : Int
  deriving DecidableEq, Repr

namespace ErrnoState

def updateErrno (s : ErrnoState) : ErrnoState :=
  { s with errnoValue := translateErrnoFromHost darwinErrno s.errno }

def syncErrno (s : ErrnoState) : ErrnoState :=
  { s with errno := translateErrnoToHost darwinErrno s.errnoValue }

def setErrno (err : Int) (_ : ErrnoState) : ErrnoState where
  errnoValue := err
  errno := translateErrnoToHost darwinErrno err

/-- `*get_errno() = err`: the guest has a pointer to `errno_value` itself. -/
def storeErrno (err : Int) (s : ErrnoState) : ErrnoState := { s with errnoValue := err }

end ErrnoState

/-- The return type of a wrapped function: a pointer, or a number. -/
inductive Ret
  | pointer
  | integer
  deriving DecidableEq, Repr

def Ret.failure : Ret → Int
  | pointer => 0
  | integer => -1

/-- What a wrapped function does. -/
inductive Outcome
  | leaves (ret : Int)
  | sets (e : DarwinError) (ret : Int)
  | throws
  deriving DecidableEq

/-- The state that the function leaves, and its result unless it throws. -/
def Outcome.run : Outcome → ErrnoState → ErrnoState × Option Int
  | leaves ret, s => (s, some ret)
  | sets e ret, s => ({ s with errno := e.number }, some ret)
  | throws, s => (s, none)

def wrapper (ret : Ret) (ptr : ErrnoState → ErrnoState × Option Int) (s : ErrnoState) :
    ErrnoState × Int :=
  match ptr s.syncErrno with
  | (s, some result) => (s.updateErrno, result)
  | (s, none) => ({ s with errno := Errno.darwinNumber .einval }.updateErrno, ret.failure)

/-! ### Runs -/

/-- What a guest thread does with its errno. -/
inductive Act
  | store (err : Int)
  | set (err : Int)
  | call (ret : Ret) (outcome : Outcome)
  deriving DecidableEq

def Act.apply : Act → ErrnoState → ErrnoState
  | store err, s => s.storeErrno err
  | set err, s => s.setErrno err
  | call ret outcome, s => (wrapper ret outcome.run s).1

def errnoStep (s : ErrnoState) (a : Act) : Option ErrnoState := some (a.apply s)

/-- The value that one errno variable has after an action, when it had `d` before; `none` where
bionic has no code for the error. -/
def Act.demand (d : Option Int) : Act → Option Int
  | store err => some err
  | set err => some err
  | call _ (.leaves _) => d
  | call _ (.sets e _) => e.guestNumber
  | call _ .throws => some (Errno.linuxNumber .einval)

/-- Along the run the guest's errno is what its history demands, a call that leaves the host's
errno alone leaves the guest's as well, and a call that threw says so in its result. -/
structure OneVariable (s : ErrnoState) (tr : List Act) : Prop where
  shows : ∀ before after m, tr = before ++ after → exec errnoStep s before = some m →
    ∀ v ∈ before.foldl Act.demand (some s.errnoValue), m.errnoValue = v
  quiet : ∀ before ret result after m, tr = before ++ .call ret (.leaves result) :: after →
    exec errnoStep s before = some m →
    ((Act.call ret (.leaves result)).apply m).errnoValue = m.errnoValue
  thrown : ∀ before ret after m, tr = before ++ .call ret .throws :: after →
    exec errnoStep s before = some m →
    (wrapper ret Outcome.throws.run m).2 = match ret with
      | .pointer => 0
      | .integer => -1

/-- The steps that keep the guest's errno one variable. -/
def Sound (s : ErrnoState) : Act → Prop
  | .call _ (.leaves _) => Kept darwinErrno s.errnoValue
  | .call _ (.sets e _) => e ≠ .only .enotsup
  | _ => True

@[simp] theorem errnoStep_eq {s s' : ErrnoState} {a : Act} :
    errnoStep s a = some s' ↔ a.apply s = s' := by
  simp [errnoStep]

@[simp] theorem apply_leaves (ret : Ret) (result : Int) (s : ErrnoState) :
    ((Act.call ret (.leaves result)).apply s).errnoValue =
      translateErrnoFromHost darwinErrno (translateErrnoToHost darwinErrno s.errnoValue) :=
  rfl

@[simp] theorem apply_sets (ret : Ret) (e : DarwinError) (result : Int) (s : ErrnoState) :
    ((Act.call ret (.sets e result)).apply s).errnoValue = e.shown :=
  DarwinError.translateErrnoFromHost_number e

@[simp] theorem apply_throws (ret : Ret) (s : ErrnoState) :
    ((Act.call ret .throws).apply s).errnoValue = Errno.linuxNumber .einval :=
  translateErrnoFromHost_row darwinErrno (errnoRows_apple (e := .einval) rfl)

theorem apply_demand {s : ErrnoState} {a : Act} {d : Option Int} (hSound : Sound s a)
    (hShows : ∀ v ∈ d, s.errnoValue = v) : ∀ v ∈ a.demand d, (a.apply s).errnoValue = v := by
  cases a with
  | store err => rintro v ⟨⟩; rfl
  | set err => rintro v ⟨⟩; rfl
  | call ret outcome =>
    cases outcome with
    | leaves result =>
      intro v hv
      rw [apply_leaves, (translateErrno_round_trip darwinErrno s.errnoValue).mpr hSound]
      exact hShows v hv
    | sets e result =>
      intro v hv
      rw [apply_sets]
      exact DarwinError.guestNumber_eq_shown.mpr hSound v hv
    | throws =>
      rintro v ⟨⟩
      exact apply_throws ret s

theorem shows_of_along {s m : ErrnoState} {before after : List Act}
    (hSound : Along errnoStep Sound s (before ++ after)) (hRun : exec errnoStep s before = some m) :
    ∀ v ∈ before.foldl Act.demand (some s.errnoValue), m.errnoValue = v := by
  induction before using List.reverseRecOn generalizing m after with
  | nil =>
    obtain rfl : s = m := Option.some.inj hRun
    simp
  | append_singleton before a ih =>
    obtain ⟨k, hk, ha⟩ := exec_snoc.mp hRun
    rw [List.append_assoc] at hSound
    have hStep : Sound k a := along_iff.mp hSound before a after k rfl hk
    obtain rfl := errnoStep_eq.mp ha
    rw [List.foldl_append]
    exact apply_demand hStep (ih hSound hk)

theorem sound_of_oneVariable {s m : ErrnoState} {before after : List Act} {a : Act}
    (hOne : OneVariable s (before ++ a :: after)) (hRun : exec errnoStep s before = some m) :
    Sound m a := by
  cases a with
  | store err => trivial
  | set err => trivial
  | call ret outcome =>
    cases outcome with
    | leaves result =>
      exact (translateErrno_round_trip darwinErrno m.errnoValue).mp
        (hOne.quiet before ret result after m rfl hRun)
    | sets e result =>
      refine DarwinError.guestNumber_eq_shown.mp fun v hv => ?_
      have hNext : exec errnoStep s (before ++ [.call ret (.sets e result)]) =
          some ((Act.call ret (.sets e result)).apply m) :=
        exec_snoc.mpr ⟨m, hRun, rfl⟩
      rw [← apply_sets ret e result m]
      refine hOne.shows _ after _ (by simp) hNext v ?_
      simpa [Act.demand] using hv
    | throws => trivial

theorem oneVariable_iff (s : ErrnoState) (tr : List Act) :
    OneVariable s tr ↔ Along errnoStep Sound s tr := by
  constructor
  · intro hOne
    refine along_iff.mpr fun before a after m hSplit hRun => ?_
    exact sound_of_oneVariable (hSplit ▸ hOne) hRun
  · intro hSound
    refine ⟨fun before after m hSplit hRun => ?_, fun before ret result after m hSplit hRun => ?_,
      fun before ret after m _ _ => ?_⟩
    · exact shows_of_along (hSplit ▸ hSound) hRun
    · rw [apply_leaves, translateErrno_round_trip]
      exact along_iff.mp hSound _ _ _ m hSplit hRun
    · cases ret <;> rfl

/-- A run keeps one guest errno exactly when no call is made with a guest code whose number is that
of another error on the host, and none sets `ENOTSUP`; two errors of the host look the same exactly
when one of them has no name in the translation and the other's number. -/
theorem errno_one_variable (s : ErrnoState) (tr : List Act) (t t' : ErrnoState) (ret ret' : Ret)
    (e e' : DarwinError) (result result' : Int) :
    (OneVariable s tr ↔ Along errnoStep Sound s tr) ∧
    (e ≠ e' →
      (((Act.call ret (.sets e result)).apply t).errnoValue ≠
          ((Act.call ret' (.sets e' result')).apply t').errnoValue ↔
        ¬ DarwinError.SharesNumber e e')) := by
  refine ⟨oneVariable_iff s tr, fun hNe => ?_⟩
  rw [apply_sets, apply_sets, ne_eq, DarwinError.shown_eq_iff hNe]

theorem errno_eagain_survives_call :
    OneVariable ⟨0, 0⟩ [.store 11, .call .pointer (.leaves 0)] ∧
    ((Act.call .integer (.sets (.known .eagain rfl) (-1))).apply ⟨0, 0⟩).errnoValue ≠
      ((Act.call .integer (.sets (.only .eftype) (-1))).apply ⟨0, 0⟩).errnoValue := by
  obtain ⟨hRuns, hErrors⟩ :=
    errno_one_variable ⟨0, 0⟩ [.store 11, .call .pointer (.leaves 0)] ⟨0, 0⟩ ⟨0, 0⟩ .integer
      .integer (.known .eagain rfl) (.only .eftype) (-1) (-1)
  constructor
  · refine hRuns.mpr ⟨trivial, fun s hs => ⟨?_, fun _ _ => trivial⟩⟩
    obtain rfl := errnoStep_eq.mp hs
    exact Or.inl ⟨(.eagain, 11), by decide +kernel, rfl⟩
  · exact (hErrors (by decide)).mpr
      fun (hSame : Errno.linuxNumber .eagain = DarwinOnly.number .eftype) =>
        absurd hSame (by decide +kernel)

/-- `EL2HLT` is 51, which is Darwin's `ENETUNREACH`; Darwin's `EPROCLIM` is bionic's `ENOLINK`. -/
theorem errno_not_one_variable :
    exec errnoStep ⟨0, 0⟩ [.store 51, .call .integer (.leaves 0)] = some ⟨101, 51⟩ ∧
    ¬ OneVariable ⟨0, 0⟩ [.store 51, .call .integer (.leaves 0)] ∧
    DarwinError.shown (.only .eproclim) = DarwinError.shown (.known .enolink rfl) := by
  have hRun : exec errnoStep ⟨0, 0⟩ [.store 51, .call .integer (.leaves 0)] = some ⟨101, 51⟩ := by
    decide +kernel
  refine ⟨hRun, fun hOne => ?_, by decide +kernel⟩
  have hShows := hOne.shows _ [] _ (List.append_nil _).symm hRun 51 rfl
  exact absurd hShows (by decide)

end LibcShim
