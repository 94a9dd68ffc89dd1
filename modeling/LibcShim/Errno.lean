import Mathlib.Data.List.Basic

/-! Error numbers.  The guest's are bionic's and fixed; the host's are its own `errno.h`'s, and
`translate_errno_from_host` carries them over by name. -/

namespace LibcShim

inductive Os
  | linux
  | apple
  | freebsd
  deriving DecidableEq, Repr

inductive Errno
  | eperm | enoent | esrch | eintr | eio | enxio | e2big | enoexec | ebadf | echild | eagain
  | enomem | eacces | efault | enotblk | ebusy | eexist | exdev | enodev | enotdir | eisdir
  | einval | enfile | emfile | enotty | etxtbsy | efbig | enospc | espipe | erofs | emlink | epipe
  | edom | erange | edeadlk | enametoolong | enolck | enosys | enotempty | eloop | enomsg | eidrm
  | echrng | el2nsync | el3hlt | el3rst | elnrng | eunatch | enocsi | el2hlt | ebade | ebadr
  | exfull | enoano | ebadrqc | ebadslt | ebfont | enostr | enodata | etime | enosr | enonet
  | enopkg | eremote | enolink | eadv | esrmnt | ecomm | eproto | emultihop | edotdot | ebadmsg
  | eoverflow | enotuniq | ebadfd | eremchg | elibacc | elibbad | elibscn | elibmax | elibexec
  | eilseq | erestart | estrpipe | eusers | enotsock | edestaddrreq | emsgsize | eprototype
  | enoprotoopt | eprotonosupport | esocktnosupport | eopnotsupp | epfnosupport | eafnosupport
  | eaddrinuse | eaddrnotavail | enetdown | enetunreach | enetreset | econnaborted | econnreset
  | enobufs | eisconn | enotconn | eshutdown | etoomanyrefs | etimedout | econnrefused | ehostdown
  | ehostunreach | ealready | einprogress | estale | euclean | enotnam | enavail | eisnam
  | eremoteio | edquot | enomedium | emediumtype | ecanceled | enokey | ekeyexpired | ekeyrevoked
  | ekeyrejected | eownerdead | enotrecoverable
  deriving DecidableEq, Repr

/-- The rows of the translation and bionic's numbers for them. -/
def errnoTable : List (Errno × Int) :=
  [(.eperm, 1), (.enoent, 2), (.esrch, 3), (.eintr, 4), (.eio, 5), (.enxio, 6), (.e2big, 7),
  (.enoexec, 8), (.ebadf, 9), (.echild, 10), (.eagain, 11), (.enomem, 12), (.eacces, 13),
  (.efault, 14), (.enotblk, 15), (.ebusy, 16), (.eexist, 17), (.exdev, 18), (.enodev, 19),
  (.enotdir, 20), (.eisdir, 21), (.einval, 22), (.enfile, 23), (.emfile, 24), (.enotty, 25),
  (.etxtbsy, 26), (.efbig, 27), (.enospc, 28), (.espipe, 29), (.erofs, 30), (.emlink, 31),
  (.epipe, 32), (.edom, 33), (.erange, 34), (.edeadlk, 35), (.enametoolong, 36), (.enolck, 37),
  (.enosys, 38), (.enotempty, 39), (.eloop, 40), (.enomsg, 42), (.eidrm, 43), (.echrng, 44),
  (.el2nsync, 45), (.el3hlt, 46), (.el3rst, 47), (.elnrng, 48), (.eunatch, 49), (.enocsi, 50),
  (.el2hlt, 51), (.ebade, 52), (.ebadr, 53), (.exfull, 54), (.enoano, 55), (.ebadrqc, 56),
  (.ebadslt, 57), (.ebfont, 59), (.enostr, 60), (.enodata, 61), (.etime, 62), (.enosr, 63),
  (.enonet, 64), (.enopkg, 65), (.eremote, 66), (.enolink, 67), (.eadv, 68), (.esrmnt, 69),
  (.ecomm, 70), (.eproto, 71), (.emultihop, 72), (.edotdot, 73), (.ebadmsg, 74), (.eoverflow, 75),
  (.enotuniq, 76), (.ebadfd, 77), (.eremchg, 78), (.elibacc, 79), (.elibbad, 80), (.elibscn, 81),
  (.elibmax, 82), (.elibexec, 83), (.eilseq, 84), (.erestart, 85), (.estrpipe, 86), (.eusers, 87),
  (.enotsock, 88), (.edestaddrreq, 89), (.emsgsize, 90), (.eprototype, 91), (.enoprotoopt, 92),
  (.eprotonosupport, 93), (.esocktnosupport, 94), (.eopnotsupp, 95), (.epfnosupport, 96),
  (.eafnosupport, 97), (.eaddrinuse, 98), (.eaddrnotavail, 99), (.enetdown, 100),
  (.enetunreach, 101), (.enetreset, 102), (.econnaborted, 103), (.econnreset, 104),
  (.enobufs, 105), (.eisconn, 106), (.enotconn, 107), (.eshutdown, 108), (.etoomanyrefs, 109),
  (.etimedout, 110), (.econnrefused, 111), (.ehostdown, 112), (.ehostunreach, 113),
  (.ealready, 114), (.einprogress, 115), (.estale, 116), (.euclean, 117), (.enotnam, 118),
  (.enavail, 119), (.eisnam, 120), (.eremoteio, 121), (.edquot, 122), (.enomedium, 123),
  (.emediumtype, 124), (.ecanceled, 125), (.enokey, 126), (.ekeyexpired, 127), (.ekeyrevoked, 128),
  (.ekeyrejected, 129), (.eownerdead, 130), (.enotrecoverable, 131)]

/-- The rows under `#ifdef __linux__`. -/
def Errno.linuxOnly : Errno → Bool
  | .echrng | .el2nsync | .el3hlt | .el3rst | .elnrng | .eunatch | .enocsi | .el2hlt | .ebade
  | .ebadr | .exfull | .enoano | .ebadrqc | .ebadslt | .ebfont | .enonet | .enopkg | .eadv
  | .esrmnt | .ecomm | .edotdot | .enotuniq | .ebadfd | .eremchg | .elibacc | .elibbad | .elibscn
  | .elibmax | .elibexec | .erestart | .estrpipe | .euclean | .enotnam | .enavail | .eisnam
  | .eremoteio | .enomedium | .emediumtype | .enokey | .ekeyexpired | .ekeyrevoked
  | .ekeyrejected => true
  | _ => false

def errnoRows (os : Os) : List (Errno × Int) :=
  errnoTable.filter fun row => os == .linux || !row.1.linuxOnly

/-- The host's `errno.h`.  Two rows of one number would not compile as cases of a switch. -/
structure HostErrno where
  os : Os
  number : Errno → Int
  positive : ∀ e, 0 < number e
  distinct : ∀ a ∈ errnoRows os, ∀ b ∈ errnoRows os, number a.1 = number b.1 → a = b

def translateErrnoFromHost (host : HostErrno) (err : Int) : Int :=
  match (errnoRows host.os).find? fun row => host.number row.1 == err with
  | some row => row.2
  | none => err

theorem errnoRows_positive {os : Os} {row : Errno × Int} (h : row ∈ errnoRows os) :
    0 < row.2 := by
  have hAll : ∀ row ∈ errnoTable, 0 < row.2 := by decide +kernel
  exact hAll row (List.mem_of_mem_filter h)

theorem translateErrnoFromHost_eq_zero (host : HostErrno) (err : Int) :
    translateErrnoFromHost host err = 0 ↔ err = 0 := by
  unfold translateErrnoFromHost
  cases hFind : (errnoRows host.os).find? fun row => host.number row.1 == err with
  | none => simp
  | some row =>
    have hRow : 0 < row.2 := errnoRows_positive (List.mem_of_find?_eq_some hFind)
    have hNumber : host.number row.1 = err := by simpa using List.find?_some hFind
    have hPositive := host.positive row.1
    simp only
    omega

/-- The number of a name in Linux's `errno.h`, which bionic shares. -/
def Errno.linuxNumber (e : Errno) : Int :=
  match errnoTable.find? fun row => row.1 == e with
  | some row => row.2
  | none => 1

theorem linuxNumber_row {row : Errno × Int} (h : row ∈ errnoTable) :
    row.1.linuxNumber = row.2 := by
  have hAll : ∀ row ∈ errnoTable, row.1.linuxNumber = row.2 := by decide +kernel
  exact hAll row h

theorem errnoTable_injective {a b : Errno × Int} (ha : a ∈ errnoTable) (hb : b ∈ errnoTable)
    (h : a.2 = b.2) : a = b := by
  have hSorted : errnoTable.Pairwise fun a b => a.2 < b.2 := by decide +kernel
  obtain ⟨i, hi, rfl⟩ := List.getElem_of_mem ha
  obtain ⟨j, hj, rfl⟩ := List.getElem_of_mem hb
  rcases Nat.lt_trichotomy i j with hij | rfl | hji
  · have := List.pairwise_iff_getElem.mp hSorted i j hi hj hij
    omega
  · rfl
  · have := List.pairwise_iff_getElem.mp hSorted j i hj hi hji
    omega

def linuxErrno : HostErrno where
  os := .linux
  number := Errno.linuxNumber
  positive e := by
    unfold Errno.linuxNumber
    split
    · rename_i row hFind
      have hRow : row ∈ errnoRows .linux := by
        simpa [errnoRows] using List.mem_of_find?_eq_some hFind
      exact errnoRows_positive hRow
    · decide
  distinct a ha b hb h := by
    have hTable : errnoRows .linux = errnoTable := List.filter_eq_self.mpr fun _ _ => rfl
    rw [hTable] at ha hb
    rw [linuxNumber_row ha, linuxNumber_row hb] at h
    exact errnoTable_injective ha hb h

end LibcShim
