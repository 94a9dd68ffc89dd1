import LibcShim.ArgRewrite
import LibcShim.Errno.Update
import LibcShim.Pthread.LazyInit
import LibcShim.Pthread.Lifetime

/-! The rows of `add_pthread_shimmed_symbols` with an error number for a result: a function of the
shim, the host's own function behind `arg_rewrite_helper`, or the bare one.  What the host leaves of
a call is a choice of the run; calls with a result that nobody reads are left out. -/

namespace LibcShim.Pthread.Symbols

open ArgRewrite
open Lifetime (HostInit hostMutexattr hostCondattr)

inductive MutexOp
  | lock
  | unlock
  | trylock
  deriving DecidableEq, Repr

inductive CondOp
  | wait
  | broadcast
  | signal
  | timedwait
  deriving DecidableEq, Repr

inductive RwlockOp
  | rdlock
  | tryrdlock
  | wrlock
  | trywrlock
  | unlock
  deriving DecidableEq, Repr

/-- The functions of the host's `pthread.h`. -/
inductive HostFn
  | create
  | join
  | detach
  | kill
  | atfork
  | getschedparam
  | setschedparam
  | getattrNp
  | setnameNp
  | init (kind : SyncKind)
  | destroy (kind : SyncKind)
  | mutex (op : MutexOp)
  | cond (op : CondOp)
  | rwlock (op : RwlockOp)
  | keyCreate
  | keyDelete
  | setspecific
  deriving DecidableEq, Repr

/-- The result, and the word that the out-parameter of `pthread_key_create` has after the call. -/
structure Reply where
  ret : Int
  key : Int
  deriving DecidableEq, Repr

structure Call where
  fn : HostFn
  reply : Reply
  deriving DecidableEq, Repr

/-- The host answers by the calls before. -/
structure Host extends HostPthread where
  errno : HostErrno
  reply : List Call → HostFn → Reply

abbrev Body := Fun (List Call) String Int

def callHost (host : Host) (f : HostFn) : Fun (List Call) String Reply := fun calls =>
  let reply := host.reply calls f
  (.ok reply, calls ++ [⟨f, reply⟩])

def Host.translate (host : Host) (err : Int) : Int := translateErrnoFromHost host.errno err

def ofExcept {γ : Type} (r : Except String γ) : Fun (List Call) String γ := fun calls => (r, calls)

/-- A guest object as a call finds it: its payload, and what another call has put there since,
where the compare-exchange fails. -/
structure Found (abi : Abi) where
  payload : abi.Word
  other : Option abi.Word

variable {abi : Abi}

def toHost (host : Host) (kind : SyncKind) (o : Found abi) : Fun (List Call) String Unit := do
  if kind.isInitialized o.payload then
    return ()
  else
    let init ← callHost host (.init kind)
    if init.ret ≠ 0 then
      throw (failedToInit kind)
    else
      match o.other with
      | none => return ()
      | some seen =>
        if kind.isInitialized seen then return ()
        else throw (LazyInit.failedToInitByOther kind)

/-! ### The functions of the shim -/

def pthreadCreate (host : Host) : Body := do
  let ret ← callHost host .create
  return host.translate ret.ret

def toHostSchedPolicy (policy : Int) : Except String Unit :=
  if policy = 0 ∨ policy = 1 then .ok () else .error "Invalid sched policy"

def pthreadSetschedparam (host : Host) (policy : Int) : Body := do
  let ret ← callHost host .getschedparam
  if ret.ret ≠ 0 then
    return host.translate ret.ret
  else
    ofExcept (if policy ≠ -1 then toHostSchedPolicy policy else .ok ())
    let ret ← callHost host .setschedparam
    return host.translate ret.ret

def pthreadGetschedparam (host : Host) : Body := do
  let ret ← callHost host .getschedparam
  if ret.ret ≠ 0 then
    return host.translate ret.ret
  else
    return 0

def pthreadGetattrNp (host : Host) : Body := do
  let ret ← callHost host (if host.errno.os = .apple then .getschedparam else .getattrNp)
  if ret.ret ≠ 0 then
    return host.translate ret.ret
  else
    return 0

def pthreadSetnameNp (host : Host) : Body := do
  if host.errno.os = .linux then
    let ret ← callHost host .setnameNp
    return ret.ret
  else
    return 0

/-- The body that the three init functions share. -/
def initBody (host : Host) (kind : SyncKind) (attr : Except String HostInit) : Body := do
  let _ ← ofExcept attr
  let ret ← callHost host (.init kind)
  if ret.ret ≠ 0 then
    return host.translate ret.ret
  else
    return host.translate 0

def pthreadMutexInit (host : Host) (attr : Option (Fin 16)) : Body :=
  initBody host .mutex (hostMutexattr host.toHostPthread attr)

def pthreadCondInit (host : Host) (attr : Option (Fin 4)) : Body :=
  initBody host .cond (hostCondattr host.errno.os attr)

def pthreadRwlockInit (host : Host) (attr : Option Unit) : Body :=
  initBody host .rwlock
    (if attr.isSome then .error "non-NULL rwlock attr is currently not supported" else .ok .rwlock)

/-- The body that the three destroy functions share. -/
def destroyBody (host : Host) (kind : SyncKind) (o : Found abi) : Body := do
  if kind.isInitialized o.payload then
    let ret ← callHost host (.destroy kind)
    return host.translate ret.ret
  else
    return 0

def pthreadMutexDestroy (host : Host) (mutex : Found abi) : Body := destroyBody host .mutex mutex

def pthreadCondDestroy (host : Host) (cond : Found abi) : Body := destroyBody host .cond cond

def pthreadRwlockDestroy (host : Host) (rwlock : Found abi) : Body :=
  destroyBody host .rwlock rwlock

/-- The body of the calls on a mutex, and of those on a cond alone. -/
def useBody (host : Host) (kind : SyncKind) (f : HostFn) (o : Found abi) : Body := do
  toHost host kind o
  let ret ← callHost host f
  return host.translate ret.ret

def pthreadMutex (host : Host) (op : MutexOp) (mutex : Found abi) : Body :=
  useBody host .mutex (.mutex op) mutex

def waitBody (host : Host) (f : HostFn) (cond mutex : Found abi) : Body := do
  toHost host .cond cond
  toHost host .mutex mutex
  let ret ← callHost host f
  return host.translate ret.ret

def pthreadCond (host : Host) (op : CondOp) (cond mutex : Found abi) : Body :=
  match op with
  | .wait | .timedwait => waitBody host (.cond op) cond mutex
  | .broadcast | .signal => useBody host .cond (.cond op) cond

/-- `INT_MAX`. -/
def intMax : Int := 0x7fffffff

def pthreadKeyCreate (host : Host) : Body := do
  let ret ← callHost host .keyCreate
  if ret.key > intMax then
    throw "Unsupported host pthread key implementation"
  else
    return host.translate ret.ret

def pthreadKeyDelete (host : Host) : Body := do
  let ret ← callHost host .keyDelete
  return host.translate ret.ret

def pthreadSetspecific (host : Host) : Body := do
  let ret ← callHost host .setspecific
  return host.translate ret.ret

/-! ### The host's own functions -/

def bare (host : Host) (f : HostFn) : Body := do
  let ret ← callHost host f
  return ret.ret

/-- `arg_rewrite<::pthread_rwlock_t *>`. -/
def rwlockArgument (host : Host) (rwlock : Found abi) :
    Argument (List Call) String (Found abi) Unit Unit where
  arg := rwlock
  before src := do
    toHost host .rwlock src
    return ((), ())
  after _ _ calls := calls

def argRewritten (host : Host) (op : RwlockOp) (rwlock : Found abi) : Body :=
  argRewriteHelper (fun _ => bare host (.rwlock op)) [rwlockArgument host rwlock]

inductive Symbol
  | pthreadCreate
  | pthreadJoin
  | pthreadDetach
  | pthreadKill
  | pthreadAtfork
  | pthreadSetschedparam
  | pthreadGetschedparam
  | pthreadGetattrNp
  | pthreadSetnameNp
  | pthreadMutexInit
  | pthreadMutexDestroy
  | pthreadMutex (op : MutexOp)
  | pthreadCondInit
  | pthreadCondDestroy
  | pthreadCond (op : CondOp)
  | pthreadCondTimedwaitMonotonicNp
  | pthreadRwlockInit
  | pthreadRwlockDestroy
  | pthreadRwlock (op : RwlockOp)
  | pthreadKeyCreate
  | pthreadKeyDelete
  | pthreadSetspecific
  deriving DecidableEq, Repr

/-- The arguments, as far as the result depends on them.  A wait has a mutex besides its object. -/
structure Args (abi : Abi) where
  policy : Int
  mutexAttr : Option (Fin 16)
  condAttr : Option (Fin 4)
  rwlockAttr : Option Unit
  object : Found abi
  mutex : Found abi

def addPthreadShimmedSymbols (host : Host) (args : Args abi) : Symbol → Body
  | .pthreadCreate => pthreadCreate host
  | .pthreadJoin => bare host .join
  | .pthreadDetach => bare host .detach
  | .pthreadKill => bare host .kill
  | .pthreadAtfork => bare host .atfork
  | .pthreadSetschedparam => pthreadSetschedparam host args.policy
  | .pthreadGetschedparam => pthreadGetschedparam host
  | .pthreadGetattrNp => pthreadGetattrNp host
  | .pthreadSetnameNp => pthreadSetnameNp host
  | .pthreadMutexInit => pthreadMutexInit host args.mutexAttr
  | .pthreadMutexDestroy => pthreadMutexDestroy host args.object
  | .pthreadMutex op => pthreadMutex host op args.object
  | .pthreadCondInit => pthreadCondInit host args.condAttr
  | .pthreadCondDestroy => pthreadCondDestroy host args.object
  | .pthreadCond op => pthreadCond host op args.object args.mutex
  | .pthreadCondTimedwaitMonotonicNp => pthreadCond host .timedwait args.object args.mutex
  | .pthreadRwlockInit => pthreadRwlockInit host args.rwlockAttr
  | .pthreadRwlockDestroy => pthreadRwlockDestroy host args.object
  | .pthreadRwlock op => argRewritten host op args.object
  | .pthreadKeyCreate => pthreadKeyCreate host
  | .pthreadKeyDelete => pthreadKeyDelete host
  | .pthreadSetspecific => pthreadSetspecific host

/-! ### Whose result the guest gets -/

def Symbol.hostFn (os : Os) : Symbol → HostFn
  | pthreadCreate => .create
  | pthreadJoin => .join
  | pthreadDetach => .detach
  | pthreadKill => .kill
  | pthreadAtfork => .atfork
  | pthreadSetschedparam => .setschedparam
  | pthreadGetschedparam => .getschedparam
  | pthreadGetattrNp => if os = .apple then .getschedparam else .getattrNp
  | pthreadSetnameNp => .setnameNp
  | pthreadMutexInit => .init .mutex
  | pthreadMutexDestroy => .destroy .mutex
  | pthreadMutex op => .mutex op
  | pthreadCondInit => .init .cond
  | pthreadCondDestroy => .destroy .cond
  | pthreadCond op => .cond op
  | pthreadCondTimedwaitMonotonicNp => .cond .timedwait
  | pthreadRwlockInit => .init .rwlock
  | pthreadRwlockDestroy => .destroy .rwlock
  | pthreadRwlock op => .rwlock op
  | pthreadKeyCreate => .keyCreate
  | pthreadKeyDelete => .keyDelete
  | pthreadSetspecific => .setspecific

/-- The call that the guest's result is about.  `pthread_setschedparam` asks for the parameters
first, and ends there if that fails. -/
def Symbol.underlying (os : Os) (s : Symbol) (c : Call) : Bool :=
  c.fn == s.hostFn os ||
    (s == .pthreadSetschedparam && c.fn == .getschedparam && c.reply.ret != 0)

/-- The rows through which the host's result goes as it is. -/
def Symbol.untranslated (os : Os) : Symbol → Bool
  | .pthreadJoin | .pthreadDetach | .pthreadKill | .pthreadAtfork | .pthreadRwlock _ => true
  | .pthreadSetnameNp => os == .linux
  | _ => false

def Symbol.outcome (errno : HostErrno) (s : Symbol) (reply : Reply) : Except String Int :=
  if s = .pthreadKeyCreate ∧ reply.key > intMax then
    .error "Unsupported host pthread key implementation"
  else .ok (if s.untranslated errno.os then reply.ret else translateErrnoFromHost errno reply.ret)

/-- The guest gets `reply` in its own numbers, in every call whose underlying call has that
reply. -/
def Reported (errno : HostErrno) (s : Symbol) (reply : Reply) : Prop :=
  ∀ (abi : Abi) (host : Host) (args : Args abi), host.errno = errno →
    let (r, calls) := addPthreadShimmedSymbols host args s []
    ∀ c ∈ calls, s.underlying errno.os c = true → c.reply = reply →
      r = .ok (translateErrnoFromHost errno reply.ret)

/-- No name has the host's number `err` and another one of bionic. -/
def SameNumber (errno : HostErrno) (err : Int) : Prop :=
  ∀ row ∈ errnoRows errno.os, errno.number row.1 = err → row.2 = err

/-- A body that makes no call which is `own`. -/
def Quiet {γ : Type} (own : Call → Bool) (x : Fun (List Call) String γ) : Prop :=
  ∀ calls, ∃ before r, (∀ c ∈ before, own c = false) ∧ x calls = (r, calls ++ before)

/-- A body that makes at most one call which is `own`, at its end. -/
def EndsIn (own : Call → Bool) (outcome : Reply → Except String Int) (body : Body) : Prop :=
  ∀ calls, ∃ before, (∀ c ∈ before, own c = false) ∧
    ((∃ r, body calls = (r, calls ++ before)) ∨
      ∃ c, own c = true ∧ body calls = (outcome c.reply, calls ++ (before ++ [c])))

section Bodies

variable {own : Call → Bool} {outcome : Reply → Except String Int} {host : Host} {f : HostFn}

theorem Quiet.const {γ : Type} (r : Except String γ) : Quiet own (fun calls => (r, calls)) :=
  fun calls => ⟨[], r, by simp, by simp⟩

theorem Quiet.endsIn {body : Body} (h : Quiet own body) : EndsIn own outcome body := by
  intro calls
  obtain ⟨before, r, hBefore, hRun⟩ := h calls
  exact ⟨before, hBefore, Or.inl ⟨r, hRun⟩⟩

theorem callHost_bind {γ : Type} {k : Reply → Fun (List Call) String γ} (calls : List Call) :
    (callHost host f >>= k) calls =
      k (host.reply calls f) (calls ++ [⟨f, host.reply calls f⟩]) := by
  rw [Fun.bind_eq]
  rfl

theorem Quiet.call {γ : Type} {k : Reply → Fun (List Call) String γ}
    (hOwn : ∀ reply, own ⟨f, reply⟩ = false) (hNext : ∀ reply, Quiet own (k reply)) :
    Quiet own (callHost host f >>= k) := by
  intro calls
  rw [callHost_bind]
  obtain ⟨before, r, hBefore, hRun⟩ := hNext (host.reply calls f)
    (calls ++ [⟨f, host.reply calls f⟩])
  refine ⟨⟨f, host.reply calls f⟩ :: before, r, ?_, ?_⟩
  · simpa [hOwn] using hBefore
  · rw [hRun, List.append_assoc]
    rfl

theorem EndsIn.after {γ : Type} {x : Fun (List Call) String γ} {k : γ → Body} (hFirst : Quiet own x)
    (hNext : ∀ v, EndsIn own outcome (k v)) : EndsIn own outcome (x >>= k) := by
  intro calls
  obtain ⟨first, r, hQuiet, hRun⟩ := hFirst calls
  rw [Fun.bind_eq, hRun]
  cases r with
  | error e => exact ⟨first, hQuiet, Or.inl ⟨_, rfl⟩⟩
  | ok v =>
    obtain ⟨before, hBefore, hEnd⟩ := hNext v (calls ++ first)
    refine ⟨first ++ before, ?_, ?_⟩
    · intro c hc
      exact (List.mem_append.mp hc).elim (hQuiet c) (hBefore c)
    · simpa only [List.append_assoc] using hEnd

/-- A call whose reply the body passes on at once, or one that is not `own`. -/
theorem EndsIn.call {k : Reply → Body}
    (h : ∀ reply, (own ⟨f, reply⟩ = true ∧ ∀ calls, k reply calls = (outcome reply, calls)) ∨
      own ⟨f, reply⟩ = false ∧ EndsIn own outcome (k reply)) :
    EndsIn own outcome (callHost host f >>= k) := by
  intro calls
  rw [callHost_bind]
  generalize host.reply calls f = reply
  rcases h reply with ⟨hOwn, hLast⟩ | ⟨hOther, hNext⟩
  · exact ⟨[], by simp, Or.inr ⟨⟨f, reply⟩, hOwn, hLast _⟩⟩
  · obtain ⟨before, hBefore, hEnd⟩ := hNext (calls ++ [⟨f, reply⟩])
    refine ⟨⟨f, reply⟩ :: before, ?_, ?_⟩
    · simpa [hOther] using hBefore
    · simpa only [List.append_assoc, List.cons_append, List.nil_append] using hEnd

theorem toHost_quiet {kind : SyncKind} {o : Found abi}
    (hOwn : ∀ reply, own ⟨.init kind, reply⟩ = false) : Quiet own (toHost host kind o) := by
  unfold toHost
  split
  · exact Quiet.const _
  · refine Quiet.call hOwn fun reply => ?_
    split
    · exact Quiet.const _
    · split
      · exact Quiet.const _
      · split
        · exact Quiet.const _
        · exact Quiet.const _

theorem EndsIn.last {k : Reply → Body} (hOwn : ∀ reply, own ⟨f, reply⟩ = true)
    (hLast : ∀ reply calls, k reply calls = (outcome reply, calls)) :
    EndsIn own outcome (callHost host f >>= k) :=
  EndsIn.call fun reply => Or.inl ⟨hOwn reply, hLast reply⟩

theorem EndsIn.translated (hOwn : ∀ reply, own ⟨f, reply⟩ = true)
    (hOutcome : ∀ reply, outcome reply = .ok (host.translate reply.ret)) :
    EndsIn own outcome (callHost host f >>= fun ret => return host.translate ret.ret) := by
  refine EndsIn.last hOwn fun reply calls => ?_
  rw [hOutcome]
  rfl

theorem bare_endsIn (hOwn : ∀ reply, own ⟨f, reply⟩ = true)
    (hOutcome : ∀ reply, outcome reply = .ok reply.ret) : EndsIn own outcome (bare host f) := by
  refine EndsIn.last hOwn fun reply calls => ?_
  rw [hOutcome]
  rfl

theorem useBody_endsIn {kind : SyncKind} {o : Found abi}
    (hInit : ∀ reply, own ⟨.init kind, reply⟩ = false) (hOwn : ∀ reply, own ⟨f, reply⟩ = true)
    (hOutcome : ∀ reply, outcome reply = .ok (host.translate reply.ret)) :
    EndsIn own outcome (useBody host kind f o) :=
  EndsIn.after (toHost_quiet hInit) fun _ => EndsIn.translated hOwn hOutcome

theorem waitBody_endsIn {cond mutex : Found abi}
    (hInit : ∀ kind reply, own ⟨.init kind, reply⟩ = false) (hOwn : ∀ reply, own ⟨f, reply⟩ = true)
    (hOutcome : ∀ reply, outcome reply = .ok (host.translate reply.ret)) :
    EndsIn own outcome (waitBody host f cond mutex) :=
  EndsIn.after (toHost_quiet (hInit _)) fun _ => EndsIn.after (toHost_quiet (hInit _)) fun _ =>
    EndsIn.translated hOwn hOutcome

theorem initBody_endsIn {kind : SyncKind} {attr : Except String HostInit}
    (hOwn : ∀ reply, own ⟨.init kind, reply⟩ = true)
    (hOutcome : ∀ reply, outcome reply = .ok (host.translate reply.ret)) :
    EndsIn own outcome (initBody host kind attr) := by
  refine EndsIn.after (Quiet.const attr) fun _ => EndsIn.last hOwn fun reply calls => ?_
  rw [hOutcome]
  split
  · rfl
  · rename_i hRet
    rw [not_not.mp hRet]
    rfl

theorem destroyBody_endsIn {kind : SyncKind} {o : Found abi}
    (hOwn : ∀ reply, own ⟨.destroy kind, reply⟩ = true)
    (hOutcome : ∀ reply, outcome reply = .ok (host.translate reply.ret)) :
    EndsIn own outcome (destroyBody host kind o) := by
  unfold destroyBody
  split
  · exact EndsIn.translated hOwn hOutcome
  · exact (Quiet.const _).endsIn

end Bodies

section Rows

variable {host : Host} {args : Args abi} {errno : HostErrno} {reply : Reply}

theorem outcome_translated {s : Symbol} (h : s.untranslated host.errno.os = false)
    (hKey : s ≠ .pthreadKeyCreate) :
    s.outcome host.errno reply = .ok (host.translate reply.ret) := by
  rw [Symbol.outcome, if_neg (by simp [hKey]), h, if_neg Bool.false_ne_true]
  rfl

theorem outcome_raw {s : Symbol} (h : s.untranslated errno.os = true) :
    s.outcome errno reply = .ok reply.ret := by
  have hKey : s ≠ .pthreadKeyCreate := by
    rintro rfl
    cases h
  rw [Symbol.outcome, if_neg (by simp [hKey]), if_pos h]

theorem zero_unless_failed (calls : List Call) :
    (if reply.ret ≠ 0 then return host.translate reply.ret else return 0 : Body) calls =
      (.ok (host.translate reply.ret), calls) := by
  split
  · rfl
  · rename_i hRet
    have hZero : host.translate reply.ret = 0 :=
      (translateErrnoFromHost_eq_zero host.errno reply.ret).mpr (not_not.mp hRet)
    rw [hZero]
    rfl

theorem argRewritten_eq (op : RwlockOp) (rwlock : Found abi) : argRewritten host op rwlock =
    (toHost host .rwlock rwlock >>= fun _ => bare host (.rwlock op)) := by
  funext calls
  simp only [argRewritten, argRewriteHelper, rewrite_eq, prepare, rwlockArgument, Fun.bind_eq]
  rcases toHost host .rwlock rwlock calls with ⟨r, calls'⟩
  cases r <;> rfl

/-- A failed `pthread_getschedparam` is underlying as well, a successful one is not. -/
theorem pthreadSetschedparam_endsIn {policy : Int} :
    EndsIn (Symbol.pthreadSetschedparam.underlying host.errno.os)
      (Symbol.pthreadSetschedparam.outcome host.errno) (pthreadSetschedparam host policy) := by
  refine EndsIn.call fun reply => ?_
  by_cases hRet : reply.ret = 0
  · right
    refine ⟨by simp [Symbol.underlying, Symbol.hostFn, hRet], ?_⟩
    rw [if_neg (by simpa using hRet)]
    refine EndsIn.after (Quiet.const _) fun _ => ?_
    exact EndsIn.translated (fun _ => rfl) fun _ => outcome_translated rfl (by simp)
  · left
    refine ⟨by simp [Symbol.underlying, Symbol.hostFn, hRet], fun calls => ?_⟩
    rw [if_pos (by simpa using hRet), outcome_translated rfl (by simp)]
    rfl

theorem pthreadSetnameNp_endsIn :
    EndsIn (Symbol.pthreadSetnameNp.underlying host.errno.os)
      (Symbol.pthreadSetnameNp.outcome host.errno) (pthreadSetnameNp host) := by
  unfold pthreadSetnameNp
  split
  · rename_i hLinux
    exact bare_endsIn (fun _ => rfl) fun _ => outcome_raw (by simp [Symbol.untranslated, hLinux])
  · exact (Quiet.const _).endsIn

theorem pthreadKeyCreate_endsIn :
    EndsIn (Symbol.pthreadKeyCreate.underlying host.errno.os)
      (Symbol.pthreadKeyCreate.outcome host.errno) (pthreadKeyCreate host) := by
  refine EndsIn.last (fun _ => rfl) fun reply calls => ?_
  by_cases hKey : reply.key > intMax
  · rw [if_pos hKey, Symbol.outcome, if_pos ⟨rfl, hKey⟩]
    rfl
  · rw [if_neg hKey, Symbol.outcome, if_neg (by simp [hKey])]
    rfl

/-- Every row makes its underlying call last, if at all. -/
theorem symbol_endsIn (host : Host) (args : Args abi) (s : Symbol) :
    EndsIn (s.underlying host.errno.os) (s.outcome host.errno)
      (addPthreadShimmedSymbols host args s) := by
  cases s with
  | pthreadCreate | pthreadKeyDelete | pthreadSetspecific =>
    exact EndsIn.translated (fun _ => rfl) fun _ => outcome_translated rfl (by simp)
  | pthreadJoin | pthreadDetach | pthreadKill | pthreadAtfork =>
    exact bare_endsIn (fun _ => rfl) fun _ => outcome_raw rfl
  | pthreadMutexInit | pthreadCondInit | pthreadRwlockInit =>
    exact initBody_endsIn (fun _ => rfl) fun _ => outcome_translated rfl (by simp)
  | pthreadMutexDestroy | pthreadCondDestroy | pthreadRwlockDestroy =>
    exact destroyBody_endsIn (fun _ => rfl) fun _ => outcome_translated rfl (by simp)
  | pthreadMutex op =>
    exact useBody_endsIn (fun _ => rfl) (fun _ => by simp [Symbol.underlying, Symbol.hostFn])
      fun _ => outcome_translated rfl (by simp)
  | pthreadCond op =>
    cases op with
    | wait | timedwait =>
      exact waitBody_endsIn (fun _ _ => rfl) (fun _ => rfl) fun _ =>
        outcome_translated rfl (by simp)
    | broadcast | signal =>
      exact useBody_endsIn (fun _ => rfl) (fun _ => rfl) fun _ => outcome_translated rfl (by simp)
  | pthreadCondTimedwaitMonotonicNp =>
    exact waitBody_endsIn (fun _ _ => rfl) (fun _ => rfl) fun _ => outcome_translated rfl (by simp)
  | pthreadRwlock op =>
    show EndsIn _ _ (argRewritten host op args.object)
    rw [argRewritten_eq]
    refine EndsIn.after (toHost_quiet fun _ => rfl) fun _ => ?_
    exact bare_endsIn (fun _ => by simp [Symbol.underlying, Symbol.hostFn]) fun _ => outcome_raw rfl
  | pthreadSetschedparam => exact pthreadSetschedparam_endsIn
  | pthreadGetschedparam =>
    refine EndsIn.last (fun _ => rfl) fun reply calls => ?_
    rw [outcome_translated rfl (by simp)]
    exact zero_unless_failed calls
  | pthreadGetattrNp =>
    refine EndsIn.last (fun _ => by simp [Symbol.underlying, Symbol.hostFn]) fun reply calls => ?_
    rw [outcome_translated rfl (by simp)]
    exact zero_unless_failed calls
  | pthreadSetnameNp => exact pthreadSetnameNp_endsIn
  | pthreadKeyCreate => exact pthreadKeyCreate_endsIn

theorem translate_eq_self {err : Int} :
    translateErrnoFromHost errno err = err ↔ SameNumber errno err := by
  constructor
  · rintro hSame row hRow rfl
    rw [← translateErrnoFromHost_row errno hRow, hSame]
  · intro hSame
    by_cases hNamed : ∃ row ∈ errnoRows errno.os, errno.number row.1 = err
    · obtain ⟨row, hRow, rfl⟩ := hNamed
      rw [translateErrnoFromHost_row errno hRow, hSame row hRow rfl]
    · exact translateErrnoFromHost_default errno fun row hRow hNumber => hNamed ⟨row, hRow, hNumber⟩

theorem result_eq {s : Symbol} {c : Call} (hCall : c ∈ (addPthreadShimmedSymbols host args s []).2)
    (hUnderlying : s.underlying host.errno.os c = true) :
    (addPthreadShimmedSymbols host args s []).1 = s.outcome host.errno c.reply := by
  obtain ⟨before, hBefore, hEnd⟩ := symbol_endsIn host args s []
  rcases hEnd with ⟨r, hRun⟩ | ⟨last, hOwn, hRun⟩
  · rw [hRun] at hCall
    exact absurd hUnderlying (by simp [hBefore c hCall])
  · rw [hRun, List.nil_append] at hCall
    rw [hRun]
    rcases List.mem_append.mp hCall with hFirst | hLast
    · exact absurd hUnderlying (by simp [hBefore c hFirst])
    · obtain rfl : c = last := List.mem_singleton.mp hLast
      rfl

/-- A host that always answers alike, and arguments with which every row reaches its call. -/
def constant (errno : HostErrno) (reply : Reply) : Host := ⟨⟨.normal⟩, errno, fun _ _ => reply⟩

def plain : Args .lp64 := ⟨-1, none, none, none, ⟨0x10000, none⟩, ⟨0x10000, none⟩⟩

theorem constant_reaches {s : Symbol} (reply : Reply)
    (h : s.untranslated errno.os = true ∨ s = .pthreadKeyCreate) :
    ⟨s.hostFn errno.os, reply⟩ ∈
      (addPthreadShimmedSymbols (constant errno reply) plain s []).2 := by
  cases s with
  | pthreadJoin | pthreadDetach | pthreadKill | pthreadAtfork => exact List.mem_singleton_self _
  | pthreadRwlock op => exact List.mem_singleton_self _
  | pthreadSetnameNp =>
    have hLinux : errno.os = .linux := by simpa [Symbol.untranslated] using h
    show _ ∈ (pthreadSetnameNp (constant errno reply) []).2
    rw [pthreadSetnameNp]
    split
    · exact List.mem_singleton_self _
    · rename_i hOther
      exact absurd hLinux hOther
  | pthreadKeyCreate =>
    show _ ∈ (pthreadKeyCreate (constant errno reply) []).2
    rw [pthreadKeyCreate, callHost_bind]
    split
    · exact List.mem_singleton_self _
    · exact List.mem_singleton_self _
  | _ => simp [Symbol.untranslated] at h

theorem outcome_iff {s : Symbol} :
    s.outcome errno reply = .ok (translateErrnoFromHost errno reply.ret) ↔
      (s.untranslated errno.os = true → SameNumber errno reply.ret) ∧
        (s = .pthreadKeyCreate → reply.key ≤ intMax) := by
  unfold Symbol.outcome
  by_cases hThrows : s = .pthreadKeyCreate ∧ reply.key > intMax
  · rw [if_pos hThrows]
    refine iff_of_false (by simp) fun h => ?_
    exact absurd (h.2 hThrows.1) (Int.not_le.mpr hThrows.2)
  · have hKey : s = .pthreadKeyCreate → reply.key ≤ intMax := fun hs =>
      Int.not_lt.mp fun hPast => hThrows ⟨hs, hPast⟩
    rw [if_neg hThrows, and_iff_left hKey, Except.ok.injEq, ← translate_eq_self]
    split
    · rename_i hRaw
      exact ⟨fun h _ => h.symm, fun h => (h hRaw).symm⟩
    · rename_i hRaw
      exact iff_of_true rfl fun h => absurd h hRaw

/-- The kind of object of the calls between an init and a destroy. -/
def Symbol.uses : Symbol → Option SyncKind
  | pthreadMutex _ => some .mutex
  | pthreadCond _ | pthreadCondTimedwaitMonotonicNp => some .cond
  | pthreadRwlock _ => some .rwlock
  | _ => none

/-- The life of an object has the same results. -/
theorem useObject_outcome {H : Type} {host : Lifetime.Host abi H} {kind : SyncKind} {r ret v : Int}
    {next : H} {o o' : Lifetime.Object abi H} {s : Symbol} (hUses : s.uses = some kind)
    (hCall : Lifetime.useObject host (.sync kind) r next ret o = some (o', .returned v))
    (key : Int) : s.outcome host.errno ⟨ret, key⟩ = .ok v := by
  have hKey : s ≠ .pthreadKeyCreate := by
    rintro rfl
    cases hUses
  rw [Symbol.outcome, if_neg (by simp [hKey])]
  obtain ⟨⟨found, i⟩, -, hFound⟩ := Option.bind_eq_some_iff.mp hCall
  cases i with
  | error e => simp at hFound
  | ok i =>
    obtain ⟨old, -, hResult⟩ := Option.bind_eq_some_iff.mp hFound
    obtain ⟨-, hReturned⟩ := Prod.mk.inj (Option.some.inj hResult)
    rw [← Lifetime.Result.returned.inj hReturned]
    cases s with
    | pthreadMutex | pthreadCond | pthreadCondTimedwaitMonotonicNp | pthreadRwlock =>
      cases hUses
      rfl
    | _ => cases hUses

end Rows

/-- The guest gets the host's result in its own numbers, exactly when the row translates or both
number the error alike; `pthread_key_create` throws at a word beyond `INT_MAX`. -/
theorem pthread_results_in_guest_numbers (errno : HostErrno) (s : Symbol) (reply : Reply) :
    Reported errno s reply ↔
      (s.untranslated errno.os = true → SameNumber errno reply.ret) ∧
        (s = .pthreadKeyCreate → reply.key ≤ intMax) := by
  rw [← outcome_iff]
  constructor
  · intro hReported
    by_cases hReaches : s.untranslated errno.os = true ∨ s = .pthreadKeyCreate
    · have hCall := constant_reaches reply hReaches
      have hUnderlying : s.underlying errno.os ⟨s.hostFn errno.os, reply⟩ = true := by
        simp [Symbol.underlying]
      rw [← hReported .lp64 (constant errno reply) plain rfl _ hCall hUnderlying rfl]
      exact (result_eq hCall hUnderlying).symm
    · obtain ⟨hTranslated, hKey⟩ := not_or.mp hReaches
      exact outcome_iff.mpr ⟨fun h => absurd h hTranslated, fun h => absurd h hKey⟩
  · rintro hOutcome abi host args rfl c hCall hUnderlying rfl
    rw [← hOutcome]
    exact result_eq hCall hUnderlying

/-- On Darwin, where `EDEADLK` is 11, a thread that locks twice gets 11 from a rwlock, bionic's
`EAGAIN`, and 35 from a mutex, bionic's `EDEADLK`. -/
theorem rwlock_deadlock_untranslated :
    let host := constant darwinErrno ⟨Errno.darwinNumber .edeadlk, 0⟩
    (addPthreadShimmedSymbols host plain (.pthreadRwlock .wrlock) []).1 = .ok 11 ∧
      (addPthreadShimmedSymbols host plain (.pthreadMutex .lock) []).1 = .ok 35 ∧
      ¬ Reported darwinErrno (.pthreadRwlock .wrlock) ⟨Errno.darwinNumber .edeadlk, 0⟩ := by
  have hNumber : Errno.darwinNumber .edeadlk = 11 := by decide +kernel
  have hGuest : translateErrnoFromHost darwinErrno 11 = 35 := by decide +kernel
  rw [hNumber]
  refine ⟨rfl, congrArg Except.ok hGuest, fun hReported => ?_⟩
  have hRun := hReported .lp64 (constant darwinErrno ⟨11, 0⟩) plain rfl
    ⟨.rwlock .wrlock, ⟨11, 0⟩⟩ (List.mem_singleton_self _) rfl rfl
  rw [hGuest] at hRun
  exact absurd hRun (by decide)

end LibcShim.Pthread.Symbols
