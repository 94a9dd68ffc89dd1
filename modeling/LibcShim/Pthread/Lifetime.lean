import LibcShim.Errno
import LibcShim.Kit.Heap
import LibcShim.Kit.Run
import LibcShim.Pthread.Object

/-! The life of one guest object: init, destroy and the calls in between, one after another, on a
mutex, a cond, a rwlock or a wrapped semaphore.  The host's results are choices of the run. -/

namespace LibcShim.Pthread.Lifetime

open Kit

inductive ObjectKind
  | sync (kind : SyncKind)
  | sem
  deriving DecidableEq, Repr

inductive ClockType
  | realtime
  | monotonic
  deriving DecidableEq, Repr

inductive HostInit
  | mutex (type : MutexType)
  | cond (clock : Option ClockType)
  | rwlock
  | sem (pshared : Int) (value : Nat)
  deriving DecidableEq, Repr

/-- The host.  `H` is the state of one of its objects; the objects are numbered in the order of
their allocation. -/
structure Host (abi : Abi) (H : Type) extends HostPthread where
  errno : HostErrno
  fresh : HostInit → H
  address : Nat → abi.Word
  mapped : ∀ i, hostAddress (address i) = true

/-- The word in a guest object that leads to the host object: `wrapped` of a semaphore, the payload
of the others.  `raw` is a word that the shim did not take from a host object. -/
inductive Payload (abi : Abi)
  | raw (word : abi.Word)
  | host (i : Nat)
  deriving DecidableEq

/-- The guest object and the host's heap.  The value of a cell is missing while its host object is
not initialised. -/
structure Object (abi : Abi) (H : Type) where
  header : BitVec 32
  payload : Payload abi
  heap : Heap (Option H)

inductive Result
  | returned (r : Int)
  | threw (error : String)
  deriving DecidableEq, Repr

variable {abi : Abi} {H : Type}

def Payload.word (host : Host abi H) : Payload abi → abi.Word
  | .raw word => word
  | .host i => host.address i

def Payload.host? : Payload abi → Option Nat
  | .raw _ => none
  | .host i => some i

def Object.data0 (host : Host abi H) (o : Object abi H) : BitVec 32 :=
  match abi with
  | .lp64 => o.header
  | .ilp32 => (o.payload.word host).setWidth 32

/-! ### Init -/

/-- `host_mutexattr`; the guest's field `type` has four bits. -/
def hostMutexattr (host : HostPthread) (attr : Option (Fin 16)) : Except String HostInit :=
  match attr.map Fin.val with
  | none => .ok (.mutex host.mutexDefault)
  | some 0 => .ok (.mutex .normal)
  | some 1 => .ok (.mutex .recursive)
  | some 2 => .ok (.mutex .errorcheck)
  | some _ => .error "Invalid mutex type"

/-- `host_condattr`; the guest's field `clock` has two bits. -/
def hostCondattr (os : Os) (attr : Option (Fin 4)) : Except String HostInit :=
  if os = .apple then .ok (.cond none)
  else
    match attr.map Fin.val with
    | none => .ok (.cond none)
    | some 0 => .ok (.cond (some .realtime))
    | some 1 => .ok (.cond (some .monotonic))
    | some clock => .error s!"Unexpected clock type {clock}"

/-- The body that `pthread_mutex_init`, `pthread_cond_init` and `pthread_rwlock_init` share; `r` is
the result of the host's init function. -/
def initObject (host : Host abi H) (attr : Except String HostInit) (r : Int) (o : Object abi H) :
    Object abi H × Result :=
  match attr with
  | .error e => (o, .threw e)
  | .ok init =>
    let i := o.heap.length
    let heap := o.heap.alloc none
    if r ≠ 0 then
      ({ o with heap := heap.free i }, .returned (translateErrnoFromHost host.errno r))
    else
      ({ o with payload := .host i, heap := heap.store i (some (host.fresh init)) },
        .returned (translateErrnoFromHost host.errno 0))

def pthreadMutexInit (host : Host abi H) (attr : Option (Fin 16)) (r : Int) (o : Object abi H) :
    Object abi H × Result :=
  initObject host (hostMutexattr host.toHostPthread attr) r o

def pthreadCondInit (host : Host abi H) (attr : Option (Fin 4)) (r : Int) (o : Object abi H) :
    Object abi H × Result :=
  initObject host (hostCondattr host.errno.os attr) r o

def pthreadRwlockInit (host : Host abi H) (attr : Option Unit) (r : Int) (o : Object abi H) :
    Object abi H × Result :=
  let attr := if attr.isSome then .error "non-NULL rwlock attr is currently not supported"
    else .ok .rwlock
  initObject host attr r o

/-- `make_c_wrapped`: a failed constructor leaves `wrapped` at the deleted object. -/
def makeCWrapped (host : Host abi H) (init : HostInit) (r : Int) (o : Object abi H) :
    Object abi H × Result :=
  let i := o.heap.length
  let heap := o.heap.alloc none
  let heap := if r ≠ 0 then heap.free i else heap.store i (some (host.fresh init))
  ({ o with payload := .host i, heap := heap }, .returned r)

def semInit (host : Host abi H) (pshared : Int) (value : Nat) (r : Int) (o : Object abi H) :
    Object abi H × Result :=
  makeCWrapped host (.sem pshared value) r o

/-! ### Destroy.  A host function that fails leaves its object as it is, one that succeeds leaves it
uninitialised.  A call is undefined on a word that leads to no live host object. -/

/-- The body that `pthread_mutex_destroy`, `pthread_cond_destroy` and `pthread_rwlock_destroy`
share; `r` is the result of the host's destroy function. -/
def destroyObject (host : Host abi H) (kind : SyncKind) (r : Int) (o : Object abi H) :
    Option (Object abi H × Result) :=
  if kind.isInitialized (o.payload.word host) then do
    let i ← o.payload.host?
    let _ ← o.heap.load i
    let heap := if r = 0 then o.heap.store i none else o.heap
    some ({ o with payload := .raw 0, heap := heap.free i },
      .returned (translateErrnoFromHost host.errno r))
  else some (o, .returned 0)

def pthreadMutexDestroy (host : Host abi H) (r : Int) (o : Object abi H) :
    Option (Object abi H × Result) :=
  destroyObject host .mutex r o

def pthreadCondDestroy (host : Host abi H) (r : Int) (o : Object abi H) :
    Option (Object abi H × Result) :=
  destroyObject host .cond r o

def pthreadRwlockDestroy (host : Host abi H) (r : Int) (o : Object abi H) :
    Option (Object abi H × Result) :=
  destroyObject host .rwlock r o

def destroyCWrapped (r : Int) (o : Object abi H) : Option (Object abi H × Result) := do
  let i ← o.payload.host?
  let _ ← o.heap.load i
  let heap := if r = 0 then o.heap.store i none else o.heap
  some ({ o with heap := heap.free i }, .returned r)

def semDestroy (r : Int) (o : Object abi H) : Option (Object abi H × Result) := destroyCWrapped r o

/-! ### The calls in between -/

/-- `to_host` when no other call is on the object; `r` is the result of the host's init function. -/
def toHost (host : Host abi H) (r : Int) (o : Object abi H) :
    ObjectKind → Option (Object abi H × Except String Nat)
  | .sem => o.payload.host?.map fun i => (o, .ok i)
  | .sync kind =>
    if kind.isInitialized (o.payload.word host) then o.payload.host?.map fun i => (o, .ok i)
    else
      let i := o.heap.length
      let init := match kind with
        | .mutex => .mutex (selectMutexType host.toHostPthread (o.data0 host))
        | .cond => .cond none
        | .rwlock => .rwlock
      let heap := o.heap.alloc none
      if r ≠ 0 then some ({ o with heap := heap }, .error (failedToInit kind))
      else
        some ({ o with payload := .host i, heap := heap.store i (some (host.fresh init)) }, .ok i)

/-- Any other call: it takes the host object to the state `next` and returns `ret`, which a rwlock
and a semaphore pass on as it is. -/
def useObject (host : Host abi H) (kind : ObjectKind) (r : Int) (next : H) (ret : Int)
    (o : Object abi H) : Option (Object abi H × Result) := do
  let (o, found) ← toHost host r o kind
  match found with
  | .error e => some (o, .threw e)
  | .ok i =>
    let _ ← o.heap.load i
    some ({ o with heap := o.heap.store i (some next) },
      .returned (match kind with
        | .sem | .sync .rwlock => ret
        | .sync .mutex | .sync .cond => translateErrnoFromHost host.errno ret))

inductive InitArg
  | mutex (attr : Option (Fin 16))
  | cond (attr : Option (Fin 4))
  | rwlock (attr : Option Unit)
  | sem (pshared : Int) (value : Nat)
  deriving DecidableEq, Repr

/-- An init or destroy with the result `r` that the host's function has if it is called. -/
inductive Request
  | init (arg : InitArg) (r : Int)
  | destroy (r : Int)
  deriving DecidableEq, Repr

inductive Op (H : Type)
  | request (q : Request)
  | use (r : Int) (next : H) (ret : Int)

def request (host : Host abi H) (o : Object abi H) :
    ObjectKind → Request → Option (Object abi H × Result)
  | .sync .mutex, .init (.mutex attr) r => some (pthreadMutexInit host attr r o)
  | .sync .cond, .init (.cond attr) r => some (pthreadCondInit host attr r o)
  | .sync .rwlock, .init (.rwlock attr) r => some (pthreadRwlockInit host attr r o)
  | .sem, .init (.sem pshared value) r => some (semInit host pshared value r o)
  | .sync .mutex, .destroy r => pthreadMutexDestroy host r o
  | .sync .cond, .destroy r => pthreadCondDestroy host r o
  | .sync .rwlock, .destroy r => pthreadRwlockDestroy host r o
  | .sem, .destroy r => semDestroy r o
  | _, .init _ _ => none

def step (host : Host abi H) (kind : ObjectKind) (o : Object abi H) :
    Op H → Option (Object abi H)
  | .request q => (request host o kind q).map Prod.fst
  | .use r next ret => (useObject host kind r next ret o).map Prod.fst

/-- A guest object before its first call, statically initialised or not. -/
def start (header : BitVec 32) (word : abi.Word) : Object abi H := ⟨header, .raw word, []⟩

section Requests

variable {host : Host abi H} {o o' : Object abi H} {kind : ObjectKind} {q : Request} {res : Result}

theorem isInitialized_host (kind : SyncKind) (i : Nat) :
    kind.isInitialized ((Payload.host i).word host) = true :=
  isInitialized_hostAddress (host.mapped i)

inductive RequestEffect (host : Host abi H) (o : Object abi H) :
    ObjectKind → Request → Object abi H → Result → Prop
  | init (kind : SyncKind) (arg : InitArg) (attr : Except String HostInit) (r : Int) :
    RequestEffect host o (.sync kind) (.init arg r) (initObject host attr r o).1
      (initObject host attr r o).2
  | make (arg : InitArg) (init : HostInit) (r : Int) :
    RequestEffect host o .sem (.init arg r) (makeCWrapped host init r o).1 (.returned r)
  | skip (kind : SyncKind) (r : Int) (h : o.payload.host? = none) :
    RequestEffect host o (.sync kind) (.destroy r) o (.returned 0)
  | destroy (kind : SyncKind) (r : Int) (i : Nat) (v : Option H) (heap : Heap (Option H))
    (h : o.payload = .host i) (hv : o.heap.load i = some v) :
    RequestEffect host o (.sync kind) (.destroy r) ⟨o.header, .raw 0, heap⟩
      (.returned (translateErrnoFromHost host.errno r))
  | delete (r : Int) (i : Nat) (v : Option H) (heap : Heap (Option H)) (h : o.payload = .host i)
    (hv : o.heap.load i = some v) (hLength : heap.length = o.heap.length) :
    RequestEffect host o .sem (.destroy r) ⟨o.header, o.payload, heap.free i⟩ (.returned r)

theorem Payload.host?_eq {p : Payload abi} {i : Nat} : p.host? = some i ↔ p = .host i := by
  cases p <;> simp [Payload.host?]

theorem destroyObject_effect {kind : SyncKind} {r : Int}
    (h : destroyObject host kind r o = some (o', res)) :
    RequestEffect host o (.sync kind) (.destroy r) o' res := by
  unfold destroyObject at h
  split at h
  · obtain ⟨i, hi, h⟩ := Option.bind_eq_some_iff.mp h
    obtain ⟨v, hv, h⟩ := Option.bind_eq_some_iff.mp h
    obtain ⟨rfl, rfl⟩ := Prod.mk.inj (Option.some.inj h)
    exact .destroy kind r i v _ (Payload.host?_eq.mp hi) hv
  · rename_i hUnbound
    obtain ⟨rfl, rfl⟩ := Prod.mk.inj (Option.some.inj h)
    refine .skip kind r ?_
    cases hp : o.payload with
    | raw word => rfl
    | host i => exact absurd (isInitialized_host kind i) (hp ▸ hUnbound)

theorem destroyCWrapped_effect {r : Int} (h : destroyCWrapped r o = some (o', res)) :
    RequestEffect host o .sem (.destroy r) o' res := by
  unfold destroyCWrapped at h
  obtain ⟨i, hi, h⟩ := Option.bind_eq_some_iff.mp h
  obtain ⟨v, hv, h⟩ := Option.bind_eq_some_iff.mp h
  obtain ⟨rfl, rfl⟩ := Prod.mk.inj (Option.some.inj h)
  refine .delete r i v _ (Payload.host?_eq.mp hi) hv ?_
  split <;> simp

theorem request_effect (h : request host o kind q = some (o', res)) :
    RequestEffect host o kind q o' res := by
  cases q with
  | init arg r =>
    cases kind with
    | sem =>
      cases arg <;> simp only [request, reduceCtorEq, Option.some.injEq] at h
      obtain ⟨rfl, rfl⟩ := Prod.mk.inj h
      exact .make _ _ r
    | sync kind =>
      cases kind <;> cases arg <;> simp only [request, reduceCtorEq, Option.some.injEq] at h <;>
        (obtain ⟨rfl, rfl⟩ := Prod.mk.inj h; exact .init _ _ _ r)
  | destroy r =>
    cases kind with
    | sem => exact destroyCWrapped_effect h
    | sync kind => cases kind <;> exact destroyObject_effect h

end Requests

/-! ### Failure atomicity -/

section FailureAtomicity

variable {host : Host abi H} {o o' : Object abi H} {kind : ObjectKind} {q : Request} {res : Result}
  {header : BitVec 32} {word : abi.Word} {tr : List (Op H)}

/-- The guest object is bound as before, to a host object that is still allocated in the same
state. -/
structure SameBinding (o o' : Object abi H) : Prop where
  bound : o'.payload.host? = o.payload.host?
  kept : ∀ i, o.payload.host? = some i → ∃ v, o.heap.load i = some v ∧ o'.heap.load i = some v

def FailureAtomic (o o' : Object abi H) (res : Result) : Prop :=
  ∀ r, res = .returned r → r ≠ 0 → SameBinding o o'

/-- The requests that succeed, or that find the error before they touch the binding. -/
def Request.Safe (kind : ObjectKind) (o : Object abi H) : Request → Prop
  | .init _ r => kind ≠ .sem ∨ r = 0
  | .destroy r => r = 0 ∨ o.payload.host? = none

/-- What every reachable object satisfies: `wrapped` may be left at a deleted host object, but the
payload of the other kinds leads to an initialised one. -/
structure Bound (kind : ObjectKind) (o : Object abi H) : Prop where
  known : ∀ i, o.payload = .host i → i < o.heap.length
  live : ∀ i, o.payload = .host i → kind ≠ .sem → ∃ v, o.heap.load i = some (some v)

theorem bound_start : Bound kind (start header word : Object abi H) := by
  constructor <;> intro i hi <;> cases hi

theorem Bound.of_raw {w : abi.Word} (h : o.payload = .raw w) : Bound kind o := by
  constructor <;> intro i hi <;> cases h.symm.trans hi

theorem Bound.of_fresh {v : H} (h : o'.payload = .host o.heap.length)
    (hHeap : o'.heap = (o.heap.alloc none).store o.heap.length (some v)) : Bound kind o' := by
  have hLoad : o'.heap.load o.heap.length = some (some v) := by
    rw [hHeap]
    exact Heap.load_store_same (Heap.load_alloc_new o.heap none)
  constructor
  · intro i hi
    obtain rfl : o.heap.length = i := Payload.host.inj (h.symm.trans hi)
    exact Heap.load_lt hLoad
  · intro i hi _
    obtain rfl : o.heap.length = i := Payload.host.inj (h.symm.trans hi)
    exact ⟨v, hLoad⟩

theorem Bound.of_kept (hBound : Bound kind o) (h : o'.payload = o.payload)
    (hHeap : ∀ i v, o.heap.load i = some v → o'.heap.load i = some v)
    (hLength : o.heap.length ≤ o'.heap.length) : Bound kind o' := by
  constructor
  · intro i hi
    exact Nat.lt_of_lt_of_le (hBound.known i (h.symm.trans hi)) hLength
  · intro i hi hKind
    obtain ⟨v, hv⟩ := hBound.live i (h.symm.trans hi) hKind
    exact ⟨v, hHeap i _ hv⟩

theorem load_alloc_free {heap : Heap (Option H)} {v w : Option H} {i : Nat}
    (h : heap.load i = some v) : ((heap.alloc w).free heap.length).load i = some v := by
  rw [Heap.load_free_ne (Nat.ne_of_lt (Heap.load_lt h))]
  exact Heap.load_alloc_old h

theorem initObject_bound {attr : Except String HostInit} {r : Int} (hBound : Bound kind o) :
    Bound kind (initObject host attr r o).1 := by
  unfold initObject
  cases attr with
  | error e => exact hBound
  | ok init =>
    by_cases hr : r = 0
    · simp only [hr, ne_eq, not_true_eq_false, if_false]
      exact .of_fresh rfl rfl
    · simp only [ne_eq, hr, not_false_eq_true, if_true]
      exact hBound.of_kept rfl (fun i v => load_alloc_free) (by simp [Heap.length_alloc])

theorem makeCWrapped_bound {init : HostInit} {r : Int} :
    Bound .sem (makeCWrapped host init r o).1 := by
  constructor
  · intro i hi
    obtain rfl : o.heap.length = i := Payload.host.inj hi
    unfold makeCWrapped
    dsimp only
    split <;> simp [Heap.length_alloc]
  · exact fun i _ hKind => absurd rfl hKind

theorem request_bound (hBound : Bound kind o) (h : request host o kind q = some (o', res)) :
    Bound kind o' := by
  cases request_effect h with
  | init kind arg attr r => exact initObject_bound hBound
  | make arg init r => exact makeCWrapped_bound
  | skip kind r h => exact hBound
  | destroy kind r i v heap h hv => exact .of_raw rfl
  | delete r i v heap h hv hLength =>
    constructor
    · intro j hj
      simpa [hLength] using hBound.known j hj
    · exact fun i _ hKind => absurd rfl hKind

theorem toHost_bound {r : Int} {found : Except String Nat} (hBound : Bound kind o)
    (h : toHost host r o kind = some (o', found)) : Bound kind o' := by
  cases kind with
  | sem =>
    obtain ⟨i, -, h⟩ := Option.map_eq_some_iff.mp h
    obtain ⟨rfl, -⟩ := Prod.mk.inj h
    exact hBound
  | sync kind =>
    simp only [toHost] at h
    split at h
    · obtain ⟨i, -, h⟩ := Option.map_eq_some_iff.mp h
      obtain ⟨rfl, -⟩ := Prod.mk.inj h
      exact hBound
    · split at h <;> obtain ⟨rfl, -⟩ := Prod.mk.inj (Option.some.inj h)
      · exact hBound.of_kept rfl (fun i v => Heap.load_alloc_old) (by simp [Heap.length_alloc])
      · exact .of_fresh rfl rfl

theorem useObject_bound {r ret : Int} {next : H} (hBound : Bound kind o)
    (h : useObject host kind r next ret o = some (o', res)) : Bound kind o' := by
  obtain ⟨⟨found, i⟩, hFound, h⟩ := Option.bind_eq_some_iff.mp h
  have hBound := toHost_bound hBound hFound
  cases i with
  | error e =>
    obtain ⟨rfl, -⟩ := Prod.mk.inj (Option.some.inj h)
    exact hBound
  | ok i =>
    obtain ⟨v, hv, h⟩ := Option.bind_eq_some_iff.mp h
    obtain ⟨rfl, -⟩ := Prod.mk.inj (Option.some.inj h)
    constructor
    · intro j hj
      simpa using hBound.known j hj
    · intro j hj hKind
      obtain ⟨w, hw⟩ := hBound.live j hj hKind
      by_cases hji : j = i
      · subst hji
        exact ⟨next, Heap.load_store_same hw⟩
      · exact ⟨w, (Heap.load_store_ne hji).trans hw⟩

theorem step_bound {op : Op H} (hBound : Bound kind o) (h : step host kind o op = some o') :
    Bound kind o' := by
  cases op with
  | request q =>
    obtain ⟨⟨_, res⟩, hCall, rfl⟩ := Option.map_eq_some_iff.mp h
    exact request_bound hBound hCall
  | use r next ret =>
    obtain ⟨⟨_, res⟩, hCall, rfl⟩ := Option.map_eq_some_iff.mp h
    exact useObject_bound hBound hCall

theorem reachable_bound (hRun : exec (step host kind) (start header word) tr = some o) :
    Bound kind o :=
  exec_invariant bound_start (fun _ _ _ => step_bound) hRun

theorem initObject_failureAtomic {attr : Except String HostInit} {r : Int} {kind : SyncKind}
    (hBound : Bound (.sync kind) o) :
    FailureAtomic o (initObject host attr r o).1 (initObject host attr r o).2 := by
  intro e hRes hError
  unfold initObject at hRes ⊢
  cases attr with
  | error message => cases hRes
  | ok init =>
    by_cases hr : r = 0
    · simp only [hr, ne_eq, not_true_eq_false, if_false, Result.returned.injEq] at hRes
      exact absurd (hRes.symm.trans ((translateErrnoFromHost_eq_zero _ _).mpr rfl)) hError
    · simp only [ne_eq, hr, not_false_eq_true, if_true]
      refine ⟨rfl, fun i hi => ?_⟩
      obtain ⟨v, hv⟩ := hBound.live i (Payload.host?_eq.mp hi) nofun
      exact ⟨some v, hv, load_alloc_free hv⟩

theorem makeCWrapped_failureAtomic {init : HostInit} {r : Int} (hBound : Bound .sem o) :
    FailureAtomic o (makeCWrapped host init r o).1 (.returned r) ↔ r = 0 := by
  constructor
  · intro h
    by_contra hr
    have hSame := (h r rfl hr).bound
    have hKnown := hBound.known o.heap.length (Payload.host?_eq.mp hSame.symm)
    exact absurd hKnown (Nat.lt_irrefl _)
  · rintro rfl e hRes hError
    exact absurd (Result.returned.inj hRes).symm hError

/-- In every reachable state, a failed init or destroy leaves the guest object and its host object
as they were exactly when it is the init of a payload kind, or there was no host object to
destroy. -/
theorem init_destroy_failure_atomic
    (hRun : exec (step host kind) (start header word) tr = some o)
    (hCall : request host o kind q = some (o', res)) :
    FailureAtomic o o' res ↔ q.Safe kind o := by
  have hBound := reachable_bound hRun
  cases request_effect hCall with
  | init kind arg attr r =>
    exact ⟨fun _ => Or.inl nofun, fun _ => initObject_failureAtomic hBound⟩
  | make arg init r =>
    rw [makeCWrapped_failureAtomic hBound]
    simp [Request.Safe]
  | skip kind r h =>
    refine ⟨fun _ => Or.inr h, fun _ e hRes hError => ?_⟩
    exact absurd (Result.returned.inj hRes).symm hError
  | destroy kind r i v heap h hv =>
    have hUnchecked : (Request.destroy r).Safe (.sync kind) o ↔ r = 0 := by
      simp [Request.Safe, h, Payload.host?]
    rw [hUnchecked]
    constructor
    · intro hAtomic
      by_contra hr
      have hError := mt (translateErrnoFromHost_eq_zero host.errno r).mp hr
      have hSame := (hAtomic _ rfl hError).bound
      simp [h, Payload.host?] at hSame
    · rintro rfl e hRes hError
      have hZero := (translateErrnoFromHost_eq_zero host.errno 0).mpr rfl
      exact absurd ((Result.returned.inj hRes).symm.trans hZero) hError
  | delete r i v heap h hv hLength =>
    have hUnchecked : (Request.destroy r).Safe .sem o ↔ r = 0 := by
      simp [Request.Safe, h, Payload.host?]
    rw [hUnchecked]
    constructor
    · intro hAtomic
      by_contra hr
      obtain ⟨w, -, hw⟩ := (hAtomic r rfl hr).kept i (Payload.host?_eq.mpr h)
      simp [Heap.load_free_same] at hw
    · rintro rfl e hRes hError
      exact absurd (Result.returned.inj hRes).symm hError

end FailureAtomicity

/-! ### On Linux, with a mutex that knows its owner -/

def linuxHost : Host .lp64 (Option Nat) where
  mutexDefault := .normal
  errno := linuxErrno
  fresh _ := none
  address i := BitVec.ofNat 64 (0x10000 + i * 64 % 2 ^ 63)
  mapped i := by
    have hLow : 0x10000 ≤ (0x10000 + i * 64 % 2 ^ 63) % 2 ^ 64 := by omega
    exact decide_eq_true hLow

/-- Thread 1 holds the mutex; the host refuses to destroy it. -/
theorem pthread_mutex_destroy_busy :
    ¬ ∀ (kind : ObjectKind) (tr : List (Op (Option Nat))) (o o' : Object .lp64 (Option Nat))
      (q : Request) (res : Result), exec (step linuxHost kind) (start 0 0) tr = some o →
      request linuxHost o kind q = some (o', res) → FailureAtomic o o' res := by
  intro hClaim
  have hHeld := hClaim (.sync .mutex) [.use 0 (some 1) 0] _ _ (.destroy 16) _ rfl rfl 16 rfl
    (by decide)
  cases hHeld.bound

/-- Thread 1 holds the mutex; the host refuses a second init of it with `EAGAIN`. -/
theorem pthread_mutex_init_refused :
    SameBinding (⟨0, .host 0, [⟨some (some 1), 0⟩]⟩ : Object .lp64 (Option Nat))
      ⟨0, .host 0, [⟨some (some 1), 0⟩, ⟨none, 1⟩]⟩ := by
  have hRun : exec (step linuxHost (.sync .mutex)) (start 0 0) [.use 0 (some 1) 0] =
      some ⟨0, .host 0, [⟨some (some 1), 0⟩]⟩ := rfl
  have hCall : request linuxHost ⟨0, .host 0, [⟨some (some 1), 0⟩]⟩ (.sync .mutex)
      (.init (.mutex none) 11) =
        some (⟨0, .host 0, [⟨some (some 1), 0⟩, ⟨none, 1⟩]⟩, .returned 11) := rfl
  have hAtomic := (init_destroy_failure_atomic hRun hCall).mpr (Or.inl nofun)
  exact hAtomic 11 rfl (by decide)

end LibcShim.Pthread.Lifetime
