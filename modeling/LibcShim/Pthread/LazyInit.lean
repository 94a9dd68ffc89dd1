import LibcShim.Kit.Heap
import LibcShim.Kit.Pool
import LibcShim.Pthread.Object

/-! Lazy initialisation of statically initialised objects: `to_host` and the static initialisers of
`pthread_mutex_t`, `pthread_cond_t` and `pthread_rwlock_t`, run on one object by any number of
concurrent calls.  A call is a loop-free sequence of atomic steps; the payload word, `data[0]` and
the host heap are shared. -/

namespace LibcShim.Pthread.LazyInit

open Kit

/-- The attribute a host object is initialised with; conds and rwlocks get a null one. -/
inductive HostAttr
  | null
  | mutex (type : MutexType)
  deriving DecidableEq, Repr

/-- Memory for a host object; it stays uninitialised where the host's init function failed. -/
structure HostObject (abi : Abi) where
  address : abi.Word
  attr : HostAttr
  initialized : Bool
  deriving DecidableEq

/-- The memory that the calls share.  `header` is `data[0]` where it is separate from the
payload. -/
structure Memory (abi : Abi) where
  payload : abi.Word
  header : BitVec 32
  heap : Heap (HostObject abi)

def Memory.data0 {abi : Abi} (m : Memory abi) : BitVec 32 :=
  match abi with
  | .lp64 => m.header
  | .ilp32 => m.payload.setWidth 32

/-- Where a call of `to_host` stands. -/
inductive Pc (abi : Abi)
  | load
  | readInit (payload : abi.Word)
  | allocate (payload : abi.Word) (attr : HostAttr)
  | exchange (payload : abi.Word) (host : Nat)
  | free (host : Nat) (seen : abi.Word)
  | check (seen : abi.Word)
  | returned (host : abi.Word)
  | threw (error : String)
  deriving DecidableEq

/-- The atomic steps of a call.  The host chooses the address of the new object, and whether its
init function succeeds. -/
inductive Move (abi : Abi)
  | load
  | readInit
  | allocate (address : abi.Word) (success : Bool)
  | exchange
  | free
  | check

def unaligned : SyncKind → String
  | .mutex => "unaligned mutex"
  | .cond => "unaligned cond"
  | .rwlock => "unaligned rwlock"

def failedToInitByOther : SyncKind → String
  | .mutex => "Failed to init mutex by other thread"
  | .cond => "Failed to init cond by other thread"
  | .rwlock => "Failed to init rwlock by other thread"

theorem failedToInit_ne (kind : SyncKind) : failedToInit kind ≠ failedToInitByOther kind := by
  cases kind <;> decide

def Memory.unused {abi : Abi} (m : Memory abi) (a : abi.Word) : Bool :=
  m.heap.all fun c => c.frees != 0 || c.value.address != a

theorem Memory.ne_of_unused {abi : Abi} {m : Memory abi} {a : abi.Word} {i : Nat}
    {c : Cell (HostObject abi)} (h : m.unused a = true) (hc : m.heap[i]? = some c)
    (hFrees : c.frees = 0) : c.value.address ≠ a := by
  have := List.all_eq_true.mp h c (List.mem_of_getElem? hc)
  simpa [hFrees] using this

/-- `mutex_static_initializer`, `cond_static_initializer` and `rwlock_static_initializer` on the
object `o`, from the allocation on. -/
def staticInitializer {abi : Abi} (kind : SyncKind) (o : GuestObject abi) (m : Memory abi) :
    Pc abi → Move abi → Option (Memory abi × Pc abi)
  | .allocate payload attr, .allocate address success =>
    if (getPayloadPointer o.address).toNat % abi.pointerAlignment ≠ 0 then
      some (m, .threw (unaligned kind))
    else if hostAddress address && m.unused address then
      some ({ m with heap := m.heap.alloc ⟨address, attr, success⟩ },
        if success then .exchange payload m.heap.length else .threw (failedToInit kind))
    else none
  | .exchange payload host, .exchange =>
    if m.payload = payload then
      (m.heap[host]?).map fun c =>
        ({ m with payload := c.value.address }, .returned c.value.address)
    else some (m, .free host m.payload)
  | .free host seen, .free => some ({ m with heap := m.heap.free host }, .check seen)
  | .check seen, .check =>
    some (m, if kind.isInitialized seen then .returned seen else .threw (failedToInitByOther kind))
  | _, _ => none

/-- `to_host<pthread_mutex_t>`: the static initialiser's first argument is a second read of the
object. -/
def toHostMutex {abi : Abi} (host : HostPthread) (o : GuestObject abi) (m : Memory abi) :
    Pc abi → Move abi → Option (Memory abi × Pc abi)
  | .load, .load =>
    some (m, if isMutexInitialized m.payload then .returned m.payload else .readInit m.payload)
  | .readInit payload, .readInit =>
    some (m, .allocate payload (.mutex (selectMutexType host m.data0)))
  | pc, c => staticInitializer .mutex o m pc c

/-- `to_host<pthread_cond_t>`. -/
def toHostCond {abi : Abi} (o : GuestObject abi) (m : Memory abi) :
    Pc abi → Move abi → Option (Memory abi × Pc abi)
  | .load, .load =>
    some (m, if isCondInitialized m.payload then .returned m.payload else .allocate m.payload .null)
  | pc, c => staticInitializer .cond o m pc c

/-- `to_host<pthread_rwlock_t>`. -/
def toHostRwlock {abi : Abi} (o : GuestObject abi) (m : Memory abi) :
    Pc abi → Move abi → Option (Memory abi × Pc abi)
  | .load, .load =>
    some (m,
      if isRwlockInitialized m.payload then .returned m.payload else .allocate m.payload .null)
  | pc, c => staticInitializer .rwlock o m pc c

def toHost {abi : Abi} (host : HostPthread) : SyncKind → GuestObject abi → Memory abi → Pc abi →
    Move abi → Option (Memory abi × Pc abi)
  | .mutex => toHostMutex host
  | .cond => toHostCond
  | .rwlock => toHostRwlock

def selectAttr (host : HostPthread) (data0 : BitVec 32) : SyncKind → HostAttr
  | .mutex => .mutex (selectMutexType host data0)
  | .cond | .rwlock => .null

section Steps

variable {abi : Abi} {host : HostPthread} {kind : SyncKind} {o : GuestObject abi}

inductive Effect (host : HostPthread) (kind : SyncKind) (m : Memory abi) :
    Pc abi → Move abi → Memory abi → Pc abi → Prop
  | hit (h : kind.isInitialized m.payload = true) :
    Effect host kind m .load .load m (.returned m.payload)
  | missMutex (hKind : kind = .mutex) (h : kind.isInitialized m.payload = false) :
    Effect host kind m .load .load m (.readInit m.payload)
  | miss (h : kind.isInitialized m.payload = false) :
    Effect host kind m .load .load m (.allocate m.payload (selectAttr host m.data0 kind))
  | readInit (payload : abi.Word) :
    Effect host kind m (.readInit payload) .readInit m
      (.allocate payload (selectAttr host m.data0 kind))
  | allocate (payload address : abi.Word) (attr : HostAttr) (h : hostAddress address = true)
    (hUnused : m.unused address = true) :
    Effect host kind m (.allocate payload attr) (.allocate address true)
      { m with heap := m.heap.alloc ⟨address, attr, true⟩ } (.exchange payload m.heap.length)
  | failInit (payload address : abi.Word) (attr : HostAttr) (h : hostAddress address = true)
    (hUnused : m.unused address = true) :
    Effect host kind m (.allocate payload attr) (.allocate address false)
      { m with heap := m.heap.alloc ⟨address, attr, false⟩ } (.threw (failedToInit kind))
  | install (i : Nat) (c : Cell (HostObject abi)) (h : m.heap[i]? = some c) :
    Effect host kind m (.exchange m.payload i) .exchange { m with payload := c.value.address }
      (.returned c.value.address)
  | lose (payload : abi.Word) (i : Nat) (h : m.payload ≠ payload) :
    Effect host kind m (.exchange payload i) .exchange m (.free i m.payload)
  | free (i : Nat) (seen : abi.Word) :
    Effect host kind m (.free i seen) .free { m with heap := m.heap.free i } (.check seen)
  | agree (seen : abi.Word) (h : kind.isInitialized seen = true) :
    Effect host kind m (.check seen) .check m (.returned seen)
  | torn (seen : abi.Word) (h : kind.isInitialized seen = false) :
    Effect host kind m (.check seen) .check m (.threw (failedToInitByOther kind))

/-- The payload pointer of an aligned object is aligned, so the first check never fires. -/
theorem staticInitializer_effect {m m' : Memory abi} {p p' : Pc abi} {c : Move abi}
    (h : staticInitializer kind o m p c = some (m', p')) : Effect host kind m p c m' p' := by
  cases p <;> cases c <;> simp only [staticInitializer, reduceCtorEq, Option.some.injEq,
    Prod.mk.injEq, getPayloadPointer_aligned, ne_eq, not_true_eq_false, if_false] at h
  case allocate.allocate payload attr address success =>
    split at h
    · rename_i hOk
      rw [Bool.and_eq_true] at hOk
      obtain ⟨rfl, rfl⟩ := Prod.mk.inj (Option.some.inj h)
      cases success with
      | true => exact .allocate payload address attr hOk.1 hOk.2
      | false => exact .failInit payload address attr hOk.1 hOk.2
    · contradiction
  case exchange.exchange payload i =>
    split at h
    · rename_i hSame
      subst hSame
      obtain ⟨c, hc, hEq⟩ := Option.map_eq_some_iff.mp h
      obtain ⟨rfl, rfl⟩ := Prod.mk.inj hEq
      exact .install i c hc
    · obtain ⟨rfl, rfl⟩ := Prod.mk.inj (Option.some.inj h)
      exact .lose payload i ‹_›
  case free.free i seen =>
    obtain ⟨rfl, rfl⟩ := h
    exact .free i seen
  case check.check seen =>
    obtain ⟨rfl, rfl⟩ := h
    split
    · exact .agree seen ‹_›
    · exact .torn seen (Bool.eq_false_iff.mpr ‹_›)

theorem toHost_effect {m m' : Memory abi} {p p' : Pc abi} {c : Move abi}
    (h : toHost host kind o m p c = some (m', p')) : Effect host kind m p c m' p' := by
  cases kind with
  | mutex =>
    simp only [toHost] at h
    unfold toHostMutex at h
    split at h
    · obtain ⟨rfl, rfl⟩ := Prod.mk.inj (Option.some.inj h)
      split
      · exact .hit ‹_›
      · exact .missMutex rfl (Bool.eq_false_iff.mpr ‹_›)
    · obtain ⟨rfl, rfl⟩ := Prod.mk.inj (Option.some.inj h)
      exact .readInit _
    · exact staticInitializer_effect h
  | cond =>
    simp only [toHost] at h
    unfold toHostCond at h
    split at h
    · obtain ⟨rfl, rfl⟩ := Prod.mk.inj (Option.some.inj h)
      split
      · exact .hit ‹_›
      · exact .miss (Bool.eq_false_iff.mpr ‹_›)
    · exact staticInitializer_effect h
  | rwlock =>
    simp only [toHost] at h
    unfold toHostRwlock at h
    split at h
    · obtain ⟨rfl, rfl⟩ := Prod.mk.inj (Option.some.inj h)
      split
      · exact .hit ‹_›
      · exact .miss (Bool.eq_false_iff.mpr ‹_›)
    · exact staticInitializer_effect h

/-- Memory that is not initialised was so before, or the host's init function fails now. -/
theorem Effect.uninitialized {m m' : Memory abi} {p p' : Pc abi} {c : Move abi} {i : Nat}
    {cell : Cell (HostObject abi)} (h : Effect host kind m p c m' p')
    (hCell : m'.heap[i]? = some cell) (hInit : cell.value.initialized = false) :
    (∃ old, m.heap[i]? = some old ∧ old.value.initialized = false) ∨
      ∃ address, c = .allocate address false := by
  cases h with
  | allocate payload address attr h hUnused =>
    rcases Heap.getElem?_alloc.mp hCell with hOld | ⟨rfl, rfl⟩
    · exact Or.inl ⟨cell, hOld, hInit⟩
    · cases hInit
  | failInit payload address attr h hUnused => exact Or.inr ⟨address, rfl⟩
  | free k seen =>
    obtain ⟨old, hOld, rfl⟩ := Heap.getElem?_free.mp hCell
    exact Or.inl ⟨old, hOld, hInit⟩
  | _ => exact Or.inl ⟨cell, hCell, hInit⟩

end Steps

/-! ### The invariant -/

/-- How far the initialisation is: the installed host object, and for each host object the call
that still has to install or free it. -/
structure Progress (ι : Type*) where
  installed : Option Nat
  owner : Nat → Option ι

def Pc.holds {abi : Abi} : Pc abi → Option Nat
  | .exchange _ i | .free i _ => some i
  | _ => none

section Invariant

variable {ι : Type*} {abi : Abi} {host : HostPthread} {kind : SyncKind} {m₀ : Memory abi}

structure Global (host : HostPthread) (kind : SyncKind) (m₀ : Memory abi) (a : Progress ι)
    (m : Memory abi) : Prop where
  header : m.header = m₀.header
  fresh : a.installed = none → m.payload = m₀.payload
  installed : ∀ i, a.installed = some i → a.owner i = none ∧
    ∃ c : Cell (HostObject abi), m.heap[i]? = some c ∧ m.payload = c.value.address ∧
      c.value.attr = selectAttr host m₀.data0 kind ∧ c.value.initialized = true
  address : ∀ (i : Nat) (c : Cell (HostObject abi)), m.heap[i]? = some c →
    hostAddress c.value.address = true
  frees : ∀ (i : Nat) (c : Cell (HostObject abi)), m.heap[i]? = some c →
    c.frees = if a.installed = some i ∨ (a.owner i).isSome ∨ c.value.initialized = false then 0
      else 1
  bounded : ∀ i t, a.owner i = some t → i < m.heap.length
  distinct : ∀ (i j : Nat) (c c' : Cell (HostObject abi)), m.heap[i]? = some c →
    m.heap[j]? = some c' → c.frees = 0 → c'.frees = 0 → c.value.address = c'.value.address → i = j

/-- What a call knows where it stands.  What it selected counts only while nothing is installed. -/
def Knows (host : HostPthread) (kind : SyncKind) (m₀ : Memory abi) (installed : Option Nat)
    (m : Memory abi) : Pc abi → Prop
  | .load => True
  | .readInit payload => kind = .mutex ∧ payload = m₀.payload
  | .allocate payload attr =>
    payload = m₀.payload ∧ (installed = none → attr = selectAttr host m₀.data0 kind)
  | .exchange payload i => payload = m₀.payload ∧ ∃ c : Cell (HostObject abi),
    m.heap[i]? = some c ∧ c.value.initialized = true ∧
      (installed = none → c.value.attr = selectAttr host m₀.data0 kind)
  | .free i seen => installed ≠ none ∧ seen = m.payload ∧ ∃ c : Cell (HostObject abi),
    m.heap[i]? = some c ∧ c.value.initialized = true
  | .check seen | .returned seen => installed ≠ none ∧ seen = m.payload
  | .threw error => error ≠ failedToInitByOther kind

structure Local (host : HostPthread) (kind : SyncKind) (m₀ : Memory abi) (a : Progress ι) (t : ι)
    (m : Memory abi) (p : Pc abi) : Prop where
  owns : ∀ i, a.owner i = some t ↔ p.holds = some i
  knows : Knows host kind m₀ a.installed m p

/-- What a step must keep for what the other calls know: the values in the heap, and the payload
once an object is installed. -/
structure Keeps (installed : Option Nat) (m : Memory abi) (installed' : Option Nat)
    (m' : Memory abi) : Prop where
  values : ∀ (i : Nat) (c : Cell (HostObject abi)), m.heap[i]? = some c →
    ∃ c' : Cell (HostObject abi), m'.heap[i]? = some c' ∧ c'.value = c.value
  installed : installed ≠ none → installed' ≠ none ∧ m'.payload = m.payload

theorem Knows.keeps {installed installed' : Option Nat} {m m' : Memory abi}
    (h : Keeps installed m installed' m') : ∀ {p : Pc abi},
      Knows host kind m₀ installed m p → Knows host kind m₀ installed' m' p := by
  have hNone : installed' = none → installed = none := fun hn => by
    by_contra hSome
    exact (h.installed hSome).1 hn
  have hSeen {seen : abi.Word} (hk : installed ≠ none ∧ seen = m.payload) :
      installed' ≠ none ∧ seen = m'.payload :=
    ⟨(h.installed hk.1).1, hk.2.trans (h.installed hk.1).2.symm⟩
  intro p hk
  cases p with
  | load => trivial
  | readInit payload => exact hk
  | allocate payload attr => exact ⟨hk.1, fun hn => hk.2 (hNone hn)⟩
  | exchange payload i =>
    obtain ⟨hPayload, c, hc, hInit, hAttr⟩ := hk
    obtain ⟨c', hc', hValue⟩ := h.values i c hc
    exact ⟨hPayload, c', hc', hValue ▸ hInit, fun hn => hValue ▸ hAttr (hNone hn)⟩
  | free i seen =>
    obtain ⟨hInstalled, hPayload, c, hc, hInit⟩ := hk
    obtain ⟨c', hc', hValue⟩ := h.values i c hc
    obtain ⟨hInstalled', hPayload'⟩ := hSeen ⟨hInstalled, hPayload⟩
    exact ⟨hInstalled', hPayload', c', hc', hValue ▸ hInit⟩
  | check seen => exact hSeen hk
  | returned seen => exact hSeen hk
  | threw error => exact hk

/-- A step that changes neither the memory nor the owners keeps the invariant when the call knows
enough where it comes to stand. -/
theorem stay {a : Progress ι} {m : Memory abi} {t : ι} {p p' : Pc abi}
    (hG : Global host kind m₀ a m) (hL : Local host kind m₀ a t m p) (hHolds : p'.holds = p.holds)
    (hKnows : Knows host kind m₀ a.installed m p') :
    ∃ a' : Progress ι, Global host kind m₀ a' m ∧ Local host kind m₀ a' t m p' ∧
      ∀ u q, u ≠ t → Local host kind m₀ a u m q → Local host kind m₀ a' u m q :=
  ⟨a, hG, ⟨fun i => by rw [hHolds]; exact hL.owns i, hKnows⟩, fun _ _ _ h => h⟩

theorem Global.installed_of_initialized {a : Progress ι} {m : Memory abi}
    (hStatic : kind.isInitialized m₀.payload = false) (hG : Global host kind m₀ a m)
    (h : kind.isInitialized m.payload = true) : a.installed ≠ none := by
  intro hNone
  rw [hG.fresh hNone, hStatic] at h
  contradiction

theorem Global.initialized_of_installed {a : Progress ι} {m : Memory abi}
    (hG : Global host kind m₀ a m) (h : a.installed ≠ none) :
    kind.isInitialized m.payload = true := by
  obtain ⟨i, hi⟩ := Option.ne_none_iff_exists'.mp h
  obtain ⟨-, c, hc, hPayload, -⟩ := hG.installed i hi
  rw [hPayload]
  exact isInitialized_hostAddress (hG.address i c hc)

/-- While nothing is installed, `data[0]` is still what the static initialiser wrote. -/
theorem Global.data0 {a : Progress ι} {m : Memory abi} (hG : Global host kind m₀ a m)
    (h : a.installed = none) : m.data0 = m₀.data0 := by
  cases abi with
  | lp64 => exact hG.header
  | ilp32 => exact congrArg (BitVec.setWidth 32) (hG.fresh h)

theorem Global.uninstalled {a : Progress ι} {m : Memory abi} (hG : Global host kind m₀ a m)
    (h : kind.isInitialized m.payload = false) : a.installed = none := by
  by_contra hSome
  rw [hG.initialized_of_installed hSome] at h
  contradiction

theorem owner_forget_other {owner : Nat → Option ι} {k i : Nat} {t u : ι} (hk : owner k = some t)
    (hu : u ≠ t) : Function.update owner k none i = some u ↔ owner i = some u := by
  by_cases hi : i = k
  · subst hi
    simp [hk, Ne.symm hu]
  · simp [hi]

theorem owner_forget_self {owner : Nat → Option ι} {k i : Nat} {t : ι}
    (hOnly : ∀ i, owner i = some t ↔ some k = some i) :
    Function.update owner k none i ≠ some t := by
  by_cases hi : i = k
  · simp [hi]
  · simpa [hi, Ne.symm hi] using hOnly i

/-- New memory at an address that is not in use.  It has an owner if the host's init function
succeeds. -/
theorem Global.alloc {a : Progress ι} {m : Memory abi} {address : abi.Word} {attr : HostAttr}
    {success : Bool} {owner : Nat → Option ι} (hG : Global host kind m₀ a m)
    (h : hostAddress address = true) (hUnused : m.unused address = true)
    (hOld : ∀ i, i ≠ m.heap.length → owner i = a.owner i)
    (hNew : (owner m.heap.length).isSome = success) :
    Global host kind m₀ ⟨a.installed, owner⟩
      { m with heap := m.heap.alloc ⟨address, attr, success⟩ } := by
  have hNe (i : Nat) (c : Cell (HostObject abi)) (hc : m.heap[i]? = some c) :
      i ≠ m.heap.length := (List.getElem?_eq_some_iff.mp hc).1.ne
  refine ⟨hG.header, hG.fresh, fun i hi => ?_, fun i c hc => ?_, fun i c hc => ?_,
    fun i u hu => ?_, fun i j c c' hc hc' h0 h0' hEq => ?_⟩
  · obtain ⟨hOwner, c, hc, hRest⟩ := hG.installed i hi
    exact ⟨(hOld i (hNe i c hc)).trans hOwner, c, Heap.getElem?_alloc_old hc, hRest⟩
  · rcases Heap.getElem?_alloc.mp hc with hc | ⟨rfl, rfl⟩
    · exact hG.address i c hc
    · exact h
  · rcases Heap.getElem?_alloc.mp hc with hc | ⟨rfl, rfl⟩
    · simpa [hOld i (hNe i c hc)] using hG.frees i c hc
    · cases success <;> simp [hNew]
  · rw [Heap.length_alloc]
    by_cases hi : i = m.heap.length
    · omega
    · have := hG.bounded i u ((hOld i hi).symm.trans hu)
      omega
  · rcases Heap.getElem?_alloc.mp hc with hc | ⟨rfl, rfl⟩ <;>
      rcases Heap.getElem?_alloc.mp hc' with hc' | ⟨rfl, rfl⟩
    · exact hG.distinct i j c c' hc hc' h0 h0' hEq
    · exact absurd hEq (Memory.ne_of_unused hUnused hc h0)
    · exact absurd hEq.symm (Memory.ne_of_unused hUnused hc' h0')
    · rfl

theorem Keeps.alloc (installed : Option Nat) (m : Memory abi) (v : HostObject abi) :
    Keeps installed m installed { m with heap := m.heap.alloc v } :=
  ⟨fun _ c hc => ⟨c, Heap.getElem?_alloc_old hc, rfl⟩, fun hSome => ⟨hSome, rfl⟩⟩

/-- The exchange of the call that owns the object `k`, while nothing is installed. -/
theorem Global.install {a : Progress ι} {m : Memory abi} {t : ι} {k : Nat}
    {c : Cell (HostObject abi)} (hG : Global host kind m₀ a m) (hNone : a.installed = none)
    (hMine : a.owner k = some t) (hc : m.heap[k]? = some c) (hInit : c.value.initialized = true)
    (hAttr : c.value.attr = selectAttr host m₀.data0 kind) :
    Global host kind m₀ ⟨some k, Function.update a.owner k none⟩
      { m with payload := c.value.address } := by
  refine ⟨hG.header, by simp, ?_, hG.address, fun i ci hci => ?_, fun i u hu => ?_, hG.distinct⟩
  · rintro i ⟨⟩
    exact ⟨by simp, c, hc, rfl, hAttr, hInit⟩
  · rw [hG.frees i ci hci]
    by_cases hi : i = k
    · subst hi
      simp [hMine]
    · simp [hNone, hi, Ne.symm hi]
  · by_cases hi : i = k
    · simp [hi] at hu
    · exact hG.bounded i u (by simpa [hi] using hu)

/-- The free of the object `k` by the call that owns it. -/
theorem Global.free {a : Progress ι} {m : Memory abi} {t : ι} {k : Nat}
    (hG : Global host kind m₀ a m) (hMine : a.owner k = some t)
    (hInit : ∀ c : Cell (HostObject abi), m.heap[k]? = some c → c.value.initialized = true) :
    Global host kind m₀ ⟨a.installed, Function.update a.owner k none⟩
      { m with heap := m.heap.free k } := by
  have hOther {i : Nat} (hi : a.installed = some i) : i ≠ k := by
    rintro rfl
    rw [(hG.installed i hi).1] at hMine
    contradiction
  refine ⟨hG.header, hG.fresh, fun i hi => ?_, fun i c hc => ?_, fun i c hc => ?_,
    fun i u hu => ?_, fun i j c c' hc hc' h0 h0' hEq => ?_⟩
  · obtain ⟨hOwner, c, hc, hRest⟩ := hG.installed i hi
    exact ⟨by simpa [hOther hi] using hOwner, _, Heap.getElem?_free.mpr ⟨c, hc, rfl⟩, hRest⟩
  · obtain ⟨c, hOld, rfl⟩ := Heap.getElem?_free.mp hc
    exact hG.address i c hOld
  · obtain ⟨c, hOld, rfl⟩ := Heap.getElem?_free.mp hc
    simp only [hG.frees i c hOld]
    by_cases hi : i = k
    · subst hi
      have hNot : a.installed ≠ some i := fun hi => hOther hi rfl
      simp [hMine, hNot, hInit c hOld]
    · simp [hi]
  · rw [Heap.length_free]
    by_cases hi : i = k
    · simp [hi] at hu
    · exact hG.bounded i u (by simpa [hi] using hu)
  · obtain ⟨d, hOld, rfl⟩ := Heap.getElem?_free.mp hc
    obtain ⟨d', hOld', rfl⟩ := Heap.getElem?_free.mp hc'
    exact hG.distinct i j d d' hOld hOld' (Nat.eq_zero_of_add_eq_zero_right h0)
      (Nat.eq_zero_of_add_eq_zero_right h0') hEq

theorem Keeps.free (installed : Option Nat) (m : Memory abi) (k : Nat) :
    Keeps installed m installed { m with heap := m.heap.free k } :=
  ⟨fun _ c hc => ⟨_, Heap.getElem?_free.mpr ⟨c, hc, rfl⟩, rfl⟩, fun hSome => ⟨hSome, rfl⟩⟩

theorem Effect.keeps {a : Progress ι} {m m' : Memory abi} {t : ι} {p p' : Pc abi}
    (hStatic : kind.isInitialized m₀.payload = false) (hG : Global host kind m₀ a m)
    {c : Move abi} (hL : Local host kind m₀ a t m p) (h : Effect host kind m p c m' p') :
    ∃ a' : Progress ι, Global host kind m₀ a' m' ∧ Local host kind m₀ a' t m' p' ∧
      ∀ u q, u ≠ t → Local host kind m₀ a u m q → Local host kind m₀ a' u m' q := by
  have hKnows := hL.knows
  have hNew : a.owner m.heap.length = none := by
    by_contra hSome
    obtain ⟨u, hu⟩ := Option.ne_none_iff_exists'.mp hSome
    exact absurd (hG.bounded _ u hu) (Nat.lt_irrefl _)
  cases h with
  | hit h => exact stay hG hL rfl ⟨hG.installed_of_initialized hStatic h, rfl⟩
  | missMutex hKind h => exact stay hG hL rfl ⟨hKind, hG.fresh (hG.uninstalled h)⟩
  | miss h =>
    have hNone := hG.uninstalled h
    exact stay hG hL rfl ⟨hG.fresh hNone, fun _ => by rw [hG.data0 hNone]⟩
  | readInit payload => exact stay hG hL rfl ⟨hKnows.2, fun hNone => by rw [hG.data0 hNone]⟩
  | lose payload i h =>
    refine stay hG hL rfl ⟨fun hNone => h ?_, rfl, ?_⟩
    · rw [hG.fresh hNone, hKnows.1]
    · obtain ⟨-, c, hc, hInit, -⟩ := hKnows
      exact ⟨c, hc, hInit⟩
  | agree seen h => exact stay hG hL rfl hKnows
  | torn seen h =>
    obtain ⟨hInstalled, rfl⟩ := hKnows
    rw [hG.initialized_of_installed hInstalled] at h
    contradiction
  | failInit payload address attr h hUnused =>
    -- No call owns the memory, so it is never freed.
    have hOwner : (a.owner m.heap.length).isSome = false := by simp [hNew]
    exact ⟨a, hG.alloc h hUnused (fun _ _ => rfl) hOwner,
      ⟨hL.owns, failedToInit_ne kind⟩,
      fun u q _ hq => ⟨hq.owns, hq.knows.keeps (.alloc _ m _)⟩⟩
  | allocate payload address attr h hUnused =>
    -- The call owns the new object.
    refine ⟨⟨a.installed, Function.update a.owner m.heap.length (some t)⟩, ?_, ?_, ?_⟩
    · exact hG.alloc h hUnused (fun i hi => by simp [hi]) (by simp)
    · refine ⟨fun i => ?_, hKnows.1, _, Heap.getElem?_alloc.mpr (Or.inr ⟨rfl, rfl⟩), rfl, hKnows.2⟩
      by_cases hi : i = m.heap.length
      · simp [hi, Pc.holds]
      · have := hL.owns i
        simp [Pc.holds] at this
        simpa [hi, Pc.holds, Ne.symm hi] using this
    · intro u q hu hq
      refine ⟨fun i => ?_, hq.knows.keeps (.alloc _ m _)⟩
      by_cases hi : i = m.heap.length
      · subst hi
        have := hq.owns m.heap.length
        rw [hNew] at this
        simp only [reduceCtorEq, false_iff] at this
        simpa [Ne.symm hu] using this
      · simpa [hi] using hq.owns i
  | install k c hc =>
    -- The exchange succeeded, so nothing was installed and what the call selected counts.
    obtain ⟨hPayload, c', hc', hInit, hAttr⟩ := hKnows
    obtain rfl : c = c' := Option.some.inj (hc.symm.trans hc')
    have hNone : a.installed = none := hG.uninstalled (by rw [hPayload]; exact hStatic)
    have hMine : a.owner k = some t := (hL.owns k).mpr rfl
    have hKeeps : Keeps a.installed m (some k) { m with payload := c.value.address } :=
      ⟨fun _ c hc => ⟨c, hc, rfl⟩, fun hSome => absurd hNone hSome⟩
    refine ⟨⟨some k, Function.update a.owner k none⟩,
      hG.install hNone hMine hc hInit (hAttr hNone), ?_, ?_⟩
    · exact ⟨fun i => by simpa [Pc.holds] using owner_forget_self hL.owns, by simp, rfl⟩
    · intro u q hu hq
      exact ⟨fun i => (owner_forget_other hMine hu).trans (hq.owns i), hq.knows.keeps hKeeps⟩
  | free k seen =>
    obtain ⟨hInstalled, hSeen, c, hc, hInit⟩ := hKnows
    have hMine : a.owner k = some t := (hL.owns k).mpr rfl
    have hOnly (d : Cell (HostObject abi)) (hd : m.heap[k]? = some d) :
        d.value.initialized = true := Option.some.inj (hc.symm.trans hd) ▸ hInit
    refine ⟨⟨a.installed, Function.update a.owner k none⟩, hG.free hMine hOnly, ?_, ?_⟩
    · exact ⟨fun i => by simpa [Pc.holds] using owner_forget_self hL.owns, hInstalled, hSeen⟩
    · intro u q hu hq
      exact ⟨fun i => (owner_forget_other hMine hu).trans (hq.owns i),
        hq.knows.keeps (.free _ m k)⟩

end Invariant

/-! ### Agreement -/

/-- A guest object that holds what its static initialiser wrote. -/
structure StaticObject (abi : Abi) (kind : SyncKind) extends GuestObject abi where
  payload : abi.Word
  header : BitVec 32
  uninitialized : kind.isInitialized payload = false

namespace StaticObject

variable {ι : Type*} {abi : Abi} {kind : SyncKind}

def memory (o : StaticObject abi kind) : Memory abi := ⟨o.payload, o.header, []⟩

def start (o : StaticObject abi kind) : Pool ι (Memory abi) (Pc abi) := ⟨o.memory, fun _ => .load⟩

end StaticObject

/-- The type that bionic's static initialiser stands for. -/
def staticMutexType (initValue : BitVec 32) : MutexType :=
  if initValue = 0x4000 then .recursive else if initValue = 0x8000 then .errorcheck else .normal

section Agreement

variable {ι : Type*} [DecidableEq ι] {abi : Abi} {host : HostPthread} {kind : SyncKind}
  {o : StaticObject abi kind} {s : Pool ι (Memory abi) (Pc abi)} {tr : List (ι × Move abi)}

theorem progress_exists
    (hRun : exec (poolStep (toHost host kind o.toGuestObject)) o.start tr = some s) :
    ∃ a : Progress ι, Global host kind o.memory a s.shared ∧
      ∀ t, Local host kind o.memory a t s.shared (s.pc t) := by
  refine pool_history (G := fun _ a m => Global host kind o.memory a m)
    (L := fun a t m p => Local host kind o.memory a t m p) ⟨⟨none, fun _ => none⟩, ?_, ?_⟩ ?_ hRun
  · constructor <;> simp [StaticObject.start, StaticObject.memory]
  · exact fun t => ⟨by simp [StaticObject.start, Pc.holds], trivial⟩
  · intro tr a t c m p m' p' hG hL hMove
    exact (toHost_effect hMove).keeps o.uninitialized hG hL

def path {abi : Abi} (initial payload : abi.Word) : List (abi.Word × abi.Word) :=
  if payload = initial then [] else [(initial, payload)]

theorem payload_changes
    (hRun : exec (poolStep (toHost host kind o.toGuestObject)) o.start tr = some s) :
    changes (poolStep (toHost host kind o.toGuestObject)) (fun s => s.shared.payload) o.start tr =
      path o.payload s.shared.payload := by
  refine changes_eq (by simp [path, StaticObject.start, StaticObject.memory]) ?_ hRun
  rintro tr s ⟨t, c⟩ s' h hs hNe
  obtain ⟨a, hG, hL⟩ := progress_exists h
  obtain ⟨m', p', hMove, rfl⟩ := poolStep_eq.mp hs
  have hKnows := (hL t).knows
  have hEffect := toHost_effect hMove
  generalize s.pc t = p at hEffect hKnows
  cases hEffect <;> try exact absurd rfl hNe
  case install i c hc =>
    have hOld : s.shared.payload = o.payload := hKnows.1
    have hNew : kind.isInitialized c.value.address = true :=
      isInitialized_hostAddress (hG.address i c hc)
    have hDiffer : c.value.address ≠ o.payload := by
      intro h
      rw [h, o.uninitialized] at hNew
      contradiction
    simp [path, hOld, hDiffer]

/-- Memory stays uninitialised only where an init function of the host failed. -/
theorem uninitialized_of_failure
    (hRun : exec (poolStep (toHost host kind o.toGuestObject)) o.start tr = some s) {i : Nat}
    {c : Cell (HostObject abi)} (hc : s.shared.heap[i]? = some c)
    (hInit : c.value.initialized = false) : ∃ t address, (t, .allocate address false) ∈ tr := by
  refine exec_history
    (P := fun tr (s : Pool ι (Memory abi) (Pc abi)) => ∀ (i : Nat) (c : Cell (HostObject abi)),
      s.shared.heap[i]? = some c → c.value.initialized = false →
        ∃ t address, (t, .allocate address false) ∈ tr) ?_ ?_ hRun i c hc hInit
  · intro i c hc
    simp [StaticObject.start, StaticObject.memory] at hc
  · rintro tr s ⟨t, move⟩ s' - ih hs i c hc hInit
    obtain ⟨m', p', hMove, rfl⟩ := poolStep_eq.mp hs
    rcases (toHost_effect hMove).uninitialized hc hInit with ⟨old, hOld, hOldInit⟩ | ⟨address, rfl⟩
    · obtain ⟨u, address, hMem⟩ := ih i old hOld hOldInit
      exact ⟨u, address, List.mem_append_left _ hMem⟩
    · exact ⟨t, address, by simp⟩

/-! ### A call that runs on alone -/

/-- The moves of a call with nothing in between lead from where it stands to its return. -/
def Finishes (host : HostPthread) (kind : SyncKind) (o : GuestObject abi) (m : Memory abi)
    (p : Pc abi) (v : abi.Word) : Prop :=
  ∃ moves m', exec (fun (s : Memory abi × Pc abi) c => toHost host kind o s.1 s.2 c) (m, p) moves =
    some (m', .returned v) ∧ m'.payload = v

theorem Finishes.step {g : GuestObject abi} {m m' : Memory abi} {p p' : Pc abi} {v : abi.Word}
    {c : Move abi} (hMove : toHost host kind g m p c = some (m', p'))
    (hRest : Finishes host kind g m' p' v) : Finishes host kind g m p v := by
  obtain ⟨moves, m'', hRun, hPayload⟩ := hRest
  exact ⟨c :: moves, m'', exec_cons.mpr ⟨_, hMove, hRun⟩, hPayload⟩

section Finishing

variable {g : GuestObject abi} {m : Memory abi} {payload seen : abi.Word} {i : Nat}

theorem finishes_returned : Finishes host kind g m (.returned m.payload) m.payload :=
  ⟨[], m, rfl, rfl⟩

/-- Behind its load, a call of any kind goes on in its static initialiser. -/
theorem toHost_static {p : Pc abi} {c : Move abi} (hLoad : p ≠ .load)
    (hRead : ∀ payload, p ≠ .readInit payload) :
    toHost host kind g m p c = staticInitializer kind g m p c := by
  cases kind <;> cases p <;> first | rfl | exact absurd rfl hLoad | exact absurd rfl (hRead _)

theorem finishes_check (hInit : kind.isInitialized m.payload = true) :
    Finishes host kind g m (.check m.payload) m.payload := by
  refine .step (c := .check) ?_ finishes_returned
  rw [toHost_static (p := .check _) nofun nofun, staticInitializer, if_pos hInit]

theorem finishes_free (hInit : kind.isInitialized m.payload = true) :
    Finishes host kind g m (.free i m.payload) m.payload := by
  refine .step (c := .free) ?_ (finishes_check (m := { m with heap := m.heap.free i }) hInit)
  rw [toHost_static (p := .free _ _) nofun nofun, staticInitializer]

theorem finishes_exchange {c : Cell (HostObject abi)} (hCell : m.heap[i]? = some c)
    (hInit : m.payload ≠ payload → kind.isInitialized m.payload = true) :
    ∃ v, (m.payload = payload → v = c.value.address) ∧
      Finishes host kind g m (.exchange payload i) v := by
  by_cases hSame : m.payload = payload
  · refine ⟨c.value.address, fun _ => rfl, .step (c := .exchange) ?_
      (finishes_returned (m := { m with payload := c.value.address }))⟩
    rw [toHost_static (p := .exchange _ _) nofun nofun, staticInitializer, if_pos hSame, hCell]
    rfl
  · refine ⟨m.payload, fun h => absurd h hSame, .step (c := .exchange) ?_
      (finishes_free (i := i) (hInit hSame))⟩
    rw [toHost_static (p := .exchange _ _) nofun nofun, staticInitializer, if_neg hSame]

theorem finishes_allocate {attr : HostAttr} {address : abi.Word}
    (hAddress : hostAddress address = true) (hUnused : m.unused address = true)
    (hInit : m.payload ≠ payload → kind.isInitialized m.payload = true) :
    ∃ v, (m.payload = payload → v = address) ∧
      Finishes host kind g m (.allocate payload attr) v := by
  obtain ⟨v, hFresh, hRest⟩ : ∃ v, (m.payload = payload → v = address) ∧
      Finishes host kind g { m with heap := m.heap.alloc ⟨address, attr, true⟩ }
        (.exchange payload m.heap.length) v :=
    finishes_exchange (m := { m with heap := m.heap.alloc ⟨address, attr, true⟩ })
      (Heap.getElem?_alloc.mpr (Or.inr ⟨rfl, rfl⟩)) hInit
  refine ⟨v, hFresh, .step (c := .allocate address true) ?_ hRest⟩
  rw [toHost_static (p := .allocate _ _) nofun nofun, staticInitializer,
    if_neg (not_not_intro (getPayloadPointer_aligned g))]
  simp [hAddress, hUnused]

/-- A call that finds the payload uninitialised goes on to allocate. -/
theorem toHost_miss (hMiss : kind.isInitialized m.payload = false) :
    (kind = .mutex ∧ toHost host kind g m .load .load = some (m, .readInit m.payload)) ∨
      ∃ attr, toHost host kind g m .load .load = some (m, .allocate m.payload attr) := by
  cases kind with
  | mutex =>
    have hWord : isMutexInitialized m.payload = false := hMiss
    exact Or.inl ⟨rfl, by simp [toHost, toHostMutex, hWord]⟩
  | cond =>
    have hWord : isCondInitialized m.payload = false := hMiss
    exact Or.inr ⟨.null, by simp [toHost, toHostCond, hWord]⟩
  | rwlock =>
    have hWord : isRwlockInitialized m.payload = false := hMiss
    exact Or.inr ⟨.null, by simp [toHost, toHostRwlock, hWord]⟩

theorem toHost_hit (hHit : kind.isInitialized m.payload = true) :
    toHost host kind g m .load .load = some (m, .returned m.payload) := by
  cases kind with
  | mutex => exact congrArg (fun p => some (m, p)) (if_pos hHit)
  | cond => exact congrArg (fun p => some (m, p)) (if_pos hHit)
  | rwlock => exact congrArg (fun p => some (m, p)) (if_pos hHit)

end Finishing

/-- A call that has not thrown comes to its return when it runs on alone, where the host has a place
for an object.  If it began before anything was installed, it installs that object. -/
theorem call_finishes
    (hRun : exec (poolStep (toHost host kind o.toGuestObject)) o.start tr = some s) {t : ι}
    (hAlive : ∀ e, s.pc t ≠ .threw e) {address : abi.Word} (hAddress : hostAddress address = true)
    (hUnused : s.shared.unused address = true) :
    ∃ v, (s.pc t = .load → s.shared.payload = o.payload → v = address) ∧
      Finishes host kind o.toGuestObject s.shared (s.pc t) v := by
  obtain ⟨a, hG, hL⟩ := progress_exists hRun
  have hKnows := (hL t).knows
  have hStatic : s.shared.payload = o.payload → kind.isInitialized s.shared.payload = false :=
    fun h => h ▸ o.uninitialized
  have hInit : s.shared.payload ≠ o.payload → kind.isInitialized s.shared.payload = true :=
    fun hNe => hG.initialized_of_installed fun hNone => hNe (hG.fresh hNone)
  have hAllocate : ∀ attr, ∃ v, (s.shared.payload = o.payload → v = address) ∧
      Finishes host kind o.toGuestObject s.shared (.allocate o.payload attr) v :=
    fun attr => finishes_allocate hAddress hUnused hInit
  have hRead (hKind : kind = .mutex) : ∃ v, (s.shared.payload = o.payload → v = address) ∧
      Finishes host kind o.toGuestObject s.shared (.readInit o.payload) v := by
    subst hKind
    obtain ⟨v, hFresh, hRest⟩ := hAllocate (.mutex (selectMutexType host s.shared.data0))
    exact ⟨v, hFresh, .step (c := .readInit) rfl hRest⟩
  cases hPc : s.pc t with
  | load =>
    cases hFound : kind.isInitialized s.shared.payload with
    | true =>
      refine ⟨s.shared.payload, fun _ h => ?_, .step (toHost_hit hFound) finishes_returned⟩
      rw [hStatic h] at hFound
      contradiction
    | false =>
      have hSame : s.shared.payload = o.payload := hG.fresh (hG.uninstalled hFound)
      rcases @toHost_miss _ host _ o.toGuestObject _ hFound with ⟨hKind, hMove⟩ | ⟨attr, hMove⟩
      · obtain ⟨v, hFresh, hRest⟩ := hRead hKind
        rw [hSame] at hMove
        exact ⟨v, fun _ => hFresh, .step hMove hRest⟩
      · obtain ⟨v, hFresh, hRest⟩ := hAllocate attr
        rw [hSame] at hMove
        exact ⟨v, fun _ => hFresh, .step hMove hRest⟩
  | readInit payload =>
    rw [hPc] at hKnows
    obtain ⟨hKind, rfl⟩ := hKnows
    obtain ⟨v, -, hRest⟩ := hRead hKind
    exact ⟨v, nofun, hRest⟩
  | allocate payload attr =>
    rw [hPc] at hKnows
    obtain ⟨rfl, -⟩ := hKnows
    obtain ⟨v, -, hRest⟩ := hAllocate attr
    exact ⟨v, nofun, hRest⟩
  | exchange payload i =>
    rw [hPc] at hKnows
    obtain ⟨rfl, c, hc, -⟩ := hKnows
    obtain ⟨v, -, hRest⟩ : ∃ v, (s.shared.payload = o.payload → v = c.value.address) ∧
        Finishes host kind o.toGuestObject s.shared (.exchange o.payload i) v :=
      finishes_exchange hc hInit
    exact ⟨v, nofun, hRest⟩
  | free i seen =>
    rw [hPc] at hKnows
    obtain ⟨hInstalled, rfl, -⟩ := hKnows
    exact ⟨_, nofun, finishes_free (hG.initialized_of_installed hInstalled)⟩
  | check seen =>
    rw [hPc] at hKnows
    obtain ⟨hInstalled, rfl⟩ := hKnows
    exact ⟨_, nofun, finishes_check (hG.initialized_of_installed hInstalled)⟩
  | returned seen =>
    rw [hPc] at hKnows
    obtain ⟨-, rfl⟩ := hKnows
    exact ⟨_, nofun, finishes_returned⟩
  | threw e => exact absurd hPc (hAlive e)

/-- What all the calls of `to_host` on one object agree on, with the object installed so far. -/
structure Agreement (o : StaticObject abi kind) (host : HostPthread) (tr : List (ι × Move abi))
    (s : Pool ι (Memory abi) (Pc abi)) (installed : Option Nat) : Prop where
  /-- Every call that returns, returns the installed object. -/
  returns : ∀ t v, s.pc t = .returned v →
    ∃ i c, installed = some i ∧ s.shared.heap[i]? = some c ∧ v = c.value.address
  /-- The payload word leaves its initial value once, for the installed object. -/
  changes : changes (poolStep (toHost host kind o.toGuestObject)) (fun s => s.shared.payload)
    o.start tr = if installed = none then [] else [(o.payload, s.shared.payload)]
  /-- The installed object is initialised and never freed, it is the only allocated one at its
  address, and it has the type that the initialiser selects. -/
  kept : ∀ i, installed = some i → ∃ c : Cell (HostObject abi), s.shared.heap[i]? = some c ∧
    c.value.initialized = true ∧ c.frees = 0 ∧ s.shared.payload = c.value.address ∧
    (∀ j c', s.shared.heap[j]? = some c' → c'.frees = 0 → c'.value.address = c.value.address →
      j = i) ∧
    (kind = .mutex → c.value.attr = .mutex (staticMutexType o.memory.data0))
  /-- Every other object that the host initialised is freed once, by the call that still holds it
  if it is not yet freed. -/
  freed : ∀ (i : Nat) (c : Cell (HostObject abi)), s.shared.heap[i]? = some c →
    c.value.initialized = true → installed ≠ some i →
    c.frees = 1 ∧ (∀ t, (s.pc t).holds ≠ some i) ∨
    c.frees = 0 ∧ ∃ t, (s.pc t).holds = some i
  /-- The host initialised every object, unless its init function failed in a call. -/
  initialized : (∀ t address, (t, .allocate address false) ∉ tr) →
    ∀ (i : Nat) (c : Cell (HostObject abi)), s.shared.heap[i]? = some c →
      c.value.initialized = true
  /-- No call finds the payload uninitialised after it lost the exchange. -/
  noError : ∀ t, s.pc t ≠ .threw (failedToInitByOther kind)
  /-- A call that has not thrown returns the payload when it runs on alone.  If it begins before
  anything is installed, it installs its own object. -/
  finishes : ∀ t address, (∀ e, s.pc t ≠ .threw e) → hostAddress address = true →
    s.shared.unused address = true → ∃ (moves : List (Move abi)) (s' : Pool ι (Memory abi) (Pc abi))
      (v : abi.Word),
      exec (poolStep (toHost host kind o.toGuestObject)) s (moves.map fun c => (t, c)) = some s' ∧
      s'.pc t = .returned v ∧ s'.shared.payload = v ∧
      (s.pc t = .load → installed = none → v = address)

theorem selectMutexType_eq {initValue : BitVec 32} :
    selectMutexType host initValue = staticMutexType initValue ↔
      initValue = 0x4000 ∨ initValue = 0x8000 ∨ host.mutexDefault = .normal := by
  by_cases hRecursive : initValue = 0x4000#32
  · simp [selectMutexType, staticMutexType, hRecursive, recursiveMutexInitValue]
  · by_cases hErrorcheck : initValue = 0x8000#32
    · simp [selectMutexType, staticMutexType, hErrorcheck, recursiveMutexInitValue,
        errorcheckMutexInitValue]
    · simp [selectMutexType, staticMutexType, hRecursive, hErrorcheck, recursiveMutexInitValue,
        errorcheckMutexInitValue]

/-- Whatever the host's default type, the calls agree on all but the type of the mutex. -/
theorem agreement_of_type
    (hType : kind = .mutex →
      selectMutexType host o.memory.data0 = staticMutexType o.memory.data0)
    (hRun : exec (poolStep (toHost host kind o.toGuestObject)) o.start tr = some s) :
    ∃ installed, Agreement o host tr s installed := by
  obtain ⟨a, hG, hL⟩ := progress_exists hRun
  have hUninstalled : a.installed = none ↔ s.shared.payload = o.payload := by
    refine ⟨hG.fresh, fun h => ?_⟩
    exact hG.uninstalled (by rw [h]; exact o.uninitialized)
  refine ⟨a.installed, ?_, ?_, ?_, ?_, ?_, ?_, ?_⟩
  · intro t v ht
    have hKnows := (hL t).knows
    rw [ht] at hKnows
    obtain ⟨i, hi⟩ := Option.ne_none_iff_exists'.mp hKnows.1
    obtain ⟨-, c, hc, hPayload, -⟩ := hG.installed i hi
    exact ⟨i, c, hi, hc, hKnows.2.trans hPayload⟩
  · rw [payload_changes hRun, path]
    simp [hUninstalled]
  · intro i hi
    obtain ⟨-, c, hc, hPayload, hAttr, hInit⟩ := hG.installed i hi
    have hFrees : c.frees = 0 := by simp [hG.frees i c hc, hi]
    refine ⟨c, hc, hInit, hFrees, hPayload,
      fun j c' hc' h0 hEq => hG.distinct j i c' c hc' hc h0 hFrees hEq, ?_⟩
    rintro rfl
    rw [hAttr, selectAttr, hType rfl]
  · intro i c hc hInit hi
    cases hOwner : a.owner i with
    | none =>
      refine Or.inl ⟨by simp [hG.frees i c hc, hi, hOwner, hInit], fun t ht => ?_⟩
      rw [← (hL t).owns i, hOwner] at ht
      contradiction
    | some t =>
      exact Or.inr ⟨by simp [hG.frees i c hc, hOwner], t, ((hL t).owns i).mp hOwner⟩
  · intro hSuccess i c hc
    by_contra hInit
    obtain ⟨t, address, hMem⟩ := uninitialized_of_failure hRun hc (Bool.eq_false_iff.mpr hInit)
    exact hSuccess t address hMem
  · intro t ht
    have hKnows := (hL t).knows
    rw [ht] at hKnows
    exact hKnows rfl
  · intro t address hAlive hAddress hUnused
    obtain ⟨v, hFresh, moves, m', hAlone, hPayload⟩ :=
      call_finishes hRun hAlive hAddress hUnused
    exact ⟨moves, _, v, exec_alone hAlone, Function.update_self .., hPayload,
      fun hLoad hNone => hFresh hLoad (hUninstalled.mp hNone)⟩

/-- The first address that a host may give out. -/
def lowestAddress : (abi : Abi) → abi.Word
  | .lp64 => 0x10000#64
  | .ilp32 => 0x10000#32

theorem hostAddress_lowest (abi : Abi) : hostAddress (lowestAddress abi) = true := by
  cases abi <;> decide

/-- A call alone installs a mutex of the type that the code selects. -/
theorem installs_selected {o : StaticObject abi .mutex}
    (hAll : ∀ (tr : List (Unit × Move abi)) (s : Pool Unit (Memory abi) (Pc abi)),
      exec (poolStep (toHost host .mutex o.toGuestObject)) o.start tr = some s →
        ∃ installed, Agreement o host tr s installed) :
    selectMutexType host o.memory.data0 = staticMutexType o.memory.data0 := by
  obtain ⟨_, hStart⟩ := hAll [] _ rfl
  obtain ⟨moves, s, v, hRun, hReturned, -⟩ := hStart.finishes () (lowestAddress abi) nofun
    (hostAddress_lowest abi) rfl
  obtain ⟨installed, hAgreement⟩ := hAll _ s hRun
  obtain ⟨a, hG, hL⟩ := progress_exists hRun
  obtain ⟨i, -, hi, -⟩ := hAgreement.returns () v hReturned
  obtain ⟨c, hc, -, -, hPayload, hOnly, hType⟩ := hAgreement.kept i hi
  have hInstalled := (hL ()).knows
  rw [hReturned] at hInstalled
  obtain ⟨j, hj⟩ := Option.ne_none_iff_exists'.mp hInstalled.1
  obtain ⟨-, c', hc', hPayload', hAttr, -⟩ := hG.installed j hj
  have hFrees : c'.frees = 0 := by simp [hG.frees j c' hc', hj]
  obtain rfl : j = i := hOnly j c' hc' hFrees (hPayload'.symm.trans hPayload)
  obtain rfl : c = c' := Option.some.inj (hc.symm.trans hc')
  exact HostAttr.mutex.inj (hAttr.symm.trans (hType rfl))

/-- All calls of `to_host` on one statically initialised object agree on its host object, in every
interleaving; but the normal initialiser of a mutex leaves the type to the host's default. -/
theorem to_host_agreement (host : HostPthread) (kind : SyncKind) (o : StaticObject abi kind) :
    (∀ (ι : Type) [DecidableEq ι] (tr : List (ι × Move abi)) (s : Pool ι (Memory abi) (Pc abi)),
      exec (poolStep (toHost host kind o.toGuestObject)) o.start tr = some s →
        ∃ installed, Agreement o host tr s installed) ↔
      kind ≠ .mutex ∨ o.memory.data0 = 0x4000 ∨ o.memory.data0 = 0x8000 ∨
        host.mutexDefault = .normal := by
  constructor
  · intro hAll
    by_cases hKind : kind = .mutex
    · subst hKind
      exact Or.inr (selectMutexType_eq.mp (installs_selected (hAll Unit)))
    · exact Or.inl hKind
  · intro hCondition ι _ tr s hRun
    refine agreement_of_type (fun hKind => ?_) hRun
    exact selectMutexType_eq.mpr (hCondition.resolve_left (not_not_intro hKind))

/-- A recursive mutex on a 32-bit host: both calls read the init word and allocate, the first one
installs its object, and the second one frees its own. -/
def recursiveMutex : StaticObject .ilp32 .mutex where
  address := 0x1000#32
  aligned := rfl
  payload := 0x4000#32
  header := 0
  uninitialized := rfl

def twoCalls : List (Bool × Move .ilp32) :=
  [(true, .load), (false, .load), (true, .readInit), (false, .readInit),
    (true, .allocate 0x20000#32 true), (false, .allocate 0x30000#32 true), (true, .exchange),
    (false, .exchange), (false, .free), (false, .check)]

theorem to_host_two_calls : ∃ s,
    exec (poolStep (toHost ⟨.normal⟩ .mutex recursiveMutex.toGuestObject)) recursiveMutex.start
      twoCalls = some s ∧
    s.pc true = .returned 0x20000#32 ∧ s.pc false = .returned 0x20000#32 ∧
    ∃ installed, Agreement recursiveMutex ⟨.normal⟩ twoCalls s installed :=
  ⟨_, rfl, rfl, rfl, (to_host_agreement ⟨.normal⟩ .mutex recursiveMutex).mpr
    (Or.inr (Or.inl rfl)) Bool twoCalls _ rfl⟩

def normalMutex : StaticObject .lp64 .mutex where
  address := 0x1000#64
  aligned := rfl
  payload := 0
  header := 0
  uninitialized := rfl

/-- `PTHREAD_MUTEX_INITIALIZER` where the host's default type is the error-checking one. -/
theorem normal_mutex_checks_errors :
    ¬ ∀ (abi : Abi) (host : HostPthread) (kind : SyncKind) (o : StaticObject abi kind)
      (tr : List (Unit × Move abi)) (s : Pool Unit (Memory abi) (Pc abi)),
      exec (poolStep (toHost host kind o.toGuestObject)) o.start tr = some s →
        ∃ installed, Agreement o host tr s installed := by
  intro hClaim
  obtain ⟨installed, hAgreement⟩ := hClaim .lp64 ⟨.errorcheck⟩ .mutex normalMutex
    [((), .load), ((), .readInit), ((), .allocate 0x20000#64 true), ((), .exchange)] _ rfl
  obtain ⟨i, c, hi, hc, -⟩ := hAgreement.returns () _ rfl
  obtain ⟨c', hc', -, -, -, -, hType⟩ := hAgreement.kept i hi
  cases i with
  | zero =>
    obtain rfl := Option.some.inj hc'
    cases hType rfl
  | succ i => cases hc

end Agreement

end LibcShim.Pthread.LazyInit
