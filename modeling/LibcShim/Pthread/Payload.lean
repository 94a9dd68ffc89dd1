import LibcShim.Kit.Bytes
import LibcShim.Pthread.LazyInit

/-! The bytes of a guest object on LP64: where the payload lies in them, at any address, and what
the calls of any number of threads leave of the others. -/

namespace LibcShim.Pthread.Payload

open Kit

abbrev Word := Abi.lp64.Word

/-- `sizeof` of the guest's type. -/
def size : SyncKind → Nat
  | .mutex => 40
  | .cond => 48
  | .rwlock => 56

/-- Memory by address, and the host's heap. -/
structure Memory where
  bytes : Bytes
  heap : Heap (LazyInit.HostObject .lp64)

def Memory.payload (m : Memory) (p : Word) : Word :=
  BitVec.ofNat 64 (m.bytes.loadWord (getPayloadPointer p).toNat 8)

def Memory.data0 (m : Memory) (p : Word) : BitVec 32 :=
  BitVec.ofNat 32 (m.bytes.loadWord p.toNat 4)

def Memory.setPayload (m : Memory) (p v : Word) : Memory :=
  { m with bytes := m.bytes.storeWord (getPayloadPointer p).toNat 8 v.toNat }

def Memory.unused (m : Memory) (a : Word) : Bool :=
  m.heap.all fun c => c.frees != 0 || c.value.address != a

/-! ### The calls -/

/-- The static initialisers, from the allocation on. -/
def staticInitializer (kind : SyncKind) (p : Word) (m : Memory) :
    LazyInit.Pc .lp64 → LazyInit.Move .lp64 → Option (Memory × LazyInit.Pc .lp64)
  | .allocate payload attr, .allocate address success =>
    if (getPayloadPointer p).toNat % Abi.lp64.pointerAlignment ≠ 0 then
      some (m, .threw (LazyInit.unaligned kind))
    else if hostAddress address && m.unused address then
      some ({ m with heap := m.heap.alloc ⟨address, attr, success⟩ },
        if success then .exchange payload m.heap.length else .threw (failedToInit kind))
    else none
  | .exchange payload host, .exchange =>
    if m.payload p = payload then
      (m.heap[host]?).map fun c => (m.setPayload p c.value.address, .returned c.value.address)
    else some (m, .free host (m.payload p))
  | .free host seen, .free => some ({ m with heap := m.heap.free host }, .check seen)
  | .check seen, .check =>
    some (m, if kind.isInitialized seen then .returned seen
      else .threw (LazyInit.failedToInitByOther kind))
  | _, _ => none

/-- `to_host`; only a mutex has a static type to read. -/
def toHost (host : HostPthread) (kind : SyncKind) (p : Word) (m : Memory) :
    LazyInit.Pc .lp64 → LazyInit.Move .lp64 → Option (Memory × LazyInit.Pc .lp64)
  | .load, .load =>
    some (m, if kind.isInitialized (m.payload p) then .returned (m.payload p)
      else if kind = .mutex then .readInit (m.payload p)
      else .allocate (m.payload p) .null)
  | .readInit payload, .readInit =>
    if kind = .mutex then some (m, .allocate payload (.mutex (selectMutexType host (m.data0 p))))
    else none
  | pc, c => staticInitializer kind p m pc c

/-- Where a thread stands: between two calls, in an init, in the `to_host` of any other call, or in
a destroy. -/
inductive Pc
  | idle
  | init (attr : LazyInit.HostAttr)
  | store (address : Word)
  | toHost (pc : LazyInit.Pc .lp64)
  | destroy
  | clear (seen : Word)
  | free (seen : Word)
  deriving DecidableEq

inductive Job
  | init (attr : LazyInit.HostAttr)
  | use
  | destroy

def Job.start : Job → Pc
  | init attr => .init attr
  | use => .toHost .load
  | destroy => .destroy

/-- The atomic steps.  The host chooses the address of a new object and whether its init function
succeeds, and `free` names the cell of the object. -/
inductive Move
  | call (job : Job)
  | hostInit (address : Word) (success : Bool)
  | store
  | toHost (c : LazyInit.Move .lp64)
  | load
  | clear
  | free (i : Nat)

def Pc.done : Pc → Bool
  | .idle | .toHost (.returned _) | .toHost (.threw _) => true
  | _ => false

def step (host : HostPthread) (kind : SyncKind) (p : Word) (m : Memory) :
    Pc → Move → Option (Memory × Pc)
  | pc, .call job => if pc.done then some (m, job.start) else none
  | .init attr, .hostInit address success =>
    if hostAddress address && m.unused address then
      let heap := m.heap.alloc ⟨address, attr, success⟩
      if success then some ({ m with heap := heap }, .store address)
      else some ({ m with heap := heap.free m.heap.length }, .idle)
    else none
  | .store address, .store => some (m.setPayload p address, .idle)
  | .toHost pc, .toHost c => (toHost host kind p m pc c).map fun (m, pc) => (m, .toHost pc)
  | .destroy, .load =>
    some (m, if kind.isInitialized (m.payload p) then .clear (m.payload p) else .idle)
  | .clear seen, .clear => some (m.setPayload p 0, .free seen)
  | .free seen, .free i =>
    match m.heap[i]? with
    | some c =>
      if c.value.address = seen then some ({ m with heap := m.heap.free i }, .idle) else none
    | none => none
  | _, _ => none

section Places

variable {kind : SyncKind} {p : Word} {m m' : Memory}

/-- The payload is aligned, and lies behind the first 4 bytes and within the object. -/
theorem payload_place (hFits : p.toNat + size kind ≤ 2 ^ 64) :
    (getPayloadPointer p).toNat % 8 = 0 ∧ p.toNat + 4 ≤ (getPayloadPointer p).toNat ∧
      (getPayloadPointer p).toNat + 8 ≤ p.toNat + size kind := by
  have hSize : 40 ≤ size kind := by cases kind <;> decide
  have hSum : (p + 11).toNat = p.toNat + 11 := by
    rw [BitVec.toNat_add]
    show (p.toNat + 11) % 2 ^ 64 = p.toNat + 11
    omega
  have hPlace : (getPayloadPointer p).toNat = (p.toNat + 11) / 8 * 8 := by
    rw [← hSum]
    exact and_neg_eight _
  rw [hPlace]
  omega

theorem data0_setPayload (hFits : p.toNat + size kind ≤ 2 ^ 64) (v : Word) :
    (m.setPayload p v).data0 p = m.data0 p := by
  obtain ⟨-, hBehind, -⟩ := payload_place hFits
  unfold Memory.data0 Memory.setPayload
  rw [Bytes.loadWord_storeWord_disjoint (Or.inl hBehind)]

theorem payload_setPayload (v : Word) : (m.setPayload p v).payload p = v := by
  have hLoad : (m.bytes.storeWord (getPayloadPointer p).toNat 8 v.toNat).loadWord
      (getPayloadPointer p).toNat 8 = v.toNat := Bytes.loadWord_storeWord v.isLt
  unfold Memory.payload Memory.setPayload
  rw [hLoad]
  exact BitVec.ofNat_toNat 64 v

end Places

/-! ### Words for bytes -/

/-- What lazy initialisation sees of the memory: the payload and `data[0]` as words of their own. -/
def Memory.view (p : Word) (m : Memory) : LazyInit.Memory .lp64 :=
  ⟨m.payload p, m.data0 p, m.heap⟩

section Views

variable {host : HostPthread} {kind : SyncKind} {o : GuestObject .lp64} {m : Memory}

theorem view_setPayload (hFits : o.address.toNat + size kind ≤ 2 ^ 64) (v : Word) :
    (m.setPayload o.address v).view o.address = { m.view o.address with payload := v } := by
  unfold Memory.view
  rw [payload_setPayload, data0_setPayload hFits]
  rfl

theorem staticInitializer_view (hFits : o.address.toNat + size kind ≤ 2 ^ 64)
    (pc : LazyInit.Pc .lp64) (c : LazyInit.Move .lp64) :
    (staticInitializer kind o.address m pc c).map (fun (m, pc) => (m.view o.address, pc)) =
      LazyInit.staticInitializer kind o (m.view o.address) pc c := by
  have hAligned : (getPayloadPointer o.address).toNat % Abi.lp64.pointerAlignment = 0 :=
    getPayloadPointer_aligned o
  cases pc <;> cases c <;> simp only [staticInitializer, LazyInit.staticInitializer, hAligned,
    ne_eq, not_true_eq_false, if_false, Option.map_none, Option.map_some]
  case allocate.allocate payload attr address success =>
    show Option.map _ (if hostAddress address && m.unused address then _ else _) =
      if hostAddress address && m.unused address then _ else _
    split <;> rfl
  case exchange.exchange payload i =>
    show Option.map _ (if m.payload o.address = payload then _ else _) =
      if m.payload o.address = payload then (m.heap[i]?).map _ else _
    split
    · cases m.heap[i]? with
      | none => rfl
      | some c => simp [view_setPayload hFits]
    · rfl
  case free.free i seen => rfl

/-- On an object with the alignment of its type, `to_host` does on the bytes what it does on the two
words. -/
theorem toHost_view (hFits : o.address.toNat + size kind ≤ 2 ^ 64) (pc : LazyInit.Pc .lp64)
    (c : LazyInit.Move .lp64) :
    (toHost host kind o.address m pc c).map (fun (m, pc) => (m.view o.address, pc)) =
      LazyInit.toHost host kind o (m.view o.address) pc c := by
  unfold toHost
  split
  case h_1 => cases kind <;> rfl
  case h_2 payload => cases kind <;> rfl
  case h_3 hLoad hRead =>
    rw [staticInitializer_view hFits]
    cases kind with
    | mutex =>
      show _ = LazyInit.toHostMutex host o _ pc c
      unfold LazyInit.toHostMutex
      split
      · exact (hLoad rfl rfl).elim
      · exact (hRead _ rfl rfl).elim
      · rfl
    | cond =>
      show _ = LazyInit.toHostCond o _ pc c
      unfold LazyInit.toHostCond
      split
      · exact (hLoad rfl rfl).elim
      · rfl
    | rwlock =>
      show _ = LazyInit.toHostRwlock o _ pc c
      unfold LazyInit.toHostRwlock
      split
      · exact (hLoad rfl rfl).elim
      · rfl

variable {ι : Type} [DecidableEq ι]

def poolView (p : Word) (s : Pool ι Memory (LazyInit.Pc .lp64)) :
    Pool ι (LazyInit.Memory .lp64) (LazyInit.Pc .lp64) :=
  ⟨s.shared.view p, s.pc⟩

/-- Concurrent calls of `to_host` on the bytes are the calls on the two words. -/
theorem exec_view (hFits : o.address.toNat + size kind ≤ 2 ^ 64)
    {s s' : Pool ι Memory (LazyInit.Pc .lp64)} {tr : List (ι × LazyInit.Move .lp64)}
    (hRun : exec (poolStep (toHost host kind o.address)) s tr = some s') :
    exec (poolStep (LazyInit.toHost host kind o)) (poolView o.address s) tr =
      some (poolView o.address s') := by
  have hStep : ∀ s t (a : ι × LazyInit.Move .lp64), t = poolView o.address s →
      Option.Rel (fun s t => t = poolView o.address s)
        (poolStep (toHost host kind o.address) s a)
        (poolStep (LazyInit.toHost host kind o) t a) := by
    rintro s _ ⟨i, c⟩ rfl
    simp only [poolStep, poolView, ← toHost_view hFits]
    cases toHost host kind o.address s.shared (s.pc i) c with
    | none => exact .none
    | some r => exact .some rfl
  have hLockstep := exec_lockstep hStep (s := s) rfl tr
  rw [hRun] at hLockstep
  generalize exec (poolStep (LazyInit.toHost host kind o)) (poolView o.address s) tr = last at *
  cases hLockstep with
  | some hView => rw [hView]

end Views

/-! ### Runs -/

/-- `m'` has the bytes of `m`, but for the payload of the object at `p`. -/
def Frame (p : Word) (m m' : Memory) : Prop :=
  ∀ a, a < (getPayloadPointer p).toNat ∨ (getPayloadPointer p).toNat + 8 ≤ a →
    m'.bytes a = m.bytes a

/-- A call that is about to create the host object has the attribute that `data` selects, and one
that has thrown did not find the payload unaligned. -/
def Sound (host : HostPthread) (kind : SyncKind) (data : BitVec 32) : Pc → Prop
  | .toHost (.allocate _ attr) => attr = LazyInit.selectAttr host data kind
  | .toHost (.threw e) => ∀ k, e ≠ LazyInit.unaligned k
  | _ => True

section Steps

variable {host : HostPthread} {kind : SyncKind} {p : Word} {m m' : Memory}

theorem Frame.refl (p : Word) (m : Memory) : Frame p m m := fun _ _ => rfl

theorem Frame.trans {m'' : Memory} (h : Frame p m m') (h' : Frame p m' m'') : Frame p m m'' :=
  fun a ha => (h' a ha).trans (h a ha)

theorem Frame.setPayload (v : Word) : Frame p m (m.setPayload p v) :=
  fun _ ha => Bytes.storeWord_outside ha

theorem Frame.data0 (hFits : p.toNat + size kind ≤ 2 ^ 64) (h : Frame p m m') :
    m'.data0 p = m.data0 p := by
  obtain ⟨-, hBehind, -⟩ := payload_place hFits
  unfold Memory.data0
  rw [Bytes.loadWord_congr fun a _ hHigh => h a (Or.inl (by omega))]

theorem failedToInit_ne_unaligned (kind k : SyncKind) :
    failedToInit kind ≠ LazyInit.unaligned k ∧
      LazyInit.failedToInitByOther kind ≠ LazyInit.unaligned k := by
  cases kind <;> cases k <;> decide

theorem staticInitializer_keeps {pc pc' : LazyInit.Pc .lp64} {c : LazyInit.Move .lp64}
    (hFits : p.toNat + size kind ≤ 2 ^ 64) (h : staticInitializer kind p m pc c = some (m', pc'))
    (data : BitVec 32) : Frame p m m' ∧ Sound host kind data (.toHost pc') := by
  have hAligned : (getPayloadPointer p).toNat % Abi.lp64.pointerAlignment = 0 :=
    (payload_place hFits).1
  cases pc <;> cases c <;> simp only [staticInitializer, reduceCtorEq, Option.some.injEq,
    Prod.mk.injEq, hAligned, ne_eq, not_true_eq_false, if_false] at h
  case allocate.allocate payload attr address success =>
    split at h
    · obtain ⟨rfl, rfl⟩ := Prod.mk.inj (Option.some.inj h)
      refine ⟨fun _ _ => rfl, ?_⟩
      cases success with
      | true => trivial
      | false => exact fun k => (failedToInit_ne_unaligned kind k).1
    · contradiction
  case exchange.exchange payload i =>
    split at h
    · obtain ⟨c, hc, hEq⟩ := Option.map_eq_some_iff.mp h
      obtain ⟨rfl, rfl⟩ := Prod.mk.inj hEq
      exact ⟨Frame.setPayload _, trivial⟩
    · obtain ⟨rfl, rfl⟩ := Prod.mk.inj (Option.some.inj h)
      exact ⟨Frame.refl p m, trivial⟩
  case free.free i seen =>
    obtain ⟨rfl, rfl⟩ := h
    exact ⟨fun _ _ => rfl, trivial⟩
  case check.check seen =>
    obtain ⟨rfl, rfl⟩ := h
    refine ⟨Frame.refl p m, ?_⟩
    split
    · trivial
    · exact fun k => (failedToInit_ne_unaligned kind k).2

theorem toHost_keeps {pc pc' : LazyInit.Pc .lp64} {c : LazyInit.Move .lp64}
    (hFits : p.toNat + size kind ≤ 2 ^ 64) (h : toHost host kind p m pc c = some (m', pc')) :
    Frame p m m' ∧ Sound host kind (m.data0 p) (.toHost pc') := by
  unfold toHost at h
  split at h
  · obtain ⟨rfl, rfl⟩ := Prod.mk.inj (Option.some.inj h)
    refine ⟨Frame.refl p m, ?_⟩
    split
    · trivial
    · split
      · trivial
      · rename_i hKind
        cases kind with
        | mutex => exact absurd rfl hKind
        | cond | rwlock => rfl
  · split at h
    · rename_i hKind
      subst hKind
      obtain ⟨rfl, rfl⟩ := Prod.mk.inj (Option.some.inj h)
      exact ⟨Frame.refl p m, rfl⟩
    · cases h
  · exact staticInitializer_keeps hFits h _

/-- A step writes nothing but the payload. -/
theorem step_keeps {pc pc' : Pc} {c : Move} (hFits : p.toNat + size kind ≤ 2 ^ 64)
    (h : step host kind p m pc c = some (m', pc')) :
    Frame p m m' ∧ Sound host kind (m.data0 p) pc' := by
  unfold step at h
  split at h
  case h_1 pc job =>
    split at h
    · obtain ⟨rfl, rfl⟩ := Prod.mk.inj (Option.some.inj h)
      refine ⟨Frame.refl p m, ?_⟩
      cases job <;> trivial
    · cases h
  case h_2 attr address success =>
    split at h
    · split at h
      · obtain ⟨rfl, rfl⟩ := Prod.mk.inj (Option.some.inj h)
        exact ⟨fun _ _ => rfl, trivial⟩
      · obtain ⟨rfl, rfl⟩ := Prod.mk.inj (Option.some.inj h)
        exact ⟨fun _ _ => rfl, trivial⟩
    · cases h
  case h_3 address =>
    obtain ⟨rfl, rfl⟩ := Prod.mk.inj (Option.some.inj h)
    exact ⟨Frame.setPayload address, trivial⟩
  case h_4 pc c =>
    obtain ⟨⟨sh, pc'⟩, hMove, hEq⟩ := Option.map_eq_some_iff.mp h
    obtain ⟨rfl, rfl⟩ := Prod.mk.inj hEq
    exact toHost_keeps hFits hMove
  case h_5 =>
    obtain ⟨rfl, rfl⟩ := Prod.mk.inj (Option.some.inj h)
    refine ⟨Frame.refl p m, ?_⟩
    split <;> trivial
  case h_6 seen =>
    obtain ⟨rfl, rfl⟩ := Prod.mk.inj (Option.some.inj h)
    exact ⟨Frame.setPayload 0, trivial⟩
  case h_7 seen i =>
    split at h
    · split at h
      · obtain ⟨rfl, rfl⟩ := Prod.mk.inj (Option.some.inj h)
        exact ⟨fun _ _ => rfl, trivial⟩
      · cases h
    · cases h
  case h_8 => cases h

variable {ι : Type} [DecidableEq ι] {m₀ : Memory} {s : Pool ι Memory Pc} {tr : List (ι × Move)}

/-- What a step keeps, each run from idle threads keeps. -/
theorem run_keeps (hFits : p.toNat + size kind ≤ 2 ^ 64)
    (hRun : exec (poolStep (step host kind p)) ⟨m₀, fun _ => .idle⟩ tr = some s) :
    Frame p m₀ s.shared ∧ ∀ t, Sound host kind (m₀.data0 p) (s.pc t) := by
  have hHistory : ∃ _ : Unit, Frame p m₀ s.shared ∧
      ∀ t, Sound host kind (m₀.data0 p) (s.pc t) := by
    refine pool_history (G := fun _ _ m => Frame p m₀ m)
      (L := fun _ _ _ pc => Sound host kind (m₀.data0 p) pc) ?_ ?_ hRun
    · exact ⟨(), Frame.refl p m₀, fun _ => trivial⟩
    · intro tr _ t c m pc m' pc' hFrame _ hStep
      obtain ⟨hStepFrame, hSound⟩ := step_keeps hFits hStep
      rw [hFrame.data0 hFits] at hSound
      exact ⟨(), hFrame.trans hStepFrame, hSound, fun _ _ _ h => h⟩
  obtain ⟨-, hFrame, hSound⟩ := hHistory
  exact ⟨hFrame, hSound⟩

end Steps

/-- The payload lies beside the static initialiser and within the object.  So in each run of inits,
destroys and other calls, in any number of threads, `data[0]` stays, each lazy initialisation sees
the type that the object had at the start, and none finds the payload unaligned. -/
theorem payload_beside_initializer (host : HostPthread) (kind : SyncKind) (p : Word)
    (hFits : p.toNat + size kind ≤ 2 ^ 64) :
    (getPayloadPointer p).toNat % 8 = 0 ∧ p.toNat + 4 ≤ (getPayloadPointer p).toNat ∧
      (getPayloadPointer p).toNat + 8 ≤ p.toNat + size kind ∧
      ∀ (ι : Type) [DecidableEq ι] (m₀ : Memory) (tr : List (ι × Move)) (s : Pool ι Memory Pc),
        exec (poolStep (step host kind p)) ⟨m₀, fun _ => .idle⟩ tr = some s →
          (∀ a, a < (getPayloadPointer p).toNat ∨ (getPayloadPointer p).toNat + 8 ≤ a →
            s.shared.bytes a = m₀.bytes a) ∧
          s.shared.data0 p = m₀.data0 p ∧
          ∀ t, (∀ payload attr, s.pc t = .toHost (.allocate payload attr) →
              attr = LazyInit.selectAttr host (m₀.data0 p) kind) ∧
            ∀ k, s.pc t ≠ .toHost (.threw (LazyInit.unaligned k)) := by
  obtain ⟨hAligned, hBehind, hWithin⟩ := payload_place hFits
  refine ⟨hAligned, hBehind, hWithin, fun ι _ m₀ tr s hRun => ?_⟩
  obtain ⟨hFrame, hSound⟩ := run_keeps hFits hRun
  refine ⟨hFrame, hFrame.data0 hFits, fun t => ⟨fun payload attr hPc => ?_, fun k hPc => ?_⟩⟩
  · have hThread := hSound t
    rw [hPc] at hThread
    exact hThread
  · have hThread := hSound t
    rw [hPc] at hThread
    exact hThread k rfl

/-- A recursive mutex at an odd address, which its first lock initialises. -/
theorem payload_beside_initializer_odd :
    let p : Word := 0x1001
    let m₀ : Memory := ⟨Bytes.zero.storeWord 0x1001 4 0x4000, []⟩
    let tr : List (Unit × Move) := [((), .call .use), ((), .toHost .load), ((), .toHost .readInit),
      ((), .toHost (.allocate 0x20000 true)), ((), .toHost .exchange)]
    (getPayloadPointer p).toNat % 8 = 0 ∧ p.toNat + 4 ≤ (getPayloadPointer p).toNat ∧
      (getPayloadPointer p).toNat + 8 ≤ p.toNat + size .mutex ∧
      ∃ s, exec (poolStep (step ⟨.normal⟩ .mutex p)) ⟨m₀, fun _ => .idle⟩ tr = some s ∧
        s.pc () = .toHost (.returned 0x20000) ∧ s.shared.data0 p = m₀.data0 p := by
  intro p m₀ tr
  obtain ⟨hAligned, hBehind, hWithin, hRuns⟩ :=
    payload_beside_initializer ⟨.normal⟩ .mutex p (by decide)
  refine ⟨hAligned, hBehind, hWithin, ?_⟩
  have hEnd : (exec (poolStep (step ⟨.normal⟩ .mutex p)) ⟨m₀, fun _ => .idle⟩ tr).map
      (fun s => s.pc ()) = some (.toHost (.returned 0x20000)) := by decide +kernel
  obtain ⟨s, hRun, hPc⟩ := Option.map_eq_some_iff.mp hEnd
  exact ⟨s, hRun, hPc, (hRuns Unit m₀ tr s hRun).2.1⟩

end LibcShim.Pthread.Payload
