import Mathlib.Logic.Function.Basic
import LibcShim.Pthread.Lifetime

/-! The clock of a cond: what the guest selects through an attribute, and the clock on which the
host reads the deadline of a timed wait. -/

namespace LibcShim.Pthread.Clock

open Kit Lifetime

variable {abi : Abi} {H : Type}

/-- A host whose conds each have a clock, which its `pthread_cond_init` takes from the attribute.
The clock of a fresh attribute is `CLOCK_REALTIME`. -/
structure CondHost (abi : Abi) (H : Type) extends Host abi H where
  clock : H → ClockType
  defaultClock : clock (fresh (.cond none)) = .realtime
  selectedClock : ∀ k, clock (fresh (.cond (some k))) = k

structure CondAttr where
  shared : Bool
  clock : Fin 4
  deriving DecidableEq, Repr

/-- `bionic::clock_type`, as far as a cond can have it. -/
def clockNumber : ClockType → Fin 4
  | .realtime => 0
  | .monotonic => 1

def pthreadCondattrInit : CondAttr × Int := (⟨false, clockNumber .monotonic⟩, 0)

def pthreadCondattrSetclock (host : HostErrno) (clock : Int) (attr : CondAttr) : CondAttr × Int :=
  if clock ≠ 1 ∧ clock ≠ 0 then (attr, translateErrnoFromHost host (host.number .einval))
  else ({ attr with clock := Fin.ofNat 4 clock.toNat }, 0)

/-- What `pthread_condattr_getclock` stores, and its result. -/
def pthreadCondattrGetclock (attr : CondAttr) : Int × Int := (attr.clock.val, 0)

/-- The body that the calls on a cond share: the host's function takes its object to the state
`next`, which has the same clock, and returns `ret`.  The last component is that clock. -/
def callCond (host : CondHost abi H) (r : Int) (next : H) (ret : Int) (o : Object abi H) :
    Option (Object abi H × Result × Option ClockType) := do
  let (o, found) ← toHost host.toHost r o (.sync .cond)
  match found with
  | .error e => some (o, .threw e, none)
  | .ok i =>
    let v ← (← o.heap.load i)
    if host.clock next = host.clock v then
      some ({ o with heap := o.heap.store i (some next) },
        .returned (translateErrnoFromHost host.errno ret), some (host.clock v))
    else none

/-- `pthread_cond_wait`, `pthread_cond_signal` and `pthread_cond_broadcast`. -/
def pthreadCondWait (host : CondHost abi H) (r : Int) (next : H) (ret : Int) (o : Object abi H) :
    Option (Object abi H × Result) :=
  (callCond host r next ret o).map fun (o, res, _) => (o, res)

/-- The last component is the clock on which the host reads the deadline, unless the call throws
before. -/
def pthreadCondTimedwait (host : CondHost abi H) (r : Int) (next : H) (ret : Int)
    (o : Object abi H) : Option (Object abi H × Result × Option ClockType) :=
  callCond host r next ret o

/-- The timed waits that the guest can link to. -/
inductive WaitSymbol
  | pthreadCondTimedwait
  | pthreadCondTimedwaitMonotonicNp
  deriving DecidableEq, Repr

/-- The two rows of `add_pthread_shimmed_symbols`. -/
def WaitSymbol.shim (host : CondHost abi H) :
    WaitSymbol → Int → H → Int → Object abi H →
      Option (Object abi H × Result × Option ClockType)
  | pthreadCondTimedwait => Clock.pthreadCondTimedwait host
  | pthreadCondTimedwaitMonotonicNp => Clock.pthreadCondTimedwait host

/-! ### A guest with its attributes and conds -/

/-- The attributes are missing before their `pthread_condattr_init`. -/
structure Guest (abi : Abi) (H : Type) where
  attrs : Nat → Option CondAttr
  conds : Nat → Object abi H

/-- A call, with the results of the host's init (`r` of a call that may initialise lazily) and of
the host's own function. -/
inductive Act (H : Type)
  | condattrInit (a : Nat)
  | condattrSetclock (a : Nat) (clock : Int)
  | condattrGetclock (a : Nat)
  | condInit (c : Nat) (attr : Option Nat) (r : Int)
  | condDestroy (c : Nat) (r : Int)
  | condWait (c : Nat) (r : Int) (next : H) (ret : Int)
  | timedwait (symbol : WaitSymbol) (c : Nat) (r : Int) (next : H) (ret : Int)

/-- A call on an attribute that is not initialised is undefined. -/
def Guest.call (host : CondHost abi H) (s : Guest abi H) : Act H → Option (Guest abi H × Result)
  | .condattrInit a =>
    let (attr, ret) := pthreadCondattrInit
    some ({ s with attrs := Function.update s.attrs a (some attr) }, .returned ret)
  | .condattrSetclock a clock => do
    let (attr, ret) := pthreadCondattrSetclock host.errno clock (← s.attrs a)
    some ({ s with attrs := Function.update s.attrs a (some attr) }, .returned ret)
  | .condattrGetclock a => do
    let (_, ret) := pthreadCondattrGetclock (← s.attrs a)
    some (s, .returned ret)
  | .condInit c none r =>
    let (o, res) := pthreadCondInit host.toHost none r (s.conds c)
    some ({ s with conds := Function.update s.conds c o }, res)
  | .condInit c (some a) r => do
    let attr ← s.attrs a
    let (o, res) := pthreadCondInit host.toHost (some attr.clock) r (s.conds c)
    some ({ s with conds := Function.update s.conds c o }, res)
  | .condDestroy c r => do
    let (o, res) ← pthreadCondDestroy host.toHost r (s.conds c)
    some ({ s with conds := Function.update s.conds c o }, res)
  | .condWait c r next ret => do
    let (o, res) ← pthreadCondWait host r next ret (s.conds c)
    some ({ s with conds := Function.update s.conds c o }, res)
  | .timedwait symbol c r next ret => do
    let (o, res, _) ← symbol.shim host r next ret (s.conds c)
    some ({ s with conds := Function.update s.conds c o }, res)

/-! ### What the guest chose -/

/-- How a cond was created: with `NULL` or statically, or with an attribute, with the clock that
was last selected in it if one was. -/
inductive Creation
  | default
  | attr (selected : Option ClockType)
  deriving DecidableEq, Repr

/-- `lost` tells the conds of which a destroy failed, since their creation. -/
structure Chosen where
  attrs : Nat → Option ClockType
  conds : Nat → Creation
  lost : Nat → Bool

def guestClock : Int → Option ClockType
  | 0 => some .realtime
  | 1 => some .monotonic
  | _ => none

def Chosen.create (k : Chosen) (c : Nat) (creation : Creation) : Chosen where
  attrs := k.attrs
  conds := Function.update k.conds c creation
  lost := Function.update k.lost c false

/-- The effect of a call that returned `res`.  An init that fails creates nothing, and a destroy
that fails leaves the cond as it was. -/
def Chosen.next (k : Chosen) : Act H → Result → Chosen
  | .condattrInit a, .returned 0 => { k with attrs := Function.update k.attrs a none }
  | .condattrSetclock a clock, .returned 0 =>
    { k with attrs := Function.update k.attrs a (guestClock clock) }
  | .condInit c attr _, .returned 0 => k.create c (attr.elim .default fun a => .attr (k.attrs a))
  | .condDestroy c _, .returned 0 => k.create c .default
  | .condDestroy c _, .returned _ => { k with lost := Function.update k.lost c true }
  | _, _ => k

/-- The clock on which a wait on `c` has to read its deadline. -/
def Chosen.expected (k : Chosen) (c : Nat) (default : ClockType) : WaitSymbol → ClockType
  | .pthreadCondTimedwaitMonotonicNp => .monotonic
  | .pthreadCondTimedwait =>
    match k.conds c with
    | .default => default
    | .attr selected => selected.getD default

structure Tracked (abi : Abi) (H : Type) where
  guest : Guest abi H
  chosen : Chosen

def step (host : CondHost abi H) (s : Tracked abi H) (a : Act H) : Option (Tracked abi H) :=
  (s.guest.call host a).map fun (guest, res) => ⟨guest, s.chosen.next a res⟩

/-- No attribute is initialised, and each cond is raw memory. -/
def start (header : Nat → BitVec 32) (word : Nat → abi.Word) : Tracked abi H where
  guest := ⟨fun _ => none, fun c => Lifetime.start (header c) (word c)⟩
  chosen := ⟨fun _ => none, fun _ => .default, fun _ => false⟩

/-- A wait that reads its deadline reads it on the expected clock. -/
def ReadsExpected (host : CondHost abi H) (default : ClockType) (s : Tracked abi H) :
    Act H → Prop
  | .timedwait symbol c r next ret =>
    ∀ o res clock, symbol.shim host r next ret (s.guest.conds c) = some (o, res, some clock) →
      clock = s.chosen.expected c default symbol
  | _ => True

/-! ### What the code does -/

section Steps

variable {host : CondHost abi H} {s s' : Tracked abi H} {o o' : Object abi H} {res : Result}
  {r ret : Int} {next : H} {k : ClockType} {read : Option ClockType}

/-- The clock that the code gives a cond. -/
def Chosen.made (os : Os) (k : Chosen) (c : Nat) : ClockType :=
  match k.conds c with
  | .default => .realtime
  | .attr selected =>
    if os = .apple ∨ k.lost c = true then .realtime else selected.getD .monotonic

/-- The host object of `o` has the clock `k`, or will have it when it is made lazily. -/
structure HasClock (host : CondHost abi H) (o : Object abi H) (k : ClockType) : Prop where
  bound : ∀ i, o.payload = .host i → ∃ v, o.heap.load i = some (some v) ∧ host.clock v = k
  unbound : o.payload.host? = none → k = .realtime

theorem HasClock.of_fresh {init : HostInit} {heap : Heap (Option H)} {i : Nat}
    (hPayload : o.payload = .host i) (hHeap : o.heap = heap.store i (some (host.fresh init)))
    (hOld : heap.load i = some none) (hClock : host.clock (host.fresh init) = k) :
    HasClock host o k := by
  constructor
  · intro j hj
    obtain rfl : i = j := Payload.host.inj (hPayload.symm.trans hj)
    exact ⟨_, by rw [hHeap, Heap.load_store_same hOld], hClock⟩
  · intro hNone
    rw [hPayload] at hNone
    cases hNone

theorem initObject_hasClock {init : HostInit} (hClock : host.clock (host.fresh init) = k)
    (h : initObject host.toHost (.ok init) r o = (o', .returned 0)) : HasClock host o' k := by
  unfold initObject at h
  by_cases hr : r = 0
  · simp only [hr, ne_eq, not_true_eq_false, if_false] at h
    obtain ⟨rfl, -⟩ := Prod.mk.inj h
    exact .of_fresh rfl rfl (Heap.load_alloc_new o.heap none) hClock
  · simp only [ne_eq, hr, not_false_eq_true, if_true] at h
    obtain ⟨-, hRes⟩ := Prod.mk.inj h
    exact absurd ((translateErrnoFromHost_eq_zero _ _).mp (Result.returned.inj hRes)) hr

theorem initObject_keeps {attr : Except String HostInit}
    (h : initObject host.toHost attr r o = (o', res)) (hRes : res ≠ .returned 0)
    (hHas : HasClock host o k) : HasClock host o' k := by
  unfold initObject at h
  cases attr with
  | error e =>
    obtain ⟨rfl, -⟩ := Prod.mk.inj h
    exact hHas
  | ok init =>
    by_cases hr : r = 0
    · simp only [hr, ne_eq, not_true_eq_false, if_false] at h
      obtain ⟨-, rfl⟩ := Prod.mk.inj h
      exact absurd (congrArg Result.returned ((translateErrnoFromHost_eq_zero _ 0).mpr rfl)) hRes
    · simp only [ne_eq, hr, not_false_eq_true, if_true] at h
      obtain ⟨rfl, -⟩ := Prod.mk.inj h
      refine ⟨fun i hi => ?_, hHas.unbound⟩
      obtain ⟨v, hv, hClock⟩ := hHas.bound i hi
      exact ⟨v, load_alloc_free hv, hClock⟩

theorem destroyObject_unbinds {kind : SyncKind}
    (h : destroyObject host.toHost kind r o = some (o', res)) : o'.payload.host? = none := by
  cases destroyObject_effect h with
  | skip _ _ hUnbound => exact hUnbound
  | destroy => rfl

theorem HasClock.of_unbound (h : o.payload.host? = none) : HasClock host o .realtime := by
  refine ⟨fun i hi => ?_, fun _ => rfl⟩
  rw [hi] at h
  cases h

/-- `to_host` of a cond: the bound object, or a fresh one with the host's default clock. -/
theorem toHost_cond {found : Except String Nat} (hHas : HasClock host o k)
    (h : toHost host.toHost r o (.sync .cond) = some (o', found)) :
    HasClock host o' k ∧
      match found with
      | .error _ => o.payload.host? = none ∧ r ≠ 0
      | .ok i => o'.payload = .host i ∧ ¬ (o.payload.host? = none ∧ r ≠ 0) := by
  simp only [toHost] at h
  split at h
  · obtain ⟨i, hi, h⟩ := Option.map_eq_some_iff.mp h
    obtain ⟨rfl, rfl⟩ := Prod.mk.inj h
    exact ⟨hHas, Payload.host?_eq.mp hi, by simp [hi]⟩
  · rename_i hUninitialized
    have hUnbound : o.payload.host? = none := by
      cases hp : o.payload with
      | raw word => rfl
      | host i => exact absurd (isInitialized_host .cond i) (hp ▸ hUninitialized)
    obtain rfl := hHas.unbound hUnbound
    split at h <;> rename_i hr <;> obtain ⟨rfl, rfl⟩ := Prod.mk.inj (Option.some.inj h)
    · exact ⟨.of_unbound hUnbound, hUnbound, hr⟩
    · refine ⟨.of_fresh rfl rfl (Heap.load_alloc_new o.heap none) host.defaultClock, rfl, ?_⟩
      exact fun hFails => hr hFails.2

theorem callCond_clock (hHas : HasClock host o k)
    (h : callCond host r next ret o = some (o', res, read)) :
    HasClock host o' k ∧ read = if o.payload.host? = none ∧ r ≠ 0 then none else some k := by
  obtain ⟨⟨m, found⟩, hFound, h⟩ := Option.bind_eq_some_iff.mp h
  obtain ⟨hHas', hCase⟩ := toHost_cond hHas hFound
  cases found with
  | error e =>
    obtain ⟨rfl, -, rfl⟩ := by simpa using Option.some.inj h
    exact ⟨hHas', by rw [if_pos hCase]⟩
  | ok i =>
    obtain ⟨hPayload, hReads⟩ := hCase
    obtain ⟨v, hv, hClock⟩ := hHas'.bound i hPayload
    simp only [hv, Option.bind_eq_bind, Option.bind_some] at h
    split at h
    · rename_i hSame
      obtain ⟨rfl, -, rfl⟩ := by simpa using Option.some.inj h
      rw [if_neg hReads, hClock]
      refine ⟨⟨fun j hj => ?_, fun hNone => ?_⟩, rfl⟩
      · obtain rfl : i = j := Payload.host.inj (hPayload.symm.trans hj)
        exact ⟨next, Heap.load_store_same hv, hSame.trans hClock⟩
      · exact hHas'.unbound hNone
    · cases h

/-! ### Along a run -/

/-- The clock in the attribute of which `selected` was selected last. -/
def attrClock (selected : Option ClockType) : Fin 4 := clockNumber (selected.getD .monotonic)

/-- The guest's objects are as the choices made them. -/
structure Follows (host : CondHost abi H) (s : Tracked abi H) : Prop where
  attrs : ∀ a attr, s.guest.attrs a = some attr → attr.clock = attrClock (s.chosen.attrs a)
  conds : ∀ c, HasClock host (s.guest.conds c) (s.chosen.made host.errno.os c)

theorem Follows.set_cond (hFollows : Follows host s) {c : Nat} {chosen : Chosen}
    (hAttrs : chosen.attrs = s.chosen.attrs)
    (hOther : ∀ d, d ≠ c → chosen.made host.errno.os d = s.chosen.made host.errno.os d)
    (hCond : HasClock host o (chosen.made host.errno.os c)) :
    Follows host ⟨⟨s.guest.attrs, Function.update s.guest.conds c o⟩, chosen⟩ := by
  refine ⟨fun a attr ha => hAttrs ▸ hFollows.attrs a attr ha, fun d => ?_⟩
  by_cases hd : d = c
  · subst hd
    simpa using hCond
  · simpa [hd, hOther d hd] using hFollows.conds d

theorem Follows.set_attr (hFollows : Follows host s) {a : Nat} {attr : CondAttr}
    {selected : Option ClockType} (hClock : attr.clock = attrClock selected) :
    Follows host ⟨⟨Function.update s.guest.attrs a (some attr), s.guest.conds⟩,
      { s.chosen with attrs := Function.update s.chosen.attrs a selected }⟩ := by
  refine ⟨fun b attr' hb => ?_, hFollows.conds⟩
  by_cases hba : b = a
  · subst hba
    simp only [Function.update_self, Option.some.injEq] at hb ⊢
    exact hb ▸ hClock
  · simp only [Function.update_of_ne hba] at hb ⊢
    exact hFollows.attrs b attr' hb

theorem made_create (os : Os) (k : Chosen) (c : Nat) (creation : Creation) :
    (k.create c creation).made os c =
      match creation with
      | .default => .realtime
      | .attr selected => if os = .apple then .realtime else selected.getD .monotonic := by
  cases creation <;> simp [Chosen.made, Chosen.create]

theorem made_create_ne {os : Os} {k : Chosen} {c d : Nat} {creation : Creation} (h : d ≠ c) :
    (k.create c creation).made os d = k.made os d := by
  simp [Chosen.made, Chosen.create, h]

theorem next_condInit_failed {chosen : Chosen} {c : Nat} {attr : Option Nat}
    (hRes : res ≠ .returned 0) : chosen.next (.condInit c attr r : Act H) res = chosen := by
  unfold Chosen.next
  split <;> simp_all

/-- `pthread_cond_init`; `creation` is what the guest chose by it, and the attribute has the
clock of that choice. -/
theorem Follows.condInit (hFollows : Follows host s) {c : Nat} {attr : Option Nat}
    {clock : Option (Fin 4)}
    (hClock : ∀ a ∈ attr, clock = some (attrClock (s.chosen.attrs a)))
    (hNone : attr = none → clock = none)
    (h : pthreadCondInit host.toHost clock r (s.guest.conds c) = (o, res)) :
    Follows host ⟨⟨s.guest.attrs, Function.update s.guest.conds c o⟩,
      s.chosen.next (.condInit c attr r : Act H) res⟩ := by
  by_cases hRes : res = .returned 0
  · subst hRes
    refine hFollows.set_cond rfl (fun d hd => made_create_ne hd) ?_
    show HasClock host o ((s.chosen.create c _).made host.errno.os c)
    rw [made_create]
    unfold pthreadCondInit at h
    cases attr with
    | none =>
      rw [hNone rfl] at h
      have hAttr : hostCondattr host.errno.os none = .ok (.cond none) := by
        unfold hostCondattr
        split <;> rfl
      rw [hAttr] at h
      exact initObject_hasClock host.defaultClock h
    | some a =>
      rw [hClock a rfl] at h
      unfold hostCondattr at h
      simp only [Option.elim_some]
      split at h <;> rename_i hOs
      · rw [if_pos hOs]
        exact initObject_hasClock host.defaultClock h
      · rw [if_neg hOs]
        cases hSelected : (s.chosen.attrs a).getD .monotonic with
        | realtime =>
          simp only [attrClock, hSelected, clockNumber, Option.map_some] at h
          exact initObject_hasClock (host.selectedClock .realtime) h
        | monotonic =>
          simp only [attrClock, hSelected, clockNumber, Option.map_some] at h
          exact initObject_hasClock (host.selectedClock .monotonic) h
  · rw [next_condInit_failed hRes]
    exact hFollows.set_cond rfl (fun _ _ => rfl) (initObject_keeps h hRes (hFollows.conds c))

theorem Follows.condDestroy (hFollows : Follows host s) {c : Nat}
    (h : pthreadCondDestroy host.toHost r (s.guest.conds c) = some (o, res)) :
    Follows host ⟨⟨s.guest.attrs, Function.update s.guest.conds c o⟩,
      s.chosen.next (.condDestroy c r : Act H) res⟩ := by
  have hUnbound : o.payload.host? = none := destroyObject_unbinds h
  have hReturned : ∃ n, res = .returned n := by
    cases destroyObject_effect h with
    | skip => exact ⟨_, rfl⟩
    | destroy => exact ⟨_, rfl⟩
  obtain ⟨n, rfl⟩ := hReturned
  by_cases hn : n = 0
  · subst hn
    refine hFollows.set_cond rfl (fun d hd => made_create_ne hd) ?_
    show HasClock host o ((s.chosen.create c .default).made host.errno.os c)
    rw [made_create]
    exact .of_unbound hUnbound
  · have hNext : s.chosen.next (.condDestroy c r : Act H) (.returned n) =
        { s.chosen with lost := Function.update s.chosen.lost c true } := by
      unfold Chosen.next
      split <;> simp_all
    rw [hNext]
    refine hFollows.set_cond rfl (fun d hd => by simp [Chosen.made, hd]) ?_
    have hMade : Chosen.made host.errno.os
        { s.chosen with lost := Function.update s.chosen.lost c true } c = .realtime := by
      unfold Chosen.made
      cases s.chosen.conds c <;> simp
    rw [hMade]
    exact .of_unbound hUnbound

theorem Follows.call (hFollows : Follows host s) {c : Nat} {chosen : Chosen}
    (hChosen : chosen = s.chosen) (h : callCond host r next ret (s.guest.conds c) =
      some (o, res, read)) :
    Follows host ⟨⟨s.guest.attrs, Function.update s.guest.conds c o⟩, chosen⟩ := by
  subst hChosen
  exact hFollows.set_cond rfl (fun _ _ => rfl) (callCond_clock (hFollows.conds c) h).1

theorem WaitSymbol.shim_eq (symbol : WaitSymbol) :
    symbol.shim host r next ret o = callCond host r next ret o := by
  cases symbol <;> rfl

theorem setclock_accepted {clock : Int} {attr attr' : CondAttr}
    (h : pthreadCondattrSetclock host.errno clock attr = (attr', 0)) :
    attr'.clock = attrClock (guestClock clock) := by
  unfold pthreadCondattrSetclock at h
  split at h
  · have hError := (translateErrnoFromHost_eq_zero _ _).mp (Prod.mk.inj h).2
    have hPositive := host.errno.positive .einval
    omega
  · rename_i hClock
    obtain ⟨rfl, -⟩ := Prod.mk.inj h
    obtain rfl | rfl : clock = 1 ∨ clock = 0 := by omega
    · rfl
    · rfl

theorem setclock_rejected {clock ret : Int} {attr attr' : CondAttr} (hRet : ret ≠ 0)
    (h : pthreadCondattrSetclock host.errno clock attr = (attr', ret)) : attr' = attr := by
  unfold pthreadCondattrSetclock at h
  split at h
  · exact (Prod.mk.inj h).1.symm
  · exact absurd (Prod.mk.inj h).2.symm hRet

theorem Follows.setclock (hFollows : Follows host s) {a : Nat} {clock : Int} {attr attr' : CondAttr}
    (hAttr : s.guest.attrs a = some attr)
    (h : pthreadCondattrSetclock host.errno clock attr = (attr', ret)) :
    Follows host ⟨⟨Function.update s.guest.attrs a (some attr'), s.guest.conds⟩,
      s.chosen.next (.condattrSetclock a clock : Act H) (.returned ret)⟩ := by
  by_cases hRet : ret = 0
  · subst hRet
    exact hFollows.set_attr (setclock_accepted h)
  · have hNext : s.chosen.next (.condattrSetclock a clock : Act H) (.returned ret) = s.chosen := by
      unfold Chosen.next
      split <;> simp_all
    rw [hNext, setclock_rejected hRet h, Function.update_eq_self_iff.mpr hAttr.symm]
    exact hFollows

theorem step_follows {a : Act H} (hFollows : Follows host s) (h : step host s a = some s') :
    Follows host s' := by
  obtain ⟨⟨guest, res⟩, hCall, rfl⟩ := Option.map_eq_some_iff.mp h
  cases a with
  | condattrInit a =>
    obtain ⟨rfl, rfl⟩ := Prod.mk.inj (Option.some.inj hCall)
    exact hFollows.set_attr rfl
  | condattrSetclock a clock =>
    obtain ⟨attr, hAttr, hCall⟩ := Option.bind_eq_some_iff.mp hCall
    cases hSet : pthreadCondattrSetclock host.errno clock attr with
    | mk attr' ret =>
      simp only [hSet] at hCall
      obtain ⟨rfl, rfl⟩ := Prod.mk.inj (Option.some.inj hCall)
      exact hFollows.setclock hAttr hSet
  | condattrGetclock a =>
    obtain ⟨attr, hAttr, hCall⟩ := Option.bind_eq_some_iff.mp hCall
    obtain ⟨rfl, rfl⟩ := Prod.mk.inj (Option.some.inj hCall)
    exact hFollows
  | condInit c attr r =>
    cases attr with
    | none =>
      obtain ⟨rfl, rfl⟩ := Prod.mk.inj (Option.some.inj hCall)
      exact hFollows.condInit nofun (fun _ => rfl) rfl
    | some a =>
      obtain ⟨attr, hAttr, hCall⟩ := Option.bind_eq_some_iff.mp hCall
      obtain ⟨rfl, rfl⟩ := Prod.mk.inj (Option.some.inj hCall)
      refine hFollows.condInit (fun b hb => ?_) nofun rfl
      obtain rfl := Option.some.inj hb
      rw [hFollows.attrs a attr hAttr]
  | condDestroy c r =>
    obtain ⟨⟨o, res'⟩, hDestroy, hCall⟩ := Option.bind_eq_some_iff.mp hCall
    obtain ⟨rfl, rfl⟩ := Prod.mk.inj (Option.some.inj hCall)
    exact hFollows.condDestroy hDestroy
  | condWait c r next ret =>
    obtain ⟨⟨o, res'⟩, hWait, hCall⟩ := Option.bind_eq_some_iff.mp hCall
    obtain ⟨rfl, rfl⟩ := Prod.mk.inj (Option.some.inj hCall)
    unfold pthreadCondWait at hWait
    obtain ⟨⟨o, res'', read⟩, hBody, hSame⟩ := Option.map_eq_some_iff.mp hWait
    obtain ⟨rfl, rfl⟩ := Prod.mk.inj hSame
    exact hFollows.call rfl hBody
  | timedwait symbol c r next ret =>
    obtain ⟨⟨o, res', read⟩, hWait, hCall⟩ := Option.bind_eq_some_iff.mp hCall
    obtain ⟨rfl, rfl⟩ := Prod.mk.inj (Option.some.inj hCall)
    rw [WaitSymbol.shim_eq] at hWait
    exact hFollows.call rfl hWait

theorem follows_start (host : CondHost abi H) (header : Nat → BitVec 32)
    (word : Nat → abi.Word) : Follows host (start header word) :=
  ⟨nofun, fun _ => .of_unbound rfl⟩

end Steps

/-! ### The deadlines -/

/-- When the code reads the deadline of a wait on `c` on the clock that the guest chose. -/
def Chosen.Kept (os : Os) (k : Chosen) (c : Nat) : WaitSymbol → Prop
  | .pthreadCondTimedwait =>
    match k.conds c with
    | .default => True
    | .attr (some .realtime) => True
    | .attr (some .monotonic) => os ≠ .apple ∧ k.lost c = false
    | .attr none => os = .apple ∨ k.lost c = true
  | .pthreadCondTimedwaitMonotonicNp =>
    match k.conds c with
    | .default => False
    | .attr (some .realtime) => False
    | .attr _ => os ≠ .apple ∧ k.lost c = false

theorem made_eq_expected {os : Os} {k : Chosen} {c : Nat} {symbol : WaitSymbol} :
    k.made os c = k.expected c .realtime symbol ↔ k.Kept os c symbol := by
  unfold Chosen.made Chosen.Kept Chosen.expected
  cases k.conds c with
  | default => cases symbol <;> simp
  | attr selected =>
    by_cases hOs : os = .apple <;> cases hLost : k.lost c <;>
      rcases selected with _ | ⟨_ | _⟩ <;> cases symbol <;> simp [hOs]

/-- The host cannot make the object of a cond that is not bound to one, and the call throws. -/
def Fails (s : Tracked abi H) (c : Nat) (r : Int) : Prop :=
  (s.guest.conds c).payload.host? = none ∧ r ≠ 0

def KeepsClock (os : Os) (s : Tracked abi H) : Act H → Prop
  | .timedwait symbol c r _ _ => Fails s c r ∨ s.chosen.Kept os c symbol
  | _ => True

theorem readsExpected_iff {host : CondHost abi H} {s s' : Tracked abi H} {a : Act H}
    (hFollows : Follows host s) (hStep : step host s a = some s') :
    ReadsExpected host .realtime s a ↔ KeepsClock host.errno.os s a := by
  cases a with
  | timedwait symbol c r next ret =>
    obtain ⟨⟨guest, res⟩, hCall, -⟩ := Option.map_eq_some_iff.mp hStep
    obtain ⟨⟨o, res', read⟩, hWait, -⟩ := Option.bind_eq_some_iff.mp hCall
    have hRead := (callCond_clock (hFollows.conds c) (symbol.shim_eq ▸ hWait)).2
    simp only [ReadsExpected, KeepsClock, hWait, Option.some.injEq, Prod.mk.injEq]
    split at hRead <;> rename_i hFails
    · simp [hRead, show Fails s c r from hFails]
    · have hWorks : ¬ Fails s c r := hFails
      simp only [hRead, Option.some.injEq, hWorks, false_or, ← made_eq_expected]
      constructor
      · intro hReads
        exact hReads o res' _ ⟨rfl, rfl, rfl⟩
      · rintro hMade o res clock ⟨-, -, rfl⟩
        exact hMade
  | _ => exact Iff.rfl

/-- Every wait of a run reads its deadline on the expected clock exactly when each of them finds
the cond made with that clock. -/
theorem deadlines_on_the_selected_clock {host : CondHost abi H} {header : Nat → BitVec 32}
    {word : Nat → abi.Word} {tr : List (Act H)} {s : Tracked abi H}
    (hRun : exec (step host) (start header word) tr = some s) :
    Along (step host) (ReadsExpected host .realtime) (start header word) tr ↔
      Along (step host) (KeepsClock host.errno.os) (start header word) tr :=
  along_congr (fun _ _ _ => step_follows) (fun _ _ _ => readsExpected_iff)
    (follows_start host header word) hRun

/-! ### On Linux, with conds that are no more than their clock -/

def linuxCondHost : CondHost .lp64 ClockType where
  mutexDefault := .normal
  errno := linuxErrno
  fresh
    | .cond (some k) => k
    | _ => .realtime
  address := linuxHost.address
  mapped := linuxHost.mapped
  clock := id
  defaultClock := rfl
  selectedClock _ := rfl

/-- Neither clock is the default of a static cond and of a fresh attribute, and the monotonic wait
on a static cond is on the other clock. -/
theorem default_clocks_differ :
    (¬ ∃ default, ∀ tr s, exec (step linuxCondHost) (start (fun _ => 0) fun _ => 0) tr = some s →
      Along (step linuxCondHost) (ReadsExpected linuxCondHost default)
        (start (fun _ => 0) fun _ => 0) tr) ∧
    ¬ Along (step linuxCondHost) (ReadsExpected linuxCondHost .realtime)
      (start (fun _ => 0) fun _ => 0)
      [.timedwait .pthreadCondTimedwaitMonotonicNp 0 0 .realtime 0] := by
  constructor
  · rintro ⟨default, hAll⟩
    cases default with
    | realtime =>
      have hFresh := hAll [.condattrInit 0, .condInit 0 (some 0) 0,
        .timedwait .pthreadCondTimedwait 0 0 .monotonic 0] _ rfl
      cases ((hFresh.2 _ rfl).2 _ rfl).1 _ _ .monotonic rfl
    | monotonic =>
      have hStatic := hAll [.timedwait .pthreadCondTimedwait 0 0 .realtime 0] _ rfl
      cases hStatic.1 _ _ .realtime rfl
  · intro hNp
    cases hNp.1 _ _ .realtime rfl

/-- A selected clock is kept, on either wait. -/
theorem monotonic_cond_waits :
    Along (step linuxCondHost) (ReadsExpected linuxCondHost .realtime)
      (start (fun _ => 0) fun _ => 0)
      [.condattrInit 0, .condattrSetclock 0 1, .condInit 0 (some 0) 0,
        .timedwait .pthreadCondTimedwaitMonotonicNp 0 0 .monotonic 0] := by
  refine (deadlines_on_the_selected_clock
    (rfl : exec (step linuxCondHost) _ _ = some _)).mpr ?_
  refine ⟨trivial, ?_⟩
  rintro _ ⟨⟩
  refine ⟨trivial, ?_⟩
  rintro _ ⟨⟩
  refine ⟨trivial, ?_⟩
  rintro _ ⟨⟩
  exact ⟨Or.inr ⟨nofun, rfl⟩, fun _ _ => trivial⟩

end LibcShim.Pthread.Clock
