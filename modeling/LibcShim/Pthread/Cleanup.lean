import LibcShim.Kit.Owned
import LibcShim.Kit.Run

/-! The cleanup handlers of one thread: `pthread_cleanup_push_impl`, `pthread_cleanup_pop_impl` and
the destructor of the thread-local holder, against the stack of handlers that POSIX describes. -/

namespace LibcShim.Pthread.Cleanup

open Kit

structure Handler (ρ α : Type*) where
  routine : ρ
  arg : α
  deriving DecidableEq, Repr

/-- A routine that runs: the object that it cleans up, when `pthread_cleanup_pop_impl` called it,
and the objects that it has pushed and not popped, the last one first. -/
structure Frame where
  cleaning : Option Nat
  pushed : List Nat

/-- The objects that a routine on the way keeps allocated. -/
def Frame.owned (f : Frame) : List Nat := f.pushed ++ f.cleaning.toList

/-- The holder's `current`, the destructor's `p` once it runs, and the routines on the way, the
innermost first.  An object of the heap is a `pthread_cleanup_t`: `next` is `prev`, and it is freed
when its scope ends, or when the frame that it is in is given up.  To read it later is undefined,
and no step. -/
structure Thread (ρ α : Type*) where
  heap : Heap (Node (Handler ρ α))
  current : Option Nat
  walk : Option (Option Nat)
  frames : List Frame
  ran : List (Handler ρ α)

/-- What a thread does: it enters or leaves a scope of its innermost routine, returns from this
routine, or exits. -/
inductive Act (ρ α : Type*)
  | push (cb : Handler ρ α)
  | pop (execute : Int)
  | ret
  | exit
  deriving DecidableEq, Repr

namespace Thread

variable {ρ α : Type*}

def start : Thread ρ α := ⟨[], none, none, [⟨none, []⟩], []⟩

def pthreadCleanupPushImpl (t : Thread ρ α) (cb : Handler ρ α) : Option (Thread ρ α) :=
  match t.frames with
  | [] => none
  | f :: fs =>
    let c := t.heap.length
    some { t with
      heap := t.heap.alloc ⟨cb, t.current⟩
      current := some c
      frames := ⟨f.cleaning, c :: f.pushed⟩ :: fs }

/-- The scope that ends is the innermost one. -/
def pthreadCleanupPopImpl (t : Thread ρ α) (execute : Int) : Option (Thread ρ α) :=
  match t.frames with
  | ⟨cleaning, c :: pushed⟩ :: fs => do
    let node ← t.heap.load c
    let t := { t with current := node.next }
    if execute ≠ 0 then
      some { t with
        frames := ⟨some c, []⟩ :: ⟨cleaning, pushed⟩ :: fs
        ran := t.ran ++ [node.value] }
    else some { t with heap := t.heap.free c, frames := ⟨cleaning, pushed⟩ :: fs }
  | _ => none

/-- `while (p) p->routine(p->arg);`, up to the next call. -/
def walkTo (t : Thread ρ α) : Option Nat → Option (Thread ρ α)
  | none => some { t with walk := some none, frames := [] }
  | some p => do
    let node ← t.heap.load p
    some { t with
      walk := some (some p)
      frames := [⟨none, []⟩]
      ran := t.ran ++ [node.value] }

/-- The innermost routine returns, with all its scopes left. -/
def ret (t : Thread ρ α) : Option (Thread ρ α) :=
  match t.frames with
  | ⟨some c, []⟩ :: fs => some { t with heap := t.heap.free c, frames := fs }
  | [⟨none, []⟩] =>
    match t.walk with
    | some (some p) => do
      let node ← t.heap.load p
      t.walkTo node.next
    | _ => none
  | _ => none

/-- The frames of the routines on the way are given up. -/
def unwind (t : Thread ρ α) : Thread ρ α :=
  { t with heap := freeAll t.heap (t.frames.flatMap Frame.owned) }

/-- The destructor starts; the routines on the way never go on.  The host may unwind the stack
before it destroys the thread-local objects, as glibc's `pthread_exit` does. -/
def exit (unwinds : Bool) (t : Thread ρ α) : Option (Thread ρ α) :=
  match t.walk with
  | none => if unwinds then t.unwind.walkTo t.current else t.walkTo t.current
  | some _ => none

def step (unwinds : Bool) (t : Thread ρ α) : Act ρ α → Option (Thread ρ α)
  | .push cb => t.pthreadCleanupPushImpl cb
  | .pop execute => t.pthreadCleanupPopImpl execute
  | .ret => t.ret
  | .exit => t.exit unwinds

end Thread

/-- A stack of handlers as POSIX has it: `frames` counts, for each routine on the way, the handlers
that it has pushed and not popped. -/
structure Reference (ρ α : Type*) where
  stack : List (Handler ρ α)
  exiting : Bool
  frames : List Nat
  ran : List (Handler ρ α)
  deriving DecidableEq, Repr

namespace Reference

variable {ρ α : Type*}

def start : Reference ρ α := ⟨[], false, [0], []⟩

def push (r : Reference ρ α) (cb : Handler ρ α) : Option (Reference ρ α) :=
  match r.frames with
  | [] => none
  | n :: fs => some { r with stack := cb :: r.stack, frames := (n + 1) :: fs }

def pop (r : Reference ρ α) (execute : Int) : Option (Reference ρ α) :=
  match r.frames, r.stack with
  | (n + 1) :: fs, cb :: stack =>
    if execute ≠ 0 then
      some { r with stack := stack, frames := 0 :: n :: fs, ran := r.ran ++ [cb] }
    else some { r with stack := stack, frames := n :: fs }
  | _, _ => none

/-- At exit the last handler is popped and run, as long as there is one. -/
def popNext (r : Reference ρ α) : Option (Reference ρ α) :=
  match r.stack with
  | [] => some { r with exiting := true, frames := [] }
  | cb :: stack =>
    some { r with stack := stack, exiting := true, frames := [0], ran := r.ran ++ [cb] }

def ret (r : Reference ρ α) : Option (Reference ρ α) :=
  match r.frames with
  | 0 :: n :: fs => some { r with frames := n :: fs }
  | [0] => if r.exiting then r.popNext else none
  | _ => none

def exit (r : Reference ρ α) : Option (Reference ρ α) :=
  if r.exiting then none else r.popNext

def step (r : Reference ρ α) : Act ρ α → Option (Reference ρ α)
  | .push cb => r.push cb
  | .pop execute => r.pop execute
  | .ret => r.ret
  | .exit => r.exit

end Reference

/-- At exit every handler still pushed runs once, the last one first, when none pushes any. -/
theorem reference_exit {ρ α : Type*} (r : Reference ρ α) (hAlive : r.exiting = false) :
    exec Reference.step r (.exit :: List.replicate r.stack.length .ret) =
      some ⟨[], true, [], r.ran ++ r.stack⟩ := by
  have hPops : ∀ (stack : List (Handler ρ α)) (s : Reference ρ α), s.stack = stack →
      (s.popNext.bind fun s => exec Reference.step s (List.replicate stack.length .ret)) =
        some ⟨[], true, [], s.ran ++ stack⟩ := by
    intro stack
    induction stack with
    | nil =>
      intro s hStack
      simp [Reference.popNext, hStack]
    | cons cb stack ih =>
      intro s hStack
      have hRest := ih ⟨stack, true, [0], s.ran ++ [cb]⟩ rfl
      rw [List.append_assoc] at hRest
      simp only [Reference.popNext, hStack]
      exact hRest
  have hExit : r.step .exit = r.popNext := by simp [Reference.step, Reference.exit, hAlive]
  rw [exec, hExit]
  exact hPops r.stack r rfl

/-! ### The simulation -/

section Simulation

variable {ρ α : Type*}

theorem mem_owned {frames : List Frame} {i : Nat} (hi : i ∈ frames.flatMap Frame.pushed) :
    i ∈ frames.flatMap Frame.owned := by
  obtain ⟨f, hf, hPushed⟩ := List.mem_flatMap.mp hi
  exact List.mem_flatMap.mpr ⟨f, hf, List.mem_append_left _ hPushed⟩

theorem pushed_sublist_owned (frames : List Frame) :
    List.Sublist (frames.flatMap Frame.pushed) (frames.flatMap Frame.owned) := by
  induction frames with
  | nil => exact .slnil
  | cons f fs ih => exact (List.sublist_append_left f.pushed _).append ih

/-- `pthread_cleanup_pop_impl` called every routine on the way but the outermost. -/
inductive Nested : List Frame → Prop
  | outermost (pushed : List Nat) : Nested [⟨none, pushed⟩]
  | cleaning (c : Nat) (pushed : List Nat) {fs : List Frame} (hOuter : Nested fs) :
      Nested (⟨some c, pushed⟩ :: fs)

theorem Nested.repush {f : Frame} {fs : List Frame} (hNested : Nested (f :: fs))
    (pushed : List Nat) : Nested (⟨f.cleaning, pushed⟩ :: fs) := by
  cases hNested with
  | outermost => exact .outermost pushed
  | cleaning c _ hOuter => exact .cleaning c pushed hOuter

/-- The handlers under those of the routines on the way: none while the thread runs, and then the
ones that the destructor has still to call. -/
inductive Lower (h : Heap (Node (Handler ρ α))) :
    Option (Option Nat) → Option Nat → List Nat → List (Handler ρ α) → Prop
  | running : Lower h none none [] []
  | exiting {p : Nat} {node : Node (Handler ρ α)} {q : Option Nat} {places : List Nat}
      {lower : List (Handler ρ α)} (hLoad : h.load p = some node)
      (hRest : Segment h node.next places lower none) :
      Lower h (some (some p)) q (p :: places) lower

theorem Lower.mono {h h' : Heap (Node (Handler ρ α))} {walk : Option (Option Nat)} {q : Option Nat}
    {places : List Nat} {lower : List (Handler ρ α)} (hLower : Lower h walk q places lower)
    (hKept : ∀ i ∈ places, ∀ node, h.load i = some node → h'.load i = some node) :
    Lower h' walk q places lower := by
  cases hLower with
  | running => exact .running
  | exiting hLoad hRest =>
    have hRest' := hRest.mono fun i hi => hKept i (List.mem_cons_of_mem _ hi)
    exact .exiting (hKept _ List.mem_cons_self _ hLoad) hRest'

theorem Lower.place_lt {h : Heap (Node (Handler ρ α))} {walk : Option (Option Nat)}
    {q : Option Nat} {places : List Nat} {lower : List (Handler ρ α)}
    (hLower : Lower h walk q places lower) : ∀ i ∈ places, i < h.length := by
  cases hLower with
  | running => simp
  | exiting hLoad hRest =>
    intro i hi
    rcases List.mem_cons.mp hi with rfl | hi
    · exact Heap.load_lt hLoad
    · exact hRest.place_lt i hi

/-- The list behind `current` holds `upper`, the handlers of the routines on the way. -/
structure Stacked (t : Thread ρ α) (upper lower : List (Handler ρ α)) (q : Option Nat)
    (places : List Nat) : Prop where
  nested : Nested t.frames
  upper : Segment t.heap t.current (t.frames.flatMap Frame.pushed) upper q
  lower : Lower t.heap t.walk q places lower
  distinct : (t.frames.flatMap Frame.owned ++ places).Nodup
  owned_lt : ∀ i ∈ t.frames.flatMap Frame.owned, i < t.heap.length

theorem Stacked.free {t : Thread ρ α} {upper lower : List (Handler ρ α)} {q : Option Nat}
    {places : List Nat} {c : Nat} (hStacked : Stacked t upper lower q places)
    (hOther : c ∉ t.frames.flatMap Frame.owned ++ places) :
    Stacked { t with heap := t.heap.free c } upper lower q places := by
  have hKept : ∀ i, i ∈ t.frames.flatMap Frame.owned ++ places → ∀ node,
      t.heap.load i = some node → (t.heap.free c).load i = some node := by
    intro i hi node hLoad
    have hNe : i ≠ c := fun hEq => hOther (hEq ▸ hi)
    rwa [Heap.load_free_ne hNe]
  refine ⟨hStacked.nested, hStacked.upper.mono fun i hi => hKept i ?_,
    hStacked.lower.mono fun i hi => hKept i ?_, hStacked.distinct, fun i hi => ?_⟩
  · exact List.mem_append_left _ (mem_owned hi)
  · exact List.mem_append_right _ hi
  · rw [Heap.length_free]
    exact hStacked.owned_lt i hi

inductive Sim : Thread ρ α → Reference ρ α → Prop
  | on {t : Thread ρ α} {upper lower : List (Handler ρ α)} {q : Option Nat} {places : List Nat}
      (hStacked : Stacked t upper lower q places) :
      Sim t ⟨upper ++ lower, t.walk.isSome, t.frames.map (·.pushed.length), t.ran⟩
  | finished (heap : Heap (Node (Handler ρ α))) (current : Option Nat) (ran : List (Handler ρ α)) :
      Sim ⟨heap, current, some none, [], ran⟩ ⟨[], true, [], ran⟩

theorem start_sim : Sim (Thread.start : Thread ρ α) Reference.start := by
  have hStacked : Stacked (Thread.start : Thread ρ α) [] [] none [] :=
    ⟨.outermost [], .nil none, .running, by simp [Thread.start, Frame.owned],
      by simp [Thread.start, Frame.owned]⟩
  exact .on hStacked

theorem push_sim {t : Thread ρ α} {upper lower : List (Handler ρ α)} {q : Option Nat}
    {places : List Nat} (hStacked : Stacked t upper lower q places) (cb : Handler ρ α) :
    Option.Rel Sim (t.pthreadCleanupPushImpl cb)
      (Reference.push
        ⟨upper ++ lower, t.walk.isSome, t.frames.map (·.pushed.length), t.ran⟩ cb) := by
  obtain ⟨heap, current, walk, frames, ran⟩ := t
  obtain ⟨hNested, hUpper, hLower, hDistinct, hOwned⟩ := hStacked
  cases frames with
  | nil => exact .none
  | cons f fs =>
    have hFresh : heap.length ∉ (f :: fs).flatMap Frame.owned ++ places := by
      intro hMem
      rcases List.mem_append.mp hMem with hMem | hMem
      · exact Nat.lt_irrefl _ (hOwned _ hMem)
      · exact Nat.lt_irrefl _ (hLower.place_lt _ hMem)
    suffices hPushed : Stacked ⟨heap.alloc ⟨cb, current⟩, some heap.length, walk,
        ⟨f.cleaning, heap.length :: f.pushed⟩ :: fs, ran⟩ (cb :: upper) lower q places from
      .some (.on hPushed)
    refine ⟨hNested.repush _, ?_, ?_, List.nodup_cons.mpr ⟨hFresh, hDistinct⟩, ?_⟩
    · exact .cons (Heap.load_alloc_new heap ⟨cb, current⟩)
        (hUpper.mono fun i _ node hLoad => Heap.load_alloc_old hLoad)
    · exact hLower.mono fun i _ node hLoad => Heap.load_alloc_old hLoad
    · intro i hi
      show i < (heap.alloc ⟨cb, current⟩).length
      rw [Heap.length_alloc]
      rcases List.mem_cons.mp hi with rfl | hi
      · exact Nat.lt_succ_self _
      · exact Nat.lt_succ_of_lt (hOwned i hi)

theorem pop_sim {t : Thread ρ α} {upper lower : List (Handler ρ α)} {q : Option Nat}
    {places : List Nat} (hStacked : Stacked t upper lower q places) (execute : Int) :
    Option.Rel Sim (t.pthreadCleanupPopImpl execute)
      (Reference.pop ⟨upper ++ lower, t.walk.isSome, t.frames.map (·.pushed.length), t.ran⟩
        execute) := by
  obtain ⟨heap, current, walk, frames, ran⟩ := t
  obtain ⟨hNested, hUpper, hLower, hDistinct, hOwned⟩ := hStacked
  match frames, hNested, hUpper, hDistinct, hOwned with
  | [], _, _, _, _ => exact .none
  | ⟨cleaning, []⟩ :: fs, _, _, _, _ => exact .none
  | ⟨cleaning, c :: pushed⟩ :: fs, hNested, hUpper, hDistinct, hOwned =>
    cases hUpper with
    | @cons _ node _ upper _ hLoad hRest =>
      have hNested' : Nested (⟨cleaning, pushed⟩ :: fs) := hNested.repush pushed
      obtain ⟨hOther, hDistinct'⟩ := List.nodup_cons.mp hDistinct
      by_cases hExecute : execute = 0
      · suffices hPopped : Stacked ⟨heap.free c, node.next, walk, ⟨cleaning, pushed⟩ :: fs, ran⟩
            upper lower q places by
          simpa [Thread.pthreadCleanupPopImpl, Reference.pop, hLoad, hExecute] using
            Option.Rel.some (Sim.on hPopped)
        have hLeft :
            Stacked ⟨heap, node.next, walk, ⟨cleaning, pushed⟩ :: fs, ran⟩ upper lower q places :=
          ⟨hNested', hRest, hLower, hDistinct', fun i hi => hOwned i (List.mem_cons_of_mem _ hi)⟩
        exact hLeft.free hOther
      · suffices hPopped : Stacked ⟨heap, node.next, walk, ⟨some c, []⟩ :: ⟨cleaning, pushed⟩ :: fs,
            ran ++ [node.value]⟩ upper lower q places by
          simpa [Thread.pthreadCleanupPopImpl, Reference.pop, hLoad, hExecute] using
            Option.Rel.some (Sim.on hPopped)
        exact ⟨.cleaning c [] hNested', hRest, hLower, hDistinct, hOwned⟩

/-- The destructor goes on at `p` as the reference pops: the routines on the way are left. -/
theorem walkTo_sim {t : Thread ρ α} {r : Reference ρ α} {p : Option Nat} {places : List Nat}
    (hSegment : Segment t.heap p places r.stack none) (hDistinct : places.Nodup)
    (hRan : r.ran = t.ran) : Option.Rel Sim (t.walkTo p) r.popNext := by
  obtain ⟨stack, exiting, counts, ran⟩ := r
  obtain rfl : ran = t.ran := hRan
  generalize hEnd : (none : Option Nat) = q at hSegment
  cases hSegment with
  | nil =>
    subst hEnd
    exact .some (.finished t.heap t.current t.ran)
  | @cons c node places lower _ hLoad hRest =>
    subst hEnd
    suffices hStacked : Stacked ⟨t.heap, t.current, some (some c), [⟨none, []⟩],
        t.ran ++ [node.value]⟩ [] lower t.current (c :: places) by
      simpa [Thread.walkTo, Reference.popNext, hLoad] using Option.Rel.some (Sim.on hStacked)
    exact ⟨.outermost [], .nil t.current, .exiting hLoad hRest, hDistinct, by simp [Frame.owned]⟩

theorem ret_sim {t : Thread ρ α} {upper lower : List (Handler ρ α)} {q : Option Nat}
    {places : List Nat} (hStacked : Stacked t upper lower q places) :
    Option.Rel Sim t.ret
      (Reference.ret ⟨upper ++ lower, t.walk.isSome, t.frames.map (·.pushed.length), t.ran⟩) := by
  obtain ⟨heap, current, walk, frames, ran⟩ := t
  obtain ⟨hNested, hUpper, hLower, hDistinct, hOwned⟩ := hStacked
  cases hNested with
  | outermost pushed =>
    cases pushed with
    | cons c pushed => cases pushed <;> exact .none
    | nil =>
      cases hUpper
      cases hLower with
      | running => exact .none
      | @exiting p node _ places lower hLoad hRest =>
        have hWalk := walkTo_sim (t := ⟨heap, current, some (some p), [⟨none, []⟩], ran⟩)
          (r := ⟨lower, true, [0], ran⟩) hRest (List.nodup_cons.mp hDistinct).2 rfl
        simpa [Thread.ret, Reference.ret, hLoad] using hWalk
  | @cleaning c pushed fs hOuter =>
    cases pushed with
    | cons => exact .none
    | nil =>
      obtain ⟨hOther, hDistinct'⟩ := List.nodup_cons.mp hDistinct
      have hLeft : Stacked ⟨heap, current, walk, fs, ran⟩ upper lower q places :=
        ⟨hOuter, hUpper, hLower, hDistinct', fun i hi => hOwned i (List.mem_cons_of_mem _ hi)⟩
      cases hOuter <;> exact .some (.on (hLeft.free hOther))

/-- The records are there when the destructor reads them: the host keeps the frames until then, or
no handler is pushed at an exit. -/
def RecordsLast (unwinds : Bool) (r : Reference ρ α) (a : Act ρ α) : Prop :=
  unwinds = false ∨ (a = .exit → r.stack = [])

theorem exit_sim {t : Thread ρ α} {upper lower : List (Handler ρ α)} {q : Option Nat}
    {places : List Nat} {unwinds : Bool} (hStacked : Stacked t upper lower q places)
    (hLast : unwinds = false ∨ upper ++ lower = []) :
    Option.Rel Sim (t.exit unwinds)
      (Reference.exit ⟨upper ++ lower, t.walk.isSome, t.frames.map (·.pushed.length), t.ran⟩) := by
  obtain ⟨heap, current, walk, frames, ran⟩ := t
  obtain ⟨hNested, hUpper, hLower, hDistinct, hOwned⟩ := hStacked
  cases hLower with
  | exiting hLoad hRest => exact .none
  | running =>
    cases unwinds with
    | false =>
      have hPushed : (frames.flatMap Frame.pushed).Nodup :=
        (pushed_sublist_owned frames).nodup (List.nodup_append.mp hDistinct).1
      have hSegment : Segment heap current (frames.flatMap Frame.pushed) (upper ++ []) none := by
        rwa [List.append_nil]
      exact walkTo_sim (t := ⟨heap, current, none, frames, ran⟩)
        (r := ⟨upper ++ [], false, frames.map (·.pushed.length), ran⟩) hSegment hPushed rfl
    | true =>
      -- Nothing is pushed, so the destructor reads none of the records that are gone.
      have hEmpty : upper = [] := by simpa using hLast
      subst hEmpty
      dsimp only at hUpper
      generalize frames.flatMap Frame.pushed = pushed at hUpper
      cases hUpper
      exact .some (.finished _ none ran)

/-- With its frames given up, a thread that exits with a handler pushed reads what is gone. -/
theorem exit_stuck {t : Thread ρ α} {upper lower : List (Handler ρ α)} {q : Option Nat}
    {places : List Nat} (hStacked : Stacked t upper lower q places) (hSome : upper ++ lower ≠ []) :
    t.exit true = none := by
  obtain ⟨heap, current, walk, frames, ran⟩ := t
  obtain ⟨hNested, hUpper, hLower, hDistinct, hOwned⟩ := hStacked
  cases hLower with
  | exiting hLoad hRest => rfl
  | running =>
    cases hPushed : frames.flatMap Frame.pushed with
    | nil =>
      simp only [hPushed] at hUpper
      cases hUpper
      exact absurd rfl hSome
    | cons c pushed =>
      have hGone : (freeAll heap (frames.flatMap Frame.owned)).load c = none :=
        load_freeAll (mem_owned (hPushed ▸ List.mem_cons_self))
      simp only [hPushed] at hUpper
      cases hUpper with
      | cons hLoad hRest => simp [Thread.exit, Thread.unwind, Thread.walkTo, hGone]

theorem step_sim {unwinds : Bool} (t : Thread ρ α) (r : Reference ρ α) (a : Act ρ α)
    (hSim : Sim t r) (hLast : RecordsLast unwinds r a) :
    Option.Rel Sim (t.step unwinds a) (r.step a) := by
  cases hSim with
  | on hStacked =>
    cases a with
    | push cb => exact push_sim hStacked cb
    | pop execute => exact pop_sim hStacked execute
    | ret => exact ret_sim hStacked
    | exit => exact exit_sim hStacked (hLast.imp_right fun hEmpty => hEmpty rfl)
  | finished => cases a <;> exact .none

theorem step_stuck {unwinds : Bool} (t : Thread ρ α) (r : Reference ρ α) (a : Act ρ α)
    (hSim : Sim t r) (hGone : ¬RecordsLast unwinds r a) : t.step unwinds a = none := by
  obtain ⟨hUnwinds, hPending⟩ := not_or.mp hGone
  obtain ⟨rfl, hSome⟩ := Classical.not_imp.mp hPending
  obtain rfl : unwinds = true := eq_true_of_ne_false hUnwinds
  cases hSim with
  | on hStacked => exact exit_stuck hStacked hSome
  | finished => exact absurd rfl hSome

theorem Sim.ran_eq {t : Thread ρ α} {r : Reference ρ α} (hSim : Sim t r) : t.ran = r.ran := by
  cases hSim <;> rfl

/-- The shim runs the handlers of the reference stack in the same order, with their arguments,
exactly in the runs in which the records last; it admits the runs that the reference admits. -/
theorem cleanup_refines (unwinds : Bool) (tr : List (Act ρ α)) :
    (exec (Thread.step unwinds) Thread.start tr).map Thread.ran =
        (exec Reference.step Reference.start tr).map Reference.ran ↔
      ∀ r, exec Reference.step Reference.start tr = some r →
        Along Reference.step (RecordsLast unwinds) Reference.start tr := by
  obtain ⟨hAlike, hStops⟩ := exec_lockstep_along (C := RecordsLast unwinds)
    (fun t r a => step_sim t r a) (fun t r a => step_stuck t r a)
    (start_sim : Sim (Thread.start : Thread ρ α) Reference.start) tr
  have hSame : Along Reference.step (RecordsLast unwinds) Reference.start tr →
      (exec (Thread.step unwinds) Thread.start tr).map Thread.ran =
        (exec Reference.step Reference.start tr).map Reference.ran := by
    intro hLast
    have hRun := hAlike hLast
    generalize exec (Thread.step unwinds) Thread.start tr = t at hRun ⊢
    generalize exec Reference.step Reference.start tr = r at hRun ⊢
    cases hRun with
    | none => rfl
    | some hSim => exact congrArg some hSim.ran_eq
  constructor
  · intro hRan r hRun
    by_contra hGone
    rw [hStops hGone, hRun] at hRan
    cases hRan
  · intro hLast
    by_cases hAlong : Along Reference.step (RecordsLast unwinds) Reference.start tr
    · exact hSame hAlong
    · cases hRun : exec Reference.step Reference.start tr with
      | none => rw [hStops hAlong]; rfl
      | some r => exact absurd (hLast r hRun) hAlong

/-- A thread that pushes a handler and exits, where the host unwinds its stack. -/
theorem cleanup_lost :
    ¬ ∀ (unwinds : Bool) (tr : List (Act Nat Nat)),
      (exec (Thread.step unwinds) Thread.start tr).map Thread.ran =
        (exec Reference.step Reference.start tr).map Reference.ran := by
  intro hClaim
  exact absurd (hClaim true [.push ⟨0, 1⟩, .exit]) (by decide)

end Simulation

end LibcShim.Pthread.Cleanup
