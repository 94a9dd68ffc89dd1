import LibcShim.Kit.Heap
import LibcShim.Kit.Run
import Mathlib.Logic.Function.Basic

/-! The guest's `FILE` wrappers over the host's streams: the calls that open, reopen and close
streams, as a store of wrappers that only grows.  The host's results are choices of the run. -/

namespace LibcShim.Stdio.Streams

open Kit

/-- A `bionic::FILE` around the host stream `wrapped`.  Its life ends with the call that closes it;
it is freed where that call deletes it. -/
structure Wrapper where
  wrapped : Nat
  ended : Bool
  freed : Bool
  deriving DecidableEq, Repr

/-- The wrappers in the order of their allocation, after `standard_files`, and the host streams
that are open. -/
structure State where
  wrappers : List Wrapper
  isOpen : Nat → Bool

def standardFiles : Nat := 3

def wrapFile (file : Option Nat) (s : State) : State :=
  match file with
  | none => s
  | some f => { s with wrappers := s.wrappers ++ [⟨f, false, false⟩] }

def setOpen (s : State) (f : Nat) (b : Bool) : State :=
  { s with isOpen := Function.update s.isOpen f b }

/-- The host opens a stream that was not open, or fails, and the shim wraps the result. -/
def openStream (host : Option Nat) (s : State) : Option State :=
  match host with
  | none => some (wrapFile none s)
  | some f => if s.isOpen f then none else some (wrapFile (some f) (setOpen s f true))

def fopen (host : Option Nat) (s : State) : Option State := openStream host s

def fdopen (host : Option Nat) (s : State) : Option State := openStream host s

def tmpfile (host : Option Nat) (s : State) : Option State := openStream host s

def popen (host : Option Nat) (s : State) : Option State := openStream host s

/-- The host stream behind a wrapper that the guest may use. -/
def use (s : State) (file : Nat) : Option Nat :=
  match s.wrappers[file]? with
  | some w => if w.ended = false ∧ s.isOpen w.wrapped then some w.wrapped else none
  | none => none

def endFile (s : State) (file f : Nat) (freed : Bool) : State :=
  { wrappers := s.wrappers.modify file fun w => ⟨w.wrapped, true, freed⟩
    isOpen := Function.update s.isOpen f false }

/-- The host's `freopen` closes the stream and opens the same one again, or fails. -/
def freopen (success : Bool) (file : Nat) (s : State) : Option State := do
  let f ← use s file
  some (if success then wrapFile (some f) s else wrapFile none (endFile s file f false))

def fclose (file : Nat) (s : State) : Option State := do
  let f ← use s file
  some (endFile s file f (standardFiles ≤ file))

/-- `shim::pclose`; the standard streams are no heap objects to delete. -/
def pclose (file : Nat) (s : State) : Option State := do
  let f ← use s file
  if file < standardFiles then none else some (endFile s file f true)

/-- The other function that the table has under `pclose`, the host's own. -/
def hostPclose (file : Nat) (s : State) : Option State := do
  let f ← use s file
  some (endFile s file f false)

inductive Op
  | fopen (host : Option Nat)
  | fdopen (host : Option Nat)
  | tmpfile (host : Option Nat)
  | popen (host : Option Nat)
  | freopen (success : Bool) (file : Nat)
  | fclose (file : Nat)
  | pclose (file : Nat)
  | hostPclose (file : Nat)
  deriving DecidableEq, Repr

def step (s : State) : Op → Option State
  | .fopen host => fopen host s
  | .fdopen host => fdopen host s
  | .tmpfile host => tmpfile host s
  | .popen host => popen host s
  | .freopen success file => freopen success file s
  | .fclose file => fclose file s
  | .pclose file => pclose file s
  | .hostPclose file => hostPclose file s

/-- The host at the start: its standard streams are distinct and open. -/
structure HostStdio where
  stdin : Nat
  stdout : Nat
  stderr : Nat
  isOpen : Nat → Bool
  distinct : [stdin, stdout, stderr].Nodup
  opened : ∀ f ∈ [stdin, stdout, stderr], isOpen f = true

def start (host : HostStdio) : State :=
  ⟨[host.stdin, host.stdout, host.stderr].map fun f => ⟨f, false, false⟩, host.isOpen⟩

def Op.reopens : Op → Bool
  | .freopen true _ => true
  | _ => false

section Steps

variable {s s' : State} {op : Op}

inductive Effect (s : State) : Op → State → Prop
  | fail (op : Op) (h : op.reopens = false) : Effect s op s
  | wrap (op : Op) (f : Nat) (h : op.reopens = false) (hClosed : s.isOpen f = false) :
    Effect s op ⟨s.wrappers ++ [⟨f, false, false⟩], Function.update s.isOpen f true⟩
  | rewrap (file : Nat) (w : Wrapper) (hw : s.wrappers[file]? = some w) (hLive : w.ended = false) :
    Effect s (.freopen true file) ⟨s.wrappers ++ [⟨w.wrapped, false, false⟩], s.isOpen⟩
  | finish (op : Op) (file : Nat) (w : Wrapper) (freed : Bool) (h : op.reopens = false)
    (hw : s.wrappers[file]? = some w) (hLive : w.ended = false) :
    Effect s op (endFile s file w.wrapped freed)

theorem use_eq {file f : Nat} (h : use s file = some f) :
    ∃ w, s.wrappers[file]? = some w ∧ w.ended = false ∧ f = w.wrapped := by
  unfold use at h
  cases hw : s.wrappers[file]? with
  | none => simp [hw] at h
  | some w =>
    simp only [hw, Option.ite_none_right_eq_some, Option.some.injEq] at h
    exact ⟨w, rfl, h.1.1, h.2.symm⟩

/-- A call on a stream goes on with the host stream of a wrapper that is live. -/
theorem use_bind {file : Nat} {g : Nat → Option State} (h : (use s file).bind g = some s') :
    ∃ w, s.wrappers[file]? = some w ∧ w.ended = false ∧ g w.wrapped = some s' := by
  obtain ⟨f, hUse, hRest⟩ := Option.bind_eq_some_iff.mp h
  obtain ⟨w, hw, hLive, rfl⟩ := use_eq hUse
  exact ⟨w, hw, hLive, hRest⟩

theorem openStream_effect {host : Option Nat} (hOp : op.reopens = false)
    (h : openStream host s = some s') : Effect s op s' := by
  cases host with
  | none =>
    obtain rfl := Option.some.inj h
    exact .fail op hOp
  | some f =>
    simp only [openStream, Option.ite_none_left_eq_some, Option.some.injEq] at h
    obtain ⟨hClosed, rfl⟩ := h
    exact .wrap op f hOp (Bool.eq_false_iff.mpr hClosed)

theorem step_effect (h : step s op = some s') : Effect s op s' := by
  cases op with
  | fopen host => exact openStream_effect rfl h
  | fdopen host => exact openStream_effect rfl h
  | tmpfile host => exact openStream_effect rfl h
  | popen host => exact openStream_effect rfl h
  | freopen success file =>
    obtain ⟨w, hw, hLive, h⟩ := use_bind h
    obtain rfl := Option.some.inj h
    cases success with
    | false => exact .finish _ file w false rfl hw hLive
    | true => exact .rewrap file w hw hLive
  | fclose file =>
    obtain ⟨w, hw, hLive, h⟩ := use_bind h
    obtain rfl := Option.some.inj h
    exact .finish _ file w _ rfl hw hLive
  | pclose file =>
    obtain ⟨w, hw, hLive, h⟩ := use_bind h
    simp only [Option.ite_none_left_eq_some, Option.some.injEq] at h
    obtain ⟨-, rfl⟩ := h
    exact .finish _ file w true rfl hw hLive
  | hostPclose file =>
    obtain ⟨w, hw, hLive, h⟩ := use_bind h
    obtain rfl := Option.some.inj h
    exact .finish _ file w false rfl hw hLive

end Steps

/-! ### One wrapper for each open stream -/

/-- Distinct live wrappers have distinct host streams, and these are open. -/
structure OneToOne (s : State) : Prop where
  injective : ∀ (i j : Nat) (w w' : Wrapper), s.wrappers[i]? = some w → s.wrappers[j]? = some w' →
    w.ended = false → w'.ended = false → w.wrapped = w'.wrapped → i = j
  opened : ∀ (i : Nat) (w : Wrapper), s.wrappers[i]? = some w → w.ended = false →
    s.isOpen w.wrapped = true

section Invariant

variable {s s' : State} {op : Op} {tr : List Op} {host : HostStdio}

theorem oneToOne_start (host : HostStdio) : OneToOne (start host) := by
  have hWrapped : ∀ (i : Nat) (w : Wrapper), (start host).wrappers[i]? = some w →
      [host.stdin, host.stdout, host.stderr][i]? = some w.wrapped := by
    intro i w hw
    simp only [start, List.getElem?_map, Option.map_eq_some_iff] at hw
    obtain ⟨f, hf, rfl⟩ := hw
    exact hf
  constructor
  · intro i j w w' hw hw' _ _ hSame
    have hi := hWrapped i w hw
    have hj := hWrapped j w' hw'
    have hBound : i < 3 := (List.getElem?_eq_some_iff.mp hi).1
    exact (List.getElem?_inj hBound host.distinct).mp (hi.trans (hSame ▸ hj.symm))
  · intro i w hw _
    exact host.opened _ (List.mem_of_getElem? (hWrapped i w hw))

theorem OneToOne.wrap {f : Nat} (h : OneToOne s) (hClosed : s.isOpen f = false) :
    OneToOne ⟨s.wrappers ++ [⟨f, false, false⟩], Function.update s.isOpen f true⟩ := by
  have hOther : ∀ (i : Nat) (w : Wrapper), s.wrappers[i]? = some w → w.ended = false →
      w.wrapped ≠ f := by
    rintro i w hw hLive rfl
    rw [h.opened i w hw hLive] at hClosed
    cases hClosed
  constructor
  · intro i j w w' hw hw' hLive hLive' hSame
    rcases getElem?_snoc.mp hw with hw | ⟨rfl, rfl⟩ <;>
      rcases getElem?_snoc.mp hw' with hw' | ⟨rfl, rfl⟩
    · exact h.injective i j w w' hw hw' hLive hLive' hSame
    · exact absurd hSame (hOther i w hw hLive)
    · exact absurd hSame.symm (hOther j w' hw' hLive')
    · rfl
  · intro i w hw hLive
    rcases getElem?_snoc.mp hw with hw | ⟨rfl, rfl⟩
    · simp [hOther i w hw hLive, h.opened i w hw hLive]
    · simp

theorem OneToOne.finish {file : Nat} {w : Wrapper} {freed : Bool} (h : OneToOne s)
    (hw : s.wrappers[file]? = some w) (hLive : w.ended = false) :
    OneToOne (endFile s file w.wrapped freed) := by
  -- a wrapper that is still live is another one, and was there before
  have hKept : ∀ (i : Nat) (v : Wrapper), (endFile s file w.wrapped freed).wrappers[i]? = some v →
      v.ended = false → i ≠ file ∧ s.wrappers[i]? = some v := by
    intro i v hv hLive
    simp only [endFile, List.getElem?_modify] at hv
    by_cases hi : file = i
    · subst hi
      simp [hw] at hv
      simp [← hv] at hLive
    · refine ⟨Ne.symm hi, ?_⟩
      simpa [hi] using hv
  constructor
  · intro i j v v' hv hv' hLive hLive' hSame
    exact h.injective i j v v' (hKept i v hv hLive).2 (hKept j v' hv' hLive').2 hLive hLive' hSame
  · intro i v hv hLiveV
    obtain ⟨hi, hv⟩ := hKept i v hv hLiveV
    have hOther : v.wrapped ≠ w.wrapped := fun hSame =>
      hi (h.injective i file v w hv hw hLiveV hLive hSame)
    simp [endFile, hOther, h.opened i v hv hLiveV]

theorem not_oneToOne_rewrap {file : Nat} {w : Wrapper} (hw : s.wrappers[file]? = some w)
    (hLive : w.ended = false) :
    ¬OneToOne ⟨s.wrappers ++ [⟨w.wrapped, false, false⟩], s.isOpen⟩ := by
  intro h
  have hBound : file < s.wrappers.length := (List.getElem?_eq_some_iff.mp hw).1
  have hSame : file = s.wrappers.length :=
    h.injective file s.wrappers.length w ⟨w.wrapped, false, false⟩
      (getElem?_snoc.mpr (Or.inl hw)) (getElem?_snoc.mpr (Or.inr ⟨rfl, rfl⟩)) hLive rfl rfl
  omega

theorem step_oneToOne (h : OneToOne s) (hStep : step s op = some s') :
    OneToOne s' ↔ op.reopens = false := by
  cases step_effect hStep with
  | fail _ hOp => exact iff_of_true h hOp
  | wrap _ f hOp hClosed => exact iff_of_true (h.wrap hClosed) hOp
  | rewrap file w hw hLive => exact iff_of_false (not_oneToOne_rewrap hw hLive) nofun
  | finish _ file w freed hOp hw hLive => exact iff_of_true (h.finish hw hLive) hOp

/-- The wrappers and the host streams are in one-to-one correspondence in every state of a run
exactly when no `freopen` of the run succeeds. -/
theorem wrappers_one_to_one (hRun : exec step (start host) tr = some s) :
    (∀ m, Visits step (start host) tr m → OneToOne m) ↔ ∀ op ∈ tr, op.reopens = false := by
  have hStates := visits_invariant_iff (fun s a s' => step_oneToOne) (oneToOne_start host) hRun
  rw [hStates]
  exact along_iff_forall (C := fun op => op.reopens = false) hRun

/-! ### A host whose standard streams are 0, 1 and 2 -/

def exampleStdio : HostStdio where
  stdin := 0
  stdout := 1
  stderr := 2
  isOpen f := f < 3
  distinct := by decide
  opened := by decide

theorem fopen_fclose_one_to_one :
    ∃ m, exec step (start exampleStdio) [.fopen (some 7), .freopen false 3] = some m ∧
      OneToOne m := by
  have hFails : ∀ op ∈ [Op.fopen (some 7), .freopen false 3], op.reopens = false := by decide
  obtain ⟨m, hRun⟩ : ∃ m, exec step (start exampleStdio) [.fopen (some 7), .freopen false 3] =
      some m := ⟨_, rfl⟩
  exact ⟨m, hRun, (wrappers_one_to_one hRun).mpr hFails m ⟨_, [], (List.append_nil _).symm, hRun⟩⟩

/-- `freopen` of the standard output. -/
theorem freopen_stdout_twice_wrapped :
    ¬ ∀ (host : HostStdio) (tr : List Op) (s : State), exec step (start host) tr = some s →
      OneToOne s := by
  intro hClaim
  have hSame := (hClaim exampleStdio [.freopen true 1] _ rfl).injective 1 3 _ _ rfl rfl rfl rfl rfl
  cases hSame

end Invariant

end LibcShim.Stdio.Streams
