import LibcShim.Kit.Run
import LibcShim.Path.Rewrite
import Mathlib.Logic.Function.Basic

/-! The exported functions that take paths, and the host's names that they use: which of them put a
path through the table, and what a file that the guest made under a path is to later calls. -/

namespace LibcShim.Path

open Kit

inductive Fn
  | open_
  | open2
  | fopen
  | freopen
  | opendir
  | access
  | stat
  | lstat
  | chmod
  | fchmodat
  | chown
  | mkdir
  | rmdir
  | unlink
  | unlinkat
  | remove
  | rename
  | link
  | symlink
  | truncate
  | readlink
  | realpath
  | chdir
  | statvfs
  | utime
  | utimensat
  deriving DecidableEq, Repr

/-- What the function registered under the name hands the host for a path of its own. -/
def Fn.handed (rules : List Rule) (path : Option CString) : Fn → Option CString
  | .open_ => Path.open_ rules path
  | .open2 => open2Symbol rules path
  -- `IOREWRITE1` or `IOREWRITE2` in the table
  | .fopen | .freopen | .opendir | .access | .stat | .lstat | .chmod | .chown | .mkdir | .rmdir
  | .unlink | .remove | .rename | .link | .symlink | .chdir => rewritten rules path
  -- `iorewrite0` in the body
  | .unlinkat => rewritten rules path
  -- neither
  | .fchmodat | .truncate | .readlink | .realpath | .statvfs | .utime | .utimensat => path

def Fn.bare : Fn → Bool
  | .fchmodat | .truncate | .readlink | .realpath | .statvfs | .utime | .utimensat => true
  | _ => false

structure AbsolutePath extends CString where
  absolute : chars.head? = some '/'
  deriving DecidableEq

/-- Two functions treat a path alike: both as the table says, or both as it is, or the table has
nothing to say. -/
def SameWay (rules : List Rule) (f g : Fn) (p : AbsolutePath) : Prop :=
  f.bare = g.bare ∨ firing rules p.toCString = none

section Handed

variable {rules : List Rule} {f g : Fn} {p : AbsolutePath}

theorem handed_eq (path : Option CString) :
    f.handed rules path = if f.bare then path else rewritten rules path := by
  cases f <;> rfl

/-- The table leaves an absolute path alone only where no rule of it fires. -/
theorem rewritten_absolute :
    rewritten rules (some p.toCString) = some p.toCString ↔ firing rules p.toCString = none := by
  rw [rewritten_eq]
  cases hFiring : firing rules p.toCString with
  | none => simp
  | some kv =>
    have hDot : ¬kv.IsDot p.toCString := fun h => h.1 p.absolute
    simp [apply_eq_self (firing_fires hFiring), hDot]

theorem handed_same :
    f.handed rules (some p.toCString) = g.handed rules (some p.toCString) ↔
      SameWay rules f g p := by
  rw [handed_eq, handed_eq, SameWay, ← rewritten_absolute]
  cases f.bare <;> cases g.bare <;> simp [eq_comm]

end Handed

/-! ### Runs over an abstract host file system -/

/-- The host's names, and the number of the next file that is made. -/
structure Fs where
  names : Option CString → Option Nat
  next : Nat

/-- A call of an exported function with one path or two; `creates` is whether its flags make a file
that is missing, `success` what the host says. -/
structure Call where
  fn : Fn
  path : AbsolutePath
  path2 : AbsolutePath
  creates : Bool
  success : Bool
  deriving DecidableEq

def Fs.create (fs : Fs) (name : Option CString) : Fs :=
  match fs.names name with
  | some _ => fs
  | none => ⟨Function.update fs.names name (some fs.next), fs.next + 1⟩

def Fs.remove (fs : Fs) (name : Option CString) : Fs :=
  { fs with names := Function.update fs.names name none }

def Fs.rename (fs : Fs) (source target : Option CString) : Fs :=
  if source = target then fs
  else
    let names := Function.update fs.names source none
    { fs with names := Function.update names target (fs.names source) }

def Fs.link (fs : Fs) (source target : Option CString) : Fs :=
  match fs.names target with
  | some _ => fs
  | none => { fs with names := Function.update fs.names target (fs.names source) }

def Fn.effect (fs : Fs) (creates : Bool) (name name2 : Option CString) : Fn → Fs
  | .open_ | .open2 | .fopen | .freopen => if creates then fs.create name else fs
  | .mkdir => fs.create name
  | .symlink => fs.create name2
  | .rmdir | .unlink | .unlinkat | .remove => fs.remove name
  | .rename => fs.rename name name2
  | .link => fs.link name name2
  | .opendir | .access | .stat | .lstat | .chmod | .fchmodat | .chown | .truncate | .readlink
  | .realpath | .chdir | .statvfs | .utime | .utimensat => fs

def Call.name (rules : List Rule) (c : Call) (p : AbsolutePath) : Option CString :=
  c.fn.handed rules (some p.toCString)

def Call.paths (c : Call) : List AbsolutePath :=
  match c.fn with
  | .rename | .link | .symlink => [c.path, c.path2]
  | _ => [c.path]

def step (rules : List Rule) (fs : Fs) (c : Call) : Option Fs :=
  some <| if c.success then c.fn.effect fs c.creates (c.name rules c.path) (c.name rules c.path2)
    else fs

def Call.Drops (rules : List Rule) (c : Call) (name : Option CString) : Prop :=
  match c.fn with
  | .rmdir | .unlink | .unlinkat | .remove => name = c.name rules c.path
  | .rename => name = c.name rules c.path ∨ name = c.name rules c.path2
  | _ => False

/-- In every run of these calls, a file that is there under a path after one call is the file that a
later call on the path finds, unless a call in between takes its name away. -/
def Coherent (rules : List Rule) (fs : Fs) (tr : List Call) : Prop :=
  ∀ (before between after : List Call) (c d : Call) (p : AbsolutePath) (file : Nat) (s s' : Fs),
    tr = before ++ c :: between ++ d :: after → p ∈ c.paths → p ∈ d.paths →
    exec (step rules) fs (before ++ [c]) = some s → s.names (c.name rules p) = some file →
    (∀ e ∈ between, ¬e.Drops rules (c.name rules p)) → exec (step rules) s between = some s' →
    s'.names (d.name rules p) = some file

section Runs

variable {rules : List Rule} {fs fs' : Fs} {c : Call} {name : Option CString} {file : Nat}

theorem create_keeps {other : Option CString} (h : fs.names name = some file) :
    (fs.create other).names name = some file := by
  unfold Fs.create
  cases hOther : fs.names other with
  | some _ => exact h
  | none =>
    have hName : name ≠ other := by
      rintro rfl
      cases h.symm.trans hOther
    simpa [hName] using h

theorem remove_keeps {other : Option CString} (hName : name ≠ other)
    (h : fs.names name = some file) : (fs.remove other).names name = some file := by
  simpa [Fs.remove, hName] using h

theorem rename_keeps {source target : Option CString} (hSource : name ≠ source)
    (hTarget : name ≠ target) (h : fs.names name = some file) :
    (fs.rename source target).names name = some file := by
  unfold Fs.rename
  split
  · exact h
  · simpa [hSource, hTarget] using h

theorem link_keeps {source target : Option CString} (h : fs.names name = some file) :
    (fs.link source target).names name = some file := by
  unfold Fs.link
  cases hTarget : fs.names target with
  | some _ => exact h
  | none =>
    have hName : name ≠ target := by
      rintro rfl
      cases h.symm.trans hTarget
    simpa [hName] using h

theorem step_keeps (h : fs.names name = some file) (hDrops : ¬c.Drops rules name)
    (hStep : step rules fs c = some fs') : fs'.names name = some file := by
  obtain rfl := Option.some.inj hStep
  split
  · unfold Call.Drops at hDrops
    unfold Fn.effect
    cases hFn : c.fn <;> simp only [hFn] at hDrops ⊢
    case open_ | open2 | fopen | freopen =>
      split
      · exact create_keeps h
      · exact h
    case mkdir | symlink => exact create_keeps h
    case rmdir | unlink | unlinkat | remove => exact remove_keeps hDrops h
    case rename =>
      obtain ⟨hSource, hTarget⟩ := not_or.mp hDrops
      exact rename_keeps hSource hTarget h
    case link => exact link_keeps h
    all_goals exact h
  · exact h

theorem coherent_of_sameWay {tr : List Call}
    (hSame : ∀ c ∈ tr, ∀ d ∈ tr, ∀ p ∈ c.paths, p ∈ d.paths → SameWay rules c.fn d.fn p) :
    Coherent rules fs tr := by
  intro before between after c d p file s s' hSplit hc hd hRun hFile hKept hBetween
  have hMemC : c ∈ tr := by simp [hSplit]
  have hMemD : d ∈ tr := by simp [hSplit]
  have hName : c.name rules p = d.name rules p := handed_same.mpr (hSame c hMemC d hMemD p hc hd)
  rw [← hName]
  have hAlong := (along_iff_forall (C := fun e => ¬e.Drops rules (c.name rules p)) hBetween).mpr
    hKept
  have hVisits : Visits (step rules) s between s' := ⟨between, [], by simp, hBetween⟩
  exact visits_invariant (I := fun fs => fs.names (c.name rules p) = some file)
    (fun _ _ _ => step_keeps) hFile hAlong hVisits

end Runs

/-- Two functions hand the host the same path for an absolute one exactly when they treat it alike,
and in a run of calls that do, each file stays the one that its path leads to. -/
theorem one_guest_namespace (rules : List Rule) :
    (∀ (f g : Fn) (p : AbsolutePath),
      f.handed rules (some p.toCString) = g.handed rules (some p.toCString) ↔
        SameWay rules f g p) ∧
    ∀ (fs : Fs) (tr : List Call),
      (∀ c ∈ tr, ∀ d ∈ tr, ∀ p ∈ c.paths, p ∈ d.paths → SameWay rules c.fn d.fn p) →
        Coherent rules fs tr :=
  ⟨fun _ _ _ => handed_same, fun _ _ => coherent_of_sameWay⟩

def homeRules : List Rule := [⟨"/data".toList, "/home/x".toList⟩]

def dataFile : AbsolutePath := ⟨⟨"/data/f".toList, by decide⟩, by decide⟩

/-- `open` makes `/data/f`, `chmod` and then `stat` find it. -/
theorem one_guest_namespace_stat :
    Coherent homeRules ⟨fun _ => none, 0⟩
      [⟨.open_, dataFile, dataFile, true, true⟩, ⟨.chmod, dataFile, dataFile, false, true⟩,
        ⟨.stat, dataFile, dataFile, false, true⟩] := by
  refine (one_guest_namespace homeRules).2 _ _ fun c hc d hd p _ _ => Or.inl ?_
  have hRewritten : ∀ e ∈ [(⟨.open_, dataFile, dataFile, true, true⟩ : Call),
      ⟨.chmod, dataFile, dataFile, false, true⟩, ⟨.stat, dataFile, dataFile, false, true⟩],
      e.fn.bare = false := by decide
  rw [hRewritten c hc, hRewritten d hd]

/-- `open` and `truncate` of `/data/f`. -/
theorem truncate_misses_open :
    ¬ ∀ (rules : List Rule) (f g : Fn) (p : AbsolutePath),
      f.handed rules (some p.toCString) = g.handed rules (some p.toCString) := by
  intro hClaim
  exact absurd (hClaim homeRules .open_ .truncate dataFile) (by decide)

end LibcShim.Path
