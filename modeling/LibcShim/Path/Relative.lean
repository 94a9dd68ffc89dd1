import LibcShim.File.Fcntl
import LibcShim.Path.Rewrite

/-! `openat` and `unlinkat`, which take a path relative to a directory and put it through the table
all the same: the entry that the host finds, and the entry that the guest means. -/

namespace LibcShim.Path

open File (FcntlHost toHostFileStatusFlags linuxFcntl)

abbrev atFdcwd : Int := -100

/-- What the host's `openat` or `unlinkat` is called with; only `openat` has a mode. -/
structure HostCall where
  dirfd : Int
  path : Option CString
  flags : BitVec 32
  mode : Option Nat
  deriving DecidableEq

/-- `mode` stands for the argument behind the flags. -/
def openat (rules : List Rule) (host : FcntlHost) (dirfd : Int) (pathname : Option CString)
    (flags : BitVec 32) (mode : Nat) : HostCall :=
  let hflags := toHostFileStatusFlags host flags
  ⟨dirfd, rewritten rules pathname, hflags,
    some (if hflags &&& host.flag .creat ≠ 0 then mode else 0)⟩

def unlinkat (rules : List Rule) (dirfd : Int) (pathname : Option CString) (flags : BitVec 32) :
    HostCall := ⟨dirfd, rewritten rules pathname, flags, none⟩

/-! ### The host's lookup -/

/-- What stands behind the last slash: a name, nothing or a dot. -/
inductive Ending
  | plain
  | slash
  | dot
  deriving DecidableEq, Repr

/-- A path as the host reads it: where it starts, and the names without the empty ones and dots. -/
structure Spelling where
  absolute : Bool
  names : List CxxString
  ending : Ending
  deriving DecidableEq, Repr

def spelling (path : CString) : Spelling where
  absolute := path.chars.head? == some '/'
  names := (path.chars.splitOn '/').filter fun s => s ≠ [] ∧ s ≠ ['.']
  ending := match (path.chars.splitOn '/').getLast? with
    | some [] => .slash
    | some ['.'] => .dot
    | _ => .plain

/-- The directories of a host: where a name leads, through links too, and what a descriptor
refers to. -/
structure Tree (ν : Type) where
  root : ν
  child : ν → CxxString → Option ν
  root_up : child root ['.', '.'] = some root
  dir : Int → ν

/-- The place that a call acts on: a name in a directory, or the directory itself. -/
structure Entry (ν : Type) where
  directory : ν
  name : Option CxxString
  ending : Ending

namespace Tree

variable {ν : Type}

def walk (t : Tree ν) : ν → List CxxString → Option ν
  | d, [] => some d
  | d, name :: names => (t.child d name).bind fun d' => t.walk d' names

/-- A null path and an empty one are errors. -/
def entry (t : Tree ν) (dirfd : Int) : Option CString → Option (Entry ν)
  | none => none
  | some path =>
    if path.chars = [] then none
    else
      let s := spelling path
      (t.walk (if s.absolute then t.root else t.dir dirfd) s.names.dropLast).map fun directory =>
        ⟨directory, s.names.getLast?, s.ending⟩

/-- The entry that a call of the host acts on. -/
def hit (t : Tree ν) (call : HostCall) : Option (Entry ν) := t.entry call.dirfd call.path

end Tree

/-! ### What the guest means -/

def IsRelative (path : CString) : Prop := path.chars ≠ [] ∧ path.chars.head? ≠ some '/'

instance (path : CString) : Decidable (IsRelative path) := inferInstanceAs (Decidable (_ ∧ _))

/-- A name as `readdir` has it. -/
def IsName (path : CString) : Prop :=
  path.chars ≠ [] ∧ path.chars ≠ ['.'] ∧ '/' ∉ path.chars

/-- On every host the call acts on the entry `path` of the directory, and on the listed name that
`path` is, if it is one. -/
structure StaysRelative (f : Int → Option CString → HostCall) (path : CString) : Prop where
  same : ∀ (ν : Type) (t : Tree ν) (dirfd : Int), dirfd ≠ atFdcwd →
    t.hit (f dirfd (some path)) = t.entry dirfd (some path)
  listed : IsName path → ∀ (ν : Type) (t : Tree ν) (dirfd : Int), dirfd ≠ atFdcwd →
    t.hit (f dirfd (some path)) = some ⟨t.dir dirfd, some path.chars, .plain⟩

/-- The rule that fires on the path, if one does, makes another spelling of the same path of it. -/
def Respells (rules : List Rule) (path : CString) : Prop :=
  ∀ kv, firing rules path = some kv →
    (kv.apply path).chars ≠ [] ∧ spelling (kv.apply path) = spelling path

section Lookup

variable {ν : Type} {t : Tree ν} {dirfd : Int} {path path' : CString}

theorem entry_congr (hPath : path.chars ≠ []) (hPath' : path'.chars ≠ [])
    (hSame : spelling path' = spelling path) :
    t.entry dirfd (some path') = t.entry dirfd (some path) := by
  simp only [Tree.entry, if_neg hPath, if_neg hPath', hSame]

/-- An absolute path ignores the descriptor. -/
theorem entry_absolute (hAbsolute : (spelling path).absolute) (dirfd' : Int) :
    t.entry dirfd (some path) = t.entry dirfd' (some path) := by
  simp only [Tree.entry, hAbsolute, if_true]

theorem spelling_name (hName : IsName path) : spelling path = ⟨false, [path.chars], .plain⟩ := by
  obtain ⟨hNonempty, hDot, hSlash⟩ := hName
  have hSplit : path.chars.splitOn '/' = [path.chars] := by
    refine List.splitOnP_eq_singleton fun c hc => ?_
    rw [beq_eq_false_iff_ne]
    rintro rfl
    exact hSlash hc
  have hHead : path.chars.head? ≠ some '/' := fun hHead => hSlash (List.mem_of_mem_head? hHead)
  have hEnding : (spelling path).ending = .plain := by
    simp only [spelling, hSplit, List.getLast?_singleton]
    split
    · rename_i h
      exact absurd (Option.some.inj h) hNonempty
    · rename_i h
      exact absurd (Option.some.inj h) hDot
    · rfl
  have hNames : (spelling path).names = [path.chars] := by
    simp [spelling, hSplit, hNonempty, hDot]
  have hAbsolute : (spelling path).absolute = false := by
    simpa [spelling] using hHead
  rw [← hEnding, ← hNames, ← hAbsolute]

/-- A listed name is looked up in the directory itself. -/
theorem entry_name (hName : IsName path) :
    t.entry dirfd (some path) = some ⟨t.dir dirfd, some path.chars, .plain⟩ := by
  simp [Tree.entry, if_neg hName.1, spelling_name hName, Tree.walk]

end Lookup

/-! ### A host that tells spellings apart -/

/-- Every name leads on; a directory is the way to it, from the root or from the descriptor's. -/
def ways : Tree (Bool × List CxxString) where
  root := (true, [])
  child d name := if d.1 ∧ name = ['.', '.'] then some (true, []) else some (d.1, d.2 ++ [name])
  root_up := rfl
  dir _ := (false, [])

theorem ways_walk (way names : List CxxString) :
    ways.walk (false, way) names = some (false, way ++ names) := by
  induction names generalizing way with
  | nil => simp [Tree.walk]
  | cons name names ih =>
    have hChild : ways.child (false, way) name = some (false, way ++ [name]) := by simp [ways]
    rw [Tree.walk, hChild, Option.bind_some, ih, List.append_assoc, List.singleton_append]

theorem ways_walk_root {way names : List CxxString} {d : Bool × List CxxString}
    (h : ways.walk (true, way) names = some d) : d.1 = true := by
  induction names generalizing way with
  | nil => exact congrArg Prod.fst (Option.some.inj h).symm
  | cons name names ih =>
    rw [Tree.walk] at h
    obtain ⟨d', hChild, hRest⟩ := Option.bind_eq_some_iff.mp h
    by_cases hUp : name = ['.', '.']
    · obtain rfl : (true, []) = d' := by simpa [ways, hUp] using hChild
      exact ih hRest
    · obtain rfl : (true, way ++ [name]) = d' := by simpa [ways, hUp] using hChild
      exact ih hRest

theorem names_eq {names names' : List CxxString} (hInit : names'.dropLast = names.dropLast)
    (hLast : names'.getLast? = names.getLast?) : names' = names := by
  cases h : names.getLast? with
  | none =>
    rw [List.getLast?_eq_none_iff.mp h]
    exact List.getLast?_eq_none_iff.mp (hLast.trans h)
  | some name =>
    rw [← List.dropLast_append_getLast? name h, ← hInit]
    exact (List.dropLast_append_getLast? name (hLast.trans h)).symm

theorem ways_entry {path : CString} {dirfd : Int} (hNonempty : path.chars ≠ [])
    (hRelative : (spelling path).absolute = false) : ways.entry dirfd (some path) =
      some ⟨(false, (spelling path).names.dropLast), (spelling path).names.getLast?,
        (spelling path).ending⟩ := by
  have hWalk := ways_walk [] (spelling path).names.dropLast
  rw [List.nil_append] at hWalk
  simp only [Tree.entry, if_neg hNonempty, hRelative, Bool.false_eq_true, if_false]
  rw [show ways.dir dirfd = (false, []) from rfl, hWalk, Option.map_some]

/-- Two paths of one entry there, one of them relative, are spelled alike. -/
theorem spelling_of_entry {path path' : CString} {dirfd : Int} (hRelative : IsRelative path)
    (hSame : ways.entry dirfd (some path') = ways.entry dirfd (some path)) :
    path'.chars ≠ [] ∧ spelling path' = spelling path := by
  have hStart : (spelling path).absolute = false := by simpa [spelling] using hRelative.2
  rw [ways_entry hRelative.1 hStart] at hSame
  have hNonempty : path'.chars ≠ [] := by
    intro hEmpty
    simp [Tree.entry, hEmpty] at hSame
  refine ⟨hNonempty, ?_⟩
  cases hAbsolute : (spelling path').absolute with
  | true =>
    simp only [Tree.entry, if_neg hNonempty, hAbsolute, if_true] at hSame
    obtain ⟨d, hWalk, hEntry⟩ := Option.map_eq_some_iff.mp hSame
    have hRoot := ways_walk_root hWalk
    have hDirectory : d = (false, (spelling path).names.dropLast) := congrArg Entry.directory hEntry
    rw [hDirectory] at hRoot
    cases hRoot
  | false =>
    rw [ways_entry hNonempty hAbsolute] at hSame
    obtain ⟨hInit, hLast, hEnding⟩ := Entry.mk.inj (Option.some.inj hSame)
    have hNames := names_eq (Prod.mk.inj hInit).2 hLast
    generalize spelling path' = s', spelling path = s at *
    obtain ⟨absolute', names', ending'⟩ := s'
    obtain ⟨absolute, names, ending⟩ := s
    rw [show absolute' = absolute from hAbsolute.trans hStart.symm, show names' = names from hNames,
      show ending' = ending from hEnding]

section Calls

variable {rules : List Rule} {path : CString} {f : Int → Option CString → HostCall}

/-- A call that hands over the descriptor and the rewritten path. -/
def HandsOver (rules : List Rule) (f : Int → Option CString → HostCall) : Prop :=
  ∀ dirfd pathname, (f dirfd pathname).dirfd = dirfd ∧
    (f dirfd pathname).path = rewritten rules pathname

theorem openat_handsOver {host : FcntlHost} {flags : BitVec 32} {mode : Nat} :
    HandsOver rules fun dirfd pathname => openat rules host dirfd pathname flags mode :=
  fun _ _ => ⟨rfl, rfl⟩

theorem unlinkat_handsOver {flags : BitVec 32} :
    HandsOver rules fun dirfd pathname => unlinkat rules dirfd pathname flags :=
  fun _ _ => ⟨rfl, rfl⟩

theorem HandsOver.hit_eq {ν : Type} {t : Tree ν} {dirfd : Int} (hf : HandsOver rules f) :
    t.hit (f dirfd (some path)) =
      t.entry dirfd (some (match firing rules path with
        | none => path
        | some kv => kv.apply path)) := by
  obtain ⟨hDirfd, hPath⟩ := hf dirfd (some path)
  rw [Tree.hit, hDirfd, hPath, rewritten_eq]
  cases firing rules path <;> rfl

/-- Such a call stays relative exactly where the table respells the path. -/
theorem HandsOver.staysRelative_iff (hf : HandsOver rules f) (hRelative : IsRelative path) :
    StaysRelative f path ↔ Respells rules path := by
  constructor
  · intro hStays kv hFires
    have hSame := hStays.same _ ways 0 (by decide)
    rw [hf.hit_eq, hFires] at hSame
    exact spelling_of_entry hRelative hSame
  · intro hRespells
    have hEntry : ∀ (ν : Type) (t : Tree ν) (dirfd : Int),
        t.hit (f dirfd (some path)) = t.entry dirfd (some path) := by
      intro ν t dirfd
      rw [hf.hit_eq]
      cases hFires : firing rules path with
      | none => rfl
      | some kv =>
        obtain ⟨hNonempty, hSame⟩ := hRespells kv hFires
        exact entry_congr hRelative.1 hNonempty hSame
    refine ⟨fun ν t dirfd _ => hEntry ν t dirfd, fun hName ν t dirfd _ => ?_⟩
    rw [hEntry, entry_name hName]

/-- A rule that makes an absolute path of it takes the descriptor out of play. -/
theorem HandsOver.ignores_descriptor {ν : Type} {t : Tree ν} {kv : Rule} (hf : HandsOver rules f)
    (hFires : firing rules path = some kv) (hAbsolute : (spelling (kv.apply path)).absolute)
    (dirfd dirfd' : Int) : t.hit (f dirfd (some path)) = t.hit (f dirfd' (some path)) := by
  rw [hf.hit_eq, hf.hit_eq, hFires]
  exact entry_absolute hAbsolute dirfd'

end Calls

/-- `openat` and `unlinkat` stay relative to their directory exactly where no rule fires on the
path, or the one that does spells the same path in another way. -/
theorem openat_unlinkat_relative (rules : List Rule) (host : FcntlHost) (path : CString)
    (flags flags' : BitVec 32) (mode : Nat) (hRelative : IsRelative path) :
    (StaysRelative (fun dirfd p => openat rules host dirfd p flags mode) path ∧
      StaysRelative (fun dirfd p => unlinkat rules dirfd p flags') path) ↔
      Respells rules path := by
  rw [openat_handsOver.staysRelative_iff hRelative, unlinkat_handsOver.staysRelative_iff hRelative,
    and_self]

theorem openat_unlinkat_relative_unruled :
    StaysRelative (fun dirfd p =>
        openat [⟨"/data".toList, "/home/x".toList⟩] linuxFcntl dirfd p 0 0) relativePath ∧
      StaysRelative (fun dirfd p =>
        unlinkat [⟨"/data".toList, "/home/x".toList⟩] dirfd p 0) relativePath := by
  refine (openat_unlinkat_relative _ _ relativePath 0 0 0 (by decide)).mpr fun kv hFires => ?_
  have hNone : firing [⟨"/data".toList, "/home/x".toList⟩] relativePath = none := by decide
  cases hNone.symm.trans hFires

/-- With a rule `"."`, whatever directory the descriptor is for, the entry is in another one. -/
theorem unlinkat_elsewhere :
    IsRelative relativePath ∧
      ¬(StaysRelative (fun dirfd p =>
          openat [⟨['.'], "/home/x/".toList⟩] linuxFcntl dirfd p 0 0) relativePath ∧
        StaysRelative (fun dirfd p =>
          unlinkat [⟨['.'], "/home/x/".toList⟩] dirfd p 0) relativePath) := by
  refine ⟨by decide, fun hStays => ?_⟩
  have hSame := hStays.2.same _ ways 0 (by decide)
  have hCall : unlinkat [⟨['.'], "/home/x/".toList⟩] 0 (some relativePath) 0 =
      ⟨0, some ⟨"/home/x/a".toList, by decide⟩, 0, none⟩ := by decide
  rw [hCall] at hSame
  have hPath := (spelling_of_entry (by decide) hSame).2
  exact absurd hPath (by decide)

end LibcShim.Path
