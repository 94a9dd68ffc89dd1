import LibcShim.Errno
import LibcShim.Kit.Bytes
import LibcShim.Kit.Objects

/-! Directory streams: a `DIR` of the guest wraps one of the host and keeps the entry last read.
What the host has read but not yet given out is the stream's own; the position in the directory
belongs to the open file description, which streams can share. -/

namespace LibcShim.Directory

open Kit

structure HostDirent where
  ino : BitVec 64
  off : Int
  type : UInt8
  name : Bytes

/-- The guest's `dirent`. -/
structure Dirent where
  ino : BitVec 64
  off : Int
  reclen : Nat
  type : UInt8
  name : Bytes

/-- What the host does with one of its streams, as the directories are at the time; `τ` is the state
of the stream and of the open file description below it. -/
structure Host (τ : Type*) where
  readdir : τ → Option HostDirent × τ
  rewinddir : τ → τ
  seekdir : τ → Int → τ
  telldir : τ → Int
  dirfd : τ → Int
  dup : Int → Int

structure Platform where
  os : Os
  /-- 32-bit x86, where a `uint64_t` is aligned to 4 bytes only. -/
  i386 : Bool

/-- `{dir, {}}` starts with this entry. -/
def Dirent.blank : Dirent := ⟨0, 0, 0, 0, Bytes.zero⟩

def nameSize : Nat := 256

def alignofDirent (p : Platform) : Nat := if p.i386 then 4 else 8

/-- `d_ino`, `d_off`, `d_reclen`, `d_type` and `d_name`, and padding. -/
def sizeofDirent (p : Platform) : Nat :=
  let a := alignofDirent p
  (8 + 8 + 2 + 1 + nameSize + (a - 1)) / a * a

/-- What `readdir` writes into `ent`; `stream` is the host's after the read. -/
def fillEntry {τ : Type*} (p : Platform) (host : Host τ) (hent : HostDirent) (stream : τ)
    (ent : Dirent) : Dirent where
  ino := hent.ino
  off := match p.os with
    | .linux | .freebsd => hent.off
    | .apple => host.telldir stream
  reclen := sizeofDirent p
  type := hent.type
  name := (ent.name.strncpy 0 hent.name 0 nameSize).store8 (nameSize - 1) 0

/-- What a call on a stream returns to the guest. -/
inductive Answer
  | entry (ent : Option Dirent)
  | position (pos : Int)
  | fd (fd : Int)
  | done

inductive Op
  | readdir
  | rewinddir
  | seekdir (pos : Int)
  | telldir
  | dirfd

section Wrapped

variable {τ : Type*} (p : Platform) (host : Host τ)

/-- `entry` points to `current`. -/
def readdir (stream : τ) (current : Dirent) : Answer × τ × Dirent :=
  match host.readdir stream with
  | (none, stream) => (.entry none, stream, current)
  | (some hent, stream) =>
    let ent := fillEntry p host hent stream current
    (.entry (some ent), stream, ent)

def rewinddir (stream : τ) (current : Dirent) : Answer × τ × Dirent :=
  (.done, host.rewinddir stream, current)

def seekdir (pos : Int) (stream : τ) (current : Dirent) : Answer × τ × Dirent :=
  (.done, host.seekdir stream pos, current)

def telldir (stream : τ) (current : Dirent) : Answer × τ × Dirent :=
  (.position (host.telldir stream), stream, current)

/-- macOS closes the stream's own descriptor with the stream. -/
def dirfd (stream : τ) (current : Dirent) : Answer × τ × Dirent :=
  let fd := host.dirfd stream
  match p.os with
  | .apple => (.fd (if fd ≠ -1 then host.dup fd else fd), stream, current)
  | .linux | .freebsd => (.fd fd, stream, current)

def Op.run : Op → τ → Dirent → Answer × τ × Dirent
  | .readdir => Directory.readdir p host
  | .rewinddir => Directory.rewinddir host
  | .seekdir pos => Directory.seekdir host pos
  | .telldir => Directory.telldir host
  | .dirfd => Directory.dirfd p host

end Wrapped

/-- The guest's `DIR`. -/
structure Dir where
  wrapped : Nat
  current : Dirent

/-- A stream of the host, on the open file description of this number. -/
structure Stream (σ : Type*) where
  buffer : σ
  description : Nat

/-- The guest's objects, the host's streams and the open file descriptions; `answers` is what the
guest was told so far, and about which `DIR`. -/
structure Dirs (σ δ : Type*) where
  dirs : Heap Dir
  streams : Heap (Stream σ)
  descriptions : Nat → δ
  answers : List (Nat × Answer)

inductive Call (σ δ : Type*)
  /-- `opened` is the host's stream, if there is one. -/
  | opendir (opened : Option (Stream σ))
  | fdopendir (opened : Option (Stream σ))
  | closedir (dir : Option Nat)
  | on (dir : Nat) (op : Op) (host : Host (σ × δ))
  /-- A stream of the host that the guest has no part in. -/
  | other (opened : Stream σ)

section Calls

variable {σ δ : Type*}

def wrapDir (s : Dirs σ δ) : Option (Stream σ) → Dirs σ δ
  | none => s
  | some opened =>
    { s with streams := s.streams.alloc opened
             dirs := s.dirs.alloc ⟨s.streams.length, .blank⟩ }

/-- `none` is an access to an object that is gone. -/
def closedir (s : Dirs σ δ) : Option Nat → Option (Dirs σ δ)
  | none => some s
  | some i =>
    (s.dirs.load i).bind fun dir => (s.streams.load dir.wrapped).map fun _ =>
      { s with streams := s.streams.free dir.wrapped, dirs := s.dirs.free i }

def onStream (run : σ × δ → Dirent → Answer × (σ × δ) × Dirent) (s : Dirs σ δ) (i : Nat) :
    Option (Dirs σ δ) :=
  (s.dirs.load i).bind fun dir => (s.streams.load dir.wrapped).map fun stream =>
    let r := run (stream.buffer, s.descriptions stream.description) dir.current
    { dirs := s.dirs.store i { dir with current := r.2.2 }
      streams := s.streams.store dir.wrapped { stream with buffer := r.2.1.1 }
      descriptions := Function.update s.descriptions stream.description r.2.1.2
      answers := s.answers ++ [(i, r.1)] }

def step (p : Platform) (s : Dirs σ δ) : Call σ δ → Option (Dirs σ δ)
  | .opendir opened | .fdopendir opened => some (wrapDir s opened)
  | .closedir dir => closedir s dir
  | .on i op host => onStream (op.run p host) s i
  | .other opened => some { s with streams := s.streams.alloc opened }

/-- `initial` is what each description is when a stream is opened on it. -/
def Dirs.start (initial : Nat → δ) : Dirs σ δ := ⟨[], [], initial, []⟩

/-- The description of the stream that the call opens. -/
def Call.description : Call σ δ → Option Nat
  | .opendir opened | .fdopendir opened => opened.map Stream.description
  | .other opened => some opened.description
  | .closedir _ | .on _ _ _ => none

/-- No two streams share a description, as they do when one is opened on the `dirfd` of the other,
or both on descriptors that `dup` has made of one. -/
def OwnDescriptions (tr : List (Call σ δ)) : Prop := (tr.filterMap Call.description).Nodup

end Calls

/-! ### One stream alone -/

/-- A stream of the host, its description, its last entry and its answers, with nothing else
around. -/
structure Listing (σ δ : Type*) where
  stream : Stream σ
  position : δ
  current : Dirent
  answers : List Answer

section Simulation

variable {σ δ : Type*} {p : Platform} {initial : Nat → δ}

def Listing.opened (initial : Nat → δ) (stream : Stream σ) : Listing σ δ :=
  ⟨stream, initial stream.description, .blank, []⟩

def Listing.state (l : Listing σ δ) : σ × δ := (l.stream.buffer, l.position)

/-- An operation, and the host as it is at the time. -/
abbrev Act (σ δ : Type*) := Op × Host (σ × δ)

def Listing.act (p : Platform) (l : Listing σ δ) (a : Act σ δ) : Listing σ δ :=
  let r := a.1.run p a.2 l.state l.current
  ⟨{ l.stream with buffer := r.2.1.1 }, r.2.1.2, r.2.2, l.answers ++ [r.1]⟩

/-- The use of a `DIR` that a call is. -/
def Call.use (initial : Nat → δ) : Call σ δ → Option (Use (Listing σ δ) (Act σ δ))
  | .opendir opened | .fdopendir opened => opened.map fun stream => .make (.opened initial stream)
  | .closedir dir => dir.map .drop
  | .on i op host => some (.use i (op, host))
  | .other _ => none

def Dirs.answersOf (s : Dirs σ δ) (i : Nat) : List Answer :=
  s.answers.filterMap fun a => if a.1 = i then some a.2 else none

/-- The description of each stream, in the order in which they were opened. -/
def Dirs.held (s : Dirs σ δ) : List Nat := s.streams.map fun c => c.value.description

theorem Dirs.held_inj {s : Dirs σ δ} (hOwn : s.held.Nodup) {w w' : Nat} {c c' : Cell (Stream σ)}
    (hc : s.streams[w]? = some c) (hc' : s.streams[w']? = some c')
    (hEq : c.value.description = c'.value.description) : w = w' := by
  have hw : w < s.held.length := by
    simpa [Dirs.held] using (List.getElem?_eq_some_iff.mp hc).1
  refine (List.getElem?_inj hw hOwn).mp ?_
  simp only [Dirs.held, List.getElem?_map, hc, hc', Option.map_some, hEq]

theorem Dirs.load_held {s : Dirs σ δ} {w : Nat} {stream : Stream σ}
    (hLoad : s.streams.load w = some stream) : stream.description ∈ s.held :=
  List.mem_map.mpr ⟨_, Heap.load_mem hLoad, rfl⟩

theorem step_held {s s' : Dirs σ δ} {call : Call σ δ} (hStep : step p s call = some s') :
    s'.held = s.held ++ call.description.toList := by
  have hOpen : ∀ opened : Option (Stream σ),
      (wrapDir s opened).held = s.held ++ (opened.map Stream.description).toList := by
    rintro (_ | stream)
    · exact (List.append_nil _).symm
    · exact Heap.map_alloc _ _ _
  cases call with
  | opendir opened | fdopendir opened =>
    obtain rfl := Option.some.inj hStep
    exact hOpen opened
  | closedir dir =>
    cases dir with
    | none =>
      obtain rfl : s = s' := Option.some.inj hStep
      exact (List.append_nil _).symm
    | some i =>
      obtain ⟨dir, -, hRest⟩ := Option.bind_eq_some_iff.mp hStep
      obtain ⟨-, -, rfl⟩ := Option.map_eq_some_iff.mp hRest
      exact (Heap.map_free _ _ _).trans (List.append_nil _).symm
  | on i op host =>
    obtain ⟨dir, -, hRest⟩ := Option.bind_eq_some_iff.mp hStep
    obtain ⟨stream, hLoad, rfl⟩ := Option.map_eq_some_iff.mp hRest
    refine (Heap.map_store (f := Stream.description) hLoad ?_).trans (List.append_nil _).symm
    rfl
  | other opened =>
    obtain rfl := Option.some.inj hStep
    exact Heap.map_alloc _ _ _

theorem run_held {tr : List (Call σ δ)} {s : Dirs σ δ}
    (hRun : exec (step p) (.start initial) tr = some s) :
    s.held = tr.filterMap Call.description := by
  refine exec_history (P := fun tr s => s.held = tr.filterMap Call.description) rfl ?_ hRun
  rintro tr s call s' - ih hStep
  rw [step_held hStep, ih, List.filterMap_append]
  cases hCall : call.description <;> simp [hCall]

/-- Each `DIR` and the stream that it wraps make up a listing; no two wrap the same one. -/
structure Wraps (initial : Nat → δ) (s : Dirs σ δ) (h : Heap (Listing σ δ)) : Prop where
  length : s.dirs.length = h.length
  dir : ∀ (i : Nat) l frees, h[i]? = some ⟨l, frees⟩ →
    ∃ w, s.dirs[i]? = some ⟨⟨w, l.current⟩, frees⟩ ∧ s.streams[w]? = some ⟨l.stream, frees⟩ ∧
      s.descriptions l.stream.description = l.position ∧ s.answersOf i = l.answers
  apart : ∀ (i j : Nat) (c c' : Cell Dir), s.dirs[i]? = some c → s.dirs[j]? = some c' →
    c.value.wrapped = c'.value.wrapped → i = j
  asked : ∀ a ∈ s.answers, a.1 < s.dirs.length
  fresh : ∀ d, d ∉ s.held → s.descriptions d = initial d

theorem Wraps.loaded {s : Dirs σ δ} {h : Heap (Listing σ δ)} (hWraps : Wraps initial s h) {i : Nat}
    {dir : Dir} (hLoad : s.dirs.load i = some dir) :
    ∃ l, h.load i = some l ∧ dir.current = l.current ∧ s.streams.load dir.wrapped = some l.stream ∧
      s.descriptions l.stream.description = l.position ∧ s.answersOf i = l.answers := by
  have hi := Heap.load_lt hLoad
  rw [hWraps.length] at hi
  obtain ⟨⟨l, frees⟩, hCell⟩ : ∃ c, h[i]? = some c := ⟨_, List.getElem?_eq_getElem hi⟩
  obtain ⟨w, hDir, hStream, hRest⟩ := hWraps.dir i l frees hCell
  rw [Heap.load_eq.mp hLoad] at hDir
  obtain ⟨rfl, rfl⟩ : dir = ⟨w, l.current⟩ ∧ 0 = frees := Cell.mk.inj (Option.some.inj hDir)
  exact ⟨l, Heap.load_eq.mpr hCell, rfl, Heap.load_eq.mpr hStream, hRest⟩

theorem Wraps.wrapped_lt {s : Dirs σ δ} {h : Heap (Listing σ δ)} (hWraps : Wraps initial s h)
    {i : Nat} {c : Cell Dir} (hc : s.dirs[i]? = some c) : c.value.wrapped < s.streams.length := by
  have hi := (List.getElem?_eq_some_iff.mp hc).1
  rw [hWraps.length] at hi
  obtain ⟨w, hDir, hStream, -⟩ := hWraps.dir i _ _ (List.getElem?_eq_getElem hi)
  obtain rfl := Option.some.inj (hc.symm.trans hDir)
  exact (List.getElem?_eq_some_iff.mp hStream).1

theorem wrapDir_wraps {s : Dirs σ δ} {h : Heap (Listing σ δ)} (hWraps : Wraps initial s h)
    {stream : Stream σ} (hNew : stream.description ∉ s.held) :
    Wraps initial (wrapDir s (some stream)) (h.alloc (.opened initial stream)) where
  length := by simp [wrapDir, Heap.length_alloc, hWraps.length]
  dir i l frees hCell := by
    rcases Heap.getElem?_alloc.mp hCell with hOld | ⟨rfl, hMade⟩
    · obtain ⟨w, hDir, hStream, hRest⟩ := hWraps.dir i l frees hOld
      exact ⟨w, Heap.getElem?_alloc_old hDir, Heap.getElem?_alloc_old hStream, hRest⟩
    · obtain ⟨rfl, rfl⟩ := Cell.mk.inj hMade
      refine ⟨s.streams.length, Heap.getElem?_alloc.mpr (Or.inr ⟨hWraps.length.symm, rfl⟩),
        Heap.getElem?_alloc.mpr (Or.inr ⟨rfl, rfl⟩), hWraps.fresh _ hNew, ?_⟩
      refine List.filterMap_eq_nil_iff.mpr fun a ha => if_neg fun hEq => ?_
      have hAsked := hWraps.asked a ha
      rw [hWraps.length] at hAsked
      omega
  apart i j c c' hc hc' hEq := by
    rcases Heap.getElem?_alloc.mp hc with hOld | ⟨rfl, rfl⟩
    · have hLt := hWraps.wrapped_lt hOld
      rcases Heap.getElem?_alloc.mp hc' with hOld' | ⟨rfl, rfl⟩
      · exact hWraps.apart i j c c' hOld hOld' hEq
      · exact absurd hEq (Nat.ne_of_lt hLt)
    · rcases Heap.getElem?_alloc.mp hc' with hOld' | ⟨rfl, rfl⟩
      · exact absurd hEq.symm (Nat.ne_of_lt (hWraps.wrapped_lt hOld'))
      · rfl
  asked a ha := by
    have hOld := hWraps.asked a ha
    simp only [wrapDir, Heap.length_alloc]
    omega
  fresh d hd := by
    refine hWraps.fresh d fun hHeld => hd ?_
    rw [Dirs.held, wrapDir, Heap.map_alloc]
    exact List.mem_append_left _ hHeld

theorem closedir_wraps {s s' : Dirs σ δ} {h : Heap (Listing σ δ)} (hWraps : Wraps initial s h)
    {i : Nat} (hClose : closedir s (some i) = some s') :
    ∃ h', objectsStep (Listing.act p) h (.drop i) = some h' ∧ Wraps initial s' h' := by
  have hHeld : s'.held = s.held := by
    have hStep : step p s (.closedir (some i)) = some s' := hClose
    simpa [Call.description] using step_held hStep
  obtain ⟨dir, hLoad, hRest⟩ := Option.bind_eq_some_iff.mp hClose
  obtain ⟨stream, hStream, rfl⟩ := Option.map_eq_some_iff.mp hRest
  obtain ⟨l, hListing, -, -, -, -⟩ := hWraps.loaded hLoad
  refine ⟨h.free i, by simp [objectsStep, hListing], by simp [hWraps.length], ?_, ?_, ?_, ?_⟩
  · intro j m frees hCell
    obtain ⟨⟨m', frees'⟩, hOld, hEq⟩ := Heap.getElem?_free.mp hCell
    obtain ⟨rfl, rfl⟩ := Cell.mk.inj hEq
    obtain ⟨w, hDir, hStream', hRest⟩ := hWraps.dir j _ _ hOld
    have hSame : w = dir.wrapped ↔ j = i := by
      constructor
      · rintro rfl
        exact hWraps.apart j i _ _ hDir (Heap.load_eq.mp hLoad) rfl
      · rintro rfl
        have hCells := Option.some.inj (hDir.symm.trans (Heap.load_eq.mp hLoad))
        exact congrArg (fun c => c.value.wrapped) hCells
    refine ⟨w, Heap.getElem?_free.mpr ⟨_, hDir, rfl⟩, Heap.getElem?_free.mpr ⟨_, hStream', ?_⟩,
      hRest⟩
    simp only [hSame]
  · intro j k c c' hc hc' hEq
    obtain ⟨d, hd, rfl⟩ := Heap.getElem?_free.mp hc
    obtain ⟨d', hd', rfl⟩ := Heap.getElem?_free.mp hc'
    exact hWraps.apart j k d d' hd hd' hEq
  · intro a ha
    simpa using hWraps.asked a ha
  · intro d hd
    rw [hHeld] at hd
    exact hWraps.fresh d hd

theorem answersOf_snoc {s : Dirs σ δ} {i j : Nat} {a : Answer} {dirs : Heap Dir}
    {streams : Heap (Stream σ)} {descriptions : Nat → δ} :
    Dirs.answersOf ⟨dirs, streams, descriptions, s.answers ++ [(i, a)]⟩ j =
      s.answersOf j ++ if i = j then [a] else [] := by
  unfold Dirs.answersOf
  rw [List.filterMap_append]
  split <;> simp [*]

theorem onStream_wraps {s s' : Dirs σ δ} {h : Heap (Listing σ δ)} (hWraps : Wraps initial s h)
    (hOwn : s.held.Nodup) {i : Nat} {op : Op} {host : Host (σ × δ)}
    (hOn : onStream (op.run p host) s i = some s') :
    ∃ h', objectsStep (Listing.act p) h (.use i (op, host)) = some h' ∧ Wraps initial s' h' := by
  have hHeld : s'.held = s.held := by
    have hStep : step p s (.on i op host) = some s' := hOn
    simpa [Call.description] using step_held hStep
  obtain ⟨dir, hLoad, hRest⟩ := Option.bind_eq_some_iff.mp hOn
  obtain ⟨stream, hStream, rfl⟩ := Option.map_eq_some_iff.mp hRest
  obtain ⟨l, hListing, hCurrent, hLoaded, hPosition, hTold⟩ := hWraps.loaded hLoad
  obtain rfl : stream = l.stream := Option.some.inj (hStream.symm.trans hLoaded)
  refine ⟨h.store i (l.act p (op, host)), by simp [objectsStep, hListing], by simp [hWraps.length],
    ?_, ?_, ?_, ?_⟩
  · intro j m frees hCell
    obtain ⟨⟨m', frees'⟩, hOld, hEq⟩ := Heap.getElem?_store.mp hCell
    obtain ⟨rfl, rfl⟩ := Cell.mk.inj hEq
    obtain ⟨w, hDir, hStream', hPosition', hAnswers⟩ := hWraps.dir j _ _ hOld
    have hSelf : s.dirs[i]? = some ⟨dir, 0⟩ := Heap.load_eq.mp hLoad
    by_cases hij : j = i
    · subst hij
      have hCells := Option.some.inj (hOld.symm.trans (Heap.load_eq.mp hListing))
      obtain ⟨rfl, rfl⟩ := Cell.mk.inj hCells
      refine ⟨dir.wrapped, Heap.getElem?_store.mpr ⟨_, hSelf, ?_⟩,
        Heap.getElem?_store.mpr ⟨_, Heap.load_eq.mp hStream, ?_⟩, ?_, ?_⟩
      · simp [Listing.act, Listing.state, hCurrent, hPosition]
      · simp [Listing.act, Listing.state, hCurrent, hPosition]
      · simp [Listing.act, Listing.state, hCurrent, hPosition]
      · rw [answersOf_snoc, if_pos rfl, hTold]
        simp [Listing.act, Listing.state, hCurrent, hPosition]
    · have hOther : w ≠ dir.wrapped := fun hEq => hij (hWraps.apart j i _ _ hDir hSelf hEq)
      -- the only place where a description that is shared would be seen
      have hApart : m'.stream.description ≠ l.stream.description := fun hEq =>
        hOther (Dirs.held_inj hOwn hStream' (Heap.load_eq.mp hStream) hEq)
      refine ⟨w, Heap.getElem?_store.mpr ⟨_, hDir, by simp [hij]⟩,
        Heap.getElem?_store.mpr ⟨_, hStream', by simp [hOther, hij]⟩, ?_, ?_⟩
      · simpa [hij, hApart] using hPosition'
      · rw [answersOf_snoc, if_neg (Ne.symm hij)]
        simpa [hij] using hAnswers
  · intro j k c c' hc hc' hEq
    obtain ⟨d, hd, rfl⟩ := Heap.getElem?_store.mp hc
    obtain ⟨d', hd', rfl⟩ := Heap.getElem?_store.mp hc'
    have hKept : ∀ (m : Nat) (d : Cell Dir) (current : Dirent), s.dirs[m]? = some d →
        (if m = i then ⟨dir.wrapped, current⟩ else d.value).wrapped = d.value.wrapped := by
      intro m d current hd
      split
      · rename_i hmi
        subst hmi
        obtain rfl := Option.some.inj (hd.symm.trans (Heap.load_eq.mp hLoad))
        rfl
      · rfl
    refine hWraps.apart j k d d' hd hd' ?_
    rw [← hKept j d _ hd, ← hKept k d' _ hd']
    exact hEq
  · intro a ha
    rcases List.mem_append.mp ha with hOld | hNew
    · simpa using hWraps.asked a hOld
    · obtain rfl : a = _ := List.mem_singleton.mp hNew
      simpa using Heap.load_lt hLoad
  · intro d hd
    rw [hHeld] at hd
    have hNe : d ≠ l.stream.description := fun hEq => hd (hEq ▸ Dirs.load_held hStream)
    simpa [hNe] using hWraps.fresh d hd

/-- The uses of the run `tr`, in order. -/
def listingUses (initial : Nat → δ) (tr : List (Call σ δ)) : List (Use (Listing σ δ) (Act σ δ)) :=
  tr.filterMap (Call.use initial)

theorem listingUses_snoc {tr : List (Call σ δ)} {call : Call σ δ} :
    listingUses initial (tr ++ [call]) = listingUses initial tr ++ (call.use initial).toList := by
  rw [listingUses, listingUses, List.filterMap_append]
  cases hUse : call.use initial <;> simp [hUse]

theorem step_wraps {s s' : Dirs σ δ} {h : Heap (Listing σ δ)} {tr : List (Call σ δ)}
    {call : Call σ δ} (hWraps : Wraps initial s h) (hOwn : s'.held.Nodup)
    (hUses : exec (objectsStep (Listing.act p)) [] (listingUses initial tr) = some h)
    (hStep : step p s call = some s') :
    ∃ h', exec (objectsStep (Listing.act p)) [] (listingUses initial (tr ++ [call])) = some h' ∧
      Wraps initial s' h' := by
  rw [step_held hStep, List.nodup_append] at hOwn
  obtain ⟨hOld, -, hNew⟩ := hOwn
  have hUse : ∀ u h', call.use initial = some u → objectsStep (Listing.act p) h u = some h' →
      exec (objectsStep (Listing.act p)) [] (listingUses initial (tr ++ [call])) = some h' := by
    intro u h' hu hNext
    rw [listingUses_snoc, hu]
    exact exec_snoc.mpr ⟨h, hUses, hNext⟩
  have hNone : call.use initial = none →
      exec (objectsStep (Listing.act p)) [] (listingUses initial (tr ++ [call])) = some h := by
    intro hu
    rw [listingUses_snoc, hu]
    simpa using hUses
  have hOpen : ∀ opened : Option (Stream σ), call.description = opened.map Stream.description →
      call.use initial = opened.map (fun stream => .make (.opened initial stream)) →
      wrapDir s opened = s' → ∃ h', exec (objectsStep (Listing.act p)) []
        (listingUses initial (tr ++ [call])) = some h' ∧ Wraps initial s' h' := by
    rintro (_ | stream) hd hu rfl
    · exact ⟨h, hNone hu, hWraps⟩
    · refine ⟨_, hUse _ _ hu rfl, wrapDir_wraps hWraps fun hHeld => ?_⟩
      rw [hd] at hNew
      exact hNew _ hHeld _ (by simp) rfl
  cases call with
  | opendir opened | fdopendir opened => exact hOpen opened rfl rfl (Option.some.inj hStep)
  | closedir dir =>
    cases dir with
    | none =>
      obtain rfl : s = s' := Option.some.inj hStep
      exact ⟨h, hNone rfl, hWraps⟩
    | some i =>
      obtain ⟨h', hNext, hWraps'⟩ := @closedir_wraps σ δ p initial s s' h hWraps i hStep
      exact ⟨h', hUse _ _ rfl hNext, hWraps'⟩
  | on i op host =>
    obtain ⟨h', hNext, hWraps'⟩ := onStream_wraps hWraps hOld hStep
    exact ⟨h', hUse _ _ rfl hNext, hWraps'⟩
  | other opened =>
    obtain rfl := Option.some.inj hStep
    refine ⟨h, hNone rfl, hWraps.length, fun i l frees hCell => ?_, hWraps.apart, hWraps.asked,
      fun d hd => hWraps.fresh d fun hHeld => hd ?_⟩
    · obtain ⟨w, hDir, hStream, hRest⟩ := hWraps.dir i l frees hCell
      exact ⟨w, hDir, Heap.getElem?_alloc_old hStream, hRest⟩
    · rw [Dirs.held, Heap.map_alloc]
      exact List.mem_append_left _ hHeld

theorem run_wraps {tr : List (Call σ δ)} {s : Dirs σ δ} (hOwn : OwnDescriptions tr)
    (hRun : exec (step p) (.start initial) tr = some s) :
    ∃ h, exec (objectsStep (Listing.act p)) [] (listingUses initial tr) = some h ∧
      Wraps initial s h := by
  refine exec_history (P := fun tr s => OwnDescriptions tr → ∃ h,
    exec (objectsStep (Listing.act p)) [] (listingUses initial tr) = some h ∧ Wraps initial s h)
    (fun _ => ?_) ?_ hRun hOwn
  · refine ⟨[], rfl, rfl, ?_, ?_, ?_, fun d _ => rfl⟩ <;> simp [Dirs.start]
  · intro tr s call s' hPrefix ih hStep hOwn
    have hNext := run_held (exec_snoc.mpr ⟨s, hPrefix, hStep⟩)
    rw [OwnDescriptions, ← hNext] at hOwn
    have hBefore : OwnDescriptions tr := by
      rw [step_held hStep, run_held hPrefix] at hOwn
      exact (List.nodup_append.mp hOwn).1
    obtain ⟨h, hUses, hWraps⟩ := ih hBefore
    exact step_wraps hWraps hOwn hUses hStep

end Simulation

/-! ### What the guest is told -/

section Told

variable {σ δ τ : Type*}

def hostAct (stream : τ) : Op × Host τ → τ
  | (.readdir, host) => (host.readdir stream).2
  | (.rewinddir, host) => host.rewinddir stream
  | (.seekdir pos, host) => host.seekdir stream pos
  | (.telldir, _) | (.dirfd, _) => stream

/-- The host's stream before each of the calls. -/
def hostSteps (stream : τ) : List (Op × Host τ) → List (τ × Op × Host τ)
  | [] => []
  | a :: acts => (stream, a) :: hostSteps (hostAct stream a) acts

/-- The name is cut to 255 bytes, and what follows it is cleared. -/
structure Shows (p : Platform) (host : Host τ) (hent : HostDirent) (after : τ) (ent : Dirent) :
    Prop where
  ino : ent.ino = hent.ino
  type : ent.type = hent.type
  reclen : ent.reclen = if p.i386 then 276 else 280
  off : ent.off = if p.os = .apple then host.telldir after else hent.off
  name : ∀ j < 256, ent.name j = ((hent.name.cstring 0 256).take 255).getD j 0

/-- The answer to a call is the host's, at this state of the stream. -/
def Told (p : Platform) : τ × Op × Host τ → Answer → Prop
  | (stream, .readdir, host), .entry none => (host.readdir stream).1 = none
  | (stream, .readdir, host), .entry (some ent) => ∃ hent, (host.readdir stream).1 = some hent ∧
      Shows p host hent (host.readdir stream).2 ent
  | (_, .rewinddir, _), .done => True
  | (_, .seekdir _, _), .done => True
  | (stream, .telldir, host), .position pos => pos = host.telldir stream
  | (stream, .dirfd, host), .fd fd => fd = if p.os = .apple ∧ host.dirfd stream ≠ -1
      then host.dup (host.dirfd stream) else host.dirfd stream
  | _, _ => False

variable {p : Platform} {host : Host τ}

theorem fillEntry_shows (hent : HostDirent) (after : τ) (ent : Dirent) :
    Shows p host hent after (fillEntry p host hent after ent) where
  ino := rfl
  type := rfl
  reclen := by
    show sizeofDirent p = _
    cases hArch : p.i386 <;> simp [sizeofDirent, alignofDirent, nameSize, hArch]
  off := by
    simp only [fillEntry]
    cases p.os <;> rfl
  name j hj := by
    by_cases hLast : j = 255
    · subst hLast
      have hShort : ((hent.name.cstring 0 256).take 255).length ≤ 255 := by
        rw [List.length_take]
        omega
      rw [List.getD_eq_getElem?_getD, List.getElem?_eq_none hShort]
      rfl
    · have hCopied : (ent.name.strncpy 0 hent.name 0 256) j = (hent.name.cstring 0 256).getD j 0 :=
        Bytes.strncpy_inside (by omega)
      have hTake : ((hent.name.cstring 0 256).take 255)[j]? = (hent.name.cstring 0 256)[j]? :=
        List.getElem?_take_of_lt (by omega)
      rw [List.getD_eq_getElem?_getD, hTake, ← List.getD_eq_getElem?_getD, ← hCopied]
      exact Bytes.store8_other hLast

theorem run_told (p : Platform) (host : Host τ) (op : Op) (stream : τ) (current : Dirent) :
    (op.run p host stream current).2.1 = hostAct stream (op, host) ∧
      Told p (stream, op, host) (op.run p host stream current).1 := by
  cases op with
  | readdir =>
    rcases hRead : host.readdir stream with ⟨read, after⟩
    cases read with
    | none =>
      have hRun : Op.readdir.run p host stream current = (.entry none, after, current) := by
        simp only [Op.run, Directory.readdir, hRead]
      rw [hRun]
      exact ⟨(congrArg Prod.snd hRead).symm, congrArg Prod.fst hRead⟩
    | some hent =>
      have hRun : Op.readdir.run p host stream current =
          (.entry (some (fillEntry p host hent after current)), after,
            fillEntry p host hent after current) := by
        simp only [Op.run, Directory.readdir, hRead]
      rw [hRun]
      refine ⟨(congrArg Prod.snd hRead).symm, hent, congrArg Prod.fst hRead, ?_⟩
      rw [hRead]
      exact fillEntry_shows hent after current
  | rewinddir | seekdir => exact ⟨rfl, trivial⟩
  | telldir => exact ⟨rfl, rfl⟩
  | dirfd => cases hOs : p.os <;> simp [Op.run, Directory.dirfd, hostAct, Told, hOs]

/-- A listing goes through the states of the host's stream, and is told what they say. -/
theorem listing_told (p : Platform) (acts : List (Act σ δ)) (l : Listing σ δ) :
    (acts.foldl (Listing.act p) l).state = acts.foldl hostAct l.state ∧
      (acts.foldl (Listing.act p) l).stream.description = l.stream.description ∧
      ∃ more, (acts.foldl (Listing.act p) l).answers = l.answers ++ more ∧
        List.Forall₂ (Told p) (hostSteps l.state acts) more := by
  induction acts generalizing l with
  | nil => exact ⟨rfl, rfl, [], (List.append_nil _).symm, .nil⟩
  | cons a acts ih =>
    obtain ⟨hState, hTold⟩ := run_told p a.2 a.1 l.state l.current
    obtain ⟨hRest, hSame, more, hAnswers, hMore⟩ := ih (l.act p a)
    have hNext : (l.act p a).state = hostAct l.state a := hState
    rw [hNext] at hRest hMore
    refine ⟨hRest, hSame, (a.1.run p a.2 l.state l.current).1 :: more, ?_, .cons hTold hMore⟩
    rw [List.foldl_cons, hAnswers]
    simp [Listing.act]

end Told

/-! ### Whole runs -/

section Runs

variable {σ δ : Type*} {p : Platform} {initial : Nat → δ} {tr : List (Call σ δ)} {s : Dirs σ δ}

/-- The streams that the guest has opened, in order; the `DIR` of the stream `i` is the object
`i`. -/
def opened (tr : List (Call σ δ)) : List (Stream σ) :=
  tr.filterMap fun | .opendir stream | .fdopendir stream => stream | _ => none

def actsOn (i : Nat) (tr : List (Call σ δ)) : List (Act σ δ) :=
  tr.filterMap fun | .on j op host => if j = i then some (op, host) else none | _ => none

def closes (i : Nat) (tr : List (Call σ δ)) : Nat :=
  tr.countP fun | .closedir dir => dir == some i | _ => false

theorem made_listingUses :
    made (listingUses initial tr) = (opened tr).map (Listing.opened initial) := by
  induction tr using List.reverseRecOn with
  | nil => rfl
  | append_singleton tr call ih =>
    have hOpened : opened (tr ++ [call]) = opened tr ++ opened [call] := List.filterMap_append
    rw [listingUses_snoc, hOpened, List.map_append, ← ih]
    cases call with
    | opendir stream | fdopendir stream => cases stream <;> simp [Call.use, opened]
    | closedir dir => cases dir <;> simp [Call.use, opened]
    | on i op host => simp [Call.use, opened]
    | other stream => simp [Call.use, opened]

theorem uses_listingUses (i : Nat) : uses i (listingUses initial tr) = actsOn i tr := by
  induction tr using List.reverseRecOn with
  | nil => rfl
  | append_singleton tr call ih =>
    have hActs : actsOn i (tr ++ [call]) = actsOn i tr ++ actsOn i [call] := List.filterMap_append
    rw [listingUses_snoc, hActs, ← ih]
    cases call with
    | opendir stream | fdopendir stream => cases stream <;> simp [Call.use, actsOn]
    | closedir dir => cases dir <;> simp [Call.use, actsOn]
    | on j op host =>
      rw [Call.use, Option.toList_some, uses_use]
      split <;> simp [actsOn, *]
    | other stream => simp [Call.use, actsOn]

theorem drops_listingUses (i : Nat) : drops i (listingUses initial tr) = closes i tr := by
  induction tr using List.reverseRecOn with
  | nil => rfl
  | append_singleton tr call ih =>
    have hCloses : closes i (tr ++ [call]) = closes i tr + closes i [call] := List.countP_append
    rw [listingUses_snoc, hCloses, ← ih]
    cases call with
    | opendir stream | fdopendir stream => cases stream <;> simp [Call.use, closes]
    | closedir dir =>
      cases dir with
      | none => simp [Call.use, closes]
      | some j =>
        rw [Call.use, Option.map_some, Option.toList_some, drops_drop]
        simp [closes, List.countP_singleton]
    | on j op host => simp [Call.use, closes]
    | other stream => simp [Call.use, closes]

/-- A stream of the host's own is where it was, its description too, and no `DIR` wraps it. -/
def Untouched (initial : Nat → δ) (s : Dirs σ δ) (stream : Stream σ) : Prop :=
  s.descriptions stream.description = initial stream.description ∧
    ∃ w, s.streams.load w = some stream ∧
      ∀ (i : Nat) (c : Cell Dir), s.dirs[i]? = some c → c.value.wrapped ≠ w

theorem untouched_step {s' : Dirs σ δ} {call : Call σ δ} {stream : Stream σ}
    (hUntouched : Untouched initial s stream) (hOwn : s.held.Nodup)
    (hStep : step p s call = some s') : Untouched initial s' stream := by
  obtain ⟨hPosition, w, hLoad, hApart⟩ := hUntouched
  have hOpen : ∀ opened, Untouched initial (wrapDir s opened) stream := by
    rintro (_ | new)
    · exact ⟨hPosition, w, hLoad, hApart⟩
    · refine ⟨hPosition, w, Heap.load_alloc_old hLoad, fun i c hc => ?_⟩
      rcases Heap.getElem?_alloc.mp hc with hOld | ⟨-, rfl⟩
      · exact hApart i c hOld
      · exact Nat.ne_of_gt (Heap.load_lt hLoad)
  cases call with
  | opendir new | fdopendir new =>
    obtain rfl := Option.some.inj hStep
    exact hOpen new
  | closedir dir =>
    cases dir with
    | none =>
      obtain rfl : s = s' := Option.some.inj hStep
      exact ⟨hPosition, w, hLoad, hApart⟩
    | some i =>
      obtain ⟨dir, hDir, hRest⟩ := Option.bind_eq_some_iff.mp hStep
      obtain ⟨-, -, rfl⟩ := Option.map_eq_some_iff.mp hRest
      refine ⟨hPosition, w, ?_, fun j c hc => ?_⟩
      · rw [Heap.load_free_ne (Ne.symm (hApart i _ (Heap.load_eq.mp hDir)))]
        exact hLoad
      · obtain ⟨c, hOld, rfl⟩ := Heap.getElem?_free.mp hc
        exact hApart j c hOld
  | on i op host =>
    obtain ⟨dir, hDir, hRest⟩ := Option.bind_eq_some_iff.mp hStep
    obtain ⟨wrapped, hWrapped, rfl⟩ := Option.map_eq_some_iff.mp hRest
    have hOther := hApart i _ (Heap.load_eq.mp hDir)
    have hNe : stream.description ≠ wrapped.description := fun hEq => hOther
      (Dirs.held_inj hOwn (Heap.load_eq.mp hLoad) (Heap.load_eq.mp hWrapped) hEq).symm
    refine ⟨?_, w, ?_, fun j c hc => ?_⟩
    · simpa [hNe] using hPosition
    · rw [Heap.load_store_ne (Ne.symm hOther)]
      exact hLoad
    · obtain ⟨c, hOld, rfl⟩ := Heap.getElem?_store.mp hc
      dsimp only
      split
      · exact hOther
      · exact hApart j c hOld
  | other new =>
    obtain rfl := Option.some.inj hStep
    exact ⟨hPosition, w, Heap.load_alloc_old hLoad, hApart⟩

theorem run_untouched (hOwn : OwnDescriptions tr)
    (hRun : exec (step p) (.start initial) tr = some s) {stream : Stream σ}
    (hOther : .other stream ∈ tr) : Untouched initial s stream := by
  refine exec_history (P := fun tr s => OwnDescriptions tr → .other stream ∈ tr →
    Untouched initial s stream) ?_ ?_ hRun hOwn hOther
  · simp
  · intro tr s call s' hPrefix ih hStep hOwn hMem
    rw [OwnDescriptions, List.filterMap_append, List.nodup_append] at hOwn
    obtain ⟨hOld, -, hNew⟩ := hOwn
    rcases List.mem_append.mp hMem with hEarlier | hLast
    · exact untouched_step (ih hOld hEarlier) (by rw [run_held hPrefix]; exact hOld) hStep
    · obtain rfl := List.mem_singleton.mp hLast
      obtain rfl := Option.some.inj hStep
      obtain ⟨h, -, hWraps⟩ := run_wraps hOld hPrefix
      refine ⟨hWraps.fresh _ fun hHeld => ?_, s.streams.length, Heap.load_alloc_new _ _,
        fun i c hc => Nat.ne_of_lt (hWraps.wrapped_lt hc)⟩
      rw [run_held hPrefix] at hHeld
      exact hNew _ hHeld _ (by simp [Call.description]) rfl

/-- As long as no two streams share an open file description, whatever else the guest opens, reads
and closes in between: the stream behind a `DIR` and its description are where the calls on this
`DIR` alone would have left them, each of them was answered by what the stream said then, the two
are closed together and at most once, no other `DIR` has the same stream, and the host's own streams
are not touched. -/
theorem directories_answer_for_their_streams (p : Platform) (initial : Nat → δ)
    (tr : List (Call σ δ)) (s : Dirs σ δ) (hRun : exec (step p) (.start initial) tr = some s)
    (hOwn : OwnDescriptions tr) :
    (∀ i stream, (opened tr)[i]? = some stream →
      let state := (actsOn i tr).foldl hostAct (stream.buffer, initial stream.description)
      (∃ dir, s.dirs[i]? = some ⟨dir, closes i tr⟩ ∧
        s.streams[dir.wrapped]? = some ⟨⟨state.1, stream.description⟩, closes i tr⟩ ∧
        s.descriptions stream.description = state.2 ∧
        ∀ (j : Nat) (c : Cell Dir), s.dirs[j]? = some c → c.value.wrapped = dir.wrapped → j = i) ∧
      closes i tr ≤ 1 ∧
      List.Forall₂ (Told p)
        (hostSteps (stream.buffer, initial stream.description) (actsOn i tr)) (s.answersOf i)) ∧
    ∀ stream, .other stream ∈ tr → Untouched initial s stream := by
  obtain ⟨h, hUses, hWraps⟩ := run_wraps hOwn hRun
  have hAccounts := objects_history hUses
  refine ⟨fun i stream hOpened => ?_, fun stream hOther => run_untouched hOwn hRun hOther⟩
  have hCell := hAccounts.cell i
  rw [made_listingUses, List.getElem?_map, hOpened, uses_listingUses, drops_listingUses] at hCell
  obtain ⟨w, hDir, hStream, hPosition, hAnswers⟩ := hWraps.dir i _ _ hCell
  obtain ⟨hState, hSame, more, hTold, hAll⟩ :=
    listing_told p (actsOn i tr) (.opened initial stream)
  generalize hLast : (actsOn i tr).foldl (Listing.act p) (.opened initial stream) = l at *
  obtain ⟨⟨buffer, d⟩, position, current, answers⟩ := l
  obtain rfl : d = stream.description := hSame
  have hFinal : (actsOn i tr).foldl hostAct (stream.buffer, initial stream.description) =
      (buffer, position) := hState.symm
  refine ⟨⟨_, hDir, ?_, ?_, fun j c hc hEq => hWraps.apart j i c _ hc hDir hEq⟩, ?_, ?_⟩
  · rw [hFinal]
    exact hStream
  · rw [hFinal]
    exact hPosition
  · rw [← drops_listingUses]
    exact hAccounts.once i
  · rw [hAnswers, hTold]
    exact hAll

end Runs

/-- A directory of two entries, `a` and `b`, read one by one; the position is the number of entries
read. -/
def twoEntries : Host (Unit × Nat) where
  readdir t :=
    if t.2 < 2 then
      (some ⟨t.2, t.2 + 1, 8, Bytes.ofList [UInt8.ofNat (97 + t.2), 0]⟩, (), t.2 + 1)
    else (none, t)
  rewinddir _ := ((), 0)
  seekdir _ pos := ((), pos.toNat)
  telldir t := t.2
  dirfd _ := 3
  dup fd := fd + 100

/-- Two streams of it are read at the same time. -/
def interleaved : List (Call Unit Nat) :=
  [.opendir (some ⟨(), 0⟩), .other ⟨(), 1⟩, .fdopendir (some ⟨(), 2⟩), .on 0 .readdir twoEntries,
    .on 0 .readdir twoEntries, .on 1 .readdir twoEntries, .closedir (some 0), .opendir none,
    .on 1 .telldir twoEntries]

theorem directories_answer_for_their_streams_interleaved :
    ∃ s, exec (step ⟨.linux, false⟩) (.start fun _ => 0) interleaved = some s ∧
      List.Forall₂ (Told ⟨.linux, false⟩)
        [(((), 0), .readdir, twoEntries), (((), 1), .telldir, twoEntries)] (s.answersOf 1) ∧
      s.descriptions 2 = 1 ∧ closes 0 interleaved ≤ 1 ∧ Untouched (fun _ => 0) s ⟨(), 1⟩ := by
  refine ⟨_, rfl, ?_⟩
  have hOwn : OwnDescriptions interleaved := by
    show [0, 1, 2].Nodup
    decide
  obtain ⟨hDirs, hOther⟩ :=
    directories_answer_for_their_streams ⟨.linux, false⟩ (fun _ => 0) interleaved _ rfl hOwn
  obtain ⟨⟨dir, -, -, hPosition, -⟩, -, hTold⟩ := hDirs 1 ⟨(), 2⟩ rfl
  exact ⟨hTold, hPosition, (hDirs 0 ⟨(), 0⟩ rfl).2.1, hOther ⟨(), 1⟩ (by simp [interleaved])⟩

/-- Two streams on one description, as `fdopendir` on the `dirfd` of the other makes them: the
second misses the entry that the first has read. -/
example :
    (exec (step ⟨.linux, false⟩) (.start fun _ => 0)
      [.opendir (some ⟨(), 0⟩), .fdopendir (some ⟨(), 0⟩), .on 0 .readdir twoEntries,
        .on 1 .telldir twoEntries]).map (fun s => s.answersOf 1) = some [.position 1] := rfl

end LibcShim.Directory
