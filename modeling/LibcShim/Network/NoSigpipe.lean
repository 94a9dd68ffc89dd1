import LibcShim.Kit.Pool
import LibcShim.Network.Send

/-! `detail::sock_send_flags` where there is no `MSG_NOSIGNAL`: the option `SO_NOSIGPIPE` of the
socket is saved, set for the time of a send and put back, by any number of threads at once.  The
results of the host's `getsockopt` and `setsockopt` are ignored, as on a socket that was shut
down. -/

namespace LibcShim.Network.NoSigpipe

open Kit

/-- The option of each socket, and the sockets on which a constructor has thrown; no code reads
these. -/
structure Sockets where
  nosigpipe : Nat → Int
  thrown : List Nat

/-- Where a send stands; `saved` is `saved_nosigpipe`. -/
inductive Pc
  | idle
  | entered (fd : Nat) (flags : BitVec 32)
  | fetched (fd : Nat) (flags : BitVec 32) (saved : Int)
  | changed (fd : Nat) (flags : BitVec 32) (saved : Int)
  | sending (fd : Nat) (saved : Int)
  | plain (fd : Nat)

/-- The host decides whether its `getsockopt` and its `setsockopt` succeed; `leave` is the
destructor's. -/
inductive Move
  | call (fd : Nat) (flags : BitVec 32)
  | getsockopt (success : Bool)
  | setsockopt (success : Bool)
  | check
  | send
  | leave (success : Bool)

def Sockets.set (s : Sockets) (fd : Nat) (value : Int) : Sockets :=
  { s with nosigpipe := Function.update s.nosigpipe fd value }

/-- One host call at a time; a call that fails changes nothing, and `saved_nosigpipe` is 0 before
it.  A constructor that throws runs no destructor. -/
def sockSend (s : Sockets) : Pc → Move → Option (Sockets × Pc)
  | .idle, .call fd flags =>
    if flags &&& 0x4000#32 ≠ 0 then some (s, .entered fd flags)
    else match sockSendFlags flags with
      | .error _ => some (s, .idle)
      | .ok _ => some (s, .plain fd)
  | .entered fd flags, .getsockopt success =>
    some (s, .fetched fd flags (if success then s.nosigpipe fd else 0))
  | .fetched fd flags saved, .setsockopt success =>
    some (if success then s.set fd 1 else s, .changed fd flags saved)
  | .changed fd flags saved, .check =>
    match sockSendFlags flags with
    | .error _ => some ({ s with thrown := fd :: s.thrown }, .idle)
    | .ok _ => some (s, .sending fd saved)
  | .sending fd saved, .send => some (s, .sending fd saved)
  | .sending fd saved, .leave success => some (if success then s.set fd saved else s, .idle)
  | .plain fd, .send => some (s, .plain fd)
  | .plain _, .leave _ => some (s, .idle)
  | _, _ => none

variable {ι : Type*}

def start (initial : Nat → Int) : Pool ι Sockets Pc := ⟨⟨initial, []⟩, fun _ => .idle⟩

/-- The socket whose option the send has in hand. -/
def Pc.holds : Pc → Option Nat
  | .entered fd _ | .fetched fd _ _ | .changed fd _ _ | .sending fd _ => some fd
  | .idle | .plain _ => none

/-- What the option is between the sends. -/
def Sockets.base (initial : Nat → Int) (s : Sockets) (fd : Nat) : Int :=
  if fd ∈ s.thrown then 1 else initial fd

/-- What a move can do. -/
inductive SendStep (s : Sockets) : Pc → Move → Sockets → Pc → Prop
  | flagged {fd : Nat} {flags : BitVec 32} (hFlag : flags &&& 0x4000#32 ≠ 0) :
      SendStep s .idle (.call fd flags) s (.entered fd flags)
  | unflagged {fd : Nat} {flags : BitVec 32} {p : Pc} (hPlain : p = .plain fd ∨ p = .idle) :
      SendStep s .idle (.call fd flags) s p
  | fetch {fd : Nat} {flags : BitVec 32} {success : Bool} :
      SendStep s (.entered fd flags) (.getsockopt success) s
        (.fetched fd flags (if success then s.nosigpipe fd else 0))
  | change {fd : Nat} {flags : BitVec 32} {saved : Int} {success : Bool} :
      SendStep s (.fetched fd flags saved) (.setsockopt success)
        (if success then s.set fd 1 else s) (.changed fd flags saved)
  | throw {fd : Nat} {flags : BitVec 32} {saved : Int} :
      SendStep s (.changed fd flags saved) .check { s with thrown := fd :: s.thrown } .idle
  | accept {fd : Nat} {flags : BitVec 32} {saved : Int} :
      SendStep s (.changed fd flags saved) .check s (.sending fd saved)
  | send {fd : Nat} {saved : Int} : SendStep s (.sending fd saved) .send s (.sending fd saved)
  | restore {fd : Nat} {saved : Int} {success : Bool} :
      SendStep s (.sending fd saved) (.leave success) (if success then s.set fd saved else s) .idle
  | plain {fd : Nat} {m : Move} {p : Pc} (hPlain : p = .plain fd ∨ p = .idle) :
      SendStep s (.plain fd) m s p

theorem sockSend_step {s s' : Sockets} {p p' : Pc} {m : Move}
    (hMove : sockSend s p m = some (s', p')) : SendStep s p m s' p' := by
  unfold sockSend at hMove
  split at hMove
  · split at hMove
    · rename_i hFlag
      cases hMove
      exact .flagged hFlag
    · split at hMove
      · cases hMove
        exact .unflagged (Or.inr rfl)
      · cases hMove
        exact .unflagged (Or.inl rfl)
  · cases hMove
    exact .fetch
  · cases hMove
    exact .change
  · split at hMove
    · cases hMove
      exact .throw
    · cases hMove
      exact .accept
  · cases hMove
    exact .send
  · cases hMove
    exact .restore
  · cases hMove
    exact .plain (Or.inl rfl)
  · cases hMove
    exact .plain (Or.inr rfl)
  · cases hMove

/-- The option of the socket, and whether a constructor has thrown on it, are as before. -/
def Sockets.SameAt (s s' : Sockets) (fd : Nat) : Prop :=
  s'.nosigpipe fd = s.nosigpipe fd ∧ (fd ∈ s'.thrown ↔ fd ∈ s.thrown)

theorem Sockets.sameAt_self (s : Sockets) (fd : Nat) : s.SameAt s fd := ⟨rfl, Iff.rfl⟩

/-- A move changes the option of no socket but the one that it has in hand. -/
theorem sockSend_sameAt {s s' : Sockets} {p p' : Pc} {m : Move} {fd : Nat}
    (hMove : sockSend s p m = some (s', p')) (hOther : p.holds ≠ some fd) : s.SameAt s' fd := by
  have hSet : ∀ fd' value, fd ≠ fd' → s.SameAt (s.set fd' value) fd := fun fd' value hNe =>
    ⟨Function.update_of_ne hNe _ _, Iff.rfl⟩
  cases sockSend_step hMove with
  | change | restore =>
    split
    · exact hSet _ _ fun hEq => hOther (hEq ▸ rfl)
    · exact s.sameAt_self fd
  | throw =>
    refine ⟨rfl, List.mem_cons.trans (or_iff_right fun hEq => hOther ?_)⟩
    rw [hEq]
    rfl
  | flagged | unflagged | fetch | accept | send | plain => exact s.sameAt_self fd

/-! ### Any interleaving -/

/-- The host calls on the socket that the step makes succeed. -/
def Fetches (fd : Nat) (s : Pool ι Sockets Pc) : ι × Move → Prop
  | (t, .getsockopt success) => (s.pc t).holds = some fd → success = true
  | _ => True

def Succeeds (fd : Nat) (s : Pool ι Sockets Pc) : ι × Move → Prop
  | (t, .getsockopt success) | (t, .setsockopt success) | (t, .leave success) =>
    (s.pc t).holds = some fd → success = true
  | _ => True

def Pc.Saved (initial : Nat → Int) (fd : Nat) : Pc → Prop
  | .fetched fd' _ saved | .changed fd' _ saved | .sending fd' saved =>
    fd' = fd → saved = initial fd ∨ saved = 1
  | _ => True

structure Known (initial : Nat → Int) (fd : Nat) (s : Pool ι Sockets Pc) : Prop where
  option : s.shared.nosigpipe fd = initial fd ∨ s.shared.nosigpipe fd = 1
  saved : ∀ t, (s.pc t).Saved initial fd

section Values

variable {initial : Nat → Int} {fd : Nat} {s s' : Pool ι Sockets Pc} {l : ι × Move}

theorem Known.set (hKnown : Known initial fd s) {fd' : Nat} {value : Int}
    (hValue : fd' = fd → value = initial fd ∨ value = 1) (success : Bool) :
    (if success then s.shared.set fd' value else s.shared).nosigpipe fd = initial fd ∨
      (if success then s.shared.set fd' value else s.shared).nosigpipe fd = 1 := by
  cases success with
  | false => exact hKnown.option
  | true =>
    by_cases hfd : fd' = fd
    · subst hfd
      simpa [Sockets.set] using hValue rfl
    · simpa [Sockets.set, Ne.symm hfd] using hKnown.option

theorem step_known [DecidableEq ι] (hKnown : Known initial fd s) (hFetches : Fetches fd s l)
    (hStep : poolStep sockSend s l = some s') : Known initial fd s' := by
  obtain ⟨t, m⟩ := l
  obtain ⟨sh, p, hMove, rfl⟩ := poolStep_eq.mp hStep
  have hSaved := hKnown.saved t
  suffices hNow : (sh.nosigpipe fd = initial fd ∨ sh.nosigpipe fd = 1) ∧ p.Saved initial fd by
    refine ⟨hNow.1, fun u => ?_⟩
    by_cases hut : u = t
    · subst hut
      simpa using hNow.2
    · simpa [hut] using hKnown.saved u
  generalize hPc : s.pc t = q at hMove hSaved
  cases sockSend_step hMove with
  | flagged | throw => exact ⟨hKnown.option, trivial⟩
  | accept | send => exact ⟨hKnown.option, hSaved⟩
  | change => exact ⟨hKnown.set (fun _ => Or.inr rfl) _, hSaved⟩
  | restore => exact ⟨hKnown.set hSaved _, trivial⟩
  | fetch =>
    refine ⟨hKnown.option, ?_⟩
    rintro rfl
    have hSuccess := hFetches (hPc ▸ rfl)
    subst hSuccess
    exact hKnown.option
  | unflagged hPlain | plain hPlain =>
    rcases hPlain with rfl | rfl
    · exact ⟨hKnown.option, trivial⟩
    · exact ⟨hKnown.option, trivial⟩

end Values

/-! ### One send at a time on a socket -/

/-- The thread has set the option of its socket, or left it as it was. -/
def Pc.Exact (initial : Nat → Int) (s : Sockets) : Pc → Prop
  | .idle | .plain _ => True
  | .entered fd _ => s.nosigpipe fd = s.base initial fd
  | .fetched fd _ saved => saved = s.base initial fd ∧ s.nosigpipe fd = s.base initial fd
  | .changed fd _ saved | .sending fd saved => saved = s.base initial fd ∧ s.nosigpipe fd = 1

structure Exclusive (initial : Nat → Int) (fd : Nat) (s : Pool ι Sockets Pc) : Prop where
  alone : ∀ t u, (s.pc t).holds = some fd → (s.pc u).holds = some fd → t = u
  exact : ∀ t, (s.pc t).holds = some fd → (s.pc t).Exact initial s.shared
  base : (∀ t, (s.pc t).holds ≠ some fd) → s.shared.nosigpipe fd = s.shared.base initial fd

section Exclusive

variable {initial : Nat → Int} {fd : Nat} {s : Pool ι Sockets Pc} {t : ι} {sh : Sockets} {p : Pc}

theorem Sockets.SameAt.base {s s' : Sockets} (hSame : s.SameAt s' fd) :
    s'.base initial fd = s.base initial fd := by
  simp only [Sockets.base, hSame.2]

theorem Pc.Exact.same {s s' : Sockets} (hExact : p.Exact initial s) (hHolds : p.holds = some fd)
    (hSame : s.SameAt s' fd) : p.Exact initial s' := by
  cases p with
  | idle | plain => trivial
  | entered fd' | fetched fd' | changed fd' | sending fd' =>
    obtain rfl : fd' = fd := Option.some.inj hHolds
    simpa only [Pc.Exact, hSame.base, hSame.1] using hExact

/-- A move of a thread that alone has the socket in hand, takes it while it is free, or does not
touch it. -/
theorem Exclusive.move [DecidableEq ι] (hExclusive : Exclusive initial fd s)
    (hOther : (s.pc t).holds ≠ some fd → s.shared.SameAt sh fd)
    (hHolds : p.holds = some fd → (s.pc t).holds = some fd ∨ ∀ u, (s.pc u).holds ≠ some fd)
    (hExact : p.holds = some fd → p.Exact initial sh)
    (hDone : (s.pc t).holds = some fd → p.holds ≠ some fd →
      sh.nosigpipe fd = sh.base initial fd) :
    Exclusive initial fd ⟨sh, Function.update s.pc t p⟩ where
  alone u v hu hv := by
    have hAlone : ∀ w, w ≠ t → p.holds = some fd → (s.pc w).holds ≠ some fd := by
      intro w hw hp
      rcases hHolds hp with hOwn | hNone
      · exact fun hHas => hw (hExclusive.alone w t hHas hOwn)
      · exact hNone w
    by_cases hut : u = t
    · by_cases hvt : v = t
      · rw [hut, hvt]
      · subst hut
        simp only [Function.update_self] at hu
        simp only [Function.update_of_ne hvt] at hv
        exact absurd hv (hAlone v hvt hu)
    · simp only [Function.update_of_ne hut] at hu
      by_cases hvt : v = t
      · subst hvt
        simp only [Function.update_self] at hv
        exact absurd hu (hAlone u hut hv)
      · simp only [Function.update_of_ne hvt] at hv
        exact hExclusive.alone u v hu hv
  exact u hu := by
    by_cases hut : u = t
    · subst hut
      simp only [Function.update_self] at hu ⊢
      exact hExact hu
    · simp only [Function.update_of_ne hut] at hu ⊢
      exact (hExclusive.exact u hu).same hu
        (hOther fun hOwn => hut (hExclusive.alone u t hu hOwn))
  base hNone := by
    have hp : p.holds ≠ some fd := by simpa using hNone t
    by_cases hOwn : (s.pc t).holds = some fd
    · exact hDone hOwn hp
    · have hOld : s.shared.nosigpipe fd = s.shared.base initial fd := by
        refine hExclusive.base fun u hu => ?_
        by_cases hut : u = t
        · exact hOwn (hut ▸ hu)
        · exact hNone u (by simpa [Function.update_of_ne hut] using hu)
      show sh.nosigpipe fd = sh.base initial fd
      rw [(hOther hOwn).1, (hOther hOwn).base, hOld]

/-- A move within a send. -/
theorem Exclusive.keep [DecidableEq ι] (hExclusive : Exclusive initial fd s)
    (hOther : (s.pc t).holds ≠ some fd → s.shared.SameAt sh fd)
    (hHolds : p.holds = (s.pc t).holds) (hExact : p.holds = some fd → p.Exact initial sh) :
    Exclusive initial fd ⟨sh, Function.update s.pc t p⟩ :=
  hExclusive.move hOther (fun hp => Or.inl (hHolds ▸ hp)) hExact
    fun hOwn hp => absurd (hHolds.trans hOwn) hp

/-- No send of the flag begins on the socket while another has its option in hand. -/
def OneAtATime (fd : Nat) (s : Pool ι Sockets Pc) : ι × Move → Prop
  | (_, .call fd' flags) =>
    flags &&& 0x4000#32 ≠ 0 → fd' = fd → ∀ u, (s.pc u).holds ≠ some fd
  | _ => True

theorem step_exclusive [DecidableEq ι] {s s' : Pool ι Sockets Pc} {l : ι × Move}
    (hExclusive : Exclusive initial fd s) (hAllowed : Succeeds fd s l ∧ OneAtATime fd s l)
    (hStep : poolStep sockSend s l = some s') : Exclusive initial fd s' := by
  obtain ⟨t, m⟩ := l
  obtain ⟨sh, p, hMove, rfl⟩ := poolStep_eq.mp hStep
  obtain ⟨hSucceeds, hOne⟩ := hAllowed
  have hExact := hExclusive.exact t
  have hSame : (s.pc t).holds ≠ some fd → s.shared.SameAt sh fd := sockSend_sameAt hMove
  generalize hPc : s.pc t = q at hMove hExact
  cases sockSend_step hMove with
  | @flagged fd' flags hFlag =>
    refine hExclusive.move hSame (fun hp => Or.inr ?_) (fun hp => ?_) fun hOwn => ?_
    · exact hOne hFlag (Option.some.inj hp)
    · obtain rfl : fd' = fd := Option.some.inj hp
      exact hExclusive.base (hOne hFlag rfl)
    · rw [hPc] at hOwn
      cases hOwn
  | unflagged hPlain | plain hPlain =>
    have hNone : p.holds = none := by rcases hPlain with rfl | rfl <;> rfl
    refine hExclusive.move hSame (fun hp => ?_) (fun hp => ?_) fun hOwn => ?_
    · rw [hNone] at hp
      cases hp
    · rw [hNone] at hp
      cases hp
    · rw [hPc] at hOwn
      cases hOwn
  | @fetch fd' flags success =>
    refine hExclusive.keep hSame (congrArg Pc.holds hPc).symm fun hp => ?_
    obtain rfl : fd' = fd := Option.some.inj hp
    obtain rfl : success = true := hSucceeds (hPc ▸ rfl)
    exact ⟨hExact rfl, hExact rfl⟩
  | @change fd' flags saved success =>
    refine hExclusive.keep hSame (congrArg Pc.holds hPc).symm fun hp => ?_
    obtain rfl : fd' = fd := Option.some.inj hp
    obtain rfl : success = true := hSucceeds (hPc ▸ rfl)
    exact ⟨(hExact rfl).1, Function.update_self _ _ _⟩
  | @throw fd' flags saved =>
    refine hExclusive.move hSame nofun nofun fun hOwn _ => ?_
    rw [hPc] at hOwn
    obtain rfl : fd' = fd := Option.some.inj hOwn
    simpa [Sockets.base] using (hExact rfl).2
  | accept | send =>
    exact hExclusive.keep hSame (congrArg Pc.holds hPc).symm hExact
  | @restore fd' saved success =>
    refine hExclusive.move hSame nofun nofun fun hOwn _ => ?_
    obtain rfl : success = true := hSucceeds hOwn
    rw [hPc] at hOwn
    obtain rfl : fd' = fd := Option.some.inj hOwn
    have hValue : (s.shared.set fd' saved).nosigpipe fd' = saved := Function.update_self _ _ _
    exact hValue.trans (hExact rfl).1

theorem start_exclusive : Exclusive initial fd (start (ι := ι) initial) where
  alone t u ht := by cases ht
  exact t ht := by cases ht
  base _ := rfl

end Exclusive

/-- However the threads interleave, the option of a socket is the one it had at the start, or set,
as long as it can be read.  Where the host's calls on the socket succeed and no flagged send begins
on it while another has its option in hand, every send of the host on it happens with the option
set, and outside of these sends the option is as it was at the start, unless a constructor has
thrown on the socket: then it stays set. -/
theorem nosigpipe_is_restored (ι : Type) [DecidableEq ι] (initial : Nat → Int) (fd : Nat)
    (tr : List (ι × Move)) (s : Pool ι Sockets Pc)
    (hRun : exec (poolStep sockSend) (start initial) tr = some s) :
    (Along (poolStep sockSend) (Fetches fd) (start initial) tr →
      s.shared.nosigpipe fd = initial fd ∨ s.shared.nosigpipe fd = 1) ∧
    (Along (poolStep sockSend) (fun s l => Succeeds fd s l ∧ OneAtATime fd s l) (start initial)
        tr →
      (∀ t saved, s.pc t = .sending fd saved → s.shared.nosigpipe fd = 1) ∧
      ((∀ t, (s.pc t).holds ≠ some fd) →
        s.shared.nosigpipe fd = if fd ∈ s.shared.thrown then 1 else initial fd)) := by
  have hLast : Visits (poolStep sockSend) (start initial) tr s := ⟨tr, [], by simp, hRun⟩
  constructor
  · intro hFetches
    have hStart : Known initial fd (start (ι := ι) initial) := ⟨Or.inl rfl, fun _ => trivial⟩
    have hKnown : Known initial fd s := visits_invariant
      (fun s l s' hI hC hStep => step_known hI hC hStep) hStart hFetches hLast
    exact hKnown.option
  · intro hAllowed
    have hExclusive : Exclusive initial fd s := visits_invariant
      (fun s l s' hI hC hStep => step_exclusive hI hC hStep) start_exclusive hAllowed hLast
    refine ⟨fun t saved hPc => ?_, hExclusive.base⟩
    have hExact := hExclusive.exact t
    rw [hPc] at hExact
    exact (hExact rfl).2

def oneSend : List (Nat × Move) :=
  [(0, .call 5 0x4000), (0, .getsockopt true), (0, .setsockopt true), (0, .check), (0, .send),
    (0, .leave true)]

theorem nosigpipe_is_restored_after_send : ∃ s : Pool Nat Sockets Pc,
    exec (poolStep sockSend) (start fun _ => 0) oneSend = some s ∧ s.shared.nosigpipe 5 = 0 := by
  refine ⟨_, rfl, ?_⟩
  have hAllowed : Along (poolStep sockSend) (fun s l => Succeeds 5 s l ∧ OneAtATime 5 s l)
      (start fun _ => 0) oneSend := by
    refine along_iff.mpr fun before l after m hSplit hm => ?_
    have hMem : l ∈ oneSend := hSplit ▸ by simp
    simp only [oneSend, List.mem_cons, List.not_mem_nil, or_false] at hMem
    rcases hMem with rfl | rfl | rfl | rfl | rfl | rfl
    · refine ⟨trivial, fun _ _ u hu => ?_⟩
      cases before with
      | nil =>
        obtain rfl := Option.some.inj hm
        cases hu
      | cons l' rest =>
        have hTail : oneSend.tail = rest ++ (0, .call 5 0x4000) :: after :=
          congrArg List.tail hSplit
        have hAbsent : ((0 : Nat), Move.call 5 0x4000) ∈ oneSend.tail := by
          rw [hTail]
          simp
        simp [oneSend] at hAbsent
    · exact ⟨fun _ => rfl, trivial⟩
    · exact ⟨fun _ => rfl, trivial⟩
    · exact ⟨trivial, trivial⟩
    · exact ⟨trivial, trivial⟩
    · exact ⟨fun _ => rfl, trivial⟩
  refine (((nosigpipe_is_restored Nat (fun _ => 0) 5 oneSend _ rfl).2 hAllowed).2
    fun t hHolds => ?_).trans rfl
  by_cases ht : t = 0
  · subst ht
    cases hHolds
  · simp [start, ht, Pc.holds] at hHolds

/-- Two threads, one socket, flag and no other: the second saves the value that the first has
set, the first restores in the middle, and the option stays set. -/
example :
    (exec (poolStep sockSend) (start fun _ => 0) [(0, .call 5 0x4000), (0, .getsockopt true),
      (0, .setsockopt true), (1, .call 5 0x4000), (1, .getsockopt true), (0, .check), (0, .send),
      (0, .leave true), (1, .setsockopt true), (1, .check), (1, .send), (1, .leave true)]).map
        (fun s : Pool Nat Sockets Pc => (s.shared.nosigpipe 5, s.shared.thrown)) =
      some (1, []) := by
  decide

end LibcShim.Network.NoSigpipe
