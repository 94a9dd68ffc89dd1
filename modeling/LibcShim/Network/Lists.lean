import LibcShim.Kit.Run
import LibcShim.Network.Allocation

/-! A program that looks up addresses and interfaces, and gives the lists back in any order: what is
allocated, and what the lists it holds still say. -/

namespace LibcShim.Network.Lists

open Kit Kit.Heap Allocation

/-- A list that the program was given and has not given back; `hosts` and `interfaces` are what the
host answered. -/
inductive Held
  | addrinfo (hosts : List HostAddrinfo) (p : Option Nat)
  | ifaddrs (interfaces : List HostIfaddrs) (p : Option Nat)

inductive Call
  | getaddrinfo (hbufs bufs : Nat → Bytes) (host : List HostAddrinfo → Resolved)
    (hints : List Addrinfo)
  | freeaddrinfo (k : Nat)
  | getifaddrs (bufs : Nat → Bytes × Bytes) (host : HostInterfaces)
  | freeifaddrs (k : Nat)

structure Client where
  memory : Memory
  held : List Held

def Client.start : Client := ⟨[], []⟩

/-- What the host answers to the hints, where they reach it. -/
def answered (os : Os) (hbufs : Nat → Bytes) (host : List HostAddrinfo → Resolved)
    (hints : List Addrinfo) : List HostAddrinfo :=
  match Network.toHostAlloc os hbufs 0 hints with
  | .ok hhints => (host hhints).list
  | .error _ => []

/-- A list goes back to the function that belongs to it, and once.  Otherwise there is no step, nor
where a call touches a block that is not in use. -/
def step (os : Os) (iff : HostIff) (s : Client) : Call → Option Client
  | .getaddrinfo hbufs bufs host hints =>
    match Allocation.getaddrinfo os hbufs bufs host hints s.memory with
    | some (.ok ⟨_, some p⟩, h) =>
      some ⟨h, s.held ++ [.addrinfo (answered os hbufs host hints) p]⟩
    | some (_, h) => some ⟨h, s.held⟩
    | none => none
  | .freeaddrinfo k =>
    match s.held[k]? with
    | some (.addrinfo _ p) => (freeaddrinfo s.memory p).map fun h => ⟨h, s.held.eraseIdx k⟩
    | _ => none
  | .getifaddrs bufs host =>
    match Allocation.getifaddrs os iff bufs host s.memory with
    | (.ok ⟨_, some p⟩, h) => some ⟨h, s.held ++ [.ifaddrs host.list p]⟩
    | (_, h) => some ⟨h, s.held⟩
  | .freeifaddrs k =>
    match s.held[k]? with
    | some (.ifaddrs _ p) => (freeifaddrs s.memory p).map fun h => ⟨h, s.held.eraseIdx k⟩
    | _ => none

/-- The program has what it gives back. -/
def Call.Allowed (s : Client) : Call → Prop
  | .freeaddrinfo k => ∃ hosts p, s.held[k]? = some (.addrinfo hosts p)
  | .freeifaddrs k => ∃ interfaces p, s.held[k]? = some (.ifaddrs interfaces p)
  | _ => True

/-- The hints of the call have a form for the host. -/
def Call.Accepted (os : Os) : Call → Prop
  | .getaddrinfo hbufs _ _ hints => ∃ hhints, Network.toHostAlloc os hbufs 0 hints = .ok hhints
  | _ => True

/-- The list is in memory, in the blocks `ids`, and says what the host has answered. -/
def Held.Holds (os : Os) (iff : HostIff) (h : Memory) : Held → List Nat → Prop
  | .addrinfo hosts p, ids => ∃ out, Spans HoldsAddrinfo h p out ids none ∧
      List.Forall₂ (Translates os) (hosts.filter fun a => Representable os a) out
  | .ifaddrs interfaces p, ids => ∃ out, Spans HoldsIfaddrs h p out ids none ∧
      List.Forall₂ (SameInterface os iff) (interfaces.filter (hasIp os)) out

/-- The blocks in use are those of the lists held, and `lost`. -/
structure Tidy (os : Os) (iff : HostIff) (s : Client) (blocks : List (List Nat))
    (lost : List Nat) : Prop where
  held : List.Forall₂ (Held.Holds os iff s.memory) s.held blocks
  owns : Owns s.memory (blocks.flatten ++ lost)

section Held

variable {os : Os} {iff : HostIff} {h h' : Memory} {held : List Held} {blocks : List (List Nat)}

theorem Held.Holds.same {l : Held} {ids : List Nat} (hHolds : l.Holds os iff h ids)
    (hSame : Same h h' ids) : l.Holds os iff h' ids := by
  cases l with
  | addrinfo hosts p =>
    obtain ⟨out, hSpans, hOut⟩ := hHolds
    exact ⟨out, hSpans.same holdsAddrinfo_local hSame, hOut⟩
  | ifaddrs interfaces p =>
    obtain ⟨out, hSpans, hOut⟩ := hHolds
    exact ⟨out, hSpans.same holdsIfaddrs_local hSame, hOut⟩

theorem held_same (hHeld : List.Forall₂ (Held.Holds os iff h) held blocks)
    (hSame : Same h h' blocks.flatten) : List.Forall₂ (Held.Holds os iff h') held blocks := by
  induction hHeld with
  | nil => exact .nil
  | cons hFirst hRest ih =>
    rw [List.flatten_cons] at hSame
    exact .cons (hFirst.same (hSame.subset (List.subset_append_left _ _)))
      (ih (hSame.subset (List.subset_append_right _ _)))

/-- The list `k` and its blocks, apart from the others. -/
theorem held_pick (hHeld : List.Forall₂ (Held.Holds os iff h) held blocks) {k : Nat} {l : Held}
    (hk : held[k]? = some l) :
    ∃ ids others, l.Holds os iff h ids ∧ blocks.flatten.Perm (ids ++ others.flatten) ∧
      List.Forall₂ (Held.Holds os iff h) (held.eraseIdx k) others := by
  induction hHeld generalizing k with
  | nil => simp at hk
  | @cons first ids held blocks hFirst hRest ih =>
    cases k with
    | zero =>
      obtain rfl : first = l := by simpa using hk
      exact ⟨ids, blocks, hFirst, by simp, hRest⟩
    | succ k =>
      obtain ⟨own, others, hOwn, hPerm, hOthers⟩ := ih (by simpa using hk)
      refine ⟨own, ids :: others, hOwn, ?_, .cons hFirst hOthers⟩
      rw [List.flatten_cons, List.flatten_cons]
      calc (ids ++ blocks.flatten).Perm (ids ++ (own ++ others.flatten)) := hPerm.append_left ids
        _ = (ids ++ own) ++ others.flatten := by rw [List.append_assoc]
        _ |>.Perm ((own ++ ids) ++ others.flatten) := List.perm_append_comm.append_right _
        _ = own ++ (ids ++ others.flatten) := by rw [List.append_assoc]

end Held

section Steps

variable {os : Os} {iff : HostIff} {s : Client} {blocks : List (List Nat)} {lost : List Nat}

/-- A call allocates `ids` and is given nothing back. -/
theorem Tidy.grow {h : Memory} {l : Held} {ids : List Nat} (hTidy : Tidy os iff s blocks lost)
    (hOwns : Owns h (ids ++ (blocks.flatten ++ lost)))
    (hSame : Same s.memory h (blocks.flatten ++ lost)) (hNew : l.Holds os iff h ids) :
    Tidy os iff ⟨h, s.held ++ [l]⟩ (blocks ++ [ids]) lost where
  held := by
    refine List.rel_append ?_ (.cons hNew .nil)
    exact held_same hTidy.held (hSame.subset (List.subset_append_left _ _))
  owns := by
    refine hOwns.perm ?_
    rw [List.flatten_append, ← List.append_assoc]
    simpa using List.perm_append_comm.append_right lost

theorem Tidy.lose {h : Memory} {ids : List Nat} (hTidy : Tidy os iff s blocks lost)
    (hOwns : Owns h (ids ++ (blocks.flatten ++ lost)))
    (hSame : Same s.memory h (blocks.flatten ++ lost)) :
    Tidy os iff ⟨h, s.held⟩ blocks (ids ++ lost) where
  held := held_same hTidy.held (hSame.subset (List.subset_append_left _ _))
  owns := by
    refine hOwns.perm ?_
    rw [← List.append_assoc, ← List.append_assoc]
    exact List.perm_append_comm.append_right lost

/-- `l` is given back, and its blocks are free. -/
theorem Tidy.give (free : Memory → Option Memory) {k : Nat} {l : Held}
    (hTidy : Tidy os iff s blocks lost) (hk : s.held[k]? = some l)
    (hFree : ∀ ids rest, l.Holds os iff s.memory ids → Owns s.memory (ids ++ rest) →
      ∃ h, free s.memory = some h ∧ Owns h rest ∧ Same s.memory h rest) :
    ∃ h others, free s.memory = some h ∧ Tidy os iff ⟨h, s.held.eraseIdx k⟩ others lost := by
  obtain ⟨ids, others, hHolds, hPerm, hOthers⟩ := held_pick hTidy.held hk
  have hOwns : Owns s.memory (ids ++ (others.flatten ++ lost)) := by
    refine hTidy.owns.perm ?_
    rw [← List.append_assoc]
    exact hPerm.append_right lost
  obtain ⟨h, hRun, hRest, hSame⟩ := hFree ids _ hHolds hOwns
  exact ⟨h, others, hRun, held_same hOthers (hSame.subset (List.subset_append_left _ _)), hRest⟩

/-- A call of `getaddrinfo` is answered, and loses blocks exactly when the hints have no form for
the host. -/
theorem getaddrinfo_tidy {hbufs bufs : Nat → Bytes} {host : List HostAddrinfo → Resolved}
    {hints : List Addrinfo} (hTidy : Tidy os iff s blocks lost) :
    ∃ s' blocks' lost', step os iff s (.getaddrinfo hbufs bufs host hints) = some s' ∧
      Tidy os iff s' blocks' lost' ∧ (lost' = [] ↔ lost = [] ∧
        (Call.getaddrinfo hbufs bufs host hints).Accepted os) := by
  obtain ⟨answer, h, ids, hRun, hOwns, hSame, hAnswers⟩ :=
    getaddrinfo_answers os hbufs bufs host hints hTidy.owns
  simp only [step, hRun]
  cases hHints : Network.toHostAlloc os hbufs 0 hints with
  | error e =>
    have hPure : Network.getaddrinfo os hbufs bufs host hints = .error e := by
      rw [Network.getaddrinfo, hHints]
      rfl
    rw [hPure] at hAnswers
    cases hAnswers with
    | thrown hLost =>
      refine ⟨⟨h, s.held⟩, blocks, ids ++ lost, rfl, hTidy.lose hOwns hSame, ?_⟩
      simp [hLost, Call.Accepted, hHints]
  | ok hhints =>
    have hAccepted : (Call.getaddrinfo hbufs bufs host hints).Accepted os := ⟨hhints, hHints⟩
    by_cases hRet : (host hhints).ret = 0
    · obtain ⟨out, hFound, hTranslated⟩ :=
        @getaddrinfo_found os hbufs bufs host hints hhints hHints hRet
      rw [hFound] at hAnswers
      cases hAnswers with
      | @found out p hSpans =>
        refine ⟨_, blocks ++ [ids], lost, rfl, hTidy.grow hOwns hSame ?_, by simp [hAccepted]⟩
        exact ⟨out, hSpans, by rwa [answered, hHints]⟩
    · rw [getaddrinfo_failed hHints hRet] at hAnswers
      generalize (host hhints).ret = ret at hAnswers
      cases hAnswers with
      | failed hNone =>
        subst hNone
        exact ⟨⟨h, s.held⟩, blocks, lost, rfl, hTidy.lose hOwns hSame, by simp [hAccepted]⟩

theorem getifaddrs_tidy {bufs : Nat → Bytes × Bytes} {host : HostInterfaces}
    (hTidy : Tidy os iff s blocks lost) :
    ∃ s' blocks', step os iff s (.getifaddrs bufs host) = some s' ∧
      Tidy os iff s' blocks' lost := by
  obtain ⟨hFailed, hFound⟩ := getifaddrs_builds os iff bufs host hTidy.owns
  by_cases hRet : host.ret = 0
  · obtain ⟨p, h, ids, items, hRun, hOwns, hSame, hSpans, hItems⟩ := hFound hRet
    have hNew : (Held.ifaddrs host.list p).Holds os iff h ids := ⟨items, hSpans, hItems⟩
    exact ⟨⟨h, s.held ++ [.ifaddrs host.list p]⟩, blocks ++ [ids], by simp only [step, hRun],
      hTidy.grow hOwns hSame hNew⟩
  · exact ⟨s, blocks, by simp only [step, hFailed hRet], hTidy⟩

/-- Every call that the program may make is answered, and what is in use stays accounted for. -/
theorem step_tidy {call : Call} (hTidy : Tidy os iff s blocks lost) (hAllowed : call.Allowed s) :
    ∃ s' blocks' lost', step os iff s call = some s' ∧ Tidy os iff s' blocks' lost' ∧
      (lost' = [] ↔ lost = [] ∧ call.Accepted os) := by
  cases call with
  | getaddrinfo hbufs bufs host hints => exact getaddrinfo_tidy hTidy
  | getifaddrs bufs host =>
    obtain ⟨s', blocks', hStep, hTidy'⟩ := @getifaddrs_tidy os iff s blocks lost bufs host hTidy
    exact ⟨s', blocks', lost, hStep, hTidy', by simp [Call.Accepted]⟩
  | freeaddrinfo k =>
    obtain ⟨hosts, p, hk⟩ := hAllowed
    obtain ⟨h, others, hFree, hTidy'⟩ := hTidy.give (fun h => freeaddrinfo h p) hk
      fun ids rest hHolds hOwns => by
        obtain ⟨out, hSpans, -⟩ := hHolds
        exact freeaddrinfo_spans hSpans hOwns
    refine ⟨⟨h, s.held.eraseIdx k⟩, others, lost, ?_, hTidy', by simp [Call.Accepted]⟩
    simp only [step, hk, hFree, Option.map_some]
  | freeifaddrs k =>
    obtain ⟨interfaces, p, hk⟩ := hAllowed
    obtain ⟨h, others, hFree, hTidy'⟩ := hTidy.give (fun h => freeifaddrs h p) hk
      fun ids rest hHolds hOwns => by
        obtain ⟨out, hSpans, -⟩ := hHolds
        exact freeifaddrs_spans hSpans hOwns
    refine ⟨⟨h, s.held.eraseIdx k⟩, others, lost, ?_, hTidy', by simp [Call.Accepted]⟩
    simp only [step, hk, hFree, Option.map_some]

theorem step_allowed {call : Call} {s' : Client} (hStep : step os iff s call = some s') :
    call.Allowed s := by
  cases call with
  | getaddrinfo | getifaddrs => trivial
  | freeaddrinfo k =>
    simp only [step] at hStep
    split at hStep
    · exact ⟨_, _, ‹_›⟩
    · cases hStep
  | freeifaddrs k =>
    simp only [step] at hStep
    split at hStep
    · exact ⟨_, _, ‹_›⟩
    · cases hStep

end Steps

theorem run_tidy {os : Os} {iff : HostIff} {tr : List Call} {s : Client}
    (hRun : exec (step os iff) .start tr = some s) :
    ∃ blocks lost, Tidy os iff s blocks lost ∧ (lost = [] ↔ ∀ call ∈ tr, call.Accepted os) := by
  refine exec_history (P := fun tr s => ∃ blocks lost, Tidy os iff s blocks lost ∧
    (lost = [] ↔ ∀ call ∈ tr, call.Accepted os)) ?_ ?_ hRun
  · exact ⟨[], [], ⟨.nil, owns_empty⟩, by simp⟩
  · rintro tr s call s' - ⟨blocks, lost, hTidy, hLost⟩ hStep
    obtain ⟨s'', blocks', lost', hStep', hTidy', hLost'⟩ := step_tidy hTidy (step_allowed hStep)
    obtain rfl : s'' = s' := Option.some.inj (hStep'.symm.trans hStep)
    refine ⟨blocks', lost', hTidy', ?_⟩
    rw [hLost', hLost]
    simp [or_imp, forall_and]

/-- Whatever the program calls, in whatever order it gives its lists back: every list that it holds
still says what the host answered, the blocks in use are those of the lists held and, exactly when
some hints had no form for the host, blocks that nobody can free; no block is freed twice, and every
call that the program may make next touches only blocks in use. -/
theorem lists_are_accounted_for (os : Os) (iff : HostIff) (tr : List Call) (s : Client)
    (hRun : exec (step os iff) .start tr = some s) :
    (∃ blocks lost, List.Forall₂ (Held.Holds os iff s.memory) s.held blocks ∧
      (blocks.flatten ++ lost).Nodup ∧
      (∀ i, (∃ node, s.memory.load i = some node) ↔ i ∈ blocks.flatten ++ lost) ∧
      (lost = [] ↔ ∀ call ∈ tr, call.Accepted os)) ∧
    (∀ c ∈ s.memory, c.frees ≤ 1) ∧
    ∀ call : Call, call.Allowed s → ∃ s', step os iff s call = some s' := by
  obtain ⟨blocks, lost, hTidy, hLost⟩ := run_tidy hRun
  refine ⟨⟨blocks, lost, hTidy.held, hTidy.owns.nodup, fun i => hTidy.owns.load_iff, hLost⟩,
    fun c hc => ?_, fun call hAllowed => ?_⟩
  · obtain ⟨i, hi⟩ := List.mem_iff_getElem?.mp hc
    rw [hTidy.owns.frees i c hi]
    split <;> omega
  · obtain ⟨s', -, -, hStep, -⟩ := step_tidy hTidy hAllowed
    exact ⟨s', hStep⟩

/-- A lookup of a service, the interfaces, and the service's list given back. -/
def lookups : List Call :=
  [.getaddrinfo (fun _ => Bytes.zero) (fun _ => Bytes.zero) (fun _ => ⟨0, tcpService⟩) [],
    .getifaddrs (fun _ => (Bytes.zero, Bytes.zero))
      ⟨0, [⟨some [108, 111], 73, some loopback, none⟩]⟩,
    .freeaddrinfo 0]

/-- The second entry of the service and its address are freed; the interface is still there. -/
theorem lists_are_accounted_for_lookups : ∃ s,
    exec (step .linux fun _ => none) .start lookups = some s ∧
      s.memory.map (·.frees) = [1, 1, 1, 1, 1, 0, 0, 0] ∧ (∀ c ∈ s.memory, c.frees ≤ 1) ∧
      ∃ s', step .linux (fun _ => none) s (.freeifaddrs 0) = some s' := by
  refine ⟨_, rfl, by decide, ?_⟩
  obtain ⟨-, hFrees, hNext⟩ := lists_are_accounted_for .linux (fun _ => none) lookups _ rfl
  exact ⟨hFrees, hNext (.freeifaddrs 0) ⟨_, _, rfl⟩⟩

end LibcShim.Network.Lists
