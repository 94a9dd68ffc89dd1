import LibcShim.Network.Sockaddr
import LibcShim.Pthread.Object

/-! `ioctl` with `SIOCGIFCONF`: the host's entries, of any families and perhaps of different sizes,
and the guest's, which are of one size and for IPv4 only. -/

namespace LibcShim.Network.Ifconf

open Kit
open Pthread (Abi)

/-- `sizeof(bionic::ifreq)`: a name of 16 bytes, a `sockaddr_in`, and padding on LP64. -/
def bionicIfreq : Abi → Nat
  | .lp64 => 40
  | .ilp32 => 32

/-- Which of the three definitions of `NEXT_INTERFACE` the host gets. -/
inductive NextInterface
  | sizeofAddrIfreq
  | saLen
  | fixed
  deriving DecidableEq, Repr

/-- A host with its `sizeof(ifreq)`, which holds a name and an address at least. -/
structure IfconfHost where
  os : Os
  next : NextInterface
  ifreq : Nat
  ifreq_ge : 32 ≤ ifreq

/-- From an entry at `cur` to the one behind it; `sa_len` is the first byte of its address. -/
def stride (host : IfconfHost) (m : Bytes) (cur : Nat) : Nat :=
  match host.next with
  | .sizeofAddrIfreq =>
    if (m (cur + 16)).toNat > 16 then host.ifreq - 16 + (m (cur + 16)).toNat else host.ifreq
  | .saLen => 16 + (m (cur + 16)).toNat
  | .fixed => host.ifreq

theorem stride_ge (host : IfconfHost) (m : Bytes) (cur : Nat) : 16 ≤ stride host m cur := by
  have hIfreq := host.ifreq_ge
  unfold stride
  cases host.next with
  | sizeofAddrIfreq =>
    simp only
    split <;> omega
  | saLen => simp
  | fixed => exact Nat.le_trans (by decide) hIfreq

theorem stride_forward {host : IfconfHost} {m : Bytes} {cur last : Nat} (h : cur < last) :
    last - (cur + stride host m cur) < last - cur := by
  have hStride := stride_ge host m cur
  omega

/-- `sa_family == AF_INET` for the entry at `cur`. -/
def isInet (host : IfconfHost) (m : Bytes) (cur : Nat) : Bool :=
  hostFamily host.os (m.shift (cur + 16)) == AfFamily.inet.host host.os

/-- The name of entry `cnt` of the guest, from the host's entry at `cur`. -/
def setName (abi : Abi) (m : Bytes) (cur cnt : Nat) (req : Bytes) : Bytes :=
  (req.strncpy (cnt * bionicIfreq abi) m cur 16).store8 (cnt * bionicIfreq abi + 15) 0

/-- The loop over the host's entries, from `cur` up to `last`; `cnt` of the guest's are made. -/
def convert (host : IfconfHost) (abi : Abi) (last maxcnt cur cnt : Nat) (m req : Bytes) :
    Except String (Nat × Bytes) :=
  if cur < last ∧ cnt < maxcnt then
    let req := setName abi m cur cnt req
    if isInet host m cur then
      let addr := cnt * bionicIfreq abi + 16
      match fromHost host.os (m.shift (cur + 16)) (req.shift addr) with
      | .error e => .error e
      | .ok bytes =>
        let req := req.graft addr bytes
        -- the address goes back to where it came from
        match toHost host.os (req.shift addr) (m.shift (cur + 16)) with
        | .error e => .error e
        | .ok bytes =>
          let m := m.graft (cur + 16) bytes
          convert host abi last maxcnt (cur + stride host m cur) (cnt + 1) m req
    else convert host abi last maxcnt (cur + stride host m cur) cnt m req
  else .ok (cnt, req)
termination_by last - cur
decreasing_by all_goals exact stride_forward (And.left ‹_›)

/-- `bionic::ifconf`, with the memory behind `req`. -/
structure GuestIfconf where
  len : Int
  req : Bytes

/-- What the host's call returns and leaves: `ifc_len` and the memory behind `ifc_req`. -/
structure HostReply where
  ret : Int
  len : Nat
  req : Bytes

def ioctlSocketCgifconf (host : IfconfHost) (abi : Abi) (reply : Int → HostReply)
    (buf : GuestIfconf) : Except String (Int × GuestIfconf) :=
  let cnt := (buf.len % 2 ^ abi.bits).toNat / bionicIfreq abi
  let hbuf := reply (Int.bmod (cnt * host.ifreq) (2 ^ 32))
  if hbuf.ret < 0 then .ok (hbuf.ret, buf)
  else
    (convert host abi hbuf.len cnt 0 0 hbuf.req buf.req).map fun (cnt, req) =>
      (hbuf.ret, ⟨↑(cnt * bionicIfreq abi), req⟩)

/-! ### The entries of the two sides -/

/-- Where the host's entries are, from `cur` up to `last`. -/
def offsets (host : IfconfHost) (m : Bytes) (last cur : Nat) : List Nat :=
  if cur < last then cur :: offsets host m last (cur + stride host m cur) else []
termination_by last - cur
decreasing_by exact stride_forward ‹_›

/-- The IPv4 entries of a reply. -/
def inetEntries (host : IfconfHost) (m : Bytes) (last cur : Nat) : List Nat :=
  (offsets host m last cur).filter fun o => isInet host m o

/-- Entry `k` of the guest has the name of the host's entry at `o`, as far as it fits before the
zero that ends it, and its address. -/
structure HoldsInterface (abi : Abi) (m : Bytes) (o : Nat) (req : Bytes) (k : Nat) : Prop where
  name : req.cstring (k * bionicIfreq abi) 16 = (m.cstring o 16).take 15
  ended : req (k * bionicIfreq abi + 15) = 0
  family : bionicFamily (req.shift (k * bionicIfreq abi + 16)) = AfFamily.inet.bionic
  address : ∀ i, 2 ≤ i → i < 8 → req (k * bionicIfreq abi + 16 + i) = m (o + 16 + i)

section Entry

variable {host : IfconfHost} {abi : Abi} {m req req' : Bytes} {last maxcnt cur cnt k o : Nat}

theorem bionicIfreq_ge (abi : Abi) : 32 ≤ bionicIfreq abi := by cases abi <;> decide

/-- What `convert` makes of an IPv4 entry. -/
def setEntry (abi : Abi) (m : Bytes) (cur cnt : Nat) (req : Bytes) : Bytes :=
  let named := setName abi m cur cnt req
  named.graft (cnt * bionicIfreq abi + 16)
    ((setBionicFamily (named.shift (cnt * bionicIfreq abi + 16)) AfFamily.inet.bionic).memcpy 2
      (m.shift (cur + 16)) 2 AfFamily.inet.payload)

theorem isInet_eq : isInet host m cur = true ↔
    AfFamily.ofHost host.os (hostFamily host.os (m.shift (cur + 16))) = some .inet := by
  rw [AfFamily.ofHost_eq, isInet, beq_iff_eq]

theorem setHostFamily_same {os : Os} {out : Bytes} {f : AfFamily}
    (h : hostFamily os out = f.host os) : setHostFamily os out (f.host os) = out := by
  rw [← h]
  cases os with
  | linux => exact Bytes.store16_same
  | apple => exact Bytes.store8_same
  | freebsd => exact Bytes.store8_same

/-- The way back to the host changes nothing. -/
theorem toHost_back {out copy : Bytes} {os : Os}
    (hFamily : AfFamily.ofHost os (hostFamily os out) = some .inet) :
    toHost os ((setBionicFamily copy AfFamily.inet.bionic).memcpy 2 out 2 AfFamily.inet.payload) out
      = .ok out := by
  rw [toHost_eq (AfFamily.ofBionic_eq.mpr copied_family),
    setHostFamily_same (AfFamily.ofHost_eq.mp hFamily)]
  refine congrArg Except.ok (funext fun k => ?_)
  by_cases hk : 2 ≤ k ∧ k < 2 + AfFamily.inet.payload
  · rw [Bytes.memcpy_inside hk, show 2 + (k - 2) = k by omega, Bytes.memcpy_inside hk]
    congr 1
    omega
  · exact Bytes.memcpy_outside (by omega)

theorem convert_done (h : ¬(cur < last ∧ cnt < maxcnt)) :
    convert host abi last maxcnt cur cnt m req = .ok (cnt, req) := by
  rw [convert, if_neg h]

theorem convert_inet (h : cur < last ∧ cnt < maxcnt) (hInet : isInet host m cur = true) :
    convert host abi last maxcnt cur cnt m req =
      convert host abi last maxcnt (cur + stride host m cur) (cnt + 1) m
        (setEntry abi m cur cnt req) := by
  have hFamily := isInet_eq.mp hInet
  rw [convert, if_pos h, if_pos hInet]
  simp only [fromHost_eq hFamily, Bytes.shift_graft, toHost_back hFamily, Bytes.graft_shift]
  rfl

theorem convert_other (h : cur < last ∧ cnt < maxcnt) (hInet : ¬isInet host m cur = true) :
    convert host abi last maxcnt cur cnt m req =
      convert host abi last maxcnt (cur + stride host m cur) cnt m (setName abi m cur cnt req) := by
  rw [convert, if_pos h, if_neg hInet]

theorem inetEntries_done (h : ¬cur < last) : inetEntries host m last cur = [] := by
  rw [inetEntries, offsets, if_neg h]
  rfl

theorem inetEntries_inet (h : cur < last) (hInet : isInet host m cur = true) :
    inetEntries host m last cur =
      cur :: inetEntries host m last (cur + stride host m cur) := by
  rw [inetEntries, offsets, if_pos h, List.filter_cons_of_pos hInet, inetEntries]

theorem inetEntries_other (h : cur < last) (hInet : ¬isInet host m cur = true) :
    inetEntries host m last cur = inetEntries host m last (cur + stride host m cur) := by
  rw [inetEntries, offsets, if_pos h, List.filter_cons_of_neg hInet, inetEntries]

/-- An entry of the guest is written at its own place only. -/
theorem setName_outside {i : Nat}
    (h : i < cnt * bionicIfreq abi ∨ (cnt + 1) * bionicIfreq abi ≤ i) :
    setName abi m cur cnt req i = req i := by
  have hSize := bionicIfreq_ge abi
  rw [Nat.add_mul, Nat.one_mul] at h
  rw [setName, Bytes.store8_other (by omega), Bytes.strncpy_outside (by omega)]

theorem setEntry_outside {i : Nat}
    (h : i < cnt * bionicIfreq abi ∨ (cnt + 1) * bionicIfreq abi ≤ i) :
    setEntry abi m cur cnt req i = req i := by
  have hSize := bionicIfreq_ge abi
  have hName : setName abi m cur cnt req i = req i := setName_outside h
  rw [Nat.add_mul, Nat.one_mul] at h
  unfold setEntry
  rcases h with hBefore | hBehind
  · rw [Bytes.graft_before (by omega), hName]
  · obtain ⟨d, rfl⟩ := Nat.exists_eq_add_of_le
      (show cnt * bionicIfreq abi + 16 ≤ i by omega)
    rw [Bytes.graft_behind, Bytes.memcpy_outside (by simp only [AfFamily.payload]; omega),
      setBionicFamily, Bytes.store16, Bytes.store8_other (by omega), Bytes.store8_other (by omega)]
    exact hName

theorem setEntry_name {i : Nat} (h : i < cnt * bionicIfreq abi + 16) :
    setEntry abi m cur cnt req i = setName abi m cur cnt req i := Bytes.graft_before h

theorem setEntry_address :
    (setEntry abi m cur cnt req).shift (cnt * bionicIfreq abi + 16) =
      (setBionicFamily ((setName abi m cur cnt req).shift (cnt * bionicIfreq abi + 16))
        AfFamily.inet.bionic).memcpy 2 (m.shift (cur + 16)) 2 AfFamily.inet.payload :=
  Bytes.shift_graft

theorem setEntry_holds : HoldsInterface abi m cur (setEntry abi m cur cnt req) cnt where
  name := by
    have hLength : ((m.cstring cur 16).take 15).length < 16 := by
      rw [List.length_take]
      omega
    refine Bytes.cstring_eq_of hLength (fun j hj => ?_) fun b hb =>
      Bytes.cstring_nonzero (List.mem_of_mem_take hb)
    rw [setEntry_name (by omega), setName]
    by_cases hLast : j = 15
    · subst hLast
      rw [Bytes.store8, if_pos rfl, List.getD_eq_default _ _ (by omega)]
    · rw [Bytes.store8_other (by omega), Bytes.strncpy_inside (by omega),
        Nat.add_sub_cancel_left, List.getD_eq_getElem?_getD, List.getD_eq_getElem?_getD,
        List.getElem?_take_of_lt (by omega)]
  ended := by rw [setEntry_name (by omega), setName, Bytes.store8, if_pos rfl]
  family := by rw [setEntry_address, copied_family]
  address := by
    intro i hLow hHigh
    show (setEntry abi m cur cnt req).shift (cnt * bionicIfreq abi + 16) i = m (cur + 16 + i)
    rw [setEntry_address, Bytes.memcpy_inside (by simp only [AfFamily.payload]; omega), Bytes.shift]
    congr 1
    omega

/-- An entry stays while the guest's memory does at its place. -/
theorem HoldsInterface.congr (h : HoldsInterface abi m o req k)
    (hSame : ∀ i, k * bionicIfreq abi ≤ i → i < (k + 1) * bionicIfreq abi → req' i = req i) :
    HoldsInterface abi m o req' k := by
  have hSize := bionicIfreq_ge abi
  have hInside : ∀ i, k * bionicIfreq abi ≤ i → i < k * bionicIfreq abi + 24 → req' i = req i := by
    intro i hLow hHigh
    refine hSame i hLow ?_
    rw [Nat.add_mul, Nat.one_mul]
    omega
  refine ⟨?_, ?_, ?_, fun i hLow hHigh => ?_⟩
  · rw [← h.name, Bytes.cstring, Bytes.cstring,
      Bytes.slice_congr fun i hLow hHigh => hInside i hLow (by omega)]
  · rw [hInside _ (by omega) (by omega), h.ended]
  · rw [← h.family]
    unfold bionicFamily Bytes.load16 Bytes.shift
    rw [hInside _ (by omega) (by omega), hInside _ (by omega) (by omega)]
  · rw [hInside _ (by omega) (by omega), h.address i hLow hHigh]

end Entry

section Run

variable {host : IfconfHost} {abi : Abi} {m req : Bytes} {last maxcnt cur cnt : Nat}

/-- What the loop adds to the guest's memory, `req`, when the host's entries at `found` are still to
come and `cnt` of the guest's are made. -/
structure Filled (abi : Abi) (m : Bytes) (maxcnt cnt : Nat) (found : List Nat) (req : Bytes)
    (made : Nat × Bytes) : Prop where
  count : made.1 = min (cnt + found.length) maxcnt
  unchanged : ∀ i, i < cnt * bionicIfreq abi ∨ maxcnt * bionicIfreq abi ≤ i → made.2 i = req i
  entries : ∀ k o, found[k]? = some o → cnt + k < maxcnt → HoldsInterface abi m o made.2 (cnt + k)

theorem filled_done {found : List Nat} (hLe : cnt ≤ maxcnt) (h : found = [] ∨ ¬cnt < maxcnt) :
    Filled abi m maxcnt cnt found req (cnt, req) where
  count := by
    rcases h with rfl | hFull
    · exact (Nat.min_eq_left hLe).symm
    · show cnt = min (cnt + found.length) maxcnt
      omega
  unchanged := fun _ _ => rfl
  entries := by
    intro k o hFound hRoom
    rcases h with rfl | hFull
    · cases hFound
    · omega

theorem Filled.inet {found : List Nat} {made : Nat × Bytes} (hRoom : cnt < maxcnt)
    (h : Filled abi m maxcnt (cnt + 1) found (setEntry abi m cur cnt req) made) :
    Filled abi m maxcnt cnt (cur :: found) req made where
  count := by
    rw [h.count, List.length_cons]
    omega
  unchanged := by
    intro i hOutside
    have hEnd : (cnt + 1) * bionicIfreq abi ≤ maxcnt * bionicIfreq abi :=
      Nat.mul_le_mul_right _ hRoom
    have hStart : cnt * bionicIfreq abi ≤ (cnt + 1) * bionicIfreq abi :=
      Nat.mul_le_mul_right _ (Nat.le_succ cnt)
    rw [h.unchanged i (by omega), setEntry_outside (by omega)]
  entries := by
    intro k o hFound hFits
    cases k with
    | zero =>
      obtain rfl : cur = o := by simpa using hFound
      -- nothing later writes there
      exact setEntry_holds.congr fun i _ hHigh => h.unchanged i (Or.inl hHigh)
    | succ k =>
      have hLater := h.entries k o (by simpa using hFound) (by omega)
      rwa [Nat.add_assoc, Nat.add_comm 1 k] at hLater

theorem Filled.other {found : List Nat} {made : Nat × Bytes} (hRoom : cnt < maxcnt)
    (h : Filled abi m maxcnt cnt found (setName abi m cur cnt req) made) :
    Filled abi m maxcnt cnt found req made where
  count := h.count
  unchanged := by
    intro i hOutside
    have hEnd : (cnt + 1) * bionicIfreq abi ≤ maxcnt * bionicIfreq abi :=
      Nat.mul_le_mul_right _ hRoom
    rw [h.unchanged i hOutside, setName_outside (by omega)]
  entries := h.entries

/-- The two cursors: the host's moves with every entry, the guest's with those for IPv4. -/
theorem convert_filled (hLe : cnt ≤ maxcnt) : ∃ made,
    convert host abi last maxcnt cur cnt m req = .ok made ∧
      Filled abi m maxcnt cnt (inetEntries host m last cur) req made := by
  induction cur using offsets.induct host m last generalizing cnt req with
  | case1 cur hCur ih =>
    by_cases hRoom : cnt < maxcnt
    · by_cases hInet : isInet host m cur = true
      · obtain ⟨made, hMade, hFilled⟩ := @ih (setEntry abi m cur cnt req) (cnt + 1) hRoom
        refine ⟨made, (convert_inet ⟨hCur, hRoom⟩ hInet).trans hMade, ?_⟩
        rw [inetEntries_inet hCur hInet]
        exact hFilled.inet hRoom
      · obtain ⟨made, hMade, hFilled⟩ := @ih (setName abi m cur cnt req) cnt hLe
        refine ⟨made, (convert_other ⟨hCur, hRoom⟩ hInet).trans hMade, ?_⟩
        rw [inetEntries_other hCur hInet]
        exact hFilled.other hRoom
    · exact ⟨_, convert_done fun h => hRoom h.2, filled_done hLe (Or.inr hRoom)⟩
  | case2 cur hCur =>
    exact ⟨_, convert_done fun h => hCur h.1, filled_done hLe (Or.inl (inetEntries_done hCur))⟩

end Run

theorem capacity_eq {abi : Abi} {len : Int} (hLow : 0 ≤ len) (hHigh : len < 2 ^ 31) :
    (len % 2 ^ abi.bits).toNat / bionicIfreq abi = len.toNat / bionicIfreq abi := by
  have hBits : (2 : Int) ^ 31 < 2 ^ abi.bits := by cases abi <;> decide
  rw [Int.emod_eq_of_lt hLow (by omega)]

/-- A host that fails leaves the guest's list alone.  Otherwise its first IPv4 entries are in the
list, as many as fit, and nothing behind the last whole entry is written. -/
theorem ioctlSocketCgifconf_reports (host : IfconfHost) (abi : Abi) (reply : Int → HostReply)
    (buf : GuestIfconf) (hLow : 0 ≤ buf.len) (hHigh : buf.len < 2 ^ 31) :
    let capacity := buf.len.toNat / bionicIfreq abi
    let hbuf := reply (Int.bmod (capacity * host.ifreq) (2 ^ 32))
    let inet := inetEntries host hbuf.req hbuf.len 0
    (hbuf.ret < 0 → ioctlSocketCgifconf host abi reply buf = .ok (hbuf.ret, buf)) ∧
    (0 ≤ hbuf.ret → ∃ req,
      ioctlSocketCgifconf host abi reply buf =
        .ok (hbuf.ret, ⟨↑(min inet.length capacity * bionicIfreq abi), req⟩) ∧
      (∀ i, capacity * bionicIfreq abi ≤ i → req i = buf.req i) ∧
      ∀ k o, inet[k]? = some o → k < capacity → HoldsInterface abi hbuf.req o req k) := by
  intro capacity hbuf inet
  have hCall : ioctlSocketCgifconf host abi reply buf =
      if hbuf.ret < 0 then .ok (hbuf.ret, buf)
      else (convert host abi hbuf.len capacity 0 0 hbuf.req buf.req).map fun (cnt, req) =>
        (hbuf.ret, ⟨↑(cnt * bionicIfreq abi), req⟩) := by
    simp only [ioctlSocketCgifconf, capacity_eq hLow hHigh]
    rfl
  refine ⟨fun hFails => by rw [hCall, if_pos hFails], fun hAnswers => ?_⟩
  obtain ⟨made, hMade, hFilled⟩ : ∃ made,
      convert host abi hbuf.len capacity 0 0 hbuf.req buf.req = .ok made ∧
        Filled abi hbuf.req capacity 0 inet buf.req made := convert_filled (Nat.zero_le capacity)
  have hCount : made.1 = min inet.length capacity := by rw [hFilled.count, Nat.zero_add]
  refine ⟨made.2, ?_, fun i hi => hFilled.unchanged i (Or.inr hi), fun k o hFound hFits => ?_⟩
  · rw [hCall, if_neg (by omega), hMade, ← hCount]
    rfl
  · have hHolds := hFilled.entries k o hFound (by omega)
    rwa [Nat.zero_add] at hHolds

/-- A reply with two entries for `lo0`, of `AF_LINK` and of `AF_INET`. -/
def loopback : Bytes :=
  let name : List UInt8 := [108, 111, 48] ++ List.replicate 13 0
  Bytes.ofList (name ++ [16, 18] ++ List.replicate 14 0 ++ name ++ [16, 2, 0, 0, 127, 0, 0, 1])

theorem ioctlSocketCgifconf_reports_loopback : ∃ req,
    ioctlSocketCgifconf ⟨.apple, .sizeofAddrIfreq, 32, by decide⟩ .lp64
        (fun _ => ⟨0, 64, loopback⟩) ⟨100, Bytes.zero⟩ = .ok (0, ⟨40, req⟩) ∧
      HoldsInterface .lp64 loopback 32 req 0 := by
  let host : IfconfHost := ⟨.apple, .sizeofAddrIfreq, 32, by decide⟩
  have hInet : inetEntries host loopback 64 0 = [32] := by
    rw [inetEntries_other (by decide) (by decide),
      show 0 + stride host loopback 0 = 32 by decide, inetEntries_inet (by decide) (by decide),
      show 32 + stride host loopback 32 = 64 by decide, inetEntries_done (by decide)]
  obtain ⟨req, hCall, -, hEntries⟩ :=
    (ioctlSocketCgifconf_reports host .lp64 (fun _ => ⟨0, 64, loopback⟩) ⟨100, Bytes.zero⟩
      (by decide) (by decide)).2 (by decide)
  refine ⟨req, ?_, hEntries 0 32 (by simp only [hInet]; rfl) (by decide)⟩
  simp only [hInet] at hCall
  exact hCall

end LibcShim.Network.Ifconf
