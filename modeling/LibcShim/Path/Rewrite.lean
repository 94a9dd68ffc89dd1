import Mathlib.Data.List.Basic
import Mathlib.Data.List.TakeWhile

/-! The rewriting of paths: `iorewrite0` over the table `rewrite_filesystem_access`, and the symbols
of the `open` family, which put a path through it once or twice. -/

namespace LibcShim.Path

/-- A `std::string`; it may hold zeros. -/
abbrev CxxString := List Char

/-- What a `const char *` leads to, up to the zero that ends it. -/
structure CString where
  chars : List Char
  noNul : '\x00' ∉ chars
  deriving DecidableEq

/-- `s.data()` as the callee reads it. -/
def data (s : CxxString) : CString where
  chars := s.takeWhile (· ≠ '\x00')
  noNul h := by simpa using List.mem_takeWhile_imp h

structure Rule where
  first : CxxString
  second : CxxString
  deriving DecidableEq

/-- The loop over the table; a path that is not empty. -/
def rewriteLoop (path : CString) : List Rule → CxxString
  | [] => path.chars
  | kv :: rules =>
    if path.chars.head? ≠ some '/' ∧ kv.first = ['.'] then kv.second ++ path.chars
    else if kv.first <+: path.chars ∧ ¬(data kv.first).chars <+: kv.second then
      kv.second ++ path.chars.drop kv.first.length
    else rewriteLoop path rules

/-- `iorewrite0`; the path may be null. -/
def iorewrite0 (rules : List Rule) : Option CString → CxxString
  | none => []
  | some path => if path.chars.length > 0 then rewriteLoop path rules else []

/-- The path that a function behind `IOREWRITE1` is called with. -/
def rewritten (rules : List Rule) (path : Option CString) : Option CString :=
  some (data (iorewrite0 rules path))

def open_ (rules : List Rule) (pathname : Option CString) : Option CString :=
  rewritten rules pathname

def open2 (pathname : Option CString) : Option CString := pathname

def open3 (rules : List Rule) (pathname : Option CString) : Option CString :=
  rewritten rules pathname

/-- The symbol `__open_2`. -/
def open2Symbol (rules : List Rule) (path1 : Option CString) : Option CString :=
  open2 (rewritten rules path1)

/-- The symbol `__libc_shim_open_3`. -/
def open3Symbol (rules : List Rule) (path1 : Option CString) : Option CString :=
  open3 rules (rewritten rules path1)

section Rules

variable {rules : List Rule} {path : CString} {kv : Rule}

theorem CString.ext' {p q : CString} (h : p.chars = q.chars) : p = q := by
  cases p
  cases q
  simpa using h

theorem data_of_noNul {s : CxxString} (h : '\x00' ∉ s) : (data s).chars = s := by
  refine List.takeWhile_eq_self_iff.mpr fun c hc => decide_eq_true ?_
  rintro rfl
  exact h hc

theorem data_chars (p : CString) : data p.chars = p := CString.ext' (data_of_noNul p.noNul)

theorem data_append_of_nul {s t : CxxString} (h : '\x00' ∈ s) :
    (data (s ++ t)).chars = (data s).chars := by
  unfold data
  dsimp only
  rw [List.takeWhile_append, if_neg]
  intro hAll
  have hSelf := (List.takeWhile_prefix (fun c => decide (c ≠ '\x00'))).eq_of_length hAll
  have hZero := List.takeWhile_eq_self_iff.mp hSelf _ h
  simp at hZero

theorem data_prefix (s : CxxString) : (data s).chars <+: s := List.takeWhile_prefix _

def Rule.IsDot (kv : Rule) (path : CString) : Prop :=
  path.chars.head? ≠ some '/' ∧ kv.first = ['.']

def Rule.IsStart (kv : Rule) (path : CString) : Prop :=
  kv.first <+: path.chars ∧ ¬(data kv.first).chars <+: kv.second

instance : Decidable (kv.IsDot path) := inferInstanceAs (Decidable (_ ∧ _))

instance : Decidable (kv.IsStart path) := inferInstanceAs (Decidable (_ ∧ _))

def firing (rules : List Rule) (path : CString) : Option Rule :=
  if path.chars = [] then none
  else rules.find? fun kv => decide (kv.IsDot path ∨ kv.IsStart path)

def Rule.apply (kv : Rule) (path : CString) : CString :=
  data <| if kv.IsDot path then kv.second ++ path.chars
    else kv.second ++ path.chars.drop kv.first.length

theorem rewriteLoop_eq :
    data (rewriteLoop path rules) =
      ((rules.find? fun kv => decide (kv.IsDot path ∨ kv.IsStart path)).map
        fun kv => kv.apply path).getD path := by
  induction rules with
  | nil => exact data_chars path
  | cons kv rules ih =>
    by_cases hDot : kv.IsDot path
    · have hLoop : rewriteLoop path (kv :: rules) = kv.second ++ path.chars := if_pos hDot
      simp [hLoop, hDot, Rule.apply]
    · by_cases hStart : kv.IsStart path
      · have hLoop : rewriteLoop path (kv :: rules) =
            kv.second ++ path.chars.drop kv.first.length :=
          (if_neg hDot).trans (if_pos hStart)
        simp [hLoop, hDot, hStart, Rule.apply]
      · have hLoop : rewriteLoop path (kv :: rules) = rewriteLoop path rules :=
          (if_neg hDot).trans (if_neg hStart)
        simp [hLoop, hDot, hStart, ih]

theorem rewritten_eq :
    rewritten rules (some path) =
      some (((firing rules path).map fun kv => kv.apply path).getD path) := by
  unfold rewritten iorewrite0 firing
  by_cases hEmpty : path.chars = []
  · simp only [hEmpty, List.length_nil, gt_iff_lt, Nat.lt_irrefl, if_false, if_true,
      Option.map_none, Option.getD_none, Option.some.injEq]
    exact CString.ext' (by rw [hEmpty]; rfl)
  · have hLength : path.chars.length > 0 := List.length_pos_iff.mpr hEmpty
    simp only [hLength, hEmpty, if_true, if_false]
    rw [rewriteLoop_eq]

/-- A rule that replaces a start of a path changes the path: a target that begins with the start is
guarded against. -/
theorem start_apply_ne (hDot : ¬kv.IsDot path) (hStart : kv.IsStart path) :
    kv.apply path ≠ path := by
  obtain ⟨⟨rest, hRest⟩, hGuard⟩ := hStart
  have hNoNul : '\x00' ∉ kv.first ++ rest := hRest ▸ path.noNul
  have hFirst : (data kv.first).chars = kv.first :=
    data_of_noNul fun h => hNoNul (List.mem_append_left _ h)
  rw [hFirst] at hGuard
  intro hSame
  have hChars : (data (kv.second ++ rest)).chars = kv.first ++ rest := by
    have := congrArg CString.chars hSame
    rwa [Rule.apply, if_neg hDot, ← hRest, List.drop_left] at this
  by_cases hNul : '\x00' ∈ kv.second
  · -- the target ends the string, so the path is a start of the target
    have hData : (data (kv.second ++ rest)).chars <+: kv.second := by
      rw [data_append_of_nul hNul]
      exact data_prefix _
    rw [hChars] at hData
    exact hGuard ((List.prefix_append _ _).trans hData)
  · have hAll : '\x00' ∉ kv.second ++ rest := by
      intro h
      rcases List.mem_append.mp h with h | h
      · exact hNul h
      · exact hNoNul (List.mem_append_right _ h)
    rw [data_of_noNul hAll] at hChars
    have hEqual := List.append_cancel_right hChars
    exact hGuard (hEqual ▸ List.prefix_refl _)

theorem apply_eq_self (hFires : kv.IsDot path ∨ kv.IsStart path) :
    kv.apply path = path ↔ kv.IsDot path ∧ data (kv.second ++ path.chars) = path := by
  by_cases hDot : kv.IsDot path
  · simp [Rule.apply, hDot]
  · simp only [hDot, false_and, iff_false]
    exact start_apply_ne hDot (hFires.resolve_left hDot)

theorem firing_fires (h : firing rules path = some kv) : kv.IsDot path ∨ kv.IsStart path := by
  unfold firing at h
  split at h
  · cases h
  · exact of_decide_eq_true
      (List.find?_some (p := fun kv : Rule => decide (kv.IsDot path ∨ kv.IsStart path)) h)

/-- No rule fires on what the first firing rule makes of the path, but for a rule `"."` that puts
nothing before it. -/
def Settled (rules : List Rule) (path : CString) : Prop :=
  ∀ kv, firing rules path = some kv → ∀ kv', firing rules (kv.apply path) = some kv' →
    kv'.IsDot (kv.apply path) ∧ data (kv'.second ++ (kv.apply path).chars) = kv.apply path

/-- The rewriting of a path is idempotent, and the three symbols open the same host path for it,
exactly when the path is settled. -/
theorem rewritten_idempotent :
    (rewritten rules (rewritten rules (some path)) = rewritten rules (some path) ∧
        open3Symbol rules (some path) = open_ rules (some path) ∧
        open3Symbol rules (some path) = open2Symbol rules (some path)) ↔
      Settled rules path := by
  have hOnce : rewritten rules (rewritten rules (some path)) = rewritten rules (some path) ↔
      Settled rules path := by
    rw [rewritten_eq]
    cases hFirst : firing rules path with
    | none =>
      simp only [Option.map_none, Option.getD_none, rewritten_eq, hFirst, true_iff]
      intro kv hkv
      cases hFirst.symm.trans hkv
    | some kv =>
      simp only [Option.map_some, Option.getD_some, rewritten_eq, Option.some.injEq]
      cases hSecond : firing rules (kv.apply path) with
      | none =>
        simp only [Option.map_none, Option.getD_none, true_iff]
        intro kv₁ hkv kv' hkv'
        obtain rfl := Option.some.inj (hFirst.symm.trans hkv)
        cases hSecond.symm.trans hkv'
      | some kv' =>
        simp only [Option.map_some, Option.getD_some, apply_eq_self (firing_fires hSecond)]
        constructor
        · intro hKeeps kv₁ hkv kv₂ hkv₂
          obtain rfl := Option.some.inj (hFirst.symm.trans hkv)
          obtain rfl := Option.some.inj (hSecond.symm.trans hkv₂)
          exact hKeeps
        · intro hSettled
          exact hSettled kv hFirst kv' hSecond
  constructor
  · intro h
    exact hOnce.mp h.1
  · intro h
    have hSame := hOnce.mpr h
    exact ⟨hSame, hSame, hSame⟩

end Rules

def subRules : List Rule := [⟨['.'], "sub/".toList⟩]

def relativePath : CString := ⟨['a'], by decide⟩

theorem relative_path_rewritten_twice :
    ¬ ∀ (rules : List Rule) (path : CString),
      rewritten rules (rewritten rules (some path)) = rewritten rules (some path) := by
  intro hClaim
  have hSame := hClaim subRules relativePath
  have hTwice : rewritten subRules (rewritten subRules (some relativePath)) =
      some ⟨"sub/sub/a".toList, by decide⟩ := by decide
  have hOnce : rewritten subRules (some relativePath) = some ⟨"sub/a".toList, by decide⟩ := by
    decide
  rw [hTwice, hOnce] at hSame
  exact absurd hSame (by decide)

end LibcShim.Path
