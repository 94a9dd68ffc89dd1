import LibcShim.Kit.Run
import LibcShim.Pthread.Object

/-! The cached end-of-file flag of a guest `FILE`: bit `0x20` of `_flags`, which the guest's `feof`
reads, against the indicator of the host stream.  What a call of the host leaves of the indicator is
a choice of the run. -/

namespace LibcShim.Stdio.Eof

open Kit

/-- `_flags` and the indicator of the stream behind `wrapped`. -/
structure File where
  flags : BitVec 16
  hostEof : Bool
  deriving DecidableEq, Repr

def eofFlag : BitVec 16 := 0x20

def File.feof (f : File) : Bool := f.flags &&& eofFlag != 0

def updateFeof (f : File) : File := { f with flags := if f.hostEof then eofFlag else 0 }

/-- A stream that was just wrapped, or a standard one. -/
def wrapped : File := ⟨0, false⟩

/-- The host function alone, as `AutoArgRewritten` calls it. -/
def autoArgRewritten (eof : Bool) (f : File) : File := { f with hostEof := eof }

def fread (eof : Bool) (f : File) : File := updateFeof (autoArgRewritten eof f)

def fscanf (eof : Bool) (f : File) : File := updateFeof (autoArgRewritten eof f)

def vfscanf (eof : Bool) (f : File) : File := updateFeof (autoArgRewritten eof f)

def fseeko (eof : Bool) (f : File) : File := autoArgRewritten eof f

/-- The program ends where the length is beyond the buffer. -/
def fgetsChk (len : Int) (maxLen : Nat) (eof : Bool) (f : File) : Option File :=
  if len < 0 ∨ len.toNat > maxLen then none else some (autoArgRewritten eof f)

def sizeMax (abi : Pthread.Abi) : Nat := 2 ^ abi.bits - 1

def overflows (abi : Pthread.Abi) (size count : Nat) : Bool :=
  size != 0 && decide (count > sizeMax abi / size)

/-- A request beyond a `size_t` goes to the host unchecked; the program ends at another one beyond
the buffer. -/
def freadChk (abi : Pthread.Abi) (size count bufSize : Nat) (eof : Bool) (f : File) :
    Option File :=
  if overflows abi size count then some (autoArgRewritten eof f)
  else if size * count > bufSize then none
  else some (updateFeof (autoArgRewritten eof f))

/-- The exported functions that can move the indicator, with the arguments they check. -/
inductive Call
  | fread
  | freadChk (size count bufSize : Nat)
  | fscanf
  | vfscanf
  | fgetc
  | getc
  | fgets
  | fgetsChk (len : Int) (maxLen : Nat)
  | getline
  | getdelim
  | getw
  | ungetc
  | fseek
  | fseeko
  | rewind
  | clearerr
  deriving DecidableEq, Repr

structure Op where
  call : Call
  eof : Bool
  deriving DecidableEq, Repr

def step (abi : Pthread.Abi) (f : File) (op : Op) : Option File :=
  match op.call with
  | .fread => some (fread op.eof f)
  | .freadChk size count bufSize => freadChk abi size count bufSize op.eof f
  | .fscanf => some (fscanf op.eof f)
  | .vfscanf => some (vfscanf op.eof f)
  | .fgetsChk len maxLen => fgetsChk len maxLen op.eof f
  | .fseeko => some (fseeko op.eof f)
  | .fgetc | .getc | .fgets | .getline | .getdelim | .getw | .ungetc | .fseek | .rewind
  | .clearerr => some (autoArgRewritten op.eof f)

/-- The calls that end in `update_feof`. -/
def Call.refreshes (abi : Pthread.Abi) : Call → Bool
  | .fread | .fscanf | .vfscanf => true
  | .freadChk size count _ => !overflows abi size count
  | _ => false

def Mirrors (f : File) : Prop := f.feof = f.hostEof

section Runs

variable {abi : Pthread.Abi} {f f' : File} {op : Op} {tr : List Op}

theorem mirrors_updateFeof (f : File) : Mirrors (updateFeof f) := by
  obtain ⟨flags, hostEof⟩ := f
  cases hostEof <;> simp [Mirrors, updateFeof, File.feof, eofFlag]

theorem step_eq (h : step abi f op = some f') :
    f' = if op.call.refreshes abi then updateFeof (autoArgRewritten op.eof f)
      else autoArgRewritten op.eof f := by
  obtain ⟨call, eof⟩ := op
  cases call with
  | freadChk size count bufSize =>
    simp only [step, freadChk] at h
    split at h
    · rename_i hOver
      simpa [Call.refreshes, hOver] using h.symm
    · rename_i hOver
      split at h
      · cases h
      · simpa [Call.refreshes, hOver] using h.symm
  | fgetsChk len maxLen =>
    simp only [step, fgetsChk] at h
    split at h
    · cases h
    · exact (Option.some.inj h).symm
  | _ => exact (Option.some.inj h).symm

theorem step_mirrors (hMirrors : Mirrors f) (h : step abi f op = some f') :
    Mirrors f' ↔ op.call.refreshes abi = true ∨ op.eof = f.hostEof := by
  rw [step_eq h]
  by_cases hRefresh : op.call.refreshes abi = true
  · rw [if_pos hRefresh]
    exact iff_of_true (mirrors_updateFeof _) (Or.inl hRefresh)
  · have hFlag : (autoArgRewritten op.eof f).feof = f.hostEof := hMirrors
    rw [if_neg hRefresh, Mirrors, hFlag, or_iff_right hRefresh]
    exact eq_comm

/-- After each call of a run the guest's flag is the host's indicator, exactly when each call of
the run refreshes the flag or leaves the indicator as it was. -/
theorem feof_mirrors_host (hRun : exec (step abi) wrapped tr = some f) :
    (∀ m, Visits (step abi) wrapped tr m → Mirrors m) ↔
      Along (step abi) (fun m op => op.call.refreshes abi = true ∨ op.eof = m.hostEof) wrapped
        tr :=
  visits_invariant_iff (fun _ _ _ => step_mirrors) rfl hRun

theorem fread_mirrors_host :
    ∃ f, exec (step .lp64) wrapped [⟨.fread, true⟩, ⟨.fgetc, true⟩] = some f ∧ Mirrors f := by
  refine ⟨_, rfl, ?_⟩
  have hRefreshes : Along (step .lp64) (fun m op => op.call.refreshes .lp64 = true ∨
      op.eof = m.hostEof) wrapped [⟨.fread, true⟩, ⟨.fgetc, true⟩] := by
    refine ⟨Or.inl rfl, fun m hm => ⟨Or.inr ?_, fun _ _ => trivial⟩⟩
    obtain rfl := Option.some.inj hm
    rfl
  exact (feof_mirrors_host rfl).mpr hRefreshes _
    ⟨[⟨.fread, true⟩, ⟨.fgetc, true⟩], [], (List.append_nil _).symm, rfl⟩

/-- `fgetc` at the end of the stream. -/
theorem fgetc_misses_eof :
    ¬ ∀ (abi : Pthread.Abi) (tr : List Op) (f : File), exec (step abi) wrapped tr = some f →
      Mirrors f := by
  intro hClaim
  have hFlag := hClaim .lp64 [⟨.fgetc, true⟩] ⟨0, true⟩ rfl
  cases hFlag

end Runs

end LibcShim.Stdio.Eof
