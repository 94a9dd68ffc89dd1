import LibcShim.Kit.Decimal

/-! The `TZ` that `add_time_shimmed_symbols` puts together from the local offset, and what it means
by the grammar of POSIX. -/

namespace LibcShim.TimeZone

open Kit Decimal

/-- What `localtime_r` fills in that is used here. -/
structure Tm where
  gmtoff : Int
  zone : List Char
  deriving DecidableEq, Repr

def bufSize : Nat := 20

/-- The cast from a count of `std::chrono`. -/
def toInt (n : Int) : Int := n.bmod (2 ^ 32)

/-- Hours, minutes and seconds; `duration_cast` rounds towards zero. -/
def clock (gmtoff : Int) : Int × Int × Int :=
  let s := if gmtoff ≥ 0 then gmtoff else -gmtoff
  let m := s.tdiv 60
  let s := s - m * 60
  let h := m.tdiv 60
  let m := m - h * 60
  (h, m, s)

/-- `sprintf` with the format `<%.5s>%c%02d:%02d:%02d`. -/
def tzString (t : Tm) : List Char :=
  let (h, m, s) := clock t.gmtoff
  '<' :: (t.zone.take 5 ++ '>' :: (if t.gmtoff > 0 then '-' else '+') ::
    (padded 2 (toInt h) ++ ':' :: (padded 2 (toInt m) ++ ':' :: padded 2 (toInt s))))

/-! ### The grammar -/

def nameChar (c : Char) : Bool := c.isAlphanum || c == '+' || c == '-'

abbrev ZoneName := { name : List Char // 3 ≤ name.length ∧ ∀ c ∈ name, nameChar c = true }

/-- A quoted name with an offset, which is counted to the west. -/
structure PosixTz where
  name : ZoneName
  west : Bool
  hours : Fin 25
  minutes : Fin 60
  seconds : Fin 60
  deriving DecidableEq

def PosixTz.utcOffset (tz : PosixTz) : Int :=
  let offset : Int := 3600 * tz.hours + 60 * tz.minutes + tz.seconds
  if tz.west then -offset else offset

def PosixTz.written (tz : PosixTz) : List Char :=
  '<' :: (tz.name.val ++ '>' :: (if tz.west then '+' else '-') ::
    (padded 2 tz.hours ++ ':' :: (padded 2 tz.minutes ++ ':' :: padded 2 tz.seconds)))

def expect (c : Char) : List Char → Option (List Char)
  | [] => none
  | d :: s => if d = c then some s else none

def readName (s : List Char) : Option (ZoneName × List Char) :=
  let name := s.takeWhile nameChar
  if h : 3 ≤ name.length then
    some (⟨name, h, fun _ hc => List.mem_takeWhile_imp hc⟩, s.dropWhile nameChar)
  else none

def readSign : List Char → Option (Bool × List Char)
  | '+' :: s => some (true, s)
  | '-' :: s => some (false, s)
  | s => some (true, s)

/-- One or two digits of a number below `limit`. -/
def readField (limit : Nat) (s : List Char) : Option (Fin limit × List Char) := do
  let (n, rest) ← scan s
  if h : n < limit then
    if s.length - rest.length ≤ 2 then some (⟨n, h⟩, rest) else none
  else none

def readTz (s : List Char) : Option PosixTz := do
  let s ← expect '<' s
  let (name, s) ← readName s
  let s ← expect '>' s
  let (west, s) ← readSign s
  let (hours, s) ← readField 25 s
  let s ← expect ':' s
  let (minutes, s) ← readField 60 s
  let s ← expect ':' s
  let (seconds, s) ← readField 60 s
  if s.isEmpty then some ⟨name, west, hours, minutes, seconds⟩ else none

section Clock

variable {gmtoff : Int} {limit : Nat} {n : Int} {rest : List Char}

/-- The parts of an offset below 25 hours are in range and add up to it. -/
theorem clock_spec (h : gmtoff.natAbs < 25 * 3600) : ∃ hours minutes seconds : Nat,
    clock gmtoff = (↑hours, ↑minutes, ↑seconds) ∧ hours < 25 ∧ minutes < 60 ∧ seconds < 60 ∧
      3600 * hours + 60 * minutes + seconds = gmtoff.natAbs := by
  obtain ⟨s, hs⟩ : ∃ s, s = gmtoff.natAbs := ⟨_, rfl⟩
  obtain ⟨m, hm⟩ : ∃ m, m = s / 60 := ⟨_, rfl⟩
  obtain ⟨h, hh⟩ : ∃ h, h = m / 60 := ⟨_, rfl⟩
  have hAbs : (if gmtoff ≥ 0 then gmtoff else -gmtoff) = s := by
    split <;> omega
  have hMinutes : (s : Int).tdiv 60 = m := by
    rw [hm]
    rfl
  have hHours : (m : Int).tdiv 60 = h := by
    rw [hh]
    rfl
  refine ⟨h, m - h * 60, s - m * 60, ?_, by omega, by omega, by omega, by omega⟩
  simp only [clock, hAbs, hMinutes, hHours, Prod.mk.injEq, true_and]
  omega

theorem toInt_eq (h : n.natAbs < 2 ^ 31) : toInt n = n :=
  Int.bmod_eq_of_le (by omega) (by omega)

theorem expect_cons (c : Char) : expect c (c :: rest) = some rest := if_pos rfl

theorem readName_append (name : ZoneName) (hRest : ∀ c ∈ rest.head?, nameChar c = false) :
    readName (name.val ++ rest) = some (name, rest) := by
  obtain ⟨name, hLength, hChars⟩ := name
  have hTake := takeWhile_stops hChars hRest
  have hDrop := dropWhile_stops hChars hRest
  simp [readName, hTake, hDrop, hLength]

theorem readSign_sign (west : Bool) :
    readSign ((if west then '+' else '-') :: rest) = some (west, rest) := by
  cases west <;> rfl

theorem length_field {n : Fin limit} (h : limit ≤ 100) : (padded 2 n).length = 2 :=
  length_padded (Int.natCast_nonneg _) (by decide) (Nat.lt_of_lt_of_le n.isLt h)

theorem readField_padded {n : Fin limit} (h : limit ≤ 100)
    (hRest : ∀ c ∈ rest.head?, c.isDigit = false) :
    readField limit (padded 2 n ++ rest) = some (n, rest) := by
  unfold readField
  rw [scan_padded (Int.natCast_nonneg _) hRest]
  simp [length_field h]

/-- Each part of the string stops where the next one begins. -/
theorem readTz_written (tz : PosixTz) : readTz tz.written = some tz := by
  have hColon : ∀ s : List Char, ∀ c ∈ (':' :: s).head?, c.isDigit = false := by
    rintro s _ ⟨⟩
    rfl
  have hQuote : ∀ s : List Char, ∀ c ∈ ('>' :: s).head?, nameChar c = false := by
    rintro s _ ⟨⟩
    rfl
  have hSeconds : readField 60 (padded 2 tz.seconds) = some (tz.seconds, []) := by
    have hEnd : ∀ c ∈ ([] : List Char).head?, c.isDigit = false := by simp
    simpa using readField_padded (n := tz.seconds) (by decide) hEnd
  simp only [readTz, PosixTz.written, Option.bind_eq_bind, Option.bind_some, expect_cons,
    readName_append tz.name (hQuote _), readSign_sign,
    readField_padded (n := tz.hours) (by decide) (hColon _),
    readField_padded (n := tz.minutes) (by decide) (hColon _), hSeconds]
  rfl

theorem length_written (tz : PosixTz) : tz.written.length = tz.name.val.length + 11 := by
  have hHours := length_field (n := tz.hours) (by decide)
  have hMinutes := length_field (n := tz.minutes) (by decide)
  have hSeconds := length_field (n := tz.seconds) (by decide)
  simp only [PosixTz.written, List.length_cons, List.length_append, hHours, hMinutes, hSeconds]

end Clock

/-- The string fits, and by the grammar it means the local offset. -/
theorem tz_denotes_offset (t : Tm) (hOffset : t.gmtoff.natAbs < 25 * 3600)
    (hZone : 3 ≤ t.zone.length) (hChars : ∀ c ∈ t.zone, nameChar c = true) :
    (tzString t).length + 1 ≤ bufSize ∧
      ∃ tz, readTz (tzString t) = some tz ∧ tz.name = t.zone.take 5 ∧
        tz.utcOffset = t.gmtoff := by
  obtain ⟨hours, minutes, seconds, hClock, hHours, hMinutes, hSeconds, hSum⟩ :=
    clock_spec hOffset
  have hName : 3 ≤ (t.zone.take 5).length ∧ ∀ c ∈ t.zone.take 5, nameChar c = true := by
    refine ⟨?_, fun c hc => hChars c (List.mem_of_mem_take hc)⟩
    rw [List.length_take]
    omega
  let tz : PosixTz := ⟨⟨t.zone.take 5, hName⟩, decide (t.gmtoff ≤ 0), ⟨hours, hHours⟩,
    ⟨minutes, hMinutes⟩, ⟨seconds, hSeconds⟩⟩
  have hString : tzString t = tz.written := by
    have hSign : (if t.gmtoff > 0 then '-' else '+') = if tz.west then '+' else '-' := by
      by_cases h : t.gmtoff > 0
      · rw [if_pos h, if_neg (by simpa [tz] using h)]
      · rw [if_neg h, if_pos (by simpa [tz] using h)]
    have hCast : ∀ n : Nat, n < 60 → toInt n = n := fun n hn => toInt_eq (by omega)
    simp only [tzString, hClock, hSign, hCast hours (by omega), hCast minutes hMinutes,
      hCast seconds hSeconds]
    rfl
  rw [hString]
  constructor
  · have hTake : (t.zone.take 5).length ≤ 5 := List.length_take_le 5 t.zone
    show tz.written.length + 1 ≤ 20
    rw [length_written]
    show (t.zone.take 5).length + 11 + 1 ≤ 20
    omega
  · refine ⟨tz, readTz_written tz, rfl, ?_⟩
    simp only [PosixTz.utcOffset, tz]
    split <;> rename_i hSign <;> simp at hSign <;> omega

theorem tz_denotes_offset_india :
    let t : Tm := ⟨19800, ['I', 'S', 'T']⟩
    (tzString t).length + 1 ≤ bufSize ∧
      ∃ tz, readTz (tzString t) = some tz ∧ tz.name = t.zone.take 5 ∧
        tz.utcOffset = t.gmtoff :=
  tz_denotes_offset ⟨19800, ['I', 'S', 'T']⟩ (by decide) (by decide)
    (List.all_eq_true.mp (by decide))

end LibcShim.TimeZone
