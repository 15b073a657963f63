import ShortcutProxy.PercentEncoding

/-!
# Dates and times of the Gregorian calendar

A time is a date that the calendar has and a time of the day, to the second, in
universal time. It is written with digits only, `20261002T000000Z`, and the writing
holds the time. Seconds are counted from the first day of 1970.
-/

namespace ShortcutProxy.CalendarDates

open PercentEncoding

/-- Leap years. -/
def isLeap (year : Nat) : Bool := year % 4 = 0 && (year % 100 ≠ 0 || year % 400 = 0)

/-- The days of the months of a year that is no leap year. -/
def monthDays : List Nat := [31, 28, 31, 30, 31, 30, 31, 31, 30, 31, 30, 31]

/-- The days of a month. -/
def daysInMonth (year month : Nat) : Nat :=
  if month = 2 && isLeap year then 29 else monthDays.getD (month - 1) 0

theorem daysInMonth_le (year month : Nat) : daysInMonth year month ≤ 31 := by
  rw [daysInMonth]
  split
  · decide
  · by_cases listed : month - 1 < 12
    · have all : ∀ month : Fin 12, monthDays.getD month 0 ≤ 31 := by decide
      exact all ⟨month - 1, listed⟩
    · have beyond : monthDays[month - 1]? = none :=
        List.getElem?_eq_none (Nat.le_of_not_lt listed)
      rw [List.getD, beyond]
      exact Nat.zero_le _

/-- The days of a year before a month. -/
def daysBeforeMonth (year month : Nat) : Nat :=
  (monthDays.take (month - 1)).sum + if 2 < month && isLeap year then 1 else 0

/-- The days before a year, from the first of January of year one. -/
def daysBeforeYear (year : Nat) : Nat :=
  (year - 1) * 365 + (year - 1) / 4 - (year - 1) / 100 + (year - 1) / 400

/-- A date and a time of the day. -/
structure DateTime where
  year : Nat
  month : Nat
  day : Nat
  hour : Nat
  minute : Nat
  second : Nat
  yearBounds : 1 ≤ year ∧ year ≤ 9999
  monthBounds : 1 ≤ month ∧ month ≤ 12
  dayBounds : 1 ≤ day ∧ day ≤ daysInMonth year month
  hourBound : hour < 24
  minuteBound : minute < 60
  secondBound : second < 60
  deriving DecidableEq

/-- The number of a day, the first of January of year one being day one. -/
def DateTime.ordinal (time : DateTime) : Nat :=
  daysBeforeYear time.year + daysBeforeMonth time.year time.month + time.day

/-- The seconds since the first day of 1970. -/
def DateTime.seconds (time : DateTime) : Int :=
  ((time.ordinal : Int) - 719163) * 86400 + time.hour * 3600 + time.minute * 60 + time.second

/-! ## Writing -/

/-- A digit. -/
def isDigit (byte : UInt8) : Bool := 48 ≤ byte && byte ≤ 57

/-- A number with so many digits. -/
def padded : Nat → Nat → Bytes
  | 0, _ => []
  | width + 1, value => padded width (value / 10) ++ [UInt8.ofNat (48 + value % 10)]

/-- The number that digits write. -/
def number (digits : Bytes) : Nat :=
  digits.foldl (fun value digit => value * 10 + (digit.toNat - 48)) 0

/-- The date, `%Y%m%d`. -/
def DateTime.dateStamp (time : DateTime) : Bytes :=
  padded 4 time.year ++ padded 2 time.month ++ padded 2 time.day

/-- The date and time, `%Y%m%dT%H%M%SZ`. -/
def DateTime.stamp (time : DateTime) : Bytes :=
  time.dateStamp ++ 84 :: (padded 2 time.hour ++ padded 2 time.minute ++ padded 2 time.second) ++ [90]

theorem padded_length (width value : Nat) : (padded width value).length = width := by
  induction width generalizing value with
  | zero => rfl
  | succ width ih => simp [padded, ih]

theorem DateTime.stamp_take (time : DateTime) : time.stamp.take 8 = time.dateStamp := by
  have length : time.dateStamp.length = 8 := by
    simp [DateTime.dateStamp, padded_length]
  rw [DateTime.stamp, List.append_assoc]
  exact List.take_left' length

theorem isDigit_iff {byte : UInt8} : isDigit byte = true ↔ 48 ≤ byte.toNat ∧ byte.toNat ≤ 57 := by
  simp [isDigit, UInt8.le_iff_toNat_le]

theorem isDigit_padded {width value : Nat} {byte : UInt8} (member : byte ∈ padded width value) :
    isDigit byte = true := by
  induction width generalizing value with
  | zero => cases member
  | succ width ih =>
    rcases List.mem_append.mp member with earlier | last
    · exact ih earlier
    · rw [List.mem_singleton.mp last, isDigit_iff, toNat_byte (by omega)]
      omega

/-- Digits are the writing of their number. -/
theorem padded_number {digits : Bytes} (all : ∀ digit ∈ digits, isDigit digit = true) :
    padded digits.length (number digits) = digits := by
  induction digits using List.reverseRecOn with
  | nil => rfl
  | append_singleton digits last ih =>
    have lastDigit := isDigit_iff.mp (all last (by simp))
    have value : number (digits ++ [last]) = number digits * 10 + (last.toNat - 48) := by
      simp [number]
    have tenth : number (digits ++ [last]) / 10 = number digits := by omega
    have unit : 48 + number (digits ++ [last]) % 10 = last.toNat := by omega
    rw [List.length_append, List.length_singleton, padded, tenth, unit, UInt8.ofNat_toNat,
      ih fun digit member => all digit (by simp [member])]

theorem number_lt (digits : Bytes) (all : ∀ digit ∈ digits, isDigit digit = true) :
    number digits < 10 ^ digits.length := by
  induction digits using List.reverseRecOn with
  | nil => decide
  | append_singleton digits last ih =>
    have lastDigit := isDigit_iff.mp (all last (by simp))
    have value : number (digits ++ [last]) = number digits * 10 + (last.toNat - 48) := by
      simp [number]
    have earlier := ih fun digit member => all digit (by simp [member])
    rw [value, List.length_append, List.length_singleton, Nat.pow_succ]
    omega

theorem exists_padded_two (value : Nat) : ∃ tens units, padded 2 value = [tens, units] :=
  ⟨_, _, rfl⟩

/-- The writing of a number that fits holds it. -/
theorem number_padded {width value : Nat} (fits : value < 10 ^ width) :
    number (padded width value) = value := by
  induction width generalizing value with
  | zero =>
    obtain rfl : value = 0 := by simpa using fits
    rfl
  | succ width ih =>
    have tenth : value / 10 < 10 ^ width := by
      rw [Nat.pow_succ] at fits
      omega
    have last : (UInt8.ofNat (48 + value % 10)).toNat - 48 = value % 10 := by
      rw [toNat_byte (by omega)]
      omega
    have split : number (padded width (value / 10) ++ [UInt8.ofNat (48 + value % 10)]) =
        number (padded width (value / 10)) * 10 + value % 10 := by
      rw [number, List.foldl_append, List.foldl_cons, List.foldl_nil, last, number]
    rw [padded, split, ih tenth]
    omega

/-! ## Reading -/

/-- The time of the numbers, if the calendar has it. -/
def ofNumbers (year month day hour minute second : Nat) : Option DateTime :=
  if valid : ((1 ≤ year ∧ year ≤ 9999) ∧ (1 ≤ month ∧ month ≤ 12) ∧
      (1 ≤ day ∧ day ≤ daysInMonth year month)) ∧ hour < 24 ∧ minute < 60 ∧ second < 60 then
    some
      { year, month, day, hour, minute, second
        yearBounds := valid.1.1, monthBounds := valid.1.2.1, dayBounds := valid.1.2.2
        hourBound := valid.2.1, minuteBound := valid.2.2.1, secondBound := valid.2.2.2 }
  else none

/-- The time that a text writes, read part by part. -/
def readStamp (text : Bytes) : Option DateTime :=
  ofNumbers (number (text.take 4)) (number ((text.drop 4).take 2)) (number ((text.drop 6).take 2))
    (number ((text.drop 9).take 2)) (number ((text.drop 11).take 2))
    (number ((text.drop 13).take 2))

/-- A written time: its digits, and the numbers that they are. -/
theorem DateTime.exists_digits (time : DateTime) :
    ∃ y1 y2 y3 y4 m1 m2 d1 d2 h1 h2 n1 n2 s1 s2,
      time.stamp = [y1, y2, y3, y4, m1, m2, d1, d2, 84, h1, h2, n1, n2, s1, s2, 90] ∧
      [y1, y2, y3, y4, m1, m2, d1, d2, h1, h2, n1, n2, s1, s2].all isDigit = true ∧
      number [y1, y2, y3, y4] = time.year ∧ number [m1, m2] = time.month ∧
      number [d1, d2] = time.day ∧ number [h1, h2] = time.hour ∧
      number [n1, n2] = time.minute ∧ number [s1, s2] = time.second := by
  obtain ⟨y1, y2, y3, y4, year⟩ : ∃ y1 y2 y3 y4, padded 4 time.year = [y1, y2, y3, y4] :=
    ⟨_, _, _, _, rfl⟩
  obtain ⟨m1, m2, month⟩ := exists_padded_two time.month
  obtain ⟨d1, d2, day⟩ := exists_padded_two time.day
  obtain ⟨h1, h2, hour⟩ := exists_padded_two time.hour
  obtain ⟨n1, n2, minute⟩ := exists_padded_two time.minute
  obtain ⟨s1, s2, second⟩ := exists_padded_two time.second
  refine ⟨y1, y2, y3, y4, m1, m2, d1, d2, h1, h2, n1, n2, s1, s2, ?_, ?_, ?_⟩
  · rw [DateTime.stamp, DateTime.dateStamp, year, month, day, hour, minute, second]
    rfl
  · have written : ∀ digit ∈ padded 4 time.year ++ padded 2 time.month ++ padded 2 time.day ++
        padded 2 time.hour ++ padded 2 time.minute ++ padded 2 time.second,
        isDigit digit = true := by
      intro digit member
      simp only [List.mem_append] at member
      rcases member with ((((member | member) | member) | member) | member) | member
      all_goals exact isDigit_padded member
    rw [year, month, day, hour, minute, second] at written
    simpa using written
  · have yearBounds := time.yearBounds
    have monthBounds := time.monthBounds
    have dayBounds := time.dayBounds
    have hourBound := time.hourBound
    have minuteBound := time.minuteBound
    have secondBound := time.secondBound
    have dayFits := daysInMonth_le time.year time.month
    rw [← year, ← month, ← day, ← hour, ← minute, ← second]
    refine ⟨number_padded ?_, number_padded ?_, number_padded ?_, number_padded ?_,
      number_padded ?_, number_padded ?_⟩
    all_goals omega

/-- Reading a written time gives it back. -/
theorem readStamp_stamp (time : DateTime) : readStamp time.stamp = some time := by
  obtain ⟨y1, y2, y3, y4, m1, m2, d1, d2, h1, h2, n1, n2, s1, s2, written, -, year, month, day, hour,
    minute, second⟩ := time.exists_digits
  rw [written]
  change ofNumbers (number [y1, y2, y3, y4]) (number [m1, m2]) (number [d1, d2]) (number [h1, h2])
    (number [n1, n2]) (number [s1, s2]) = some time
  rw [year, month, day, hour, minute, second, ofNumbers, dif_pos ⟨⟨time.yearBounds,
    time.monthBounds, time.dayBounds⟩, time.hourBound, time.minuteBound, time.secondBound⟩]

end ShortcutProxy.CalendarDates
