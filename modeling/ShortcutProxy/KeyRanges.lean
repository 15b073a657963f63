import ShortcutProxy.Binary64
import ShortcutProxy.Fallible
import ShortcutProxy.Partition
import ShortcutProxy.Relational
import ShortcutProxy.TableConfig

/-!
# Ranges of split keys

The arithmetic of `planner/split_planner.py` that cuts the keys of a table into
half-open ranges: equal spans between the smallest and the largest key, and ranges
that start at given bucket minima. Days are counted as `date.toordinal` does,
moments in microseconds since 1970. The conversions between a moment and its tick go
through double precision, as in the source, and may be off.

Key values that a driver hands out as text are taken as already parsed.
-/

namespace ShortcutProxy.KeyRanges

open Binary64 Fallible Partition Relational TableConfig List

/-- A key value in Python: an integer, a date, or a datetime with or without a zone. -/
inductive Bound where
  | integer (number : Int)
  | date (day : Int)
  | timestamp (micros : Int) (aware : Bool)
  deriving DecidableEq, Repr

/-- The bound as a bind value. -/
def Bound.value : Bound → Value
  | .integer number => .integer number
  | .date day => .date day
  | .timestamp micros _ => .timestamp micros

/-! ## Equal spans of integers -/

/-- The `index`-th boundary between `count` spans of `[low, high]`. -/
def keyBoundary (low high : Int) (count index : Nat) : Int :=
  if index = 0 then low
  else if index = count then high + 1
  else low + (high - low + 1) * index / count

/-- `compute_key_ranges`. -/
def computeKeyRanges (low high : Int) (count : Int) : List (Int × Int) :=
  let parts := (max 1 count).toNat
  if high < low then
    (low, low + 1) :: List.replicate (parts - 1) (low + 1, low + 1)
  else
    (List.range parts).map fun index =>
      (keyBoundary low high parts index, keyBoundary low high parts (index + 1))

/-! ## Days and moments -/

/-- Microseconds of a day. -/
def dayMicros : Int := 86400000000

/-- `date(1970, 1, 1).toordinal()`. -/
def epochDay : Int := 719163

/-- `date.max.toordinal()`. -/
def lastDay : Int := 3652059

/-- `datetime.date`, as the day it falls on. -/
def dayOfMicros (micros : Int) : Int := micros / dayMicros + epochDay

/-- The two readings of a temporal key. -/
inductive TemporalKind where
  | date
  | timestamp
  deriving DecidableEq, Repr

/-- `kind == "date"` or not. -/
def temporalKind : IcebergType → TemporalKind
  | .date => .date
  | _ => .timestamp

/-- `_coerce_temporal`; an integer is a `TypeError`. -/
def coerceTemporal (kind : TemporalKind) : Bound → Except String Bound
  | .integer _ => .error (match kind with
      | .date => "unsupported date bound type: <class 'int'>"
      | .timestamp => "unsupported datetime bound type: <class 'int'>")
  | .date day => match kind with
      | .date => .ok (.date day)
      | .timestamp => .ok (.timestamp ((day - epochDay) * dayMicros) true)
  | .timestamp micros aware => match kind with
      | .date => .ok (.date (dayOfMicros micros))
      | .timestamp => .ok (.timestamp micros aware)

/-- `int(dt.timestamp() * 1_000_000)`: the seconds as a double, the product as a double,
and the fraction cut off. -/
def microsToTick (micros : Int) : Int :=
  truncated (binary64 (binary64 (micros / 1000000) * 1000000))

/-- `datetime.fromtimestamp(tick / 1_000_000)`: whole seconds and the fraction in
microseconds, rounded to even, of the quotient as a double. -/
def tickToMicros (tick : Int) : Int :=
  let seconds := binary64 (tick / 1000000)
  let whole := truncated seconds
  whole * 1000000 + nearestEven (binary64 ((seconds - whole) * 1000000))

/-- `_to_tick` of a coerced value. -/
def toTick : Bound → Int
  | .integer number => number
  | .date day => day
  | .timestamp micros _ => microsToTick micros

/-- `_from_tick`; a day or a moment outside of the years 1 to 9999 is a `ValueError`. -/
def fromTick (kind : TemporalKind) (aware : Bool) (tick : Int) : Except String Bound :=
  match kind with
  | .date =>
    if 1 ≤ tick ∧ tick ≤ lastDay then .ok (.date tick)
    else .error "ordinal must be within the calendar"
  | .timestamp =>
    let micros := tickToMicros tick
    if 1 ≤ dayOfMicros micros ∧ dayOfMicros micros ≤ lastDay then .ok (.timestamp micros aware)
    else .error "year is out of range"

/-- The datetime carries a zone; a date counts as if it did. -/
def Bound.aware : Bound → Bool
  | .timestamp _ aware => aware
  | _ => true

/-- `compute_temporal_ranges`. -/
def computeTemporalRanges (low high : Bound) (count : Int) (kind : TemporalKind) :
    Except String (List (Bound × Bound)) := do
  let lowValue ← coerceTemporal kind low
  let highValue ← coerceTemporal kind high
  let aware := lowValue.aware || highValue.aware
  (computeKeyRanges (toTick lowValue) (toTick highValue) count).mapM fun range => do
    let start ← fromTick kind aware range.1
    let stop ← fromTick kind aware range.2
    return (start, stop)

/-! ## Ranges that start at bucket minima -/

/-- `_coerce_key`; `int` of a date is a `TypeError`. -/
def coerceKey (keyType : IcebergType) (bound : Bound) : Except String Bound :=
  if keyType.isInteger then
    match bound with
    | .integer number => .ok (.integer number)
    | _ => .error "int() argument must be a string or a number"
  else coerceTemporal (temporalKind keyType) bound

/-- `_range_upper`: one tick past the largest key. -/
def rangeUpper (keyType : IcebergType) (high : Bound) : Except String Bound :=
  if keyType.isInteger then
    match high with
    | .integer number => .ok (.integer (number + 1))
    | _ => .error "int() argument must be a string or a number"
  else do
    let value ← coerceTemporal (temporalKind keyType) high
    fromTick (temporalKind keyType) value.aware (toTick value + 1)

/-- Each minimum up to the next one, and the last one up to the upper end. -/
def rangesFrom {κ : Type} (upper : κ) : List κ → List (κ × κ)
  | [] => []
  | [last] => [(last, upper)]
  | first :: second :: rest => (first, second) :: rangesFrom upper (second :: rest)

/-- The ranges from the minima, with empty ones at the end to make up a count. -/
def paddedRanges {κ : Type} (upper : κ) (mins : List κ) (count : Nat) : List (κ × κ) :=
  let ranges := rangesFrom upper mins
  (ranges ++ List.replicate (count - ranges.length) (upper, upper)).take count

/-- The part of `_balanced_ranges` after the bounds were fetched. -/
def balancedFrom (keyType : IcebergType) (count : Nat) (rawMins : List Bound) (rawMax : Bound) :
    Option (List (Bound × Bound)) :=
  match (do
    let mins ← rawMins.mapM (coerceKey keyType)
    let upper ← rangeUpper keyType rawMax
    return (mins, upper) : Except String (List Bound × Bound)) with
  | .error _ => none
  | .ok (mins, upper) =>
    if mins = [] then none
    else
      some (paddedRanges upper mins count)

/-! ## Equal spans cover the keys -/

variable {count : Nat} {low high : Int} {ranges : List (Bound × Bound)}

section

variable (ordered : low ≤ high) (positive : 0 < count)
include positive

theorem keyBoundary_eq (low high : Int) (index : Nat) :
    keyBoundary low high count index = low + (high - low + 1) * index / count := by
  unfold keyBoundary
  split_ifs with first last
  · subst first
    simp
  · subst last
    rw [Int.mul_ediv_cancel _ (by omega)]
    omega
  · rfl

theorem keyBoundary_ends (low high : Int) :
    keyBoundary low high count 0 = low ∧ keyBoundary low high count count = high + 1 := by
  constructor
  · simp [keyBoundary]
  · simp [keyBoundary, positive.ne']

/-- A span is as large as the quotient of the whole by the count, or larger by one. -/
theorem keyBoundary_step (low high : Int) (index : Nat) :
    (high - low + 1) / count ≤
        keyBoundary low high count (index + 1) - keyBoundary low high count index ∧
      keyBoundary low high count (index + 1) - keyBoundary low high count index ≤
        (high - low + 1) / count + 1 := by
  rw [keyBoundary_eq positive low high, keyBoundary_eq positive low high]
  generalize high - low + 1 = size
  have next : size * ((index + 1 : Nat) : Int) = size * index + size := by
    push_cast
    ring
  have sum : ((size * index + size : Int) : ℚ) / count =
      ((size * index : Int) : ℚ) / count + (size : ℚ) / count := by
    rw [Int.cast_add, add_div]
  have least := Int.le_floor_add (((size * index : Int) : ℚ) / count) ((size : ℚ) / count)
  have most := Int.le_floor_add_floor (((size * index : Int) : ℚ) / count) ((size : ℚ) / count)
  rw [← sum] at least most
  simp only [Rat.floor_intCast_div_natCast] at least most
  rw [next]
  constructor <;> linarith

include ordered

theorem keyBoundary_mono :
    Monotone (keyBoundary low high count) := by
  intro left right below
  rw [keyBoundary_eq positive low high, keyBoundary_eq positive low high]
  have scaled : (high - low + 1) * (left : Int) ≤ (high - low + 1) * right :=
    mul_le_mul_of_nonneg_left (by exact_mod_cast below) (by omega)
  have divided := Int.ediv_le_ediv (Int.natCast_pos.mpr positive) scaled
  omega

theorem computeKeyRanges_eq :
    computeKeyRanges low high count =
      (List.range count).map fun index =>
        (keyBoundary low high count index, keyBoundary low high count (index + 1)) := by
  have parts : (max 1 (count : Int)).toNat = count := by omega
  rw [computeKeyRanges, parts, if_neg (by omega)]

theorem length_computeKeyRanges :
    (computeKeyRanges low high count).length = count := by
  rw [computeKeyRanges_eq ordered positive, length_map, length_range]

/-- The spans under a monotone reading of their boundaries follow one another from the
reading of the smallest key to that of the one after the largest. -/
theorem tiles_computeKeyRanges {reading : Int → Int} (ascending : Monotone reading) :
    Tiles ((computeKeyRanges low high count).map fun range => (reading range.1, reading range.2))
      (reading low) (reading (high + 1)) := by
  have tiles := tiles_of_monotone (ascending.comp (keyBoundary_mono ordered positive)) count
  have ends := keyBoundary_ends positive low high
  rw [computeKeyRanges_eq ordered positive, map_map]
  simpa only [Function.comp_def, ends.1, ends.2] using tiles

/-- The intervals cut the integers from `low` to `high` into `count` parts without a gap, and
their sizes differ by at most one. -/
structure EvenSpans (low high : Int) (count : Nat) (intervals : List (Int × Int)) : Prop where
  length : intervals.length = count
  tiles : Tiles intervals low (high + 1)
  union : ∀ key, (∃ interval ∈ intervals, interval.1 ≤ key ∧ key < interval.2) ↔
    low ≤ key ∧ key ≤ high
  sizes : ∀ one ∈ intervals, ∀ other ∈ intervals, one.2 - one.1 ≤ other.2 - other.1 + 1

theorem evenSpans_computeKeyRanges :
    EvenSpans low high count (computeKeyRanges low high count) := by
  have tiles : Tiles (computeKeyRanges low high count) low (high + 1) := by
    simpa using tiles_computeKeyRanges ordered positive monotone_id
  refine ⟨length_computeKeyRanges ordered positive, tiles, ?_, ?_⟩
  · intro key
    have times := tiles.countP_eq key
    rw [← @Int.lt_add_one_iff key high]
    by_cases inside : low ≤ key ∧ key < high + 1
    · rw [if_pos inside] at times
      obtain ⟨interval, member, contains⟩ := countP_pos_iff.mp (times.symm ▸ Nat.one_pos)
      exact iff_of_true ⟨interval, member, of_decide_eq_true contains⟩ inside
    · rw [if_neg inside, countP_eq_zero] at times
      refine iff_of_false ?_ inside
      rintro ⟨interval, member, contains⟩
      exact times interval member (decide_eq_true contains)
  · intro one first other second
    rw [computeKeyRanges_eq ordered positive] at first second
    obtain ⟨index, -, rfl⟩ := mem_map.mp first
    obtain ⟨position, -, rfl⟩ := mem_map.mp second
    have most := (keyBoundary_step positive low high index).2
    have least := (keyBoundary_step positive low high position).1
    dsimp only
    omega

end

/-! ## Ticks keep the order -/

theorem microsToTick_mono : Monotone microsToTick := by
  intro left right ordered
  refine truncated_mono (binary64_mono ?_)
  refine mul_le_mul_of_nonneg_right (binary64_mono ?_) (by norm_num)
  exact div_le_div_of_nonneg_right (by exact_mod_cast ordered) (by norm_num)

/-- The microseconds of a fraction of a second. -/
def fractionMicros (fraction : ℚ) : Int := nearestEven (binary64 (fraction * 1000000))

theorem fractionMicros_mono : Monotone fractionMicros := fun _ _ ordered =>
  nearestEven_mono (binary64_mono (mul_le_mul_of_nonneg_right ordered (by norm_num)))

theorem fractionMicros_ends :
    fractionMicros (-1) = -1000000 ∧ fractionMicros 0 = 0 ∧ fractionMicros 1 = 1000000 := by
  decide +kernel

/-- The moment of a number of seconds. -/
def secondsToMicros (seconds : ℚ) : Int :=
  truncated seconds * 1000000 + fractionMicros (seconds - truncated seconds)

theorem secondsToMicros_of_nonneg {seconds : ℚ} (nonneg : 0 ≤ seconds) :
    ⌊seconds⌋ * 1000000 ≤ secondsToMicros seconds ∧
      secondsToMicros seconds ≤ (⌊seconds⌋ + 1) * 1000000 := by
  have whole : truncated seconds = ⌊seconds⌋ := if_neg (not_lt.mpr nonneg)
  have low := fractionMicros_mono (sub_nonneg.mpr (Int.floor_le seconds))
  have high := fractionMicros_mono
    (show seconds - ⌊seconds⌋ ≤ 1 by linarith [Int.lt_floor_add_one seconds])
  rw [fractionMicros_ends.2.1] at low
  rw [fractionMicros_ends.2.2] at high
  rw [secondsToMicros, whole]
  constructor <;> linarith

theorem secondsToMicros_of_neg {seconds : ℚ} (negative : seconds < 0) :
    (⌈seconds⌉ - 1) * 1000000 ≤ secondsToMicros seconds ∧
      secondsToMicros seconds ≤ ⌈seconds⌉ * 1000000 := by
  have whole : truncated seconds = ⌈seconds⌉ := if_pos negative
  have low := fractionMicros_mono
    (show -1 ≤ seconds - ⌈seconds⌉ by linarith [Int.ceil_lt_add_one seconds])
  have high := fractionMicros_mono (sub_nonpos.mpr (Int.le_ceil seconds))
  rw [fractionMicros_ends.1] at low
  rw [fractionMicros_ends.2.1] at high
  rw [secondsToMicros, whole]
  constructor <;> linarith

/-- Within one whole second the fractions decide; otherwise the whole seconds do. -/
theorem secondsToMicros_mono : Monotone secondsToMicros := by
  intro left right ordered
  rcases (truncated_mono ordered).lt_or_eq with apart | same
  · by_cases negative : right < 0
    · have before := (secondsToMicros_of_neg (ordered.trans_lt negative)).2
      have after := (secondsToMicros_of_neg negative).1
      rw [truncated, truncated, if_pos (ordered.trans_lt negative), if_pos negative] at apart
      omega
    · have after := (secondsToMicros_of_nonneg (not_lt.mp negative)).1
      by_cases below : left < 0
      · have before := (secondsToMicros_of_neg below).2
        rw [truncated, truncated, if_pos below, if_neg negative] at apart
        omega
      · have before := (secondsToMicros_of_nonneg (not_lt.mp below)).2
        rw [truncated, truncated, if_neg below, if_neg negative] at apart
        omega
  · rw [secondsToMicros, secondsToMicros, same]
    have fractions := fractionMicros_mono (sub_le_sub_right ordered (truncated right : ℚ))
    omega

theorem tickToMicros_mono : Monotone tickToMicros := by
  intro left right ordered
  refine secondsToMicros_mono (binary64_mono ?_)
  exact div_le_div_of_nonneg_right (by exact_mod_cast ordered) (by norm_num)

/-! ## Keys of one kind -/

/-- The kinds of key that ranges can split. Moments come with or without a zone. -/
inductive KeyKind where
  | integer
  | date
  | timestamp (aware : Bool)
  deriving DecidableEq, Repr

/-- The kind belongs to the type of the column. -/
def KeyKind.Fits (keyType : IcebergType) : KeyKind → Prop
  | .integer => keyType.isInteger = true
  | .date => keyType = .date
  | .timestamp _ => keyType = .timestamp ∨ keyType = .timestamptz

/-- A key of the kind, from its count. -/
def KeyKind.bound : KeyKind → Int → Bound
  | .integer => .integer
  | .date => .date
  | .timestamp aware => fun micros => .timestamp micros aware

/-- The column value of a key. -/
def KeyKind.value (kind : KeyKind) (count : Int) : Value := (kind.bound count).value

/-- The count of a column value, if it is of the kind. -/
def KeyKind.read : KeyKind → Value → Option Int
  | .integer, .integer number => some number
  | .date, .date day => some day
  | .timestamp _, .timestamp micros => some micros
  | _, _ => none

/-- `_to_tick`, on counts. -/
def KeyKind.tick : KeyKind → Int → Int
  | .timestamp _ => microsToTick
  | _ => fun count => count

/-- `_from_tick`, on counts. -/
def KeyKind.untick : KeyKind → Int → Int
  | .timestamp _ => tickToMicros
  | _ => fun tick => tick

/-- The start of ranges whose smallest key is given. -/
def KeyKind.start (kind : KeyKind) (low : Int) : Int := kind.untick (kind.tick low)

/-- The end of ranges whose largest key is given: one tick past it. -/
def KeyKind.next (kind : KeyKind) (high : Int) : Int := kind.untick (kind.tick high + 1)

theorem KeyKind.tick_mono (kind : KeyKind) : Monotone kind.tick := by
  cases kind with
  | timestamp aware => exact microsToTick_mono
  | _ => exact monotone_id

theorem KeyKind.untick_mono (kind : KeyKind) : Monotone kind.untick := by
  cases kind with
  | timestamp aware => exact tickToMicros_mono
  | _ => exact monotone_id

theorem KeyKind.read_eq_some {kind : KeyKind} {value : Value} {count : Int} :
    kind.read value = some count ↔ value = kind.value count := by
  cases kind <;> cases value <;> simp [KeyKind.read, KeyKind.value, KeyKind.bound, Bound.value]

section Kind

variable {keyType : IcebergType} {kind : KeyKind}

theorem fromTick_eq_ok {temporal : TemporalKind} {aware : Bool} {tick : Int} {bound : Bound}
    (read : fromTick temporal aware tick = .ok bound) :
    bound = match temporal with
      | .date => .date tick
      | .timestamp => .timestamp (tickToMicros tick) aware := by
  unfold fromTick at read
  cases temporal with
  | date | timestamp =>
    dsimp only at read ⊢
    split at read
    · exact (Except.ok.inj read).symm
    · cases read

/-- The intervals of equal span between two keys. -/
def spanIntervals (kind : KeyKind) (low high : Int) (count : Nat) : List (Int × Int) :=
  (computeKeyRanges (kind.tick low) (kind.tick high) count).map fun range =>
    (kind.untick range.1, kind.untick range.2)

theorem length_spanIntervals (ordered : low ≤ high) (positive : 0 < count) :
    (spanIntervals kind low high count).length = count := by
  rw [spanIntervals, length_map, length_computeKeyRanges (kind.tick_mono ordered) positive]

theorem tiles_spanIntervals (ordered : low ≤ high) (positive : 0 < count) :
    Tiles (spanIntervals kind low high count) (kind.start low) (kind.next high) :=
  tiles_computeKeyRanges (kind.tick_mono ordered) positive kind.untick_mono

theorem toTick_bound (count : Int) : toTick (kind.bound count) = kind.tick count := by
  cases kind <;> rfl

/-- The step of `compute_temporal_ranges` for one range of ticks. -/
def temporalRange (temporal : TemporalKind) (aware : Bool) (range : Int × Int) :
    Except String (Bound × Bound) := do
  let start ← fromTick temporal aware range.1
  let stop ← fromTick temporal aware range.2
  return (start, stop)

theorem temporalRange_eq_ok {temporal : TemporalKind} {aware : Bool} {range : Int × Int}
    {bounds : Bound × Bound} (computed : temporalRange temporal aware range = .ok bounds) :
    fromTick temporal aware range.1 = .ok bounds.1 ∧
      fromTick temporal aware range.2 = .ok bounds.2 := by
  obtain ⟨start, first, computed⟩ := bind_eq_ok.mp computed
  obtain ⟨stop, second, computed⟩ := bind_eq_ok.mp computed
  rw [← Except.ok.inj computed]
  exact ⟨first, second⟩

/-- `compute_key_ranges` cuts the integers between two keys evenly, and for date keys
`compute_temporal_ranges` cuts the days between two dates before the last one of the calendar
in the same way. -/
theorem ranges_are_even (count : Nat) (positive : 0 < count) :
    (∀ low high : Int, low ≤ high →
      EvenSpans low high count (computeKeyRanges low high count)) ∧
    ∀ (first last : Bound) (low high : Int), coerceTemporal .date first = .ok (.date low) →
      coerceTemporal .date last = .ok (.date high) → 1 ≤ low → low ≤ high → high < lastDay →
        ∃ intervals, EvenSpans low high count intervals ∧
          computeTemporalRanges first last count .date =
            .ok (intervals.map fun interval => (.date interval.1, .date interval.2)) := by
  refine ⟨fun low high ordered => evenSpans_computeKeyRanges ordered positive, ?_⟩
  intro first last low high lowDay highDay calendar ordered before
  refine ⟨_, evenSpans_computeKeyRanges ordered positive, ?_⟩
  have steps : computeTemporalRanges first last count .date =
      (computeKeyRanges low high count).mapM (temporalRange .date true) := by
    rw [computeTemporalRanges, lowDay, highDay]
    rfl
  rw [steps]
  refine mapM_ok fun range member => ?_
  rw [computeKeyRanges_eq ordered positive] at member
  obtain ⟨index, inside, rfl⟩ := mem_map.mp member
  -- every boundary lies between the first day and the day after the last
  have ascending := keyBoundary_mono ordered positive
  have ends := keyBoundary_ends positive low high
  have least := ascending (Nat.zero_le index)
  have step := ascending (Nat.le_add_right index 1)
  have most := @ascending (index + 1) count (mem_range.mp inside)
  rw [ends.1] at least
  rw [ends.2] at most
  simp only [temporalRange, fromTick]
  rw [if_pos (by omega), if_pos (by omega)]
  rfl

theorem ranges_are_even_week :
    EvenSpans (-3) 3 2 (computeKeyRanges (-3) 3 2) ∧
      ∃ intervals, EvenSpans 738000 738006 2 intervals ∧
        computeTemporalRanges (.date 738000) (.date 738006) 2 .date =
          .ok (intervals.map fun interval => (.date interval.1, .date interval.2)) := by
  obtain ⟨integers, dates⟩ := ranges_are_even 2 (by decide)
  exact ⟨integers (-3) 3 (by decide), dates (.date 738000) (.date 738006) 738000 738006 rfl rfl
    (by decide) (by decide) (by decide)⟩

variable (fits : kind.Fits keyType)
include fits

theorem coerceKey_bound (count : Int) :
    coerceKey keyType (kind.bound count) = .ok (kind.bound count) := by
  cases kind with
  | integer => simp only [KeyKind.Fits] at fits; simp [coerceKey, fits, KeyKind.bound]
  | date => obtain rfl : keyType = .date := fits; rfl
  | timestamp aware => rcases fits with rfl | rfl <;> rfl

theorem rangeUpper_bound {upper : Bound}
    (computed : rangeUpper keyType (kind.bound high) = .ok upper) :
    upper = kind.bound (kind.next high) := by
  cases kind with
  | integer =>
    simp only [KeyKind.Fits] at fits
    simp only [rangeUpper, fits, if_true, KeyKind.bound] at computed
    exact (Except.ok.inj computed).symm
  | date =>
    obtain rfl : keyType = .date := fits
    exact fromTick_eq_ok (show fromTick .date true (high + 1) = .ok upper from computed)
  | timestamp aware =>
    have read : fromTick .timestamp aware (microsToTick high + 1) = .ok upper := by
      rcases fits with rfl | rfl <;> exact computed
    exact fromTick_eq_ok read

variable (temporal : kind ≠ .integer)
include temporal

theorem coerceTemporal_bound (count : Int) :
    coerceTemporal (temporalKind keyType) (kind.bound count) = .ok (kind.bound count) := by
  cases kind with
  | integer => exact absurd rfl temporal
  | date => obtain rfl : keyType = .date := fits; rfl
  | timestamp aware => rcases fits with rfl | rfl <;> rfl

theorem computeTemporalRanges_bound (low high : Int) (count : Nat) :
    computeTemporalRanges (kind.bound low) (kind.bound high) count (temporalKind keyType) =
      (computeKeyRanges (kind.tick low) (kind.tick high) count).mapM
        (temporalRange (temporalKind keyType)
          ((kind.bound low).aware || (kind.bound high).aware)) := by
  unfold computeTemporalRanges
  rw [coerceTemporal_bound fits temporal, coerceTemporal_bound fits temporal]
  dsimp only [bind, Except.bind]
  rw [toTick_bound, toTick_bound]
  rfl

theorem bound_of_fromTick {tick : Int} {bound : Bound}
    (read : fromTick (temporalKind keyType) ((kind.bound low).aware || (kind.bound high).aware)
      tick = .ok bound) : bound = kind.bound (kind.untick tick) := by
  cases kind with
  | integer => exact absurd rfl temporal
  | date =>
    obtain rfl : keyType = .date := fits
    exact fromTick_eq_ok read
  | timestamp aware =>
    have same : (aware || aware) = aware := Bool.or_self aware
    rcases fits with rfl | rfl <;>
      exact (fromTick_eq_ok read).trans (congrArg (Bound.timestamp _) same)

variable (computed : computeTemporalRanges (kind.bound low) (kind.bound high) count
  (temporalKind keyType) = .ok ranges)
include computed

/-- Temporal ranges that are computed are the intervals of equal span. -/
theorem computeTemporalRanges_eq_ok :
    ranges = (spanIntervals kind low high count).map fun interval =>
      (kind.bound interval.1, kind.bound interval.2) := by
  rw [computeTemporalRanges_bound fits temporal] at computed
  rw [spanIntervals, map_map]
  refine mapM_eq_ok (fun step => ?_) computed
  obtain ⟨first, second⟩ := temporalRange_eq_ok step
  exact Prod.ext (bound_of_fromTick fits temporal first) (bound_of_fromTick fits temporal second)

/-- Then the end that `_range_upper` computes is in the calendar too. -/
theorem exists_rangeUpper (ordered : low ≤ high) (positive : 0 < count) :
    ∃ upper, rangeUpper keyType (kind.bound high) = .ok upper := by
  rw [computeTemporalRanges_bound fits temporal] at computed
  have last : (keyBoundary (kind.tick low) (kind.tick high) count (count - 1), kind.tick high + 1) ∈
      computeKeyRanges (kind.tick low) (kind.tick high) count := by
    rw [computeKeyRanges_eq (kind.tick_mono ordered) positive, mem_map]
    refine ⟨count - 1, mem_range.mpr (by omega), Prod.ext rfl ?_⟩
    have next : count - 1 + 1 = count := by omega
    simp [keyBoundary, next, positive.ne']
  obtain ⟨bounds, step⟩ := exists_ok_of_mapM computed last
  have read := (temporalRange_eq_ok step).2
  cases kind with
  | integer => exact absurd rfl temporal
  | date =>
    obtain rfl : keyType = .date := fits
    exact ⟨bounds.2, read⟩
  | timestamp aware =>
    refine ⟨bounds.2, ?_⟩
    have same : (aware || aware) = aware := Bool.or_self aware
    simp only [KeyKind.bound, Bound.aware, same] at read
    rcases fits with rfl | rfl <;> exact read

end Kind

/-! ## Ranges from minima cover the keys -/

section Minima

variable {κ ι : Type}

theorem rangesFrom_map (reading : κ → ι) (upper : κ) (mins : List κ) :
    rangesFrom (reading upper) (mins.map reading) =
      (rangesFrom upper mins).map fun range => (reading range.1, reading range.2) := by
  induction mins with
  | nil => rfl
  | cons first rest ih =>
    cases rest with
    | nil => rfl
    | cons second others =>
      simpa only [map_cons, rangesFrom, List.cons.injEq, true_and] using
        ih

theorem length_rangesFrom (upper : κ) (mins : List κ) :
    (rangesFrom upper mins).length = mins.length := by
  induction mins with
  | nil => rfl
  | cons first rest ih =>
    cases rest with
    | nil => rfl
    | cons second others => simpa [rangesFrom] using ih

theorem length_paddedRanges (upper : κ) (mins : List κ) (count : Nat) :
    (paddedRanges upper mins count).length = count := by
  rw [paddedRanges, length_take, length_append, length_replicate]
  omega

/-- Every range ends at a minimum or at the upper end. -/
theorem snd_of_mem_rangesFrom {upper : κ} {mins : List κ} {range : κ × κ}
    (member : range ∈ rangesFrom upper mins) : range.2 ∈ mins ∨ range.2 = upper := by
  induction mins with
  | nil => cases member
  | cons first rest ih =>
    cases rest with
    | nil =>
      obtain rfl := mem_singleton.mp member
      exact .inr rfl
    | cons second others =>
      rcases mem_cons.mp member with rfl | later
      · exact .inl (mem_cons_of_mem _ (mem_cons_self ..))
      · exact (ih later).imp_left (mem_cons_of_mem _)

theorem snd_of_mem_paddedRanges {upper : κ} {mins : List κ} {range : κ × κ}
    (member : range ∈ paddedRanges upper mins count) : range.2 ∈ mins ∨ range.2 = upper := by
  rcases mem_append.mp (mem_of_mem_take member) with range | padding
  · exact snd_of_mem_rangesFrom range
  · exact .inr (congrArg Prod.snd (eq_of_mem_replicate padding))

variable [LinearOrder κ]

theorem tiles_rangesFrom {upper first : κ} {rest : List κ}
    (ascending : (first :: rest).Pairwise (· ≤ ·)) (bounded : ∀ key ∈ first :: rest, key ≤ upper) :
    Tiles (rangesFrom upper (first :: rest)) first upper := by
  induction rest generalizing first with
  | nil => exact ⟨rfl, bounded first (mem_singleton.mpr rfl), rfl⟩
  | cons second others ih =>
    obtain ⟨least, later⟩ := pairwise_cons.mp ascending
    exact ⟨rfl, least second (mem_cons_self ..),
      ih later fun key member => bounded key (mem_cons_of_mem _ member)⟩

/-- At most `count` ascending minima below the upper end give `count` ranges without a
gap, from the first minimum on. -/
theorem tiles_paddedRanges {upper first : κ} {rest : List κ}
    (ascending : (first :: rest).Pairwise (· ≤ ·)) (bounded : ∀ key ∈ first :: rest, key ≤ upper)
    (few : (first :: rest).length ≤ count) :
    Tiles (paddedRanges upper (first :: rest) count) first upper := by
  have whole : (rangesFrom upper (first :: rest) ++
      List.replicate (count - (rangesFrom upper (first :: rest)).length) (upper, upper)).length ≤
        count := by
    rw [length_append, length_replicate, length_rangesFrom]
    omega
  rw [paddedRanges, take_of_length_le whole]
  exact (tiles_rangesFrom ascending bounded).append (tiles_replicate _ _)

end Minima

/-! ## Ranges of equal count -/

section Balanced

variable {keyType : IcebergType} {kind : KeyKind}

theorem mapM_coerceKey (fits : kind.Fits keyType) (mins : List Int) :
    (mins.map kind.bound).mapM (coerceKey keyType) = .ok (mins.map kind.bound) := by
  rw [mapM_map]
  exact mapM_ok fun key _ => coerceKey_bound fits key

/-- The ranges that are built from minima of one kind are the padded ranges of their
counts, up to the end that `_range_upper` gives. -/
theorem balancedFrom_eq_some (fits : kind.Fits keyType) {mins : List Int}
    (built : balancedFrom keyType count (mins.map kind.bound) (kind.bound high) = some ranges) :
    mins ≠ [] ∧ ranges = (paddedRanges (kind.next high) mins count).map fun range =>
      (kind.bound range.1, kind.bound range.2) := by
  unfold balancedFrom at built
  rw [mapM_coerceKey fits] at built
  cases computed : rangeUpper keyType (kind.bound high) with
  | error failure => rw [computed] at built; cases built
  | ok upper =>
    rw [computed, rangeUpper_bound fits computed] at built
    dsimp only [bind, Except.bind, pure, Except.pure] at built
    split at built
    · cases built
    · rename_i filled
      refine ⟨fun empty => filled (by rw [empty]; rfl), ?_⟩
      rw [← Option.some.inj built]
      simp only [paddedRanges, rangesFrom_map, length_map, map_take, map_append,
        map_replicate]

/-- Only the upper end can fail. -/
theorem exists_balancedFrom (fits : kind.Fits keyType) (count : Nat) {mins : List Int}
    (filled : mins ≠ []) {upper : Bound}
    (computed : rangeUpper keyType (kind.bound high) = .ok upper) :
    ∃ ranges, balancedFrom keyType count (mins.map kind.bound) (kind.bound high) = some ranges := by
  unfold balancedFrom
  rw [mapM_coerceKey fits, computed]
  dsimp only [bind, Except.bind, pure, Except.pure]
  rw [if_neg (by simpa using filled)]
  exact ⟨_, rfl⟩

/-- For integers nothing can fail. -/
theorem balancedFrom_integer (integerKey : keyType.isInteger = true) (count : Nat) {mins : List Int}
    (filled : mins ≠ []) (high : Int) :
    balancedFrom keyType count (mins.map .integer) (.integer high) =
      some ((paddedRanges (high + 1) mins count).map fun range =>
        (.integer range.1, .integer range.2)) := by
  have fits : KeyKind.integer.Fits keyType := integerKey
  have upper : rangeUpper keyType (.integer high) = .ok (.integer (high + 1)) := by
    simp [rangeUpper, integerKey]
  obtain ⟨ranges, built⟩ := exists_balancedFrom fits count filled upper
  obtain ⟨_, rfl⟩ := balancedFrom_eq_some fits built
  exact built

end Balanced

end ShortcutProxy.KeyRanges
