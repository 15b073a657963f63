import ShortcutProxy.SplitPartition

/-!
# Ranges of equal count and the keys they cover

`_balanced_ranges` sizes the ranges of a snapshot by bucket minima. From a bucket
query its ranges always cover the keys of the column, sampled or not: a sample only
moves the inner boundaries, since the two ends are taken from the whole column.

From a histogram nothing replaces the ends. The ranges start at the first key of the
histogram and stop after its last one, so they cover the keys of the table exactly
when no key has moved out of the histogram since it was built.
-/

namespace ShortcutProxy.BalancedRanges

open KeyRanges KeyStatistics Partition SplitPartition SplitPlanner TableConfig

/-- A key lies in a half-open interval. -/
def contains (interval : Int × Int) (key : Int) : Bool :=
  interval.1 ≤ key ∧ key < interval.2

/-- Every key lies in exactly one of the intervals. -/
def CoverOnce (intervals : List (Int × Int)) (keys : List Int) : Prop :=
  ∀ key ∈ keys, intervals.countP (fun interval => contains interval key) = 1

instance (intervals : List (Int × Int)) (keys : List Int) : Decidable (CoverOnce intervals keys) :=
  inferInstanceAs (Decidable (∀ key ∈ keys, _))

/-- Intervals without a gap cover the keys between their ends, and no others. -/
theorem coverOnce_iff {intervals : List (Int × Int)} {start stop : Int}
    (tiles : Tiles intervals start stop) (keys : List Int) :
    CoverOnce intervals keys ↔ ∀ key ∈ keys, start ≤ key ∧ key < stop := by
  refine forall₂_congr fun key _ => ?_
  have counted := tiles.countP_eq key
  simp only [contains]
  rw [counted]
  split
  · rename_i inside
    exact ⟨fun _ => inside, fun _ => rfl⟩
  · rename_i outside
    exact ⟨fun absent => by omega, fun inside => absurd inside outside⟩

/-- The key bounds of an interval of counts. -/
def intervalBounds (kind : KeyKind) (interval : Int × Int) : Bound × Bound :=
  (kind.bound interval.1, kind.bound interval.2)

section Cover

variable (settings : Settings) (table : TableDef) {replies : KeyReplies} {keyType : IcebergType}
  {count : Nat}

/-- The database answers all queries on the column. -/
structure Answers (replies : KeyReplies) : Prop where
  rowCount : ∃ total, replies.rowCount = .ok total
  columnBounds : ∃ bounds, replies.columnBounds = .ok bounds
  ntile : ∀ buckets stride, ∃ rows, replies.ntile buckets stride = .ok rows

/-- A bucket query that is answered and sees a key gives bounds. -/
theorem exists_fetched_quantiles {kind : KeyKind} {rows : Nat} {keys : List Int} {sampleRows : Int}
    {keyIsInteger : Bool} (faithful : replies.Faithful kind rows keys) (positive : 1 ≤ count)
    {stride : Option Int} (chosen : quantileStride replies sampleRows keyIsInteger = .ok stride)
    {buckets : List (Option Bound × Option Bound)}
    (answered : replies.ntile count stride = .ok buckets)
    (anchors : stride = none ∨ ∃ bounds, replies.columnBounds = .ok bounds)
    (sampled : sampledKeys keys stride ≠ []) :
    ∃ bounds, fetchKeyQuantileBounds replies count sampleRows keyIsInteger = .ok (some bounds) := by
  have parts : 0 < (count : Int).toNat := by omega
  obtain ⟨first, rest, last, high, minima, ends, top, few, sublist, head, tail⟩ :=
    exists_bucket_ends parts sampled
  rw [fetchKeyQuantileBounds_eq (by omega) faithful chosen answered minima ends top]
  have anchored : ∃ anchored, anchoredBounds replies stride
      ((first :: rest).map fun key => some (kind.bound key)) (some (kind.bound high)) =
        .ok anchored := by
    rcases anchors with rfl | ⟨reply, bounded⟩
    · exact ⟨_, rfl⟩
    · cases stride with
      | none => exact ⟨_, rfl⟩
      | some stride => exact ⟨_, by rw [anchoredBounds, fetchColumnBounds, bounded]; rfl⟩
  obtain ⟨anchored, computed⟩ := anchored
  obtain ⟨low, upmost, rfl, _⟩ :=
    anchoredBounds_quantiles faithful sublist few head tail computed
  have lists : ((low :: rest).map fun key => some (kind.bound key)) =
      ((low :: rest).map kind.bound).map some := by rw [List.map_map]; rfl
  rw [computed, lists]
  simp only [Except.map, mapM_id_map_some]
  exact ⟨_, rfl⟩

theorem Answers.exists_stride {sampleRows : Int} {keyIsInteger : Bool} (answers : Answers replies) :
    ∃ stride, quantileStride replies sampleRows keyIsInteger = .ok stride := by
  obtain ⟨total, counted⟩ := answers.rowCount
  unfold quantileStride
  split
  · exact ⟨_, by rw [counted]; rfl⟩
  · exact ⟨none, rfl⟩

/-- Where ranges of equal count come from. -/
theorem balancedRanges_cases {kind : KeyKind} {rows : Nat} {keys : List Int}
    (fits : kind.Fits keyType) (faithful : replies.Faithful kind rows keys) (positive : 1 ≤ count)
    {ranges : List (Bound × Bound)}
    (noHistogram : histogramBounds settings table replies keyType count = none)
    (built : balancedRanges settings table replies keyType count = some ranges) :
    ∃ low rest top, Quantiles keys count low rest top ∧
      ranges = (paddedRanges (kind.next top) (low :: rest) count).map (intervalBounds kind) := by
  rw [balancedRanges, if_neg (by omega), noHistogram] at built
  dsimp only at built
  split at built
  · rename_i mins high fetched
    obtain ⟨low, rest, top, rfl, rfl, quantiles⟩ :=
      quantiles_of_fetch faithful (by omega) fetched
    rw [Int.toNat_natCast] at quantiles
    exact ⟨low, rest, top, quantiles, (balancedFrom_eq_some fits built).2⟩
  · cases built

/-- What a histogram gives: ranges without a gap from its first key to after its last one. -/
theorem balancedRanges_of_histogram (integerKey : keyType.isInteger = true)
    (ascending : replies.Ascending) (positive : 1 ≤ count) {bounds : List Int × Int}
    (reported : histogramBounds settings table replies keyType count = some bounds) :
    ∃ intervals first last,
      balancedRanges settings table replies keyType count =
        some (intervals.map (intervalBounds .integer)) ∧
      intervals.length = count ∧ Tiles intervals first (last + 1) ∧
      histogramEnds (settings.capabilitiesFor table).flavor replies = some (first, last) := by
  obtain ⟨mins, high⟩ := bounds
  have fetched : fetchKeyHistogramBounds (settings.capabilitiesFor table).flavor replies count =
      some (mins, high) := by
    unfold histogramBounds at reported
    dsimp only at reported
    split at reported
    · exact reported
    · cases reported
  obtain ⟨first, rest, rfl, minima, ends⟩ := minima_of_histogram ascending fetched
  rw [Int.toNat_natCast] at minima
  have bounded : ∀ key ∈ first :: rest, key ≤ high + 1 := fun key member =>
    (minima.bounded key member).trans (by omega)
  refine ⟨paddedRanges (high + 1) (first :: rest) count, first, high, ?_,
    length_paddedRanges _ _ _, tiles_paddedRanges minima.ascending bounded minima.few, ends⟩
  rw [balancedRanges, if_neg (by omega), reported]
  exact balancedFrom_integer integerKey count (List.cons_ne_nil first rest) high

/-- From bucket minima, sampled or not, and whatever the duplicates and the skew of the
keys: the ranges are as many intervals as asked for, they follow one another without a
gap, and every key lies in exactly one of them. They are built whenever the database
answers and the bucket query sees a key. -/
theorem balancedRanges_quantiles_cover {keys : List Int} (integerKey : keyType.isInteger = true)
    (faithful : replies.Faithful .integer keys.length keys) (positive : 1 ≤ count)
    (noHistogram : histogramBounds settings table replies keyType count = none) :
    (∀ ranges, balancedRanges settings table replies keyType count = some ranges →
      ∃ intervals start stop, ranges = intervals.map (intervalBounds .integer) ∧ intervals.length = count ∧
        Tiles intervals start stop ∧ CoverOnce intervals keys) ∧
    (Answers replies →
      (∀ stride, quantileStride replies (table.effectiveSplitSampleRows settings)
        keyType.isInteger = .ok stride → sampledKeys keys stride ≠ []) →
      (balancedRanges settings table replies keyType count).isSome = true) := by
  have fits : KeyKind.integer.Fits keyType := integerKey
  refine ⟨fun ranges built => ?_, fun answers sampled => ?_⟩
  · obtain ⟨low, rest, top, quantiles, rfl⟩ :=
      balancedRanges_cases settings table fits faithful positive noHistogram built
    have bounded : ∀ key ∈ low :: rest, key ≤ top + 1 := fun key member =>
      (quantiles.bounded key member).trans (by omega)
    have tiles := tiles_paddedRanges quantiles.ascending bounded quantiles.few
    refine ⟨_, low, top + 1, rfl, length_paddedRanges _ _ _, tiles, ?_⟩
    refine (coverOnce_iff tiles keys).mpr fun key member => ?_
    exact ⟨quantiles.least key member, Int.lt_add_one_of_le (quantiles.greatest key member)⟩
  · obtain ⟨stride, chosen⟩ := answers.exists_stride
    obtain ⟨buckets, answered⟩ := answers.ntile count stride
    obtain ⟨bounds, fetched⟩ := exists_fetched_quantiles faithful positive chosen answered
      (.inr answers.columnBounds) (sampled stride chosen)
    obtain ⟨low, rest, top, minsEq, highEq, _⟩ := quantiles_of_fetch faithful (by omega) fetched
    obtain ⟨mins, high⟩ := bounds
    obtain rfl : mins = (low :: rest).map KeyKind.integer.bound := minsEq
    obtain rfl : high = KeyKind.integer.bound top := highEq
    have built := balancedFrom_integer integerKey count (List.cons_ne_nil low rest) top
    rw [balancedRanges, if_neg (by omega), noHistogram]
    simp only [fetched]
    exact Option.isSome_iff_exists.mpr ⟨_, built⟩

/-- From an ascending histogram, however old: the ranges cover the keys of the table
exactly when all of them lie between the first and the last key of the histogram. -/
theorem balancedRanges_histogram_cover_iff (integerKey : keyType.isInteger = true)
    (ascending : replies.Ascending) (positive : 1 ≤ count) {bounds : List Int × Int}
    (reported : histogramBounds settings table replies keyType count = some bounds)
    (keys : List Int) :
    ∃ intervals, balancedRanges settings table replies keyType count =
        some (intervals.map (intervalBounds .integer)) ∧
      (CoverOnce intervals keys ↔
        ∃ ends, histogramEnds (settings.capabilitiesFor table).flavor replies = some ends ∧
          ∀ key ∈ keys, ends.1 ≤ key ∧ key ≤ ends.2) := by
  obtain ⟨intervals, first, last, built, _, tiles, ends⟩ :=
    balancedRanges_of_histogram settings table integerKey ascending positive reported
  refine ⟨intervals, built, ?_⟩
  rw [coverOnce_iff tiles, ends]
  constructor
  · exact fun inside => ⟨(first, last), rfl, fun key member =>
      ⟨(inside key member).1, Int.le_of_lt_add_one (inside key member).2⟩⟩
  · rintro ⟨_, same, within⟩ key member
    cases Option.some.inj same
    exact ⟨(within key member).1, Int.lt_add_one_of_le (within key member).2⟩

end Cover

/-! ## Examples -/

/-- Settings for a source that samples its bucket queries down to two rows. -/
def sampledSettings : Settings :=
  { dbUrl := "sqlite", queryMaxRows := 9, splitBalance := .count, splitSampleRows := 2 }

theorem balancedRanges_quantiles_cover_sampled :
    ∃ ranges, balancedRanges sampledSettings keyedTable
        (answering .integer 4 [5, 4, 5, 9]) .long 3 = some ranges ∧
      ∃ intervals start stop, ranges = intervals.map (intervalBounds .integer) ∧ intervals.length = 3 ∧
        Tiles intervals start stop ∧ CoverOnce intervals [5, 4, 5, 9] := by
  have faithful : (answering .integer 4 [5, 4, 5, 9]).Faithful .integer
      [5, 4, 5, (9 : Int)].length [5, 4, 5, 9] := answering_faithful ..
  have noHistogram : histogramBounds sampledSettings keyedTable (answering .integer 4 [5, 4, 5, 9])
      .long 3 = none := by
    decide +kernel
  have cover := balancedRanges_quantiles_cover sampledSettings keyedTable rfl faithful
    (by decide) noHistogram
  have answers : Answers (answering .integer 4 [5, 4, 5, 9]) :=
    ⟨⟨_, rfl⟩, ⟨_, rfl⟩, fun _ _ => ⟨_, rfl⟩⟩
  have built := cover.2 answers fun stride chosen => by
    have two : quantileStride (answering .integer 4 [5, 4, 5, 9])
        (keyedTable.effectiveSplitSampleRows sampledSettings) true = .ok (some 2) := by
      decide +kernel
    obtain rfl : stride = some 2 := Except.ok.inj (chosen.symm.trans two)
    exact List.ne_nil_of_mem (List.mem_mergeSort.mpr (by decide : (4 : Int) ∈ _))
  obtain ⟨ranges, equation⟩ := Option.isSome_iff_exists.mp built
  exact ⟨ranges, equation, cover.1 ranges equation⟩

/-- Settings for a source with optimizer statistics. -/
def histogramSettings : Settings :=
  { dbUrl := "mssql", queryMaxRows := 9, splitBalance := .count }

/-- Statistics that were built when the keys ended at 5. -/
def olderHistogram : KeyReplies :=
  { answering .integer 3 [1, 5, 7] with mssqlHistogramSteps := .ok [(1, 1), (5, 5)] }

theorem olderHistogram_ascending : olderHistogram.Ascending where
  steps answered := by
    rw [← Except.ok.inj answered]
    decide
  bounds answered := by
    rw [← Except.ok.inj answered]
    exact .nil

/-- A key that was added after the statistics lies in none of the ranges. -/
theorem balancedRanges_misses_newer_key :
    balancedRanges histogramSettings keyedTable olderHistogram .long 2 =
        some ([(1, 5), (5, 6)].map (intervalBounds .integer)) ∧
      ¬ CoverOnce [(1, 5), (5, 6)] [1, 5, 7] := by
  decide +kernel

theorem balancedRanges_histogram_cover_older :
    ∃ intervals, balancedRanges histogramSettings keyedTable olderHistogram .long 2 =
        some (intervals.map (intervalBounds .integer)) ∧ CoverOnce intervals [1, 3, 5] := by
  have reported : histogramBounds histogramSettings keyedTable olderHistogram .long 2 =
      some ([1, 5], 5) := by
    decide +kernel
  obtain ⟨intervals, built, cover⟩ := balancedRanges_histogram_cover_iff histogramSettings
    keyedTable rfl olderHistogram_ascending (by decide) reported [1, 3, 5]
  exact ⟨intervals, built, cover.mpr ⟨(1, 5), by decide +kernel, by decide⟩⟩

end ShortcutProxy.BalancedRanges
