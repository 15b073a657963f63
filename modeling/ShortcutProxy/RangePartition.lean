import ShortcutProxy.BalancedRanges

/-!
# Splits by planned ranges

The splits of a table after `plan_ranges_for_snapshot` has assigned ranges, read from
rows that do not change since planning, each query within its row limit. Their answers
are the rows of the table, each row once, exactly when no key is NULL and the ends of
the ranges reach the keys.

NULL lies in no range, because the comparison with NULL is unknown. The ends reach
integers and days always, unless the ranges come from a histogram that some key has
left. For moments the ends are computed in double precision, and a largest moment
whose tick comes out one too small is left out.
-/

namespace ShortcutProxy.RangePartition

open BalancedRanges Dialects Fallible KeyRanges KeyStatistics Partition Relational Option
  SplitPartition SplitPlanner SplitQueries TableConfig

/-- The keys of the rows, as far as they are of the kind. -/
def keysOf (kind : KeyKind) (key : String) (rows : List Row) : List Int :=
  rows.filterMap fun row => kind.read (row key)

/-- The ends of the planned ranges reach all keys. If a histogram gave the ranges, no key
may lie outside of it. Otherwise the way of the smallest key to a tick and back must not
lead above it, unless a bucket query gave it as it is, and one tick past the largest key
must lead above it; for integers and days both always hold. -/
def EdgesReached (settings : Settings) (table : TableDef) (replies : KeyReplies)
    (keyType : IcebergType) (kind : KeyKind) (count : Nat) (keys : List Int) : Prop :=
  if triesBalanced settings table keyType = true ∧
      (histogramBounds settings table replies keyType count).isSome = true then
    ∃ ends, histogramEnds (settings.capabilitiesFor table).flavor replies = some ends ∧
      ∀ key ∈ keys, ends.1 ≤ key ∧ key ≤ ends.2
  else
    (∀ low, keys.min? = some low → (triesBalanced settings table keyType = true ∧
      ∃ buckets, replies.ntile count none = .ok buckets) ∨ kind.start low ≤ low) ∧
    ∀ high, keys.max? = some high → high < kind.next high

section Planned

variable {settings : Settings} {table : TableDef} {replies : KeyReplies} {keyType : IcebergType}
  {kind : KeyKind} {count : Nat} {keys : List Int}

/-- Ranges from bucket minima cover the keys exactly when the upper end is above the
largest key. -/
theorem coverOnce_quantiles_iff {low top : Int} {rest : List Int}
    (quantiles : Quantiles keys count low rest top) :
    CoverOnce (paddedRanges (kind.next top) (low :: rest) count) keys ↔ top < kind.next top := by
  constructor
  · intro cover
    by_contra short
    -- no range ends above the largest key, so none contains it
    have outside : ∀ range ∈ paddedRanges (kind.next top) (low :: rest) count,
        ¬ contains range top = true := by
      intro range member inside
      have below : range.2 ≤ top := by
        rcases snd_of_mem_paddedRanges member with minimum | upper
        · exact quantiles.bounded _ minimum
        · rw [upper]
          exact not_lt.mp short
      have above : top < range.2 := (of_decide_eq_true inside).2
      omega
    have counted := cover top quantiles.present.2
    rw [List.countP_eq_zero.mpr outside] at counted
    cases counted
  · intro above
    have bounded : ∀ key ∈ low :: rest, key ≤ kind.next top := fun key member =>
      (quantiles.bounded key member).trans above.le
    have tiles := tiles_paddedRanges quantiles.ascending bounded quantiles.few
    exact (coverOnce_iff tiles keys).mpr fun key member =>
      ⟨quantiles.least key member, (quantiles.greatest key member).trans_lt above⟩

/-- Ranges of equal span cover the keys exactly when their ends reach both ends of the
keys. -/
theorem coverOnce_span_iff (positive : 1 ≤ count) {low high : Int} (lowest : keys.min? = some low)
    (highest : keys.max? = some high) :
    CoverOnce (spanIntervals kind low high count) keys ↔
      kind.start low ≤ low ∧ high < kind.next high := by
  have least := List.min?_eq_some_iff.mp lowest
  have greatest := List.max?_eq_some_iff.mp highest
  have ordered : low ≤ high := greatest.2 low least.1
  rw [coverOnce_iff (tiles_spanIntervals ordered positive)]
  constructor
  · exact fun inside => ⟨(inside low least.1).1, (inside high greatest.1).2⟩
  · exact fun ends key member => ⟨ends.1.trans (least.2 key member),
      (greatest.2 key member).trans_lt ends.2⟩

theorem kind_eq_integer (integerKey : keyType.isInteger = true) (fits : kind.Fits keyType) :
    kind = .integer := by
  cases kind with
  | integer => rfl
  | date => obtain rfl : keyType = .date := fits; cases integerKey
  | timestamp aware => rcases fits with rfl | rfl <;> cases integerKey

theorem start_eq_of_integer (integerKey : keyType.isInteger = true) (fits : kind.Fits keyType)
    (low : Int) : kind.start low = low := by
  rw [kind_eq_integer integerKey fits]
  rfl

variable {rows : Nat} {key : String} {strategy : SplitStrategy}

section

variable (fits : kind.Fits keyType) (faithful : replies.Faithful kind rows keys)
  (positive : 1 ≤ count)
include fits positive

/-- With a histogram, ranges of equal count cover the keys exactly when the edges are
reached. -/
theorem histogram_edges (ascending : replies.Ascending)
    (tries : triesBalanced settings table keyType = true)
    {bounds : List Int × Int}
    (reported : histogramBounds settings table replies keyType count = some bounds) :
    ∃ intervals, balancedRanges settings table replies keyType count =
        some (intervals.map (intervalBounds kind)) ∧ intervals.length = count ∧
      (CoverOnce intervals keys ↔
        EdgesReached settings table replies keyType kind count keys) := by
  have integerKey : keyType.isInteger = true := by
    by_contra other
    rw [histogramBounds, if_neg (fun all => other all.2.2)] at reported
    cases reported
  obtain rfl := kind_eq_integer integerKey fits
  obtain ⟨intervals, first, last, built, length, tiles, ends⟩ :=
    balancedRanges_of_histogram settings table integerKey ascending positive reported
  refine ⟨intervals, built, length, ?_⟩
  rw [coverOnce_iff tiles, EdgesReached, reported, if_pos ⟨tries, rfl⟩, ends]
  constructor
  · exact fun inside => ⟨(first, last), rfl, fun key member =>
      ⟨(inside key member).1, Int.le_of_lt_add_one (inside key member).2⟩⟩
  · rintro ⟨_, same, within⟩ key member
    cases some.inj same
    exact ⟨(within key member).1, Int.lt_add_one_of_le (within key member).2⟩

include faithful

/-- Without a histogram likewise. -/
theorem quantiles_edges (tries : triesBalanced settings table keyType = true)
    (noHistogram : histogramBounds settings table replies keyType count = none)
    {ranges : List (Bound × Bound)}
    (balanced : balancedRanges settings table replies keyType count = some ranges) :
    ∃ intervals, ranges = intervals.map (intervalBounds kind) ∧ intervals.length = count ∧
      (CoverOnce intervals keys ↔
        EdgesReached settings table replies keyType kind count keys) := by
  obtain ⟨low, rest, top, quantiles, rfl⟩ :=
    balancedRanges_cases settings table fits faithful positive noHistogram balanced
  refine ⟨_, rfl, length_paddedRanges _ _ _, ?_⟩
  have highest : keys.max? = some top :=
    List.max?_eq_some_iff.mpr ⟨quantiles.present.2, quantiles.greatest⟩
  have lowEdge : ∀ low, keys.min? = some low → (triesBalanced settings table keyType = true ∧
      ∃ buckets, replies.ntile count none = .ok buckets) ∨ kind.start low ≤ low := by
    intro low _
    by_cases integerKey : keyType.isInteger = true
    · exact .inr (start_eq_of_integer integerKey fits low).le
    · refine .inl ⟨tries, ?_⟩
      -- without sampling the bucket query runs over the whole column, and it was answered
      rw [balancedRanges, if_neg (by omega), noHistogram] at balanced
      cases answered : replies.ntile count none with
      | ok buckets => exact ⟨buckets, rfl⟩
      | error failure =>
        have whole : quantileStride replies (table.effectiveSplitSampleRows settings)
            keyType.isInteger = .ok none := if_neg (fun both => integerKey both.2)
        have failed : fetchKeyQuantileBounds replies count
            (table.effectiveSplitSampleRows settings) keyType.isInteger = .error failure := by
          rw [fetchKeyQuantileBounds, if_neg (by omega), whole]
          simp only [bind, Except.bind, answered]
        simp only [failed] at balanced
        cases balanced
  rw [coverOnce_quantiles_iff quantiles, EdgesReached, noHistogram, if_neg (by simp)]
  constructor
  · refine fun above => ⟨lowEdge, fun high same => ?_⟩
    obtain rfl : top = high := some.inj (highest.symm.trans same)
    exact above
  · exact fun edges => edges.2 top highest

variable {high : Int} (highest : keys.max? = some high)
  (upper : kind ≠ .integer → ∃ upper, rangeUpper keyType (kind.bound high) = .ok upper)
include highest upper

/-- A bucket query for days or moments that is answered gives ranges, as long as the upper
end is in the calendar. -/
theorem exists_balancedRanges (temporal : ¬ keyType.isInteger = true)
    (noHistogram : histogramBounds settings table replies keyType count = none) {key : Int}
    (member : key ∈ keys) {buckets : List (Option Bound × Option Bound)}
    (answered : replies.ntile count none = .ok buckets) :
    ∃ ranges, balancedRanges settings table replies keyType count = some ranges := by
  have whole : quantileStride replies (table.effectiveSplitSampleRows settings)
      keyType.isInteger = .ok none := if_neg (fun both => temporal both.2)
  have sampled : sampledKeys keys none ≠ [] :=
    List.ne_nil_of_mem (List.mem_mergeSort.mpr member)
  obtain ⟨bounds, fetched⟩ :=
    exists_fetched_quantiles faithful positive whole answered (.inl rfl) sampled
  obtain ⟨mins, top⟩ := bounds
  obtain ⟨low, rest, upmost, rfl, rfl, quantiles⟩ :=
    quantiles_of_fetch faithful (by omega) fetched
  obtain rfl : upmost = high := some.inj
    ((List.max?_eq_some_iff.mpr ⟨quantiles.present.2, quantiles.greatest⟩).symm.trans highest)
  have notInteger : kind ≠ .integer := by
    rintro rfl
    exact temporal fits
  obtain ⟨last, computed⟩ := upper notInteger
  rw [balancedRanges, if_neg (by omega), noHistogram]
  simp only [fetched]
  exact exists_balancedFrom fits count (List.cons_ne_nil low rest) computed

/-- Where equal spans are planned, no bucket query was answered for moments. -/
theorem span_edges (ascending : replies.Ascending) {low : Int} (lowest : keys.min? = some low)
    (unbalanced : triesBalanced settings table keyType = true →
      balancedRanges settings table replies keyType count = none) :
    CoverOnce (spanIntervals kind low high count) keys ↔
      EdgesReached settings table replies keyType kind count keys := by
  have noHistogram : ¬ (triesBalanced settings table keyType = true ∧
      (histogramBounds settings table replies keyType count).isSome = true) := by
    rintro ⟨tries, reported⟩
    obtain ⟨bounds, equation⟩ := isSome_iff_exists.mp reported
    obtain ⟨intervals, built, _⟩ :=
      @histogram_edges _ _ _ _ _ _ keys fits positive ascending tries _ equation
    rw [unbalanced tries] at built
    cases built
  rw [coverOnce_span_iff positive lowest highest, EdgesReached, if_neg noHistogram]
  constructor
  · intro ends
    refine ⟨fun other same => ?_, fun other same => ?_⟩
    · obtain rfl : low = other := some.inj (lowest.symm.trans same)
      exact .inr ends.1
    · obtain rfl : high = other := some.inj (highest.symm.trans same)
      exact ends.2
  · intro edges
    refine ⟨?_, edges.2 high highest⟩
    rcases edges.1 low lowest with ⟨tries, buckets, answered⟩ | start
    · by_cases integerKey : keyType.isInteger = true
      · exact (start_eq_of_integer integerKey fits low).le
      · have none : histogramBounds settings table replies keyType count = none :=
          not_isSome_iff_eq_none.mp fun some => noHistogram ⟨tries, some⟩
        have member : low ∈ keys := (List.min?_eq_some_iff.mp lowest).1
        obtain ⟨ranges, built⟩ := exists_balancedRanges fits faithful positive highest upper
          integerKey none member answered
        rw [unbalanced tries] at built
        cases built
    · exact start

end

/-- Bounds that a faithful database returns are the ends of the keys. -/
theorem exists_ends_of_fetch (faithful : replies.Faithful kind rows keys) {bounds : Bound × Bound}
    (fetched : fetchColumnBounds replies = .ok (some bounds)) :
    ∃ low high, keys.min? = some low ∧ keys.max? = some high ∧
      bounds = (kind.bound low, kind.bound high) := by
  obtain ⟨low, lowest, rest⟩ :=
    bind_eq_some_iff.mp (fetchColumnBounds_faithful faithful fetched).symm
  obtain ⟨high, highest, equation⟩ := map_eq_some_iff.mp rest
  exact ⟨low, high, lowest, highest, equation.symm⟩

/-- Planned ranges are as many intervals as there are splits, and they cover the keys
exactly when the edges are reached. -/
theorem plannedRanges_cover {session : ReadSession} (typed : columnType table key = some keyType)
    (fits : kind.Fits keyType) (faithful : (session table.sourceTable key).Faithful kind rows keys)
    (ascending : (session table.sourceTable key).Ascending) (positive : 1 ≤ count)
    {ranges : List (Bound × Bound)}
    (planned : plannedRanges settings session table strategy key count = .ok (some ranges)) :
    ∃ intervals, ranges = intervals.map (intervalBounds kind) ∧ intervals.length = count ∧
      (CoverOnce intervals keys ↔ EdgesReached settings table (session table.sourceTable key)
        keyType kind count keys) := by
  unfold plannedRanges at planned
  generalize session table.sourceTable key = replies at faithful ascending planned ⊢
  rw [typed] at planned
  dsimp only at planned
  split at planned
  · cases planned
  · split at planned
    · rename_i balancedPlan balancedEq
      obtain rfl : balancedPlan = ranges := some.inj (Except.ok.inj planned)
      split at balancedEq
      · rename_i tries
        cases reported : histogramBounds settings table replies keyType count with
        | none => exact quantiles_edges fits faithful positive tries reported balancedEq
        | some bounds =>
          obtain ⟨intervals, built, length, cover⟩ :=
            histogram_edges fits positive ascending tries reported
          exact ⟨intervals, some.inj (balancedEq.symm.trans built), length, cover⟩
      · cases balancedEq
    · rename_i balancedEq
      have unbalanced : triesBalanced settings table keyType = true →
          balancedRanges settings table replies keyType count = none := by
        intro tries
        rwa [if_pos tries] at balancedEq
      split at planned
      · rename_i integerPlan
        obtain rfl := kind_eq_integer integerPlan.2 fits
        obtain ⟨bounds, joined, rfl⟩ := map_eq_some_iff.mp (Except.ok.inj planned)
        have fetched := fetchColumnBounds_of_fetchKeyBounds (join_toOption_eq_some.mp joined)
        obtain ⟨low, high, lowest, highest, equation⟩ := exists_ends_of_fetch faithful fetched
        obtain ⟨rfl, rfl⟩ : bounds.1 = low ∧ bounds.2 = high := by
          simpa [KeyKind.bound] using equation
        have ordered : bounds.1 ≤ bounds.2 :=
          (List.max?_eq_some_iff.mp highest).2 _ (List.min?_eq_some_iff.mp lowest).1
        refine ⟨spanIntervals .integer bounds.1 bounds.2 count, ?_,
          length_spanIntervals ordered positive,
          span_edges fits faithful positive highest (fun other => absurd rfl other) ascending lowest
            unbalanced⟩
        rw [spanIntervals, List.map_map]
        rfl
      · split at planned
        · rename_i temporalPlan
          split at planned
          · rename_i bounds joined
            have temporal : kind ≠ .integer := by
              rintro rfl
              exact IcebergType.not_temporal_of_integer fits temporalPlan.2
            have fetched := join_toOption_eq_some.mp joined
            obtain ⟨low, high, lowest, highest, rfl⟩ := exists_ends_of_fetch faithful fetched
            have ordered : low ≤ high :=
              (List.max?_eq_some_iff.mp highest).2 _ (List.min?_eq_some_iff.mp lowest).1
            cases computed : computeTemporalRanges (kind.bound low) (kind.bound high) count
                (temporalKind keyType) with
            | error failure => rw [computed] at planned; cases planned
            | ok results =>
              rw [computed] at planned
              obtain rfl : results = ranges := some.inj (Except.ok.inj planned)
              exact ⟨spanIntervals kind low high count,
                computeTemporalRanges_eq_ok fits temporal computed,
                length_spanIntervals ordered positive,
                span_edges fits faithful positive highest (fun _ =>
                  exists_rangeUpper fits temporal computed ordered positive) ascending lowest
                  unbalanced⟩
          · cases planned
        · cases planned

theorem orElse_ne_some_empty {first second : Option String} (one : first ≠ some "")
    (two : second ≠ some "") : (first <|> second) ≠ some "" := by
  cases first with
  | none => simpa using two
  | some name => simpa using one

/-- The key that planning chose is the key of the query. -/
theorem splitKey_of_chosen (chosen : chooseStrategyKey settings table strategy = .ok key)
    {split : PlannedSplit} (same : split.table = table) (keyed : split.splitKeyColumn = some key) :
    splitKey settings split = .ok key := by
  by_cases empty : key = ""
  · subst empty
    have fallback : pkColumn settings table = .ok "" := by
      obtain ⟨explicitKey, explicit, chosen⟩ := bind_eq_ok.mp chosen
      dsimp only at chosen
      split at chosen
      · rename_i name found
        obtain rfl : name = "" := Except.ok.inj chosen
        exact absurd found (orElse_ne_some_empty (given_ne_some_empty _) (given_ne_some_empty _))
      · split at chosen
        · rename_i name found
          obtain rfl : name = "" := Except.ok.inj chosen
          refine absurd found (orElse_ne_some_empty ?_ ?_)
          all_goals
            split
            · exact given_ne_some_empty _
            · exact some_ne_none _ ∘ .symm
        · exact chosen
    rw [splitKey, keyed, same]
    exact fallback
  · rw [splitKey, keyed, given_some empty]

/-- A split that was given a range. -/
theorem getD_assignRanges {intervals : List (Int × Int)} (length : intervals.length = count)
    {index : Nat} (inside : index < count) (other : PlannedSplit) :
    (assignRanges ((freshSplits table count).map fun split =>
        { split with splitKeyColumn := some key }) (intervals.map (intervalBounds kind))).getD
          index other =
      { plainSplit table count (some key) index with
        keyLo := some (kind.bound (intervals.getD index (0, 0)).1)
        keyHi := some (kind.bound (intervals.getD index (0, 0)).2) } := by
  have within : index < intervals.length := length ▸ inside
  simp [assignRanges, freshSplits, List.getD_eq_getElem?_getD, List.getElem?_zipIdx,
    List.getElem?_range inside, List.getElem?_eq_getElem within, plainSplit, intervalBounds]

theorem countP_range_getD (intervals : List (Int × Int)) (number : Int) :
    (List.range intervals.length).countP
        (fun index => contains (intervals.getD index (0, 0)) number) =
      intervals.countP fun interval => contains interval number := by
  have listed : (List.range intervals.length).map (fun index => intervals.getD index (0, 0)) =
      intervals := by
    refine List.ext_getElem (by simp) fun index _ inside => ?_
    rw [List.getElem_map, List.getElem_range, List.getD_eq_getElem _ _ inside]
  conv_rhs => rw [← listed]
  rw [List.countP_map]
  rfl

/-- What planning that assigns ranges has computed. -/
theorem planned_eq_ok {session : ReadSession} {fresh splits : List PlannedSplit}
    (chosen : chooseStrategyKey settings table (plannedStrategy settings table) = .ok key)
    (planned : planRangesForSnapshot settings session table fresh = .ok (true, splits)) :
    ∃ ranges, plannedRanges settings session table (plannedStrategy settings table) key
        fresh.length = .ok (some ranges) ∧
      splits = assignRanges (fresh.map fun split => { split with splitKeyColumn := some key })
        ranges := by
  unfold planRangesForSnapshot at planned
  dsimp only at planned
  split at planned
  · cases planned
  · obtain ⟨other, same, planned⟩ := bind_eq_ok.mp planned
    cases chosen.symm.trans same
    obtain ⟨result, computed, planned⟩ := bind_eq_ok.mp planned
    cases result with
    | none => cases planned
    | some ranges => exact ⟨ranges, computed, (congrArg Prod.snd (Except.ok.inj planned)).symm⟩

/-- A row is in one split exactly when its key is of the kind and in one interval. -/
theorem countP_read_eq_one_iff (intervals : List (Int × Int)) (value : Value) :
    (List.range intervals.length).countP (fun index =>
        (kind.read value).any fun number => contains (intervals.getD index (0, 0)) number) = 1 ↔
      ∃ number, kind.read value = some number ∧
        intervals.countP (fun interval => contains interval number) = 1 := by
  cases kind.read value with
  | none => simp
  | some number => simpa using .of_eq (congrArg (· = 1) (countP_range_getD intervals number))

/-- The splits of a table with the intervals as their ranges. -/
def rangedSplits (table : TableDef) (count : Nat) (key : String) (kind : KeyKind)
    (intervals : List (Int × Int)) : List PlannedSplit :=
  assignRanges ((freshSplits table count).map fun split =>
    { split with splitKeyColumn := some key }) (intervals.map (intervalBounds kind))

/-- Splits with intervals as their ranges make up the table exactly when every row has a
key of the kind that lies in one of the intervals. -/
theorem rangedSplits_perm_iff {collation : Collation}
    (chosen : chooseStrategyKey settings table strategy = .ok key)
    (typed : columnType table key = some keyType) (fits : kind.Fits keyType)
    {intervals : List (Int × Int)} (length : intervals.length = count) {rows : List Row}
    {answers : Nat → List Row}
    (reads : Reads settings collation rows count (fun index =>
      (rangedSplits table count key kind intervals).getD index
        (plainSplit table count none index)) answers) :
    ((List.range count).flatMap answers).Perm rows ↔
      ∀ row ∈ rows, ∃ number, kind.read (row key) = some number ∧
        intervals.countP (fun interval => contains interval number) = 1 := by
  have tests : ∀ index < count, ∀ query : Statement × Params,
      buildSplitQuery settings ((rangedSplits table count key kind intervals).getD index
          (plainSplit table count none index)) = .ok query →
        query.1.select.numbering = none ∧
          ∀ row, query.1.select.condition.holds query.2 (row, 0) =
            (kind.read (row key)).any fun number =>
              contains (intervals.getD index (0, 0)) number := by
    intro index inside query built
    rw [rangedSplits, getD_assignRanges length inside] at built
    obtain ⟨plain, holds⟩ :=
      select_of_range (splitKey_of_chosen chosen rfl rfl) typed fits rfl rfl built
    refine ⟨plain, fun row => Bool.eq_iff_iff.mpr ?_⟩
    rw [holds, any_eq_true]
    simp only [KeyKind.read_eq_some, contains, decide_eq_true_eq]
  rw [answers_perm_iff reads tests, ← length]
  simp only [countP_read_eq_one_iff]

end Planned

/-- Splits by planned ranges make up the table exactly when no key is NULL and the ends of
the ranges reach the keys. -/
theorem range_splits_perm_iff (settings : Settings) (session : ReadSession) (table : TableDef)
    (collation : Collation) {key : String} {keyType : IcebergType} {kind : KeyKind} {count : Nat}
    (positive : 1 ≤ count)
    (chosen : chooseStrategyKey settings table (plannedStrategy settings table) = .ok key)
    (typed : columnType table key = some keyType) (fits : kind.Fits keyType) {rows : List Row}
    (values : ∀ row ∈ rows, row key = .null ∨ ∃ number, row key = kind.value number)
    (faithful : (session table.sourceTable key).Faithful kind rows.length (keysOf kind key rows))
    (ascending : (session table.sourceTable key).Ascending) {splits : List PlannedSplit}
    (planned : planRangesForSnapshot settings session table (freshSplits table count) =
      .ok (true, splits)) {answers : Nat → List Row}
    (reads : Reads settings collation rows count
      (fun index => splits.getD index (plainSplit table count none index)) answers) :
    ((List.range count).flatMap answers).Perm rows ↔
      (∀ row ∈ rows, row key ≠ .null) ∧
        EdgesReached settings table (session table.sourceTable key) keyType kind count
          (keysOf kind key rows) := by
  obtain ⟨ranges, assigned, rfl⟩ := planned_eq_ok chosen planned
  have number : (freshSplits table count).length = count := by simp [freshSplits]
  rw [number] at assigned
  obtain ⟨intervals, rfl, length, cover⟩ :=
    plannedRanges_cover typed fits faithful ascending positive assigned
  rw [rangedSplits_perm_iff chosen typed fits length reads, ← cover]
  constructor
  · intro served
    refine ⟨fun row member null => ?_, fun number member => ?_⟩
    · obtain ⟨number, read, _⟩ := served row member
      rw [null] at read
      cases kind <;> cases read
    · obtain ⟨row, rowMember, read⟩ := List.mem_filterMap.mp member
      obtain ⟨other, same, once⟩ := served row rowMember
      obtain rfl : number = other := some.inj (read.symm.trans same)
      exact once
  · rintro ⟨present, once⟩ row member
    rcases values row member with null | ⟨number, value⟩
    · exact absurd null (present row member)
    · have read := KeyKind.read_eq_some.mpr value
      exact ⟨number, read, once number (List.mem_filterMap.mpr ⟨row, member, read⟩)⟩

/-- A moment whose double-precision tick is one too small, so that the end of the ranges
is the moment itself. -/
example : KeyKind.next (.timestamp true) 1123875334368291 = 1123875334368291 := by
  decide +kernel

/-- Settings that plan ranges. -/
def rangeSettings : Settings := { plainSettings with splitStrategy := .range }

/-- A table with an integer key that may be NULL. -/
def nullableTable : TableDef :=
  { name := "t", sourceTable := "t", numSplits := 2
    schema := [{ fieldId := 1, name := "k", icebergType := .long, textual := plain_textual }] }

theorem planned_nullableTable : ∀ rows ∈ [2, 3],
    planRangesForSnapshot rangeSettings (fun _ _ => answering .integer rows [1, 4]) nullableTable
        (freshSplits nullableTable 2) =
      .ok (true, rangedSplits nullableTable 2 "k" .integer [(1, 3), (3, 5)]) := by
  decide +kernel

theorem chosen_nullableTable : chooseStrategyKey rangeSettings nullableTable
    (plannedStrategy rangeSettings nullableTable) = .ok "k" := by
  decide +kernel

theorem typed_nullableTable : columnType nullableTable "k" = some .long := by
  decide +kernel

theorem readable_nullableTable {rows : List Row} (short : rows.length ≤ 3) :
    ∃ answers, Reads rangeSettings .nullsFirst rows 2 (fun index =>
      (rangedSplits nullableTable 2 "k" .integer [(1, 3), (3, 5)]).getD index
        (plainSplit nullableTable 2 none index)) answers := by
  have built : ∀ index < 2, (buildSplitQuery rangeSettings
      ((rangedSplits nullableTable 2 "k" .integer [(1, 3), (3, 5)]).getD index
        (plainSplit nullableTable 2 none index))).isOk = true ∧
      3 ≤ (((rangedSplits nullableTable 2 "k" .integer [(1, 3), (3, 5)]).getD index
        (plainSplit nullableTable 2 none index)).table.effectiveMaxRows rangeSettings).toNat := by
    decide +kernel
  exact exists_reads _ fun index inside =>
    ⟨(built index inside).1, short.trans (built index inside).2⟩

/-- The row without a key is in no split. -/
theorem range_splits_miss_null_key :
    ∃ splits answers, planRangesForSnapshot rangeSettings
        (fun _ _ => answering .integer 3 [1, 4]) nullableTable (freshSplits nullableTable 2) =
          .ok (true, splits) ∧
      Reads rangeSettings .nullsFirst [keyRow (.integer 1) .null, keyRow (.integer 4) .null,
        keyRow .null .null] 2 (fun index => splits.getD index (plainSplit nullableTable 2 none index))
          answers ∧
      ¬ ((List.range 2).flatMap answers).Perm [keyRow (.integer 1) .null,
        keyRow (.integer 4) .null, keyRow .null .null] := by
  obtain ⟨answers, reads⟩ := @readable_nullableTable [keyRow (.integer 1) .null,
    keyRow (.integer 4) .null, keyRow .null .null] (by decide)
  refine ⟨_, answers, planned_nullableTable 3 (by decide), reads, fun whole => ?_⟩
  have fits : KeyKind.integer.Fits .long := rfl
  have length : [((1 : Int), (3 : Int)), (3, 5)].length = 2 := rfl
  have served :=
    (rangedSplits_perm_iff chosen_nullableTable typed_nullableTable fits length reads).mp whole
  obtain ⟨number, read, _⟩ := served (keyRow .null .null) (by simp)
  exact absurd read (by simp [keyRow, KeyKind.read])

theorem range_splits_perm_integers :
    ∃ answers, Reads rangeSettings .nullsFirst [keyRow (.integer 1) .null, keyRow (.integer 4) .null]
        2 (fun index => (rangedSplits nullableTable 2 "k" .integer [(1, 3), (3, 5)]).getD index
          (plainSplit nullableTable 2 none index)) answers ∧
      ((List.range 2).flatMap answers).Perm
        [keyRow (.integer 1) .null, keyRow (.integer 4) .null] := by
  obtain ⟨answers, reads⟩ := @readable_nullableTable
    [keyRow (.integer 1) .null, keyRow (.integer 4) .null] (by decide)
  have values : ∀ row ∈ [keyRow (.integer 1) .null, keyRow (.integer 4) .null],
      ∃ number, row "k" = KeyKind.integer.value number := by
    intro row member
    rcases List.mem_cons.mp member with rfl | later
    · exact ⟨1, rfl⟩
    · obtain rfl := List.mem_singleton.mp later
      exact ⟨4, rfl⟩
  have fits : KeyKind.integer.Fits .long := rfl
  have faithful : (answering .integer 2 [1, 4]).Faithful .integer
      [keyRow (.integer 1) .null, keyRow (.integer 4) .null].length
      (keysOf .integer "k" [keyRow (.integer 1) .null, keyRow (.integer 4) .null]) :=
    answering_faithful ..
  refine ⟨answers, reads, (range_splits_perm_iff rangeSettings
    (fun _ _ => answering .integer 2 [1, 4]) nullableTable .nullsFirst (by decide)
    chosen_nullableTable typed_nullableTable fits
    (fun row member => .inr (values row member)) faithful (answering_ascending _ _ _)
    (planned_nullableTable 2 (by decide)) reads).mpr ⟨?_, ?_⟩⟩
  · intro row member null
    obtain ⟨number, value⟩ := values row member
    rw [null] at value
    cases value
  · have plain : ¬ (triesBalanced rangeSettings nullableTable .long = true ∧
        (histogramBounds rangeSettings nullableTable (answering .integer 2 [1, 4]) .long 2).isSome =
          true) := by
      decide +kernel
    rw [EdgesReached, if_neg plain]
    exact ⟨fun low _ => .inr le_rfl, fun high _ => Int.lt_succ high⟩

end ShortcutProxy.RangePartition
