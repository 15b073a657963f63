import ShortcutProxy.KeyRanges

/-!
# What the source says about a key column

The queries of `db/executor.py` that planning runs on a key column: its bounds, the
minima of equal-count buckets, and the optimizer's histogram. The replies of the
database are given, and every query may fail; what the functions make of the replies
is the source's.

Row counts of a histogram step are added and compared in double precision.
-/

namespace ShortcutProxy.KeyStatistics

open Binary64 Fallible KeyRanges TableConfig List Partition

/-- What a database answers about one key column of one table. -/
structure KeyReplies where
  /-- `SELECT COUNT(*)`. -/
  rowCount : Except String (Option Int)
  /-- `SELECT MIN(key), MAX(key)`. -/
  columnBounds : Except String (Option Bound × Option Bound)
  /-- The minimum and the maximum of each bucket of `NTILE(n)`, over the whole column or
  over the keys that a stride divides. -/
  ntile : Int → Option Int → Except String (List (Option Bound × Option Bound))
  /-- The steps of `sys.dm_db_stats_histogram`. -/
  mssqlHistogramSteps : Except String (List (Int × ℚ))
  /-- `pg_stats.histogram_bounds`, as written. -/
  pgHistogramBounds : Except String (List Int)

/-- A session answers for every source table and key column. -/
abbrev ReadSession := String → String → KeyReplies

/-! ## Bounds -/

variable (replies : KeyReplies)

/-- `fetch_column_bounds`. -/
def fetchColumnBounds : Except String (Option (Bound × Bound)) :=
  replies.columnBounds.map fun bounds =>
    match bounds with
    | (some low, some high) => some (low, high)
    | _ => none

/-- `fetch_key_bounds`; a key that is no integer gives none. -/
def fetchKeyBounds : Except String (Option (Int × Int)) :=
  (fetchColumnBounds replies).map fun bounds =>
    match bounds with
    | some (.integer low, .integer high) => some (low, high)
    | _ => none

theorem fetchColumnBounds_of_fetchKeyBounds {replies : KeyReplies} {bounds : Int × Int}
    (fetched : fetchKeyBounds replies = .ok (some bounds)) :
    fetchColumnBounds replies = .ok (some (.integer bounds.1, .integer bounds.2)) := by
  obtain ⟨reply, columns, equation⟩ := map_eq_ok.mp fetched
  split at equation
  · rw [columns, ← Option.some.inj equation]
  · cases equation

/-! ## Equal-count buckets -/

/-- The stride of the sample: the smallest one that keeps it within `sampleRows`. -/
def sampleStride (sampleRows : Int) : Option Int → Option Int
  | some total =>
    if sampleRows < total ∧ 2 ≤ (total + sampleRows - 1) / sampleRows then
      some ((total + sampleRows - 1) / sampleRows)
    else none
  | none => none

/-- The stride that the bucket query uses; the whole column unless sampling is on, the
key is an integer and the table is larger than the sample. -/
def quantileStride (sampleRows : Int) (keyIsInteger : Bool) :
    Except String (Option Int) :=
  if 0 < sampleRows ∧ keyIsInteger = true then
    replies.rowCount.map (sampleStride sampleRows)
  else .ok none

/-- The bucket minima and the overall maximum. A sample can miss the ends of the column,
so they are replaced by the bounds of the whole column. -/
def anchoredBounds (stride : Option Int) (mins : List (Option Bound)) (high : Option Bound) :
    Except String (List (Option Bound) × Option Bound) :=
  match stride with
  | none => .ok (mins, high)
  | some _ => (fetchColumnBounds replies).map fun bounds =>
    match bounds with
    | some (trueMin, trueMax) => (some trueMin :: mins.tail, some trueMax)
    | none => (mins, high)

/-- `fetch_key_quantile_bounds`. -/
def fetchKeyQuantileBounds (count sampleRows : Int)
    (keyIsInteger : Bool) : Except String (Option (List Bound × Bound)) :=
  if count < 1 then .ok none
  else do
    let stride ← quantileStride replies sampleRows keyIsInteger
    let rows ← replies.ntile count stride
    match rows.getLast? with
    | none => return none
    | some last =>
      let (mins, high) ← anchoredBounds replies stride (rows.map Prod.fst) last.2
      return (do
        let low ← mins.mapM id
        let top ← high
        return (low, top))

/-! ## Histograms -/

/-- `(k * total) / n` in double precision. -/
def quantileRows (total : ℚ) (count index : Nat) : ℚ :=
  binary64 (binary64 (index * total) / count)

/-- The inner loop: pick the high key of the step for every quantile that the rows below
it have reached. The next quantile is the number of minima picked so far. -/
def pickHigh (total below : ℚ) (count : Nat) (high : Int) : Nat → List Int → List Int
  | 0, mins => mins
  | fuel + 1, mins =>
    if mins.length < count ∧ quantileRows total count mins.length ≤ below then
      pickHigh total below count high fuel (mins ++ [high])
    else mins

/-- The outer loop over the steps, with the rows strictly below the current one. -/
def pickMins (total : ℚ) (count : Nat) : List (Int × ℚ) → ℚ → List Int → List Int
  | [], _, mins => mins
  | (high, rows) :: rest, below, mins =>
    pickMins total count rest (binary64 (below + max 0 rows))
      (pickHigh total below count high count mins)

/-- `mins_from_histogram_steps`. -/
def minsFromHistogramSteps (steps : List (Int × ℚ)) (count : Int) : Option (List Int) :=
  match steps with
  | [] => none
  | first :: rest =>
    let total := binary64 ((first :: rest).map fun step => max 0 step.2).sum
    if count < 1 ∨ total ≤ 0 then none
    else
      let mins := pickMins total count.toNat (first :: rest) 0 [first.1]
      let last := ((first :: rest).getLast (List.cons_ne_nil _ _)).1
      some ((mins ++ .replicate (count.toNat - mins.length) last).take count.toNat)

/-- `mins_from_equidepth`. -/
def minsFromEquidepth (bounds : List Int) (count : Int) : Option (List Int) :=
  if count < 1 ∨ bounds.length < 2 then none
  else some ((List.range count.toNat).map fun index =>
    bounds.getD (index * (bounds.length - 1) / count.toNat) 0)

/-- `int(float(x))` of a written integer. -/
def intOfFloat (number : Int) : Int := truncated (binary64 number)

/-- `fetch_key_histogram_bounds`. A failed query gives none. -/
def fetchKeyHistogramBounds (flavor : Flavor) (replies : KeyReplies) (count : Int) :
    Option (List Int × Int) :=
  match flavor with
  | .mssql => do
    let steps ← replies.mssqlHistogramSteps.toOption
    let mins ← minsFromHistogramSteps steps count
    let last ← steps.getLast?
    return (mins, last.1)
  | .postgresql => do
    let written ← replies.pgHistogramBounds.toOption
    let bounds := written.map intOfFloat
    let mins ← minsFromEquidepth bounds count
    let last ← bounds.getLast?
    return (mins, last)
  | _ => none

/-! ## Replies that agree with the keys -/

/-- The keys that the bucket query sees, in order. -/
def sampledKeys (keys : List Int) (stride : Option Int) : List Int :=
  (match stride with
    | none => keys
    | some stride => keys.filter fun key => |key| % stride = 0).mergeSort

/-- What a database without changes answers, as far as it answers: `keys` are the keys of
the column that are not NULL, of one kind, and `rows` counts the rows of the table. The
rows of a bucket come in order, so its minimum and maximum are its ends. -/
structure KeyReplies.Faithful (kind : KeyKind) (rows : Nat) (keys : List Int) : Prop where
  rowCount : ∀ {total}, replies.rowCount = .ok total → total = some (rows : Int)
  columnBounds : ∀ {bounds}, replies.columnBounds = .ok bounds →
    bounds = (keys.min?.map kind.bound, keys.max?.map kind.bound)
  ntile : ∀ {count stride buckets}, replies.ntile count stride = .ok buckets →
    buckets = (Partition.ntile count.toNat (sampledKeys keys stride)).map fun bucket =>
      (bucket.head?.map kind.bound, bucket.getLast?.map kind.bound)

/-- A database that answers every query on a column and has no histogram. -/
def answering (kind : KeyKind) (rows : Nat) (keys : List Int) : KeyReplies where
  rowCount := .ok (some rows)
  columnBounds := .ok (keys.min?.map kind.bound, keys.max?.map kind.bound)
  ntile count stride := .ok
    ((Partition.ntile count.toNat (sampledKeys keys stride)).map fun bucket =>
      (bucket.head?.map kind.bound, bucket.getLast?.map kind.bound))
  mssqlHistogramSteps := .ok []
  pgHistogramBounds := .ok []

theorem answering_faithful (kind : KeyKind) (rows : Nat) (keys : List Int) :
    (answering kind rows keys).Faithful kind rows keys where
  rowCount answered := (Except.ok.inj answered).symm
  columnBounds answered := (Except.ok.inj answered).symm
  ntile answered := (Except.ok.inj answered).symm

variable {stride : Option Int} {count : Int} {mins : List Int}

theorem mem_of_mem_sampledKeys {keys : List Int} {key : Int}
    (member : key ∈ sampledKeys keys stride) : key ∈ keys := by
  unfold sampledKeys at member
  rw [mem_mergeSort] at member
  cases stride with
  | none => exact member
  | some stride => exact (mem_filter.mp member).1

/-- Bucket minima that ranges can start from: ascending, at most as many as asked for,
and not above the overall maximum. -/
structure Minima (count : Nat) (first : Int) (rest : List Int) (high : Int) : Prop where
  ascending : (first :: rest).Pairwise (· ≤ ·)
  bounded : ∀ key ∈ first :: rest, key ≤ high
  few : (first :: rest).length ≤ count

/-- Minima and an overall maximum whose ends are those of the keys. -/
structure Quantiles (keys : List Int) (count : Nat) (first : Int) (rest : List Int)
    (high : Int) : Prop extends Minima count first rest high where
  least : ∀ key ∈ keys, first ≤ key
  greatest : ∀ key ∈ keys, key ≤ high
  present : first ∈ keys ∧ high ∈ keys

section Quantiles

variable {replies : KeyReplies} {kind : KeyKind} {rows : Nat} {keys : List Int}

theorem map_head?_eq {buckets : List (List Int)} (filled : ∀ bucket ∈ buckets, bucket ≠ [])
    (reading : Int → Bound) :
    (buckets.map fun bucket => bucket.head?.map reading) =
      (buckets.filterMap List.head?).map fun key => some (reading key) := by
  induction buckets with
  | nil => rfl
  | cons bucket others ih =>
    cases bucket with
    | nil => exact absurd rfl (filled [] (mem_cons_self ..))
    | cons first rest =>
      have later := ih fun bucket member =>
        filled bucket (mem_cons_of_mem _ member)
      simp only [map_cons, later, head?_cons, Option.map_some, filterMap_cons]

theorem getLast?_flatten_of_getLast? {buckets : List (List Int)} {last : List Int}
    (nonempty : last ≠ []) (ends : buckets.getLast? = some last) :
    buckets.flatten.getLast? = last.getLast? := by
  obtain ⟨front, rfl⟩ : ∃ front, buckets = front ++ [last] :=
    ⟨buckets.dropLast, (dropLast_append_getLast? last ends).symm⟩
  rw [flatten_append, flatten_singleton, getLast?_append_of_ne_nil _ nonempty]

/-- The minima and the maximum of the buckets of a sample that is not empty. -/
theorem exists_bucket_ends {count : Nat} (positive : 0 < count)
    (sampled : sampledKeys keys stride ≠ []) :
    ∃ first rest last high,
      (ntile count (sampledKeys keys stride)).filterMap List.head? = first :: rest ∧
      (ntile count (sampledKeys keys stride)).getLast? = some last ∧
      last.getLast? = some high ∧ (first :: rest).length ≤ count ∧
      (first :: rest).Sublist (sampledKeys keys stride) ∧
      (sampledKeys keys stride).head? = some first ∧
      (sampledKeys keys stride).getLast? = some high := by
  have whole := flatten_ntile positive (sampledKeys keys stride)
  have filled := fun bucket =>
    @Partition.ne_nil_of_mem_ntile _ count (sampledKeys keys stride) bucket
  have few := length_ntile_le count (sampledKeys keys stride)
  generalize ntile count (sampledKeys keys stride) = buckets at whole filled few ⊢
  have heads := filterMap_head?_sublist buckets
  rw [whole] at heads
  cases buckets with
  | nil => exact absurd whole.symm sampled
  | cons bucket others =>
    cases bucket with
    | nil => exact absurd rfl (filled [] (mem_cons_self ..))
    | cons first inside =>
      obtain ⟨last, ends⟩ : ∃ last, ((first :: inside) :: others).getLast? = some last :=
        ⟨_, getLast?_eq_some_getLast (cons_ne_nil _ _)⟩
      have lastFilled : last ≠ [] := filled last (mem_of_getLast? ends)
      have sampleLast := getLast?_flatten_of_getLast? lastFilled ends
      rw [whole, getLast?_eq_some_getLast lastFilled] at sampleLast
      refine ⟨first, others.filterMap List.head?, last, last.getLast lastFilled, rfl, ends,
        getLast?_eq_some_getLast lastFilled, ?_, heads, ?_, sampleLast⟩
      · refine le_trans ?_ few
        simpa using length_filterMap_le List.head? others
      · rw [← whole]
        rfl

/-- What the bucket query returns before the ends are replaced. -/
theorem fetchKeyQuantileBounds_eq (positive : 1 ≤ count)
    (faithful : replies.Faithful kind rows keys) {sampleRows : Int} {keyIsInteger : Bool}
    (chosen : quantileStride replies sampleRows keyIsInteger = .ok stride)
    {buckets : List (Option Bound × Option Bound)}
    (answered : replies.ntile count stride = .ok buckets) {first : Int} {rest last : List Int}
    {high : Int}
    (minima : (ntile count.toNat (sampledKeys keys stride)).filterMap List.head? =
      first :: rest)
    (ends : (ntile count.toNat (sampledKeys keys stride)).getLast? = some last)
    (top : last.getLast? = some high) :
    fetchKeyQuantileBounds replies count sampleRows keyIsInteger =
      (anchoredBounds replies stride ((first :: rest).map fun key => some (kind.bound key))
        (some (kind.bound high))).map fun anchored => (do
          let low ← anchored.1.mapM id
          let top ← anchored.2
          return (low, top)) := by
  have filled := fun bucket =>
    @Partition.ne_nil_of_mem_ntile _ count.toNat (sampledKeys keys stride) bucket
  have heads : (ntile count.toNat (sampledKeys keys stride)).map
      (fun bucket => bucket.head?.map kind.bound) =
        (first :: rest).map fun key => some (kind.bound key) := by
    rw [← minima]
    exact map_head?_eq filled kind.bound
  rw [fetchKeyQuantileBounds, if_neg (by omega), chosen]
  simp only [bind, Except.bind, answered, faithful.ntile answered, getLast?_map, ends,
    Option.map_some, top, map_map, Function.comp_def, heads]
  cases anchoredBounds replies stride ((first :: rest).map fun key => some (kind.bound key))
    (some (kind.bound high)) with
  | error | ok => rfl

theorem mapM_id_map_some (bounds : List Bound) : (bounds.map some).mapM id = some bounds := by
  rw [mapM_map]
  exact mapM_pure.trans (congrArg some (map_id bounds))

theorem fetchColumnBounds_faithful (faithful : replies.Faithful kind rows keys)
    {bounds : Option (Bound × Bound)} (fetched : fetchColumnBounds replies = .ok bounds) :
    bounds = (keys.min?.bind fun low => keys.max?.map fun high =>
      (kind.bound low, kind.bound high)) := by
  obtain ⟨reply, answered, rfl⟩ := map_eq_ok.mp fetched
  rw [faithful.columnBounds answered]
  cases keys.min? <;> cases keys.max? <;> rfl

/-- After the ends are replaced, the bounds agree with all keys. -/
theorem anchoredBounds_quantiles (faithful : replies.Faithful kind rows keys) {count : Nat}
    {first : Int} {rest : List Int} {high : Int}
    (sublist : (first :: rest).Sublist (sampledKeys keys stride))
    (few : (first :: rest).length ≤ count) (head : (sampledKeys keys stride).head? = some first)
    (last : (sampledKeys keys stride).getLast? = some high)
    {anchored : List (Option Bound) × Option Bound}
    (computed : anchoredBounds replies stride ((first :: rest).map fun key => some (kind.bound key))
      (some (kind.bound high)) = .ok anchored) :
    ∃ low top, anchored = ((low :: rest).map fun key => some (kind.bound key), some (kind.bound top)) ∧
      Quantiles keys count low rest top := by
  have ordered : (sampledKeys keys stride).Pairwise (· ≤ ·) := pairwise_mergeSort' _ _
  have ascending := ordered.sublist sublist
  have inKeys : ∀ key ∈ first :: rest, key ∈ keys := fun key member =>
    mem_of_mem_sampledKeys (sublist.subset member)
  cases stride with
  | none =>
    have all : ∀ {key}, key ∈ keys → key ∈ sampledKeys keys none := fun member =>
      mem_mergeSort.mpr member
    have least : ∀ key ∈ sampledKeys keys none, first ≤ key := by
      intro key member
      have ends := ordered.rel_head member
      rwa [head_eq_iff_head?_eq_some _ |>.mpr head] at ends
    have greatest : ∀ key ∈ sampledKeys keys none, key ≤ high := by
      intro key member
      have ends := ordered.rel_getLast member
      rwa [getLast_eq_iff_getLast?_eq_some _ |>.mpr last] at ends
    refine ⟨first, high, (Except.ok.inj computed).symm, ⟨ascending, ?_, few⟩, ?_, ?_, ?_, ?_⟩
    · exact fun key member => greatest key (sublist.subset member)
    · exact fun key member => least key (all member)
    · exact fun key member => greatest key (all member)
    · exact inKeys first (mem_cons_self ..)
    · exact mem_of_mem_sampledKeys (mem_of_getLast? last)
  | some stride =>
    have filled : keys ≠ [] := ne_nil_of_mem (inKeys first (mem_cons_self ..))
    obtain ⟨low, lowest⟩ := Option.isSome_iff_exists.mp (isSome_min?_iff.mpr filled)
    obtain ⟨top, topmost⟩ := Option.isSome_iff_exists.mp (isSome_max?_iff.mpr filled)
    have low_spec := min?_eq_some_iff.mp lowest
    have top_spec := max?_eq_some_iff.mp topmost
    obtain ⟨bounds, fetched, equation⟩ := map_eq_ok.mp computed
    simp only [fetchColumnBounds_faithful faithful fetched, lowest, topmost, Option.bind_some,
      Option.map_some, map_cons, tail_cons] at equation
    refine ⟨low, top, equation.symm, ⟨?_, ?_, few⟩, low_spec.2, top_spec.2, low_spec.1,
      top_spec.1⟩
    · exact pairwise_cons.mpr ⟨fun key member =>
        low_spec.2 key (inKeys key (mem_cons_of_mem _ member)),
          (pairwise_cons.mp ascending).2⟩
    · intro key member
      rcases mem_cons.mp member with rfl | later
      · exact top_spec.2 key low_spec.1
      · exact top_spec.2 key (inKeys key (mem_cons_of_mem _ later))

/-- Bounds that the bucket query returns agree with the keys. -/
theorem quantiles_of_fetch (faithful : replies.Faithful kind rows keys) (positive : 1 ≤ count)
    {sampleRows : Int} {keyIsInteger : Bool} {mins : List Bound} {high : Bound}
    (fetched : fetchKeyQuantileBounds replies count sampleRows keyIsInteger =
      .ok (some (mins, high))) :
    ∃ low rest top, mins = (low :: rest).map kind.bound ∧ high = kind.bound top ∧
      Quantiles keys count.toNat low rest top := by
  have opened := fetched
  rw [fetchKeyQuantileBounds, if_neg (by omega)] at opened
  obtain ⟨stride, chosen, opened⟩ := bind_eq_ok.mp opened
  obtain ⟨buckets, answered, opened⟩ := bind_eq_ok.mp opened
  have sampled : sampledKeys keys stride ≠ [] := by
    intro empty
    rw [faithful.ntile answered, empty, ntile_nil] at opened
    cases opened
  have parts : 0 < count.toNat := by omega
  obtain ⟨first, rest, last, top, minima, ends, lastTop, few, sublist, head, tail⟩ :=
    exists_bucket_ends parts sampled
  rw [fetchKeyQuantileBounds_eq positive faithful chosen answered minima ends lastTop] at fetched
  obtain ⟨anchored, computed, equation⟩ := map_eq_ok.mp fetched
  obtain ⟨low, upmost, rfl, quantiles⟩ :=
    anchoredBounds_quantiles faithful sublist few head tail computed
  have lists : ((low :: rest).map fun key => some (kind.bound key)) =
      ((low :: rest).map kind.bound).map some := by rw [map_map]; rfl
  simp only [lists, mapM_id_map_some] at equation
  cases equation
  exact ⟨low, rest, upmost, rfl, rfl, quantiles⟩

end Quantiles

/-! ## Histograms are cut in order -/

/-- Databases report histograms in ascending order. The keys they were built from need
not be the keys of the table any more. -/
structure KeyReplies.Ascending : Prop where
  steps : ∀ {steps}, replies.mssqlHistogramSteps = .ok steps →
    (steps.map Prod.fst).Pairwise (· ≤ ·)
  bounds : ∀ {bounds}, replies.pgHistogramBounds = .ok bounds → bounds.Pairwise (· ≤ ·)

/-- The first and the last key of the reported histogram, as they are read. -/
def histogramEnds (flavor : Flavor) (replies : KeyReplies) : Option (Int × Int) := do
  let highs ← match flavor with
    | .mssql => replies.mssqlHistogramSteps.toOption.map (.map Prod.fst)
    | .postgresql => replies.pgHistogramBounds.toOption.map (List.map intOfFloat)
    | _ => none
  let first ← highs.head?
  let last ← highs.getLast?
  return (first, last)

theorem answering_ascending (kind : KeyKind) (rows : Nat) (keys : List Int) :
    (answering kind rows keys).Ascending where
  steps answered := by
    rw [← Except.ok.inj answered]
    exact List.Pairwise.nil
  bounds answered := by
    rw [← Except.ok.inj answered]
    exact .nil

theorem intOfFloat_mono : Monotone intOfFloat := fun _ _ ordered =>
  truncated_mono (binary64_mono (by exact_mod_cast ordered))

/-- The inner loop picks copies of one high key, up to the count. -/
theorem pickHigh_eq (total below : ℚ) (count : Nat) (high : Int) (fuel : Nat) (mins : List Int) :
    ∃ copies, pickHigh total below count high fuel mins = mins ++ .replicate copies high ∧
      mins.length + copies ≤ max count mins.length := by
  induction fuel generalizing mins with
  | zero => exact ⟨0, by simp [pickHigh]⟩
  | succ fuel ih =>
    rw [pickHigh]
    split
    · rename_i more
      obtain ⟨copies, picked, few⟩ := ih (mins ++ [high])
      rw [length_append, length_singleton] at few
      refine ⟨copies + 1, ?_, by omega⟩
      rw [picked, append_assoc, replicate_succ, singleton_append]
    · exact ⟨0, by simp⟩

theorem pairwise_append_replicate {items : List Int} (ordered : items.Pairwise (· ≤ ·)) {high : Int}
    (below : ∀ key ∈ items, key ≤ high) (copies : Nat) :
    (items ++ .replicate copies high).Pairwise (· ≤ ·) := by
  refine pairwise_append.mpr ⟨ordered, pairwise_replicate.mpr (.inr le_rfl), ?_⟩
  intro key member copy copied
  rw [eq_of_mem_replicate copied]
  exact below key member

/-- What the loop over the steps keeps: the minima stay ascending, none passes the last
step, and the ones picked before stay in front. -/
theorem pickMins_spec (total : ℚ) (count : Nat) {last : Int} {steps : List (Int × ℚ)}
    (ordered : (steps.map Prod.fst).Pairwise (· ≤ ·)) (bounded : ∀ step ∈ steps, step.1 ≤ last)
    (below : ℚ) (ascending : mins.Pairwise (· ≤ ·)) (reached : ∀ key ∈ mins, key ≤ last)
    (passed : ∀ key ∈ mins, ∀ step ∈ steps, key ≤ step.1) :
    ∃ picked, pickMins total count steps below mins = mins ++ picked ∧
      (mins ++ picked).Pairwise (· ≤ ·) ∧ (∀ key ∈ mins ++ picked, key ≤ last) ∧
      (mins ++ picked).length ≤ max count mins.length := by
  induction steps generalizing below mins with
  | nil => exact ⟨[], by simpa [pickMins] using ⟨ascending, reached⟩⟩
  | cons step rest ih =>
    obtain ⟨high, rows⟩ := step
    obtain ⟨copies, copied, few⟩ := pickHigh_eq total below count high count mins
    rw [map_cons, pairwise_cons] at ordered
    have highs : ∀ {key}, key ∈ List.replicate copies high → key = high := fun member =>
      eq_of_mem_replicate member
    have extended : (mins ++ .replicate copies high).Pairwise (· ≤ ·) :=
      pairwise_append_replicate ascending
        (fun key member => passed key member (high, rows) (mem_cons_self ..)) copies
    have under : ∀ key ∈ mins ++ .replicate copies high, key ≤ last :=
      forall_mem_append.mpr ⟨reached, fun key new =>
        (highs new).trans_le (bounded (high, rows) (mem_cons_self ..))⟩
    have later : ∀ key ∈ mins ++ List.replicate copies high, ∀ step ∈ rest, key ≤ step.1 := by
      refine forall_mem_append.mpr ⟨fun key old step member => ?_, fun key new step member => ?_⟩
      · exact passed key old step (mem_cons_of_mem _ member)
      · exact (highs new).trans_le (ordered.1 step.1 (mem_map.mpr ⟨step, member, rfl⟩))
    obtain ⟨picked, result, sorted, limited, length⟩ := ih ordered.2
      (fun step member => bounded step (mem_cons_of_mem _ member))
      (Binary64.binary64 (below + max 0 rows)) extended under later
    refine ⟨List.replicate copies high ++ picked, ?_⟩
    rw [pickMins, copied, result, ← append_assoc]
    refine ⟨rfl, sorted, limited, ?_⟩
    have grown : (mins ++ List.replicate copies high).length = mins.length + copies := by simp
    omega

theorem minima_of_steps {steps : List (Int × ℚ)} (ordered : (steps.map Prod.fst).Pairwise (· ≤ ·))
    (computed : minsFromHistogramSteps steps count = some mins) :
    ∃ first rest last, mins = first :: rest ∧ Minima count.toNat first rest last ∧
      (steps.map Prod.fst).head? = some first ∧ (steps.map Prod.fst).getLast? = some last := by
  cases steps with
  | nil => cases computed
  | cons first others =>
    unfold minsFromHistogramSteps at computed
    dsimp only at computed
    split at computed
    · cases computed
    · rename_i usable
      have positive : 1 ≤ count.toNat := by
        have : ¬ count < 1 := fun less => usable (.inl less)
        omega
      set last := ((first :: others).getLast (cons_ne_nil _ _)).1 with lastEq
      have bounded : ∀ step ∈ first :: others, step.1 ≤ last := by
        intro step member
        have ends := ordered.rel_getLast (mem_map.mpr ⟨step, member, rfl⟩)
        rwa [getLast_map] at ends
      have reached : ∀ key ∈ [first.1], key ≤ last := by
        simpa using bounded first (mem_cons_self ..)
      have passed : ∀ key ∈ [first.1], ∀ step ∈ first :: others, key ≤ step.1 := by
        intro key member step stepMember
        rw [mem_singleton.mp member]
        exact ordered.rel_head (mem_map.mpr ⟨step, stepMember, rfl⟩)
      obtain ⟨picked, result, sorted, limited, length⟩ := pickMins_spec
        (binary64 ((first :: others).map fun step => max 0 step.2).sum) count.toNat ordered
        bounded 0 (pairwise_singleton _ _) reached passed
      rw [result] at computed
      have padded : [first.1] ++ picked ++
          .replicate (count.toNat - ([first.1] ++ picked).length) last = mins := by
        rw [← Option.some.inj computed, take_of_length_le]
        rw [length_append, length_replicate]
        simp only [length_singleton] at length
        omega
      refine ⟨first.1, picked ++ List.replicate
        (count.toNat - ([first.1] ++ picked).length) last, last, ?_, ⟨?_, ?_, ?_⟩, rfl, ?_⟩
      · rw [← padded]
        rfl
      · rw [← singleton_append, ← append_assoc]
        exact pairwise_append_replicate sorted limited _
      · rw [← singleton_append, ← append_assoc]
        exact forall_mem_append.mpr ⟨limited, fun key new => (eq_of_mem_replicate new).le⟩
      · rw [length_cons, length_append, length_replicate]
        simp only [length_append, length_singleton] at length ⊢
        omega
      · rw [getLast?_map, getLast?_eq_some_getLast (cons_ne_nil _ _)]
        rfl

theorem minima_of_equidepth {bounds : List Int} (ordered : bounds.Pairwise (· ≤ ·))
    (computed : minsFromEquidepth bounds count = some mins) :
    ∃ first rest last, mins = first :: rest ∧ Minima count.toNat first rest last ∧
      bounds.head? = some first ∧ bounds.getLast? = some last := by
  unfold minsFromEquidepth at computed
  split at computed
  · cases computed
  · rename_i usable
    obtain ⟨parts, partsEq⟩ : ∃ parts, count.toNat = parts + 1 := ⟨count.toNat - 1, by omega⟩
    have filled : bounds ≠ [] := by
      rintro rfl
      exact usable (.inr (by decide))
    have position : ∀ index ≤ parts,
        index * (bounds.length - 1) / (parts + 1) < bounds.length := by
      intro index small
      have scaled : index * (bounds.length - 1) ≤ (parts + 1) * (bounds.length - 1) :=
        Nat.mul_le_mul_right _ (by omega)
      have quotient := Nat.div_le_of_le_mul scaled
      omega
    have monotone : ∀ {left right : Nat}, left ≤ right → right < bounds.length →
        bounds.getD left 0 ≤ bounds.getD right 0 := by
      intro left right below inside
      rw [getD_eq_getElem _ _ (below.trans_lt inside), getD_eq_getElem _ _ inside]
      rcases below.lt_or_eq with apart | rfl
      · exact pairwise_iff_getElem.mp ordered left right _ inside apart
      · exact le_rfl
    have last_eq : bounds.getLast filled = bounds.getD (bounds.length - 1) 0 := by
      rw [getLast_eq_getElem, getD_eq_getElem]
    rw [partsEq] at computed
    obtain rfl := Option.some.inj computed
    let pick := fun index => bounds.getD (index * (bounds.length - 1) / (parts + 1)) 0
    have front : (List.range (parts + 1)).map pick =
        pick 0 :: (List.range parts).map fun index => pick (index + 1) := by
      rw [range_succ_eq_map, map_cons, map_map]
      rfl
    refine ⟨pick 0, (List.range parts).map fun index => pick (index + 1), bounds.getLast filled,
      front, ⟨?_, ?_, ?_⟩, ?_, ?_⟩
    · rw [← front, pairwise_map]
      refine pairwise_lt_range.imp_of_mem fun leftMember rightMember less => ?_
      have inside := position _ (Nat.lt_succ_iff.mp (mem_range.mp rightMember))
      exact monotone (Nat.div_le_div_right (Nat.mul_le_mul_right _ less.le)) inside
    · rw [← front]
      intro key member
      obtain ⟨index, indexMember, rfl⟩ := mem_map.mp member
      have inside := position index (Nat.lt_succ_iff.mp (mem_range.mp indexMember))
      rw [last_eq]
      exact monotone (by omega) (by omega)
    · rw [length_cons, length_map, length_range, partsEq]
    · obtain ⟨first, others, rfl⟩ := exists_cons_of_ne_nil filled
      simp [pick]
    · exact getLast?_eq_some_getLast filled

/-- The bounds from a histogram start at its first key and end at its last one. -/
theorem minima_of_histogram {replies : KeyReplies} (ascending : replies.Ascending) {flavor : Flavor}
    {high : Int} (fetched : fetchKeyHistogramBounds flavor replies count = some (mins, high)) :
    ∃ first rest, mins = first :: rest ∧ Minima count.toNat first rest high ∧
      histogramEnds flavor replies = some (first, high) := by
  unfold fetchKeyHistogramBounds at fetched
  split at fetched
  · simp only [Option.bind_eq_bind, Option.bind_eq_some_iff, Option.pure_def,
      Option.some.injEq, Prod.mk.injEq] at fetched
    obtain ⟨steps, answered, picked, computed, last, ends, rfl, rfl⟩ := fetched
    have reported := toOption_eq_some.mp answered
    obtain ⟨first, rest, top, shape, minima, head, tail⟩ :=
      minima_of_steps (ascending.steps reported) computed
    rw [getLast?_map, ends] at tail
    obtain rfl : last.1 = top := Option.some.inj tail
    refine ⟨first, rest, shape, minima, ?_⟩
    simp [histogramEnds, reported, Except.toOption, head, getLast?_map, ends]
  · simp only [Option.bind_eq_bind, Option.bind_eq_some_iff, Option.pure_def,
      Option.some.injEq, Prod.mk.injEq] at fetched
    obtain ⟨written, answered, picked, computed, last, ends, rfl, rfl⟩ := fetched
    have reported := toOption_eq_some.mp answered
    have ordered : (written.map intOfFloat).Pairwise (· ≤ ·) :=
      pairwise_map.mpr ((ascending.bounds reported).imp fun less => intOfFloat_mono less)
    obtain ⟨first, rest, top, shape, minima, head, tail⟩ := minima_of_equidepth ordered computed
    rw [ends] at tail
    obtain rfl : last = top := Option.some.inj tail
    refine ⟨first, rest, shape, minima, ?_⟩
    simp only [histogramEnds, reported, Except.toOption, Option.map_some, Option.bind_eq_bind,
      Option.bind_some, head, ends, Option.pure_def]
  · cases fetched

end ShortcutProxy.KeyStatistics
