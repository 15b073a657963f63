import Mathlib

/-!
# Distributing a bag over parts

Two ways to cut a bag into parts. The first one tests every item against the
condition of each part: the parts make up the bag exactly when every item passes
one of them. The second one lays the items out in an order and deals the positions
round; with one order for all parts they make up the bag, and with an order for
each part they do so only if the order is determined by the bag.

Parts of the first kind are often intervals that follow one another without a gap.
-/

namespace ShortcutProxy.Partition

open List

variable {α : Type}

/-! ## Parts given by conditions -/

/-- How often an item occurs among the parts: its own count, once for each part whose
condition it passes. -/
theorem count_flatMap_filter [DecidableEq α] (parts : List Nat) (keep : Nat → α → Bool)
    (items : List α) (item : α) :
    (parts.flatMap fun part => items.filter (keep part)).count item =
      parts.countP (fun part => keep part item) * items.count item := by
  induction parts with
  | nil => simp
  | cons part rest ih =>
    rw [flatMap_cons, count_append, ih, countP_cons]
    by_cases kept : keep part item = true
    · rw [count_filter kept, if_pos kept]
      ring
    · have dropped : (items.filter (keep part)).count item = 0 := by
        refine count_eq_zero_of_not_mem fun member => ?_
        exact kept (mem_filter.mp member).2
      rw [dropped, if_neg kept]
      ring

/-- The parts make up the bag exactly when every item passes one condition. -/
theorem flatMap_filter_perm_iff (parts : List Nat) (keep : Nat → α → Bool) (items : List α) :
    (parts.flatMap fun part => items.filter (keep part)).Perm items ↔
      ∀ item ∈ items, parts.countP (fun part => keep part item) = 1 := by
  classical
  rw [perm_iff_count]
  simp only [count_flatMap_filter]
  constructor
  · intro counts item member
    have present : 0 < items.count item := count_pos_iff.mpr member
    have same := counts item
    exact Nat.eq_of_mul_eq_mul_right present (by rw [same, Nat.one_mul])
  · intro once item
    by_cases member : item ∈ items
    · rw [once item member, Nat.one_mul]
    · rw [count_eq_zero_of_not_mem member, Nat.mul_zero]

/-! ## Parts dealt from an order -/

/-- The items at the positions that leave a remainder. -/
def dealt (parts part : Nat) (order : List α) : List α :=
  (order.zipIdx.filter fun item => item.2 % parts = part).map Prod.fst

/-- Dealt from one order, the parts make up the bag. -/
theorem flatMap_dealt_perm {parts : Nat} (positive : 0 < parts) (order : List α) :
    ((List.range parts).flatMap fun part => dealt parts part order).Perm order := by
  have once : ∀ item ∈ order.zipIdx, (List.range parts).countP
      (fun part => decide (item.2 % parts = part)) = 1 := by
    intro item _
    have bound : item.2 % parts < parts := Nat.mod_lt _ positive
    have counted := count_eq_one_of_mem nodup_range (mem_range.mpr bound)
    rw [← counted, List.count]
    refine countP_congr fun part _ => ?_
    rw [decide_eq_true_iff, beq_iff_eq, eq_comm]
  have whole := ((flatMap_filter_perm_iff (.range parts)
    (fun part item => decide (item.2 % parts = part)) order.zipIdx).mpr once).map Prod.fst
  rw [map_flatMap, zipIdx_map_fst] at whole
  exact whole

/-- Dealing depends on an earlier stretch of the order only through its length. -/
theorem dealt_append (parts part : Nat) (first second : List α) :
    dealt parts part (first ++ second) = dealt parts part first ++
      ((second.zipIdx first.length).filter fun item => item.2 % parts = part).map Prod.fst := by
  simp [dealt, zipIdx_append, filter_append]

section Ties

variable (le : α → α → Prop)

/-- An order of the bag along a relation. -/
def Ordering (items order : List α) : Prop := order.Perm items ∧ order.Pairwise le

variable {le}

/-- Where no two different items tie, there is one order. -/
theorem Ordering.unique {items first second : List α}
    (determined : ∀ left ∈ items, ∀ right ∈ items, le left right → le right left → left = right)
    (one : Ordering le items first) (two : Ordering le items second) : first = second := by
  refine List.Perm.eq_of_pairwise ?_ one.2 two.2 (one.1.trans two.1.symm)
  intro left right leftMember rightMember
  exact determined left (one.1.mem_iff.mp leftMember) right (two.1.mem_iff.mp rightMember)

/-- Where two different items tie, two orders differ only in those two. -/
theorem Ordering.exists_swapped (total : ∀ left right, le left right ∨ le right left)
    (trans : ∀ {first second third}, le first second → le second third → le first third)
    {items : List α} {left right : α} (leftMember : left ∈ items) (rightMember : right ∈ items)
    (different : left ≠ right) (forth : le left right) (back : le right left) :
    ∃ low high, Ordering le items (low ++ left :: right :: high) ∧
      Ordering le items (low ++ right :: left :: high) := by
  classical
  have others : ∃ rest, items.Perm (left :: right :: rest) := by
    have second : right ∈ items.erase left :=
      (mem_erase_of_ne different.symm).mpr rightMember
    exact ⟨(items.erase left).erase right, (perm_cons_erase leftMember).trans
      ((perm_cons_erase second).cons left)⟩
  obtain ⟨rest, whole⟩ := others
  have totality : Std.Total le := ⟨total⟩
  have transitivity : IsTrans α le := ⟨fun _ _ _ => trans⟩
  let sorted := rest.insertionSort le
  have ascending : sorted.Pairwise le := pairwise_insertionSort le rest
  let low := sorted.filter fun item => !decide (le left item)
  let high := sorted.filter fun item => decide (le left item)
  have parted : (low ++ high).Perm rest := by
    refine perm_append_comm.trans ((filter_append_perm _ sorted).trans ?_)
    exact perm_insertionSort le rest
  have lowBelow : ∀ item ∈ low, le item left := by
    intro item member
    have outside : ¬ le left item := by simpa using (mem_filter.mp member).2
    exact (total left item).resolve_left outside
  have highAbove : ∀ item ∈ high, le left item := by
    intro item member
    simpa using (mem_filter.mp member).2
  -- both orders are `low`, the two tied items, `high`
  have ordered : ∀ {one two : α}, le one two → le left one → le one left → le two left →
      le left two → (low ++ one :: two :: high).Pairwise le := by
    intro one two step above below twoBelow twoAbove
    rw [pairwise_append, pairwise_cons, pairwise_cons]
    refine ⟨ascending.filter _, ⟨?_, ?_, ascending.filter _⟩, ?_⟩
    · intro item member
      rcases mem_cons.mp member with rfl | inside
      · exact step
      · exact trans below (highAbove item inside)
    · exact fun item member => trans twoBelow (highAbove item member)
    · intro item member other inside
      rcases mem_cons.mp inside with rfl | later
      · exact trans (lowBelow item member) above
      · rcases mem_cons.mp later with rfl | last
        · exact trans (lowBelow item member) twoAbove
        · exact trans (lowBelow item member) (highAbove other last)
  have reflexive : le left left := (total left left).elim id id
  have permuted : (low ++ left :: right :: high).Perm items := by
    refine perm_middle.trans ((perm_middle.cons left).trans ?_)
    exact ((parted.cons right).cons left).trans whole.symm
  refine ⟨low, high, ⟨permuted, ordered forth reflexive reflexive back forth⟩, ?_,
    ordered back forth back reflexive reflexive⟩
  exact ((List.Perm.swap left right high).append_left low).trans permuted

/-- The part that holds the first of two adjacent items does not hold the second. -/
theorem dealt_adjacent {parts : Nat} (several : 2 ≤ parts) (low high : List α) (one two : α) :
    dealt parts (low.length % parts) (low ++ one :: two :: high) =
      dealt parts (low.length % parts) low ++ one ::
        ((high.zipIdx (low.length + 2)).filter
          fun item => item.2 % parts = low.length % parts).map Prod.fst := by
  have apart : ¬ (low.length + 1) % parts = low.length % parts := by
    intro same
    have divides := Nat.sub_mod_eq_zero_of_mod_eq same
    rw [Nat.add_sub_cancel_left, Nat.mod_eq_of_lt several] at divides
    cases divides
  rw [dealt_append, zipIdx_cons, zipIdx_cons, filter_cons_of_pos (by simp),
    filter_cons_of_neg (by simpa using apart), map_cons]

/-- Dealt from an order for each part, the parts make up the bag for all admissible
orders exactly when there is a single part or tied items are equal. -/
theorem flatMap_dealt_perm_iff (total : ∀ left right, le left right ∨ le right left)
    (trans : ∀ {first second third}, le first second → le second third → le first third)
    {parts : Nat} (positive : 0 < parts) (items : List α) :
    (∀ orders : Nat → List α, (∀ part < parts, Ordering le items (orders part)) →
        ((List.range parts).flatMap fun part => dealt parts part (orders part)).Perm items) ↔
      parts = 1 ∨ ∀ left ∈ items, ∀ right ∈ items, le left right → le right left →
        left = right := by
  constructor
  · intro always
    by_contra neither
    obtain ⟨several, undetermined⟩ := not_or.mp neither
    push Not at undetermined
    obtain ⟨left, leftMember, right, rightMember, forth, back, different⟩ := undetermined
    obtain ⟨low, high, one, two⟩ :=
      Ordering.exists_swapped total trans leftMember rightMember different forth back
    have atLeastTwo : 2 ≤ parts := by omega
    let chosen := low.length % parts
    have inside : chosen ∈ List.range parts := mem_range.mpr (Nat.mod_lt _ positive)
    let orders := fun part => if part = chosen then low ++ left :: right :: high
      else low ++ right :: left :: high
    have mixed := always orders fun part _ => by
      by_cases same : part = chosen
      · simpa only [orders, if_pos same] using one
      · simpa only [orders, if_neg same] using two
    have constant := (flatMap_dealt_perm positive (low ++ right :: left :: high)).trans two.1
    -- the two distributions differ in the chosen part only, and there by one item
    classical
    have front := perm_cons_erase inside
    have rest : ((List.range parts).erase chosen).flatMap
        (fun part => dealt parts part (orders part)) =
          ((List.range parts).erase chosen).flatMap
            (fun part => dealt parts part (low ++ right :: left :: high)) := by
      refine flatMap_congr fun part member => ?_
      have other : part ≠ chosen := (nodup_range.mem_erase_iff.mp member).1
      simp only [orders, if_neg other]
    have counts := ((front.flatMap_right _).symm.trans (mixed.trans constant.symm)).trans
      (front.flatMap_right _)
    have equal := counts.count_eq right
    rw [flatMap_cons, flatMap_cons, rest, count_append, count_append] at equal
    simp only [orders, if_true, chosen, dealt_adjacent atLeastTwo, count_append,
      count_cons, beq_self_eq_true, beq_iff_eq, different, if_false] at equal
    omega
  · rintro (single | determined) orders ordered
    · subst single
      exact (flatMap_dealt_perm Nat.one_pos (orders 0)).trans (ordered 0 Nat.one_pos).1
    · have same : (List.range parts).flatMap (fun part => dealt parts part (orders part)) =
          (List.range parts).flatMap (fun part => dealt parts part (orders 0)) := by
        refine flatMap_congr fun part member => ?_
        rw [Ordering.unique determined (ordered part (mem_range.mp member))
          (ordered 0 positive)]
      rw [same]
      exact (flatMap_dealt_perm positive (orders 0)).trans (ordered 0 positive).1

end Ties

/-! ## Intervals without a gap -/

section Intervals

variable {κ : Type} [LinearOrder κ]

/-- The intervals follow one another from a start to a stop. An interval may be empty. -/
def Tiles : List (κ × κ) → κ → κ → Prop
  | [], start, stop => start = stop
  | (low, high) :: rest, start, stop => low = start ∧ low ≤ high ∧ Tiles rest high stop

theorem Tiles.start_le_stop {intervals : List (κ × κ)} {start stop : κ}
    (tiles : Tiles intervals start stop) : start ≤ stop := by
  induction intervals generalizing start with
  | nil => exact le_of_eq tiles
  | cons interval rest ih =>
    obtain ⟨rfl, ascending, later⟩ := tiles
    exact ascending.trans (ih later)

/-- A key between the ends lies in one of the intervals, and no other key in any. -/
theorem Tiles.countP_eq {intervals : List (κ × κ)} {start stop : κ}
    (tiles : Tiles intervals start stop) (key : κ) :
    intervals.countP (fun interval => interval.1 ≤ key ∧ key < interval.2) =
      if start ≤ key ∧ key < stop then 1 else 0 := by
  induction intervals generalizing start with
  | nil =>
    obtain rfl : start = stop := tiles
    have empty : ¬ (start ≤ key ∧ key < start) := fun both => absurd both.1 (not_le.mpr both.2)
    simp [empty]
  | cons interval rest ih =>
    obtain ⟨low, high⟩ := interval
    obtain ⟨rfl, ascending, later⟩ := tiles
    have bounded := later.start_le_stop
    rw [countP_cons, ih later]
    by_cases reached : low ≤ key
    · by_cases first : key < high
      · have inside : key < stop := lt_of_lt_of_le first bounded
        have notLater : ¬ high ≤ key := not_le.mpr first
        simp [reached, first, inside, notLater]
      · have passed : high ≤ key := not_lt.mp first
        simp [reached, first, passed]
    · have before : ¬ high ≤ key := fun passed => reached (ascending.trans passed)
      simp [reached, before]

theorem Tiles.append {first second : List (κ × κ)} {start middle stop : κ}
    (one : Tiles first start middle) (two : Tiles second middle stop) :
    Tiles (first ++ second) start stop := by
  induction first generalizing start with
  | nil =>
    obtain rfl : start = middle := one
    exact two
  | cons interval rest ih =>
    obtain ⟨rfl, ascending, later⟩ := one
    exact ⟨rfl, ascending, ih later⟩

/-- Empty intervals may follow at the end. -/
theorem tiles_replicate (count : Nat) (stop : κ) :
    Tiles (.replicate count (stop, stop)) stop stop := by
  induction count with
  | zero => exact rfl
  | succ count ih => exact ⟨rfl, le_rfl, ih⟩

/-- Consecutive values of a monotone function bound such intervals. -/
theorem tiles_of_monotone {bound : Nat → κ} (ascending : Monotone bound) (count : Nat) :
    Tiles ((List.range count).map fun index => (bound index, bound (index + 1)))
      (bound 0) (bound count) := by
  induction count with
  | zero => exact rfl
  | succ count ih =>
    rw [range_succ, map_append]
    exact ih.append ⟨rfl, ascending (Nat.le_succ count), rfl⟩

end Intervals

/-! ## Buckets of equal count -/

section Buckets

/-- A list cut into a number of pieces whose lengths differ by at most one, the longer
ones first. -/
def pieces : Nat → List α → List (List α)
  | 0, _ => []
  | count + 1, items =>
    let size := (items.length + count) / (count + 1)
    items.take size :: pieces count (items.drop size)

/-- The buckets of `NTILE(count)` over a list in order. A bucket without rows has no
number in the answer of a grouping query. -/
def ntile (count : Nat) (items : List α) : List (List α) :=
  (pieces count items).filter (· ≠ [])

theorem flatten_pieces {count : Nat} (positive : 0 < count) (items : List α) :
    (pieces count items).flatten = items := by
  induction count generalizing items with
  | zero => exact absurd positive (Nat.lt_irrefl 0)
  | succ count ih =>
    rw [pieces, flatten_cons]
    rcases Nat.eq_zero_or_pos count with rfl | more
    · simp [pieces]
    · rw [ih more, take_append_drop]

theorem length_pieces (count : Nat) (items : List α) : (pieces count items).length = count := by
  induction count generalizing items with
  | zero => rfl
  | succ count ih => rw [pieces, length_cons, ih]

theorem ne_nil_of_mem_ntile {count : Nat} {items bucket : List α}
    (member : bucket ∈ ntile count items) : bucket ≠ [] := by
  simpa using (mem_filter.mp member).2

theorem ntile_nil (count : Nat) : ntile count ([] : List α) = [] := by
  refine eq_nil_iff_forall_not_mem.mpr fun bucket member => ?_
  induction count with
  | zero => exact not_mem_nil member
  | succ count ih =>
    simp only [ntile, pieces, take_nil, drop_nil, ne_eq, not_true_eq_false,
      decide_false, Bool.false_eq_true, not_false_eq_true, filter_cons_of_neg] at member
    exact ih member

/-- The buckets make up the list, in its order. -/
theorem flatten_ntile {count : Nat} (positive : 0 < count) (items : List α) :
    (ntile count items).flatten = items := by
  rw [ntile, flatten_filter_ne_nil, flatten_pieces positive]

theorem length_ntile_le (count : Nat) (items : List α) : (ntile count items).length ≤ count :=
  (length_filter_le _ _).trans_eq (length_pieces count items)

example : ntile 3 [1, 2, 3, 4, 5] = [[1, 2], [3, 4], [5]] ∧ ntile 3 [1, 2] = [[1], [2]] := by
  decide

/-- The first items of pieces of a list are in the order of the list. -/
theorem filterMap_head?_sublist (groups : List (List α)) :
    List.Sublist (groups.filterMap List.head?) groups.flatten := by
  induction groups with
  | nil => exact .refl _
  | cons group rest ih =>
    cases group with
    | nil => exact ih
    | cons first others =>
      simp only [filterMap_cons, head?_cons, flatten_cons, cons_append]
      exact (ih.trans (sublist_append_right _ _)).cons_cons first

end Buckets

end ShortcutProxy.Partition
