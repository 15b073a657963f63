import ShortcutProxy.KeyRanges

/-!
# Key ranges in fixed-width arithmetic

The C++ planner computes the boundaries of `compute_key_ranges` in `int64_t` and counts the
splits in an `int`. A signed result that does not fit has no defined value, so it ends the
computation here. The ranges are those of the Python planner exactly when the span times the
number of splits, the end after the largest key and the number of boundaries fit.
-/

namespace ShortcutProxy.NativeRanges

open Fallible KeyRanges

/-- A signed operation has overflowed. -/
structure Overflow

/-- The result of a signed operation in so many bits. -/
def signed (width : Nat) (value : Int) : Except Overflow Int :=
  if -2 ^ (width - 1) ≤ value ∧ value < 2 ^ (width - 1) then .ok value else .error {}

/-- `bounds[i]` as the loop computes it. -/
def bound (low span : Int) (parts index : Nat) : Except Overflow Int := do
  let product ← signed 64 (span * index)
  signed 64 (low + product.tdiv parts)

/-- `compute_key_ranges` of the C++ planner. -/
def computeNativeRanges (low high count : Int) : Except Overflow (List (Int × Int)) := do
  let parts := (max 1 count).toNat
  if high < low then
    let next ← signed 64 (low + 1)
    return (low, next) :: List.replicate (parts - 1) (next, next)
  let difference ← signed 64 (high - low)
  let span ← signed 64 (difference + 1)
  let _ ← signed 32 (parts + 1)
  let computed ← (List.range (parts + 1)).mapM (bound low span parts)
  let last ← signed 64 (high + 1)
  let bounds := (computed.set 0 low).set parts last
  return (List.range parts).map fun index => (bounds.getD index 0, bounds.getD (index + 1) 0)

theorem signed_eq_ok {width : Nat} {value result : Int} :
    signed width value = .ok result ↔
      value = result ∧ -2 ^ (width - 1) ≤ value ∧ value < 2 ^ (width - 1) := by
  unfold signed
  split <;> simp [*]

section

variable {low high : Int} {count : Nat} (ordered : low ≤ high) (least : -2 ^ 63 ≤ low)
  (positive : 0 < count)

include ordered least positive

theorem bound_eq (fits : (high - low + 1) * count < 2 ^ 63) (ends : high + 1 < 2 ^ 63)
    {index : Nat} (inside : index ≤ count) :
    bound low (high - low + 1) count index = .ok (keyBoundary low high count index) := by
  have scaled : (high - low + 1) * (index : Int) ≤ (high - low + 1) * count :=
    mul_le_mul_of_nonneg_left (by exact_mod_cast inside) (by omega)
  have product : 0 ≤ (high - low + 1) * (index : Int) := mul_nonneg (by omega) (by omega)
  have first := keyBoundary_mono ordered positive (Nat.zero_le index)
  have last := keyBoundary_mono ordered positive inside
  rw [(keyBoundary_ends positive low high).1] at first
  rw [(keyBoundary_ends positive low high).2] at last
  rw [keyBoundary_eq positive] at *
  refine bind_eq_ok.mpr ⟨_, signed_eq_ok.mpr ⟨rfl, ?_⟩, signed_eq_ok.mpr ?_⟩
  · omega
  · rw [Int.tdiv_eq_ediv_of_nonneg product]
    omega

/-- The native ranges are the planner's exactly when no signed operation overflows. -/
theorem computeNativeRanges_iff :
    computeNativeRanges low high count = .ok (computeKeyRanges low high count) ↔
      (high - low + 1) * count < 2 ^ 63 ∧ high + 1 < 2 ^ 63 ∧ (count : Int) + 1 < 2 ^ 31 := by
  have parts : (max 1 (count : Int)).toNat = count := by omega
  rw [computeNativeRanges, parts, if_neg (by omega)]
  simp only [bind_eq_ok, signed_eq_ok]
  constructor
  · rintro ⟨_, ⟨rfl, -⟩, _, ⟨rfl, -⟩, _, ⟨-, -, splits⟩, _, computed, _, ⟨-, -, last⟩, -⟩
    -- the product is largest at the last boundary
    obtain ⟨_, bounded⟩ := exists_ok_of_mapM computed List.self_mem_range_succ
    obtain ⟨_, product, _⟩ := bind_eq_ok.mp bounded
    exact ⟨(signed_eq_ok.mp product).2.2, last, splits⟩
  · rintro ⟨fits, ends, splits⟩
    have span : high - low + 1 ≤ (high - low + 1) * count :=
      le_mul_of_one_le_right (by omega) (by omega)
    have computed := mapM_ok fun index (member : index ∈ List.range (count + 1)) =>
      bound_eq ordered least positive fits ends (Nat.lt_succ_iff.mp (List.mem_range.mp member))
    refine ⟨_, ⟨rfl, by omega⟩, _, ⟨rfl, by omega⟩, _, ⟨rfl, by omega⟩, _, computed, _,
      ⟨rfl, by omega⟩, ?_⟩
    have boundaries := keyBoundary_ends positive low high
    rw [computeKeyRanges_eq ordered positive]
    refine congrArg Except.ok (List.map_congr_left fun index member => ?_)
    have inside := List.mem_range.mp member
    grind

end

theorem computeNativeRanges_thousand :
    computeNativeRanges 0 999 4 = .ok (computeKeyRanges 0 999 4) :=
  (@computeNativeRanges_iff 0 999 4 (by decide) (by decide) (by decide)).mpr (by decide)

/-- Two splits of nonnegative keys up to `2 ^ 62`: the product at the last boundary overflows. -/
theorem product_overflows :
    computeNativeRanges 0 (2 ^ 62) 2 = .error {} ∧
      computeKeyRanges 0 (2 ^ 62) 2 = [(0, 2 ^ 61), (2 ^ 61, 2 ^ 62 + 1)] := by
  exact ⟨rfl, by decide⟩

end ShortcutProxy.NativeRanges
