import Mathlib.Algebra.Order.Field.Basic
import Mathlib.Analysis.Convex.Basic
import Mathlib.Tactic.FieldSimp
import Mathlib.Tactic.Linarith

/-! A reservoir beside a flow: in each step it keeps a share of what it holds and takes a share
of what is given, and the rest of both is delivered. -/
namespace FomeFw

/-- The share that is kept and the share that is taken. It never takes more than it keeps. -/
structure Reservoir (K : Type*) [Field K] [LinearOrder K] where
  kept : K
  taken : K
  taken_nonneg : 0 ≤ taken
  taken_le_kept : taken ≤ kept
  kept_lt_one : kept < 1

namespace Reservoir

variable {K : Type*} [Field K] [LinearOrder K] (r : Reservoir K) {held given wanted : K}

/-- What it holds after a step. -/
def next (held given : K) : K := r.kept * held + r.taken * given

def delivered (held given : K) : K := (1 - r.taken) * given + (1 - r.kept) * held

/-- What has to be given for a delivery. -/
def request (held wanted : K) : K := (wanted - (1 - r.kept) * held) / (1 - r.taken)

/-- Where it would come to rest under one delivery after the other. -/
def level (wanted : K) : K := r.taken * wanted / (1 - r.kept)

/-- What is given for a delivery where nothing can be taken back. -/
def supply (held wanted : K) : K := if r.request held wanted ≤ 0 then 0 else r.request held wanted

theorem kept_nonneg : 0 ≤ r.kept := r.taken_nonneg.trans r.taken_le_kept

theorem next_add_delivered : r.next held given + r.delivered held given = held + given := by
  simp only [next, delivered]
  ring

theorem supply_nonneg : 0 ≤ r.supply held wanted := by
  rw [supply]
  split
  · exact le_rfl
  · next positive => exact (not_le.mp positive).le

variable [IsStrictOrderedRing K]

theorem one_sub_kept_pos : 0 < 1 - r.kept := sub_pos.mpr r.kept_lt_one

theorem one_sub_taken_pos : 0 < 1 - r.taken :=
  sub_pos.mpr (r.taken_le_kept.trans_lt r.kept_lt_one)

theorem next_nonneg (holds : 0 ≤ held) (gives : 0 ≤ given) : 0 ≤ r.next held given :=
  add_nonneg (mul_nonneg r.kept_nonneg holds) (mul_nonneg r.taken_nonneg gives)

theorem delivered_request : r.delivered held (r.request held wanted) = wanted := by
  have positive := r.one_sub_taken_pos.ne'
  simp only [delivered, request]
  field_simp
  ring

/-- Nothing has to be given just when what comes back is enough. -/
theorem request_nonpos_iff : r.request held wanted ≤ 0 ↔ wanted ≤ r.delivered held 0 := by
  rw [request, div_le_iff₀ r.one_sub_taken_pos, zero_mul, sub_nonpos, delivered, mul_zero, zero_add]

theorem next_zero_le (holds : 0 ≤ held) : r.next held 0 ≤ held := by
  have share := mul_le_of_le_one_left holds r.kept_lt_one.le
  simpa only [next, mul_zero, add_zero] using share

/-- The answer to a request is a weighted mean of what was held and the level. -/
theorem next_request :
    r.next held (r.request held wanted) =
      ((r.kept - r.taken) / (1 - r.taken)) • held + ((1 - r.kept) / (1 - r.taken)) • r.level wanted := by
  have positive := r.one_sub_taken_pos.ne'
  have positive' := r.one_sub_kept_pos.ne'
  simp only [next, request, level, smul_eq_mul]
  field_simp
  ring

theorem next_request_le_max : r.next held (r.request held wanted) ≤ max held (r.level wanted) := by
  rw [next_request]
  apply Convex.combo_le_max
  · exact div_nonneg (sub_nonneg.mpr r.taken_le_kept) r.one_sub_taken_pos.le
  · exact div_nonneg r.one_sub_kept_pos.le r.one_sub_taken_pos.le
  · have positive := r.one_sub_taken_pos.ne'
    field_simp
    ring

theorem le_delivered_supply : wanted ≤ r.delivered held (r.supply held wanted) := by
  rw [supply]
  split
  · next nonpos => exact r.request_nonpos_iff.mp nonpos
  · exact r.delivered_request.ge

theorem delivered_supply_eq (asks : 0 ≤ r.request held wanted) :
    r.delivered held (r.supply held wanted) = wanted := by
  rw [supply]
  split
  · next nonpos =>
    rw [← le_antisymm nonpos asks]
    exact r.delivered_request
  · exact r.delivered_request

theorem next_supply_le_max (holds : 0 ≤ held) :
    r.next held (r.supply held wanted) ≤ max held (r.level wanted) := by
  rw [supply]
  split
  · exact (r.next_zero_le holds).trans (le_max_left _ _)
  · exact r.next_request_le_max

end Reservoir

end FomeFw
