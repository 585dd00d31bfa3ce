/-
What the log of executed addresses can show. Forgetting leaves the old slots in place, so two logs
may differ in slots into which nothing has been recorded since. No count that can be asked for, be
it fractional, negative or no number at all, brings such a slot to light: reading starts no earlier
than the first entry recorded since, and rounding never takes a position below zero.
-/

import EightBit.Proofs.Integers
import EightBit.Recent

namespace EightBit

/-! ### Rounding and signs -/

theorem twoTo_pos (exponent : Int) : 0 < twoTo exponent := by
  cases exponent with
  | ofNat exponent =>
    show 0 < twoTo (exponent : Int)
    rw [twoTo_natCast]
    exact Rat.natCast_pos.mpr (Nat.two_pow_pos exponent)
  | negSucc exponent =>
    have power : (0 : Rat) < ((2 ^ (exponent + 1) : Nat) : Rat) :=
      Rat.natCast_pos.mpr (Nat.two_pow_pos (exponent + 1))
    show 0 < mkRat 1 (1 <<< (exponent + 1))
    rw [Nat.one_shiftLeft, Rat.mkRat_eq_div, Rat.div_def]
    exact Rat.mul_pos (by decide) (Rat.inv_pos.mpr power)

/-- Rounding to an integer does not lead below an integer. -/
theorem le_roundHalfEven {bound : Int} {value : Rat} (least : bound ≤ value) :
    bound ≤ roundHalfEven value := by
  have below : bound ≤ value.floor := Rat.le_floor_iff.mpr least
  unfold roundHalfEven
  simp only
  split
  · exact below
  · split
    · omega
    · split <;> omega

namespace Number

theorem lt_zero_nearest {value : Rat} (nonneg : 0 ≤ value) :
    (nearest value).lt (.ofNat 0) = false := by
  have unit := twoTo_pos (spacingExponent value)
  have quotient : 0 ≤ value / twoTo (spacingExponent value) := by
    rw [Rat.div_def]
    exact Rat.mul_nonneg nonneg (Rat.le_of_lt (Rat.inv_pos.mpr unit))
  have rounded : 0 ≤ (roundHalfEven (value / twoTo (spacingExponent value)) : Rat) *
      twoTo (spacingExponent value) :=
    Rat.mul_nonneg (Rat.intCast_nonneg.mpr (le_roundHalfEven quotient)) (Rat.le_of_lt unit)
  unfold nearest
  simp only
  split
  · exact decide_eq_false (Rat.not_lt.mpr nonneg)
  · exact decide_eq_false (Rat.not_lt.mpr rounded)

/-- Going on by one does not lead below zero. -/
theorem lt_zero_add_one {position : Number} (nonneg : position.lt (.ofNat 0) = false) :
    (position.add (.ofNat 1)).lt (.ofNat 0) = false := by
  cases position with
  | absent | nan => rfl
  | null => exact lt_zero_nearest (Rat.add_nonneg (by decide) (by decide))
  | infinite negative =>
    cases negative with
    | true => cases nonneg
    | false => rfl
  | finite value =>
    have bound : 0 ≤ value := Rat.not_lt.mp (of_decide_eq_false nonneg)
    exact lt_zero_nearest (Rat.add_nonneg bound (by decide))

/-- Going back from the end of a log by no more than its length does not lead below zero. -/
theorem lt_zero_sub_min (length : Nat) (wanted : Number) :
    ((Number.ofNat length).sub (wanted.min (.ofNat length))).lt (.ofNat 0) = false := by
  have back {value : Rat} (fewer : value ≤ (length : Int)) :
      ((Number.ofNat length).sub (.finite value)).lt (.ofNat 0) = false := by
    refine lt_zero_nearest ?_
    rw [← Rat.sub_eq_add_neg]
    exact (Rat.le_iff_sub_nonneg value (length : Int)).mp fewer
  unfold Number.min
  split
  · rfl
  · split
    · rename_i fewer
      cases wanted with
      | absent | nan => cases fewer
      | null => exact back (Rat.intCast_nonneg.mpr (Int.natCast_nonneg length))
      | infinite negative =>
        cases negative with
        | true => rfl
        | false => cases fewer
      | finite value => exact back (Rat.le_of_lt (of_decide_eq_true fewer))
    · exact back Rat.le_refl

theorem lt_counted (number : Number) (bound : Nat) :
    number.counted.lt (.ofNat bound) = number.lt (.ofNat bound) := by
  cases number <;> rfl

/-- A whole number that is the lesser of two is not above either. -/
theorem le_of_min_eq_ofNat {number : Number} {bound index : Nat}
    (least : number.min (.ofNat bound) = .ofNat index) : index ≤ bound := by
  unfold Number.min at least
  split at least
  · cases least
  · split at least
    · rename_i below
      rw [← lt_counted, least, lt_ofNat, decide_eq_true_eq] at below
      exact Nat.le_of_lt below
    · exact Nat.le_of_eq (ofNat_inj.mp least).symm

/-- A position from zero up to a bound is truncated to an index below the bound. -/
theorem truncate_of_lt {position : Number} {bound : Nat}
    (nonneg : position.lt (.ofNat 0) = false) (below : position.lt (.ofNat bound) = true) :
    ∃ index : Nat, index < bound ∧ position.truncate = index := by
  have floor {value : Rat} (nonneg : 0 ≤ value) (below : value < (bound : Int)) :
      ∃ index : Nat, index < bound ∧ (Number.finite value).truncate = index := by
    have start : 0 ≤ value.floor := Rat.le_floor_iff.mpr nonneg
    have stop : value.floor < bound := Rat.floor_lt_iff.mpr below
    refine ⟨value.floor.toNat, by omega, ?_⟩
    rw [truncate, Int.tdiv_eq_ediv_of_nonneg (Rat.num_nonneg.mpr nonneg), ← Rat.floor_def]
    omega
  cases position with
  | absent | nan => cases below
  | null =>
    have positive : ((0 : Int) : Rat) < (bound : Int) := of_decide_eq_true below
    exact ⟨0, Int.ofNat_lt.mp (Rat.intCast_lt_intCast.mp positive), rfl⟩
  | infinite negative =>
    cases negative with
    | true => cases nonneg
    | false => cases below
  | finite value =>
    exact floor (Rat.not_lt.mp (of_decide_eq_false nonneg)) (of_decide_eq_true below)

end Number

/-! ### Logs that show the same -/

namespace Recent

/-- Two logs hold as many entries and agree in every slot into which one was recorded. -/
structure Agrees (first second : Recent) : Prop where
  recorded : first.recorded = second.recorded
  slots : ∀ index, index < 32 → index < first.recorded → first.slots[index]? = second.slots[index]?

theorem Agrees.refl (recent : Recent) : recent.Agrees recent :=
  ⟨rfl, fun _ _ _ => rfl⟩

theorem Agrees.forget (first second : Recent) : first.forget.Agrees second.forget :=
  ⟨rfl, fun index _ none => absurd none (Nat.not_lt_zero index)⟩

/-- The slot of a new entry holds it, and the others are as before. -/
theorem getElem?_record (recent : Recent) (address index : Nat) :
    (recent.record address).slots[index]? =
      if recent.recorded % 32 = index then some address else recent.slots[index]? := by
  unfold record
  rw [Vector.getElem?_set]

theorem Agrees.record {first second : Recent} (agrees : first.Agrees second) (address : Nat) :
    (first.record address).Agrees (second.record address) := by
  refine ⟨congrArg (· + 1) agrees.recorded, fun index bound written => ?_⟩
  rw [getElem?_record, getElem?_record, ← agrees.recorded]
  by_cases taken : first.recorded % 32 = index
  · rw [if_pos taken, if_pos taken]
  · rw [if_neg taken, if_neg taken]
    have before : index < first.recorded + 1 := written
    exact agrees.slots index bound (by omega)

/-- A position before the end of the log is kept in a slot that was recorded into. -/
theorem Agrees.slot {first second : Recent} (agrees : first.Agrees second) {position : Number}
    (nonneg : position.lt (.ofNat 0) = false)
    (below : position.lt (.ofNat first.recorded) = true) :
    first.slot position = second.slot position := by
  obtain ⟨index, before, truncated⟩ := Number.truncate_of_lt nonneg below
  have written : (position.toInt32 % 32).toNat < first.recorded := by
    rw [Number.toInt32, truncated, Int.bmod_def]
    split <;> omega
  unfold Recent.slot
  rw [agrees.slots _ (by omega) written]

theorem Agrees.entriesFrom {first second : Recent} (agrees : first.Agrees second) (turns : Nat)
    {position : Number} (nonneg : position.lt (.ofNat 0) = false) :
    first.entriesFrom turns position = second.entriesFrom turns position := by
  induction turns generalizing position with
  | zero => rfl
  | succ turns inductionHypothesis =>
    rw [Recent.entriesFrom, Recent.entriesFrom, ← agrees.recorded]
    by_cases below : position.lt (.ofNat first.recorded) = true
    · rw [if_pos below, if_pos below, agrees.slot nonneg below,
        inductionHypothesis (Number.lt_zero_add_one nonneg)]
    · rw [if_neg below, if_neg below]

theorem Agrees.lastEntries {first second : Recent} (agrees : first.Agrees second) {count : Nat}
    (within : count ≤ first.recorded) : first.lastEntries count = second.lastEntries count := by
  unfold Recent.lastEntries
  rw [← agrees.recorded]
  refine List.map_congr_left fun place member => ?_
  obtain ⟨offset, inside, rfl⟩ := List.mem_range'.mp member
  have written : (first.recorded - count + 1 * offset) % 32 < first.recorded := by omega
  rw [agrees.slots _ (Nat.mod_lt _ (by decide)) written]

/-- Whatever count is asked for, logs that agree give the same entries. -/
theorem Agrees.last {first second : Recent} (agrees : first.Agrees second) (count : Number) :
    first.last count = second.last count := by
  have start := Number.lt_zero_sub_min first.recorded (count.min (.ofNat 32))
  have enough {index : Nat}
      (least : (count.min (.ofNat 32)).min (.ofNat first.recorded) = .ofNat index) :
      index ≤ first.recorded := Number.le_of_min_eq_ofNat least
  unfold Recent.last
  simp only [← agrees.recorded]
  generalize (count.min (.ofNat 32)).min (.ofNat first.recorded) = wanted at start enough ⊢
  cases whole : wanted.index? 33 with
  | none => exact agrees.entriesFrom 33 start
  | some index => exact agrees.lastEntries (enough (Number.eq_ofNat_of_index? whole))

/-- A whole number of entries is cut down to what the ring holds and to what was recorded. -/
theorem last_ofNat (recent : Recent) (count : Nat) :
    recent.last (.ofNat count) = recent.lastEntries (min (min count 32) recent.recorded) := by
  have bound : min (min count 32) recent.recorded < 33 := by omega
  unfold last
  simp only [Number.min_ofNat, Number.index?_ofNat, dif_pos bound]

end Recent

end EightBit
