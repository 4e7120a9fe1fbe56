import Mathlib.Algebra.Group.Nat.Defs
import Mathlib.Tactic.SplitIfs
import SchemaProjection.Run.Operators

/-!
# Comparisons

The comparison operators answer by two different orders. Strings have only one order, but for
numbers `==` asks for the same datum, while `<` and its kin compare what the numbers are worth. The
worth of a number in units determines it up to the sign of a zero (`Double.units_eq_iff`), and a NaN
has none. So the operators fit together on all values but zeros of different sign, which are in
order without being equal, and a NaN, which is equal to itself without being in order
(`CompareOp.results_coherent`).
-/

namespace SchemaProjection

/-! ### What a number is worth -/

namespace Double

variable {x y : Double}

theorem fractionWeight_pos : 0 < fractionWeight := by decide

/-- A magnitude is worth less than the next power of two. -/
theorem magnitudeUnits_lt_pow (x : Double) :
    x.magnitudeUnits < fractionWeight * 2 ^ (x.magnitude / fractionWeight) := by
  have hfraction : x.magnitude % fractionWeight < fractionWeight :=
    Nat.mod_lt _ fractionWeight_pos
  dsimp only [magnitudeUnits]
  split_ifs with hexponent
  · rwa [hexponent, Nat.pow_zero, Nat.mul_one]
  · obtain ⟨e, he⟩ := Nat.exists_eq_add_one_of_ne_zero hexponent
    rw [he, Nat.add_sub_cancel]
    calc (fractionWeight + x.magnitude % fractionWeight) * 2 ^ e
        < (fractionWeight + fractionWeight) * 2 ^ e :=
          Nat.mul_lt_mul_of_pos_right (Nat.add_lt_add_left hfraction _) (Nat.two_pow_pos e)
      _ = fractionWeight * 2 ^ (e + 1) := by
          rw [Nat.pow_succ, ← Nat.two_mul, Nat.mul_comm 2, Nat.mul_assoc, Nat.mul_comm 2]

/-- A magnitude is worth at least the power of two of its exponent. -/
theorem pow_le_magnitudeUnits (h : x.magnitude / fractionWeight ≠ 0) :
    fractionWeight * 2 ^ (x.magnitude / fractionWeight - 1) ≤ x.magnitudeUnits := by
  dsimp only [magnitudeUnits]
  rw [if_neg h]
  exact Nat.mul_le_mul_right _ (Nat.le_add_right _ _)

/-- **Larger magnitudes are worth more.** -/
theorem magnitudeUnits_lt (h : x.magnitude < y.magnitude) :
    x.magnitudeUnits < y.magnitudeUnits := by
  have hexponents := Nat.div_le_div_right (c := fractionWeight) (Nat.le_of_lt h)
  rcases Nat.eq_or_lt_of_le hexponents with heq | hlt
  · -- the fractions differ
    have hfractions : x.magnitude % fractionWeight < y.magnitude % fractionWeight := by
      have hx := Nat.div_add_mod x.magnitude fractionWeight
      have hy := Nat.div_add_mod y.magnitude fractionWeight
      rw [heq] at hx
      omega
    dsimp only [magnitudeUnits]
    rw [heq]
    split_ifs
    · exact hfractions
    · exact Nat.mul_lt_mul_of_pos_right (Nat.add_lt_add_left hfractions _) (Nat.two_pow_pos _)
  · have hle : x.magnitude / fractionWeight ≤ y.magnitude / fractionWeight - 1 := by omega
    calc x.magnitudeUnits < fractionWeight * 2 ^ (x.magnitude / fractionWeight) :=
          magnitudeUnits_lt_pow x
      _ ≤ fractionWeight * 2 ^ (y.magnitude / fractionWeight - 1) :=
          Nat.mul_le_mul_left _ (Nat.pow_le_pow_right Nat.two_pos hle)
      _ ≤ y.magnitudeUnits := pow_le_magnitudeUnits (Nat.ne_zero_of_lt hlt)

theorem magnitude_eq (h : x.magnitudeUnits = y.magnitudeUnits) : x.magnitude = y.magnitude := by
  rcases Nat.lt_trichotomy x.magnitude y.magnitude with hlt | heq | hlt
  · exact absurd h (Nat.ne_of_lt (magnitudeUnits_lt hlt))
  · exact heq
  · exact absurd h.symm (Nat.ne_of_lt (magnitudeUnits_lt hlt))

theorem isZero_iff : x.isZero ↔ x.magnitudeUnits = 0 := by
  rw [isZero, beq_iff_eq]
  refine ⟨fun h => by rw [magnitudeUnits, h]; rfl, fun h => ?_⟩
  exact magnitude_eq (y := zero) h

/-- **A number is determined by its worth**, up to the sign of a zero. -/
theorem units_eq_iff : x.units = y.units ↔ x = y ∨ x.isZero ∧ y.isZero := by
  constructor
  · intro h
    by_cases hsign : x.negative = y.negative
    · have hmagnitude : x.magnitude = y.magnitude := by
        refine magnitude_eq ?_
        rw [units, units, hsign] at h
        split_ifs at h <;> omega
      left
      refine rank_inj ?_
      rw [rank, rank, hsign, hmagnitude]
    · right
      rw [isZero_iff, isZero_iff]
      rw [units, units] at h
      split_ifs at h with hx hy hy
      · exact absurd (hx.trans hy.symm) hsign
      · omega
      · omega
      · rw [Bool.not_eq_true] at hx hy
        exact absurd (hx.trans hy.symm) hsign
  · rintro (rfl | ⟨hx, hy⟩)
    · rfl
    · rw [isZero_iff] at hx hy
      simp [units, hx, hy]

theorem not_isZero_of_isNaN (h : x.isNaN) : ¬ x.isZero := by
  rw [isNaN, decide_eq_true_eq] at h
  rw [isZero, beq_iff_eq]
  exact Nat.ne_zero_of_lt h

theorem ieeeCompare?_swap (x y : Double) :
    y.ieeeCompare? x = (x.ieeeCompare? y).map Ordering.swap := by
  rw [ieeeCompare?, ieeeCompare?, Bool.or_comm]
  split_ifs
  · rfl
  · rw [Option.map_some, ← Std.OrientedCmp.eq_swap]

end Double

/-! ### How values are ordered -/

namespace Value

variable {a b : Value} {order : Option Ordering}

/-- **Numbers on which equality and order differ**: zeros of different sign, and a NaN with
itself. -/
def Discordant (a b : Value) : Prop :=
  ∃ x y, a = .number x ∧ b = .number y ∧ (x ≠ y ∧ x.isZero ∧ y.isZero ∨ x = y ∧ x.isNaN)

/-- There is an order of two numbers, and of two strings. -/
theorem isSome_order? :
    (a.order? b).isSome ↔ a.kind = b.kind ∧ (a.kind = .number ∨ a.kind = .string) := by
  cases a <;> cases b <;> simp [order?, kind]

theorem order?_swap (a b : Value) : b.order? a = (a.order? b).map (Option.map Ordering.swap) := by
  cases a with
  | number x =>
    cases b with
    | number y => exact congrArg some (Double.ieeeCompare?_swap x y)
    | _ => rfl
  | string s =>
    cases b with
    | string t => exact congrArg (some ∘ some) Std.OrientedCmp.eq_swap
    | _ => rfl
  | _ => cases b <;> rfl

/-- A value is not in front of itself or behind. -/
theorem order?_self (h : a.order? a = some order) : order = none ∨ order = some .eq := by
  cases a with
  | number x =>
    cases h
    rw [Double.ieeeCompare?]
    split_ifs
    · exact .inl rfl
    · exact .inr (congrArg some Std.ReflCmp.compare_self)
  | string s =>
    cases h
    exact .inr (congrArg some Std.ReflCmp.compare_self)
  | _ => cases h

/-- **Equal values are equal in order, and conversely**, but for numbers that are discordant. -/
theorem order?_eq_iff (h : a.order? b = some order) :
    (order = some .eq ↔ a = b) ↔ ¬ a.Discordant b := by
  cases a with
  | number x =>
    cases b with
    | number y =>
      cases h
      have hdiscordant : Discordant (.number x) (.number y) ↔
          x ≠ y ∧ x.isZero ∧ y.isZero ∨ x = y ∧ x.isNaN := by
        simp [Discordant]
      rw [hdiscordant, Value.number.injEq, Double.ieeeCompare?]
      split_ifs with hnan
      · -- a NaN is equal to itself at most, and there is no order
        have hzeros : ¬ (x.isZero ∧ y.isZero) := fun hzeros =>
          (Bool.or_eq_true_iff.mp hnan).elim (fun h => Double.not_isZero_of_isNaN h hzeros.1)
            fun h => Double.not_isZero_of_isNaN h hzeros.2
        by_cases heq : x = y
        · subst heq
          simpa using hnan
        · simp [heq, hzeros]
      · rw [Option.some.injEq, Std.LawfulEqCmp.compare_eq_iff_eq, Double.units_eq_iff]
        rw [Bool.or_eq_true_iff, not_or] at hnan
        by_cases heq : x = y
        · subst heq
          simp [hnan.1]
        · simp [heq]
    | _ => cases h
  | string s =>
    cases b with
    | string t =>
      cases h
      simp [Discordant]
    | _ => cases h
  | _ => cases h

end Value

/-! ### The operators -/

namespace CompareOp

variable {a b : Value} {order : Option Ordering}

theorem isSome_eq : (CompareOp.eq.result? a b).isSome ↔ a.kind = b.kind := by
  rw [result?]
  split_ifs with hkind <;> simp [hkind]

theorem isSome_ordering {op : CompareOp} (hop : op ∈ [lt, le, gt, ge]) :
    (op.result? a b).isSome ↔ a.kind = b.kind ∧ (a.kind = .number ∨ a.kind = .string) := by
  rw [← Value.isSome_order?]
  cases op with
  | eq | ne => simp at hop
  | lt | le | gt | ge => rw [result?, Option.isSome_map]

theorem ne_result? (a b : Value) :
    CompareOp.ne.result? a b = (CompareOp.eq.result? a b).map (!·) := by
  rw [result?, result?]
  split_ifs
  · rw [Option.map_some, decide_not]
  · rfl

theorem gt_result? (a b : Value) : gt.result? a b = lt.result? b a := by
  rw [result?, result?, Value.order?_swap a b]
  rcases a.order? b with _ | _ | _ | _ | _ <;> rfl

theorem ge_result? (a b : Value) : ge.result? a b = le.result? b a := by
  rw [result?, result?, Value.order?_swap a b]
  rcases a.order? b with _ | _ | _ | _ | _ <;> rfl

section Ordered

variable (h : a.order? b = some order)
include h

/-- The results of the operators where there is an order. -/
theorem result?_of_order? :
    (CompareOp.eq.result? a b = some true ↔ a = b) ∧
      lt.result? a b = some (order.any Ordering.isLT) ∧
      le.result? a b = some (order.any Ordering.isLE) ∧
      gt.result? a b = some (order.any Ordering.isGT) ∧
      ge.result? a b = some (order.any Ordering.isGE) := by
  have hkind : a.kind = b.kind := (Value.isSome_order?.mp (by rw [h]; rfl)).1
  have heq : CompareOp.eq.result? a b = some (decide (a = b)) := if_pos hkind
  refine ⟨by rw [heq, Option.some.injEq, decide_eq_true_eq], ?_⟩
  simp only [result?, h, Option.map_some, and_self]

/-- Equal values are in no strict order. -/
theorem not_strict_of_eq (heq : a = b) : order ≠ some .lt ∧ order ≠ some .gt := by
  subst heq
  rcases Value.order?_self h with rfl | rfl <;> decide

/-- **`<=` and `>=` are the weak forms** of `<` and `>`, but for discordant numbers. -/
theorem weak_iff :
    ((le.result? a b = some true ↔
      lt.result? a b = some true ∨ CompareOp.eq.result? a b = some true) ↔ ¬ a.Discordant b) ∧
    ((ge.result? a b = some true ↔
      gt.result? a b = some true ∨ CompareOp.eq.result? a b = some true) ↔ ¬ a.Discordant b) := by
  obtain ⟨heq, hlt, hle, hgt, hge⟩ := result?_of_order? h
  have hstrict : a = b → order ≠ some .lt ∧ order ≠ some .gt := not_strict_of_eq h
  rw [heq, hlt, hle, hgt, hge, ← Value.order?_eq_iff h]
  -- where there is a strict order, the operands are not equal
  rcases order with _ | _ | _ | _ <;> simp_all

end Ordered

/-- **The comparison operators are coherent** on all values but discordant numbers. Where they are
defined, `!=` is the negation of `==`, and `>` and `>=` are `<` and `<=` the other way round; of
`<`, `==` and `>` at most one holds. And `<=` holds exactly where `<` or `==` does, and `>=` where
`>` or `==` does, if and only if the operands are not discordant. -/
theorem results_coherent (a b : Value) :
    ((CompareOp.eq.result? a b).isSome ↔ a.kind = b.kind) ∧
    (∀ op ∈ [lt, le, gt, ge], (op.result? a b).isSome ↔
      a.kind = b.kind ∧ (a.kind = .number ∨ a.kind = .string)) ∧
    CompareOp.ne.result? a b = (CompareOp.eq.result? a b).map (!·) ∧
    gt.result? a b = lt.result? b a ∧
    ge.result? a b = le.result? b a ∧
    ¬ (lt.result? a b = some true ∧ CompareOp.eq.result? a b = some true) ∧
    ¬ (lt.result? a b = some true ∧ gt.result? a b = some true) ∧
    ¬ (CompareOp.eq.result? a b = some true ∧ gt.result? a b = some true) ∧
    ((le.result? a b).isSome →
      ((le.result? a b = some true ↔
        lt.result? a b = some true ∨ CompareOp.eq.result? a b = some true) ↔
          ¬ a.Discordant b) ∧
      ((ge.result? a b = some true ↔
        gt.result? a b = some true ∨ CompareOp.eq.result? a b = some true) ↔
          ¬ a.Discordant b)) := by
  refine ⟨isSome_eq, fun op hop => isSome_ordering hop, ne_result? a b, gt_result? a b,
    ge_result? a b, ?_⟩
  cases horder : a.order? b with
  | none =>
    have hlt : lt.result? a b = none := by rw [result?, horder, Option.map_none]
    have hle : le.result? a b = none := by rw [result?, horder, Option.map_none]
    have hgt : gt.result? a b = none := by rw [result?, horder, Option.map_none]
    simp [hlt, hle, hgt]
  | some order =>
    obtain ⟨heq, hlt, hle, hgt, hge⟩ := result?_of_order? horder
    have hstrict : a = b → order ≠ some .lt ∧ order ≠ some .gt := not_strict_of_eq horder
    refine ⟨?_, ?_, ?_, fun _ => weak_iff horder⟩
    · rw [hlt, heq]
      rintro ⟨h, rfl⟩
      rcases order with _ | _ | _ | _ <;> simp_all
    · rw [hlt, hgt]
      rcases order with _ | _ | _ | _ <;> simp
    · rw [hgt, heq]
      rintro ⟨rfl, h⟩
      rcases order with _ | _ | _ | _ <;> simp_all

/-- Zeros of different sign. -/
example : [lt, CompareOp.eq, le].map (·.result? (.number Double.zero.neg) (.number .zero)) =
    [some false, some false, some true] := by
  decide

end CompareOp

end SchemaProjection
