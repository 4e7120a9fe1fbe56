import Mathlib.Data.List.Forall2
import SchemaProjection.Run.Memo

/-!
# Values are ordered by identity

The memo of a run keeps its keys in order, and takes two keys for one if neither is in front of the
other. So the order has to be total, and it has to tell apart all that is different
(`TotallyOrders`). It is put together from the ranks of the kinds and one order for each kind of
payload, of which that of doubles is the order of their bits (`Double.rank_eq_signedBits`).

Lists of arguments are compared argument by argument, and keys component by component. Hence the
memo takes two lists of arguments for one exactly if they hold the same values
(`Value.ordered_by_identity`).
-/

namespace SchemaProjection

/-! ### Total orders -/

/-- **A total order**, given by comparison, of what is told apart by `same`. -/
structure TotallyOrders {α : Type} (cmp : α → α → Ordering) (same : α → α → Prop) : Prop where
  refl : ∀ a, cmp a a = .eq
  eq_swap : ∀ a b, cmp a b = (cmp b a).swap
  antisymm : ∀ a b, (cmp a b).isLE → (cmp b a).isLE → same a b
  isLE_trans : ∀ a b c, (cmp a b).isLE → (cmp b c).isLE → (cmp a c).isLE
  lt_trans : ∀ a b c, cmp a b = .lt → cmp b c = .lt → cmp a c = .lt
  total : ∀ a b, (cmp a b).isLE ∨ (cmp b a).isLE
  eq_iff : ∀ a b, cmp a b = .eq ↔ same a b

theorem totallyOrders {α : Type} {cmp : α → α → Ordering} [Std.TransCmp cmp]
    {same : α → α → Prop} (hsame : ∀ a b, cmp a b = .eq ↔ same a b) : TotallyOrders cmp same where
  refl _ := Std.ReflCmp.compare_self
  eq_swap _ _ := Std.OrientedCmp.eq_swap
  antisymm a b hle hge := (hsame a b).mp (Std.OrientedCmp.isLE_antisymm hle hge)
  isLE_trans _ _ _ := Std.TransCmp.isLE_trans
  lt_trans _ _ _ := Std.TransCmp.lt_trans
  total a b := by
    have hswap : cmp b a = (cmp a b).swap := Std.OrientedCmp.eq_swap
    rw [hswap]
    cases cmp a b <;> decide
  eq_iff := hsame

/-! ### Doubles -/

namespace Double

/-- All bits but the sign. -/
def magnitudeMask : BitVec 64 := 0x7FFFFFFFFFFFFFFF

/-- The bits of a double as a signed integer, with all but the sign flipped if that is set. -/
def signedBits (x : Double) : Int :=
  let bits := x.bits.toBitVec
  (bits ^^^ (bits.sshiftRight 63 >>> 1)).toInt

/-- The sign, shifted through all bits. -/
theorem shifted_sign (bits : BitVec 64) :
    bits.sshiftRight 63 >>> 1 = if bits.msb then magnitudeMask else 0#64 := by
  have hsmall : ∀ small : BitVec 64, small.toNat < 2 ^ 63 → small >>> 63 = 0#64 := by
    intro small h
    refine BitVec.eq_of_toNat_eq ?_
    rw [BitVec.toNat_ushiftRight, Nat.shiftRight_eq_div_pow, Nat.div_eq_of_lt h]
    rfl
  have hlt := bits.isLt
  cases hsign : bits.msb with
  | false =>
    have hpositive := BitVec.msb_eq_false_iff_two_mul_lt.mp hsign
    rw [BitVec.sshiftRight_eq_of_msb_false hsign, hsmall bits (by omega)]
    rfl
  | true =>
    have hnegative := BitVec.msb_eq_true_iff_two_mul_ge.mp hsign
    rw [BitVec.sshiftRight_eq_of_msb_true hsign,
      hsmall (~~~bits) (by rw [BitVec.toNat_not]; omega)]
    rfl

/-- Where the sign is set, larger magnitudes make smaller numbers. -/
theorem toInt_xor_magnitudeMask {bits : BitVec 64} (h : bits.msb = true) :
    (bits ^^^ magnitudeMask).toInt = -((bits.setWidth 63).toNat : Int) - 1 := by
  have hmsb : (bits ^^^ magnitudeMask).msb = true := by
    rw [BitVec.msb_xor, h]
    rfl
  have hflipped : (bits ^^^ magnitudeMask).setWidth 63 = ~~~(bits.setWidth 63) := by
    rw [BitVec.setWidth_xor, ← BitVec.xor_allOnes]
    rfl
  have hlow := congrArg BitVec.toNat hflipped
  rw [BitVec.toNat_setWidth, BitVec.toNat_not] at hlow
  have hlt := (bits ^^^ magnitudeMask).isLt
  have hlarge := BitVec.msb_eq_true_iff_two_mul_ge.mp hmsb
  have hmagnitude := (bits.setWidth 63).isLt
  rw [BitVec.toInt_eq_msb_cond, if_pos hmsb]
  omega

/-- **The total order of doubles is that of their bits.** -/
theorem rank_eq_signedBits (x : Double) : x.rank = x.signedBits := by
  have hmsb : x.bits.toBitVec.msb = x.negative := BitVec.msb_eq_decide _
  rw [signedBits, shifted_sign, hmsb, rank]
  split
  · next hsign => exact (toInt_xor_magnitudeMask (hmsb.trans hsign)).symm
  · next hsign =>
    have hsmall : x.bits.toNat < 2 ^ 63 := by
      rw [negative, decide_eq_true_eq, Nat.not_le] at hsign
      exact hsign
    rw [BitVec.xor_zero, BitVec.toInt_eq_msb_cond, hmsb, if_neg hsign]
    exact congrArg Int.ofNat (Nat.mod_eq_of_lt hsmall)

/-- From the least double to the greatest: NaNs are at both ends, and between the zeros there is
nothing. -/
example : [invalid, infinity true, zero.neg, zero, infinity false, nan].map signedBits =
    [-0x7FF8000000000001, -0x7FF0000000000001, -1, 0, 0x7FF0000000000000, 0x7FF8000000000000] := by
  decide

end Double

/-! ### Values -/

namespace Value

/-- **The same kind and the same payload**, bit by bit in the case of numbers. -/
inductive Same : Value → Value → Prop
  | absent : Same .absent .absent
  | bool {a b : Bool} : a = b → Same (.bool a) (.bool b)
  | number {x y : Double} : x.bits = y.bits → Same (.number x) (.number y)
  | string {s t : String} : s.toList = t.toList → Same (.string s) (.string t)
  | type {i j : NodeId} : i.index = j.index → Same (.type i) (.type j)

variable {a b : Value} {xs ys : List Value}

theorem same_self (a : Value) : a.Same a := by
  cases a with
  | absent => exact .absent
  | bool => exact .bool rfl
  | number => exact .number rfl
  | string => exact .string rfl
  | type => exact .type rfl

theorem same_iff_eq : a.Same b ↔ a = b := by
  refine ⟨fun h => ?_, fun h => h ▸ same_self a⟩
  cases h with
  | absent => rfl
  | bool h => rw [h]
  | @number x y h =>
    cases x
    cases y
    exact congrArg (Value.number ∘ Double.mk) h
  | string h => rw [String.toList_injective h]
  | @type i j h =>
    cases i
    cases j
    exact congrArg (Value.type ∘ NodeId.mk) h

theorem forall₂_same_iff_eq : List.Forall₂ Same xs ys ↔ xs = ys := by
  have hsame : (Same : Value → Value → Prop) = (· = ·) :=
    funext₂ fun _ _ => propext same_iff_eq
  rw [hsame, List.forall₂_eq_eq_eq]

/-- **Only the same values compare equal.** -/
theorem compare_eq_iff_same : compare a b = .eq ↔ a.Same b := by
  rw [Std.LawfulEqCmp.compare_eq_iff_eq, same_iff_eq]

/-! ### Lists of arguments -/

theorem compare_lists_eq_iff : compare xs ys = .eq ↔ List.Forall₂ Same xs ys := by
  rw [Std.LawfulEqCmp.compare_eq_iff_eq, forall₂_same_iff_eq]

/-- What two lists have in common does not count. -/
theorem compare_append (common xs ys : List Value) :
    compare (common ++ xs) (common ++ ys) = compare xs ys := by
  induction common with
  | nil => rfl
  | cons a common ih =>
    have hself : compare a a = .eq := Std.ReflCmp.compare_self
    rw [List.cons_append, List.cons_append, List.compare_cons_cons, hself, ih]
    rfl

/-- **The first difference decides.** -/
theorem compare_append_cons_cons (common xs ys : List Value) (a b : Value) :
    compare (common ++ a :: xs) (common ++ b :: ys) = (compare a b).then (compare xs ys) := by
  rw [compare_append, List.compare_cons_cons]

/-- A list comes before those that go on. -/
theorem compare_append_cons (xs : List Value) (b : Value) (ys : List Value) :
    compare xs (xs ++ b :: ys) = .lt := by
  have h := compare_append xs [] (b :: ys)
  rwa [List.append_nil] at h

/-! ### Keys -/

/-- Keys that differ in their arguments only are compared by these. -/
theorem compare_keys (key : MemoKey) (xs ys : List Value) :
    MemoKey.compare { key with args := xs } { key with args := ys } = compare xs ys := by
  have hnode : compare key.node key.node = .eq := Std.ReflCmp.compare_self
  have hprojection : compare key.projection key.projection = .eq := Std.ReflCmp.compare_self
  have hdirection : compare key.direction key.direction = .eq := Std.ReflCmp.compare_self
  simp only [MemoKey.compare, hnode, hprojection, hdirection, Ordering.then]

/-- **Values are totally ordered by identity**: of two values the one or the other is in front, or
they are the same. Lists of arguments are ordered lexicographically, and the keys of the memo are, too.
So the memo takes two lists of arguments for one exactly if they hold the same values. -/
theorem ordered_by_identity :
    TotallyOrders (compare : Value → Value → Ordering) Same ∧
    (∀ x y : Double, compare (Value.number x) (.number y) =
      compare x.signedBits y.signedBits) ∧
    TotallyOrders (compare : List Value → List Value → Ordering) (List.Forall₂ Same) ∧
    (∀ (common xs ys : List Value) (a b : Value),
      compare (common ++ a :: xs) (common ++ b :: ys) = (compare a b).then (compare xs ys)) ∧
    (∀ (xs : List Value) (b : Value) (ys : List Value), compare xs (xs ++ b :: ys) = .lt) ∧
    TotallyOrders MemoKey.compare (· = ·) ∧
    ∀ (key : MemoKey) (xs ys : List Value),
      (MemoKey.compare { key with args := xs } { key with args := ys } = .eq ↔
        List.Forall₂ Same xs ys) ∧
      (List.Forall₂ Same xs ys ↔ xs = ys) ∧
      ∀ (memo : Memo) (entry : MemoEntry),
        (memo.insert { key with args := xs } entry).find? { key with args := ys } =
          if xs = ys then some entry else memo.find? { key with args := ys } := by
  refine ⟨totallyOrders fun _ _ => compare_eq_iff_same, fun x y => ?_,
    totallyOrders fun _ _ => compare_lists_eq_iff, compare_append_cons_cons, compare_append_cons,
    totallyOrders fun _ _ => Std.LawfulEqCmp.compare_eq_iff_eq, fun key xs ys =>
      ⟨by rw [compare_keys, compare_lists_eq_iff], forall₂_same_iff_eq, fun memo entry => ?_⟩⟩
  · rw [← Double.rank_eq_signedBits, ← Double.rank_eq_signedBits]
    rfl
  · simp only [Memo.find?_insert, MemoKey.mk.injEq, true_and]

end Value

end SchemaProjection
