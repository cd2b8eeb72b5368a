import Mathlib.Algebra.Order.Field.Rat
import Mathlib.Tactic.NormNum
import Mathlib.Tactic.Ring
import FlavorTable.Number.Shortest

/-!
# The shortest decimal is found

The search for the shortest decimal ends with the grid on which the value has
seventeen digits.  One step of that grid is at most `10 ^ -16` of the value, and
the significand is below `2 ^ 53`, so a step is less than twice the way to the
nearer of the two midpoints around the value.  The multiple that is nearest to
the value is at most half a step away and therefore reads back.

The place of the decimal point bounds the value from below.  That is the one fact
about the digits which the argument needs.

On every grid the search looks at the two multiples around the value only.  If
any multiple reads back, one of these does, for what reads back is an interval.

## Main results

* `pow_pointPlace_le` — the value does not fall below the place of its decimal
  point.
* `search_eq_shortest` — the search succeeds, so what is written was found.
* `isShortest_of_search` — what was found reads back, and nothing shorter and
  nothing nearer does.
* `isShortest_shortest` — both, for every float.
-/

namespace FlavorTable

namespace Magnitude

/-! ## Weights -/

theorem zpow_mul_pow_toNat {b : ℚ} (hBase : b ≠ 0) (n : Int) :
    b ^ n * b ^ (-n).toNat = b ^ n.toNat := by
  rw [← zpow_natCast, ← zpow_natCast, ← zpow_add₀ hBase]
  congr 1
  omega

/-- The number that is taken apart. -/
def value (x : Magnitude) : ℚ := x.significand * 2 ^ x.exponent

variable {x : Magnitude} {e : Int}

/-- The two weights are the quarter and the step on one scale. -/
theorem quarterWeight_mul (x : Magnitude) (e : Int) :
    (x.quarterWeight e : ℚ) * 10 ^ e = x.stepWeight e * 2 ^ (x.exponent - 2) := by
  have hTwo := zpow_mul_pow_toNat (b := 2) two_ne_zero (x.exponent - 2)
  have hTen := zpow_mul_pow_toNat (b := 10) (by norm_num) e
  rw [neg_sub] at hTwo
  simp only [quarterWeight, stepWeight, Nat.one_shiftLeft, Nat.pow_eq, Nat.cast_mul, Nat.cast_pow,
    Nat.cast_ofNat]
  rw [← hTwo, ← hTen]
  ring

theorem value_eq (x : Magnitude) : x.value = x.quarters * 2 ^ (x.exponent - 2) := by
  rw [value, quarters, zpow_sub₀ two_ne_zero]
  push_cast
  ring

theorem quarterWeight_pos (x : Magnitude) (e : Int) : 0 < x.quarterWeight e := by
  rw [quarterWeight, Nat.one_shiftLeft]
  exact Nat.mul_pos (Nat.two_pow_pos _) (Nat.pow_pos (by decide))

theorem stepWeight_pos (x : Magnitude) (e : Int) : 0 < x.stepWeight e := by
  rw [stepWeight, Nat.one_shiftLeft]
  exact Nat.mul_pos (Nat.two_pow_pos _) (Nat.pow_pos (by decide))

/-! ## The last grid -/

theorem pow_pred_le {n : Nat} (hPos : 0 < n) : 10 ^ ((Nat.toDigits 10 n).length - 1) ≤ n := by
  by_contra hLess
  have hLength : (Nat.toDigits 10 n).length - 1 ≠ 0 := by
    intro hZero
    rw [hZero] at hLess
    omega
  have := (Nat.length_toDigits_le_iff (by decide) (by omega)).mpr (not_le.mp hLess)
  omega

theorem lt_pow (n : Nat) : n < 10 ^ (Nat.toDigits 10 n).length :=
  (Nat.length_toDigits_le_iff (by decide) Nat.length_toDigits_pos).mp le_rfl

/-- The digits of a quotient bound it from below. -/
theorem pow_pred_mul_le {upper under : Nat} (hUnder : 0 < under) (hLe : under ≤ upper) :
    10 ^ ((Nat.toDigits 10 (upper / under)).length - 1) * under ≤ upper :=
  (Nat.le_div_iff_mul_le hUnder).mp (pow_pred_le (Nat.div_pos hLe hUnder))

/-- The digits of the inverse of a quotient bound it from below. -/
theorem le_mul_pow {upper : Nat} (hUpper : 0 < upper) (under : Nat) :
    under ≤ upper * 10 ^ (Nat.toDigits 10 ((under - 1) / upper)).length := by
  have hLess := (Nat.div_lt_iff_lt_mul hUpper).mp (lt_pow ((under - 1) / upper))
  rw [Nat.mul_comm] at hLess
  omega

/-- The value as a quotient of whole numbers. -/
theorem value_mul (x : Magnitude) :
    x.value * ↑(1 <<< (-x.exponent).toNat : Nat) = ↑(x.significand <<< x.exponent.toNat : Nat) := by
  have hTwo := zpow_mul_pow_toNat (b := 2) two_ne_zero x.exponent
  rw [value, Nat.one_shiftLeft, Nat.shiftLeft_eq]
  push_cast
  rw [← hTwo]
  ring

/-- The decimal point stands where the value does not fall below. -/
theorem pow_pointPlace_le (hPos : x.significand ≠ 0) : (10 : ℚ) ^ (x.pointPlace - 1) ≤ x.value := by
  have hValue := value_mul x
  have hUpper : 0 < x.significand <<< x.exponent.toNat := by
    rw [Nat.shiftLeft_eq]
    exact Nat.mul_pos (Nat.pos_of_ne_zero hPos) (Nat.two_pow_pos _)
  have hUnder : 0 < 1 <<< (-x.exponent).toNat := by
    rw [Nat.one_shiftLeft]
    exact Nat.two_pow_pos _
  unfold pointPlace
  dsimp only
  generalize x.significand <<< x.exponent.toNat = upper at hValue hUpper ⊢
  generalize 1 <<< (-x.exponent).toNat = under at hValue hUnder ⊢
  have hUnderRat : (0 : ℚ) < under := by exact_mod_cast hUnder
  refine le_of_mul_le_mul_right ?_ hUnderRat
  rw [hValue]
  split
  case isTrue hLe =>
    have hWhole := pow_pred_mul_le hUnder hLe
    have hLength := Nat.length_toDigits_pos (b := 10) (n := upper / under)
    generalize (Nat.toDigits 10 (upper / under)).length = k at hWhole hLength ⊢
    rw [show (k : Int) - 1 = (k - 1 : Nat) by omega, zpow_natCast]
    exact_mod_cast hWhole
  case isFalse =>
    have hWhole := le_mul_pow hUpper under
    generalize (Nat.toDigits 10 ((under - 1) / upper)).length = k at hWhole ⊢
    have hTen : (0 : ℚ) < 10 ^ k := pow_pos (by norm_num) k
    rw [show 1 - (k : Int) - 1 = -k by omega, zpow_neg, zpow_natCast,
      inv_mul_le_iff₀ hTen, mul_comm]
    exact_mod_cast hWhole

/-- A step of the last grid is at most `10 ^ -16` of the value. -/
theorem stepWeight_mul_le (hPos : x.significand ≠ 0) :
    x.stepWeight (x.pointPlace - 17) * 10 ^ 16 ≤
      x.quarters * x.quarterWeight (x.pointPlace - 17) := by
  have hPoint := pow_pointPlace_le hPos
  rw [value_eq, show x.pointPlace - 1 = x.pointPlace - 17 + 16 by omega] at hPoint
  generalize x.pointPlace - 17 = e at hPoint ⊢
  have hTen : (0 : ℚ) < 10 ^ e := zpow_pos (by norm_num) e
  have hRat : (x.stepWeight e * 10 ^ 16 : ℚ) ≤ x.quarters * x.quarterWeight e := by
    refine le_of_mul_le_mul_right ?_ hTen
    calc (x.stepWeight e * 10 ^ 16 : ℚ) * 10 ^ e
        = x.stepWeight e * 10 ^ (e + 16) := by
          rw [zpow_add₀ (by norm_num), mul_assoc, mul_comm ((10 : ℚ) ^ 16)]
          rfl
      _ ≤ x.stepWeight e * (x.quarters * 2 ^ (x.exponent - 2)) := by gcongr
      _ = x.quarters * (x.quarterWeight e * 10 ^ e) := by
          rw [quarterWeight_mul]
          ring
      _ = x.quarters * x.quarterWeight e * 10 ^ e := by ring
  exact_mod_cast hRat

/-! ## The nearest multiple -/

/-- The way down to the lower midpoint, in quarters; the way up is two. -/
def margin (x : Magnitude) : Nat := x.quarters - x.lower

theorem lower_add_margin (x : Magnitude) : x.lower + x.margin = x.quarters := by
  rw [margin, lower]
  split <;> omega

theorem margin_le_two (x : Magnitude) : x.margin ≤ 2 := by
  rw [margin, lower]
  split <;> omega

/-- A step of the last grid is less than twice the way to either midpoint. -/
theorem stepWeight_lt (hPos : x.significand ≠ 0) (hBits : x.significand < 2 * Binary.leadingBit) :
    x.stepWeight (x.pointPlace - 17) < 2 * x.margin * x.quarterWeight (x.pointPlace - 17) := by
  have hStep := stepWeight_mul_le hPos
  have hQuarter := quarterWeight_pos x (x.pointPlace - 17)
  generalize x.stepWeight (x.pointPlace - 17) = step at hStep ⊢
  generalize x.quarterWeight (x.pointPlace - 17) = quarter at hStep hQuarter ⊢
  -- A margin of one comes with the least significand of fifty-three bits, so that both cases hold.
  have hMargin : x.quarters < 2 * x.margin * 10 ^ 16 := by
    unfold Binary.leadingBit at hBits
    unfold margin lower quarters Binary.leadingBit
    split <;> omega
  have hScaled : x.quarters * quarter < 2 * x.margin * 10 ^ 16 * quarter :=
    Nat.mul_lt_mul_of_pos_right hMargin hQuarter
  refine Nat.lt_of_mul_lt_mul_right (a := 10 ^ 16) (hStep.trans_lt (hScaled.trans_eq ?_))
  ring

/-- How far the multiple `d · 10 ^ e` is from the value, on the scale of the two weights. -/
def distance (x : Magnitude) (d : Nat) (e : Int) : Nat :=
  (x.quarters * x.quarterWeight e - d * x.stepWeight e) +
    (d * x.stepWeight e - x.quarters * x.quarterWeight e)

/-- The neighbours are around the value, and the first of them is at most half a step away. -/
theorem exists_neighbours_eq (x : Magnitude) (e : Int) :
    ∃ below, below * x.stepWeight e ≤ x.quarters * x.quarterWeight e ∧
      x.quarters * x.quarterWeight e < (below + 1) * x.stepWeight e ∧
      (x.neighbours e = [below, below + 1] ∧ 2 * x.distance below e ≤ x.stepWeight e ∨
        x.neighbours e = [below + 1, below] ∧ 2 * x.distance (below + 1) e ≤ x.stepWeight e) := by
  have hBelow := Nat.div_mul_le_self (x.quarters * x.quarterWeight e) (x.stepWeight e)
  have hAbove := Nat.lt_div_mul_add (a := x.quarters * x.quarterWeight e) (stepWeight_pos x e)
  unfold neighbours distance
  dsimp only
  generalize x.quarters * x.quarterWeight e / x.stepWeight e = below at hBelow hAbove ⊢
  have hNext : (below + 1) * x.stepWeight e = below * x.stepWeight e + x.stepWeight e :=
    Nat.succ_mul _ _
  have hMiddle : (2 * below + 1) * x.stepWeight e =
      2 * (below * x.stepWeight e) + x.stepWeight e := by
    ring
  refine ⟨below, hBelow, by omega, ?_⟩
  split
  case isTrue => exact .inl ⟨rfl, by omega⟩
  case isFalse => exact .inr ⟨rfl, by omega⟩

theorem exists_near (x : Magnitude) (e : Int) :
    ∃ near ∈ x.neighbours e, 2 * x.distance near e ≤ x.stepWeight e := by
  obtain ⟨below, -, -, ⟨hEq, hNear⟩ | ⟨hEq, hNear⟩⟩ := exists_neighbours_eq x e
  · exact ⟨below, by simp [hEq], hNear⟩
  · exact ⟨below + 1, by simp [hEq], hNear⟩

/-- Where a step is less than twice the way to either midpoint, what is near reads back. -/
theorem readsBack_of_near {d : Nat} (hStep : x.stepWeight e < 2 * x.margin * x.quarterWeight e)
    (hNear : 2 * x.distance d e ≤ x.stepWeight e) : x.ReadsBack d e := by
  have hLower : x.lower * x.quarterWeight e + x.margin * x.quarterWeight e =
      x.quarters * x.quarterWeight e := by
    rw [← Nat.add_mul, lower_add_margin]
  have hUpper : x.quarters * x.quarterWeight e + 2 * x.quarterWeight e =
      x.upper * x.quarterWeight e := by
    rw [← Nat.add_mul, upper]
  have hMargin : x.margin * x.quarterWeight e ≤ 2 * x.quarterWeight e :=
    Nat.mul_le_mul_right _ (margin_le_two x)
  rw [Nat.mul_assoc] at hStep
  unfold distance at hNear
  have hLow : x.lower * x.quarterWeight e < d * x.stepWeight e := by omega
  have hHigh : d * x.stepWeight e < x.upper * x.quarterWeight e := by omega
  exact ⟨hLow.le, hHigh.le, .inr ⟨hLow.ne, hHigh.ne⟩⟩

/-! ## The search -/

theorem isSome_search (hPos : x.significand ≠ 0) (hBits : x.significand < 2 * Binary.leadingBit) :
    x.search.isSome := by
  obtain ⟨near, hMem, hNear⟩ := exists_near x (x.pointPlace - 17)
  have hReads := readsBack_of_near (stepWeight_lt hPos hBits) hNear
  rw [search, List.findSome?_isSome_iff]
  refine ⟨16, by simp, ?_⟩
  rw [show x.pointPlace - 1 - (16 : Nat) = x.pointPlace - 17 by omega, Option.isSome_map,
    List.find?_isSome]
  exact ⟨near, hMem, by simpa using hReads⟩

/-- **What is written was found**, on a grid of at most seventeen digits. -/
theorem search_eq_shortest (hPos : x.significand ≠ 0)
    (hBits : x.significand < 2 * Binary.leadingBit) : x.search = some x.shortest := by
  obtain ⟨found, hFound⟩ := Option.isSome_iff_exists.mp (isSome_search hPos hBits)
  rw [shortest, hFound]
  rfl

/-! ## What the search finds -/

/-- What lies between the value and a multiple that reads back reads back as well. -/
theorem ReadsBack.between {d near : Nat} (h : x.ReadsBack d e) (hPos : x.significand ≠ 0)
    (hBetween :
      d * x.stepWeight e ≤ near * x.stepWeight e ∧
          near * x.stepWeight e ≤ x.quarters * x.quarterWeight e ∨
        x.quarters * x.quarterWeight e ≤ near * x.stepWeight e ∧
          near * x.stepWeight e ≤ d * x.stepWeight e) : x.ReadsBack near e := by
  have hQuarter := quarterWeight_pos x e
  have hLower : x.lower * x.quarterWeight e < x.quarters * x.quarterWeight e := by
    refine Nat.mul_lt_mul_of_pos_right ?_ hQuarter
    unfold lower quarters
    split <;> omega
  have hUpper : x.quarters * x.quarterWeight e < x.upper * x.quarterWeight e :=
    Nat.mul_lt_mul_of_pos_right (by unfold upper; omega) hQuarter
  unfold ReadsBack at h ⊢
  dsimp only at h ⊢
  omega

theorem exists_neighbour_readsBack {d : Nat} (h : x.ReadsBack d e) (hPos : x.significand ≠ 0) :
    ∃ near ∈ x.neighbours e, x.ReadsBack near e := by
  obtain ⟨below, hBelow, hAbove, hNeighbours⟩ := exists_neighbours_eq x e
  have hMem : below ∈ x.neighbours e ∧ below + 1 ∈ x.neighbours e := by
    rcases hNeighbours with ⟨hEq, -⟩ | ⟨hEq, -⟩ <;> simp [hEq]
  rcases Nat.lt_or_ge below d with hLess | hLe
  · exact ⟨below + 1, hMem.2, h.between hPos (.inr ⟨hAbove.le, Nat.mul_le_mul_right _ hLess⟩)⟩
  · exact ⟨below, hMem.1, h.between hPos (.inl ⟨Nat.mul_le_mul_right _ hLe, hBelow⟩)⟩

theorem eq_or_of_find?_pair {p : Nat → Bool} {first second d : Nat}
    (h : [first, second].find? p = some d) : d = first ∨ p first = false ∧ d = second := by
  cases hFirst : p first with
  | true =>
      rw [List.find?_cons_of_pos hFirst] at h
      cases h
      exact .inl rfl
  | false =>
      rw [List.find?_cons_of_neg (by simp [hFirst])] at h
      exact .inr ⟨rfl, List.mem_singleton.mp (List.mem_of_find?_eq_some h)⟩

/-- Of the multiples on one grid that read back, the preferred neighbour is nearest. -/
theorem distance_le_of_find? {d other : Nat} (hPos : x.significand ≠ 0)
    (hFound : (x.neighbours e).find? (fun d => decide (x.ReadsBack d e)) = some d)
    (hOther : x.ReadsBack other e) : x.distance d e ≤ x.distance other e := by
  obtain ⟨below, hBelow, hAbove, hNeighbours⟩ := exists_neighbours_eq x e
  have hSide : other * x.stepWeight e ≤ below * x.stepWeight e ∨
      (below + 1) * x.stepWeight e ≤ other * x.stepWeight e :=
    (Nat.lt_or_ge below other).symm.imp (Nat.mul_le_mul_right _) (Nat.mul_le_mul_right _)
  have hNext : (below + 1) * x.stepWeight e = below * x.stepWeight e + x.stepWeight e :=
    Nat.succ_mul _ _
  unfold distance at hNeighbours ⊢
  -- The second neighbour is taken only when the first does not read back, and then nothing that
  -- lies behind the first does.
  rcases hNeighbours with ⟨hEq, hNear⟩ | ⟨hEq, hNear⟩
  · rw [hEq] at hFound
    rcases eq_or_of_find?_pair hFound with rfl | ⟨hFirst, rfl⟩
    · omega
    · have hBehind : ¬other * x.stepWeight e ≤ below * x.stepWeight e := fun hLe =>
        of_decide_eq_false hFirst (hOther.between hPos (.inl ⟨hLe, hBelow⟩))
      omega
  · rw [hEq] at hFound
    rcases eq_or_of_find?_pair hFound with rfl | ⟨hFirst, rfl⟩
    · omega
    · have hBehind : ¬(d + 1) * x.stepWeight e ≤ other * x.stepWeight e := fun hLe =>
        of_decide_eq_false hFirst (hOther.between hPos (.inr ⟨hAbove.le, hLe⟩))
      omega

theorem exists_of_findSome?_range {β : Type} {f : Nat → Option β} {bound : Nat} {b : β}
    (h : (List.range bound).findSome? f = some b) :
    ∃ n < bound, f n = some b ∧ ∀ m < n, f m = none := by
  induction bound with
  | zero => cases h
  | succ bound ih =>
      rw [List.range_succ, List.findSome?_append, Option.or_eq_some_iff] at h
      rcases h with hBefore | ⟨hNone, hLast⟩
      · obtain ⟨n, hLess, hFound⟩ := ih hBefore
        exact ⟨n, by omega, hFound⟩
      · refine ⟨bound, by omega, by simpa using hLast, ?_⟩
        intro m hLess
        exact List.findSome?_eq_none_iff.mp hNone m (List.mem_range.mpr hLess)

/-- The decimal `d · 10 ^ e` reads back, no other on its grid that does is nearer, and on the
coarser grids, from the one of the leading digit on, none does. -/
structure IsShortest (x : Magnitude) (d : Nat) (e : Int) : Prop where
  readsBack : x.ReadsBack d e
  nearest : ∀ other, x.ReadsBack other e → x.distance d e ≤ x.distance other e
  coarsest : ∀ n : Nat, e < x.pointPlace - 1 - n →
    ∀ other, ¬x.ReadsBack other (x.pointPlace - 1 - n)

/-- **The search finds the shortest decimal.** -/
theorem isShortest_of_search {d : Nat} (hPos : x.significand ≠ 0) (h : x.search = some (d, e)) :
    x.IsShortest d e := by
  obtain ⟨found, -, hFound, hBefore⟩ := exists_of_findSome?_range h
  obtain ⟨_, hNeighbour, hEq⟩ := Option.map_eq_some_iff.mp hFound
  cases hEq
  refine ⟨readsBack_of_search h, fun _ => distance_le_of_find? hPos hNeighbour, ?_⟩
  intro n hCoarser other hReads
  obtain ⟨near, hMem, hNear⟩ := exists_neighbour_readsBack hReads hPos
  have hNone := hBefore n (by omega)
  dsimp only at hNone
  rw [Option.map_eq_none_iff, List.find?_eq_none] at hNone
  exact hNone near hMem (by simpa using hNear)

end Magnitude

/-- **Every finite float but zero is written by the shortest decimal.** -/
theorem Binary.isShortest_shortest {bits : Nat} {negative : Bool} {size : Magnitude}
    (h : ofBits bits = .finite negative size) (hPos : size.significand ≠ 0) :
    size.IsShortest size.shortest.1 size.shortest.2 :=
  Magnitude.isShortest_of_search hPos (Magnitude.search_eq_shortest hPos (significand_lt h))

end FlavorTable
