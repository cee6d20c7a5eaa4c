/-
# `Proofs.Value.Ordered` — the order behind the comparisons

Four comparisons can be asked of two numbers, from either side, and one order
answers all of them.  Beside a number of fixed representation both are brought
to a common format first, and that can fail; but it fails for all comparisons
alike, so one answer is enough to have the order.

An order is lacking only beside something that is not a number.  That is what
separates `¬ b < a` from `a ≤ b`, and bounds are checked by the former.

Between integers of no fixed representation the order is that of the integers.
In a common format they may have been rounded; only the sign is never lost.
-/
import Conform.Proofs.Outcome
import Conform.Proofs.Value.Comparison
import Conform.Proofs.Value.Key
import Conform.Value.Conversion

namespace Conform

/-- The comparison asked from the other side. -/
def Comparison.converse : Comparison → Comparison
  | .lt => .gt
  | .le => .ge
  | .gt => .lt
  | .ge => .le

theorem Comparison.accepts_converse (k : Comparison) (o : Option Ordering) :
    k.converse.accepts (o.map Ordering.swap) = k.accepts o := by
  cases o with
  | none => cases k <;> rfl
  | some o => cases k <;> cases o <;> rfl

namespace Binary64

theorem roundUnits_pos {precision least n : Nat} (hprecision : 0 < precision)
    (hn : 1 <<< least ≤ n) : 0 < roundUnits precision least n 1 := by
  have hnearest : ∀ num den : Nat, num / den ≤ divNearest num den := by
    intro num den
    unfold divNearest
    dsimp only
    split
    · exact Nat.le_refl _
    · exact Nat.le_succ _
    · split
      · exact Nat.le_refl _
      · exact Nat.le_succ _
  have hstep : ∀ step, 1 <<< step ≤ n → 0 < divNearest n (1 <<< step) <<< step := by
    intro step hle
    rw [Nat.one_shiftLeft] at hle ⊢
    have hdiv : 0 < n / 2 ^ step := Nat.div_pos hle (Nat.two_pow_pos step)
    rw [Nat.shiftLeft_eq]
    exact Nat.mul_pos (Nat.lt_of_lt_of_le hdiv (hnearest _ _)) (Nat.two_pow_pos step)
  unfold roundUnits
  dsimp only
  rw [Nat.div_one]
  refine hstep _ ?_
  rcases Nat.le_total (n.log2 + 1 - precision) least with hle | hle
  · rwa [Nat.max_eq_right hle]
  · rw [Nat.max_eq_left hle, Nat.one_shiftLeft]
    have hpos : n ≠ 0 := by
      rintro rfl
      rw [Nat.one_shiftLeft] at hn
      exact absurd hn (Nat.not_le_of_gt (Nat.two_pow_pos least))
    exact Nat.le_trans (Nat.pow_le_pow_right (by omega) (by omega)) (Nat.log2_self_le hpos)

theorem zero_above {m : Magnitude} (hm : 0 < m.units) :
    (zero false).compare? (.finite true m) = some .gt := by
  refine congrArg some (Int.compare_eq_gt.mpr ?_)
  show -(m.units : Int) < 0
  omega

/-- A number below zero by one at least keeps its sign in single precision. -/
theorem zero_above_toSingle {m : Magnitude} (hm : unitsPerOne ≤ m.units) :
    (zero false).compare? (toSingle (.finite true m)) = some .gt := by
  have hgrid : 1 <<< 925 ≤ m.units := by
    refine Nat.le_trans ?_ hm
    rw [unitsPerOne, Nat.one_shiftLeft, Nat.one_shiftLeft]
    apply Nat.pow_le_pow_right Nat.two_pos
    decide
  have hpos : 0 < roundUnits 24 925 m.units 1 := roundUnits_pos (by decide) hgrid
  simp only [toSingle]
  split
  · simp only [ofUnits]
    split
    · exact zero_above (roundUnits_pos (by decide) hpos)
    · rfl
  · rfl

end Binary64

/-! ## Amounts -/

namespace Amount

def isNaN : Amount → Bool
  | .int _ => false
  | .float x => x.isNaN

/-- Counting in units keeps the order of integers. -/
theorem compare_scaled (m n : Int) :
    compare (m * (Binary64.unitsPerOne : Int)) (n * Binary64.unitsPerOne) = compare m n := by
  have hpos : (0 : Int) < Binary64.unitsPerOne := Int.natCast_pos.mpr Binary64.unitsPerOne_pos
  rcases Int.lt_trichotomy m n with hlt | heq | hgt
  · rw [Int.compare_eq_lt.mpr hlt, Int.compare_eq_lt.mpr (Int.mul_lt_mul_of_pos_right hlt hpos)]
  · rw [heq, Int.compare_eq_eq.mpr rfl, Int.compare_eq_eq.mpr rfl]
  · rw [Int.compare_eq_gt.mpr hgt, Int.compare_eq_gt.mpr (Int.mul_lt_mul_of_pos_right hgt hpos)]

theorem compare?_swap (a b : Amount) : (a.compare? b).map Ordering.swap = b.compare? a := by
  have ints : ∀ m n : Int, (compare m n).swap = compare n m := fun m n =>
    Std.OrientedCmp.eq_swap.symm
  have signs : ∀ s t : Bool, (compare t.toNat s.toNat).swap = compare s.toNat t.toNat := by decide
  cases a with
  | int m =>
      cases b with
      | int n => simp [compare?, ints]
      | float y => cases h : y.compareInt? m <;> simp [compare?, h]
  | float x =>
      cases b with
      | int n => rfl
      | float y =>
          cases x <;> cases y <;>
            simp [compare?, Binary64.compare?, Binary64.signedUnits?, ints, signs]
          all_goals split <;> rfl

theorem compare?_eq_none_iff {a b : Amount} :
    a.compare? b = none ↔ a.isNaN = true ∨ b.isNaN = true := by
  cases a with
  | int m =>
      cases b with
      | int n => simp [compare?, isNaN]
      | float y =>
          cases y <;>
            simp [compare?, isNaN, Binary64.compareInt?, Binary64.signedUnits?, Binary64.isNaN]
  | float x =>
      cases b with
      | int n =>
          cases x <;>
            simp [compare?, isNaN, Binary64.compareInt?, Binary64.signedUnits?, Binary64.isNaN]
      | float y =>
          cases x <;> cases y <;>
            simp [compare?, isNaN, Binary64.compare?, Binary64.signedUnits?, Binary64.isNaN]

/-- Amounts compare like the units that they are worth. -/
theorem compare?_of_units {a b : Amount} {u v : Int} (ha : a.worth? = some (.inr u))
    (hb : b.worth? = some (.inr v)) : a.compare? b = some (compare u v) := by
  cases a with
  | int i =>
      obtain rfl := Sum.inr.inj (Option.some.inj ha)
      cases b with
      | int j =>
          obtain rfl := Sum.inr.inj (Option.some.inj hb)
          exact congrArg some (compare_scaled i j).symm
      | float y =>
          cases y with
          | finite s w =>
              obtain rfl := Sum.inr.inj (Option.some.inj hb)
              exact congrArg some Std.OrientedCmp.eq_swap.symm
          | _ => cases hb
  | float x =>
      cases x with
      | finite s w =>
          obtain rfl := Sum.inr.inj (Option.some.inj ha)
          cases b with
          | int j =>
              obtain rfl := Sum.inr.inj (Option.some.inj hb)
              rfl
          | float y =>
              cases y with
              | finite t z =>
                  obtain rfl := Sum.inr.inj (Option.some.inj hb)
                  rfl
              | _ => cases hb
      | _ => cases ha

/-- Amounts that are worth integers compare like these. -/
theorem compare?_of_worth {a b : Amount} {m n : Int}
    (ha : a.worth? = some (.inr (m * Binary64.unitsPerOne)))
    (hb : b.worth? = some (.inr (n * Binary64.unitsPerOne))) :
    a.compare? b = some (compare m n) := by
  rw [compare?_of_units ha hb, compare_scaled]

theorem exists_negative {x : Binary64} {n : Int} (hn : n < 0)
    (hx : (float x).worth? = some (.inr (n * Binary64.unitsPerOne))) :
    ∃ m, x = .finite true m ∧ Binary64.unitsPerOne ≤ m.units := by
  have hpos : (0 : Int) < Binary64.unitsPerOne := Int.natCast_pos.mpr Binary64.unitsPerOne_pos
  have hle : n * (Binary64.unitsPerOne : Int) ≤ -1 * Binary64.unitsPerOne :=
    Int.mul_le_mul_of_nonneg_right (by omega) (by omega)
  cases x with
  | finite s m =>
      have hunits := Sum.inr.inj (Option.some.inj hx)
      cases s with
      | false =>
          have hnonneg : (m.units : Int) = n * Binary64.unitsPerOne := hunits
          omega
      | true =>
          have hsigned : -(m.units : Int) = n * Binary64.unitsPerOne := hunits
          exact ⟨m, rfl, by omega⟩
  | _ => cases hx

end Amount

/-! ## Positions in a common format -/

theorem Binary64.isNaN_toSingle (x : Binary64) : x.toSingle.isNaN = x.isNaN := by
  cases x with
  | finite s m =>
      simp only [toSingle]
      split
      · simp only [ofUnits]
        split <;> rfl
      · rfl
  | _ => rfl

theorem Cell.isNaN_of_double {c : Cell} {x : Amount} {z : Binary64} (hx : c.amount? = some x)
    (h : c.double = .ok z) : z.isNaN = x.isNaN := by
  simp only [double, hx] at h
  cases x with
  | int n =>
      simp only [Amount.double] at h
      split at h
      · rename_i hfinite
        obtain rfl := Except.ok.inj h
        cases hn : Binary64.ofInt n with
        | finite => rfl
        | _ =>
            rw [hn] at hfinite
            cases hfinite
      · cases h
  | float y =>
      obtain rfl := Except.ok.inj h
      rfl

/-- A format takes numbers to numbers, and none of them away from what is not
a number. -/
theorem Cell.amount?_of_into {f : ElementFormat} {c d : Cell} {x : Amount}
    (hx : c.amount? = some x) (h : c.into f = .ok d) :
    ∃ y, d.amount? = some y ∧ y.isNaN = x.isNaN := by
  unfold Cell.into at h
  split at h
  · split at h
    · obtain rfl := Except.ok.inj h
      exact ⟨_, rfl, by rw [← Option.some.inj hx]⟩
    · cases h
  · obtain rfl := Except.ok.inj h
    exact ⟨_, rfl, by rw [← Option.some.inj hx]⟩
  · obtain ⟨z, hz, h⟩ := bind_eq_ok.mp h
    obtain rfl := Except.ok.inj h
    exact ⟨_, rfl, isNaN_of_double hx hz⟩
  · obtain ⟨z, hz, h⟩ := bind_eq_ok.mp h
    obtain rfl := Except.ok.inj h
    exact ⟨_, rfl, z.isNaN_toSingle.trans (isNaN_of_double hx hz)⟩
  · obtain rfl := Except.ok.inj h
    exact ⟨_, hx, rfl⟩
  · cases hx
  · obtain rfl := Except.ok.inj h
    exact ⟨_, hx, rfl⟩
  · cases h

theorem ElementFormat.join_comm (f g : ElementFormat) : f.join g = g.join f := by
  cases f with
  | integer i =>
      cases g with
      | integer j => cases i <;> cases j <;> rfl
      | _ => cases i <;> rfl
  | _ =>
      cases g with
      | integer j => cases j <;> rfl
      | _ => rfl

theorem Stance.meet_comm (s t : Stance) : s.meet t = t.meet s := by
  cases s with
  | fixed f =>
      cases t with
      | fixed g => exact f.join_comm g
      | _ => rfl
  | _ => cases t <;> rfl

namespace Operand

variable {a b : Operand} {s t : Stance} {c d : Cell}

theorem comparing_comm (a b : Operand) : a.comparing b = b.comparing a := by
  have hmeet : a.meet b = b.meet a := a.stance.meet_comm b.stance
  unfold comparing
  rw [hmeet]
  cases a.stance with
  | fixed f => cases f <;> cases b.stance with
    | fixed g => cases g <;> rfl
    | _ => rfl
  | _ => cases b.stance with
    | fixed g => cases g <;> rfl
    | _ => rfl

theorem checkText_comm (a b : Operand) : checkText a b = checkText b a := by
  have hmeet : a.meet b = b.meet a := a.stance.meet_comm b.stance
  rw [checkText, checkText, hmeet, Bool.or_comm]

/-- Two positions are checked, brought to the common format, and asked for
their order; only then is the comparison looked at. -/
theorem compare_eq (k : Comparison) (ha : a.IsPosition s c) (hb : b.IsPosition t d) :
    compare k a b = do
      checkText a b
      let c' ← c.into (a.comparing b)
      let d' ← d.into (a.comparing b)
      let o ← c'.order? d'
      return ⟨.bool, [], [.bool (k.accepts o)]⟩ := by
  have hcells : a.tensor.cells = [c] ∧ a.tensor.shape = [] := by
    obtain ⟨f, rfl⟩ := ha
    exact ⟨rfl, rfl⟩
  have hothers : b.tensor.cells = [d] ∧ b.tensor.shape = [] := by
    obtain ⟨f, rfl⟩ := hb
    exact ⟨rfl, rfl⟩
  rw [compare]
  refine congrArg _ (funext fun _ => ?_)
  rw [sideBySide, hcells.1, hcells.2, hothers.1, hothers.2]
  simp only [List.mapM_cons, List.mapM_nil]
  cases c.into (a.comparing b) with
  | error e => rfl
  | ok c' =>
      cases d.into (a.comparing b) with
      | error e => rfl
      | ok d' =>
          show (List.mapM (fun e : Cell × Cell => _) [(c', d')] >>= fun cells => _ :
            Except Fault Tensor) = c'.order? d' >>= fun o => pure _
          simp only [List.mapM_cons, List.mapM_nil]
          cases c'.order? d' <;> rfl

/-- One comparison of two numbers with an answer gives the order by which all
of them answer, from either side. -/
theorem exists_order {x y : Amount} {k : Comparison} {r : Tensor} (ha : a.IsPosition s c)
    (hb : b.IsPosition t d) (hx : c.amount? = some x) (hy : d.amount? = some y)
    (h : compare k a b = .ok r) :
    ∃ o, (∀ k, compare k a b = .ok ⟨.bool, [], [.bool (k.accepts o)]⟩) ∧
      (∀ k, compare k b a = .ok ⟨.bool, [], [.bool (k.accepts (o.map Ordering.swap))]⟩) ∧
      (o = none ↔ x.isNaN = true ∨ y.isNaN = true) := by
  rw [compare_eq k ha hb] at h
  obtain ⟨⟨⟩, hcheck, h⟩ := bind_eq_ok.mp h
  obtain ⟨c', hc, h⟩ := bind_eq_ok.mp h
  obtain ⟨d', hd, -⟩ := bind_eq_ok.mp h
  obtain ⟨x', hx', hxNaN⟩ := Cell.amount?_of_into hx hc
  obtain ⟨y', hy', hyNaN⟩ := Cell.amount?_of_into hy hd
  have horder : ∀ {e f : Cell} {z w : Amount}, e.amount? = some z → f.amount? = some w →
      e.order? f = .ok (z.compare? w) := by
    intro e f z w hz hw
    simp only [Cell.order?, hz, hw]
  refine ⟨x'.compare? y', fun k => ?_, fun k => ?_, ?_⟩
  · rw [compare_eq k ha hb, hcheck, hc, hd, ok_bind, ok_bind, ok_bind, horder hx' hy']
    rfl
  · rw [compare_eq k hb ha, checkText_comm, hcheck, comparing_comm, hc, hd, ok_bind, ok_bind,
      ok_bind, horder hy' hx', Amount.compare?_swap]
    rfl
  · rw [Amount.compare?_eq_none_iff, hxNaN, hyNaN]

end Operand

namespace Value

variable {a b : Value} {m n : Amount}

/-! ## Numbers -/

/-- The order of two numbers: every comparison answers by it, from either
side, and it is lacking only beside what is not a number. -/
structure Ordered (a b : Value) (o : Option Ordering) : Prop where
  holds : ∀ k, a.holds k b = .ok (k.accepts o)
  swapped : ∀ k, b.holds k a = .ok (k.accepts (o.map Ordering.swap))
  eq_none_iff : o = Option.none ↔ a.isNaN = true ∨ b.isNaN = true

theorem isNaN_of_amount? (hm : a.amount? = some m) : a.isNaN = m.isNaN := by
  cases a with
  | bool | int | float => obtain rfl := Option.some.inj hm; rfl
  | member e =>
      obtain ⟨family, name, content⟩ := e
      cases content with
      | number n => obtain rfl := Option.some.inj hm; rfl
      | _ => cases hm
  | scalar s => cases s <;> (obtain rfl := Option.some.inj hm; rfl)
  | _ => cases hm

theorem listed?_of_amount? (hm : a.amount? = some m) : a.listed? = .none := by
  cases a with
  | list | tuple => cases hm
  | _ => rfl

/-- A number is an operand of one position that holds it. -/
theorem exists_operand (hm : a.amount? = some m) :
    ∃ s c x, a.operand = .ok x ∧ x.IsPosition s c ∧ c.amount? = some m := by
  cases a with
  | bool p => exact ⟨.flag, .bool p, _, rfl, ⟨.bool, rfl⟩, hm⟩
  | int i =>
      obtain ⟨x, hx, hposition⟩ := (IsInt.int (n := i)).operand
      exact ⟨.integer, .int i, x, hx, hposition, hm⟩
  | float x => exact ⟨.double, .float x, _, rfl, ⟨.float64, rfl⟩, hm⟩
  | member e =>
      obtain ⟨family, name, content⟩ := e
      cases content with
      | number i =>
          obtain ⟨x, hx, hposition⟩ := (IsInt.member (n := i) family name).operand
          exact ⟨.integer, .int i, x, hx, hposition, hm⟩
      | _ => cases hm
  | scalar s => exact ⟨_, _, _, rfl, scalar_isPosition s, hm⟩
  | _ => cases hm

/-- One comparison with an answer gives the order. -/
theorem exists_ordered {k : Comparison} {r : Bool} (hm : a.amount? = some m)
    (hn : b.amount? = some n) (h : a.holds k b = .ok r) : ∃ o, Ordered a b o := by
  cases hfixed : a.isFixed || b.isFixed with
  | false =>
      obtain ⟨ha, hb⟩ := Bool.or_eq_false_iff.mp hfixed
      refine ⟨m.compare? n, fun k => holds_of_amounts k ha hb hm hn, fun k => ?_, ?_⟩
      · rw [holds_of_amounts k hb ha hn hm, Amount.compare?_swap]
      · rw [Amount.compare?_eq_none_iff, isNaN_of_amount? hm, isNaN_of_amount? hn]
  | true =>
      obtain ⟨s, c, x, hx, hxposition, hc⟩ := exists_operand hm
      obtain ⟨t, d, y, hy, hyposition, hd⟩ := exists_operand hn
      have forth : ∀ k, a.holds k b = _ := fun k =>
        holds_of_fixed k (listed?_of_amount? hm) hfixed hx hy
      have back : ∀ k, b.holds k a = _ := fun k =>
        holds_of_fixed k (listed?_of_amount? hn) (by rwa [Bool.or_comm]) hy hx
      rw [forth k] at h
      obtain ⟨_, h, -⟩ := bind_eq_ok.mp h
      obtain ⟨r', hr', -⟩ := bind_eq_ok.mp h
      obtain ⟨o, hforth, hback, hnone⟩ := Operand.exists_order hxposition hyposition hc hd hr'
      refine ⟨o, fun k => ?_, fun k => ?_, ?_⟩
      · rw [forth k, hforth k]
        rfl
      · rw [back k, hback k]
        rfl
      · rw [hnone, isNaN_of_amount? hm, isNaN_of_amount? hn]

theorem Ordered.holds_converse {o : Option Ordering} (h : Ordered a b o) (k : Comparison) :
    b.holds k.converse a = a.holds k b := by
  rw [h.holds, h.swapped, Comparison.accepts_converse]

theorem Ordered.le_iff {o : Option Ordering} {k : Comparison} (h : Ordered a b o)
    (hk : k = .gt ∨ k = .ge) (habove : a.holds k b = .ok false) :
    a.holds .le b = .ok true ↔ a.isNaN = false ∧ b.isNaN = false := by
  have hnumbers : (a.isNaN = false ∧ b.isNaN = false) ↔ o ≠ Option.none := by
    rw [Ne, h.eq_none_iff, not_or, Bool.not_eq_true, Bool.not_eq_true]
  rw [h.holds] at habove
  rw [h.holds, hnumbers]
  cases o with
  | none => simp [Comparison.accepts]
  | some o => rcases hk with rfl | rfl <;> cases o <;> simp_all [Comparison.accepts]

theorem Ordered.symm {o : Option Ordering} (h : Ordered a b o) :
    Ordered b a (o.map Ordering.swap) where
  holds := h.swapped
  swapped k := by
    have hswap : (o.map Ordering.swap).map Ordering.swap = o := by cases o <;> simp
    rw [hswap, h.holds]
  eq_none_iff := by rw [Option.map_eq_none_iff, h.eq_none_iff, or_comm]

/-- What is not above a bound is at most the bound, if both are numbers. -/
theorem le_of_not_above {k : Comparison} (ha : a.isReal = true) (hb : b.isReal = true)
    (hk : k = .gt ∨ k = .ge) (h : a.holds k b = .ok false) :
    a.holds .le b = .ok true ↔ a.isNaN = false ∧ b.isNaN = false := by
  obtain ⟨m, hm⟩ := amount?_of_isReal ha
  obtain ⟨n, hn⟩ := amount?_of_isReal hb
  obtain ⟨o, ho⟩ := exists_ordered hm hn h
  exact ho.le_iff hk h

/-- What is not below a bound has the bound at most there. -/
theorem le_of_not_below {k : Comparison} (ha : a.isReal = true) (hb : b.isReal = true)
    (hk : k = .lt ∨ k = .le) (h : a.holds k b = .ok false) :
    b.holds .le a = .ok true ↔ b.isNaN = false ∧ a.isNaN = false := by
  obtain ⟨m, hm⟩ := amount?_of_isReal ha
  obtain ⟨n, hn⟩ := amount?_of_isReal hb
  obtain ⟨o, ho⟩ := exists_ordered hm hn h
  rw [← ho.holds_converse] at h
  refine ho.symm.le_iff ?_ h
  rcases hk with rfl | rfl
  · exact .inl rfl
  · exact .inr rfl

/-! ## Integers in value -/

/-- A number without a fractional part has an integer part, and is worth that. -/
theorem exists_whole (hint : a.isInteger = true) : ∃ m n, a.amount? = some m ∧
    a.toInt = .ok n ∧ m.worth? = some (.inr (n * Binary64.unitsPerOne)) := by
  have double : ∀ x : Binary64, x.isIntegral = true → ∃ n, truncated (.float x) = .ok n ∧
      (Amount.float x).worth? = some (.inr (n * Binary64.unitsPerOne)) := by
    intro x hx
    cases x with
    | finite s u =>
        have hdvd : (Binary64.unitsPerOne : Int) ∣ if s then -(u.units : Int) else u.units := by
          have hnat : (Binary64.unitsPerOne : Int) ∣ u.units :=
            Int.natCast_dvd_natCast.mpr
              (Nat.dvd_of_mod_eq_zero (by simpa [Binary64.isIntegral] using hx))
          split
          · exact Int.dvd_neg.mpr hnat
          · exact hnat
        exact ⟨_, rfl, by rw [Amount.worth?, Int.tdiv_mul_cancel hdvd]⟩
    | _ => cases hx
  cases a with
  | int i => exact ⟨_, i, rfl, rfl, rfl⟩
  | float x =>
      obtain ⟨n, hn, hworth⟩ := double x hint
      exact ⟨_, n, rfl, hn, hworth⟩
  | member e =>
      obtain ⟨family, name, content⟩ := e
      cases content with
      | number i => exact ⟨_, i, rfl, rfl, rfl⟩
      | _ => cases hint
  | scalar s =>
      cases s with
      | integer f i => exact ⟨_, i, rfl, rfl, rfl⟩
      | float64 x | float32 x =>
          obtain ⟨n, hn, hworth⟩ := double x hint
          exact ⟨_, n, rfl, hn, hworth⟩
      | bool => cases hint
  | _ => cases hint

/-- An integer has an integer part. -/
theorem toInt_of_isInteger (hint : a.isInteger = true) : ∃ n, a.toInt = .ok n := by
  obtain ⟨_, n, -, hn, -⟩ := exists_whole hint
  exact ⟨n, hn⟩

/-- Integers of no fixed representation compare like their integer parts. -/
theorem holds_of_integers {i j : Int} (k : Comparison) (ha : a.isInteger = true)
    (hb : b.isInteger = true) (hafixed : a.isFixed = false) (hbfixed : b.isFixed = false)
    (hi : a.toInt = .ok i) (hj : b.toInt = .ok j) :
    a.holds k b = .ok (k.accepts (some (compare i j))) := by
  obtain ⟨m, i', hm, hi', hmworth⟩ := exists_whole ha
  obtain ⟨n, j', hn, hj', hnworth⟩ := exists_whole hb
  obtain rfl := Except.ok.inj (hi.symm.trans hi')
  obtain rfl := Except.ok.inj (hj.symm.trans hj')
  rw [holds_of_amounts k hafixed hbfixed hm hn, Amount.compare?_of_worth hmworth hnworth]

/-- Zero stays above a negative integer of fixed representation: a common format may
round it, but keeps its sign. -/
theorem holds_zero_scalar {s : Scalar} {n : Int} (hint : (scalar s).isInteger = true)
    (hn : (scalar s).toInt = .ok n) (hneg : n < 0) : (int 0).holds .gt (scalar s) = .ok true := by
  obtain ⟨m, _, hm, hn', hworth⟩ := exists_whole hint
  obtain rfl := Except.ok.inj (hn.symm.trans hn')
  obtain ⟨x, hx, f, rfl⟩ := (IsInt.int (n := 0)).operand
  have hy := scalar_isPosition s
  have hzero : (Cell.int 0).double = .ok (.zero false) := by
    rw [double_int (by decide), show Binary64.ofInt 0 = .zero false by decide]
  cases s with
  | integer g i =>
      obtain rfl := Except.ok.inj hn
      rw [holds_of_positions .gt rfl rfl hx rfl ⟨f, rfl⟩ hy (by intro h; cases h) rfl rfl rfl
        rfl, Amount.compare?, Int.compare_eq_gt.mpr hneg]
      rfl
  | float64 y =>
      obtain rfl := Option.some.inj hm
      have hinto : (Cell.int 0).into .float64 = .ok (.float (.zero false)) := by
        rw [Cell.into, hzero]
        rfl
      obtain ⟨u, rfl, hu⟩ := Amount.exists_negative hneg hworth
      rw [holds_of_positions .gt rfl rfl hx rfl ⟨f, rfl⟩ hy (by intro h; cases h) hinto rfl
        rfl rfl, Amount.compare?,
        Binary64.zero_above (Nat.lt_of_lt_of_le Binary64.unitsPerOne_pos hu)]
      rfl
  | float32 y =>
      obtain rfl := Option.some.inj hm
      have hinto : (Cell.int 0).into .float32 = .ok (.float (.zero false)) := by
        rw [Cell.into, hzero]
        rfl
      obtain ⟨u, rfl, hu⟩ := Amount.exists_negative hneg hworth
      rw [holds_of_positions .gt rfl rfl hx rfl ⟨f, rfl⟩ hy (by intro h; cases h) hinto rfl
        rfl rfl, Amount.compare?, Binary64.zero_above_toSingle hu]
      rfl
  | bool => cases hint

/-- A bound that is not below zero has an integer part that is none either,
whatever its representation. -/
theorem nonneg_of_not_below {n : Int} (hint : a.isInteger = true) (hn : a.toInt = .ok n)
    (h : a.holds .lt (.int 0) = .ok false) : 0 ≤ n := by
  obtain ⟨m, -, hm, -⟩ := exists_whole hint
  obtain ⟨o, ho⟩ := exists_ordered hm rfl h
  -- seen from zero, so that the number of fixed representation stands on the right
  have hbelow : (Value.int 0).holds .gt a = .ok false := by
    rw [← h]
    exact ho.holds_converse .lt
  by_contra hneg
  have habove : (Value.int 0).holds .gt a = .ok true := by
    cases hfixed : a.isFixed with
    | false =>
        rw [holds_of_integers .gt rfl hint rfl hfixed rfl hn, Int.compare_eq_gt.mpr (by omega)]
        rfl
    | true =>
        cases a with
        | scalar s => exact holds_zero_scalar hint hn (by omega)
        | tensor => cases hint
        | _ => cases hfixed
  cases hbelow.symm.trans habove

end Value

end Conform
