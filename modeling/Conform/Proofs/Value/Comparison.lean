/-
# `Proofs.Value.Comparison` — comparing with a bound has an answer

Plain numbers compare as they are.  Beside a number of fixed representation
a plain number is brought to a double when one of the two is one, and only
that can fail: an integer may lie beyond the doubles.  Integers of at most 64
bits do not.
-/
import Conform.Value.Class
import Conform.Value.Order
import Conform.Proofs.Value.Ordinary

namespace Conform

/-! ## Rounding -/

namespace Binary64

/-- A count of at most 53 significant bits, below the overflow bound. -/
theorem representable_shift {q step : Nat} (hq : q ≤ 2 ^ 53) (hstep : step < 2045) :
    representable (q <<< step) = true := by
  rw [Nat.shiftLeft_eq]
  have hlog : (q * 2 ^ step).log2 ≤ 53 + step := by
    rcases Nat.eq_zero_or_pos q with rfl | hpos
    · simp
    · have hle : q * 2 ^ step ≤ 2 ^ (53 + step) := by
        rw [Nat.pow_add]
        exact Nat.mul_le_mul_right _ hq
      have hne : q * 2 ^ step ≠ 0 := Nat.ne_of_gt (Nat.mul_pos hpos (Nat.two_pow_pos step))
      have hpow := Nat.le_trans (Nat.log2_self_le hne) hle
      exact (Nat.pow_le_pow_iff_right (by omega)).mp hpow
  have hdvd : 2 ^ ((q * 2 ^ step).log2 - 52) ∣ q * 2 ^ step := by
    rcases Nat.lt_or_ge (q * 2 ^ step).log2 (53 + step) with hlt | hge
    · exact Nat.dvd_mul_left_of_dvd (Nat.pow_dvd_pow 2 (by omega)) q
    · -- only the largest count has this many bits, and it is a power of two
      have hne : q * 2 ^ step ≠ 0 := by
        intro hzero
        rw [hzero, Nat.log2_zero] at hge
        omega
      have hself := Nat.log2_self_le hne
      have hq' : q = 2 ^ 53 := by
        refine Nat.le_antisymm hq ?_
        have hpow : 2 ^ (53 + step) ≤ q * 2 ^ step :=
          Nat.le_trans (Nat.pow_le_pow_right (by omega) hge) hself
        rw [Nat.pow_add] at hpow
        exact Nat.le_of_mul_le_mul_right hpow (Nat.two_pow_pos step)
      rw [hq', ← Nat.pow_add]
      refine Nat.pow_dvd_pow 2 ?_
      rw [Nat.log2_two_pow]
      omega
  rw [representable, Bool.and_eq_true, decide_eq_true_iff, beq_iff_eq]
  refine ⟨by omega, ?_⟩
  rw [Nat.shiftRight_eq_div_pow, Nat.shiftLeft_eq, Nat.div_mul_cancel hdvd]

/-- Rounding to 53 bits gives a double, if the count is not too large. -/
theorem representable_roundUnits {n k : Nat} (hn : n < 2 ^ k) (hk : k ≤ 2000) :
    representable (roundUnits 53 0 n 1) = true := by
  have hlog : n.log2 < 2000 := by
    rcases Nat.eq_zero_or_pos n with rfl | hpos
    · rw [Nat.log2_zero]
      omega
    · exact Nat.lt_of_lt_of_le ((Nat.log2_lt (by omega)).mpr hn) hk
  have hnear : ∀ num den : Nat, divNearest num den ≤ num / den + 1 := by
    intro num den
    unfold divNearest
    dsimp only
    split
    · omega
    · omega
    · split <;> omega
  unfold roundUnits
  dsimp only
  rw [Nat.div_one]
  refine representable_shift ?_ (by omega)
  refine Nat.le_trans (hnear _ _) ?_
  rw [Nat.shiftLeft_eq, Nat.one_mul]
  refine Nat.div_lt_of_lt_mul ?_
  rw [← Nat.pow_add]
  exact Nat.lt_of_lt_of_le Nat.lt_log2_self (Nat.pow_le_pow_right (by omega) (by omega))

theorem isFinite_ofInt {n : Int} (hn : n.natAbs < 2 ^ 65) : (ofInt n).isFinite = true := by
  have hscaled : ∀ e, n.natAbs * 1 <<< e < 2 ^ (65 + e) := by
    intro e
    rw [Nat.shiftLeft_eq, Nat.one_mul, Nat.pow_add]
    exact Nat.mul_lt_mul_of_pos_right hn (Nat.two_pow_pos e)
  have hunits : n.natAbs * unitsPerOne < 2 ^ (65 + 1074) := hscaled 1074
  unfold ofInt ofUnits
  dsimp only
  rw [dif_pos (representable_roundUnits hunits (by decide))]
  rfl

end Binary64

/-- An integer within its format is within the doubles. -/
theorem IntegerFormat.isFinite_ofInt {f : IntegerFormat} {n : Int} (h : f.holds n = true) :
    (Binary64.ofInt n).isFinite = true := by
  refine Binary64.isFinite_ofInt ?_
  rw [holds, Bool.and_eq_true, decide_eq_true_iff, decide_eq_true_iff] at h
  have hbounds : -(2 ^ 63 : Int) ≤ f.least ∧ f.least + ((1 <<< f.bits : Nat) : Int) ≤ 2 ^ 64 := by
    cases f <;> decide
  omega

namespace Value

/-! ## Operands -/

/-- A number as it is, or one of fixed representation that its format can
hold. -/
def isHeld : Value → Bool
  | .scalar (.integer f n) => f.holds n
  | _ => true

/-- A fractional number of fixed representation. -/
def isFloating : Value → Bool
  | .scalar (.float64 _) | .scalar (.float32 _) => true
  | _ => false

/-- Whether a number, or the number of arguments of a callable, lies within
the doubles. -/
def converts : Value → Bool
  | .int n | .member ⟨_, _, .number n⟩ => (Binary64.ofInt n).isFinite
  | .callable f => f.argumentCount?.all fun (n : Nat) => (Binary64.ofInt n).isFinite
  | _ => true

end Value

theorem Callable.converts_arguments (f : Callable) {n : Nat} (hn : f.argumentCount? = some n)
    (h : (Value.callable f).converts = true) : (Value.int n).converts = true := by
  rw [Value.converts, hn, Option.all_some] at h
  rw [Value.converts]
  exact h

namespace Operand

/-- An operand of one position. -/
def IsPosition (s : Stance) (c : Cell) (x : Operand) : Prop := ∃ f, x = ⟨s, ⟨f, [], [c]⟩⟩

variable {s t : Stance} {c d : Cell} {a b : Operand}

/-- Numbers that a common format can hold have an order. -/
theorem compare_positions {c' d' : Cell} {x y : Amount} (k : Comparison) (ha : a.IsPosition s c)
    (hb : b.IsPosition t d) (htext : a.meet b ≠ .text) (hc : c.into (a.comparing b) = .ok c')
    (hd : d.into (a.comparing b) = .ok d') (hx : c'.amount? = some x) (hy : d'.amount? = some y) :
    compare k a b = .ok ⟨.bool, [], [.bool (k.accepts (x.compare? y))]⟩ := by
  have hcheck : checkText a b = .ok () := by
    simp [checkText, htext]
  have horder : c'.order? d' = .ok (x.compare? y) := by
    simp [Cell.order?, hx, hy]
  have hside : sideBySide (a.comparing b) a b = .ok ([], [(c', d')]) := by
    generalize a.comparing b = f at hc hd
    obtain ⟨g, rfl⟩ := ha
    obtain ⟨h, rfl⟩ := hb
    simp only [sideBySide, List.mapM_cons, List.mapM_nil, hc, hd]
    rfl
  rw [compare, hcheck, hside]
  show (List.mapM (fun e : Cell × Cell => _) [(c', d')] >>= fun cells => _ : Except Fault Tensor) = _
  simp only [List.mapM_cons, horder]
  rfl

/-- They have none when the first does not fit into the format. -/
theorem compare_overflow (k : Comparison) (ha : a.IsPosition s c) (htext : a.meet b ≠ .text)
    (hc : c.into (a.comparing b) = .error .overflow) : compare k a b = .error .overflow := by
  have hcheck : checkText a b = .ok () := by
    simp [checkText, htext]
  have hside : sideBySide (a.comparing b) a b = .error .overflow := by
    generalize a.comparing b = f at hc
    obtain ⟨g, rfl⟩ := ha
    simp only [sideBySide, List.mapM_cons, List.mapM_nil, hc]
    rfl
  rw [compare, hcheck, hside]
  rfl

end Operand

namespace Value

/-! ## Numbers as operands -/

theorem integerTensor_eq (n : Int) : ∃ f, integerTensor n = ⟨f, [], [.int n]⟩ := by
  unfold integerTensor
  split
  · exact ⟨_, rfl⟩
  · split
    · exact ⟨_, rfl⟩
    · exact ⟨_, rfl⟩

/-- An integer without a representation. -/
inductive IsInt (n : Int) : Value → Prop
  | int : IsInt n (.int n)
  | member (family name : String) : IsInt n (.member ⟨family, name, .number n⟩)

theorem IsInt.operand {n : Int} {v : Value} (h : IsInt n v) :
    ∃ x, v.operand = .ok x ∧ x.IsPosition .integer (.int n) := by
  obtain ⟨f, hf⟩ := integerTensor_eq n
  cases h with
  | int => exact ⟨⟨.integer, integerTensor n⟩, rfl, f, by rw [hf]⟩
  | member => exact ⟨⟨.integer, integerTensor n⟩, rfl, f, by rw [hf]⟩

/-- A comparison in which one side is of fixed representation is one of
operands. -/
theorem holds_of_fixed {v b : Value} {x y : Operand} (k : Comparison)
    (hsequence : v.listed? = .none) (hfixed : (v.isFixed || b.isFixed) = true)
    (hv : v.operand = .ok x) (hb : b.operand = .ok y) :
    v.holds k b = (x.compare k y >>= fun t => pure t.value) >>= truthy := by
  have hatoms : v.compareWith k b = v.compareAtoms k b := by
    cases v with
    | list | tuple => cases hsequence
    | _ => rfl
  have hoperands : v.compareAtoms k b
      = v.operand >>= fun x => b.operand >>= fun y => return (← x.compare k y).value := by
    unfold compareAtoms
    rw [if_pos hfixed]
  rw [holds, hatoms, hoperands, hv, hb]
  rfl

theorem holds_of_operands {v b : Value} {x y : Operand} (k : Comparison)
    (hsequence : v.listed? = .none) (hfixed : b.isFixed = true) (hv : v.operand = .ok x)
    (hb : b.operand = .ok y) :
    v.holds k b = (x.compare k y >>= fun t => pure t.value) >>= truthy :=
  holds_of_fixed k hsequence (by rw [hfixed, Bool.or_true]) hv hb

/-- Single positions that fit into the common format are compared there. -/
theorem holds_of_positions {v b : Value} {x y : Operand} {s t : Stance} {c d c' d' : Cell}
    {m n : Amount} (k : Comparison) (hsequence : v.listed? = .none) (hfixed : b.isFixed = true)
    (hv : v.operand = .ok x) (hb : b.operand = .ok y) (hx : x.IsPosition s c)
    (hy : y.IsPosition t d) (htext : x.meet y ≠ .text) (hc : c.into (x.comparing y) = .ok c')
    (hd : d.into (x.comparing y) = .ok d') (hm : c'.amount? = some m) (hn : d'.amount? = some n) :
    v.holds k b = .ok (k.accepts (m.compare? n)) := by
  rw [holds_of_operands k hsequence hfixed hv hb,
    Operand.compare_positions k hx hy htext hc hd hm hn]
  rfl

/-- Plain numbers have amounts, and these are compared. -/
theorem holds_of_amounts {v b : Value} {m n : Amount} (k : Comparison)
    (hv : v.isFixed = false) (hb : b.isFixed = false) (hm : v.amount? = some m)
    (hn : b.amount? = some n) : v.holds k b = .ok (k.accepts (m.compare? n)) := by
  have hatoms : v.compareWith k b = v.compareAtoms k b := by
    cases v with
    | list | tuple => cases hm
    | _ => rfl
  rw [holds, hatoms]
  unfold compareAtoms
  rw [hv, hb, Bool.or_false, if_neg Bool.false_ne_true]
  simp only [hm, hn]
  rfl

theorem double_int {n : Int} (h : (Binary64.ofInt n).isFinite = true) :
    (Cell.int n).double = .ok (.ofInt n) := by
  show (if (Binary64.ofInt n).isFinite then _ else _ : Except Fault Binary64) = _
  rw [if_pos h]

theorem into_beyond {n : Int} (h : (Binary64.ofInt n).isFinite = false) :
    (Cell.int n).into .float64 = .error .overflow := by
  have hdouble : (Cell.int n).double = .error .overflow := by
    show (if (Binary64.ofInt n).isFinite then _ else _ : Except Fault Binary64) = _
    rw [h, if_neg Bool.false_ne_true]
  rw [Cell.into, hdouble]
  rfl

section bounds

variable {v b : Value} {s : Scalar} (k : Comparison)

theorem scalar_isPosition (s : Scalar) :
    Operand.IsPosition (.fixed s.format) s.cell ⟨.fixed s.format, ⟨s.format, [], [s.cell]⟩⟩ :=
  ⟨_, rfl⟩

/-- An integer meets a number of fixed representation as it is, or as a
double. -/
theorem IsInt.exists_holds {n : Int} (hv : IsInt n v) (hs : (Value.scalar s).isReal = true)
    (hexact : (Binary64.ofInt n).isFinite = true ∨ (Value.scalar s).isFloating = false) :
    ∃ r, v.holds k (.scalar s) = .ok r := by
  have hsequence : v.listed? = .none := by
    cases hv with
    | int => rfl
    | member => rfl
  have hy := scalar_isPosition s
  obtain ⟨x, hx, f, rfl⟩ := hv.operand
  cases s with
  | integer g m =>
      exact ⟨_, holds_of_positions k hsequence rfl hx rfl ⟨f, rfl⟩ hy nofun rfl rfl rfl rfl⟩
  | float64 y =>
      have hinto : (Cell.int n).into .float64 = .ok (.float (.ofInt n)) := by
        rw [Cell.into, double_int (hexact.resolve_right nofun)]
        rfl
      exact ⟨_, holds_of_positions k hsequence rfl hx rfl ⟨f, rfl⟩ hy nofun hinto rfl rfl rfl⟩
  | float32 y =>
      have hinto : (Cell.int n).into .float32 = .ok (.float (Binary64.ofInt n).toSingle) := by
        rw [Cell.into, double_int (hexact.resolve_right nofun)]
        rfl
      exact ⟨_, holds_of_positions k hsequence rfl hx rfl ⟨f, rfl⟩ hy nofun hinto rfl rfl rfl⟩
  | bool => exact absurd hs Bool.false_ne_true

/-- A double meets it as a double. -/
theorem float_exists_holds (x : Binary64) (hs : (Value.scalar s).isReal = true)
    (hheld : (Value.scalar s).isHeld = true) : ∃ r, (Value.float x).holds k (.scalar s) = .ok r := by
  have hx : Operand.IsPosition .double (.float x) ⟨.double, ⟨.float64, [], [.float x]⟩⟩ := ⟨_, rfl⟩
  have hy := scalar_isPosition s
  cases s with
  | integer g m =>
      have hinto : (Cell.int m).into .float64 = .ok (.float (.ofInt m)) := by
        rw [Cell.into, double_int (IntegerFormat.isFinite_ofInt hheld)]
        rfl
      exact ⟨_, holds_of_positions k rfl rfl rfl rfl hx hy nofun rfl hinto rfl rfl⟩
  | float64 y => exact ⟨_, holds_of_positions k rfl rfl rfl rfl hx hy nofun rfl rfl rfl rfl⟩
  | float32 y => exact ⟨_, holds_of_positions k rfl rfl rfl rfl hx hy nofun rfl rfl rfl rfl⟩
  | bool => exact absurd hs Bool.false_ne_true

theorem amount?_of_isReal (hv : v.isReal = true) : ∃ m, v.amount? = some m := by
  unfold isReal at hv
  split at hv
  all_goals first | exact ⟨_, rfl⟩ | cases hv

/-- A number compares to any bound, if an integer among them has a double where
it needs one. -/
theorem exists_holds (hv : v.isReal = true) (hfixed : v.isFixed = false) (hb : b.isReal = true)
    (hheld : b.isHeld = true) (hexact : v.converts = true ∨ b.isFloating = false) :
    ∃ r, v.holds k b = .ok r := by
  obtain ⟨m, hm⟩ := amount?_of_isReal hv
  obtain ⟨n, hn⟩ := amount?_of_isReal hb
  cases hb' : b.isFixed with
  | false => exact ⟨_, holds_of_amounts k hfixed hb' hm hn⟩
  | true =>
      obtain ⟨s, rfl⟩ : ∃ s, b = .scalar s := by
        cases b with
        | scalar s => exact ⟨s, rfl⟩
        | tensor => cases hb
        | _ => cases hb'
      cases v with
      | int i => exact (IsInt.int (n := i)).exists_holds k hb hexact
      | float x => exact float_exists_holds k x hb hheld
      | member e =>
          obtain ⟨family, name, content⟩ := e
          cases content with
          | number i => exact (IsInt.member (n := i) family name).exists_holds k hb hexact
          | _ => cases hv
      | scalar => cases hfixed
      | _ => cases hv

/-- An integer beyond the doubles has no order beside a double of fixed
representation. -/
theorem holds_beyond {n : Int} (x : Binary64) (h : (Binary64.ofInt n).isFinite = false) :
    (Value.int n).holds k (.scalar (.float64 x)) = .error .overflow := by
  obtain ⟨y, hy, f, rfl⟩ := (IsInt.int (n := n)).operand
  have hposition : Operand.IsPosition .integer (.int n) ⟨.integer, ⟨f, [], [.int n]⟩⟩ := ⟨f, rfl⟩
  have hcompare : Operand.compare k ⟨.integer, ⟨f, [], [.int n]⟩⟩
      ⟨.fixed .float64, ⟨.float64, [], [.float x]⟩⟩ = .error .overflow :=
    Operand.compare_overflow k hposition nofun (into_beyond h)
  rw [holds_of_operands k rfl rfl hy rfl]
  exact congrArg (fun t => (t >>= fun t => pure t.value) >>= truthy) hcompare

end bounds

end Value

end Conform
