/-
# `Proofs.Value.Written` — what can be written

Integers can be written up to a number of digits, and the forms of a value can
be had as far as the integers in them can.  What has a literal form has parts
that have one, and can also stand in running text.
-/
import Conform.Value.Literal
import Conform.Value.Class

namespace Conform

/-! ## Integers -/

namespace Number

theorem fitsDigits_iff {limit n : Nat} : fitsDigits limit n = true ↔ n < 10 ^ limit := by
  induction limit generalizing n with
  | zero => rw [fitsDigits, beq_iff_eq, Nat.pow_zero, Nat.lt_one_iff]
  | succ limit ih =>
      have hten : n / 10 < 10 ^ limit ↔ n < 10 ^ (limit + 1) := by
        rw [Nat.div_lt_iff_lt_mul (by decide), Nat.pow_succ]
      rw [fitsDigits, Bool.or_eq_true, decide_eq_true_iff, ih, hten, or_iff_right_iff_imp]
      intro hn
      calc n < 10 := hn
        _ ≤ 10 ^ (limit + 1) := Nat.le_self_pow (Nat.succ_ne_zero limit) 10

theorem isWritable_iff {n : Int} : isWritable n = true ↔ n.natAbs < 10 ^ digitLimit :=
  fitsDigits_iff

/-- The least integer that cannot be written. -/
def beyondDigits : Int := ((10 ^ digitLimit : Nat) : Int)

theorem isWritable_beyondDigits : isWritable beyondDigits = false := by
  rw [← Bool.not_eq_true, isWritable_iff, beyondDigits, Int.natAbs_natCast]
  exact Nat.lt_irrefl _

/-- An integer of few digits can be written. -/
theorem isWritable_of_lt {n : Int} {k : Nat} (hn : n.natAbs < 10 ^ k) (hk : k ≤ digitLimit) :
    isWritable n = true :=
  isWritable_iff.mpr (Nat.lt_of_lt_of_le hn (Nat.pow_le_pow_right (by decide) hk))

/-- So can one of few bits. -/
theorem isWritable_of_log2_lt {n : Int} {m k : Nat} (hn : n.natAbs ≤ m) (hm : m.log2 < k)
    (hk : k ≤ digitLimit) : isWritable n = true := by
  refine isWritable_of_lt ?_ hk
  have hbits : m < 2 ^ k := by
    by_cases hzero : m = 0
    · exact hzero ▸ Nat.two_pow_pos k
    · exact (Nat.log2_lt hzero).mp hm
  calc n.natAbs ≤ m := hn
    _ < 2 ^ k := hbits
    _ ≤ 10 ^ k := Nat.pow_le_pow_left (by decide) k

theorem text_error {n : Int} (h : isWritable n = false) : text n = .error .badValue :=
  if_neg (Bool.not_eq_true _ ▸ h)

end Number

theorem written_eq_ok {writable : Bool} {s t : String} :
    written writable s = .ok t ↔ writable = true ∧ s = t := by
  cases writable <;> simp [written]

theorem Pattern.Mode.options_le (m : Mode) : m.options ≤ 90 := by
  have := m.foldCase.toNat_le
  have := m.multiline.toNat_le
  have := m.dotAll.toNat_le
  have := m.verbose.toNat_le
  unfold options
  omega

/-- The bit set of a pattern is small. -/
theorem Pattern.isWritable_flags (p : Pattern) : Number.isWritable p.flags = true := by
  refine Number.isWritable_of_lt (k := 3) ?_ (by decide)
  rw [Int.natAbs_natCast]
  have hoptions := p.mode.options_le
  unfold flags
  split
  · unfold Mode.code
    split <;> omega
  · rename_i locale _
    have := locale.toNat_le
    split <;> omega

/-! ## Values -/

namespace Value

variable {v w : Value} {items : List Value} {entries : List (Value × Value)}

theorem haveLiterals_iff : haveLiterals items = true ↔ ∀ v ∈ items, v.hasLiteral = true := by
  induction items with
  | nil => exact iff_of_true rfl (List.forall_mem_nil _)
  | cons v rest ih => rw [haveLiterals, Bool.and_eq_true, ih, List.forall_mem_cons]

theorem entriesHaveLiterals_iff :
    entriesHaveLiterals entries = true ↔
      ∀ e ∈ entries, e.1.hasLiteral = true ∧ e.2.hasLiteral = true := by
  induction entries with
  | nil => exact iff_of_true rfl (List.forall_mem_nil _)
  | cons e rest ih =>
      rw [entriesHaveLiterals, Bool.and_eq_true, Bool.and_eq_true, ih, List.forall_mem_cons]

theorem hasLiteral_list : (list items).hasLiteral = true ↔ ∀ v ∈ items, v.hasLiteral = true :=
  haveLiterals_iff

theorem hasLiteral_tuple : (tuple items).hasLiteral = true ↔ ∀ v ∈ items, v.hasLiteral = true :=
  haveLiterals_iff

theorem hasLiteral_dict :
    (dict entries).hasLiteral = true ↔
      ∀ e ∈ entries, e.1.hasLiteral = true ∧ e.2.hasLiteral = true :=
  entriesHaveLiterals_iff

theorem hasLiteral_listed (h : v.hasLiteral = true) (hitems : v.listed? = some items) :
    ∀ w ∈ items, w.hasLiteral = true := by
  cases v with
  | list xs =>
      obtain rfl := Option.some.inj hitems
      exact hasLiteral_list.mp h
  | tuple xs =>
      obtain rfl := Option.some.inj hitems
      exact hasLiteral_tuple.mp h
  | _ => cases hitems

/-- Running text asks for no more than the literal form. -/
theorem hasDisplay_of_hasLiteral (h : v.hasLiteral = true) : v.hasDisplay = true := by
  cases v with
  | member m =>
      obtain ⟨family, name, content⟩ := m
      cases content with
      | number n => exact h
      | plain n | text s => rfl
  | _ => exact h

theorem hasLiteral_of_text {s : String} (h : v.text? = some s) : v.hasLiteral = true := by
  unfold text? at h
  split at h
  · rfl
  · rfl
  · cases h

theorem hasDisplay_of_text {s : String} (h : v.text? = some s) : v.hasDisplay = true :=
  hasDisplay_of_hasLiteral (hasLiteral_of_text h)

theorem literal_ok (h : v.hasLiteral = true) : v.literal = .ok v.spelling := if_pos h

/-- Values can be listed in their literal forms if each has one. -/
theorem mapM_literal (items : List Value) :
    items.mapM literal
      = if haveLiterals items then .ok (items.map spelling) else .error .badValue := by
  induction items with
  | nil => rfl
  | cons v rest ih =>
      rw [List.mapM_cons, ih, haveLiterals, literal, written]
      cases v.hasLiteral <;> cases haveLiterals rest <;> rfl

theorem describe_ok (h : v.hasLiteral = true) : v.describe = .ok v.shownSpelling := if_pos h

theorem display_ok (h : v.hasDisplay = true) : v.display = .ok v.bareSpelling := if_pos h

theorem asText_ok (h : v.hasDisplay = true) : v.asText = .ok v.textSpelling := if_pos h

theorem asText_error (h : v.hasDisplay = false) : v.asText = .error .badValue :=
  if_neg (Bool.not_eq_true _ ▸ h)

theorem describe_error (h : v.hasLiteral = false) : v.describe = .error .badValue :=
  if_neg (Bool.not_eq_true _ ▸ h)

theorem display_error (h : v.hasDisplay = false) : v.display = .error .badValue :=
  if_neg (Bool.not_eq_true _ ▸ h)

end Value

end Conform
