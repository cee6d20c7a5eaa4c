/-
# `Proofs.Schema.Bounds` — which bounds a schema can have

A configuration is refused when a lower bound is above its upper one, and so
the bounds of a schema do not contradict each other — but what the build steps
ask is only whether one bound is *not* above the other, of the options as they
are given.

**Counts.**  The least length, number of items or number of arguments is always
an integer that is not negative.  It is not above the greatest one as long as
the two are compared exactly, which they are unless one of them is of fixed
representation: then both may be rounded for the comparison, and are kept
unrounded.

**Numbers.**  The least and the greatest number may also be no numbers at all,
which nothing is below or above.  Those that are numbers are in order, and a
value that is accepted lies between them.
-/
import Conform.Proofs.Schema.Finished
import Conform.Proofs.Value.Ordered

namespace Conform

/-- An integer in value, whatever represents it. -/
def Value.StandsFor (v : Value) (n : Int) : Prop := v.isInteger = true ∧ v.toInt = .ok n

/-- A lower bound of a count with the upper one, which may be absent.  The lower
one is not negative and, where they are compared exactly, not above the upper
one. -/
def Value.BoundsCount (exact : Prop) (low high : Value) : Prop :=
  ∃ n : Nat, low.StandsFor n ∧
    (high = .none ∨ ∃ m : Int, high.StandsFor m ∧ (exact → (n : Int) ≤ m))

/-- What the build steps leave to be said about the bounds of a demand. -/
def Demand.InOrder (exact : Prop) : Demand → Prop
  | string most least _ | array most least _ _ =>
      (Value.int least).BoundsCount exact (optional .int most)
  | function most least _ => least.BoundsCount exact (optional id most)
  | number _ _ _ most least =>
      ∀ low high, least = some low → most = some high → low.holds .gt high = .ok false
  | _ => True

/-! ## Bounds of counts -/

namespace Value

theorem standsFor_int (n : Int) : (Value.int n).StandsFor n := ⟨rfl, rfl⟩

theorem StandsFor.le {v w : Value} {m n : Int} (hv : v.StandsFor m) (hw : w.StandsFor n)
    (hvfixed : v.isFixed = false) (hwfixed : w.isFixed = false)
    (hnot : v.holds .lt w = .ok false) : n ≤ m := by
  rw [holds_of_integers .lt hv.1 hw.1 hvfixed hwfixed hv.2 hw.2] at hnot
  by_contra hlt
  rw [Int.compare_eq_lt.mpr (by omega)] at hnot
  cases hnot

/-- Beside a double of fixed representation an integer is rounded, and then it
need not be above what it exceeds. -/
example : (Value.holds .lt (.scalar (.float64 (.ofInt 9007199254740992)))
    (.int 9007199254740993)).toOption = some false := by
  decide +kernel

theorem BoundsCount.mono {exact exact' : Prop} {low high : Value} (h : low.BoundsCount exact high)
    (himp : exact' → exact) : low.BoundsCount exact' high := by
  obtain ⟨n, hn, hhigh⟩ := h
  refine ⟨n, hn, hhigh.imp_right ?_⟩
  rintro ⟨m, hm, hle⟩
  exact ⟨m, hm, fun hexact => hle (himp hexact)⟩

end Value

theorem Demand.InOrder.mono {exact exact' : Prop} {d : Demand} (h : d.InOrder exact)
    (himp : exact' → exact) : d.InOrder exact' := by
  cases d with
  | string | array | function => exact Value.BoundsCount.mono h himp
  | _ => exact h

namespace Options

variable {config : Entries} {least most : String} {expects expects' : Expectation}
  {low high v w : Value}

theorem boundsCount_of_options (hlow : lowerBound config least expects = .ok low)
    (hhigh : upperBound config most expects' low = .ok high) :
    low.BoundsCount (Entries.Everywhere (fun w => !w.isFixed) config) high := by
  have hint := lowerBound_ok hlow
  obtain ⟨n, hn⟩ := Value.toInt_of_isInteger hint
  have hnonneg : 0 ≤ n := by
    refine Value.nonneg_of_not_below hint hn ?_
    rcases lowerBound_cases hlow with ⟨-, rfl⟩ | ⟨-, -, hbelow⟩
    · exact holds_lt_int 0 0
    · exact hbelow
  obtain ⟨k, rfl⟩ := Int.eq_ofNat_of_zero_le hnonneg
  refine ⟨k, ⟨hint, hn⟩, ?_⟩
  rcases upperBound_cases hhigh with ⟨-, rfl⟩ | ⟨-, hhint, hbelow⟩
  · exact .inl rfl
  · obtain ⟨m, hm⟩ := Value.toInt_of_isInteger hhint
    refine .inr ⟨m, ⟨hhint, hm⟩, fun hconfig => ?_⟩
    exact Value.StandsFor.le ⟨hhint, hm⟩ ⟨hint, hn⟩
      (Value.isFixed_of_isUnfixed (upperBound_everywhere Value.lenient_unfixed hconfig hhigh))
      (Value.isFixed_of_isUnfixed (lowerBound_everywhere Value.lenient_unfixed hconfig hlow)) hbelow

theorem wholeBound_standsFor {n : Int} (hv : v.StandsFor n) (h : wholeBound v = .ok w) :
    w = .int n := by
  unfold wholeBound at h
  split at h
  · cases hv.1
  · rw [hv.2] at h
    exact (Except.ok.inj h).symm

/-- Bounds keep their values when they are made plain integers. -/
theorem boundsCount_whole {exact : Prop} (h : low.BoundsCount exact high)
    (hlow : wholeBound low = .ok v) (hhigh : wholeBound high = .ok w) :
    v.BoundsCount exact w := by
  obtain ⟨n, hn, hupper⟩ := h
  obtain rfl := wholeBound_standsFor hn hlow
  refine ⟨n, Value.standsFor_int n, ?_⟩
  rcases hupper with rfl | ⟨m, hm, hle⟩
  · exact .inl (Except.ok.inj hhigh).symm
  · obtain rfl := wholeBound_standsFor hm hhigh
    exact .inr ⟨m, Value.standsFor_int m, hle⟩

/-! ## What each build step leaves -/

theorem orderBounds_ok (hlow : low.isNone = false) (hhigh : high.isNone = false)
    (h : orderBounds low high = .ok ()) : low.holds .gt high = .ok false := by
  simp only [orderBounds, hlow, hhigh, Bool.not_false, Bool.and_self, if_true, bind_eq_ok,
    lift_eq_ok] at h
  obtain ⟨above, habove, h⟩ := h
  cases above with
  | true => cases h
  | false => exact habove

theorem own_inOrder {f : Factory} {d : Demand} (hproper : d.Proper)
    (h : own f config d.kind = .ok d.attributes) :
    d.InOrder (Entries.Everywhere (fun w => !w.isFixed) config) := by
  unfold own at h
  cases d with
  | string most least pattern =>
      simp only [Demand.kind, reduceCtorEq, if_false, ofKind, Build.result_lift, string,
        bind_eq_ok, lift_eq_ok] at h
      obtain ⟨low, hlow, high, hhigh, _, -, w, hw, v, hv, h⟩ := h
      obtain ⟨rfl, rfl, -⟩ : w = optional .int most ∧ v = .int least ∧ _ := by
        simpa [Demand.attributes] using h
      exact boundsCount_whole (boundsCount_of_options hlow hhigh) hv hw
  | array most least item unique =>
      simp only [Demand.kind, reduceCtorEq, if_false, ofKind, array, Build.result_bind,
        Build.result_lift, Build.result_lift_fault, bind_eq_ok, lift_eq_ok] at h
      obtain ⟨low, hlow, high, hhigh, _, -, _, -, w, hw, v, hv, _, -, h⟩ := h
      obtain ⟨rfl, rfl, -⟩ : w = optional .int most ∧ v = .int least ∧ _ := by
        simpa [Demand.attributes] using h
      exact boundsCount_whole (boundsCount_of_options hlow hhigh) hv hw
  | function most least named =>
      simp only [Demand.kind, reduceCtorEq, if_false, ofKind, Build.result_lift, function,
        bind_eq_ok, lift_eq_ok] at h
      obtain ⟨low, hlow, high, hhigh, _, -, h⟩ := h
      obtain ⟨rfl, rfl, -⟩ : high = optional id most ∧ low = least ∧ _ := by
        simpa [Demand.attributes] using h
      exact boundsCount_of_options hlow hhigh
  | number exclusiveMax exclusiveMin integer most least =>
      simp only [Demand.kind, reduceCtorEq, if_false, ofKind, Build.result_lift, number,
        bind_eq_ok, lift_eq_ok] at h
      obtain ⟨high, hhigh, low, hlow, _, horder, _, -, _, -, _, -, h⟩ := h
      obtain ⟨-, -, -, rfl, rfl⟩ :
          _ ∧ _ ∧ _ ∧ high = optional id most ∧ low = optional id least := by
        simpa [Demand.attributes] using h
      rintro low high rfl rfl
      exact orderBounds_ok (isNone_of_isReal (hproper.2 low rfl))
        (isNone_of_isReal (hproper.1 high rfl)) horder
  | _ => trivial

end Options

/-! ## Schemas inside -/

/-- What is inside a compiled configuration was read as a plan with its bounds in
order. -/
theorem plan_inOrder {c : Value} {s : Schema} {t : Instance}
    (hs : Registry.builtin.compile c .none = .ok s) (ht : s.Inside (.single t)) :
    ∃ (p : Plan) (hash : String), t = p.toInstance hash ∧ p.demand.Proper ∧ p.demand.Legible ∧
      p.demand.InOrder (c.isUnfixed = true) ∧ ∀ u ∈ p.demand.parts, u.Compiled := by
  obtain ⟨config, required, hnested, hcompile⟩ := makes_inside hs ht t (List.mem_singleton.mpr rfl)
  obtain ⟨u, k, heq, -, hread⟩ := compile_dict_ok.mp hcompile
  obtain rfl := Schema.single.inj heq
  simp only [Options.readInstance, Options.readAttributes, bind_eq_ok, pure_eq_ok] at hread
  obtain ⟨_, ⟨common, hcommon, more, hmore, rfl⟩, hash, hhash, rfl⟩ := hread
  obtain ⟨d, rfl, rfl, hreads, hd⟩ := Options.own_reads hmore
  obtain ⟨p, rfl, rfl, rfl, -⟩ := Options.typed_ok hcommon d required
  have hproper := hd compiles_compile
  refine ⟨p, hash, rfl, hproper, p.legible_of_hash hproper (lift_eq_ok.mp hhash),
    (Options.own_inOrder hproper hmore).mono fun hc => ?_, hreads.parts compiles_compile⟩
  exact (Value.everywhere_dict.mp (Value.lenient_unfixed.merges.nested hnested hc)).2.typed
    Value.lenient_unfixed

/-- The options that bound a count: a length, or a number of items or of
arguments. -/
def Kind.countBounds? : Kind → Option (String × String)
  | .string => some ("min_length", "max_length")
  | .array => some ("min_items", "max_items")
  | .function => some ("min_arguments", "max_arguments")
  | _ => none

section plan

variable {p : Plan} {hash : String}

theorem Plan.boundsCount {exact : Prop} {k : Kind} {least most : String}
    (horder : p.demand.InOrder exact) (hnames : k.countBounds? = some (least, most))
    (hk : p.demand.kind = k) :
    ∃ low high, (p.toInstance hash).get least = .ok low ∧
      (p.toInstance hash).get most = .ok high ∧ low.BoundsCount exact high := by
  subst hk
  cases hd : p.demand with
  | string =>
      rw [hd] at horder hnames
      cases hnames
      exact ⟨_, _, Plan.get_of_demand hash hd "min_length" (by decide) rfl,
        Plan.get_of_demand hash hd "max_length" (by decide) rfl, horder⟩
  | array =>
      rw [hd] at horder hnames
      cases hnames
      exact ⟨_, _, Plan.get_of_demand hash hd "min_items" (by decide) rfl,
        Plan.get_of_demand hash hd "max_items" (by decide) rfl, horder⟩
  | function =>
      rw [hd] at horder hnames
      cases hnames
      exact ⟨_, _, Plan.get_of_demand hash hd "min_arguments" (by decide) rfl,
        Plan.get_of_demand hash hd "max_arguments" (by decide) rfl, horder⟩
  | _ =>
      rw [hd] at hnames
      cases hnames

/-- The two bounds of a number, of which both may be absent. -/
structure Instance.Bounded (t : Instance) (low high : Value) : Prop where
  least : t.get "min" = .ok low
  most : t.get "max" = .ok high
  /-- Bounds that are set are in order, if they are numbers. -/
  ordered : low ≠ .none → high ≠ .none →
    (low.holds .le high = .ok true ↔ low.isNaN = false ∧ high.isNaN = false)
  /-- What is accepted lies above the least one, if that is a number … -/
  above : ∀ v lead, (Schema.single t).error v (.str lead) = .ok none → low ≠ .none →
    (low.holds .le v = .ok true ↔ low.isNaN = false)
  /-- … and below the greatest. -/
  below : ∀ v lead, (Schema.single t).error v (.str lead) = .ok none → high ≠ .none →
    (v.holds .le high = .ok true ↔ high.isNaN = false)

theorem Plan.demand_of_number (h : p.demand.kind = .number) :
    ∃ exclusiveMax exclusiveMin integer most least,
      p.demand = .number exclusiveMax exclusiveMin integer most least := by
  cases hd : p.demand with
  | number exclusiveMax exclusiveMin integer most least => exact ⟨_, _, _, _, _, rfl⟩
  | _ => rw [hd] at h; cases h

/-- A number that is accepted is within the bounds that are numbers. -/
theorem Plan.bounded {exact : Prop} (horder : p.demand.InOrder exact) (hproper : p.demand.Proper)
    (hlegible : p.demand.Legible) (hparts : ∀ u ∈ p.demand.parts, u.Compiled)
    (hk : p.demand.kind = .number) :
    ∃ low high, (p.toInstance hash).Bounded low high := by
  obtain ⟨exclusiveMax, exclusiveMin, integer, most, least, hd⟩ := Plan.demand_of_number hk
  have hreals := hproper
  rw [hd] at horder hreals
  have hmet : ∀ v lead, (Schema.single (p.toInstance hash)).error v (.str lead) = .ok none →
      (Demand.number exclusiveMax exclusiveMin integer most least).Met v := by
    intro v lead hv
    have haccepts := Schema.accepted_error_single hash hproper hlegible
      (fun u hu => (hparts u hu).settled) v lead
    rw [hv, accepted_none, eq_comm, Plan.accepts_eq_true, hd] at haccepts
    exact Demand.met_number.mp haccepts.2.2
  refine ⟨_, _, Plan.get_of_demand hash hd "min" (by decide) rfl,
    Plan.get_of_demand hash hd "max" (by decide) rfl, ?_, ?_, ?_⟩
  · intro hlow hhigh
    cases least with
    | none => exact absurd rfl hlow
    | some low =>
        cases most with
        | none => exact absurd rfl hhigh
        | some high =>
            exact Value.le_of_not_above (hreals.2 low rfl) (hreals.1 high rfl) (.inl rfl)
              (horder low high rfl rfl)
  · intro v lead hv hlow
    cases least with
    | none => exact absurd rfl hlow
    | some low =>
        cases hmet v lead hv with
        | number real number whole below above =>
            have hle := Value.le_of_not_below real (hreals.2 low rfl)
              (by cases exclusiveMin <;> simp [Instance.Side.lower]) above
            rwa [number, and_iff_left rfl] at hle
  · intro v lead hv hhigh
    cases most with
    | none => exact absurd rfl hhigh
    | some high =>
        cases hmet v lead hv with
        | number real number whole below above =>
            have hle := Value.le_of_not_above real (hreals.1 high rfl)
              (by cases exclusiveMax <;> simp [Instance.Side.upper]) below
            rwa [number, and_iff_right rfl] at hle

end plan

/-! ## All that is left to be said -/

/-- **Bounds do not contradict each other**, at any depth of what a
configuration compiles to.  Those of a count are integers in value, the lower
one not negative and, unless something in the configuration is of fixed
representation, not above the upper one.  Those of a number are in order as far
as they are numbers, and an accepted value lies between them. -/
theorem bounds_in_order {c : Value} {s : Schema} {t : Instance}
    (hs : Registry.builtin.compile c .none = .ok s) (ht : s.Inside (.single t)) :
    (∀ (k : Kind) (least most : String), k.countBounds? = some (least, most) →
      t.controller = k.label → ∃ low high, t.get least = .ok low ∧ t.get most = .ok high ∧
        low.BoundsCount (c.isUnfixed = true) high) ∧
    (t.controller = "number" → ∃ low high, t.Bounded low high) := by
  obtain ⟨p, hash, rfl, hproper, hlegible, horder, hparts⟩ := plan_inOrder hs ht
  rw [Plan.controller_toInstance]
  constructor
  · intro k least most hnames hlabel
    exact Plan.boundsCount horder hnames (Kind.eq_of_label hlabel)
  · intro hlabel
    exact Plan.bounded horder hproper hlegible hparts (Kind.eq_of_label (l := .number) hlabel)

/-! ## Witnesses -/

def rangeOptions (least : Value) : Entries :=
  [(.str "type", .str "number"), (.str "min", least), (.str "max", .int 5)]

def rangePlan (least : Value) : Plan :=
  .plain (.str "number") (.number false false false (some (.int 5)) (some least)) none

/-- An array of one or two numbers from zero to five. -/
def rangesOptions : Entries :=
  [(.str "type", .str "array"), (.str "min_items", .int 1), (.str "max_items", .int 2),
    (.str "schema", .dict (rangeOptions (.int 0)))]

def rangesPlan (hash : String) (required : Option Bool) : Plan :=
  .plain (.str "array")
    (.array (some 2) 1 (some (.single ((rangePlan (.int 0)).toInstance hash))) false) required

theorem compile_range {least : Value} (h : least = .int 0 ∨ least = .float .nan) :
    ∃ hash, Registry.builtin.compile (.dict (rangeOptions least)) .none
      = .ok (.single ((rangePlan least).toInstance hash)) := by
  rcases h with rfl | rfl
  · exact Plan.compile_of_digestible (p := rangePlan (.int 0)) (rangeOptions (.int 0))
      builtinControllers[4] rfl rfl rfl (fun _ => rfl) rfl
  · exact Plan.compile_of_digestible (p := rangePlan (.float .nan)) (rangeOptions (.float .nan))
      builtinControllers[4] rfl rfl rfl (fun _ => rfl) rfl

theorem compile_ranges (required : Option Bool) :
    ∃ hash hash', (compile .builtin (.dict rangesOptions)
        (optional (fun b => .dict (markEntries (some b))) required)).result
      = .ok (.single ((rangesPlan hash required).toInstance hash')) := by
  obtain ⟨hash, hitem⟩ := compile_range (.inl rfl)
  refine ⟨hash, Plan.compile_of_digestible (p := rangesPlan hash required) rangesOptions
    builtinControllers[1] rfl rfl rfl
    (fun _ => array_attributes rfl rfl rfl rfl rfl rfl hitem rfl) ?_⟩
  cases required <;> rfl

theorem bounds_in_order_nested :
    ∃ s t, Registry.builtin.compile (.dict rangesOptions) .none = .ok s ∧
      s.Inside (.single t) ∧ t.controller = "number" ∧ ∃ low high, t.Bounded low high := by
  obtain ⟨hash, hash', hs⟩ := compile_ranges none
  have ht : (Schema.single ((rangesPlan hash none).toInstance hash')).Inside
      (.single ((rangePlan (.int 0)).toInstance hash)) := by
    refine .part .self ?_
    rw [Plan.parts_toInstance]
    exact List.mem_singleton.mpr rfl
  exact ⟨_, _, hs, ht, rfl, (bounds_in_order hs ht).2 rfl⟩

/-- A least number that is none is in order with nothing, and no accepted number
lies above it. -/
theorem bounds_out_of_order : ∃ t,
    Registry.builtin.compile (.dict (rangeOptions (.float .nan))) .none = .ok (.single t) ∧
    t.get "min" = .ok (.float .nan) ∧ t.get "max" = .ok (.int 5) ∧
    Value.holds .le (.float .nan) (.int 5) = .ok false ∧
    (Schema.single t).error (.int 3) (.str "") = .ok none ∧
    Value.holds .le (.float .nan) (.int 3) = .ok false := by
  obtain ⟨hash, hs⟩ := compile_range (.inr rfl)
  refine ⟨_, hs, rfl, rfl, rfl, ?_, rfl⟩
  rw [Schema.error_single]
  rfl

end Conform
