/-
# `Proofs.Schema.Kept` — defaults that stay as they were configured

A missing value stands for the default of a schema, so what its normal form
shares with the schema is shared with the default.  Of a sheltered schema it is
nothing: whatever is done to the normal form, the default is still the one that
was configured, and the next missing value comes to the same normal form.

That a tuple is not copied leaves a gap.  A schema whose default is a tuple of lists
hands out these lists, unless it is an array and so are its items, which make lists of
their own.  This case and that of an array with other items stand at the end: there the
default is changed through a normal form, and the schema no longer accepts it.
-/
import Conform.Proofs.Schema.OneOf
import Conform.Proofs.Schema.Sheltered

namespace Conform

/-! ## Configured defaults -/

/-- A configuration, or one of those that it lists, states a default. -/
def Value.StatesDefault (c d : Value) : Prop :=
  ∃ config : Entries, .dict config ∈ c.listed?.getD [c] ∧ config.get? "default" = some d

theorem Plan.ReadFrom.default {p : Plan} {config : Entries} {required : Option Bool}
    (h : p.ReadFrom config required) (hdefault : p.hasDefault = true) :
    config.get? "default" = some p.default := by
  have hcommon := h.common
  simp only [Options.typed, bind_eq_ok] at hcommon
  obtain ⟨_, -, _, -, _, -, hcommon⟩ := hcommon
  obtain ⟨type, htype⟩ : ∃ type, (typedEntries config).1.get? "type" = some type :=
    ⟨_, get?_typedEntries config⟩
  simp only [htype, pure_eq, ok_bind, Plan.common, Except.ok.injEq, List.cons.injEq,
    Prod.mk.injEq, true_and] at hcommon
  obtain ⟨hvalue, -, hhas, -⟩ := hcommon
  rw [get?_typedEntries_of_ne config (by decide), hdefault, Value.bool.injEq,
    Option.isSome_iff_exists] at hhas
  obtain ⟨d, hd⟩ := hhas
  rw [Entries.getD, get?_typedEntries_of_ne config (by decide), hd] at hvalue
  rw [hd, ← hvalue]
  rfl

theorem states_of_single {c d : Value} {t : Instance}
    (h : (compileSingle (compile .builtin) .builtin c (mark none)).result = .ok t)
    (hdefault : t.flag "has_default" = .ok true) (hd : t.get "default" = .ok d) :
    ∃ config : Entries, c = .dict config ∧ config.get? "default" = some d := by
  have hread : ∀ config : Entries,
      (compileSingle (compile .builtin) .builtin (.dict config) (mark none)).result = .ok t →
      config.get? "default" = some d := by
    intro config hconfig
    obtain ⟨p, hash, heq, hread, -⟩ := plan_of_compile (compile_of_single hconfig)
    obtain rfl := Schema.single.inj heq
    obtain rfl := Except.ok.inj ((p.get_default hash).symm.trans hd)
    exact hread.default (Except.ok.inj ((p.flag_hasDefault hash).symm.trans hdefault))
  rcases compileSingle_cases c with rfl | ⟨config, rfl⟩ | ⟨e, he⟩
  · cases hread [] h
  · exact ⟨config, rfl, hread config h⟩
  · cases (he (compile .builtin) (mark none)).symm.trans h

theorem states_of_compile {c d : Value} {s : Schema}
    (hs : Registry.builtin.compile c .none = .ok s) (hdefault : s.hasDefault = .ok true)
    (hd : s.default = .ok d) : c.StatesDefault d := by
  rcases Schema.default_mem hd with ⟨-, hnone⟩ | ⟨t, ht, hflag, hget⟩
  · cases hdefault.symm.trans hnone
  · obtain ⟨w, hw, hsingle⟩ := single_of_member hs ht
    obtain ⟨config, rfl, hstates⟩ := states_of_single hsingle (hflag.trans hdefault) hget
    exact ⟨config, hw, hstates⟩

/-- **Results do not expose a default**, if no schema inside exposes its own.  Whoever
changes the containers of the normal form, the schema then brings a missing value to
the same normal form as before, and keeps its default, which is the configured one. -/
theorem default_kept {c d w : Value} {s : Schema} (change : Change)
    (hs : Registry.builtin.compile c .none = .ok s) (hdefault : s.hasDefault = .ok true)
    (hd : s.default = .ok d) (hsheltered : s.Sheltered) (hw : s.normalize .undefined = .ok w) :
    s.normalizeAgain change = .ok (w, d) ∧ c.StatesDefault d := by
  refine ⟨?_, states_of_compile hs hdefault hd⟩
  obtain ⟨v, hv, -⟩ := (compiled_of_compile hs).spares change hsheltered s.depth le_rfl
    .undefined w hw
  simp only [Schema.normalizeAgain, hw, ok_bind, Schema.follow, hv, hd, lift_ok, pure_eq]

/-! ## An array with a default that is not copied -/

section held

/-- An array whose default is a tuple that holds a list. -/
def heldOptions (item : Entries) : Entries :=
  [(.str "type", .str "array"), (.str "default", .tuple [.list [.int 1]]),
    (.str "schema", .dict item)]

def heldPlan (x : Value) (item : Schema) : Plan :=
  { Plan.plain (.str "array") (.array none 0 (some item) false) none with
    default := .tuple [x], hasDefault := true }

theorem compile_held {item : Entries} {t : Schema}
    (h : Registry.builtin.compile (.dict item) .none = .ok t) :
    ∃ hash, Registry.builtin.compile (.dict (heldOptions item)) .none
      = .ok (.single ((heldPlan (.list [.int 1]) t).toInstance hash)) :=
  Plan.compile_of_digestible (p := heldPlan (.list [.int 1]) t) (heldOptions item)
    builtinControllers[1] rfl rfl rfl
    (fun _ => array_attributes rfl rfl rfl rfl rfl rfl h rfl) rfl

variable {t : Schema} {x : Value} (hash : String)

theorem supplied_held : ((heldPlan x t).toInstance hash).supplied .undefined = .ok (.tuple [x]) := by
  rw [supplied_toInstance]
  rfl

theorem accepts_held (ht : t.Compiled) :
    (Schema.single ((heldPlan x t).toInstance hash)).accepts (.tuple [x]) = t.accepts x := by
  rw [Schema.accepts_single (p := heldPlan x t) hash trivial
    ⟨List.forall_mem_singleton.mpr rfl, nofun⟩ (List.forall_mem_singleton.mpr ht)]
  show askAll t.accepts [x] = _
  rw [askAll, List.mapM_cons, List.mapM_nil]
  rcases t.accepts x with e | (_ | _) <;> rfl

theorem normalize_held (ht : t.Compiled) {w : Value} (haccepts : t.accepts x = .ok true)
    (hw : t.normalize x = .ok w) :
    (Schema.single ((heldPlan x t).toInstance hash)).normalize .undefined = .ok (.list [w]) := by
  have hitems : Demand.finishedItems (some t) [x] = .ok [w] :=
    finishItems_eq_ok.mpr (.cons hw .nil)
  refine (normalize_settle rfl).mpr
    ⟨.tuple [x], supplied_held hash, (accepts_held hash ht).trans haccepts, ?_⟩
  rw [settle_items (p := heldPlan x t) rfl rfl, hitems]
  rfl

theorem normalize_held_failed (ht : t.Compiled) {e : Failure} (h : t.accepts x = .error e) :
    (Schema.single ((heldPlan x t).toInstance hash)).normalize .undefined = .error e := by
  rw [normalize_toInstance, supplied_held, ok_bind,
    Schema.accepts_eq_error.mp ((accepts_held hash ht).trans h)]
  rfl

/-- What becomes of the item, becomes of the default. -/
theorem followWithin_held {change : Change} {n : Nat} {y : Value}
    (h : Schema.followWithin change n t x = .ok (t, y)) :
    Schema.followWithin change (n + 1) (.single ((heldPlan x t).toInstance hash)) .undefined
      = .ok (.single ((heldPlan y t).toInstance hash), .undefined) := by
  have hitems : Instance.followItems (Schema.followWithin change n) (.schema t) [x]
      = .ok (.schema t, [y]) := by
    rw [Instance.followItems, h]
    rfl
  have harray : ((heldPlan x t).toInstance hash).followArray change
      (Schema.followWithin change n) (.tuple [x])
      = .ok ((heldPlan x t).toInstance hash, .tuple [y]) := by
    have hschema := Plan.get_of_demand (p := heldPlan x t) hash rfl "schema" (by decide) rfl
    simp only [Instance.followArray, hschema, lift_ok, ok_bind]
    show (Instance.followItems (Schema.followWithin change n) (.schema t) [x] >>= _) = _
    rw [hitems]
    rfl
  have hgiven : ((heldPlan x t).toInstance hash).followGiven change
      (Schema.followWithin change n) (.tuple [x])
      = .ok ((heldPlan x t).toInstance hash, .tuple [y]) := harray
  have hfresh : (heldPlan x t).default.freshDefault = .ok (.tuple [x]) := rfl
  simp only [Schema.followWithin, Schema.followWith, Plan.flag_hasDefault, lift_ok, ok_bind]
  show (Schema.followDefault _ (Schema.single ((heldPlan x t).toInstance hash)) >>= _) = _
  simp only [Schema.followDefault, Schema.default, Plan.get_default, hfresh, lift_ok, ok_bind,
    hgiven]
  rfl

end held

/-! ## Items that are arrays -/

/-- An array exposes what the schema of its items exposes. -/
theorem exposes_array {p : Plan} {hash : String} {v : Value} {most : Option Int} {least : Int}
    {item : Option Schema} {unique : Bool} (hd : p.demand = .array most least item unique)
    (h : Exposes (some (.single (p.toInstance hash))) v) :
    ∃ items, v.arrayItems? = some items ∧ ∃ x ∈ items, Exposes item x := by
  have hname : (p.toInstance hash).controller = "array" :=
    Plan.controller_toInstance.trans (by rw [hd]; rfl)
  cases h with
  | plain hapart =>
      rw [p.finishes_toInstance, hd] at hapart
      cases hapart
  | @item _ _ x items u _ hget hitems hx hexposed =>
      rw [Plan.get_of_demand hash hd "schema" (by decide) rfl, Except.ok.injEq] at hget
      have hsame : item = u := by
        cases item <;> cases u <;> cases hget <;> rfl
      exact ⟨items, hitems, x, hx, hsame ▸ hexposed⟩
  | entry hobject => exact absurd (hname.symm.trans hobject) (by decide)
  | variant honeOf => exact absurd (hname.symm.trans honeOf) (by decide)

def listOptions : Entries := [(.str "type", .str "array")]

def listPlan : Plan := .plain (.str "array") (.array none 0 none false) none

theorem compile_lists : ∃ hash, Registry.builtin.compile (.dict listOptions) .none
    = .ok (.single (listPlan.toInstance hash)) :=
  Plan.compile_of_digestible (p := listPlan) listOptions builtinControllers[1] rfl rfl rfl
    (fun _ => rfl) rfl

/-- The list in the default is not exposed: the array that it is handed to takes over
its items, but not the list. -/
theorem sheltered_held (hash hash' : String) :
    (Schema.single ((heldPlan (.list [.int 1])
      (.single (listPlan.toInstance hash))).toInstance hash')).Sheltered := by
  have hinside : ∀ u, (Schema.single ((heldPlan (.list [.int 1])
      (.single (listPlan.toInstance hash))).toInstance hash')).Inside u →
      u = .single ((heldPlan (.list [.int 1]) (.single (listPlan.toInstance hash))).toInstance hash')
        ∨ u = .single (listPlan.toInstance hash) := by
    intro u hu
    refine (Plan.inside_cases _ hash' hu).imp_right ?_
    rintro ⟨t, ht, hin⟩
    obtain rfl := List.mem_singleton.mp ht
    exact listPlan.eq_of_inside hash rfl hin
  have hexposed : ¬ Exposes (some (.single ((heldPlan (.list [.int 1])
      (.single (listPlan.toInstance hash))).toInstance hash'))) (.tuple [.list [.int 1]]) := by
    intro h
    obtain ⟨items, hitems, x, hx, h⟩ := exposes_array rfl h
    obtain rfl := Option.some.inj hitems
    obtain rfl := List.mem_singleton.mp hx
    obtain ⟨items, hitems, x, hx, h⟩ := exposes_array rfl h
    obtain rfl := Option.some.inj hitems
    obtain rfl := List.mem_singleton.mp hx
    cases h with
    | whole hholds => cases hholds
  refine ⟨fun t ht => ?_, fun t ht => ?_, fun t ht => ?_⟩
  · rcases hinside _ ht with heq | heq <;> obtain rfl := Schema.single.inj heq <;> rfl
  · rcases hinside _ ht with heq | heq
    · obtain rfl := Schema.single.inj heq
      intro _ d hd _
      obtain rfl := Except.ok.inj hd
      exact hexposed
    · obtain rfl := Schema.single.inj heq
      intro hdefault
      cases hdefault
  · rcases hinside _ ht with heq | heq <;> obtain rfl := Schema.single.inj heq <;>
      rw [Plan.nested_properties] <;> exact List.forall_mem_nil _

/-- An array of arrays keeps a default that is a tuple of lists. -/
theorem default_kept_nested :
    ∃ s, Registry.builtin.compile (.dict (heldOptions listOptions)) .none = .ok s ∧
      s.hasDefault = .ok true ∧ s.default = .ok (.tuple [.list [.int 1]]) ∧
      s.normalize .undefined = .ok (.list [.list [.int 1]]) ∧
      s.normalizeAgain .grow = .ok (.list [.list [.int 1]], .tuple [.list [.int 1]]) := by
  obtain ⟨hash, hitem⟩ := compile_lists
  obtain ⟨hash', hs⟩ := compile_held hitem
  have haccepts : (Schema.single (listPlan.toInstance hash)).accepts (.list [.int 1]) = .ok true :=
    Schema.accepts_single (p := listPlan) hash trivial
      ⟨List.forall_mem_singleton.mpr rfl, nofun⟩ nofun _
  have hlist : (Schema.single (listPlan.toInstance hash)).normalize (.list [.int 1])
      = .ok (.list [.int 1]) :=
    (normalize_settle rfl).mpr ⟨_, supplied_of_defined rfl, haccepts, rfl⟩
  have hnormal := normalize_held hash' (compiled_of_compile hitem) haccepts hlist
  exact ⟨_, hs, rfl, rfl, hnormal,
    (default_kept .grow hs rfl rfl (sheltered_held hash hash') hnormal).1⟩

/-! ## Items that are not taken apart -/

/-- The list itself. -/
def enumOptions : Entries := [(.str "enum", .list [.list [.int 1]])]

def enumPlan : Plan := { Plan.plain (.str "typed") .typed none with enum := some [.list [.int 1]] }

/-- Whatever has an absolute value, which no list has. -/
def absOptions : Entries := [(.str "validator", .callable (.builtin .abs))]

def absPlan : Plan :=
  { Plan.plain (.str "typed") .typed none with validator := some (.builtin .abs) }

theorem compile_enum : ∃ hash, Registry.builtin.compile (.dict enumOptions) .none
    = .ok (.single (enumPlan.toInstance hash)) :=
  Plan.compile_of_digestible (p := enumPlan) enumOptions builtinControllers[0] rfl rfl rfl
    (absurd rfl) rfl

theorem compile_abs : ∃ hash, Registry.builtin.compile (.dict absOptions) .none
    = .ok (.single (absPlan.toInstance hash)) :=
  Plan.compile_of_digestible (p := absPlan) absOptions builtinControllers[0] rfl rfl rfl
    (absurd rfl) rfl

/-- Either of them. -/
def choiceOptions : Entries := oneOfOptions [enumOptions, absOptions]

def choicePlan (hash hash' : String) : Plan :=
  oneOfPlan ([enumPlan.toInstance hash, absPlan.toInstance hash'].map .single)

theorem compile_choice : ∃ hash hash' hash'', (Schema.single (enumPlan.toInstance hash)).Compiled ∧
    (Schema.single (absPlan.toInstance hash')).Compiled ∧
    Registry.builtin.compile (.dict choiceOptions) .none
      = .ok (.single ((choicePlan hash hash').toInstance hash'')) := by
  obtain ⟨hash, henum⟩ := compile_enum
  obtain ⟨hash', habs⟩ := compile_abs
  obtain ⟨hash'', hchoice⟩ := compile_oneOf (.cons henum (.cons habs .nil))
  exact ⟨hash, hash', hash'', compiled_of_compile henum, compiled_of_compile habs, hchoice⟩

section choice

variable (hash hash' hash'' : String)

theorem choice_chosen : Schema.Chosen (.list [.int 1])
    [enumPlan.toInstance hash, absPlan.toInstance hash'] (enumPlan.toInstance hash) :=
  .here (Schema.accepts_single (p := enumPlan) hash trivial (.of_nil rfl rfl) nofun _)

theorem choice_accepts : (Schema.single ((choicePlan hash hash').toInstance hash'')).accepts
    (.list [.int 1]) = .ok true :=
  (accepts_oneOf hash'').mpr ⟨_, choice_chosen hash hash'⟩

theorem choice_normalize : (Schema.single ((choicePlan hash hash').toInstance hash'')).normalize
    (.list [.int 1]) = .ok (.list [.int 1]) := by
  refine (normalize_chosen hash'' (choice_chosen hash hash')).trans ?_
  exact (normalize_settle rfl).mpr
    ⟨_, supplied_of_defined rfl, (choice_chosen hash hash').accepts, rfl⟩

/-- With one more item it is refused by the first alternative, and the other fails. -/
theorem choice_fails (henum : (Schema.single (enumPlan.toInstance hash)).Compiled)
    (habs : (Schema.single (absPlan.toInstance hash')).Compiled) :
    (Schema.single ((choicePlan hash hash').toInstance hash'')).accepts
      (Change.grow.act (.list [.int 1])) = .error (.fault .typeMismatch) := by
  have hrefused : (Schema.single (enumPlan.toInstance hash)).accepts
      (Change.grow.act (.list [.int 1])) = .ok false :=
    Schema.accepts_single (p := enumPlan) hash trivial (.of_nil rfl rfl) nofun _
  have hfailed : (Schema.single (absPlan.toInstance hash')).accepts
      (Change.grow.act (.list [.int 1])) = .error (.fault .typeMismatch) :=
    Schema.accepts_single (p := absPlan) hash' trivial (.of_nil rfl rfl) nofun _
  have hparts : ∀ t ∈ (choicePlan hash hash').demand.parts, t.Compiled :=
    List.forall_mem_cons.mpr ⟨henum, List.forall_mem_singleton.mpr habs⟩
  rw [Schema.accepts_single (p := choicePlan hash hash') hash'' trivial (.of_nil rfl rfl) hparts]
  show askAny (Schema.accepts · _) [.single (enumPlan.toInstance hash), _] = _
  rw [askAny, hrefused, ok_bind, if_neg Bool.false_ne_true, askAny, hfailed]
  rfl

/-- The list is handed on as it is, so that it can be changed. -/
theorem choice_follow (change : Change) : Schema.followWithin change 2
    (.single ((choicePlan hash hash').toInstance hash'')) (.list [.int 1])
      = .ok (.single ((choicePlan hash hash').toInstance hash''), change.act (.list [.int 1])) := by
  obtain ⟨n, hrun⟩ := (choice_chosen hash hash').run 0
  have hfirst : Instance.followFirst (Schema.followWithin change 1) (.list [.int 1])
      (([enumPlan.toInstance hash, absPlan.toInstance hash'].map Schema.single).map .schema)
      = .ok (_, change.act (.list [.int 1])) := followFirst_spares hrun rfl
  have hone : ((choicePlan hash hash').toInstance hash'').followOneOf
      (Schema.followWithin change 1) (.list [.int 1])
      = .ok ((choicePlan hash hash').toInstance hash'', change.act (.list [.int 1])) := by
    simp only [Instance.followOneOf, choicePlan, get_oneOf, lift_ok, ok_bind, Value.items, pure_eq,
      hfirst]
    rfl
  have hgiven : ((choicePlan hash hash').toInstance hash'').followGiven change
      (Schema.followWithin change 1) (.list [.int 1])
      = .ok ((choicePlan hash hash').toInstance hash'', change.act (.list [.int 1])) := hone
  show (_ >>= _) = _
  rw [hgiven]
  rfl

end choice

/-- **A default that is changed through a normal form.**  The list in it is the list
in the normal form, and with one more item the schema fails on its own default. -/
theorem default_shared :
    ∃ s t, Registry.builtin.compile (.dict (heldOptions choiceOptions)) .none = .ok s ∧
      s.hasDefault = .ok true ∧ s.default = .ok (.tuple [.list [.int 1]]) ∧
      s.normalize .undefined = .ok (.list [.list [.int 1]]) ∧
      s.follow .grow .undefined = .ok (t, .undefined) ∧
      t.default = .ok (.tuple [.list [.int 1, .str "mutated"]]) ∧
      s.normalizeAgain .grow = .error (.fault .typeMismatch) := by
  obtain ⟨hash, hash', hash'', henum, habs, hchoice⟩ := compile_choice
  obtain ⟨hash₀, hs⟩ := compile_held hchoice
  have hcompiled := compiled_of_compile hchoice
  have hnormal := normalize_held hash₀ hcompiled (choice_accepts hash hash' hash'')
    (choice_normalize hash hash' hash'')
  have hfollow : Schema.follow .grow (.single ((heldPlan (.list [.int 1])
      (.single ((choicePlan hash hash').toInstance hash''))).toInstance hash₀)) .undefined
      = .ok (_, .undefined) := followWithin_held hash₀ (choice_follow hash hash' hash'' .grow)
  have hagain := normalize_held_failed hash₀ hcompiled (choice_fails hash hash' hash'' henum habs)
  refine ⟨_, _, hs, rfl, rfl, hnormal, hfollow, rfl, ?_⟩
  simp only [Schema.normalizeAgain, hnormal, hfollow, hagain, ok_bind, error_bind]

end Conform
