/-
# `Proofs.Config.Reading` — what a dictionary is read as

Compiling a dictionary comes to three things, whatever compiles the
configurations inside: the options of the root controller, the options of
the controller that the type names, and the digest of the attributes that
they stand for.  That the attributes are set one by one, on a schema which
must not be finished yet, never shows, because the names of a kind are its
own.

The equation holds with faults and refusals, so what a dictionary compiles
to and what compiles to a given schema can both be read off it.
-/
import Mathlib.Data.List.Nodup
import Conform.Proofs.Config.Options

namespace Conform

/-! ## The kind that a type names -/

/-- The kind of the controller that goes by an alias. -/
def Registry.kindOf (type : Value) : Option Kind :=
  match builtin.resolve type with
  | none => none
  | some d =>
      match d.layer.build with
      | .builtin k => some k
      | .call _ => none

/-- The kind of schema that a dictionary describes. -/
def Entries.kind? (config : Entries) : Option Kind := Registry.kindOf (typedEntries config).2

theorem Registry.resolve_eq_none_of_kindOf {type : Value} (h : kindOf type = none) :
    builtin.resolve type = none := by
  cases hd : builtin.resolve type with
  | none => rfl
  | some d =>
      obtain ⟨c, -, rfl, -⟩ := resolve_builtin hd
      rw [kindOf, hd] at h
      cases h

theorem Registry.resolve_of_kindOf {type : Value} {k : Kind} (h : kindOf type = some k) :
    ∃ c ∈ builtinControllers, c.kind = k ∧ builtin.resolve type = some c.definition ∧
      ∃ a ∈ c.aliases, Value.sameKey a type = true := by
  cases hd : builtin.resolve type with
  | none =>
      rw [kindOf, hd] at h
      cases h
  | some d =>
      obtain ⟨c, hc, rfl, halias⟩ := resolve_builtin hd
      rw [kindOf, hd] at h
      exact ⟨c, hc, Option.some.inj h, rfl, halias⟩

/-! ## The names of attributes -/

/-- The attributes that the build step of a controller sets. -/
def Kind.optionNames : Kind → List String
  | .typed | .boolean | .symbol => []
  | .array => ["max_items", "min_items", "schema", "unique_items"]
  | .function => ["max_arguments", "min_arguments", "named"]
  | .number => ["exclusive_max", "exclusive_min", "integer", "max", "min"]
  | .object => ["allow_null", "clean", "properties", "schema"]
  | .oneOf => ["one_of"]
  | .string => ["max_length", "min_length", "pattern"]

/-- The attributes that the build step of the root sets. -/
def rootNames : List String := ["default", "enum", "has_default", "transform", "type", "validator"]

/-- All attributes of a kind, in the order in which they are set. -/
def Kind.names (k : Kind) : List String := rootNames ++ k.optionNames ++ ["required"]

namespace Options

variable {f : Factory} {config : Entries} {attrs : Attributes} {k : Kind}

theorem names_typed (h : typed config = .ok attrs) :
    attrs.map (·.1) = rootNames := by
  obtain ⟨p, -, -, rfl, -⟩ := typed_ok h .typed none
  rfl

theorem names_own (h : own f config k = .ok attrs) : attrs.map (·.1) = k.optionNames := by
  obtain ⟨d, rfl, rfl, -, -⟩ := own_reads h
  cases d <;> rfl

/-- The attributes that a container adds. -/
def marks (required : Option Bool) : Attributes := required.toList.map fun b => ("required", .bool b)

/-- All attributes of a schema, in the order in which they are set. -/
def readAttributes (f : Factory) (config : Entries) (k : Kind) (required : Option Bool) :
    Outcome Attributes := do
  let common ← typed config
  let more ← own f config k
  return common ++ more ++ marks required

/-- A schema with its digest. -/
def readInstance (f : Factory) (config : Entries) (k : Kind) (required : Option Bool) :
    Outcome Instance := do
  let attrs ← readAttributes f config k required
  let hash ← attrs.hash
  return ⟨k.chain, attrs, hash⟩

end Options

/-! ## Setting attributes one by one -/

namespace Attributes

theorem put_fresh {name : String} {v : Value} :
    ∀ {attrs : Attributes}, name ∉ attrs.map (·.1) → attrs.put name v = attrs ++ [(name, v)]
  | [], _ => rfl
  | (n, w) :: rest, h => by
      simp only [List.map_cons, List.mem_cons, not_or] at h
      simp [put, Ne.symm h.1, put_fresh h.2]

/-- Fresh names of a plan are set one after another. -/
theorem setAll_append {owner : String} :
    ∀ {more attrs : Attributes}, ((attrs ++ more).map (·.1)).Nodup →
      (attrs ++ more).map (·.1) ⊆ Plan.attributeNames →
        attrs.setAll owner more = .ok (attrs ++ more)
  | [], attrs, _, _ => by simp [setAll, pure, Except.pure]
  | (name, v) :: rest, attrs, hnodup, hsub => by
      have hmem : name ∈ Plan.attributeNames := hsub (by simp)
      have hfresh : name ∉ attrs.map (·.1) := by
        rw [List.map_append, List.map_cons] at hnodup
        exact fun hm => (List.nodup_cons.mp (List.nodup_middle.mp hnodup)).1
          (List.mem_append_left _ hm)
      have hfrozen : attrs.frozen = .ok false := by
        have hnames : attrs.map (·.1) ⊆ Plan.attributeNames := fun n hn =>
          hsub (List.map_append ▸ List.mem_append_left _ hn)
        rw [frozen, Plan.lookup_of_names hnames (by decide)]
      have hset : attrs.set owner name v = .ok (attrs ++ [(name, v)]) := by
        have apart : ∀ n ∈ Plan.attributeNames, n ≠ "controller" ∧ n ≠ "__weakref__" ∧
            n ≠ "__class__" ∧ n ≠ "__dict__" := by decide
        obtain ⟨h1, h2, h3, h4⟩ := apart name hmem
        simp [set, hfrozen, h1, h2, h3, h4, put_fresh hfresh, pure, Except.pure]
      have ih : setAll owner (attrs ++ [(name, v)]) rest = .ok (attrs ++ [(name, v)] ++ rest) :=
        setAll_append (by simpa using hnodup) (by simpa using hsub)
      simpa [setAll, hset] using ih

end Attributes

theorem buildLayer_result (f : Factory) (owner : String) (config : Entries) (attrs : Attributes)
    (layer : Layer) :
    (buildLayer f owner config attrs layer).result
      = (Options.ofStep f config layer.build).result >>= fun more =>
          liftM (attrs.setAll owner more) := by
  simp only [buildLayer, Build.result_bind, Build.result_note, ok_bind, Build.result_lift_fault]

/-- The attributes that a container may add. -/
def markEntries (required : Option Bool) : Entries :=
  required.toList.map fun b => (.str "required", .bool b)

section setting

variable {f : Factory} {config : Entries} {attrs common more : Attributes} {k : Kind}
  {owner : String} {required : Option Bool}

theorem Kind.names_nodup (k : Kind) : k.names.Nodup := by
  cases k <;> decide

theorem Kind.names_known (k : Kind) : k.names ⊆ Plan.attributeNames := by
  cases k <;> decide

theorem names_marks (names : List String) (required : Option Bool) :
    names ++ (Options.marks required).map (·.1) <+: names ++ ["required"] := by
  cases required with
  | none =>
      show names ++ [] <+: _
      rw [List.append_nil]
      exact List.prefix_append _ _
  | some b => exact List.prefix_rfl

/-- Attributes under some of the names of a kind are set in order. -/
theorem setAll_known (k : Kind) (hnames : (attrs ++ more).map (·.1) <+: k.names) :
    attrs.setAll owner more = .ok (attrs ++ more) :=
  Attributes.setAll_append (hnames.sublist.nodup k.names_nodup)
    fun _ hn => k.names_known (hnames.subset hn)

/-- The layers of a kind set the attributes of the root and then their own. -/
theorem chain_eq (f : Factory) (owner : String) (config : Entries) (k : Kind) :
    k.chain.foldlM (fun acc l => (buildLayer f owner config acc l).result) []
      = do
        let common ← Options.typed config
        let more ← Options.own f config k
        return common ++ more := by
  have root : (buildLayer f owner config [] (Kind.layer .typed)).result = Options.typed config := by
    rw [buildLayer_result]
    show (Options.typed config >>= _) = _
    cases hc : Options.typed config with
    | error e => rfl
    | ok common =>
        rw [ok_bind, setAll_known .typed]
        · rfl
        · rw [List.nil_append, Options.names_typed hc]
          exact List.prefix_append _ _
  by_cases hk : k = .typed
  · subst hk
    rw [Kind.chain, List.foldlM_cons, root]
    cases Options.typed config with
    | error e => rfl
    | ok common =>
        show Except.ok common = Except.ok (common ++ [])
        rw [List.append_nil]
  · have hchain : k.chain = [Kind.layer .typed, k.layer] := by
      cases k <;> first | exact absurd rfl hk | rfl
    rw [hchain, List.foldlM_cons, root]
    cases hc : Options.typed config with
    | error e => rfl
    | ok common =>
        have hown : Options.own f config k = (Options.ofKind f config k).result := if_neg hk
        rw [ok_bind, ok_bind, List.foldlM_cons, buildLayer_result]
        show ((Options.ofKind f config k).result >>= _) >>= _ = _
        rw [← hown]
        cases ho : Options.own f config k with
        | error e => rfl
        | ok more =>
            rw [ok_bind, setAll_known k]
            · rfl
            · rw [List.map_append, Options.names_typed hc, Options.names_own ho]
              exact List.prefix_append _ _

theorem finishInstance_eq (owner : String) (chain : List Layer)
    (h : attrs.map (·.1) ⊆ Plan.attributeNames) :
    finishInstance owner chain attrs = do return ⟨chain, attrs, ← attrs.hash⟩ := by
  have apart : ∀ name, name ∉ Plan.attributeNames → attrs.lookup name = none := fun _ hname =>
    Plan.lookup_of_names h hname
  unfold finishInstance
  rw [Attributes.frozen, apart "_frozen" (by decide), apart "hash" (by decide),
    apart "_definition" (by decide)]
  cases attrs.hash <;> rfl

theorem buildInstance_read (f : Factory) (c : BuiltinController) (config : Entries)
    (required : Option Bool) :
    (buildInstance f c.definition config (markEntries required)).result
      = Options.readInstance f config c.kind required := by
  have hadded : Attributes.ofEntries (markEntries required) = .ok (Options.marks required) := by
    cases required <;> rfl
  simp only [buildInstance, BuiltinController.definition, Build.result_bind, Build.result_foldlM,
    Build.result_lift_fault, chain_eq, hadded, lift_ok, ok_bind, Options.readInstance,
    Options.readAttributes]
  cases hc : Options.typed config with
  | error e => rfl
  | ok common =>
      cases ho : Options.own f config c.kind with
      | error e => rfl
      | ok more =>
          have hnames : (common ++ more ++ Options.marks required).map (·.1) <+: c.kind.names := by
            rw [List.map_append, List.map_append, Options.names_typed hc, Options.names_own ho]
            exact names_marks _ required
          have hset : Attributes.setAll (schemaClassName (c.definition).name) (common ++ more)
              (Options.marks required) = .ok (common ++ more ++ Options.marks required) :=
            setAll_known c.kind hnames
          have hfinish := finishInstance_eq (schemaClassName (c.definition).name)
            c.kind.chain fun _ hn => c.kind.names_known (hnames.subset hn)
          simp only [ok_bind, pure_eq]
          show (liftM (Attributes.setAll (schemaClassName (c.definition).name) _ _) >>= _) = _
          rw [hset, lift_ok, ok_bind]
          show liftM (finishInstance (schemaClassName (c.definition).name) _ _) = _
          rw [hfinish]
          cases Attributes.hash (common ++ more ++ Options.marks required) <;> rfl

end setting

/-! ## The equation of a dictionary -/

/-- What a container hands over with the configuration of a part. -/
def mark (required : Option Bool) : Value :=
  optional (fun b => .dict (markEntries (some b))) required

theorem compileSingle_dict (f : Factory) (config : Entries) (required : Option Bool) :
    (compileSingle f .builtin (.dict config) (mark required)).result
      = match config.kind? with
        | none => .error (.config (.unknownType (typedEntries config).2))
        | some k => Options.readInstance f (typedEntries config).1 k required := by
  have hextras : givenEntries .additionalNotADict (mark required) = .ok (markEntries required) := by
    cases required <;> rfl
  have hconfig : givenEntries .notADict (.dict config) = .ok config := rfl
  simp only [compileSingle, Build.result_bind, Build.result_lift, hconfig, hextras, ok_bind,
    Entries.kind?]
  cases hk : Registry.kindOf (typedEntries config).2 with
  | none =>
      rw [Registry.resolve_eq_none_of_kindOf hk]
      rfl
  | some k =>
      obtain ⟨c, -, rfl, hresolve, -⟩ := Registry.resolve_of_kindOf hk
      rw [hresolve]
      exact buildInstance_read f c _ required

/-- What is compiled on its own is none, which stands for an empty dictionary, or a
dictionary; anything else is refused, whatever it is compiled with. -/
theorem compileSingle_cases (c : Value) : c = .none ∨ (∃ config : Entries, c = .dict config) ∨
    ∃ e, ∀ (f : Factory) (additional : Value),
      (compileSingle f .builtin c additional).result = .error e := by
  cases c with
  | none => exact .inl rfl
  | dict config => exact .inr (.inl ⟨config, rfl⟩)
  | _ => exact .inr (.inr ⟨_, fun _ _ => rfl⟩)

theorem compileWith_unlisted (f : Factory) {r : Registry} {c : Value} (h : c.listed? = none)
    (required : Option Bool) :
    (compileWith f r c (mark required)).result
      = Schema.single <$> (compileSingle f r c (mark required)).result := by
  have hlisted : (mark required).listed? = none := by cases required <;> rfl
  rw [compileWith, h]
  show (if _ then _ else _ : Build Schema).result = _
  rw [hlisted, Option.isSome_none, if_neg Bool.false_ne_true, Build.result_bind]
  cases (compileSingle f r c (mark required)).result <;> rfl

/-- A list of configurations is compiled one by one. -/
theorem compileWith_listed (f : Factory) {r : Registry} {c : Value} {items : List Value}
    (h : c.listed? = some items) :
    (compileWith f r c .none).result
      = (fun ts => Schema.ofAlternatives (ts.map .single)) <$>
        items.mapM fun w => (compileSingle f r w (mark none)).result := by
  have hzip : items.zip (List.replicate items.length Value.none) = items.map (·, Value.none) := by
    clear h
    induction items with
    | nil => rfl
    | cons w rest ih => exact congrArg _ ih
  rw [compileWith, h]
  simp only [additionalFor, Build.result_bind, Build.result_lift, pure_eq, ok_bind,
    List.length_replicate, if_true, Build.result_mapM, Build.result_pure, hzip, List.mapM_map]
  show (items.mapM fun w => (compileSingle f r w (mark none)).result) >>= _ = _
  cases items.mapM fun w => (compileSingle f r w (mark none)).result <;> rfl

/-- What a dictionary compiles to: one schema, with the attributes that are
read off it. -/
theorem compile_dict_ok {config : Entries} {required : Option Bool} {s : Schema} :
    (compile .builtin (.dict config) (mark required)).result = .ok s ↔
      ∃ t k, s = .single t ∧ config.kind? = some k ∧
        Options.readInstance (compile .builtin) (typedEntries config).1 k required = .ok t := by
  rw [compile_eq, compileWith_unlisted _ rfl, compileSingle_dict, map_eq_ok]
  cases config.kind? with
  | none =>
      constructor
      · rintro ⟨t, ht, -⟩
        cases ht
      · rintro ⟨t, k, -, hk, -⟩
        cases hk
  | some k =>
      constructor
      · rintro ⟨t, ht, rfl⟩
        exact ⟨t, k, rfl, rfl, ht⟩
      · rintro ⟨t, k', rfl, hk, ht⟩
        obtain rfl := Option.some.inj hk
        exact ⟨t, ht, rfl⟩

end Conform
