/-
# `Proofs.Config.Building` — a plan from its configuration

Where the options of a dictionary are read as the attributes that a plan is
written down as, the dictionary compiles to that plan.  The digest is the
only thing left to find, and it exists as soon as every attribute has a
token.
-/
import Conform.Proofs.Config.Compiled

namespace Conform

/-- Attributes with tokens have a digest. -/
theorem Attributes.hash_ok {attrs : Attributes} (h : ∀ e ∈ attrs, ∃ token, e.2.token = .ok token) :
    ∃ hash, attrs.hash = .ok hash := by
  have hline : ∀ e ∈ attrs.sortedPublic, ∃ l, line e = .ok l := by
    intro e he
    obtain ⟨token, htoken⟩ := h e (List.mem_of_mem_filter (List.mem_mergeSort.mp he))
    exact ⟨e.1 ++ "=" ++ token, by rw [line, htoken]; rfl⟩
  obtain ⟨ls, hls⟩ := exists_forall₂ hline
  refine ⟨hashLines ls, ?_⟩
  rw [hash, lines, mapM_eq_ok.mpr hls]
  rfl

namespace Plan

/-- The plan of a configuration with no other options than those of its type. -/
def plain (type : Value) (demand : Demand) (required : Option Bool) : Plan :=
  ⟨.undefined, none, false, none, type, none, demand, required⟩

variable {p : Plan} {f : Factory} {config : Entries}

/-- A configuration whose options are those of a plan compiles to it. -/
theorem compile_eq_plan (config : Entries) (c : BuiltinController) {hash : String}
    (hresolve : Registry.builtin.resolve (typedEntries config).2 = some c.definition)
    (hkind : c.kind = p.demand.kind)
    (htyped : Options.typed (typedEntries config).1 = .ok p.common)
    (hdemand : p.demand.kind ≠ .typed →
      (Options.ofKind (compile .builtin) (typedEntries config).1 p.demand.kind).result
        = .ok p.demand.attributes)
    (hhash : p.attributes.hash = .ok hash) :
    (compile .builtin (.dict config)
        (optional (fun b => .dict (markEntries (some b))) p.required)).result
      = .ok (.single (p.toInstance hash)) := by
  have hmark : config.kind? = some p.demand.kind := by
    rw [Entries.kind?, Registry.kindOf, hresolve, ← hkind]
    rfl
  refine compile_dict_ok.mpr ⟨_, _, rfl, hmark, ?_⟩
  have hown : Options.own (compile .builtin) (typedEntries config).1 p.demand.kind
      = .ok p.demand.attributes := by
    rw [Options.own]
    split
    · rename_i htyped
      cases hd : p.demand <;> simp [hd, Demand.kind] at htyped
      rfl
    · exact hdemand ‹_›
  rw [Options.readInstance, Options.readAttributes, htyped, ok_bind, hown, ok_bind, pure_eq, ok_bind]
  show liftM p.attributes.hash >>= _ = _
  rw [hhash]
  rfl

end Plan

/-- A part with a single configuration that does not require it compiles to the
schema of that configuration. -/
theorem compileMerged_optional {f : Factory} {generic specific : Value} (key : Value)
    {merged config : Entries} {s : Instance}
    (hmerge : generic.mergeConfigs specific = .ok (.dict merged))
    (hsplit : splitRequired (.dict merged) = .ok (config, false))
    (hcompile : (f (.dict config) (.dict (markEntries (some false)))).result = .ok (.single s))
    (hrequired : s.flag "required" = .ok false) :
    (compileMerged f key generic specific).result = .ok (.single s) := by
  have hcandidate : (compileCandidate f key (.dict merged)).result = .ok (.single s) := by
    have hschema : (Schema.single s).required = .ok false := hrequired
    simp only [compileCandidate, Build.result_bind, Build.result_lift_fault, hsplit, lift_ok,
      ok_bind]
    show ((f (.dict config) (.dict (markEntries (some false)))).result >>= _) = _
    rw [hcompile]
    simp only [ok_bind, hschema, lift_ok]
    rfl
  simp only [compileMerged, Build.result_bind, Build.result_lift_fault, hmerge, lift_ok, ok_bind,
    Build.result_mapM, Value.listed?, Option.getD_none, List.mapM_cons, List.mapM_nil, hcandidate,
    pure_eq]
  rfl

/-- Alternatives that compile one by one. -/
theorem oneOf_attributes {f : Factory} {config : Entries} {v : Value} {variants : List Value}
    {ts : List Schema} (hgiven : config.get? "one_of" = some v)
    (hlisted : v.listed? = some variants) (hdicts : variants.all Value.isDict = true)
    (heach : List.Forall₂ (fun c t => (f c .none).result = .ok t) variants ts) :
    (Options.oneOf f config).result = .ok (Demand.oneOf ts).attributes := by
  have hmap : variants.mapM (fun c => (f c .none).result) = .ok ts := mapM_eq_ok.mpr heach
  unfold Options.oneOf
  simp only [hgiven, hlisted, hdicts, Bool.not_true, Bool.false_eq_true, if_false,
    Build.result_bind, Build.result_mapM, Build.result_pure, hmap, ok_bind]
  rfl

/-- An array whose items have a configuration that compiles. -/
theorem array_attributes {f : Factory} {config : Entries} {low high least most generic : Value}
    {item : Schema} {unique : Bool}
    (hlow : Options.lowerBound config "min_items"
      "Must be an integer that is greater than or equal to zero." = .ok low)
    (hhigh : Options.upperBound config "max_items"
      "Must be an integer that is greater than or equal to the min_items." low = .ok high)
    (hleast : Options.wholeBound low = .ok least) (hmost : Options.wholeBound high = .ok most)
    (hgeneric : Options.schemaOption config = .ok generic) (hsome : generic.isNone = false)
    (hitem : (f generic .none).result = .ok item)
    (hunique : Options.flag config "unique_items" false = .ok (.bool unique)) :
    (Options.array f config).result = .ok [("max_items", most), ("min_items", least),
      ("schema", .schema item), ("unique_items", .bool unique)] := by
  simp only [Options.array, Options.partSchema, hsome, Build.result_bind, Build.result_lift,
    Build.result_lift_fault, hlow, hhigh, hleast, hmost, hgeneric, hunique, hitem, ok_bind,
    lift_ok, Bool.false_eq_true, if_false, Build.result_pure]

/-- An object with one declared property that compiles. -/
theorem object_attributes {f : Factory} {config : Entries} {key v : Value} {s : Schema}
    {allowNull clean : Bool} (hdeclared : Options.propertiesOption config = .ok [(key, v)])
    (hgeneric : Options.schemaOption config = .ok .none)
    (hconfiguration : (Options.propertyConfig v).isConfiguration = true)
    (hproperty : (compileMerged f key .none (Options.propertyConfig v)).result = .ok s)
    (hnull : Options.flag config "allow_null" true = .ok (.bool allowNull))
    (hclean : Options.flag config "clean" false = .ok (.bool clean)) :
    (Options.object f config).result
      = .ok (Demand.object allowNull clean [(key, s)] none).attributes := by
  simp only [Options.object, Options.properties, Options.property, Options.partSchema, hdeclared,
    hgeneric, hconfiguration, hproperty, hnull, hclean, Build.result_bind, Build.result_lift,
    Build.result_lift_fault, Build.result_pure, ok_bind, lift_ok, if_true, Value.isNone]
  rfl

end Conform
