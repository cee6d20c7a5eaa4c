/-
# `Proofs.Document.Loaded` — no pattern stays text

Two walks go over a configuration from a document.  The loader compiles the
patterns at the places where it takes a configuration to be; the compiler
hands the configurations that it finds to the build steps, merged ones
included.  The step of strings refuses a pattern that is text, so the loader
must not miss a place that the compiler reaches.

`Loaded` is what the two meet at: it holds of what the loader gives back, and
of all that a step hands on when it holds of the configuration.  That the
string step is never presented with text is then said by replacing it: a
compiler that does anything whatever on such a pattern, on the record too,
compiles every loaded configuration in the same run.
-/
import Conform.Proofs.Document.Walk
import Conform.Proofs.Value.Everywhere

namespace Conform

/-! ## Configurations without text patterns -/

/-- No pattern is text where a configuration can be, and every property has a name
that can be written. -/
inductive Value.Loaded : Value → Prop
  | other {v : Value} : v.listed? = .none → v.isDict = false → Loaded v
  | list {items : List Value} : (∀ w ∈ items, Loaded w) → Loaded (.list items)
  | dict {es : Entries} : es.KeysApart →
      (∀ v, es.get? "pattern" = some v → v.text? = .none) →
      (∀ v, es.get? "schema" = some v → Loaded v) →
      (∀ v, es.get? "one_of" = some v → Loaded v) →
      (∀ declared, es.get? "properties" = some (.dict declared) →
        ∀ e ∈ declared, ∃ name, e.1.display = .ok name) →
      (∀ declared, es.get? "properties" = some (.dict declared) → ∀ e ∈ declared, Loaded e.2) →
      Loaded (.dict es)

namespace Value.Loaded

variable {v generic specific : Value} {es fs : Entries} {items : List Value}

theorem apart (h : (Value.dict es).Loaded) : es.KeysApart := by
  cases h with
  | other _ hdict => cases hdict
  | dict happart => exact happart

theorem pattern (h : (Value.dict es).Loaded) (hget : es.get? "pattern" = some v) :
    v.text? = .none := by
  cases h with
  | other _ hdict => cases hdict
  | dict _ hpattern => exact hpattern v hget

theorem schema (h : (Value.dict es).Loaded) (hget : es.get? "schema" = some v) : v.Loaded := by
  cases h with
  | other _ hdict => cases hdict
  | dict _ _ hschema => exact hschema v hget

theorem oneOf (h : (Value.dict es).Loaded) (hget : es.get? "one_of" = some v) : v.Loaded := by
  cases h with
  | other _ hdict => cases hdict
  | dict _ _ _ honeOf => exact honeOf v hget

theorem properties (h : (Value.dict es).Loaded) {declared : Entries}
    (hget : es.get? "properties" = some (.dict declared)) : ∀ e ∈ declared, e.2.Loaded := by
  cases h with
  | other _ hdict => cases hdict
  | dict _ _ _ _ _ hproperties => exact hproperties declared hget

theorem named (h : (Value.dict es).Loaded) {declared : Entries}
    (hget : es.get? "properties" = some (.dict declared)) :
    ∀ e ∈ declared, ∃ name, e.1.display = .ok name := by
  cases h with
  | other _ hdict => cases hdict
  | dict _ _ _ _ hnamed _ => exact hnamed declared hget

theorem listed (h : v.Loaded) (hlisted : v.listed? = some items) : ∀ w ∈ items, w.Loaded := by
  cases h with
  | other hnone _ => cases hnone.symm.trans hlisted
  | list hitems => exact Option.some.inj hlisted ▸ hitems
  | dict => cases hlisted

theorem empty : (Value.dict []).Loaded := .dict .nil nofun nofun nofun nofun nofun

/-- What is found in the new entries was found in old ones. -/
theorem of_found (hes : es.KeysApart)
    (h : ∀ name ∈ ["pattern", "schema", "one_of", "properties"], ∀ v, es.get? name = some v →
      ∃ fs : Entries, (Value.dict fs).Loaded ∧ fs.get? name = some v) : (Value.dict es).Loaded := by
  refine .dict hes (fun v hv => ?_) (fun v hv => ?_) (fun v hv => ?_)
    (fun declared hdeclared => ?_) fun declared hdeclared => ?_
  · obtain ⟨fs, hfs, hget⟩ := h "pattern" (by decide) v hv
    exact hfs.pattern hget
  · obtain ⟨fs, hfs, hget⟩ := h "schema" (by decide) v hv
    exact hfs.schema hget
  · obtain ⟨fs, hfs, hget⟩ := h "one_of" (by decide) v hv
    exact hfs.oneOf hget
  · obtain ⟨fs, hfs, hget⟩ := h "properties" (by decide) _ hdeclared
    exact hfs.named hget
  · obtain ⟨fs, hfs, hget⟩ := h "properties" (by decide) _ hdeclared
    exact hfs.properties hget

theorem erase (h : (Value.dict es).Loaded) : (Value.dict (es.erase (.str "required"))).Loaded :=
  of_found (h.apart.erase _) fun name hname v hv =>
    have hne : name ≠ "required" := by
      rintro rfl
      exact absurd hname (by decide)
    ⟨es, h, (Entries.get?_erase_of_ne hne).symm.trans hv⟩

theorem typed (h : (Value.dict es).Loaded) : (Value.dict (typedEntries es).1).Loaded := by
  unfold typedEntries
  split
  · refine of_found (h.apart.put _ _) fun name hname v hv => ?_
    have hne : name ≠ "type" := by
      rintro rfl
      exact absurd hname (by decide)
    exact ⟨es, h, (Entries.get?_put_of_ne hne).symm.trans hv⟩
  · exact h

theorem update (hes : (Value.dict es).Loaded) (hfs : (Value.dict fs).Loaded) :
    (Value.dict (es.update fs)).Loaded := by
  refine of_found hes.apart.update fun name _ v hv => ?_
  rw [Entries.get?, Entries.find?_update hfs.apart, Option.or_eq_some_iff] at hv
  rcases hv with hv | ⟨-, hv⟩
  · exact ⟨fs, hfs, hv⟩
  · exact ⟨es, hes, hv⟩

theorem entries (h : v.Loaded) : (Value.dict v.entries).Loaded := by
  cases v with
  | dict es => exact h
  | _ => exact empty

theorem single (h : v.Loaded) (hw : w ∈ v.listed?.getD [v]) : w.Loaded := by
  obtain rfl | ⟨items, hlisted, hw⟩ := eq_or_mem_listed hw
  · exact h
  · exact h.listed hlisted w hw

theorem alternatives (h : v.Loaded) : ∀ es ∈ v.alternatives, (Value.dict es).Loaded := by
  intro es hes
  obtain ⟨w, hw, rfl⟩ := List.mem_map.mp hes
  exact (h.single hw).entries

theorem pairs (hg : generic.Loaded) (hs : specific.Loaded) :
    ∀ pair ∈ generic.pairs specific, (Value.dict pair).Loaded := by
  intro pair hpair
  obtain ⟨g, hgmem, s, hsmem, rfl⟩ := mem_pairs hpair
  exact (hg.alternatives g hgmem).update (hs.alternatives s hsmem)

theorem none : Value.none.Loaded := .other rfl rfl

theorem propertyConfig (h : v.Loaded) : (Options.propertyConfig v).Loaded := by
  unfold Options.propertyConfig
  split
  · exact empty
  · exact h

/-- What the build steps hand on is loaded where the configuration is. -/
theorem handed (h : (Value.dict es).Loaded) : es.Handed Loaded where
  items v hget _ := h.schema hget
  variant v variants hget hlisted w hw _ := (h.oneOf hget).listed hlisted w hw
  property generic declared hgeneric hget e he _ pair hpair := by
    have hg : generic.Loaded := by
      rcases Options.schemaOption_cases hgeneric with rfl | ⟨hgiven, -⟩
      · exact none
      · exact h.schema hgiven
    exact (pairs hg (h.properties hget e he).propertyConfig pair hpair).erase
  generic v hget _ pair hpair := (pairs none (h.schema hget) pair hpair).erase

end Value.Loaded

/-! ## What the loader gives back -/

/-- A value such as a document can hold: no tuples, and no two equal keys in a
dictionary. -/
def Value.isDocument (v : Value) : Bool :=
  v.everywhere fun
    | .tuple _ => false
    | .dict es => decide (Entries.KeysApart es)
    | _ => true

theorem Document.loaded_of_patternsWithin {n : Nat} {place : String} {v w : Value}
    (hheight : v.height < n) (hv : v.isDocument = true) (h : patternsWithin n place v = .ok w) :
    w.Loaded := by
  induction n generalizing place v w with
  | zero => exact absurd hheight (Nat.not_lt_zero _)
  | succ n ih =>
      cases v with
      | list items =>
          obtain ⟨compiled, rfl, hcompiled⟩ := items_of_patternsWithin h
          refine .list fun w hw => ?_
          obtain ⟨⟨item, i⟩, hmem, hitem⟩ := forall₂_mem_right hcompiled hw
          have hitems := List.fst_mem_of_mem_zipIdx hmem
          have hlower : item.height < (Value.list items).height :=
            Value.height_lt_of_listed? rfl hitems
          exact ih (by omega) ((Value.everywhere_list.mp hv).2 item hitems) hitem
      | dict given =>
          obtain ⟨happart, hgiven⟩ := Value.everywhere_dict.mp hv
          obtain ⟨es, rfl, hwalked⟩ := walked_of_patternsWithin h
          rw [Value.height] at hheight
          have hoption : ∀ name v, Entries.get? given name = some v → ∀ place w,
              patternsWithin n place v = .ok w → w.Loaded := fun name v hget place w hw => by
            have hlower := Value.height_of_get? hget
            exact ih (by omega) (hgiven.find? hget) hw
          refine .dict (hwalked.kept.apart (of_decide_eq_true happart)) (fun w hw => ?_)
            (fun w hw => ?_) (fun w hw => ?_) (fun declared hdeclared => ?_)
            fun declared hdeclared => ?_
          · obtain ⟨v, -, hpattern⟩ := exists_of_rel hwalked.pattern hw
            exact hpattern.text?_eq_none
          · obtain ⟨v, hget, hschema⟩ := exists_of_rel hwalked.schema hw
            exact hoption _ v hget _ w hschema
          · obtain ⟨v, hget, honeOf⟩ := exists_of_rel hwalked.oneOf hw
            exact hoption _ v hget _ w honeOf
          · obtain ⟨v, -, hproperties⟩ := exists_of_rel hwalked.properties hdeclared
            cases hproperties with
            | other hother => cases hother
            | dict heach =>
                intro e he
                obtain ⟨_, -, hkey, key, hname, -⟩ := forall₂_mem_right heach he
                exact ⟨key, hkey ▸ hname⟩
          · obtain ⟨v, hget, hproperties⟩ := exists_of_rel hwalked.properties hdeclared
            cases hproperties with
            | other hother => cases hother
            | dict heach =>
                intro e he
                obtain ⟨e', he', -, _, -, hinner⟩ := forall₂_mem_right heach he
                have hlower := Value.height_of_get? hget
                have hlowest := Value.height_le_of_mem_entries he'
                rw [Value.height] at hlower
                exact ih (by omega) ((Value.everywhere_dict.mp (hgiven.find? hget)).2 e' he').2
                  hinner
      | tuple items => exact absurd (Value.everywhere_tuple.mp hv).1 Bool.false_ne_true
      | _ =>
          obtain rfl := Except.ok.inj h
          exact .other rfl rfl

/-! ## Compiling what the loader gives back -/

/-- Whether the step of strings is presented with a pattern that is text. -/
def Step.meetsText (config : Entries) : Step → Bool
  | .builtin .string => ((config.get? "pattern").bind Value.text?).isSome
  | _ => false

/-- The build steps, with anything whatever where a pattern is still text. -/
def Options.ofStepOr (alarm : Factory → Entries → Build Attributes) (factory : Factory)
    (config : Entries) (step : Step) : Build Attributes :=
  if step.meetsText config then alarm factory config else ofStep factory config step

namespace Value.Loaded

variable {c w : Value} {config : Entries}

theorem given (h : w.Loaded) (hconfig : givenEntries .notADict w = .ok config) :
    (Value.dict config).Loaded := by
  cases w with
  | dict es =>
      obtain rfl : es = config := Except.ok.inj hconfig
      exact h
  | none =>
      obtain rfl : [] = config := Except.ok.inj hconfig
      exact empty
  | _ => cases hconfig

theorem ofStepOr_eq (h : (Value.dict config).Loaded)
    (alarm : Factory → Entries → Build Attributes) (factory : Factory) (step : Step) :
    Options.ofStepOr alarm factory config step = Options.ofStep factory config step := by
  have htext : (config.get? "pattern").bind Value.text? = Option.none :=
    Option.bind_eq_none_iff.mpr fun _ => h.pattern
  refine if_neg fun hmeets => ?_
  unfold Step.meetsText at hmeets
  split at hmeets
  · rw [htext] at hmeets
    cases hmeets
  · cases hmeets

end Value.Loaded

namespace Document

/-- When a document is compiled that was loaded, the step of strings never
meets a pattern that is text: whatever were done there instead, to the outcome
or to the record of layers, nobody would notice. -/
theorem compileBy_of_compilePatterns {document c : Value} {place : String}
    (hdocument : document.isDocument = true) (hload : compilePatterns place document = .ok c)
    (alarm : Factory → Entries → Build Attributes) (r : Registry) (additional : Value) :
    compileBy (Options.ofStepOr alarm) r c additional = compile r c additional := by
  have hloaded : c.Loaded := loaded_of_patternsWithin (Nat.lt_succ_self _) hdocument hload
  refine compileBy_eq (P := Value.Loaded) (fun c hc w hw config hconfig => ?_) r c additional
    hloaded
  have htyped := ((hc.single hw).given hconfig).typed
  exact ⟨htyped.handed, htyped.ofStepOr_eq alarm⟩

/-- Patterns in a property that lists its configurations, in the configuration
that all properties share and in a variant of that.  The first of them would be
met as text if the document were compiled as it is. -/
theorem compileBy_of_compilePatterns_nested :
    let strings : String → Value := fun source =>
      .dict [(.str "type", .str "string"), (.str "pattern", .str source)]
    let document : Value := .dict [
      (.str "type", .str "object"),
      (.str "properties", .dict [(.str "a", .list [strings "x", strings "y+"])]),
      (.str "schema", .dict [(.str "pattern", .str "z"), (.str "one_of", .list [strings "w?"])])]
    let alarm : Factory → Entries → Build Attributes := fun _ _ => throw (.fault .overflow)
    document.isDocument = true ∧
      (compileBy (Options.ofStepOr alarm) .builtin document .none).result
        = .error (.fault .overflow) ∧
      ∃ c, compilePatterns "" document = .ok c ∧
        compileBy (Options.ofStepOr alarm) .builtin c .none = compile .builtin c .none := by
  intro strings document alarm
  have hdocument : document.isDocument = true := by decide +kernel
  obtain ⟨c, hload⟩ : ∃ c, compilePatterns "" document = .ok c := exists_eq_ok (by decide +kernel)
  refine ⟨hdocument, ?_, c, hload,
    compileBy_of_compilePatterns hdocument hload alarm .builtin .none⟩
  have hcompile : compileBy (Options.ofStepOr alarm) .builtin = _ :=
    funext₂ fun c a => compileBy.eq_1 (Options.ofStepOr alarm) .builtin c a
  -- one equation for each level of the document
  rw [hcompile, hcompile]
  rfl

end Document

end Conform
