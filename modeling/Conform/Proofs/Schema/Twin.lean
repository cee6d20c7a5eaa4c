/-
# `Proofs.Schema.Twin` — schemas whose attributes are reordered

`Twin` schemas have one digested text, one digest and the same flags, and
they accept the same values.  Two compiled schemas of one kind are twins as
soon as their attributes are reorderings of each other, where the schemas in
the attributes may be twins in turn.

A check looks up, compares or goes through an attribute.  What it looks up
is there under the same name, what it compares is equal to the same values,
and the declared properties are only gone through to find one that is
missing; so no check sees an order.
-/
import Conform.Proofs.Digest.Reordered
import Conform.Proofs.Schema.Transparent
import Conform.Proofs.Value.Indifferent

namespace Conform

/-! ## Twins -/

/-- Compiled schemas with one text that answer alike. -/
structure Instance.Twin (s t : Instance) : Prop where
  compiled : (Schema.single s).Compiled ∧ (Schema.single t).Compiled
  hash : s.hash = t.hash
  digested : (Schema.single s).digested = (Schema.single t).digested
  hasDefault : s.flag "has_default" = t.flag "has_default"
  alike : (Schema.single s).Alike (.single t)

/-- Single twins, or as many members that are twins in pairs. -/
inductive Schema.Twin : Schema → Schema → Prop
  | single {s t : Instance} (h : s.Twin t) : Twin (.single s) (.single t)
  | multi {ss ts : List Instance} (h : List.Forall₂ Instance.Twin ss ts) : Twin (.multi ss) (.multi ts)

theorem Instance.Twin.symm {s t : Instance} (h : s.Twin t) : t.Twin s where
  compiled := h.compiled.symm
  hash := h.hash.symm
  digested := h.digested.symm
  hasDefault := h.hasDefault.symm
  alike := ⟨h.alike.required.symm, fun v => (h.alike.accepts v).symm⟩

namespace Schema.Twin

variable {s t : Schema}

theorem members (h : s.Twin t) : List.Forall₂ Instance.Twin s.members t.members := by
  cases h with
  | single h => exact .cons h .nil
  | multi h => exact h

theorem symm (h : s.Twin t) : t.Twin s := by
  cases h with
  | single h => exact .single h.symm
  | multi h => exact .multi (h.imp fun _ _ h => h.symm).flip

theorem compiled (h : s.Twin t) : s.Compiled := by
  refine Schema.compiled_iff.mpr fun u hu => ?_
  obtain ⟨_, -, hw⟩ := forall₂_mem_left h.members hu
  exact hw.compiled.1

theorem hash_members (h : s.Twin t) : s.members.map Instance.hash = t.members.map Instance.hash :=
  map_eq_of_forall₂ h.members fun _ _ h => h.hash

theorem hash (h : s.Twin t) : s.hash = t.hash := by
  have hmembers := h.hash_members
  cases h with
  | single h => exact h.hash
  | multi h => exact congrArg hashSequence hmembers

theorem digested (h : s.Twin t) : s.digested = t.digested := by
  have hmembers := h.hash_members
  cases h with
  | single h => exact h.digested
  | multi h => exact congrArg (fun hashes => Except.ok (String.join hashes)) hmembers

theorem hasDefault (h : s.Twin t) : s.hasDefault = t.hasDefault := by
  cases h with
  | single h => exact h.hasDefault
  | @multi ss ts h =>
      show Option.isSome <$> Instance.firstFlag "has_default" ss
        = Option.isSome <$> Instance.firstFlag "has_default" ts
      induction h with
      | nil => rfl
      | @cons u w _ _ hhead _ ih =>
          rw [Instance.firstFlag, Instance.firstFlag, hhead.hasDefault]
          cases w.flag "has_default" with
          | error e => rfl
          | ok b =>
              cases b with
              | true => rfl
              | false => exact ih

theorem alike (h : s.Twin t) : s.Alike t := by
  have hs : ∀ u ∈ s.members, (Schema.single u).Compiled := Schema.compiled_iff.mp h.compiled
  have ht : ∀ u ∈ t.members, (Schema.single u).Compiled := Schema.compiled_iff.mp h.symm.compiled
  cases h with
  | single h => exact h.alike
  | @multi ss ts h =>
      constructor
      · exact Schema.required_congr (h.imp fun _ _ h => h.alike.required)
      · intro v
        rw [@Schema.accepts_multi ss hs, @Schema.accepts_multi ts ht]
        exact askAny_congr (h.imp fun _ _ h => h.alike.accepts v)

/-- What is dropped as repeated is dropped of both. -/
theorem dropRepeated {us ws : List Instance} (h : List.Forall₂ Instance.Twin us ws)
    (seen : List String) :
    List.Forall₂ Instance.Twin (dropRepeated seen us) (Schema.dropRepeated seen ws) := by
  induction h generalizing seen with
  | nil => exact .nil
  | cons hhead _ ih =>
      rw [Schema.dropRepeated, Schema.dropRepeated, hhead.hash]
      split
      · exact ih _
      · exact .cons hhead (ih _)

variable {ss ts : List Schema}

theorem flatMap_members (h : List.Forall₂ Schema.Twin ss ts) :
    List.Forall₂ Instance.Twin (ss.flatMap Schema.members) (ts.flatMap Schema.members) :=
  List.rel_flatMap h fun _ _ h => h.members

theorem collapse (h : List.Forall₂ Schema.Twin ss ts) :
    (Schema.collapse ss).Twin (Schema.collapse ts) := by
  have hkept := dropRepeated (flatMap_members h) []
  unfold Schema.collapse
  generalize Schema.dropRepeated [] (ss.flatMap Schema.members) = us,
    Schema.dropRepeated [] (ts.flatMap Schema.members) = ws at hkept
  cases hkept with
  | nil => exact .multi .nil
  | cons hhead htail =>
      cases htail with
      | nil => exact .single hhead
      | cons hnext htail => exact .multi (.cons hhead (.cons hnext htail))

theorem ofAlternatives (h : List.Forall₂ Schema.Twin ss ts) :
    (Schema.ofAlternatives ss).Twin (Schema.ofAlternatives ts) :=
  .multi (dropRepeated (flatMap_members h) [])

end Schema.Twin

/-- What stands for a schema in a reordered configuration: itself if it was
given, a twin if it was compiled. -/
def Schema.Same (s t : Schema) : Prop := s = t ∨ s.Twin t

namespace Schema.Same

variable {s t : Schema}

theorem symm (h : s.Same t) : t.Same s := h.imp Eq.symm Schema.Twin.symm

theorem alike (h : s.Same t) : s.Alike t := by
  rcases h with rfl | h
  · exact ⟨rfl, fun _ => rfl⟩
  · exact h.alike

theorem outline (s t : Schema) (h : s.Same t) :
    (Value.schema s).outline = (Value.schema t).outline := by
  rcases h with rfl | h
  · rfl
  · rw [Value.outline_schema h.compiled.answers, Value.outline_schema h.symm.compiled.answers,
      h.hash]

end Schema.Same

/-! ## Attributes that may be absent -/

namespace Value.Reordered

variable {R : Schema → Schema → Prop}

theorem optional_eq {α : Type} {f : α → Value} {a b : Option α} (hinj : Function.Injective f)
    (ha : ∀ x, a = some x → (f x).isAtom = true ∧ f x ≠ .none) (hb : ∀ y, b = some y → f y ≠ .none)
    (h : Reordered R (optional f a) (optional f b)) : a = b := by
  have hatom : (optional f a).isAtom = true := by
    cases a with
    | none => rfl
    | some x => exact (ha x rfl).1
  have heq := h.eq_of_atom hatom
  cases a with
  | none =>
      cases b with
      | none => rfl
      | some y => exact absurd heq (hb y rfl)
  | some x =>
      cases b with
      | none => exact absurd heq.symm (ha x rfl).2
      | some y => rw [hinj heq]

theorem optional_tuple {xs ys : Option (List Value)}
    (h : Reordered R (optional .tuple xs) (optional .tuple ys)) :
    Option.Rel (List.Forall₂ (Reordered R)) xs ys := by
  cases xs with
  | none =>
      cases ys with
      | none => exact .none
      | some ys => cases h.eq_of_atom rfl
  | some xs =>
      obtain ⟨ys', heq, hall⟩ := tuple_iff.mp h
      cases ys with
      | none => cases heq
      | some ys =>
          obtain rfl := Value.tuple.inj heq
          exact .some hall

theorem optional_schema {s t : Option Schema}
    (h : Reordered R (optional .schema s) (optional .schema t)) : Option.Rel R s t := by
  cases s with
  | none =>
      cases t with
      | none => exact .none
      | some t => cases h.eq_of_atom rfl
  | some s =>
      obtain ⟨t', heq, hst⟩ := schema_iff.mp h
      cases t with
      | none => cases heq
      | some t =>
          obtain rfl := Value.schema.inj heq
          exact .some hst

theorem schemas {ss ts : List Schema}
    (h : Reordered R (.tuple (ss.map .schema)) (.tuple (ts.map .schema))) :
    List.Forall₂ R ss ts := by
  obtain ⟨_, heq, hall⟩ := tuple_iff.mp h
  obtain rfl := Value.tuple.inj heq
  rw [List.forall₂_map_left_iff, List.forall₂_map_right_iff] at hall
  refine hall.imp fun s t hst => ?_
  obtain ⟨u, heq, hsu⟩ := schema_iff.mp hst
  exact Value.schema.inj heq ▸ hsu

/-- Every property has one under the same key. -/
theorem property {props props' : List (Value × Schema)}
    (h : Reordered R (.dict (Demand.entries props)) (.dict (Demand.entries props'))) :
    ∀ e ∈ props, ∃ e' ∈ props', e.1 = e'.1 ∧ R e.2 e'.2 := by
  intro e he
  have hmem : (e.1, Value.schema e.2) ∈ Demand.entries props := List.mem_map.mpr ⟨e, he, rfl⟩
  obtain ⟨name, hname⟩ := h.record.1.texts _ (List.mem_map_of_mem hmem)
  have hget := h.get? name
  have hname : e.1 = .str name := hname
  rw [h.record.1.get?_iff.mpr (hname ▸ hmem)] at hget
  generalize hw : Entries.get? (Demand.entries props') name = w at hget
  cases hget with
  | @some _ w hvw =>
      obtain ⟨t, rfl, hst⟩ := schema_iff.mp hvw
      obtain ⟨e', he', heq⟩ := List.mem_map.mp (h.record.2.get?_iff.mp hw)
      obtain ⟨hkey, hvalue⟩ := Prod.mk.inj heq
      exact ⟨e', he', hname.trans hkey.symm, (Value.schema.inj hvalue).symm ▸ hst⟩

end Value.Reordered

/-! ## Plans with reordered attributes -/

/-- What compiling guarantees of two plans, of one kind and with reordered
attributes. -/
structure Plan.Reordered (p q : Plan) : Prop where
  proper : p.Proper ∧ q.Proper
  kind : p.demand.kind = q.demand.kind
  attributes : Attributes.Reordered Schema.Same p.attributes q.attributes

namespace Plan.Reordered

variable {p q : Plan} {d d' : Demand}

theorem value (h : Plan.Reordered p q) {name : String} {v w : Value}
    (hv : p.attributes.lookup name = some v) (hw : q.attributes.lookup name = some w) :
    v.Reordered Schema.Same w := by
  have hrel := h.attributes.lookup name
  rw [hv, hw] at hrel
  cases hrel with
  | some hvw => exact hvw

/-! ## The root -/

theorem required (h : Plan.Reordered p q) : p.required = q.required := by
  have hrel := h.attributes.lookup "required"
  rw [p.lookup_required, q.lookup_required] at hrel
  generalize p.required = b, q.required = c at hrel
  cases b with
  | none =>
      cases c with
      | none => rfl
      | some c => cases hrel
  | some b =>
      cases c with
      | none => cases hrel
      | some c =>
          cases hrel with
          | some hbc => rw [Value.bool.inj (hbc.eq_of_atom rfl)]

theorem hasDefault (h : Plan.Reordered p q) : p.hasDefault = q.hasDefault := by
  have hlookup : ∀ r : Plan, r.attributes.lookup "has_default" = some (.bool r.hasDefault) :=
    fun r => by simp [Plan.attributes, common, List.lookup_cons]
  exact (Value.bool.inj ((h.value (hlookup p) (hlookup q)).eq_of_atom rfl)).symm

theorem enum (h : Plan.Reordered p q) :
    Option.Rel (List.Forall₂ (Value.Reordered Schema.Same)) p.enum q.enum := by
  have hlookup : ∀ r : Plan, r.attributes.lookup "enum" = some (optional .tuple r.enum) := fun r => by
    simp [Plan.attributes, common, List.lookup_cons]
  exact (h.value (hlookup p) (hlookup q)).optional_tuple

theorem lists (h : Plan.Reordered p q) (v : Value) : p.lists v = q.lists v := by
  have henum := h.enum
  rw [Plan.lists, Plan.lists]
  generalize p.enum = xs, q.enum = ys at henum
  cases henum with
  | none => rfl
  | some hall => exact Value.Reordered.isSome_strictIndex? hall v

theorem listsWritable (h : Plan.Reordered p q) : p.listsWritable = q.listsWritable := by
  have henum := h.enum
  rw [Plan.listsWritable, Plan.listsWritable]
  generalize p.enum = xs, q.enum = ys at henum
  cases henum with
  | none => rfl
  | some hall => exact haveLiterals_congr (hall.imp fun _ _ hvw => hvw.hasLiteral_eq)

theorem validates (h : Plan.Reordered p q) (v : Value) : p.validates v = q.validates v := by
  have hlookup : ∀ r : Plan,
      r.attributes.lookup "validator" = some (optional .callable r.validator) := fun r => by
    simp [Plan.attributes, common, List.lookup_cons]
  have hvalidator : p.validator = q.validator :=
    (h.value (hlookup p) (hlookup q)).optional_eq (fun _ _ => Value.callable.inj)
      (fun f _ => ⟨rfl, Value.callable_ne_none f⟩) fun f _ => Value.callable_ne_none f
  rw [Plan.validates, Plan.validates, hvalidator]

/-! ## Demands without parts -/

section demands

variable (h : Plan.Reordered p q) (hd : p.demand = d) (hd' : q.demand = d') (name : String)
include h hd hd'

theorem own {v w : Value} (hname : name ∉ commonNames ∧ name ≠ "required")
    (hv : d.attributes.lookup name = some v) (hw : d'.attributes.lookup name = some w) :
    v.Reordered Schema.Same w :=
  h.value (lookup_of_demand hd hname hv) (lookup_of_demand hd' hname hw)

theorem atom {v w : Value} (hname : name ∉ commonNames ∧ name ≠ "required")
    (hv : d.attributes.lookup name = some v) (hatom : v.isAtom = true)
    (hw : d'.attributes.lookup name = some w) : v = w :=
  ((h.own hd hd' name hname hv hw).eq_of_atom hatom).symm

theorem limit {a b : Option Int} (hname : name ∉ commonNames ∧ name ≠ "required")
    (ha : d.attributes.lookup name = some (optional .int a))
    (hb : d'.attributes.lookup name = some (optional .int b)) : a = b :=
  (h.own hd hd' name hname ha hb).optional_eq (fun _ _ => Value.int.inj)
    (fun _ _ => ⟨rfl, nofun⟩) fun _ _ => nofun

theorem bound {a b : Option Value} (hname : name ∉ commonNames ∧ name ≠ "required")
    (ha : d.attributes.lookup name = some (optional id a))
    (hb : d'.attributes.lookup name = some (optional id b))
    (hreal : ∀ x, a = some x → x.isReal = true) (hreal' : ∀ y, b = some y → y.isReal = true) :
    a = b := by
  have real : ∀ {x : Value}, x.isReal = true → x.isAtom = true ∧ x ≠ .none := by
    intro x hx
    constructor
    · cases x <;> first | rfl | cases hx
    · rintro rfl
      cases hx
  exact (h.own hd hd' name hname ha hb).optional_eq Function.injective_id
    (fun x hx => real (hreal x hx)) fun y hy => (real (hreal' y hy)).2

omit name in
/-- The schemas of all parts are both absent, or decide alike. -/
theorem generic {item item' : Option Schema}
    (hitem : d.attributes.lookup "schema" = some (optional .schema item))
    (hitem' : d'.attributes.lookup "schema" = some (optional .schema item')) :
    Option.Rel Schema.Alike item item' := by
  cases (h.own hd hd' "schema" (by decide) hitem hitem').optional_schema with
  | none => exact .none
  | some hst => exact .some hst.alike

end demands

theorem acceptsNumber (h : Plan.Reordered p q) {above below whole above' below' whole' : Bool}
    {most least most' least' : Option Value} (hd : p.demand = .number above below whole most least)
    (hd' : q.demand = .number above' below' whole' most' least') (v : Value) :
    Demand.acceptsNumber above below whole most least v
      = Demand.acceptsNumber above' below' whole' most' least' v := by
  have hp := hd ▸ h.proper.1.demand
  have hq := hd' ▸ h.proper.2.demand
  obtain rfl := Value.bool.inj (h.atom hd hd' "exclusive_max" (by decide) rfl rfl rfl)
  obtain rfl := Value.bool.inj (h.atom hd hd' "exclusive_min" (by decide) rfl rfl rfl)
  obtain rfl := Value.bool.inj (h.atom hd hd' "integer" (by decide) rfl rfl rfl)
  obtain rfl := h.bound hd hd' "max" (by decide) rfl rfl hp.1 hq.1
  obtain rfl := h.bound hd hd' "min" (by decide) rfl rfl hp.2 hq.2
  rfl

theorem acceptsString (h : Plan.Reordered p q) {most most' : Option Int} {least least' : Int}
    {pattern pattern' : Option Pattern} (hd : p.demand = .string most least pattern)
    (hd' : q.demand = .string most' least' pattern') (v : Value) :
    Demand.acceptsString most least pattern v = Demand.acceptsString most' least' pattern' v := by
  obtain rfl := h.limit hd hd' "max_length" (by decide) rfl rfl
  obtain rfl := Value.int.inj (h.atom hd hd' "min_length" (by decide) rfl rfl rfl)
  obtain rfl : pattern = pattern' :=
    (h.own hd hd' "pattern" (by decide) rfl rfl).optional_eq (fun _ _ => Value.pattern.inj)
      (fun _ _ => ⟨rfl, nofun⟩) fun _ _ => nofun
  rfl

theorem acceptsFunction (h : Plan.Reordered p q) {most most' : Option Value} {least least' : Value}
    {named named' : Bool} (hd : p.demand = .function most least named)
    (hd' : q.demand = .function most' least' named') (v : Value) :
    Demand.acceptsFunction most least named v = Demand.acceptsFunction most' least' named' v := by
  have hp := hd ▸ h.proper.1.demand
  have hq := hd' ▸ h.proper.2.demand
  obtain rfl := h.bound hd hd' "max_arguments" (by decide) rfl rfl
    (fun x hx => isReal_of_isInteger (hp.1 x hx)) fun y hy => isReal_of_isInteger (hq.1 y hy)
  obtain hleast := h.bound (a := some least) (b := some least') hd hd' "min_arguments" (by decide)
    rfl rfl (fun x hx => Option.some.inj hx ▸ isReal_of_isInteger hp.2)
    fun y hy => Option.some.inj hy ▸ isReal_of_isInteger hq.2
  obtain rfl := Option.some.inj hleast
  obtain rfl := Value.bool.inj (h.atom hd hd' "named" (by decide) rfl rfl rfl)
  rfl

/-! ## Demands with parts -/

variable {item item' : Option Schema}

theorem acceptsArray (h : Plan.Reordered p q) {most most' : Option Int} {least least' : Int}
    {unique unique' : Bool} (hd : p.demand = .array most least item unique)
    (hd' : q.demand = .array most' least' item' unique') (v : Value) :
    Demand.acceptsArray Schema.accepts most least item unique v
      = Demand.acceptsArray Schema.accepts most' least' item' unique' v := by
  obtain rfl := h.limit hd hd' "max_items" (by decide) rfl rfl
  obtain rfl := Value.int.inj (h.atom hd hd' "min_items" (by decide) rfl rfl rfl)
  obtain rfl := Value.bool.inj (h.atom hd hd' "unique_items" (by decide) rfl rfl rfl)
  exact Demand.acceptsArray_congr (h.generic hd hd' rfl rfl) _ _ _ v

theorem acceptsOneOf (h : Plan.Reordered p q) {variants variants' : List Schema}
    (hd : p.demand = .oneOf variants) (hd' : q.demand = .oneOf variants') (v : Value) :
    askAny (Schema.accepts · v) variants = askAny (Schema.accepts · v) variants' := by
  have hvariants := (h.own hd hd' "one_of" (by decide) rfl rfl).schemas
  exact askAny_congr (hvariants.imp fun _ _ hst => hst.alike.accepts v)

/-- Properties under one key are the same schema or twins, wherever they are declared. -/
theorem sameProperties {props props' : List (Value × Schema)}
    (h : (Value.dict (Demand.entries props)).Reordered Schema.Same
      (.dict (Demand.entries props'))) : Demand.SameProperties props props' where
  forth e he := by
    obtain ⟨e', he', hkey, hsame⟩ := h.property e he
    exact ⟨e', he', fun k => by rw [hkey], hsame.alike⟩
  back e' he' := by
    obtain ⟨e, he, hkey, hsame⟩ := (h.symm fun _ _ => Schema.Same.symm).property e' he'
    exact ⟨e, he, fun k => by rw [hkey], hsame.symm.alike⟩

theorem acceptsObject (h : Plan.Reordered p q) {allowNull allowNull' clean clean' : Bool}
    {props props' : List (Value × Schema)} (hd : p.demand = .object allowNull clean props item)
    (hd' : q.demand = .object allowNull' clean' props' item') (v : Value) :
    Demand.acceptsObject Schema.accepts allowNull props item v
      = Demand.acceptsObject Schema.accepts allowNull' props' item' v := by
  obtain rfl := Value.bool.inj (h.atom hd hd' "allow_null" (by decide) rfl rfl rfl)
  have hprops := h.own hd hd' "properties" (by decide) rfl rfl
  have hapart : (Demand.entries props').KeysApart := hprops.record.2.keysApart
  exact (sameProperties hprops).acceptsObject (List.pairwise_map.mp (List.pairwise_map.mp hapart))
    (h.generic hd hd' rfl rfl) allowNull v

/-- Both demand the same of a value. -/
theorem accepts (h : Plan.Reordered p q) (v : Value) :
    p.accepts Schema.accepts v = q.accepts Schema.accepts v := by
  have hdemand : p.demand.accepts Schema.accepts v = q.demand.accepts Schema.accepts v := by
    have hkind := h.kind
    cases hd : p.demand <;> cases hd' : q.demand <;> rw [hd, hd'] at hkind
    case number.number => exact h.acceptsNumber hd hd' v
    case string.string => exact h.acceptsString hd hd' v
    case function.function => exact h.acceptsFunction hd hd' v
    case array.array => exact h.acceptsArray hd hd' v
    case object.object => exact h.acceptsObject hd hd' v
    case oneOf.oneOf => exact h.acceptsOneOf hd hd' v
    all_goals first | rfl | cases hkind
  rw [Plan.accepts, Plan.accepts, h.lists v, h.listsWritable, h.validates v, hdemand]

end Plan.Reordered

/-! ## Schemas with reordered attributes -/

theorem Kind.chain_inj {k k' : Kind} (h : k.chain = k'.chain) : k = k' := by
  have hlabel : ∀ k : Kind, k.chain.getLast?.map Layer.name = some k.label := by
    intro k
    cases k <;> rfl
  have hlabels : k.label = k'.label := by
    have hlast := congrArg (fun chain : List Layer => chain.getLast?.map Layer.name) h
    exact Option.some.inj ((hlabel k).symm.trans (hlast.trans (hlabel k')))
  revert hlabels
  cases k <;> cases k' <;> decide

/-- Compiled schemas of one kind, with one digest and reordered attributes, are
twins. -/
theorem Instance.twin_of_attributes {s t : Instance} (hs : (Schema.single s).Compiled)
    (ht : (Schema.single t).Compiled) (hchain : s.chain = t.chain)
    (h : Attributes.Reordered Schema.Same s.attributes t.attributes) : s.Twin t := by
  have hs' := hs
  have ht' := ht
  cases hs with
  | single p hash proper digest parts =>
      cases ht with
      | single q hash' proper' digest' parts' =>
          have hpq : Plan.Reordered p q := ⟨⟨proper, proper'⟩, Kind.chain_inj hchain, h⟩
          have hlines := digest
          rw [Attributes.hash] at hlines
          obtain ⟨ls, hls, hhash⟩ := bind_eq_ok.mp hlines
          have hls' : q.attributes.lines = .ok ls := h.lines Schema.Same.outline hls
          refine ⟨⟨hs', ht'⟩, ?_, ?_, ?_, ?_, fun v => ?_⟩
          · have hhash' : q.attributes.hash = .ok hash := by
              rw [Attributes.hash, hls']
              exact hhash
            exact Except.ok.inj (hhash'.symm.trans digest')
          · show Attributes.digested p.attributes = Attributes.digested q.attributes
            rw [Attributes.digested, Attributes.digested, hls, hls']
          · rw [Plan.flag_hasDefault, Plan.flag_hasDefault, hpq.hasDefault]
          · show (p.toInstance hash).flag "required" = (q.toInstance hash').flag "required"
            rw [Plan.flag_required, Plan.flag_required, hpq.required]
          · rw [Schema.accepts_single hash proper.demand proper.legible parts,
              Schema.accepts_single hash' proper'.demand proper'.legible parts', hpq.accepts]

end Conform
