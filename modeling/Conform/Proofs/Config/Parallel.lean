/-
# `Proofs.Config.Parallel` — two compilers side by side

A build step hands configurations to a factory and does nothing else with
it, and a compiler runs build steps and does nothing else with them.  So a
relation that holds between what two factories make of the configurations
that they are handed, holds between what the steps make of the options, and
in the end between what the compilers make of the configuration.

What is asked of the relation is `Build.Parallel`: a run is related to
itself, and related runs followed by related runs are related.  Equality is
such a relation, and so is being the same run as far as it succeeds.
-/
import Conform.Config.Compile
import Conform.Proofs.Config.Merging

namespace Conform

/-! ## Runs side by side -/

/-- A relation that passes through every sequence of runs. -/
structure Build.Parallel (Q : ∀ {α : Type}, Build α → Build α → Prop) : Prop where
  same : ∀ {α : Type} (b : Build α), Q b b
  bind : ∀ {α β : Type} {b b' : Build α} {f f' : α → Build β}, Q b b' →
    (∀ a, b.result = .ok a → Q (f a) (f' a)) → Q (b >>= f) (b' >>= f')

namespace Build.Parallel

variable {Q : ∀ {α : Type}, Build α → Build α → Prop} {α β : Type}

/-- A run that is the same on both sides. -/
theorem bind_same (h : Parallel Q) {b : Build α} {f f' : α → Build β}
    (hf : ∀ a, b.result = .ok a → Q (f a) (f' a)) : Q (b >>= f) (b >>= f') :=
  h.bind (h.same b) hf

theorem mapM (h : Parallel Q) {f f' : α → Build β} {xs : List α} (hf : ∀ x ∈ xs, Q (f x) (f' x)) :
    Q (xs.mapM f) (xs.mapM f') := by
  induction xs with
  | nil => exact h.same _
  | cons x rest ih =>
      rw [List.mapM_cons, List.mapM_cons]
      refine h.bind (hf x List.mem_cons_self) fun y _ => ?_
      exact h.bind (ih fun z hz => hf z (List.mem_cons_of_mem _ hz)) fun _ _ => h.same _

theorem foldlM (h : Parallel Q) {f f' : β → α → Build β} {xs : List α}
    (hf : ∀ b, ∀ x ∈ xs, Q (f b x) (f' b x)) (b : β) : Q (xs.foldlM f b) (xs.foldlM f' b) := by
  induction xs generalizing b with
  | nil => exact h.same _
  | cons x rest ih =>
      rw [List.foldlM_cons, List.foldlM_cons]
      refine h.bind (hf b x List.mem_cons_self) fun c _ => ?_
      exact ih (fun c y hy => hf c y (List.mem_cons_of_mem _ hy)) c

end Build.Parallel

theorem build_bind_congr {α β : Type} {b : Build α} {p q : α → Build β}
    (h : ∀ a, b.result = .ok a → p a = q a) : b >>= p = b >>= q := by
  obtain ⟨⟨x, layers⟩⟩ := b
  cases x with
  | error _ => rfl
  | ok a => simp only [bind, h a rfl]

theorem Build.parallel_eq : Build.Parallel fun b b' => b = b' where
  same _ := rfl
  bind h hf := h ▸ build_bind_congr hf

/-! ## The options that hold configurations -/

namespace Options

variable {config : Entries}

/-- The configuration that a container gives to its parts. -/
theorem schemaOption_cases {generic : Value} (h : schemaOption config = .ok generic) :
    generic = .none ∨ config.get? "schema" = some generic ∧ generic.isConfiguration = true := by
  unfold schemaOption at h
  split at h
  · exact .inl (Except.ok.inj h).symm
  · rename_i v hv
    split at h
    · rename_i hconf
      obtain rfl := Except.ok.inj h
      exact .inr ⟨hv, hconf⟩
    · cases h

theorem schemaOption_ok {generic : Value} (h : schemaOption config = .ok generic) :
    generic.IsPartOption ∧ generic.height ≤ Value.heightEntries config := by
  rcases schemaOption_cases h with rfl | ⟨hget, hconf⟩
  · exact ⟨.inl rfl, Nat.zero_le _⟩
  · exact ⟨.inr hconf, Value.height_of_get? hget⟩

theorem propertiesOption_cases {declared : Entries} (h : propertiesOption config = .ok declared) :
    declared = [] ∨ config.get? "properties" = some (.dict declared) := by
  unfold propertiesOption at h
  split at h
  · exact .inl (Except.ok.inj h).symm
  · rename_i entries hv
    obtain rfl := Except.ok.inj h
    exact .inr hv
  · cases h

end Options

/-! ## What a step hands on -/

/-- Something is true of every configuration that the build steps hand to the
factory. -/
structure Entries.Handed (P : Value → Prop) (config : Entries) : Prop where
  items : ∀ v, config.get? "schema" = some v → v.isConfiguration = true → P v
  variant : ∀ v variants, config.get? "one_of" = some v → v.listed? = some variants →
    ∀ w ∈ variants, w.isDict = true → P w
  property : ∀ generic declared, Options.schemaOption config = .ok generic →
    config.get? "properties" = some (.dict declared) → ∀ e ∈ declared,
    (Options.propertyConfig e.2).isConfiguration = true →
    ∀ pair ∈ generic.pairs (Options.propertyConfig e.2), P (.dict (pair.erase (.str "required")))
  generic : ∀ v, config.get? "schema" = some v → v.isConfiguration = true →
    ∀ pair ∈ Value.none.pairs v, P (.dict (pair.erase (.str "required")))

theorem Entries.Handed.mono {P P' : Value → Prop} {config : Entries} (h : config.Handed P)
    (himp : ∀ c, P c → P' c) : config.Handed P' where
  items v hget hconf := himp _ (h.items v hget hconf)
  variant v variants hget hlisted w hw hdict :=
    himp _ (h.variant v variants hget hlisted w hw hdict)
  property generic declared hgeneric hget e he hconf pair hpair :=
    himp _ (h.property generic declared hgeneric hget e he hconf pair hpair)
  generic v hget hconf pair hpair := himp _ (h.generic v hget hconf pair hpair)

variable {Q : ∀ {α : Type}, Build α → Build α → Prop} {P : Value → Prop} {f g : Factory}

/-- The runs of two factories are related, on some configurations. -/
def Factory.Along (P : Value → Prop) (Q : ∀ {α : Type}, Build α → Build α → Prop)
    (f g : Factory) : Prop :=
  ∀ c, P c → ∀ a, Q (f c a) (g c a)

section parallel

variable (hQ : Build.Parallel Q) (h : Factory.Along P Q f g)
include hQ h

theorem compileCandidate_along (key : Value) {pair : Entries}
    (hpair : P (.dict (pair.erase (.str "required")))) :
    Q (compileCandidate f key (.dict pair)) (compileCandidate g key (.dict pair)) := by
  unfold compileCandidate
  refine hQ.bind_same fun split hsplit => ?_
  rw [splitRequired_eq, Build.result_lift_fault, lift_eq_ok] at hsplit
  obtain ⟨required, -, hsplit⟩ := bind_eq_ok.mp hsplit
  obtain rfl := Except.ok.inj hsplit
  exact hQ.bind (h _ hpair _) fun _ _ => hQ.same _

theorem compileMerged_along (key : Value) {generic specific : Value} (hg : generic.IsPartOption)
    (hs : specific.IsPartOption)
    (hpairs : ∀ pair ∈ generic.pairs specific, P (.dict (pair.erase (.str "required")))) :
    Q (compileMerged f key generic specific) (compileMerged g key generic specific) := by
  rw [compileMerged_eq_pairs f key hg hs, compileMerged_eq_pairs g key hg hs]
  refine hQ.bind (hQ.mapM fun pair hpair => ?_) fun _ _ => hQ.same _
  exact compileCandidate_along hQ h key (hpairs pair hpair)

namespace Options

variable {config : Entries}

omit hQ h in
theorem partSchema_none (compile : Value → Build Schema) :
    partSchema compile .none = pure .none := rfl

omit h in
theorem partSchema_along {compile compile' : Value → Build Schema} {generic : Value}
    (hpart : Q (compile generic) (compile' generic)) :
    Q (partSchema compile generic) (partSchema compile' generic) := by
  unfold partSchema
  split
  · exact hQ.same _
  · exact hQ.bind hpart fun _ _ => hQ.same _

theorem array_along (hconfig : config.Handed P) : Q (array f config) (array g config) := by
  refine hQ.bind_same fun low _ => hQ.bind_same fun high _ => ?_
  refine hQ.bind_same fun generic hgeneric => ?_
  refine hQ.bind ?_ fun _ _ => hQ.same _
  rcases schemaOption_cases hgeneric with rfl | ⟨hget, hconf⟩
  · exact hQ.same _
  · exact partSchema_along hQ (h generic (hconfig.items generic hget hconf) .none)

theorem oneOf_along (hconfig : config.Handed P) : Q (oneOf f config) (oneOf g config) := by
  unfold oneOf
  cases hv : config.get? "one_of" with
  | none => exact hQ.same _
  | some v =>
      cases hlisted : v.listed? with
      | none =>
          simp only [hlisted]
          exact hQ.same _
      | some variants =>
          simp only [hlisted]
          cases hdicts : variants.all Value.isDict with
          | false => exact hQ.same _
          | true =>
              refine hQ.bind (hQ.mapM fun w hw => ?_) fun _ _ => hQ.same _
              exact h w (hconfig.variant v variants hv hlisted w hw
                (List.all_eq_true.mp hdicts w hw)) .none

theorem property_along {generic key v : Value} (hg : generic.IsPartOption)
    (hpairs : (propertyConfig v).isConfiguration = true →
      ∀ pair ∈ generic.pairs (propertyConfig v), P (.dict (pair.erase (.str "required")))) :
    Q (property f generic key v) (property g generic key v) := by
  unfold property
  split
  · rename_i hconf
    refine hQ.bind ?_ fun _ _ => hQ.same _
    exact compileMerged_along hQ h key hg (.inr hconf) (hpairs hconf)
  · exact hQ.same _

theorem properties_along {generic : Value} (hg : generic.IsPartOption) {declared : Entries}
    (hpairs : ∀ e ∈ declared, (propertyConfig e.2).isConfiguration = true →
      ∀ pair ∈ generic.pairs (propertyConfig e.2), P (.dict (pair.erase (.str "required")))) :
    Q (properties f generic declared) (properties g generic declared) := by
  induction declared with
  | nil => exact hQ.same _
  | cons e rest ih =>
      obtain ⟨hhead, hrest⟩ := List.forall_mem_cons.mp hpairs
      refine hQ.bind (property_along hQ h hg hhead) fun _ _ => ?_
      exact hQ.bind (ih hrest) fun _ _ => hQ.same _

theorem object_along (hconfig : config.Handed P) : Q (object f config) (object g config) := by
  refine hQ.bind_same fun declared hdeclared => hQ.bind_same fun generic hgeneric => ?_
  have hg := (schemaOption_ok hgeneric).1
  have hproperties : Q (properties f generic declared) (properties g generic declared) := by
    rcases propertiesOption_cases hdeclared with rfl | hget
    · exact hQ.same _
    · exact properties_along hQ h hg (hconfig.property generic declared hgeneric hget)
  refine hQ.bind hproperties fun _ _ => hQ.bind_same fun _ _ => hQ.bind_same fun _ _ => ?_
  refine hQ.bind ?_ fun _ _ => hQ.same _
  rcases schemaOption_cases hgeneric with rfl | ⟨hget, hconf⟩
  · rw [partSchema_none, partSchema_none]
    exact hQ.same _
  · refine partSchema_along hQ (compileMerged_along hQ h _ (.inl rfl) hg ?_)
    exact hconfig.generic generic hget hconf

/-- The runs of a build step are related as those of the factories are. -/
theorem ofStep_along (hconfig : config.Handed P) (step : Step) :
    Q (ofStep f config step) (ofStep g config step) := by
  cases step with
  | call _ => exact hQ.same _
  | builtin kind =>
      cases kind with
      | array => exact array_along hQ h hconfig
      | object => exact object_along hQ h hconfig
      | oneOf => exact oneOf_along hQ h hconfig
      | _ => exact hQ.same _

end Options

end parallel

/-! ## Compilers with other build steps -/

/-- What the build steps make of the options of a configuration. -/
abbrev Steps := Entries → Step → Build Attributes

def buildLayerBy (steps : Steps) (owner : String) (config : Entries) (attrs : Attributes)
    (layer : Layer) : Build Attributes := do
  Build.note layer
  attrs.setAll owner (← steps config layer.build)

def buildInstanceBy (steps : Steps) (d : Definition) (config extras : Entries) :
    Build Instance := do
  let owner := schemaClassName d.name
  let attrs ← d.chain.foldlM (buildLayerBy steps owner config) []
  let attrs ← attrs.setAll owner (← Attributes.ofEntries extras)
  finishInstance owner d.chain attrs

def compileSingleBy (steps : Steps) (r : Registry) (configuration additional : Value) :
    Build Instance := do
  let config ← givenEntries .notADict configuration
  let extras ← givenEntries .additionalNotADict additional
  let (config, type) := typedEntries config
  match r.resolve type with
  | some d => buildInstanceBy steps d config extras
  | none => throw (.config (.unknownType type))

/-- Compiles as `compileWith` does, by other build steps. -/
def compileWithBy (steps : Steps) (r : Registry) (configuration additional : Value) :
    Build Schema := do
  match configuration.listed? with
  | some configurations =>
      let extras ← additionalFor additional configurations.length
      let schemas ← (configurations.zip extras).mapM fun (c, e) => compileSingleBy steps r c e
      return .ofAlternatives (schemas.map .single)
  | none =>
      if additional.listed?.isSome then throw (.config .additionalList)
      return .single (← compileSingleBy steps r configuration additional)

/-- What follows on a lookup in the first registry is related to what follows
in the second. -/
def Registry.Along (Q : ∀ {α : Type}, Build α → Build α → Prop) (r r' : Registry) : Prop :=
  ∀ (type : Value) (b b' : Definition → Build Instance), (∀ d, Q (b d) (b' d)) →
    Q (match r.resolve type with
      | some d => b d
      | none => throw (.config (.unknownType type)))
      (match r'.resolve type with
      | some d => b' d
      | none => throw (.config (.unknownType type)))

theorem Registry.along_eq (r : Registry) : r.Along (fun b b' => b = b') r :=
  fun _ _ _ h => by rw [funext h]

theorem compileWith_eq_by (f : Factory) (r : Registry) (configuration additional : Value) :
    compileWith f r configuration additional
      = compileWithBy (Options.ofStep f) r configuration additional := rfl

section parallel

variable (hQ : Build.Parallel Q) {steps steps' : Steps} {r r' : Registry}
include hQ

theorem buildInstance_along (d : Definition) {config extras : Entries}
    (h : ∀ step, Q (steps config step) (steps' config step)) :
    Q (buildInstanceBy steps d config extras) (buildInstanceBy steps' d config extras) := by
  refine hQ.bind (hQ.foldlM (fun attrs layer _ => ?_) []) fun _ _ => hQ.same _
  exact hQ.bind_same fun _ _ => hQ.bind (h layer.build) fun _ _ => hQ.same _

theorem compileSingle_along (hr : r.Along Q r') {configuration additional : Value}
    (h : ∀ config, givenEntries .notADict configuration = .ok config →
      ∀ step, Q (steps (typedEntries config).1 step) (steps' (typedEntries config).1 step)) :
    Q (compileSingleBy steps r configuration additional)
      (compileSingleBy steps' r' configuration additional) := by
  refine hQ.bind_same fun config hconfig => hQ.bind_same fun extras _ => ?_
  exact hr _ _ _ fun d => buildInstance_along hQ d (h config hconfig)

/-- The runs of two compilers are related where their build steps are, on the
configuration or on those it lists. -/
theorem compileWith_along (hr : r.Along Q r') {configuration additional : Value}
    (h : ∀ w ∈ configuration.listed?.getD [configuration],
      ∀ config, givenEntries .notADict w = .ok config →
      ∀ step, Q (steps (typedEntries config).1 step) (steps' (typedEntries config).1 step)) :
    Q (compileWithBy steps r configuration additional)
      (compileWithBy steps' r' configuration additional) := by
  unfold compileWithBy
  cases hlisted : configuration.listed? with
  | none =>
      rw [hlisted] at h
      have hsingle : Q (compileSingleBy steps r configuration additional)
          (compileSingleBy steps' r' configuration additional) :=
        compileSingle_along hQ hr (h configuration List.mem_cons_self)
      cases additional.listed?.isSome with
      | true =>
          simp only [if_true]
          exact hQ.same _
      | false =>
          exact hQ.bind hsingle fun _ _ => hQ.same _
  | some configurations =>
      rw [hlisted] at h
      refine hQ.bind_same fun extras _ => hQ.bind (hQ.mapM fun x hx => ?_) fun _ _ => hQ.same _
      exact compileSingle_along hQ hr (h x.1 (List.of_mem_zip hx).1)

end parallel

end Conform
