/-
# `Proofs.Config.Throughout` — what attributes take from a configuration

Compiling adds flags, counts, one text, schemas and containers; every other value
in the attributes stands in the configuration already.  So a test that what is
added passes, and that everything in a configuration passes at any depth, is passed
everywhere in the attributes of every schema inside the result (`Lenient`).

For the configurations inside, which are made by merging, less is asked: that what is
taken out of configurations or merged of them has the property that they have
(`Value.PassedOn`).
-/
import Conform.Proofs.Config.Nested
import Conform.Proofs.Value.Everywhere

namespace Conform

/-- What compiling adds to the values of a configuration, apart from counts. -/
def Value.isAdded : Value → Bool
  | .none | .undefined | .bool _ | .str _ | .tuple _ | .dict _ | .schema _ => true
  | .int n => n == 0
  | _ => false

/-- A test that what compiling adds passes, and counts pass if the numbers do that they
are read from. -/
structure Lenient (p : Value → Bool) : Prop where
  added : ∀ v : Value, v.isAdded = true → p v = true
  count : ∀ (v : Value) (n : Int), v.isInteger = true → p v = true → v.toInt = .ok n →
    p (.int n) = true

theorem Value.lenient_unfixed : Lenient fun w => !w.isFixed where
  added v hadded := by
    cases v <;> first | rfl | cases hadded
  count _ _ _ _ _ := rfl

/-- Attributes of which something is true everywhere. -/
def Attributes.Everywhere (p : Value → Bool) (attrs : Attributes) : Prop :=
  ∀ e ∈ attrs, e.2.everywhere p = true

namespace Lenient

variable {p : Value → Bool} {v : Value}

/-- What holds no other values passes. -/
theorem leaf (hp : Lenient p) (hadded : v.isAdded = true)
    (hleaf : v.everywhere p = (p v && true)) : v.everywhere p = true := by
  rw [hleaf, hp.added v hadded]
  rfl

theorem tuple (hp : Lenient p) {items : List Value} (h : ∀ v ∈ items, v.everywhere p = true) :
    (Value.tuple items).everywhere p = true :=
  Value.everywhere_tuple.mpr ⟨hp.added _ rfl, h⟩

theorem dict (hp : Lenient p) {entries : Entries} (h : entries.Everywhere p) :
    (Value.dict entries).everywhere p = true :=
  Value.everywhere_dict.mpr ⟨hp.added _ rfl, h⟩

end Lenient

variable {p : Value → Bool} {config : Entries} {attrs : Attributes}

/-! ## Options -/

namespace Entries.Everywhere

theorem get? {name : String} {v : Value} (hc : config.Everywhere p)
    (hv : config.get? name = some v) : v.everywhere p = true := hc.find? hv

theorem getD {name : String} {fallback : Value} (hc : config.Everywhere p)
    (hfallback : fallback.everywhere p = true) :
    (config.getD name fallback).everywhere p = true := by
  unfold Entries.getD
  cases hv : config.get? name with
  | none => exact hfallback
  | some v => exact hc.get? hv

theorem typed (hp : Lenient p) (hc : config.Everywhere p) :
    (typedEntries config).1.Everywhere p := by
  unfold typedEntries
  split
  · exact hc.put (hp.leaf rfl rfl) (hp.leaf rfl rfl)
  · exact hc

end Entries.Everywhere

namespace Options

section options

variable (hp : Lenient p) (hc : config.Everywhere p) {name : String} {expects : Expectation}
  {v w : Value}
include hp hc

theorem callableOption_everywhere (h : callableOption config name = .ok v) :
    v.everywhere p = true := by
  have hgiven : (config.getD name .none).everywhere p = true := hc.getD (hp.leaf rfl rfl)
  unfold callableOption at h
  split at h
  · exact Except.ok.inj h ▸ hp.leaf rfl rfl
  · rename_i f hf
    rw [hf] at hgiven
    exact Except.ok.inj h ▸ hgiven
  · cases h

theorem enumOption_everywhere (h : enumOption config = .ok v) : v.everywhere p = true := by
  unfold enumOption at h
  split at h
  · exact Except.ok.inj h ▸ hp.leaf rfl rfl
  · rename_i given hgiven
    split at h
    · rename_i first rest hlisted
      obtain rfl := Except.ok.inj h
      exact hp.tuple fun w hw =>
        Value.everywhere_listed (hc.get? hgiven) hlisted w (Value.mem_of_dedupeStrict hw)
    · cases h

theorem typed_everywhere (h : typed config = .ok attrs) : attrs.Everywhere p := by
  simp only [typed, bind_eq_ok] at h
  obtain ⟨listed, hlisted, transform, htransform, validator, hvalidator, h⟩ := h
  cases htype : config.get? "type" with
  | none =>
      rw [htype] at h
      cases h
  | some type =>
      rw [htype] at h
      obtain rfl := Except.ok.inj h
      simp only [Attributes.Everywhere, List.forall_mem_cons]
      exact ⟨hc.getD (hp.leaf rfl rfl), enumOption_everywhere hp hc hlisted,
        hp.leaf rfl rfl, callableOption_everywhere hp hc htransform, hc.get? htype,
        callableOption_everywhere hp hc hvalidator, List.forall_mem_nil _⟩

theorem lowerBound_everywhere (h : lowerBound config name expects = .ok v) :
    v.everywhere p = true := by
  rcases lowerBound_cases h with ⟨-, rfl⟩ | ⟨hgiven, -⟩
  · exact hp.leaf rfl rfl
  · exact hc.get? hgiven

theorem upperBound_everywhere (h : upperBound config name expects w = .ok v) :
    v.everywhere p = true := by
  rcases upperBound_cases h with ⟨-, rfl⟩ | ⟨hgiven, -⟩
  · exact hp.leaf rfl rfl
  · exact hc.get? hgiven

theorem numberBound_everywhere (h : numberBound config name = .ok v) : v.everywhere p = true := by
  rcases numberBound_cases h with ⟨-, rfl⟩ | ⟨hgiven, -⟩
  · exact hp.leaf rfl rfl
  · exact hc.get? hgiven

theorem patternOption_everywhere (h : patternOption config = .ok v) : v.everywhere p = true := by
  rcases patternOption_cases h with ⟨-, rfl⟩ | ⟨hgiven, -⟩
  · exact hp.leaf rfl rfl
  · exact hc.get? hgiven

omit hc in
theorem wholeBound_everywhere (hw : w = .none ∨ w.isInteger = true) (hwp : w.everywhere p = true)
    (h : wholeBound w = .ok v) : v.everywhere p = true := by
  unfold wholeBound at h
  split at h
  · exact Except.ok.inj h ▸ hp.leaf rfl rfl
  · rename_i hnone
    obtain ⟨n, hn, h⟩ := bind_eq_ok.mp h
    obtain rfl := Except.ok.inj h
    exact (Bool.and_true _).trans
      (hp.count w n (hw.resolve_left hnone) (Value.of_everywhere hwp) hn)

theorem least_everywhere (hw : lowerBound config name expects = .ok w)
    (h : wholeBound w = .ok v) : v.everywhere p = true :=
  wholeBound_everywhere hp (.inr (lowerBound_ok hw)) (lowerBound_everywhere hp hc hw) h

theorem most_everywhere {low : Value} (hw : upperBound config name expects low = .ok w)
    (h : wholeBound w = .ok v) : v.everywhere p = true :=
  wholeBound_everywhere hp (none_or_of_optional (upperBound_ok hw))
    (upperBound_everywhere hp hc hw) h

omit hc

theorem flag_everywhere {fallback : Bool} (h : flag config name fallback = .ok v) :
    v.everywhere p = true := by
  obtain ⟨b, rfl⟩ := flag_ok h
  exact hp.leaf rfl rfl

theorem optional_everywhere {α : Type} {f : α → Value} (hf : ∀ a, (f a).everywhere p = true)
    (a : Option α) : (optional f a).everywhere p = true := by
  cases a with
  | none => exact hp.leaf rfl rfl
  | some a => exact hf a

end options

/-! ## Attributes -/

section attributes

variable {f : Factory} {k : Kind} {required : Option Bool}

theorem propertiesOption_everywhere (hc : config.Everywhere p) {declared : Entries}
    (h : propertiesOption config = .ok declared) : declared.Everywhere p := by
  unfold propertiesOption at h
  split at h
  · exact Except.ok.inj h ▸ Entries.Everywhere.nil
  · rename_i entries hgiven
    exact Except.ok.inj h ▸ (Value.everywhere_dict.mp (hc.get? hgiven)).2
  · cases h

theorem schema_everywhere (hp : Lenient p) (t : Schema) : (Value.schema t).everywhere p = true :=
  hp.leaf rfl rfl

theorem array_everywhere (hp : Lenient p) (hc : config.Everywhere p)
    (h : (array f config).result = .ok attrs) : attrs.Everywhere p := by
  simp only [array, Build.result_bind, Build.result_lift, Build.result_lift_fault, bind_eq_ok,
    lift_eq_ok] at h
  obtain ⟨low, hlow, high, hhigh, _, -, _, hschema, _, hmost, _, hleast, _, hunique, h⟩ := h
  obtain rfl := Except.ok.inj h
  obtain ⟨item, rfl, -⟩ := partSchema_ok hschema
  simp only [Attributes.Everywhere, List.forall_mem_cons]
  exact ⟨most_everywhere hp hc hhigh hmost, least_everywhere hp hc hlow hleast,
    optional_everywhere hp (schema_everywhere hp) item, flag_everywhere hp hunique,
    List.forall_mem_nil _⟩

theorem function_everywhere (hp : Lenient p) (hc : config.Everywhere p)
    (h : function config = .ok attrs) : attrs.Everywhere p := by
  simp only [function, bind_eq_ok, lift_eq_ok] at h
  obtain ⟨low, hlow, high, hhigh, _, hnamed, h⟩ := h
  obtain rfl := Except.ok.inj h
  simp only [Attributes.Everywhere, List.forall_mem_cons]
  exact ⟨upperBound_everywhere hp hc hhigh, lowerBound_everywhere hp hc hlow,
    flag_everywhere hp hnamed, List.forall_mem_nil _⟩

theorem number_everywhere (hp : Lenient p) (hc : config.Everywhere p)
    (h : number config = .ok attrs) : attrs.Everywhere p := by
  simp only [number, bind_eq_ok, lift_eq_ok] at h
  obtain ⟨high, hhigh, low, hlow, _, -, _, hmax, _, hmin, _, hint, h⟩ := h
  obtain rfl := Except.ok.inj h
  simp only [Attributes.Everywhere, List.forall_mem_cons]
  exact ⟨flag_everywhere hp hmax, flag_everywhere hp hmin, flag_everywhere hp hint,
    numberBound_everywhere hp hc hhigh, numberBound_everywhere hp hc hlow, List.forall_mem_nil _⟩

theorem string_everywhere (hp : Lenient p) (hc : config.Everywhere p)
    (h : string config = .ok attrs) : attrs.Everywhere p := by
  simp only [string, bind_eq_ok, lift_eq_ok] at h
  obtain ⟨low, hlow, high, hhigh, pattern, hpattern, _, hmost, _, hleast, h⟩ := h
  obtain rfl := Except.ok.inj h
  simp only [Attributes.Everywhere, List.forall_mem_cons]
  exact ⟨most_everywhere hp hc hhigh hmost, least_everywhere hp hc hlow hleast,
    patternOption_everywhere hp hc hpattern, List.forall_mem_nil _⟩

/-- Declared keys are those of the configuration, and schemas hold no values. -/
theorem object_everywhere (hp : Lenient p) (hc : config.Everywhere p)
    (h : (object f config).result = .ok attrs) : attrs.Everywhere p := by
  simp only [object, Build.result_bind, Build.result_lift, Build.result_lift_fault, bind_eq_ok,
    lift_eq_ok] at h
  obtain ⟨declared, hdeclared, _, -, compiled, hcompiled, _, hnull, _, hclean, _, hschema, h⟩ := h
  obtain rfl := Except.ok.inj h
  obtain ⟨item, rfl, -⟩ := partSchema_ok hschema
  obtain ⟨props, rfl, hprops⟩ := properties_reads hcompiled
  have hkeys : Entries.Everywhere p (Demand.entries props) := by
    intro e he
    obtain ⟨e', he', rfl⟩ := List.mem_map.mp he
    obtain ⟨d, hd, hkey, -⟩ := forall₂_mem_right hprops he'
    refine ⟨?_, schema_everywhere hp e'.2⟩
    rw [← hkey]
    exact (propertiesOption_everywhere hc hdeclared d hd).1
  simp only [Attributes.Everywhere, List.forall_mem_cons]
  exact ⟨flag_everywhere hp hnull, flag_everywhere hp hclean, hp.dict hkeys,
    optional_everywhere hp (schema_everywhere hp) item, List.forall_mem_nil _⟩

theorem oneOf_everywhere (hp : Lenient p) (h : (oneOf f config).result = .ok attrs) :
    attrs.Everywhere p := by
  obtain ⟨variants, rfl, -⟩ := oneOf_reads h
  refine List.forall_mem_singleton.mpr (hp.tuple ?_)
  exact List.forall_mem_map.mpr fun t _ => schema_everywhere hp t

theorem own_everywhere (hp : Lenient p) (hc : config.Everywhere p)
    (h : own f config k = .ok attrs) : attrs.Everywhere p := by
  cases k with
  | typed | boolean | symbol =>
      obtain rfl := Except.ok.inj h
      exact List.forall_mem_nil _
  | array => exact array_everywhere hp hc h
  | function => exact function_everywhere hp hc h
  | number => exact number_everywhere hp hc h
  | string => exact string_everywhere hp hc h
  | object => exact object_everywhere hp hc h
  | oneOf => exact oneOf_everywhere hp h

theorem readAttributes_everywhere (hp : Lenient p) (hc : config.Everywhere p)
    (h : readAttributes f config k required = .ok attrs) : attrs.Everywhere p := by
  simp only [readAttributes, bind_eq_ok, pure_eq_ok] at h
  obtain ⟨common, hcommon, more, hmore, rfl⟩ := h
  have hmarks : (marks required).Everywhere p :=
    List.forall_mem_map.mpr fun b _ => hp.leaf rfl rfl
  refine List.forall_mem_append.mpr ⟨List.forall_mem_append.mpr ⟨?_, ?_⟩, hmarks⟩
  · exact typed_everywhere hp hc hcommon
  · exact own_everywhere hp hc hmore

end attributes

end Options

/-! ## Configurations inside -/

/-- What a configuration passes on to those that compiling it compiles next: what it
lists and holds under keys has it, and so do dictionaries that are merged of two with it
or have an entry less. -/
structure Value.PassedOn (P : Value → Prop) : Prop where
  none : P .none
  empty : P (.dict [])
  listed : ∀ {c : Value} {items : List Value}, P c → c.listed? = some items → ∀ w ∈ items, P w
  entry : ∀ {es : Entries}, P (.dict es) → ∀ e ∈ es, P e.2
  update : ∀ es fs : Entries, P (.dict es) → P (.dict fs) → P (.dict (es.update fs))
  erase : ∀ (es : Entries) (key : Value), P (.dict es) → P (.dict (es.erase key))

namespace Value.PassedOn

variable {P : Value → Prop} {c v w : Value} (hP : PassedOn P)
include hP

theorem get? {name : String} (hc : P (.dict config)) (hv : config.get? name = some v) : P v := by
  obtain ⟨key, hmem, -⟩ := Entries.mem_of_find? hv
  exact hP.entry hc _ hmem

theorem alternatives (hv : P v) : ∀ es ∈ v.alternatives, P (.dict es) := by
  have entries : ∀ w : Value, P w → P (.dict w.entries) := by
    intro w hw
    cases w with
    | dict es => exact hw
    | _ => exact hP.empty
  intro es hes
  obtain ⟨w, hw, rfl⟩ := List.mem_map.mp hes
  obtain rfl | ⟨items, hlisted, hw⟩ := eq_or_mem_listed hw
  · exact entries w hv
  · exact entries w (hP.listed hv hlisted w hw)

theorem pairs {generic specific : Value} (hg : P generic) (hs : P specific) :
    ∀ pair ∈ generic.pairs specific, P (.dict pair) := by
  intro pair hpair
  obtain ⟨g, hgmem, s, hsmem, rfl⟩ := mem_pairs hpair
  exact hP.update g s (hP.alternatives hg g hgmem) (hP.alternatives hs s hsmem)

theorem generic (hc : P (.dict config)) : P config.generic := by
  unfold Entries.generic Entries.getD
  cases hget : config.get? "schema" with
  | none => exact hP.none
  | some v => exact hP.get? hc hget

theorem propertyConfig (hv : P v) : P (Options.propertyConfig v) := by
  unfold Options.propertyConfig
  split
  · exact hP.empty
  · exact hv

theorem part (hpart : c.HasPart w) (hc : P c) : P w := by
  cases hpart with
  | absent => exact hP.empty
  | listed hlisted hw => exact hP.listed hc hlisted w hw
  | items _ hget => exact hP.get? hc hget
  | variant _ hget hlisted hw => exact hP.listed (hP.get? hc hget) hlisted w hw
  | property _ hget hmem hpair =>
      have hdeclared := hP.entry (hP.get? hc hget) _ hmem
      exact hP.erase _ _ (hP.pairs (hP.generic hc) (hP.propertyConfig hdeclared) _ hpair)
  | generic _ hget hpair => exact hP.erase _ _ (hP.pairs hP.none (hP.get? hc hget) _ hpair)

theorem nested (hw : c.Nested w) (hc : P c) : P w := by
  induction hw with
  | refl => exact hc
  | tail _ hpart ih => exact hP.part hpart ih

end Value.PassedOn

/-- A test that dictionaries go on to pass when they are merged, and when an
entry is taken away. -/
structure Merges (p : Value → Bool) : Prop where
  none : p .none = true
  empty : p (.dict []) = true
  update : ∀ es fs : Entries, p (.dict es) = true → p (.dict fs) = true →
    p (.dict (es.update fs)) = true
  erase : ∀ (es : Entries) (key : Value), p (.dict es) = true → p (.dict (es.erase key)) = true

theorem Lenient.merges (hp : Lenient p) : Merges p where
  none := hp.added _ rfl
  empty := hp.added _ rfl
  update _ _ _ _ := hp.added _ rfl
  erase _ _ _ := hp.added _ rfl

/-- What passes such a test everywhere, is made into what does. -/
theorem Merges.passedOn (hp : Merges p) : Value.PassedOn fun v => v.everywhere p = true where
  none := (Bool.and_true _).trans hp.none
  empty := Value.everywhere_dict.mpr ⟨hp.empty, Entries.Everywhere.nil⟩
  listed := Value.everywhere_listed
  entry h e he := ((Value.everywhere_dict.mp h).2 e he).2
  update es fs hes hfs := by
    obtain ⟨hestest, hesentries⟩ := Value.everywhere_dict.mp hes
    obtain ⟨hfstest, hfsentries⟩ := Value.everywhere_dict.mp hfs
    exact Value.everywhere_dict.mpr
      ⟨hp.update es fs hestest hfstest, hesentries.update hfsentries⟩
  erase es key h := by
    obtain ⟨htest, hentries⟩ := Value.everywhere_dict.mp h
    exact Value.everywhere_dict.mpr ⟨hp.erase es key htest, hentries.erase key⟩

theorem Merges.nested (hp : Merges p) {c w : Value} (hw : c.Nested w)
    (hc : c.everywhere p = true) : w.everywhere p = true := hp.passedOn.nested hw hc

/-- The attributes of every schema inside pass what the configuration passes. -/
theorem inside_everywhere (hp : Lenient p) {c : Value} {s : Schema} {t : Instance}
    (hs : Registry.builtin.compile c .none = .ok s) (hc : c.everywhere p = true)
    (ht : s.Inside (.single t)) : Attributes.Everywhere p t.attributes := by
  obtain ⟨config, required, hnested, hcompile⟩ := makes_inside hs ht t (List.mem_singleton.mpr rfl)
  have hconfig := (Value.everywhere_dict.mp (hp.merges.nested hnested hc)).2
  obtain ⟨u, k, heq, -, hread⟩ := compile_dict_ok.mp hcompile
  obtain rfl := Schema.single.inj heq
  simp only [Options.readInstance, bind_eq_ok, pure_eq_ok] at hread
  obtain ⟨attrs, hattrs, hash, -, rfl⟩ := hread
  exact Options.readAttributes_everywhere hp (hconfig.typed hp) hattrs

end Conform
