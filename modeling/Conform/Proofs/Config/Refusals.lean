/-
# `Proofs.Config.Refusals` — a configuration compiles or is refused

Compiling compares, converts and digests whatever a configuration holds, and
each of these operations has operands for which it is a fault.  Here it is
shown that no fault gets through: the tests before an operation leave only
operands for which it is defined, so that what fails, fails as a refusal, and
one that can be put in words.

The induction is on the height of the configuration.  What it carries is a
property of factories: a container compiles its parts by a factory, and the
factory of a configuration is, below its height, compiling itself.

## The hypothesis

Everything in the configuration can be told.  An array has no truth, and its order
is another array, so an option that is one can be a fault.  Integers with too many
digits, patterns for bytes, the class of functions and the classes of schemas are
fine until they are digested.  That is a fault of the digest alone, and it is shown
at the end: the class of functions is an alias of a controller, but a schema of that
type cannot be compiled.
-/
import Conform.Proofs.Digest.Total
import Conform.Proofs.Value.Ordered

namespace Conform

/-- A configuration is at fault, and it can be said how. -/
def Failure.IsRefusal (e : Failure) : Prop := ∃ r m, e = .config r ∧ r.message = .ok m

/-- If something fails, then because a configuration is refused. -/
def Refuses {α : Type} (x : Outcome α) : Prop := FailsOnly Failure.IsRefusal x

theorem refuses_config {α : Type} {e : ConfigError} (h : ∃ m, e.message = .ok m) :
    Refuses (.error (.config e) : Outcome α) := by
  obtain ⟨m, hm⟩ := h
  exact .error ⟨e, m, rfl, hm⟩

/-- What an option should hold can be said. -/
def Expectation.Sayable (e : Expectation) : Prop := ∃ s, e.text = .ok s

theorem Expectation.Sayable.words (s : String) : (Expectation.words s).Sayable := ⟨s, rfl⟩

theorem Expectation.Sayable.bounded {bound : Value} (h : bound.hasDisplay = true)
    (before after : String) : (Expectation.bounded before bound after).Sayable :=
  ⟨_, by rw [Expectation.text, Value.display_ok h]; rfl⟩

theorem refuses_refuse {α : Type} (name : String) {received : Value} {expects : Expectation}
    (hreceived : received.hasLiteral = true) (hexpects : expects.Sayable) :
    Refuses (Options.refuse name received expects : Outcome α) := by
  obtain ⟨s, hs⟩ := hexpects
  refine refuses_config (e := .badOption name received expects) ?_
  rw [ConfigError.message, hs, ok_bind, optionMessage, Value.describe_ok hreceived]
  exact ⟨_, rfl⟩

theorem refuses_lift {α : Type} {x : Except Fault α} (h : ∃ a, x = .ok a) :
    Refuses (liftM x : Outcome α) := by
  obtain ⟨a, rfl⟩ := h
  exact .ok a

/-! ## Integers -/

theorem Value.isFixed_of_isDigestible {v : Value} (h : v.isDigestible = true) :
    v.isFixed = false := by
  have htold := Value.of_everywhere h
  cases v <;> first | rfl | cases htold

theorem Value.hasDisplay_of_digestible {v : Value} (h : v.isDigestible = true) :
    v.hasDisplay = true :=
  Value.hasDisplay_of_hasLiteral (Value.hasLiteral_of_digestible v h)

/-- Integers compare. -/
theorem Value.holds_of_isInteger {v w : Value} (c : Comparison) (hv : v.isInteger = true)
    (hw : w.isInteger = true) (hvfixed : v.isFixed = false) (hwfixed : w.isFixed = false) :
    ∃ b, v.holds c w = .ok b := by
  obtain ⟨m, hm⟩ := Value.amount?_of_isReal (isReal_of_isInteger hv)
  obtain ⟨n, hn⟩ := Value.amount?_of_isReal (isReal_of_isInteger hw)
  exact ⟨_, Value.holds_of_amounts c hvfixed hwfixed hm hn⟩

/-! ## Options without parts -/

namespace Options

variable {config : Entries}

/-- An integer that is wanted not to lie below another one. -/
theorem integer_refuses (name : String) {expects : Expectation} {v low : Value}
    (hexpects : expects.Sayable) (hv : v.isDigestible = true) (hlow : low.isInteger = true)
    (hfixed : low.isFixed = false) :
    Refuses (do
      if !v.isInteger then refuse name v expects
      else if ← Value.holds .lt v low then refuse name v expects
      else return v) := by
  cases hinteger : v.isInteger with
  | false => exact refuses_refuse _ (Value.hasLiteral_of_digestible v hv) hexpects
  | true =>
      refine .bind (refuses_lift (Value.holds_of_isInteger .lt hinteger hlow
        (Value.isFixed_of_isDigestible hv) hfixed))
        fun below _ => ?_
      cases below with
      | true => exact refuses_refuse _ (Value.hasLiteral_of_digestible v hv) hexpects
      | false => exact .ok _

section digestible

variable (hc : (Value.dict config).isDigestible = true)
include hc

theorem option_digestible {name : String} {v : Value} (hv : config.get? name = some v) :
    v.isDigestible = true := (Value.everywhere_dict.mp hc).2.get? hv

theorem option_unfixed {name : String} {v : Value} (hv : config.get? name = some v) :
    v.isFixed = false := Value.isFixed_of_isDigestible (option_digestible hc hv)

theorem option_literal {name : String} {v : Value} (hv : config.get? name = some v) :
    v.hasLiteral = true := Value.hasLiteral_of_digestible v (option_digestible hc hv)

theorem callableOption_refuses (name : String) : Refuses (callableOption config name) := by
  have hgiven : (config.getD name .none).isDigestible = true :=
    (Value.everywhere_dict.mp hc).2.getD rfl
  unfold callableOption
  split
  · exact .ok _
  · exact .ok _
  · exact refuses_refuse _ (Value.hasLiteral_of_digestible _ hgiven) (.words _)

theorem enumOption_refuses : Refuses (enumOption config) := by
  unfold enumOption
  split
  · exact .ok _
  · split
    · exact .ok _
    · exact refuses_refuse _ (option_literal hc ‹_›) (.words _)

theorem typed_refuses (htype : (config.get? "type").isSome = true) : Refuses (typed config) := by
  refine .bind (enumOption_refuses hc) fun listed _ => ?_
  refine .bind (callableOption_refuses hc _) fun transform _ => ?_
  refine .bind (callableOption_refuses hc _) fun validator _ => ?_
  cases hv : config.get? "type" with
  | none =>
      rw [hv] at htype
      cases htype
  | some type => exact .ok _

theorem patternOption_refuses : Refuses (patternOption config) := by
  unfold patternOption
  split
  · exact .ok _
  · exact .ok _
  · exact refuses_refuse _ (option_literal hc ‹_›) (.words _)

theorem schemaOption_refuses : Refuses (schemaOption config) := by
  unfold schemaOption
  split
  · exact .ok _
  · split
    · exact .ok _
    · exact refuses_refuse _ (option_literal hc ‹_›) (.words _)

theorem propertiesOption_refuses : Refuses (propertiesOption config) := by
  unfold propertiesOption
  split
  · exact .ok _
  · exact .ok _
  · exact refuses_refuse _ (option_literal hc ‹_›) (.words _)

theorem numberBound_refuses (name : String) : Refuses (numberBound config name) := by
  unfold numberBound
  split
  · exact .ok _
  · split
    · exact .ok _
    · exact refuses_refuse _ (option_literal hc ‹_›) (.words _)

theorem getD_truthy (name : String) (fallback : Bool) :
    ∃ b, (config.getD name (.bool fallback)).truthy = .ok b := by
  unfold Entries.getD
  cases hv : config.get? name with
  | none => exact ⟨fallback, rfl⟩
  | some v => exact Value.truthy_ok (option_unfixed hc hv)

theorem flag_total (name : String) (fallback : Bool) : ∃ v, flag config name fallback = .ok v := by
  obtain ⟨b, hb⟩ := getD_truthy hc name fallback
  exact ⟨.bool b, by rw [flag, hb]; rfl⟩

theorem lowerBound_refuses (name : String) {expects : Expectation} (hexpects : expects.Sayable) :
    Refuses (lowerBound config name expects) := by
  unfold lowerBound
  cases hv : config.get? name with
  | none => exact .ok _
  | some v => exact integer_refuses name hexpects (option_digestible hc hv) rfl rfl

theorem lowerBound_digestible {name : String} {expects : Expectation} {low : Value}
    (h : lowerBound config name expects = .ok low) : low.isDigestible = true :=
  lowerBound_everywhere Value.lenient_canBeTold (Value.everywhere_dict.mp hc).2 h

theorem upperBound_refuses (name : String) {expects : Expectation} (hexpects : expects.Sayable)
    {low : Value} (hlow : low.isInteger = true) (hdigest : low.isDigestible = true) :
    Refuses (upperBound config name expects low) := by
  unfold upperBound
  cases hv : config.get? name with
  | none => exact .ok _
  | some v =>
      exact integer_refuses name hexpects (option_digestible hc hv) hlow
        (Value.isFixed_of_isDigestible hdigest)

theorem upperBound_unfixed {name : String} {expects : Expectation} {low high : Value}
    (h : upperBound config name expects low = .ok high) : high.isFixed = false :=
  Value.isFixed_of_isDigestible
    (upperBound_everywhere Value.lenient_canBeTold (Value.everywhere_dict.mp hc).2 h)

theorem numberBound_digestible {name : String} {v : Value} (h : numberBound config name = .ok v) :
    v.isDigestible = true :=
  numberBound_everywhere Value.lenient_canBeTold (Value.everywhere_dict.mp hc).2 h

omit hc

theorem wholeBound_total {v : Value} (hv : v = .none ∨ v.isInteger = true)
    (hfixed : v.isFixed = false) : ∃ w, wholeBound v = .ok w := by
  rcases hv with rfl | hv
  · exact ⟨.none, rfl⟩
  · obtain ⟨n, hn⟩ := Value.toInt_of_isInteger hv
    refine ⟨.int n, ?_⟩
    unfold wholeBound
    split
    · cases hv
    · rw [hn]
      rfl

theorem orderBounds_refuses {low high : Value} (hlow : low = .none ∨ low.isReal = true)
    (hhigh : high = .none ∨ high.isReal = true) (hlowdigest : low.isDigestible = true)
    (hhighdigest : high.isDigestible = true) : Refuses (orderBounds low high) := by
  have hlowfixed := Value.isFixed_of_isDigestible hlowdigest
  have hhighfixed := Value.isFixed_of_isDigestible hhighdigest
  rcases hlow with rfl | hlow
  · exact .ok _
  · rcases hhigh with rfl | hhigh
    · unfold orderBounds
      rw [isNone_of_isReal hlow]
      exact .ok _
    · obtain ⟨m, hm⟩ := Value.amount?_of_isReal hlow
      obtain ⟨n, hn⟩ := Value.amount?_of_isReal hhigh
      unfold orderBounds
      rw [isNone_of_isReal hlow, isNone_of_isReal hhigh]
      refine .bind (refuses_lift ⟨_, Value.holds_of_amounts .gt hlowfixed hhighfixed hm hn⟩)
        fun above _ => ?_
      cases above with
      | true =>
          exact refuses_refuse _ (Value.hasLiteral_of_digestible low hlowdigest)
            (.bounded (Value.hasDisplay_of_digestible hhighdigest) _ _)
      | false => exact .ok _

end digestible

/-! ## Controllers without parts -/

section digestible

variable (hc : (Value.dict config).isDigestible = true)
include hc

theorem function_refuses : Refuses (function config) := by
  refine .bind (lowerBound_refuses hc _ (.words _)) fun low hlow => ?_
  have hlowdigest := lowerBound_digestible hc hlow
  have hexpects := Expectation.Sayable.bounded (Value.hasDisplay_of_digestible hlowdigest)
  refine .bind (upperBound_refuses hc _ (hexpects _ _) (lowerBound_ok hlow) hlowdigest)
    fun high _ => ?_
  exact .bind (refuses_lift (flag_total hc _ _)) fun named _ => .ok _

theorem number_refuses : Refuses (number config) := by
  refine .bind (numberBound_refuses hc _) fun high hhigh => ?_
  refine .bind (numberBound_refuses hc _) fun low hlow => ?_
  refine .bind (orderBounds_refuses (none_or_of_optional (numberBound_ok hlow))
    (none_or_of_optional (numberBound_ok hhigh)) (numberBound_digestible hc hlow)
    (numberBound_digestible hc hhigh)) fun _ _ => ?_
  refine .bind (refuses_lift (flag_total hc _ _)) fun exclusiveMax _ => ?_
  refine .bind (refuses_lift (flag_total hc _ _)) fun exclusiveMin _ => ?_
  exact .bind (refuses_lift (flag_total hc _ _)) fun integer _ => .ok _

theorem string_refuses : Refuses (string config) := by
  refine .bind (lowerBound_refuses hc _ (.words _)) fun low hlow => ?_
  have hlowdigest := lowerBound_digestible hc hlow
  have hlowfixed := Value.isFixed_of_isDigestible hlowdigest
  refine .bind (upperBound_refuses hc _ (.words _) (lowerBound_ok hlow) hlowdigest)
    fun high hhigh => ?_
  refine .bind (patternOption_refuses hc) fun pattern _ => ?_
  refine .bind (refuses_lift (wholeBound_total (none_or_of_optional (upperBound_ok hhigh))
    (upperBound_unfixed hc hhigh))) fun most _ => ?_
  refine .bind (refuses_lift (wholeBound_total (.inr (lowerBound_ok hlow)) hlowfixed))
    fun least _ => .ok _

end digestible

end Options

/-! ## Controllers with parts -/

/-- What a factory is handed can be digested, so it refuses what it does not
compile; and what it compiles for a container shows its two flags. -/
structure Factory.Refuses (f : Factory) : Prop where
  plain : ∀ {c}, c.isDigestible = true → Conform.Refuses (f c .none).result
  marked : ∀ {config b}, (Value.dict config).isDigestible = true →
    Conform.Refuses (f (.dict config) (mark (some b))).result
  flags : ∀ {config b t}, (f (.dict config) (mark (some b))).result = .ok t →
    (∃ r, t.required = .ok r) ∧ ∃ d, t.hasDefault = .ok d

section parts

variable {f : Factory} {config : Entries}

theorem compileCandidate_refuses (hf : f.Refuses) {key : Value} (hkey : key.isDigestible = true)
    {pair : Entries} (hpair : (Value.dict pair).isDigestible = true) :
    Refuses (compileCandidate f key (.dict pair)).result := by
  obtain ⟨b, hb⟩ := Options.getD_truthy hpair "required" false
  have herased : (Value.dict (pair.erase (.str "required"))).isDigestible = true :=
    Value.lenient_canBeTold.dict ((Value.everywhere_dict.mp hpair).2.erase _)
  simp only [compileCandidate, splitRequired_eq, hb, ok_bind, pure_eq, Build.result_bind,
    Build.result_lift_fault, lift_ok]
  refine .bind (hf.marked herased) fun t ht => ?_
  obtain ⟨hrequired, hdefault⟩ := hf.flags ht
  refine .bind (refuses_lift hrequired) fun required _ => ?_
  cases required with
  | false => exact .ok _
  | true =>
      simp only [if_true, Build.result_bind, Build.result_lift_fault]
      refine .bind (refuses_lift hdefault) fun hasDefault _ => ?_
      cases hasDefault with
      | true =>
          refine refuses_config ?_
          rw [ConfigError.message, Value.display_ok (Value.hasDisplay_of_digestible hkey)]
          exact ⟨_, rfl⟩
      | false => exact .ok _

theorem compileMerged_refuses (hf : f.Refuses) {key generic specific : Value}
    (hkey : key.isDigestible = true) (hg : generic.IsPartOption) (hs : specific.IsPartOption)
    (hgdigest : generic.isDigestible = true) (hsdigest : specific.isDigestible = true) :
    Refuses (compileMerged f key generic specific).result := by
  rw [compileMerged_eq f key hg hs, Value.mergeProducts_pairs hg hs]
  simp only [Build.result_bind, Build.result_lift_fault, lift_ok, ok_bind, Build.result_mapM,
    Build.result_pure]
  refine .bind (.mapM (List.forall_mem_map.mpr fun pair hpair => ?_)) fun schemas _ => .ok _
  exact compileCandidate_refuses hf hkey
    (Value.lenient_canBeTold.merges.passedOn.pairs hgdigest hsdigest pair hpair)

namespace Options

theorem partSchema_refuses {compile : Value → Build Schema} {generic : Value}
    (h : generic.isNone = false → Refuses (compile generic).result) :
    Refuses (partSchema compile generic).result := by
  unfold partSchema
  cases hnone : generic.isNone with
  | true => exact .ok _
  | false =>
      simp only [Bool.false_eq_true, if_false, Build.result_bind]
      exact .bind (h hnone) fun t _ => .ok _

theorem property_refuses (hf : f.Refuses) {generic key v : Value} (hg : generic.IsPartOption)
    (hgdigest : generic.isDigestible = true) (hkey : key.isDigestible = true)
    (hv : v.isDigestible = true) :
    Refuses (property f generic key v).result := by
  unfold property
  split
  · rename_i hconf
    simp only [Build.result_bind]
    refine .bind (compileMerged_refuses hf hkey hg (.inr hconf) hgdigest ?_) fun t _ => .ok _
    exact Value.lenient_canBeTold.merges.passedOn.propertyConfig hv
  · refine refuses_config ?_
    rw [ConfigError.message, Value.display_ok (Value.hasDisplay_of_digestible hkey)]
    exact ⟨_, rfl⟩

theorem properties_refuses (hf : f.Refuses) {generic : Value} (hg : generic.IsPartOption)
    (hgdigest : generic.isDigestible = true) {declared : Entries}
    (hdeclared : ∀ e ∈ declared, e.1.isDigestible = true ∧ e.2.isDigestible = true) :
    Refuses (properties f generic declared).result := by
  induction declared with
  | nil => exact .ok _
  | cons e rest ih =>
      obtain ⟨hhead, hrest⟩ := List.forall_mem_cons.mp hdeclared
      simp only [properties, Build.result_bind]
      refine .bind (property_refuses hf hg hgdigest hhead.1 hhead.2) fun schema _ => ?_
      exact .bind (ih hrest) fun others _ => .ok _

/-- The configuration of the parts is one of the options. -/
theorem schemaOption_digestible (hc : (Value.dict config).isDigestible = true) {generic : Value}
    (h : schemaOption config = .ok generic) : generic.isDigestible = true := by
  unfold schemaOption at h
  split at h
  · exact Except.ok.inj h ▸ rfl
  · rename_i v hv
    split at h
    · exact Except.ok.inj h ▸ option_digestible hc hv
    · cases h

variable (hf : f.Refuses) (hc : (Value.dict config).isDigestible = true)
include hf hc

theorem array_refuses : Refuses (array f config).result := by
  simp only [array, Build.result_bind, Build.result_lift, Build.result_lift_fault]
  refine .bind (lowerBound_refuses hc _ (.words _)) fun low hlow => ?_
  have hlowdigest := lowerBound_digestible hc hlow
  have hlowfixed := Value.isFixed_of_isDigestible hlowdigest
  refine .bind (upperBound_refuses hc _ (.words _) (lowerBound_ok hlow) hlowdigest)
    fun high hhigh => ?_
  refine .bind (schemaOption_refuses hc) fun generic hgeneric => ?_
  refine .bind (partSchema_refuses fun _ => hf.plain (schemaOption_digestible hc hgeneric))
    fun schema _ => ?_
  refine .bind (refuses_lift (wholeBound_total (none_or_of_optional (upperBound_ok hhigh))
    (upperBound_unfixed hc hhigh))) fun most _ => ?_
  refine .bind (refuses_lift (wholeBound_total (.inr (lowerBound_ok hlow)) hlowfixed))
    fun least _ => ?_
  exact .bind (refuses_lift (flag_total hc _ _)) fun unique _ => .ok _

theorem object_refuses : Refuses (object f config).result := by
  simp only [object, Build.result_bind, Build.result_lift, Build.result_lift_fault]
  refine .bind (propertiesOption_refuses hc) fun declared hdeclared => ?_
  refine .bind (schemaOption_refuses hc) fun generic hgeneric => ?_
  have hg := (schemaOption_ok hgeneric).1
  have hgdigest := schemaOption_digestible hc hgeneric
  refine .bind (properties_refuses hf hg hgdigest fun e he => ?_) fun compiled _ => ?_
  · exact propertiesOption_everywhere (Value.everywhere_dict.mp hc).2 hdeclared e he
  refine .bind (refuses_lift (flag_total hc _ _)) fun allowNull _ => ?_
  refine .bind (refuses_lift (flag_total hc _ _)) fun clean _ => ?_
  refine .bind (partSchema_refuses fun _ => ?_) fun schema _ => .ok _
  exact compileMerged_refuses hf rfl (.inl rfl) hg rfl hgdigest

theorem oneOf_refuses : Refuses (oneOf f config).result := by
  unfold oneOf
  split
  · exact refuses_config ⟨_, rfl⟩
  · rename_i v hv
    split
    · rename_i variants hlisted
      split
      · exact refuses_config ⟨_, rfl⟩
      · simp only [Build.result_bind, Build.result_mapM, Build.result_pure]
        refine .bind (.mapM fun w hw => hf.plain ?_) fun schemas _ => .ok _
        exact Value.everywhere_listed (option_digestible hc hv) hlisted w hw
    · exact refuses_config ⟨_, rfl⟩

theorem own_refuses (k : Kind) : Refuses (own f config k) := by
  by_cases hk : k = .typed
  · rw [own, if_pos hk]
    exact .ok _
  · rw [own, if_neg hk]
    cases k with
    | typed => exact absurd rfl hk
    | array => exact array_refuses hf hc
    | function => exact function_refuses hc
    | number => exact number_refuses hc
    | object => exact object_refuses hf hc
    | oneOf => exact oneOf_refuses hf hc
    | string => exact string_refuses hc
    | boolean | symbol => exact .ok _

/-- The attributes can be digested, as the options could. -/
theorem readInstance_refuses (htype : (config.get? "type").isSome = true) (k : Kind)
    (required : Option Bool) : Refuses (readInstance f config k required) := by
  have hattributes : Refuses (readAttributes f config k required) :=
    .bind (typed_refuses hc htype) fun common _ => .bind (own_refuses hf hc k) fun more _ => .ok _
  refine .bind hattributes fun attrs hattrs => ?_
  have hdigest := Attributes.hash_of_digestible (readAttributes_everywhere
    Value.lenient_canBeTold (Value.everywhere_dict.mp hc).2 hattrs)
  exact .bind (refuses_lift hdigest) fun hash _ => .ok _

end Options

/-! ## Whole configurations -/

theorem compileSingle_refuses (hf : f.Refuses) {c : Value} (hc : c.isDigestible = true)
    (required : Option Bool) : Refuses (compileSingle f .builtin c (mark required)).result := by
  have dict : ∀ {config : Entries}, (Value.dict config).isDigestible = true →
      Refuses (compileSingle f .builtin (.dict config) (mark required)).result := by
    intro config hc
    have htyped : (Value.dict (typedEntries config).1).isDigestible = true :=
      Value.lenient_canBeTold.dict ((Value.everywhere_dict.mp hc).2.typed Value.lenient_canBeTold)
    rw [compileSingle_dict]
    split
    · have htype := Options.option_literal htyped (get?_typedEntries config)
      exact refuses_config ⟨_, by rw [ConfigError.message, Value.literal_ok htype]; rfl⟩
    · refine Options.readInstance_refuses hf htyped ?_ _ required
      rw [get?_typedEntries]
      rfl
  have hmessage : ∃ m, (ConfigError.notADict c).message = .ok m := by
    rw [ConfigError.message, Value.literal_ok (Value.hasLiteral_of_digestible c hc)]
    exact ⟨_, rfl⟩
  cases c with
  | none => exact @dict [] rfl
  | dict config => exact dict hc
  | _ => exact refuses_config hmessage

theorem compileWith_refuses (hf : f.Refuses) {c : Value} (hc : c.isDigestible = true) :
    Refuses (compileWith f .builtin c .none).result := by
  cases hlisted : c.listed? with
  | none =>
      rw [show Value.none = mark none from rfl, compileWith_unlisted f hlisted]
      exact .map (compileSingle_refuses hf hc none)
  | some items =>
      rw [compileWith_listed f hlisted]
      refine .map (.mapM fun w hw => compileSingle_refuses hf ?_ none)
      exact Value.everywhere_listed hc hlisted w hw

theorem compileWith_marked_refuses (hf : f.Refuses) (hc : (Value.dict config).isDigestible = true)
    (b : Bool) : Refuses (compileWith f .builtin (.dict config) (mark (some b))).result := by
  rw [compileWith_unlisted f rfl]
  exact .map (compileSingle_refuses hf hc (some b))

end parts

/-! ## Compiling is its own factory -/

/-- Compiling, for all that is lower than a bound; the rest is refused. -/
def Factory.refusing (n : Nat) : Factory := fun c a =>
  if c.height < n then compile .builtin c a else throw (.config .noVariants)

theorem compile_eq_refusing (c a : Value) :
    compile .builtin c a = compileWith (Factory.refusing c.height) .builtin c a := by
  rw [compile_eq]
  exact compileWith_congr .builtin c a fun _ _ _ hlower => (if_pos hlower).symm

/-- A schema that was compiled for a container shows its two flags. -/
theorem flags_of_marked {config : Entries} {b : Bool} {t : Schema}
    (h : (compile .builtin (.dict config) (mark (some b))).result = .ok t) :
    (∃ r, t.required = .ok r) ∧ ∃ d, t.hasDefault = .ok d := by
  obtain ⟨p, hash, rfl, -, -⟩ := plan_of_compile h
  exact ⟨⟨_, p.flag_required hash⟩, _, p.flag_hasDefault hash⟩

theorem refuses_refusing (n : Nat) : (Factory.refusing n).Refuses := by
  induction n using Nat.strongRecOn with
  | ind n ih =>
      constructor
      · intro c hc
        unfold Factory.refusing
        split
        · rename_i hlower
          rw [compile_eq_refusing]
          exact compileWith_refuses (ih c.height hlower) hc
        · exact refuses_config ⟨_, rfl⟩
      · intro config b hc
        unfold Factory.refusing
        split
        · rename_i hlower
          rw [compile_eq_refusing]
          exact compileWith_marked_refuses (ih _ hlower) hc b
        · exact refuses_config ⟨_, rfl⟩
      · intro config b t h
        unfold Factory.refusing at h
        split at h
        · exact flags_of_marked h
        · cases h

/-- A list cannot be a key, so it is no type. -/
def unhashableOptions : Entries := [(.str "type", .list [])]

/-- A traversal fails as one of its steps does, if the others succeed. -/
theorem mapM_eq_error {ε α β : Type} {f : α → Except ε β} {e : ε} {xs : List α} {x : α}
    (h : ∀ y ∈ xs, (∃ b, f y = .ok b) ∨ f y = .error e) (hx : x ∈ xs) (he : f x = .error e) :
    xs.mapM f = .error e := by
  induction xs with
  | nil => cases hx
  | cons y rest ih =>
      obtain ⟨hy, hrest⟩ := List.forall_mem_cons.mp h
      rw [List.mapM_cons]
      rcases hy with ⟨b, hb⟩ | hy
      · have hx : x ∈ rest := by
          rcases List.mem_cons.mp hx with rfl | hx
          · cases hb.symm.trans he
          · exact hx
        rw [hb, ih hrest hx]
        rfl
      · rw [hy]
        rfl

/-- The class of functions is an alias of a controller. -/
def classOptions : Entries := [(.str "type", .callable (.ofClass .function))]

def classPlan : Plan := .plain (.callable (.ofClass .function)) (.function none (.int 0) false) none

theorem hash_classPlan : classPlan.attributes.hash = .error .missingAttribute := by
  have hlines : classPlan.attributes.lines = .error .missingAttribute := by
    refine mapM_eq_error (x := ("type", .callable (.ofClass .function))) (fun e he => ?_)
      (List.mem_mergeSort.mpr (List.mem_filter.mpr ⟨by simp [classPlan, Plan.attributes,
        Plan.common, Plan.plain], rfl⟩)) rfl
    have hmem : e ∈ classPlan.attributes := List.mem_of_mem_filter (List.mem_mergeSort.mp he)
    have line : ∀ name v, v.isDigestible = true → ∃ l, Attributes.line (name, v) = .ok l := by
      intro name v hv
      obtain ⟨token, htoken⟩ := Value.token_of_digestible hv
      exact ⟨name ++ "=" ++ token, by rw [Attributes.line, htoken]; rfl⟩
    simp only [classPlan, Plan.plain, Plan.attributes, Plan.common, Plan.added, Demand.attributes,
      Option.toList_none, List.map_nil, List.append_nil, List.cons_append, List.nil_append,
      List.mem_cons, List.not_mem_nil, or_false] at hmem
    rcases hmem with rfl | rfl | rfl | rfl | rfl | rfl | rfl | rfl | rfl
    all_goals first | exact .inl (line _ _ rfl) | exact .inr rfl
  rw [Attributes.hash, hlines]
  rfl

end Conform
