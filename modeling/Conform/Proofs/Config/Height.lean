/-
# `Proofs.Config.Height` — compiling goes down

The recursion from a configuration to those in its options is guarded by
height.  Here the guard is shown never to refuse: whatever a build step
compiles is lower than the configuration it reads, because merging and
taking out an option add no height.  What is left is the equation
`compile_eq`, in which `compile` is its own factory.

The same recursion with other build steps is `compileBy`.  It is `compile` on
configurations on which the steps do the same, as long as what they hand on is
such a configuration again.
-/
import Conform.Config.Compile
import Conform.Proofs.Config.Parallel

namespace Conform

/-! ## What a step hands on is lower -/

namespace Value

/-- Every value in a merged pair is in one of the two configurations. -/
theorem height_pair {generic specific : Value} (hg : generic.IsPartOption)
    (hs : specific.IsPartOption) {n : Nat} (hn : 0 < n) (hgn : generic.height ≤ n)
    (hsn : specific.height ≤ n) {pair : Entries} (hpair : pair ∈ generic.pairs specific) :
    (Value.dict (pair.erase (.str "required"))).height ≤ n := by
  have below := mergeProducts_below
    (fun s hm => ⟨(hs.alternatives s hm).1, Nat.le_trans (hs.alternatives s hm).2 hsn⟩)
    (fun g hm => ⟨(hg.alternatives g hm).1, Nat.le_trans (hg.alternatives g hm).2 hgn⟩)
    (mergeProducts_pairs hg hs)
  obtain ⟨es, heq, hes⟩ := below _ (List.mem_map_of_mem hpair)
  obtain rfl := Value.dict.inj heq
  have : heightEntries (pair.erase (.str "required")) ≤ n - 1 :=
    heightEntries_le_iff.mpr fun e he => by
      have := hes e (List.mem_of_mem_filter he)
      omega
  rw [height]
  omega

end Value

/-- The build steps hand on what is lower than their configuration. -/
theorem handed_below (config : Entries) :
    config.Handed fun c => 0 < c.height ∧ c.height < (Value.dict config).height where
  items v hget hconf :=
    ⟨Value.height_pos_of_isConfiguration hconf, Nat.lt_succ_of_le (Value.height_of_get? hget)⟩
  variant v variants hget hlisted w hw hdict := by
    have hheight := Value.height_of_get? hget
    have hlower := Value.height_lt_of_listed? hlisted hw
    refine ⟨?_, Nat.lt_of_lt_of_le hlower (Nat.le_succ_of_le hheight)⟩
    cases w with
    | dict => exact Nat.succ_pos _
    | _ => cases hdict
  property generic declared hgeneric hget e he hconf pair hpair := by
    have hdeclared := Value.height_of_get? hget
    have hproperty := Value.height_le_of_mem_entries he
    rw [Value.height] at hdeclared
    have hspecific : (Options.propertyConfig e.2).height ≤ Value.heightEntries config := by
      unfold Options.propertyConfig
      split
      · exact Nat.lt_of_lt_of_le (Nat.succ_pos _) hdeclared
      · omega
    obtain ⟨hpart, hgn⟩ := Options.schemaOption_ok hgeneric
    refine ⟨Nat.succ_pos _, Nat.lt_succ_of_le ?_⟩
    exact Value.height_pair hpart (.inr hconf) (Nat.lt_of_lt_of_le (Nat.succ_pos _) hdeclared)
      hgn hspecific hpair
  generic v hget hconf pair hpair := by
    have hheight := Value.height_of_get? hget
    have hpos := Value.height_pos_of_isConfiguration hconf
    refine ⟨Nat.succ_pos _, Nat.lt_succ_of_le ?_⟩
    exact Value.height_pair (.inl rfl) (.inr hconf) (Nat.lt_of_lt_of_le hpos hheight)
      (Nat.zero_le _) hheight hpair

/-- Two factories agree on the dictionaries and lists below a height. -/
def AgreeBelow (n : Nat) (f g : Factory) : Prop :=
  ∀ c a : Value, 0 < c.height → c.height < n → f c a = g c a

variable {f g : Factory}

/-! ## The equation of compiling -/

theorem heightEntries_typedEntries (config : Entries) :
    Value.heightEntries (typedEntries config).1 ≤ Value.heightEntries config := by
  unfold typedEntries
  split
  · refine Value.heightEntries_le_iff.mpr fun e he => ?_
    rcases Entries.snd_of_mem_put he with heq | ⟨k, hk⟩
    · rw [heq]
      exact Nat.zero_le _
    · exact Value.height_le_of_mem_entries hk
  · exact Nat.le_refl _

/-- So is what they hand on when a configuration is compiled. -/
theorem handed_of_given {configuration : Value} {config : Entries}
    (h : givenEntries .notADict configuration = .ok config) :
    (typedEntries config).1.Handed fun c => 0 < c.height ∧ c.height < configuration.height := by
  refine (handed_below _).mono fun c ⟨hpos, hc⟩ => ⟨hpos, ?_⟩
  have hle := heightEntries_typedEntries config
  rw [Value.height] at hc
  cases configuration with
  | dict entries =>
      obtain rfl : entries = config := Except.ok.inj h
      exact Nat.lt_of_lt_of_le hc (Nat.succ_le_succ hle)
  | none =>
      obtain rfl : [] = config := Except.ok.inj h
      rw [Value.heightEntries] at hle
      omega
  | _ => cases h

theorem height_le_of_single {configuration w : Value}
    (hw : w ∈ configuration.listed?.getD [configuration]) : w.height ≤ configuration.height := by
  obtain rfl | ⟨items, hlisted, hw⟩ := Value.eq_or_mem_listed hw
  · exact Nat.le_refl _
  · exact Nat.le_of_lt (Value.height_lt_of_listed? hlisted hw)

theorem compileWith_congr (r : Registry) (configuration additional : Value)
    (h : AgreeBelow configuration.height f g) :
    compileWith f r configuration additional = compileWith g r configuration additional := by
  refine compileWith_along Build.parallel_eq r.along_eq ?_
  intro w hw config hconfig step
  refine Options.ofStep_along Build.parallel_eq (fun c hc a => ?_) (handed_of_given hconfig) step
  exact h c a hc.1 (Nat.lt_of_lt_of_le hc.2 (height_le_of_single hw))

/-- Compiling is its own factory. -/
theorem compile_eq (r : Registry) (configuration additional : Value) :
    compile r configuration additional = compileWith (compile r) r configuration additional := by
  rw [compile]
  exact compileWith_congr r configuration additional fun c a _ hc => if_pos hc

/-! ## Compilers of the same outcome -/

/-- Compiles as `compile` does, by other build steps. -/
def compileBy (steps : Factory → Steps) (r : Registry) (configuration additional : Value) :
    Build Schema :=
  compileWithBy
    (steps fun c a =>
      if c.height < configuration.height then compileBy steps r c a
      else throw (.fault .typeMismatch))
    r configuration additional
termination_by configuration.height

/-- A compiler by other steps is `compile` on the configurations of a sort, if
on these the steps do what those of this library do and these hand on
configurations of that sort. -/
theorem compileBy_eq {steps : Factory → Steps} {P : Value → Prop}
    (hsteps : ∀ c, P c → ∀ w ∈ c.listed?.getD [c], ∀ config,
      givenEntries .notADict w = .ok config → (typedEntries config).1.Handed P ∧
        ∀ f step, steps f (typedEntries config).1 step
          = Options.ofStep f (typedEntries config).1 step)
    (r : Registry) (configuration additional : Value) (hconfiguration : P configuration) :
    compileBy steps r configuration additional = compile r configuration additional := by
  rw [compileBy, compile, compileWith_eq_by]
  refine compileWith_along Build.parallel_eq r.along_eq ?_
  intro w hw config hconfig step
  obtain ⟨hhanded, hsame⟩ := hsteps configuration hconfiguration w hw config hconfig
  rw [hsame]
  refine Options.ofStep_along Build.parallel_eq (fun c hc a => ?_) hhanded step
  split
  · exact compileBy_eq hsteps r c a hc
  · rfl
termination_by configuration.height

/-- By the build steps of this library it is `compile` throughout. -/
theorem compileBy_ofStep (r : Registry) (configuration additional : Value) :
    compileBy Options.ofStep r configuration additional = compile r configuration additional := by
  refine compileBy_eq (P := fun _ => True) (fun _ _ _ _ _ _ => ⟨?_, fun _ _ => rfl⟩)
    r configuration additional trivial
  exact ⟨fun _ _ _ => trivial, fun _ _ _ _ _ _ _ => trivial, fun _ _ _ _ _ _ _ _ _ => trivial,
    fun _ _ _ _ _ => trivial⟩

end Conform
