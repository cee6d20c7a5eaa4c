/-
# `Proofs.Schema.Steps` — the steps of a schema in the order of its chain

Compiling runs the build steps of the chain of a definition, root first, and
so does a check run the check steps.  In a registry that requests have made,
a chain is a sorted closure, so the steps of the ancestors of a definition
run before its own.

A report says which layer an error comes from: `report` is the error with
its layer.
-/
import Conform.Proofs.Registry.Ancestors
import Conform.Proofs.Registry.Run
import Conform.Proofs.Schema.Tokens
import Conform.Schema.Verdict

namespace Conform

/-! ## Build steps -/

namespace Build

variable {α β : Type} {b : Build α} {a : α}

/-- The layers whose build steps began. -/
def layers (b : Build α) : List Layer := b.outcome.2

theorem layers_bind_of_ok {f : α → Build β} (h : b.result = .ok a) :
    (b >>= f).layers = b.layers ++ (f a).layers := by
  obtain ⟨⟨x, ls⟩⟩ := b
  obtain rfl : x = .ok a := h
  rfl

@[simp] theorem layers_pure : (pure a : Build α).layers = [] := rfl

@[simp] theorem layers_lift {x : Outcome α} : (liftM x : Build α).layers = [] := rfl

@[simp] theorem layers_lift_fault {x : Except Fault α} : (liftM x : Build α).layers = [] := rfl

@[simp] theorem layers_note {layer : Layer} : (note layer).layers = [layer] := rfl

end Build

variable {f : Factory} {owner : String} {config : Entries}

/-- The step of a layer begins, and then those that it compiles inside. -/
theorem layers_buildLayer {attrs attrs' : Attributes} {l : Layer}
    (h : (buildLayer f owner config attrs l).result = .ok attrs') :
    (buildLayer f owner config attrs l).layers
      = l :: (Options.ofStep f config l.build).layers := by
  unfold buildLayer at h ⊢
  simp only [Build.result_bind, Build.result_note, ok_bind, bind_eq_ok] at h
  obtain ⟨more, hmore, -⟩ := h
  rw [Build.layers_bind_of_ok Build.result_note, Build.layers_bind_of_ok hmore]
  simp

theorem layers_chain (chain : List Layer) {attrs attrs' : Attributes}
    (h : (chain.foldlM (buildLayer f owner config) attrs).result = .ok attrs') :
    (chain.foldlM (buildLayer f owner config) attrs).layers
      = chain.flatMap fun l => l :: (Options.ofStep f config l.build).layers := by
  induction chain generalizing attrs with
  | nil => rfl
  | cons l rest ih =>
      rw [List.foldlM_cons] at h ⊢
      simp only [Build.result_bind, bind_eq_ok] at h
      obtain ⟨next, hnext, hrest⟩ := h
      rw [Build.layers_bind_of_ok hnext, layers_buildLayer hnext, ih hrest]
      rfl

/-- Building runs the steps of the chain, each once and in order. -/
theorem layers_buildInstance {d : Definition} {extras : Entries} {s : Instance}
    (h : (buildInstance f d config extras).result = .ok s) :
    s.chain = d.chain ∧ (buildInstance f d config extras).layers
      = d.chain.flatMap fun l => l :: (Options.ofStep f config l.build).layers := by
  unfold buildInstance at h ⊢
  simp only [Build.result_bind, Build.result_lift_fault, bind_eq_ok, lift_eq_ok] at h
  obtain ⟨attrs, hattrs, added, hadded, all, hall, hfinish⟩ := h
  constructor
  · simp only [finishInstance, bind_eq_ok] at hfinish
    obtain ⟨hash, -, frozen, -, hfinish⟩ := hfinish
    split at hfinish
    · simp at hfinish
    · split at hfinish
      · simp at hfinish
      · split at hfinish
        · simp at hfinish
        · rw [← Except.ok.inj hfinish]
  · rw [Build.layers_bind_of_ok hattrs, layers_chain d.chain hattrs,
      Build.layers_bind_of_ok (a := added) (by simpa using hadded),
      Build.layers_bind_of_ok (a := all) (by simpa using hall)]
    simp

/-- Compiling a configuration by itself runs the chain of the definition that
its type resolves to. -/
theorem layers_compileSingle {r : Registry} {configuration additional : Value} {s : Instance}
    (h : (compileSingle f r configuration additional).result = .ok s) :
    ∃ entries d, givenEntries .notADict configuration = .ok entries ∧
      r.resolve (typedEntries entries).2 = some d ∧ s.chain = d.chain ∧
      (compileSingle f r configuration additional).layers = d.chain.flatMap fun l =>
        l :: (Options.ofStep f (typedEntries entries).1 l.build).layers := by
  unfold compileSingle at h ⊢
  simp only [Build.result_bind, Build.result_lift, bind_eq_ok] at h
  obtain ⟨entries, hentries, extras, hextras, h⟩ := h
  rw [Build.layers_bind_of_ok (a := entries) (by simpa using hentries),
    Build.layers_bind_of_ok (a := extras) (by simpa using hextras)]
  cases hd : r.resolve (typedEntries entries).2 with
  | none => simp [hd] at h
  | some d =>
      simp only [hd] at h ⊢
      obtain ⟨hchain, hlayers⟩ := layers_buildInstance h
      exact ⟨entries, d, hentries, hd, hchain, by simpa using hlayers⟩

theorem Registry.layers_compile {r : Registry} {configuration additional : Value} {s : Instance}
    (h : r.compile configuration additional = .ok (.single s)) :
    ∃ entries d, givenEntries .notADict configuration = .ok entries ∧
      r.resolve (typedEntries entries).2 = some d ∧ s.chain = d.chain ∧
      r.trace configuration additional = d.chain.flatMap fun l =>
        l :: (Options.ofStep (Conform.compile r) (typedEntries entries).1 l.build).layers := by
  change (Conform.compile r configuration additional).result = _ at h
  change ∃ entries d, _ ∧ _ ∧ _ ∧ (Conform.compile r configuration additional).layers = _
  rw [compile_eq] at h ⊢
  unfold compileWith at h ⊢
  cases hl : configuration.listed? with
  | some configurations =>
      simp only [hl, Build.result_bind, Build.result_pure, bind_eq_ok] at h
      obtain ⟨_, _, _, _, h⟩ := h
      exact absurd (Except.ok.inj h) (by simp [Schema.ofAlternatives])
  | none =>
      simp only [hl] at h ⊢
      split at h
      · simp at h
      · rename_i hadditional
        simp only [hadditional]
        simp only [Build.result_bind, Build.result_pure, bind_eq_ok] at h
        obtain ⟨t, ht, h⟩ := h
        obtain rfl : t = s := Schema.single.inj (Except.ok.inj h)
        obtain ⟨entries, d, hentries, hd, hchain, hlayers⟩ := layers_compileSingle ht
        refine ⟨entries, d, hentries, hd, hchain, ?_⟩
        rw [if_neg Bool.false_ne_true, Build.layers_bind_of_ok ht]
        simpa using hlayers

/-! ## Check steps -/

/-- How the steps of a schema ask the schemas inside. -/
def Schema.askInside (s : Schema) : Ask := fun t v lead =>
  if t.depth < s.depth then t.error v lead else throw (.fault .missingAttribute)

namespace Instance

/-- The first layer of a chain whose step reports an error. -/
def firstReport (ask : Ask) (s : Instance) (v lead : Value) :
    List Layer → Outcome (Option (Layer × ErrorInfo))
  | [] => return none
  | l :: rest =>
      match l.check with
      | none => firstReport ask s v lead rest
      | some step => do
          match ← checkStep ask s v lead step with
          | some info => return some (l, info)
          | none => firstReport ask s v lead rest

/-- The error of a value with the layer that reports it. -/
def report (s : Instance) (v lead : Value) : Outcome (Option (Layer × ErrorInfo)) := do
  s.require "error"
  s.firstReport (Schema.single s).askInside v (← lead.orEmpty) s.chain

variable {ask : Ask} {s : Instance} {v lead : Value}

theorem firstError_eq_firstReport (chain : List Layer) :
    firstError ask s v lead (chain.filterMap Layer.check)
      = Option.map Prod.snd <$> firstReport ask s v lead chain := by
  induction chain with
  | nil => rfl
  | cons l rest ih =>
      cases hl : l.check with
      | none =>
          simp only [List.filterMap_cons, hl, firstReport]
          exact ih
      | some step =>
          simp only [List.filterMap_cons, hl, firstReport, firstError, firstOf]
          cases checkStep ask s v lead step with
          | error e => rfl
          | ok found =>
              cases found with
              | none => exact ih
              | some info => rfl

/-- What reports an error is preceded by steps that report none. -/
theorem firstReport_eq_some {l : Layer} {info : ErrorInfo} {chain : List Layer}
    (h : firstReport ask s v lead chain = .ok (some (l, info))) :
    ∃ before after step, chain = before ++ l :: after ∧ l.check = some step ∧
      checkStep ask s v lead step = .ok (some info) ∧
      ∀ m ∈ before, ∀ step, m.check = some step → checkStep ask s v lead step = .ok none := by
  induction chain with
  | nil => simp [firstReport] at h
  | cons m rest ih =>
      cases hm : m.check with
      | none =>
          simp only [firstReport, hm] at h
          obtain ⟨before, after, step, rfl, hstep, hreport, hbefore⟩ := ih h
          refine ⟨m :: before, after, step, rfl, hstep, hreport, fun k hk => ?_⟩
          rcases List.mem_cons.mp hk with rfl | hk
          · simp [hm]
          · exact hbefore k hk
      | some own =>
          simp only [firstReport, hm, bind_eq_ok] at h
          obtain ⟨found, hfound, h⟩ := h
          cases found with
          | some error =>
              obtain ⟨rfl, rfl⟩ : m = l ∧ error = info := by simpa using h
              exact ⟨[], rest, own, rfl, hm, hfound, by simp⟩
          | none =>
              obtain ⟨before, after, step, rfl, hstep, hreport, hbefore⟩ := ih h
              refine ⟨m :: before, after, step, rfl, hstep, hreport, fun k hk => ?_⟩
              rcases List.mem_cons.mp hk with rfl | hk
              · intro step hstep
                obtain rfl : own = step := Option.some.inj (hm.symm.trans hstep)
                exact hfound
              · exact hbefore k hk

end Instance

/-- The report of a value is its error, with its layer. -/
theorem Schema.error_eq_report (s : Instance) (v lead : Value) :
    (Schema.single s).error v lead = Option.map Prod.snd <$> s.report v lead := by
  rw [Schema.error]
  show s.errorWith (Schema.single s).askInside v lead = _
  simp only [Instance.errorWith, Instance.report, Instance.checks]
  cases s.require "error" with
  | error e => rfl
  | ok _ =>
      cases lead.orEmpty with
      | error e => rfl
      | ok lead => exact Instance.firstError_eq_firstReport s.chain

/-! ## Registries that requests make -/

namespace Registry

variable {r : Registry} {d : Definition}

/-- The chain of a definition is its closure under ancestors, sorted, with
the definition itself at the end. -/
structure Closure (r : Registry) (d : Definition) : Prop where
  once : (d.chain.map Layer.id).Nodup
  last : d.chain.getLast? = some d.layer
  reached : ∀ l, l ∈ d.chain ↔ l = d.layer ∨ ∃ a, r.Ancestor d a ∧ l = a.layer
  sorted : ∀ before x after, d.chain = before ++ x.layer :: after → x ∈ r.definitions →
    ∀ a, r.Ancestor x a → a.layer ∈ before

/-- A schema of a definition: compiling it ran the build step of each layer
of the chain once and in order, with the steps that it compiled inside, and
a report of one layer says that no ancestor of it refuses the value. -/
structure Runs (r : Registry) (configuration additional : Value) (s : Instance)
    (d : Definition) : Prop where
  chain : s.chain = d.chain
  built : ∃ entries, givenEntries .notADict configuration = .ok entries ∧
    r.resolve (typedEntries entries).2 = some d ∧
    r.trace configuration additional = d.chain.flatMap fun l =>
      l :: (Options.ofStep (Conform.compile r) (typedEntries entries).1 l.build).layers
  reported : ∀ v lead info, (Schema.single s).error v lead = .ok (some info) →
    ∃ x ∈ r.definitions, s.report v lead = .ok (some (x.layer, info))
  accepted : ∀ v lead info x, x ∈ r.definitions → s.report v lead = .ok (some (x.layer, info)) →
    ∃ lead', lead.orEmpty = .ok lead' ∧ ∀ a, r.Ancestor x a → ∀ step, a.layer.check = some step →
      s.checkStep (Schema.single s).askInside v lead' step = .ok none

theorem Sound.closure (h : Sound r) (hd : d ∈ r.definitions) : Closure r d where
  once := (h.chain hd).1.once
  last := by
    obtain ⟨k, hk⟩ := h.mem_definitions.mp hd
    rw [h.chains _ hk, List.getLast?_concat]
  reached := (h.chain hd).2
  sorted := (h.chain hd).1.sorted

theorem report_eq_some {s : Instance} {v lead : Value} {l : Layer} {info : ErrorInfo}
    (h : s.report v lead = .ok (some (l, info))) :
    ∃ lead', lead.orEmpty = .ok lead' ∧
      s.firstReport (Schema.single s).askInside v lead' s.chain = .ok (some (l, info)) := by
  simp only [Instance.report, bind_eq_ok, lift_eq_ok] at h
  obtain ⟨_, -, lead', hlead, h⟩ := h
  exact ⟨lead', hlead, h⟩

theorem Sound.runs (h : Sound r) {configuration additional : Value} {s : Instance}
    (hs : r.compile configuration additional = .ok (.single s)) :
    ∃ d ∈ r.definitions, Runs r configuration additional s d := by
  obtain ⟨entries, d, hentries, hresolve, hchain, htrace⟩ := layers_compile hs
  have hd : d ∈ r.definitions := h.mem_of_resolve hresolve
  have hordered : Ordered r s.chain := hchain ▸ (h.chain hd).1
  refine ⟨d, hd, hchain, ⟨entries, hentries, hresolve, htrace⟩, ?_, ?_⟩
  · intro v lead info herror
    rw [Schema.error_eq_report] at herror
    obtain ⟨found, hfound, hinfo⟩ := map_eq_ok.mp herror
    cases found with
    | none => simp at hinfo
    | some y =>
        obtain ⟨l, error⟩ := y
        obtain rfl : error = info := by simpa using hinfo
        obtain ⟨lead', -, hfirst⟩ := report_eq_some hfound
        obtain ⟨before, after, step, hsplit, -⟩ := Instance.firstReport_eq_some hfirst
        obtain ⟨x, hx, rfl⟩ := hordered.live l (by rw [hsplit]; simp)
        exact ⟨x, hx, hfound⟩
  · intro v lead info x hx hreport
    obtain ⟨lead', hlead, hfirst⟩ := report_eq_some hreport
    obtain ⟨before, after, step, hsplit, -, -, hbefore⟩ := Instance.firstReport_eq_some hfirst
    exact ⟨lead', hlead, fun a ha => hbefore _ (hordered.sorted before x after hsplit hx a ha)⟩

/-- In every registry that requests make, chains are sorted closures under
ancestors, and compiling and checking follow them. -/
theorem closure_run (requests : List Request) :
    let r := requests.foldl handle empty
    (∀ d ∈ r.definitions, Closure r d) ∧
      ∀ configuration additional s, r.compile configuration additional = .ok (.single s) →
        ∃ d ∈ r.definitions, Runs r configuration additional s d := by
  have sound : Sound (requests.foldl handle empty) := registry_run requests ▸ (kept_run requests).sound
  exact ⟨fun d hd => sound.closure hd, fun configuration additional s hs => sound.runs hs⟩

/-- A diamond, where `d` names `c` before `b` and both have `a` for a parent;
and booleans among the controllers of this library. -/
theorem closure_run_diamond :
    (let define : String → List String → Request := fun name parents =>
      .define ⟨.str name, .callable (.builder name []), .list (parents.map .str), .none, .none⟩
    let requests := [define "a" [], define "b" ["a"], define "c" ["a"], define "d" ["c", "b"]]
    let r := requests.foldl handle empty
    ∃ d, r.definitions[3]? = some d ∧ d.chain.map Layer.name = ["a", "c", "b", "d"] ∧
      Closure r d) ∧
    let r := [Request.registerBuiltins].foldl handle empty
    let configuration : Value := .dict [(.str "type", .str "boolean")]
    ∃ s, r.compile configuration .none = .ok (.single s) ∧
      ∃ d ∈ r.definitions, Runs r configuration .none s d := by
  constructor
  · intro define requests r
    have names : r.definitions[3]?.map (fun d => d.chain.map Layer.name)
        = some ["a", "c", "b", "d"] := by decide
    obtain ⟨d, hd, hchain⟩ := Option.map_eq_some_iff.mp names
    exact ⟨d, hd, hchain, (closure_run requests).1 d (List.mem_of_getElem? hd)⟩
  · intro r configuration
    obtain ⟨hash, hhash⟩ := Plan.hash_ok_of_unlisted
      (p := .plain (.str "boolean") .boolean none) rfl rfl rfl
      ⟨_, Value.token_ok rfl Value.outline_undefined⟩ ⟨_, Value.token_ok rfl rfl⟩ nofun
    have hs := Plan.compile_eq_plan (p := .plain (.str "boolean") .boolean none)
      [(.str "type", .str "boolean")] ⟨.boolean, [.str "boolean", .callable (.ofClass .bool)], false⟩
      rfl rfl rfl (fun _ => rfl) hhash
    exact ⟨_, hs, (closure_run [.registerBuiltins]).2 configuration .none _ hs⟩

end Registry

end Conform
