/-
# `Proofs.Schema.Marked` — the mark of a container

Whether a value must be there is the business of the container: it marks the schema
of a part, and asks for the mark when the part is missing.  The schema itself never
looks at it.  So two schemas that differ in the mark, and hence in the digest, answer
every question about a value alike.

The steps of a chain read attributes by name, and none of the names is the mark's
or the digest's.  That is all there is to show: the schemas inside are the same.
-/
import Conform.Proofs.Digest.Sorted
import Conform.Proofs.Schema.Steady

namespace Conform

/-! ## Attributes other than the mark -/

/-- The same value is found under every name but the mark's and the digest's. -/
def Instance.SameReads (s t : Instance) : Prop :=
  ∀ name, name ≠ "required" → name ≠ "_hash" → s.get? name = t.get? name

namespace Instance.SameReads

variable {s t : Instance}

theorem get (h : s.SameReads t) {name : String} (hname : name ≠ "required") (hname' : name ≠ "_hash") :
    s.get name = t.get name := by
  rw [Instance.get, Instance.get, h name hname hname']

theorem checkBound (h : s.SameReads t) {side : Side} (hside : side = .upper ∨ side = .lower)
    (v lead : Value) : s.checkBound side v lead = t.checkBound side v lead := by
  have hbound : s.get side.name = t.get side.name := by
    rcases hside with rfl | rfl <;> exact h.get (by decide) (by decide)
  have hexclusive : s.get side.exclusiveName = t.get side.exclusiveName := by
    rcases hside with rfl | rfl <;> exact h.get (by decide) (by decide)
  simp only [Instance.checkBound, hbound, hexclusive]

theorem checkLength (h : s.SameReads t) {m : Measure} (hm : m = .text ∨ m = .array) (n : Nat)
    (lead : Value) : s.checkLength m n lead = t.checkLength m n lead := by
  have hleast : s.get m.least = t.get m.least := by
    rcases hm with rfl | rfl <;> exact h.get (by decide) (by decide)
  have hmost : s.get m.most = t.get m.most := by
    rcases hm with rfl | rfl <;> exact h.get (by decide) (by decide)
  simp only [Instance.checkLength, hleast, hmost]

/-- No check reads the mark or the digest. -/
theorem checkStep (h : s.SameReads t) (ask : Ask) (v lead : Value) (k : Kind) :
    Instance.checkStep ask s v lead (.builtin k) = Instance.checkStep ask t v lead (.builtin k) := by
  cases k with
  | typed =>
      have henum : s.get "enum" = t.get "enum" := h.get (by decide) (by decide)
      have hvalidator : s.get "validator" = t.get "validator" := h.get (by decide) (by decide)
      simp only [Instance.checkStep, Instance.checkTyped, Instance.checkEnum,
        Instance.checkValidator, henum, hvalidator]
  | boolean | symbol => rfl
  | number =>
      have hinteger : s.get "integer" = t.get "integer" := h.get (by decide) (by decide)
      simp only [Instance.checkStep, Instance.checkNumber, hinteger, h.checkBound (.inl rfl),
        h.checkBound (.inr rfl)]
  | string =>
      have hpattern : s.get "pattern" = t.get "pattern" := h.get (by decide) (by decide)
      simp only [Instance.checkStep, Instance.checkString, Instance.checkPattern, hpattern,
        h.checkLength (.inl rfl)]
  | function =>
      have hnamed : s.get "named" = t.get "named" := h.get (by decide) (by decide)
      have hleast : s.get "min_arguments" = t.get "min_arguments" := h.get (by decide) (by decide)
      have hmost : s.get "max_arguments" = t.get "max_arguments" := h.get (by decide) (by decide)
      simp only [Instance.checkStep, Instance.checkFunction, Instance.checkArguments, hnamed, hleast,
        hmost]
  | array =>
      have hunique : s.get "unique_items" = t.get "unique_items" := h.get (by decide) (by decide)
      have hschema : s.get "schema" = t.get "schema" := h.get (by decide) (by decide)
      simp only [Instance.checkStep, Instance.checkArray, Instance.checkUnique, Instance.checkItems,
        hunique, hschema, h.checkLength (.inr rfl)]
  | object =>
      have hnull : s.get "allow_null" = t.get "allow_null" := h.get (by decide) (by decide)
      have hproperties : s.get "properties" = t.get "properties" := h.get (by decide) (by decide)
      have hschema : s.get "schema" = t.get "schema" := h.get (by decide) (by decide)
      simp only [Instance.checkStep, Instance.checkObject, Instance.properties, Instance.genericFor,
        hnull, hproperties, hschema]
  | oneOf =>
      have hvariants : s.get "one_of" = t.get "one_of" := h.get (by decide) (by decide)
      simp only [Instance.checkStep, Instance.checkOneOf, hvariants]

/-- Nor does what follows the checks. -/
theorem finishStep (h : s.SameReads t) (inner : Inner) (v : Value) (k : Kind) :
    Instance.finishStep inner s v (.builtin k) = Instance.finishStep inner t v (.builtin k) := by
  cases k with
  | typed =>
      have hhas : s.get "has_default" = t.get "has_default" := h.get (by decide) (by decide)
      have hdefault : s.get "default" = t.get "default" := h.get (by decide) (by decide)
      have htransform : s.get "transform" = t.get "transform" := h.get (by decide) (by decide)
      simp only [Instance.finishStep, Instance.finishTyped, hhas, hdefault, htransform]
  | array =>
      have hschema : s.get "schema" = t.get "schema" := h.get (by decide) (by decide)
      simp only [Instance.finishStep, Instance.finishArray, hschema]
  | object =>
      have hclean : s.get "clean" = t.get "clean" := h.get (by decide) (by decide)
      have hproperties : s.get "properties" = t.get "properties" := h.get (by decide) (by decide)
      simp only [Instance.finishStep, Instance.finishObject, Instance.properties, hclean,
        hproperties]
  | oneOf =>
      have hvariants : s.get "one_of" = t.get "one_of" := h.get (by decide) (by decide)
      simp only [Instance.finishStep, Instance.finishOneOf, hvariants]
  | _ => rfl

end Instance.SameReads

/-! ## Another mark -/

/-- The plan with another mark. -/
def Plan.remark (p : Plan) (required : Option Bool) : Plan := { p with required }

section remark

variable {p : Plan} {hash hash' : String} {required : Option Bool}

theorem Plan.sameReads_remark :
    (p.toInstance hash).SameReads ((p.remark required).toInstance hash') := by
  intro name hname hhash
  have hmark : ∀ r : Option Bool,
      (r.toList.map fun b => (("required", .bool b) : String × Value)).lookup name = none := by
    intro r
    cases r with
    | none => rfl
    | some b =>
        have hne : (name == "required") = false := by simpa using hname
        simp [List.lookup_cons, hne]
  have hlookup : p.attributes.lookup name = (p.remark required).attributes.lookup name := by
    simp only [attributes, added, List.lookup_append, hmark]
    rfl
  simp only [Instance.get?, toInstance, hhash, if_false, hlookup]
  rfl

theorem Schema.error_remark (v lead : Value) :
    (Schema.single ((p.remark required).toInstance hash')).error v lead
      = (Schema.single (p.toInstance hash)).error v lead := by
  have hreads : (p.toInstance hash).SameReads ((p.remark required).toInstance hash') :=
    Plan.sameReads_remark
  have hchecks : ∀ lead,
      Instance.firstError Schema.error ((p.remark required).toInstance hash') v lead
          ((p.remark required).toInstance hash').checks
        = Instance.firstError Schema.error (p.toInstance hash) v lead (p.toInstance hash).checks := by
    intro lead
    rw [Plan.checks_toInstance, Plan.checks_toInstance, Instance.firstError, Instance.firstError,
      hreads.checkStep]
    show firstOf _ (Instance.firstError _ _ _ _ (if p.demand.kind = .typed then _ else _)) = _
    split
    · rfl
    · simp only [Instance.firstError, hreads.checkStep]
      rfl
  rw [Schema.error_single, Schema.error_single, Instance.errorWith, Instance.errorWith,
    Plan.require_toInstance _ _ (by decide), Plan.require_toInstance _ _ (by decide)]
  simp only [hchecks]

theorem Schema.normalize_remark (v : Value) :
    (Schema.single ((p.remark required).toInstance hash')).normalize v
      = (Schema.single (p.toInstance hash)).normalize v := by
  have hreads : (p.toInstance hash).SameReads ((p.remark required).toInstance hash') :=
    Plan.sameReads_remark
  have hsupplied : ((p.remark required).toInstance hash').supplied v
      = (p.toInstance hash).supplied v := by
    rw [supplied_toInstance, supplied_toInstance]
    rfl
  have hfinishes : ∀ u,
      ((p.remark required).toInstance hash').finishes.foldlM
          (Instance.finishStep Schema.inner ((p.remark required).toInstance hash')) u
        = (p.toInstance hash).finishes.foldlM
          (Instance.finishStep Schema.inner (p.toInstance hash)) u := by
    intro u
    rw [Plan.finishes_toInstance, Plan.finishes_toInstance, List.foldlM_cons, List.foldlM_cons,
      hreads.finishStep]
    refine congrArg _ (funext fun w => ?_)
    show List.foldlM _ w (if p.demand.kind ≠ .typed ∧ p.demand.kind.finishes then _ else _) = _
    split
    · rw [List.foldlM_cons, List.foldlM_cons]
      refine congrArg (· >>= _) ?_
      exact (hreads.finishStep _ _ _).symm
    · rfl
  have herror : ∀ u, (Schema.single ((p.remark required).toInstance hash')).error u (.str "")
      = (Schema.single (p.toInstance hash)).error u (.str "") := fun u => error_remark u (.str "")
  rw [normalize_toInstance, normalize_toInstance, hsupplied]
  simp only [herror, hfinishes]

/-- Schemas that differ in the mark and the digest, if in anything. -/
structure Instance.SameButMark (s t : Instance) : Prop where
  chain : s.chain = t.chain
  names : (Schema.single s).publicNames = (Schema.single t).publicNames
  reads : s.SameReads t
  error : ∀ v lead, (Schema.single s).error v lead = (Schema.single t).error v lead
  normalize : ∀ v, (Schema.single s).normalize v = (Schema.single t).normalize v

theorem Plan.sameButMark_remark (hmarked : p.required.isSome = required.isSome) :
    (p.toInstance hash).SameButMark ((p.remark required).toInstance hash') where
  chain := rfl
  names := by
    have hadded : List.Forall₂ (fun e e' : String × Value => e.1 = e'.1 ∧ True)
        p.added (p.remark required).added := by
      have hsame : ∀ r r' : Option Bool, r.isSome = r'.isSome →
          List.Forall₂ (fun e e' : String × Value => e.1 = e'.1 ∧ True)
            (r.toList.map fun b => ("required", .bool b))
            (r'.toList.map fun b => ("required", .bool b)) := by
        rintro (_ | b) (_ | b') h
        · exact .nil
        · cases h
        · cases h
        · exact .cons ⟨rfl, trivial⟩ .nil
      exact hsame _ _ hmarked
    have hattributes : List.Forall₂ (fun e e' : String × Value => e.1 = e'.1 ∧ True)
        p.attributes (p.remark required).attributes :=
      List.rel_append (List.forall₂_same.mpr fun _ _ => ⟨rfl, trivial⟩) hadded
    show p.attributes.sortedPublic.map (·.1) = (p.remark required).attributes.sortedPublic.map (·.1)
    exact map_eq_of_forall₂ (Attributes.forall₂_sortedPublic (R := fun _ _ => True) hattributes)
      fun _ _ h => h.1
  reads := Plan.sameReads_remark
  error v lead := (Schema.error_remark v lead).symm
  normalize v := (Schema.normalize_remark v).symm

end remark

end Conform
