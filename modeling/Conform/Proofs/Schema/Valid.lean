/-
# `Proofs.Schema.Valid` — what a schema means

A schema says of every value whether it is valid, and the check is how that
is found out.  Validity is stated here without the check: which attributes a
value has to satisfy, in no order and without first errors.  Then both are the
same on ordinary values, as long as everything that is asked has an answer:
validators must give one, a number must compare to its bounds, and what a
refusal shows must be writable.
-/
import Conform.Proofs.Schema.Accepts
import Conform.Proofs.Schema.Inside
import Conform.Proofs.Schema.Tokens
import Conform.Proofs.Value.Comparison

namespace Conform

/-! ## Validity -/

mutual

/-- A value is valid for a schema when it is listed, if values are listed, when
the validator, if there is one, answers with something that is true and no
text, and when it meets what the kind demands; for several schemas when it is
valid for one. -/
inductive Schema.Valid : Schema → Value → Prop
  | single {p : Plan} {hash : String} {v : Value} (proper : p.Proper)
      (enum : ∀ items, p.enum = some items → ∃ item ∈ items, Value.strictEqual item v = true)
      (validator : ∀ f, p.validator = some f →
        ∃ answer, f.apply v = .ok answer ∧ answer.truthy = .ok true ∧ answer.text? = .none)
      (meets : Demand.Met p.demand v) : Schema.Valid (.single (p.toInstance hash)) v
  | multi {members : List Instance} {s : Instance} {v : Value} (mem : s ∈ members)
      (valid : Schema.Valid (.single s) v) : Schema.Valid (.multi members) v

/-- What the kinds demand. -/
inductive Demand.Met : Demand → Value → Prop
  | typed {v : Value} : Demand.Met .typed v
  | boolean {v : Value} (h : v.isBoolean = true) : Demand.Met .boolean v
  | symbol {v : Value} (h : v.isMember = true) : Demand.Met .symbol v
  | number {exclusiveMax exclusiveMin integer : Bool} {most least : Option Value} {v : Value}
      (real : v.isReal = true) (number : v.isNaN = false)
      (whole : integer = true → v.isInteger = true)
      (below : Demand.beyond .upper exclusiveMax v most = .ok false)
      (above : Demand.beyond .lower exclusiveMin v least = .ok false) :
      Demand.Met (.number exclusiveMax exclusiveMin integer most least) v
  | string {most : Option Int} {least : Int} {pattern : Option Pattern} {v : Value} {text : String}
      (isText : v.text? = some text) (long : least ≤ text.length)
      (short : ∀ n ∈ most, text.length ≤ n) (matched : ∀ r ∈ pattern, r.search text = .ok true) :
      Demand.Met (.string most least pattern) v
  | function {most : Option Value} {least : Value} {named : Bool} {f : Callable}
      (name : named = true → f.isNamed = true)
      (many : ∀ n : Nat, f.argumentCount? = some n → Value.holds .lt (.int n) least = .ok false)
      (few : ∀ n : Nat, f.argumentCount? = some n →
        Demand.exceeds .gt (.int n) most = .ok false) :
      Demand.Met (.function most least named) (.callable f)
  | array {most : Option Int} {least : Int} {item : Option Schema} {unique : Bool} {v : Value}
      {items : List Value} (isArray : v.arrayItems? = some items) (long : least ≤ items.length)
      (short : ∀ n ∈ most, items.length ≤ n)
      (distinct : unique = true → items.Pairwise fun a b => Value.strictEqual a b = false)
      (each : ∀ t, item = some t → ∀ w ∈ items, t.Valid w) :
      Demand.Met (.array most least item unique) v
  | null {clean : Bool} {properties : List (Value × Schema)} {generic : Option Schema} :
      Demand.Met (.object true clean properties generic) .none
  | object {allowNull clean : Bool} {properties : List (Value × Schema)} {generic : Option Schema}
      {entries : Entries}
      (present : ∀ e ∈ properties, e.2.isRequired = true → entries.contains e.1 = true)
      (each : ∀ e ∈ entries, ∀ t, Demand.governing properties generic e.1 = some t →
        t.Valid e.2) :
      Demand.Met (.object allowNull clean properties generic) (.dict entries)
  | oneOf {variants : List Schema} {t : Schema} {v : Value} (mem : t ∈ variants)
      (valid : t.Valid v) : Demand.Met (.oneOf variants) v

end

/-! ## Answers -/

/-- What a check of `v` hands on to the schemas of its parts: the value itself,
an item, or what stands under a key. -/
inductive Value.HandsOn (v : Value) : Value → Prop
  | self : HandsOn v v
  | item {items : List Value} {w : Value} (h : v.arrayItems? = some items) (hw : w ∈ items) :
      HandsOn v w
  | entry {entries : Entries} {e : Value × Value} (h : v = .dict entries) (he : e ∈ entries) :
      HandsOn v e.2

theorem Value.HandsOn.encloses {v w : Value} (h : v.HandsOn w) (hv : v.isOrdinary = true) :
    v.Encloses w := by
  cases h with
  | self => exact v.encloses_self
  | item h hw => exact encloses_item h hv w hw
  | entry h he =>
      subst h
      exact encloses_entry _ he

/-- The values that numbers and numbers of arguments are compared to. -/
def Demand.bounds : Demand → List Value
  | number _ _ _ most least => most.toList ++ least.toList
  | function most least _ => least :: most.toList
  | _ => []

def boundNames : List String := ["max", "min", "max_arguments", "min_arguments"]

/-- The bounds that a schema keeps. -/
def Instance.bounds (s : Instance) : List Value :=
  boundNames.filterMap (List.lookup · s.attributes)

theorem Plan.bounds_toInstance (p : Plan) (hash : String) :
    p.demand.bounds ⊆ (p.toInstance hash).bounds := by
  intro b hb
  suffices h : ∃ name ∈ boundNames, p.demand.attributes.lookup name = some b by
    obtain ⟨name, hname, hb⟩ := h
    have apart : ∀ n ∈ boundNames, n ∉ commonNames ∧ n ≠ "required" := by decide
    have hlookup := p.lookup_demand (apart name hname).1 (apart name hname).2
    exact List.mem_filterMap.mpr ⟨name, hname, hlookup.trans hb⟩
  cases hd : p.demand with
  | number exclusiveMax exclusiveMin integer most least =>
      rw [hd] at hb
      rcases List.mem_append.mp hb with hb | hb
      · obtain rfl := Option.mem_toList.mp hb
        exact ⟨"max", by simp [boundNames], rfl⟩
      · obtain rfl := Option.mem_toList.mp hb
        exact ⟨"min", by simp [boundNames], rfl⟩
  | function most least named =>
      rw [hd] at hb
      rcases List.mem_cons.mp hb with rfl | hb
      · exact ⟨"min_arguments", by simp [boundNames], rfl⟩
      · obtain rfl := Option.mem_toList.mp hb
        exact ⟨"max_arguments", by simp [boundNames], rfl⟩
  | _ =>
      rw [hd] at hb
      cases hb

namespace Schema

/-- Everything that a schema asks about a value has an answer: a validator says
what counts as true or false, fixed numbers are what their format holds, and
where a bound is a fixed fraction, the integers compared to it are doubles.  A
refusal can show the value and the values that are listed. -/
structure Answers (s : Schema) (v : Value) : Prop where
  validator : ∀ t, s.Inside (.single t) → ∀ f, t.get "validator" = .ok (.callable f) →
    ∀ w, w.everyPart Value.isOrdinary = true →
      ∃ answer b, f.apply w = .ok answer ∧ answer.truthy = .ok b
  held : ∀ t, s.Inside (.single t) → ∀ b ∈ t.bounds, b.isHeld = true
  ordinary : v.everyPart Value.isOrdinary = true
  exact : v.everyPart Value.converts = true ∨
    ∀ t, s.Inside (.single t) → ∀ b ∈ t.bounds, b.isFloating = false
  written : v.everyPart Value.hasLiteral = true
  listed : ∀ t, s.Inside (.single t) → ∀ items, t.get "enum" = .ok (.tuple items) →
    ∀ w ∈ items, w.hasLiteral = true

theorem Answers.inside {s t : Schema} {v w : Value} (h : s.Answers v) (ht : s.Inside t)
    (hw : v.Encloses w) : t.Answers w where
  validator u hu := h.validator u (ht.trans hu)
  held u hu := h.held u (ht.trans hu)
  ordinary := hw _ h.ordinary
  exact := h.exact.imp (hw _) fun hexact u hu => hexact u (ht.trans hu)
  written := hw _ h.written
  listed u hu := h.listed u (ht.trans hu)

theorem Answers.part {p : Plan} {hash : String} {v w : Value} {t : Schema}
    (h : (Schema.single (p.toInstance hash)).Answers v) (ht : t ∈ p.demand.parts)
    (hw : v.Encloses w) : t.Answers w :=
  h.inside (.part .self (by rw [p.parts_toInstance hash]; exact ht)) hw

theorem Answers.member {members : List Instance} {v : Value} (h : (Schema.multi members).Answers v)
    {s : Instance} (hs : s ∈ members) : (Schema.single s).Answers v :=
  h.inside (.member .self hs) v.encloses_self

end Schema

/-- What a demand asks of the numbers it compares. -/
def Demand.Compares (d : Demand) (v : Value) : Prop :=
  ∀ b ∈ d.bounds, b.isHeld = true ∧ (v.converts = true ∨ b.isFloating = false)

theorem Schema.Answers.compares {p : Plan} {hash : String} {v : Value}
    (h : (Schema.single (p.toInstance hash)).Answers v) : p.demand.Compares v := by
  intro b hb
  have hmem := p.bounds_toInstance hash hb
  refine ⟨h.held _ .self b hmem, ?_⟩
  rcases h.exact with hexact | hexact
  · exact .inl (Value.of_everyPart hexact)
  · exact .inr (hexact _ .self b hmem)

theorem Schema.Answers.validates {p : Plan} {hash : String} {v : Value}
    (h : (Schema.single (p.toInstance hash)).Answers v) : ∃ b, p.validates v = .ok b :=
  Plan.validates_ok hash v fun f hf => h.validator _ .self f hf v h.ordinary

/-- A plan can show what it lists if the entries of its list can be written. -/
theorem Plan.listsWritable_of_get {p : Plan} {hash : String}
    (h : ∀ items, (p.toInstance hash).get "enum" = .ok (.tuple items) →
      ∀ w ∈ items, w.hasLiteral = true) : p.listsWritable = true := by
  rw [Plan.listsWritable]
  cases henum : p.enum with
  | none => rfl
  | some items =>
      exact Value.haveLiterals_iff.mpr (h items (by rw [p.get_enum, henum]; rfl))

namespace Demand

theorem exceeds_ok {v : Value} (c : Comparison) (bound : Option Value) (hv : v.isReal = true)
    (hfixed : v.isFixed = false) (hreal : ∀ b, bound = some b → b.isReal = true)
    (hbound : ∀ b, bound = some b → b.isHeld = true ∧ (v.converts = true ∨ b.isFloating = false)) :
    ∃ r, exceeds c v bound = .ok r := by
  cases bound with
  | none => exact ⟨false, rfl⟩
  | some b => exact Value.exists_holds c hv hfixed (hreal b rfl) (hbound b rfl).1 (hbound b rfl).2

theorem acceptsNumber_ok {exclusiveMax exclusiveMin integer : Bool} {most least : Option Value}
    {v : Value} (hp : (number exclusiveMax exclusiveMin integer most least).Proper)
    (hbounds : (number exclusiveMax exclusiveMin integer most least).Compares v)
    (hv : v.isFixed = false) (hw : v.hasLiteral = true) :
    ∃ b, acceptsNumber exclusiveMax exclusiveMin integer most least v = .ok b := by
  rw [acceptsNumber, refusal_ok hw]
  split
  · exact ⟨false, rfl⟩
  · rename_i hnumber
    have hreal : v.isReal = true := by
      simp only [Bool.or_eq_true, not_or, Bool.not_eq_true', Bool.not_eq_true] at hnumber
      simpa using hnumber.1.1
    obtain ⟨above, habove⟩ := exceeds_ok (if exclusiveMax then Instance.Side.upper.exclusive
      else Instance.Side.upper.inclusive) most hreal hv hp.1 fun b hb =>
        hbounds b (List.mem_append_left _ (Option.mem_toList.mpr hb))
    obtain ⟨below, hbelow⟩ := exceeds_ok (if exclusiveMin then Instance.Side.lower.exclusive
      else Instance.Side.lower.inclusive) least hreal hv hp.2 fun b hb =>
        hbounds b (List.mem_append_right _ (Option.mem_toList.mpr hb))
    rw [beyond, habove, lift_ok, ok_bind]
    cases above with
    | true => exact ⟨false, rfl⟩
    | false =>
        rw [beyond, hbelow]
        cases below with
        | true => exact ⟨false, rfl⟩
        | false => exact ⟨true, rfl⟩

theorem acceptsFunction_ok {most : Option Value} {least : Value} {named : Bool} {v : Value}
    (hp : (function most least named).Proper) (hbounds : (function most least named).Compares v)
    (hw : v.hasLiteral = true) : ∃ b, acceptsFunction most least named v = .ok b := by
  cases v with
  | callable f =>
      rw [acceptsFunction]
      split
      · exact ⟨false, rfl⟩
      · cases hn : f.argumentCount? with
        | none => exact ⟨true, rfl⟩
        | some n =>
            have hconverts : ∀ b : Value, b.isHeld = true ∧ ((Value.callable f).converts = true ∨
                b.isFloating = false) → b.isHeld = true ∧ ((Value.int n).converts = true ∨
                  b.isFloating = false) := by
              intro b hb
              refine ⟨hb.1, hb.2.imp (fun hf => ?_) id⟩
              exact f.converts_arguments hn hf
            obtain ⟨few, hfew⟩ := exceeds_ok (v := .int n) .lt (some least) rfl rfl
              (fun b hb => Option.some.inj hb ▸ isReal_of_isInteger hp.2)
              fun b hb => hconverts b (hbounds b (Option.some.inj hb ▸ List.mem_cons_self))
            obtain ⟨many, hmany⟩ := exceeds_ok (v := .int n) .gt most rfl rfl
              (fun b hb => isReal_of_isInteger (hp.1 b hb))
              fun b hb => hconverts b (hbounds b
                (List.mem_cons_of_mem _ (Option.mem_toList.mpr hb)))
            have hleast : Value.holds .lt (.int n) least = .ok few := hfew
            simp only [hleast, lift_ok, ok_bind]
            cases few with
            | true => exact ⟨false, rfl⟩
            | false =>
                simp only [hmany]
                exact ⟨_, rfl⟩
  | _ => exact ⟨false, refusal_ok hw⟩

variable {ask : Schema → Value → Outcome Bool} {v : Value}

theorem acceptsArray_ok {most : Option Int} {least : Int} {item : Option Schema} {unique : Bool}
    (hw : v.hasLiteral = true)
    (hask : ∀ items, v.arrayItems? = some items → ∀ t, item = some t → ∀ w ∈ items,
      ∃ b, ask t w = .ok b) : ∃ b, acceptsArray ask most least item unique v = .ok b := by
  rw [acceptsArray]
  cases hitems : v.arrayItems? with
  | none => exact ⟨false, refusal_ok hw⟩
  | some items =>
      dsimp only
      split
      · exact ⟨false, rfl⟩
      · split
        · exact ⟨false, rfl⟩
        · cases hitem : item with
          | none => exact ⟨true, rfl⟩
          | some t => exact askAll_ok (hask items hitems t hitem)

theorem acceptsObject_ok {allowNull : Bool} {properties : List (Value × Schema)}
    {generic : Option Schema} (hw : v.hasLiteral = true)
    (hask : ∀ entries, v = .dict entries → ∀ e ∈ entries, ∀ t,
      governing properties generic e.1 = some t → ∃ b, ask t e.2 = .ok b) :
    ∃ b, acceptsObject ask allowNull properties generic v = .ok b := by
  rw [acceptsObject.eq_def]
  cases v with
  | none => exact ⟨allowNull, rfl⟩
  | dict entries =>
      have hentries : ∃ b, askAll (askEntry ask properties generic) entries = .ok b := by
        refine askAll_ok fun e he => ?_
        rw [askEntry]
        cases hg : governing properties generic e.1 with
        | none => exact ⟨true, rfl⟩
        | some t =>
            have hkey := Value.hasDisplay_of_hasLiteral (Value.hasLiteral_dict.mp hw e he).1
            simp only [hkey, if_true]
            exact hask entries rfl e he t hg
      obtain ⟨b, hb⟩ := hentries
      simp only [hb, ok_bind]
      exact ⟨_, rfl⟩
  | _ => exact ⟨false, refusal_ok hw⟩

/-- A demand is met or not, if the parts can be asked. -/
theorem accepts_ok {d : Demand} (hp : d.Proper) (hbounds : d.Compares v) (hv : v.isFixed = false)
    (hw : v.hasLiteral = true) (hask : ∀ t ∈ d.parts, ∀ w, v.HandsOn w → ∃ b, ask t w = .ok b) :
    ∃ b, d.accepts ask v = .ok b := by
  cases d with
  | number => exact acceptsNumber_ok hp hbounds hv hw
  | function => exact acceptsFunction_ok hp hbounds hw
  | string most least pattern =>
      rw [Demand.accepts, acceptsString]
      cases v.text? with
      | none => exact ⟨false, refusal_ok hw⟩
      | some text => exact ⟨_, rfl⟩
  | array most least item unique =>
      refine acceptsArray_ok hw fun items hitems t ht w hmem => ?_
      exact hask t (Option.mem_toList.mpr ht) w (.item hitems hmem)
  | object allowNull clean properties generic =>
      refine acceptsObject_ok hw fun entries hentries e he t ht => ?_
      exact hask t (mem_of_governing ht) e.2 (.entry hentries he)
  | oneOf variants => exact askAny_ok fun t ht => hask t ht v .self
  | boolean | symbol => exact ⟨_, ite_refusal hw⟩
  | typed => exact ⟨true, rfl⟩

end Demand

namespace Schema

/-- A relation under which everything that is asked has an answer, and that
holds again of what is asked about the parts. -/
structure Answering (Q : Schema → Value → Prop) : Prop where
  fixed : ∀ {s v}, Q s v → v.isFixed = false
  written : ∀ {s v}, Q s v → v.hasLiteral = true
  listed : ∀ {p : Plan} {hash v}, Q (.single (p.toInstance hash)) v → p.listsWritable = true
  validates : ∀ {p : Plan} {hash v}, Q (.single (p.toInstance hash)) v → ∃ b, p.validates v = .ok b
  compares : ∀ {p : Plan} {hash v}, Q (.single (p.toInstance hash)) v → p.demand.Compares v
  part : ∀ {p : Plan} {hash v t w}, Q (.single (p.toInstance hash)) v → t ∈ p.demand.parts →
    v.HandsOn w → Q t w
  member : ∀ {members v s}, Q (.multi members) v → s ∈ members → Q (.single s) v

/-- Where everything has an answer, so has the schema. -/
theorem Answering.accepts_ok {Q : Schema → Value → Prop} (hQ : Answering Q) {s : Schema}
    (h : s.Compiled) {v : Value} (hv : Q s v) : ∃ b, s.accepts v = .ok b := by
  induction h generalizing v with
  | single p hash proper _ parts ih =>
      have hw := hQ.written hv
      rw [accepts_single hash proper.demand proper.legible parts, Plan.accepts, hQ.listed hv, hw]
      split
      · exact ⟨false, rfl⟩
      · obtain ⟨b, hb⟩ := hQ.validates hv
        rw [hb, lift_ok, ok_bind]
        cases b with
        | false => exact ⟨false, rfl⟩
        | true =>
            exact Demand.accepts_ok proper.demand (hQ.compares hv) (hQ.fixed hv) hw
              fun t ht w hpart => ih t ht (hQ.part hv ht hpart)
  | multi members each ih =>
      rw [accepts_multi each]
      exact askAny_ok fun s hs => ih s hs (hQ.member hv hs)

theorem answering_answers : Answering Answers where
  fixed h := Value.isFixed_of_isOrdinary (Value.of_everyPart h.ordinary)
  written h := Value.of_everyPart h.written
  listed h := Plan.listsWritable_of_get (h.listed _ .self)
  validates h := h.validates
  compares h := h.compares
  part h ht hw := h.part ht (hw.encloses (Value.of_everyPart h.ordinary))
  member h hs := h.member hs

theorem Compiled.accepts_ok {s : Schema} (h : s.Compiled) {v : Value} (hanswers : s.Answers v) :
    ∃ b, s.accepts v = .ok b :=
  answering_answers.accepts_ok h hanswers

end Schema

/-! ## What is accepted is valid -/

namespace Demand

variable {v : Value}

theorem fits_iff {least n : Int} {most : Option Int} :
    fits least most n = true ↔ least ≤ n ∧ ∀ m ∈ most, n ≤ m := by
  rw [fits, Bool.and_eq_true, decide_eq_true_iff, Option.all_eq_true]
  simp only [decide_eq_true_iff, Option.mem_def]

theorem met_number {exclusiveMax exclusiveMin integer : Bool} {most least : Option Value} :
    acceptsNumber exclusiveMax exclusiveMin integer most least v = .ok true ↔
      (number exclusiveMax exclusiveMin integer most least).Met v := by
  rw [acceptsNumber]
  constructor
  · intro h
    split at h
    · exact absurd h refusal_ne_true
    · rename_i hnumber
      simp only [Bool.or_eq_true, Bool.and_eq_true, not_or, not_and, Bool.not_eq_true',
        Bool.not_eq_true, Bool.not_eq_false] at hnumber
      obtain ⟨above, habove, h⟩ := bind_eq_ok.mp h
      cases above with
      | true => exact absurd h refusal_ne_true
      | false =>
          obtain ⟨below, hbelow, h⟩ := bind_eq_ok.mp h
          cases below with
          | true => exact absurd h refusal_ne_true
          | false =>
              exact .number hnumber.1.1 hnumber.1.2 hnumber.2 (lift_eq_ok.mp habove)
                (lift_eq_ok.mp hbelow)
  · intro h
    cases h with
    | number real number whole below above =>
        have hinteger : (integer && !v.isInteger) = false := by
          cases integer with
          | true => rw [whole rfl]; rfl
          | false => rfl
        rw [real, number, hinteger, below, lift_ok, ok_bind, above]
        rfl

theorem met_string {most : Option Int} {least : Int} {pattern : Option Pattern}
    (hl : (string most least pattern).Legible) :
    acceptsString most least pattern v = .ok true ↔ (string most least pattern).Met v := by
  have hsearch : ∀ r ∈ pattern, ∀ text, r.search text = .ok (r.occursIn text) := by
    intro r hr text
    obtain ⟨s, hs⟩ := hl.pattern r hr
    exact Pattern.search_ok hs text
  rw [acceptsString]
  constructor
  · intro h
    cases htext : v.text? with
    | none =>
        rw [htext] at h
        exact absurd h refusal_ne_true
    | some text =>
        simp only [htext, pure_eq_ok, Bool.and_eq_true, fits_iff] at h
        refine .string htext h.1.1 h.1.2 fun r hr => ?_
        rw [hsearch r hr, (Option.all_eq_true _ _).mp h.2 r hr]
  · intro h
    cases h with
    | string htext long short matched =>
        simp only [htext, pure_eq_ok, Bool.and_eq_true, fits_iff]
        refine ⟨⟨long, short⟩, (Option.all_eq_true _ _).mpr fun r hr => ?_⟩
        exact Except.ok.inj ((hsearch r hr _).symm.trans (matched r hr))

theorem met_function {most : Option Value} {least : Value} {named : Bool} :
    acceptsFunction most least named v = .ok true ↔ (function most least named).Met v := by
  constructor
  · intro h
    cases v with
    | callable f =>
        rw [acceptsFunction] at h
        split at h
        · cases h
        · rename_i hname
          have hname : named = true → f.isNamed = true := by simpa using hname
          cases hn : f.argumentCount? with
          | none => exact .function hname (by rw [hn]; exact nofun) (by rw [hn]; exact nofun)
          | some n =>
              simp only [hn] at h
              obtain ⟨few, hfew, h⟩ := bind_eq_ok.mp h
              cases few with
              | true => cases h
              | false =>
                  obtain ⟨many, hmany, h⟩ := bind_eq_ok.mp h
                  cases many with
                  | true => cases h
                  | false =>
                      refine .function hname (fun m hm => ?_) fun m hm => ?_
                      · obtain rfl := Option.some.inj (hn.symm.trans hm)
                        exact lift_eq_ok.mp hfew
                      · obtain rfl := Option.some.inj (hn.symm.trans hm)
                        exact lift_eq_ok.mp hmany
    | _ => exact absurd h refusal_ne_true
  · intro h
    cases h with
    | @function _ _ _ f name many few =>
        have hname : (named && !f.isNamed) = false := by
          cases named with
          | true => rw [name rfl]; rfl
          | false => rfl
        rw [acceptsFunction, hname, if_neg Bool.false_ne_true]
        cases hn : f.argumentCount? with
        | none => rfl
        | some n =>
            simp only [many n hn, few n hn, lift_ok, ok_bind]
            rfl

/-! ## Demands that ask about parts -/

section parts

variable {d : Demand}

theorem met_array {most : Option Int} {least : Int} {item : Option Schema} {unique : Bool}
    (hv : v.everyPart Value.isOrdinary = true)
    (hparts : ∀ t, item = some t → ∀ w, v.Encloses w → (t.accepts w = .ok true ↔ t.Valid w)) :
    acceptsArray Schema.accepts most least item unique v = .ok true ↔
      (array most least item unique).Met v := by
  have hordinary := Value.of_everyPart hv
  have hholds : ∀ items, v.arrayItems? = some items → ∀ w ∈ items, v.Encloses w :=
    fun items hitems => Value.encloses_item hitems hordinary
  have hdistinct : ∀ items, v.arrayItems? = some items →
      ((unique && !(Value.duplicateGroups items).isEmpty) = false ↔
        (unique = true → items.Pairwise fun a b => Value.strictEqual a b = false)) := by
    intro items hitems
    rw [← Value.duplicateGroups_isEmpty_iff fun w hw => hholds items hitems w hw _ hv]
    cases unique <;> simp
  rw [acceptsArray]
  constructor
  · intro h
    cases hitems : v.arrayItems? with
    | none =>
        rw [hitems] at h
        exact absurd h refusal_ne_true
    | some items =>
        rw [hitems] at h
        dsimp only at h
        split at h
        · cases h
        · rename_i hfits
          split at h
          · cases h
          · rename_i hunique
            rw [Bool.not_eq_true, Bool.not_eq_false', fits_iff] at hfits
            rw [Bool.not_eq_true] at hunique
            refine .array hitems hfits.1 hfits.2 ((hdistinct items hitems).mp hunique) ?_
            intro t ht w hw
            rw [ht, askItems, askAll_eq_true] at h
            exact (hparts t ht w (hholds items hitems w hw)).mp (h w hw)
  · intro h
    cases h with
    | @array _ _ _ _ _ items hitems long short distinct each =>
        have hfits : fits least most items.length = true := fits_iff.mpr ⟨long, short⟩
        have hunique := (hdistinct items hitems).mpr distinct
        rw [hitems]
        dsimp only
        rw [hfits, hunique]
        cases hitem : item with
        | none => rfl
        | some t =>
            refine askAll_eq_true.mpr fun w hw => ?_
            exact (hparts t hitem w (hholds items hitems w hw)).mpr (each t hitem w hw)

theorem met_object {allowNull clean : Bool} {properties : List (Value × Schema)}
    {generic : Option Schema} (hw : v.hasLiteral = true)
    (hparts : ∀ t ∈ properties.map (·.2) ++ generic.toList, ∀ w, v.Encloses w →
      (t.accepts w = .ok true ↔ t.Valid w)) :
    acceptsObject Schema.accepts allowNull properties generic v = .ok true ↔
      (object allowNull clean properties generic).Met v := by
  constructor
  · intro h
    rw [acceptsObject.eq_def] at h
    cases v with
    | none =>
        obtain rfl := Except.ok.inj h
        exact .null
    | dict entries =>
        obtain ⟨answers, hanswers, h⟩ := bind_eq_ok.mp h
        obtain ⟨rfl, hpresent⟩ := Bool.and_eq_true_iff.mp (Except.ok.inj h)
        rw [askAll_eq_true] at hanswers
        refine .object ?_ ?_
        · intro e he hrequired
          simp only [Bool.not_eq_true', List.any_eq_false, Bool.and_eq_true, not_and,
            Bool.not_eq_false] at hpresent
          exact hpresent e he hrequired
        · intro e he t ht
          have hasked := ((askEntry_eq_true ht).mp (hanswers e he)).2
          exact (hparts t (mem_of_governing ht) e.2 (Value.encloses_entry e he)).mp hasked
    | _ => exact absurd h refusal_ne_true
  · intro h
    rw [acceptsObject.eq_def]
    cases h with
    | null => rfl
    | @object _ _ _ _ entries present each =>
        have hasked : askAll (askEntry Schema.accepts properties generic) entries = .ok true := by
          refine askAll_eq_true.mpr fun e he => ?_
          cases ht : governing properties generic e.1 with
          | none => rw [askEntry, ht]
          | some t =>
              refine (askEntry_eq_true ht).mpr ⟨?_, ?_⟩
              · exact Value.hasDisplay_of_hasLiteral (Value.hasLiteral_dict.mp hw e he).1
              · exact (hparts t (mem_of_governing ht) e.2 (Value.encloses_entry e he)).mpr
                  (each e he t ht)
        have hpresent : (properties.any fun e => e.2.isRequired && !entries.contains e.1)
            = false := by
          simp only [List.any_eq_false, Bool.and_eq_true, not_and, Bool.not_eq_true',
            Bool.not_eq_false]
          exact fun e he => present e he
        show (askAll _ entries >>= fun answers => pure (answers && !_)) = _
        rw [hasked, ok_bind]
        exact congrArg (fun missing => Except.ok (true && !missing)) hpresent

theorem met_oneOf {variants : List Schema} (htotal : ∀ t ∈ variants, ∃ b, t.accepts v = .ok b)
    (hparts : ∀ t ∈ variants, (t.accepts v = .ok true ↔ t.Valid v)) :
    askAny (Schema.accepts · v) variants = .ok true ↔ (oneOf variants).Met v := by
  constructor
  · intro h
    obtain ⟨t, ht, haccepts⟩ := askAny_eq_true h
    exact .oneOf ht ((hparts t ht).mp haccepts)
  · intro h
    cases h with
    | @oneOf _ t _ mem valid => exact askAny_of_mem htotal mem ((hparts t mem).mpr valid)

/-- A demand is met exactly when the check says so, if this holds of the parts. -/
theorem met_iff (hl : d.Legible) (hv : v.everyPart Value.isOrdinary = true)
    (hw : v.hasLiteral = true) (htotal : ∀ t ∈ d.parts, ∀ w, v.Encloses w → ∃ b, t.accepts w = .ok b)
    (hparts : ∀ t ∈ d.parts, ∀ w, v.Encloses w → (t.accepts w = .ok true ↔ t.Valid w)) :
    d.accepts Schema.accepts v = .ok true ↔ d.Met v := by
  cases d with
  | typed => exact ⟨fun _ => .typed, fun _ => rfl⟩
  | boolean =>
      rw [Demand.accepts, ite_refusal hw, Except.ok.injEq]
      exact ⟨.boolean, fun h => by cases h; assumption⟩
  | symbol =>
      rw [Demand.accepts, ite_refusal hw, Except.ok.injEq]
      exact ⟨.symbol, fun h => by cases h; assumption⟩
  | number => exact met_number
  | string => exact met_string hl
  | function => exact met_function
  | array => exact met_array hv fun t ht => hparts t (Option.mem_toList.mpr ht)
  | object => exact met_object hw hparts
  | oneOf =>
      exact met_oneOf (fun t ht => htotal t ht v v.encloses_self)
        fun t ht => hparts t ht v v.encloses_self

end parts

end Demand

/-! ## The check decides validity -/

namespace Plan

variable {p : Plan} {v : Value}

theorem lists_iff :
    p.lists v = true ↔
      ∀ items, p.enum = some items → ∃ item ∈ items, Value.strictEqual item v = true := by
  rw [lists]
  cases p.enum with
  | none => simp
  | some items => simp [Value.strictIndex?]

theorem validates_iff :
    p.validates v = .ok true ↔ ∀ f, p.validator = some f →
      ∃ answer, f.apply v = .ok answer ∧ answer.truthy = .ok true ∧ answer.text? = .none := by
  rw [validates]
  cases p.validator with
  | none => simp
  | some f =>
      constructor
      · intro h g hg
        obtain rfl := Option.some.inj hg
        obtain ⟨answer, hanswer, h⟩ := bind_eq_ok.mp h
        obtain ⟨b, hb, h⟩ := bind_eq_ok.mp h
        obtain ⟨rfl, htext⟩ := Bool.and_eq_true_iff.mp (Except.ok.inj h)
        exact ⟨answer, hanswer, hb, Option.isNone_iff_eq_none.mp htext⟩
      · intro h
        obtain ⟨answer, hanswer, hb, htext⟩ := h f rfl
        simp only [hanswer, hb, htext, ok_bind]
        rfl

end Plan

namespace Schema

theorem Compiled.parts_compiled {s : Instance} (h : (Schema.single s).Compiled) :
    ∀ t ∈ s.parts, t.Compiled := by
  cases h with
  | single p hash _ _ parts => rwa [p.parts_toInstance hash]

/-- The check decides validity for a plan, if it does so for the parts. -/
theorem accepts_iff_valid_single {s : Instance} {v : Value} (hs : (Schema.single s).Compiled)
    (hv : v.everyPart Value.isOrdinary = true) (hw : v.hasLiteral = true)
    (htotal : ∀ t ∈ s.parts, ∀ w, v.Encloses w → ∃ b, t.accepts w = .ok b)
    (hparts : ∀ t ∈ s.parts, ∀ w, v.Encloses w → (t.accepts w = .ok true ↔ t.Valid w)) :
    (Schema.single s).accepts v = .ok true ↔ (Schema.single s).Valid v := by
  -- a schema can be written down from more than one plan only as far as
  -- these agree on everything but the bounds, so validity brings its own plan
  have hplan : ∀ (p : Plan) (hash : String), s = p.toInstance hash → p.Proper →
      ((Schema.single s).accepts v = .ok true ↔
        p.lists v = true ∧ p.validates v = .ok true ∧ p.demand.Met v) := by
    rintro p hash rfl proper
    have hcompiled := hs.parts_compiled
    rw [p.parts_toInstance hash] at hcompiled htotal hparts
    rw [accepts_single hash proper.demand proper.legible hcompiled, Plan.accepts_eq_true,
      Demand.met_iff proper.legible hv hw htotal hparts]
  constructor
  · intro h
    cases hs with
    | single p hash proper _ _ =>
        obtain ⟨hlists, hvalidates, hmet⟩ := (hplan p hash rfl proper).mp h
        exact .single proper (Plan.lists_iff.mp hlists) (Plan.validates_iff.mp hvalidates) hmet
  · intro h
    generalize heq : Schema.single s = t at h
    cases h with
    | @single p hash _ proper enum validator meets =>
        rw [← heq]
        exact (hplan p hash (Schema.single.inj heq) proper).mpr
          ⟨Plan.lists_iff.mpr enum, Plan.validates_iff.mpr validator, meets⟩
    | multi => cases heq

theorem accepts_iff_valid_multi {members : List Instance} {v : Value}
    (hmembers : ∀ s ∈ members, (Schema.single s).Compiled)
    (htotal : ∀ s ∈ members, ∃ b, (Schema.single s).accepts v = .ok b)
    (heach : ∀ s ∈ members, ((Schema.single s).accepts v = .ok true ↔ (Schema.single s).Valid v)) :
    (Schema.multi members).accepts v = .ok true ↔ (Schema.multi members).Valid v := by
  rw [accepts_multi hmembers]
  constructor
  · intro h
    obtain ⟨s, hs, haccepts⟩ := askAny_eq_true h
    exact .multi hs ((heach s hs).mp haccepts)
  · intro h
    cases h with
    | multi mem valid => exact askAny_of_mem htotal mem ((heach _ mem).mpr valid)

theorem Compiled.accepts_iff_valid {s : Schema} (h : s.Compiled) {v : Value}
    (hanswers : s.Answers v) : s.accepts v = .ok true ↔ s.Valid v := by
  induction h generalizing v with
  | single p hash proper digest parts ih =>
      have hparts := p.parts_toInstance hash
      refine accepts_iff_valid_single (.single p hash proper digest parts) hanswers.ordinary
        (Value.of_everyPart hanswers.written) (fun t ht w hw => ?_) fun t ht w hw => ?_
      · rw [hparts] at ht
        exact (parts t ht).accepts_ok (hanswers.part ht hw)
      · rw [hparts] at ht
        exact ih t ht (hanswers.part ht hw)
  | multi members each ih =>
      exact accepts_iff_valid_multi each (fun s hs => (each s hs).accepts_ok (hanswers.member hs))
        fun s hs => ih s hs (hanswers.member hs)

section alternatives

/-- Zero in a fixed representation. -/
def fixedZero : Value := .scalar (.float64 (.zero false))

def boundedOptions : Option Value → Entries
  | none => [(.str "type", .str "number")]
  | some bound => [(.str "type", .str "number"), (.str "max", bound)]

def boundedPlan (most : Option Value) : Plan :=
  .plain (.str "number") (.number false false false most none) none

/-- A number that is not above a limit, or else any number. -/
def alternativeOptions (limit : Value) : Entries :=
  [(.str "type", .str "one-of"), (.str "one_of",
    .list [.dict (boundedOptions (some limit)), .dict (boundedOptions none)])]

def alternativePlan (limit : Value) (hash hash' : String) : Plan :=
  .plain (.str "one-of") (.oneOf [.single ((boundedPlan (some limit)).toInstance hash),
    .single ((boundedPlan none).toInstance hash')]) none

/-- No limit, or zero with or without a fixed representation. -/
def limits : List (Option Value) := [none, some fixedZero, some (.int 0)]

variable {most : Option Value} {limit : Value}

theorem boundedPlan_proper (hmost : most ∈ limits) : (boundedPlan most).Proper := by
  have hall : ∀ o ∈ limits, ∀ b ∈ o, b.isReal = true ∧ b.hasDisplay = true := by decide
  refine ⟨nofun, fun _ => rfl,
    ⟨builtinControllers[4], List.getElem_mem _, rfl, .str "number", List.mem_cons_self, rfl⟩,
    ⟨fun b hb => (hall most hmost b hb).1, nofun⟩, fun b hb => ?_, nofun⟩
  rcases List.mem_append.mp hb with hb | hb
  · exact (hall most hmost b (Option.mem_toList.mp hb)).2
  · cases hb

theorem alternativePlan_proper (limit : Value) (hash hash' : String) :
    (alternativePlan limit hash hash').Proper :=
  ⟨nofun, fun _ => rfl,
    ⟨builtinControllers[6], List.getElem_mem _, rfl, .str "one-of", List.mem_cons_self, rfl⟩,
    trivial, .of_nil rfl rfl⟩

theorem compile_bounded (hmost : most ∈ limits) :
    ∃ hash, Registry.builtin.compile (.dict (boundedOptions most)) .none
      = .ok (.single ((boundedPlan most).toInstance hash)) := by
  have hbounds : ∀ o ∈ limits, ∃ token, (optional id o).token = .ok token := by
    simp only [limits, List.forall_mem_cons]
    exact ⟨⟨_, Value.token_ok rfl rfl⟩, ⟨_, Value.token_ok rfl rfl⟩, ⟨_, Value.token_ok rfl rfl⟩,
      List.forall_mem_nil _⟩
  have htokens : ∀ e ∈ (boundedPlan most).demand.attributes, ∃ token, e.2.token = .ok token := by
    intro e he
    simp only [boundedPlan, Plan.plain, Demand.attributes, List.mem_cons, List.not_mem_nil,
      or_false] at he
    rcases he with rfl | rfl | rfl | rfl | rfl
    · exact ⟨_, Value.token_ok rfl rfl⟩
    · exact ⟨_, Value.token_ok rfl rfl⟩
    · exact ⟨_, Value.token_ok rfl rfl⟩
    · exact hbounds most hmost
    · exact ⟨_, Value.token_ok rfl rfl⟩
  obtain ⟨hash, hhash⟩ := Plan.hash_ok_of_unlisted (p := boundedPlan most) rfl rfl rfl
    ⟨_, Value.token_ok rfl Value.outline_undefined⟩ ⟨_, Value.token_ok rfl rfl⟩ htokens
  refine ⟨hash, ?_⟩
  simp only [limits, List.mem_cons, List.not_mem_nil, or_false] at hmost
  rcases hmost with rfl | rfl | rfl <;>
    exact Plan.compile_eq_plan (boundedOptions _) builtinControllers[4] rfl rfl rfl (fun _ => rfl)
      hhash

theorem compile_alternatives (hlimit : some limit ∈ limits) :
    ∃ hash hash' hash'', Registry.builtin.compile (.dict (alternativeOptions limit)) .none
      = .ok (.single ((alternativePlan limit hash hash').toInstance hash'')) := by
  obtain ⟨hash, hbounded⟩ := compile_bounded hlimit
  obtain ⟨hash', hany⟩ := compile_bounded (List.mem_cons_self : none ∈ limits)
  have hvariants := Value.outline_list.mpr ⟨_, rfl,
    .cons (Value.outline_schema ((boundedPlan (some limit)).answers hash))
      (.cons (Value.outline_schema ((boundedPlan none).answers hash')) .nil)⟩
  obtain ⟨hash'', hhash⟩ := Plan.hash_ok_of_unlisted (p := alternativePlan limit hash hash') rfl rfl
    rfl ⟨_, Value.token_ok rfl Value.outline_undefined⟩ ⟨_, Value.token_ok rfl rfl⟩ fun e he => by
      rw [List.mem_singleton.mp he]
      exact ⟨_, Value.token_ok rfl hvariants⟩
  refine ⟨hash, hash', hash'', Plan.compile_eq_plan (p := alternativePlan limit hash hash')
    (alternativeOptions limit) builtinControllers[6] rfl rfl rfl (fun _ => ?_) hhash⟩
  exact oneOf_attributes rfl rfl rfl (.cons hbounded (.cons hany .nil))

variable {hash hash' hash'' : String}

/-- Three schemas are inside. -/
theorem inside_alternatives {t : Instance}
    (ht : (Schema.single ((alternativePlan limit hash hash').toInstance hash'')).Inside
      (.single t)) :
    t = (alternativePlan limit hash hash').toInstance hash'' ∨
      t = (boundedPlan (some limit)).toInstance hash ∨ t = (boundedPlan none).toInstance hash' := by
  have hleaf : ∀ most hash,
      (Schema.single ((boundedPlan most).toInstance hash)).Inside (.single t) →
      t = (boundedPlan most).toInstance hash :=
    fun most hash ht => Schema.single.inj ((boundedPlan most).eq_of_inside hash rfl ht)
  rcases (alternativePlan limit hash hash').inside_cases hash'' ht with heq | ⟨part, hpart, hin⟩
  · exact .inl (Schema.single.inj heq)
  · rcases List.mem_cons.mp hpart with rfl | hpart
    · exact .inr (.inl (hleaf _ _ hin))
    · rw [List.mem_singleton.mp hpart] at hin
      exact .inr (.inr (hleaf _ _ hin))

/-- None of them lists values or asks a validator. -/
theorem alternatives_unset {t : Instance}
    (ht : (Schema.single ((alternativePlan limit hash hash').toInstance hash'')).Inside
      (.single t)) : t.get "validator" = .ok .none ∧ t.get "enum" = .ok .none := by
  have hplan : ∀ (p : Plan) (hash : String), p.validator = none → p.enum = none →
      (p.toInstance hash).get "validator" = .ok .none ∧
        (p.toInstance hash).get "enum" = .ok .none := by
    intro p hash hvalidator henum
    rw [p.get_validator, p.get_enum, hvalidator, henum]
    exact ⟨rfl, rfl⟩
  rcases inside_alternatives ht with rfl | rfl | rfl <;> exact hplan _ _ rfl rfl

theorem alternatives_held (hlimit : some limit ∈ limits) {t : Instance}
    (ht : (Schema.single ((alternativePlan limit hash hash').toInstance hash'')).Inside
      (.single t)) : ∀ b ∈ t.bounds, b.isHeld = true := by
  have hheld : ∀ o ∈ limits, (optional id o).isHeld = true := by decide
  have hbounded : ∀ most hash, ((boundedPlan most).toInstance hash).bounds
      = [optional id most, .none] := fun _ _ => rfl
  have hnumber : ∀ most ∈ limits, ∀ hash, ∀ b ∈ ((boundedPlan most).toInstance hash).bounds,
      b.isHeld = true := by
    intro most hmost hash b hb
    rw [hbounded, List.mem_pair] at hb
    rcases hb with rfl | rfl
    · exact hheld most hmost
    · rfl
  rcases inside_alternatives ht with rfl | rfl | rfl
  · exact fun b hb => absurd hb List.not_mem_nil
  · exact hnumber _ hlimit hash
  · exact hnumber _ List.mem_cons_self hash'

/-- Any number is valid for the second alternative. -/
theorem valid_alternatives (n : Int) :
    (Schema.single ((alternativePlan limit hash hash').toInstance hash'')).Valid (.int n) := by
  have hany : (Schema.single ((boundedPlan none).toInstance hash')).Valid (.int n) :=
    .single (boundedPlan_proper List.mem_cons_self) nofun nofun (.number rfl rfl nofun rfl rfl)
  exact .single (alternativePlan_proper limit hash hash') nofun nofun
    (.oneOf (List.mem_cons_of_mem _ List.mem_cons_self) hany)

/-- What the first alternative fails on, both do. -/
theorem error_alternatives {n : Int} {e : Failure}
    (hs : Registry.builtin.compile (.dict (alternativeOptions limit)) .none
      = .ok (.single ((alternativePlan limit hash hash').toInstance hash'')))
    (h : (Schema.single ((boundedPlan (some limit)).toInstance hash)).accepts (.int n)
      = .error e) :
    (Schema.single ((alternativePlan limit hash hash').toInstance hash'')).error (.int n) (.str "")
      = .error e := by
  have hproper := alternativePlan_proper limit hash hash'
  have hcompiled := (compiled_of_compile hs).parts_compiled
  rw [Plan.parts_toInstance] at hcompiled
  rw [← accepts_eq_error, accepts_single hash'' hproper.demand hproper.legible hcompiled]
  show askAny (Schema.accepts · (.int n)) (_ :: _) = _
  rw [askAny, h]
  rfl

theorem accepts_bounded (hlimit : some limit ∈ limits) (n : Int) :
    (Schema.single ((boundedPlan (some limit)).toInstance hash)).accepts (.int n)
      = liftM (Value.holds .gt (.int n) limit) >>= fun above =>
          if above then refusal (Number.isWritable n) else .ok true := by
  have hproper := boundedPlan_proper hlimit
  rw [accepts_single hash hproper.demand hproper.legible nofun]
  rfl

end alternatives

end Schema

end Conform
