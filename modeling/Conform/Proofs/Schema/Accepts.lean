/-
# `Proofs.Schema.Accepts` — the decision without the words

A verdict says whether a value is accepted and, if not, in which words.
`Plan.accepts` keeps the decision alone, the faults on the way included, and
reads the plan instead of the attributes.  A refusal that shows the value is
such a fault if the value cannot be written.  For a compiled schema it is what
`error` decides, whatever the lead; so the lead never matters, and facts
about acceptance can be proved on plans.

Parts are asked in the same order and as often as the check asks them: all
items of an array and all entries of an object, also behind an error, but
alternatives only up to the first that accepts.
-/
import Conform.Proofs.Schema.Recursion
import Conform.Proofs.Schema.Legible

namespace Conform

/-- The decision in a verdict. -/
def accepted (x : Verdict) : Outcome Bool := Option.isNone <$> x

/-- Whether a schema accepts a value. -/
def Schema.accepts (s : Schema) (v : Value) : Outcome Bool := accepted (s.error v (.str ""))

/-- The decision of a refusal that shows what it refuses. -/
def refusal (writable : Bool) : Outcome Bool :=
  if writable then .ok false else .error (.fault .badValue)

def Value.isMember : Value → Bool
  | .member _ => true
  | _ => false

/-- Whether all of some questions are answered with yes; each is asked. -/
def askAll {α : Type} (ask : α → Outcome Bool) (xs : List α) : Outcome Bool :=
  return (← xs.mapM ask).all id

/-- Whether one of some questions is answered with yes; none is asked after
that. -/
def askAny {α : Type} (ask : α → Outcome Bool) : List α → Outcome Bool
  | [] => return false
  | x :: rest => do if ← ask x then return true else askAny ask rest

/-- Whether a schema is required, if that has an answer. -/
def Schema.isRequired (t : Schema) : Bool :=
  match t.required with
  | .ok b => b
  | .error _ => false

namespace Demand

/-- Whether a length lies within the bounds. -/
def fits (least : Int) (most : Option Int) (n : Int) : Bool := least ≤ n && most.all (n ≤ ·)

/-- Whether a value compares to a bound that is set. -/
def exceeds (c : Comparison) (v : Value) : Option Value → Except Fault Bool
  | none => .ok false
  | some bound => v.holds c bound

/-- Whether a number lies on the wrong side of a bound. -/
def beyond (side : Instance.Side) (exclusive : Bool) (v : Value) (bound : Option Value) :
    Except Fault Bool :=
  exceeds (if exclusive then side.exclusive else side.inclusive) v bound

/-- The number must not exceed the bounds. -/
def acceptsNumber (exclusiveMax exclusiveMin integer : Bool) (most least : Option Value)
    (v : Value) : Outcome Bool := do
  if !v.isReal || v.isNaN || (integer && !v.isInteger) then refusal v.hasLiteral
  else if ← beyond .upper exclusiveMax v most then refusal v.hasLiteral
  else if ← beyond .lower exclusiveMin v least then refusal v.hasLiteral
  else return true

def acceptsFunction (most : Option Value) (least : Value) (named : Bool) (v : Value) :
    Outcome Bool := do
  match v with
  | .callable f =>
      if named && !f.isNamed then return false
      else
        match f.argumentCount? with
        | none => return true
        | some n =>
            if ← Value.holds .lt (.int n) least then return false
            else return !(← exceeds .gt (.int n) most)
  | _ => refusal v.hasLiteral

def acceptsString (most : Option Int) (least : Int) (pattern : Option Pattern) (v : Value) :
    Outcome Bool :=
  match v.text? with
  | none => refusal v.hasLiteral
  | some text => return fits least most text.length && pattern.all (·.occursIn text)

/-- What is asked about the items. -/
def askItems (ask : Schema → Value → Outcome Bool) (item : Option Schema) (items : List Value) :
    Outcome Bool :=
  match item with
  | none => .ok true
  | some t => askAll (ask t) items

def acceptsArray (ask : Schema → Value → Outcome Bool) (most : Option Int) (least : Int)
    (item : Option Schema) (unique : Bool) (v : Value) : Outcome Bool := do
  match v.arrayItems? with
  | none => refusal v.hasLiteral
  | some items =>
      if !fits least most items.length then return false
      else if unique && !(Value.duplicateGroups items).isEmpty then return false
      else askItems ask item items

/-- What is asked about the entry under a key, which has to be named for that. -/
def askEntry (ask : Schema → Value → Outcome Bool) (properties : List (Value × Schema))
    (generic : Option Schema) (entry : Value × Value) : Outcome Bool :=
  match governing properties generic entry.1 with
  | none => .ok true
  | some t => if entry.1.hasDisplay then ask t entry.2 else .error (.fault .badValue)

def acceptsObject (ask : Schema → Value → Outcome Bool) (allowNull : Bool)
    (properties : List (Value × Schema)) (generic : Option Schema) (v : Value) : Outcome Bool := do
  match v with
  | .none => return allowNull
  | .dict entries =>
      let answers ← askAll (askEntry ask properties generic) entries
      return answers && !properties.any fun (key, t) => t.isRequired && !Entries.contains entries key
  | _ => refusal v.hasLiteral

/-- Whether a demand is met. -/
def accepts (ask : Schema → Value → Outcome Bool) (v : Value) : Demand → Outcome Bool
  | typed => return true
  | boolean => if v.isBoolean then return true else refusal v.hasLiteral
  | symbol => if v.isMember then return true else refusal v.hasLiteral
  | number exclusiveMax exclusiveMin integer most least =>
      acceptsNumber exclusiveMax exclusiveMin integer most least v
  | string most least pattern => acceptsString most least pattern v
  | function most least named => acceptsFunction most least named v
  | array most least item unique => acceptsArray ask most least item unique v
  | object allowNull _ properties generic => acceptsObject ask allowNull properties generic v
  | oneOf variants => askAny (ask · v) variants

end Demand

namespace Plan

/-- Whether the value is listed, if values are listed. -/
def lists (p : Plan) (v : Value) : Bool :=
  p.enum.all fun items => (Value.strictIndex? items v).isSome

/-- Whether a refusal can show the values that are listed. -/
def listsWritable (p : Plan) : Bool := p.enum.all Value.haveLiterals

/-- Whether the validator, if there is one, answers with something that is
true and no text. -/
def validates (p : Plan) (v : Value) : Except Fault Bool :=
  match p.validator with
  | none => .ok true
  | some f => do
      let answer ← f.apply v
      return (← answer.truthy) && answer.text?.isNone

def accepts (ask : Schema → Value → Outcome Bool) (p : Plan) (v : Value) : Outcome Bool := do
  if !p.lists v then refusal (p.listsWritable && v.hasLiteral)
  else if ← p.validates v then p.demand.accepts ask v
  else refusal v.hasLiteral

end Plan

/-! ## Verdicts one after another -/

@[simp] theorem refusal_true : refusal true = .ok false := rfl

@[simp] theorem refusal_false : refusal false = .error (.fault .badValue) := rfl

theorem refusal_ok {writable : Bool} (h : writable = true) : refusal writable = .ok false := if_pos h

@[simp] theorem refusal_ne_true {writable : Bool} : refusal writable ≠ .ok true := by
  cases writable <;> exact nofun

/-- Nothing is asked after a refusal. -/
theorem refusal_bind (writable : Bool) (x : Outcome Bool) :
    (refusal writable >>= fun b => if b then x else .ok false) = refusal writable := by
  cases writable <;> rfl

theorem Plan.accepts_eq_true {ask : Schema → Value → Outcome Bool} {p : Plan} {v : Value} :
    p.accepts ask v = .ok true ↔
      p.lists v = true ∧ p.validates v = .ok true ∧ p.demand.accepts ask v = .ok true := by
  rw [Plan.accepts]
  cases p.lists v with
  | false => simp
  | true =>
      cases p.validates v with
      | error e => simp
      | ok validated => cases validated <;> simp

/-- The decision of a test that refuses what does not pass. -/
theorem ite_refusal {b writable : Bool} (h : writable = true) :
    (if b then return true else refusal writable : Outcome Bool) = .ok b := by
  rw [refusal_ok h]
  cases b <;> rfl

@[simp] theorem accepted_none : accepted (.ok none) = .ok true := rfl

@[simp] theorem accepted_some {e : ErrorInfo} : accepted (.ok (some e)) = .ok false := rfl

@[simp] theorem accepted_error {e : Failure} : accepted (.error e) = .error e := rfl

/-- A value is accepted when there is no error. -/
theorem accepted_eq_true {x : Verdict} : accepted x = .ok true ↔ x = .ok none := by
  rcases x with f | (_ | e)
  · exact iff_of_false nofun nofun
  · exact iff_of_true rfl rfl
  · exact iff_of_false nofun nofun

@[simp] theorem accepted_bind {α : Type} {x : Outcome α} {f : α → Verdict} :
    accepted (x >>= f) = x >>= fun a => accepted (f a) := by
  cases x <;> rfl

/-- The second verdict counts if the first is no error. -/
@[simp] theorem accepted_firstOf (x y : Verdict) :
    accepted (firstOf x y) = accepted x >>= fun b => if b then accepted y else .ok false := by
  cases x with
  | error e => rfl
  | ok r => cases r <;> rfl

@[simp] theorem truthy_bool (b : Bool) : (Value.bool b).truthy = .ok b := rfl

@[simp] theorem leadText_str (l : String) : (Value.str l).leadText = .ok l := rfl

@[simp] theorem orEmpty_str (l : String) : (Value.str l).orEmpty = .ok (.str l) := by
  by_cases h : l = "" <;> simp [Value.orEmpty, Value.truthy, h, pure, Except.pure]

@[simp] theorem accepted_refused (l : String) (v : Value) (expects : String) (kind : ErrorKind) :
    accepted (refused (.str l) v expects kind) = refusal v.hasLiteral := by
  cases h : v.hasLiteral with
  | false => simp [refused, valueMessage, Value.describe_error h]
  | true => simp [refused, valueMessage, Value.describe_ok h]

@[simp] theorem accepted_reported (l message : String) (kind : ErrorKind) :
    accepted (reported (.str l) message kind) = .ok false := rfl

/-- A governed entry is accepted if its key can be named and its value is. -/
theorem Demand.askEntry_eq_true {ask : Schema → Value → Outcome Bool}
    {properties : List (Value × Schema)} {generic : Option Schema} {e : Value × Value} {t : Schema}
    (ht : governing properties generic e.1 = some t) :
    askEntry ask properties generic e = .ok true ↔
      e.1.hasDisplay = true ∧ ask t e.2 = .ok true := by
  rw [askEntry, ht]
  cases e.1.hasDisplay <;> simp

/-! ## Comparing integers -/

theorem holds_lt_int (m n : Int) : Value.holds .lt (.int m) (.int n) = .ok (decide (m < n)) := by
  show Except.ok (Comparison.lt.accepts (some (compareOfLessAndEq m n))) = _
  by_cases hlt : m < n
  · simp [compareOfLessAndEq, hlt, Comparison.accepts]
  · by_cases heq : m = n <;> simp [compareOfLessAndEq, hlt, heq, Comparison.accepts]

theorem holds_gt_int (m n : Int) : Value.holds .gt (.int m) (.int n) = .ok (decide (n < m)) := by
  show Except.ok (Comparison.gt.accepts (some (compareOfLessAndEq m n))) = _
  by_cases hlt : m < n
  · simp [compareOfLessAndEq, hlt, Comparison.accepts]
    omega
  · by_cases heq : m = n
    · simp [compareOfLessAndEq, heq, Comparison.accepts]
    · simp [compareOfLessAndEq, hlt, heq, Comparison.accepts]
      omega

/-! ## The checks of one schema -/

section checks

variable (p : Plan) (hash : String) (l : String) (v : Value)

theorem accepted_checkEnum :
    accepted ((p.toInstance hash).checkEnum v (.str l))
      = if p.lists v then .ok true else refusal (p.listsWritable && v.hasLiteral) := by
  cases h : p.enum with
  | none => simp [Instance.checkEnum, Plan.lists, h, optional, Value.isNone]
  | some items =>
      simp only [Instance.checkEnum, Plan.get_enum, Plan.lists, Plan.listsWritable, h, optional,
        Value.isNone, Value.items, Value.mapM_literal, Option.all_some, lift_ok, ok_bind,
        Bool.false_eq_true, if_false]
      cases hi : (Value.strictIndex? items v).isSome with
      | true => rfl
      | false => cases Value.haveLiterals items <;> simp

theorem accepted_checkValidator :
    accepted ((p.toInstance hash).checkValidator v (.str l))
      = liftM (p.validates v) >>= fun b => if b then .ok true else refusal v.hasLiteral := by
  cases h : p.validator with
  | none => simp [Instance.checkValidator, Plan.validates, h, optional]
  | some f =>
      simp only [Instance.checkValidator, Plan.get_validator, Plan.validates, h, optional, lift_ok,
        ok_bind, accepted_bind, lift_bind, lift_pure]
      rw [bind_assoc]
      refine congrArg _ (funext fun answer => ?_)
      rw [bind_assoc]
      refine congrArg _ (funext fun accepts => ?_)
      cases htext : answer.text? with
      | none => cases accepts <;> simp
      | some text => simp [Value.display_ok (Value.hasDisplay_of_text htext)]

theorem accepted_checkTyped :
    accepted ((p.toInstance hash).checkTyped v (.str l)) =
      if p.lists v then
        liftM (p.validates v) >>= fun b => if b then .ok true else refusal v.hasLiteral
      else refusal (p.listsWritable && v.hasLiteral) := by
  rw [Instance.checkTyped, accepted_firstOf, accepted_checkEnum, accepted_checkValidator]
  cases p.lists v with
  | true => rfl
  | false => exact refusal_bind ..

theorem accepted_checkBoolean :
    accepted (Instance.checkBoolean v (.str l))
      = if v.isBoolean then .ok true else refusal v.hasLiteral := by
  unfold Instance.checkBoolean
  cases v.isBoolean with
  | true => rfl
  | false => exact accepted_refused ..

theorem accepted_checkSymbol :
    accepted (Instance.checkSymbol v (.str l))
      = if v.isMember then .ok true else refusal v.hasLiteral := by
  unfold Instance.checkSymbol
  cases v with
  | member m => rfl
  | _ => exact accepted_refused ..

theorem isNone_of_isReal {b : Value} (h : b.isReal = true) : b.isNone = false := by
  cases b <;> simp_all [Value.isReal, Value.isNone]

theorem isNone_of_isInteger {b : Value} (h : b.isInteger = true) : b.isNone = false := by
  cases b <;> simp_all [Value.isInteger, Value.isNone]

variable {p}

/-- A validator decides if its answers say what counts as true or false. -/
theorem Plan.validates_ok (h : ∀ f, (p.toInstance hash).get "validator" = .ok (.callable f) →
    ∃ answer b, f.apply v = .ok answer ∧ answer.truthy = .ok b) : ∃ b, p.validates v = .ok b := by
  rw [Plan.validates]
  cases hf : p.validator with
  | none => exact ⟨true, rfl⟩
  | some f =>
      obtain ⟨answer, b, hanswer, hb⟩ := h f (by rw [p.get_validator, hf]; rfl)
      simp only [hanswer, ok_bind, hb]
      exact ⟨_, rfl⟩

theorem accepted_checkBound (side : Instance.Side) {bound : Option Value} {exclusive : Bool}
    (hbound : (p.toInstance hash).get side.name = .ok (optional id bound))
    (hreal : ∀ b, bound = some b → b.isReal = true)
    (hdisplay : ∀ b, bound = some b → b.hasDisplay = true)
    (hexclusive : (p.toInstance hash).get side.exclusiveName = .ok (.bool exclusive)) :
    accepted ((p.toInstance hash).checkBound side v (.str l))
      = liftM (Demand.beyond side exclusive v bound) >>= fun b =>
          if b then refusal v.hasLiteral else .ok true := by
  cases bound with
  | none => simp [Instance.checkBound, hbound, optional, Value.isNone, Demand.beyond, Demand.exceeds]
  | some b =>
      simp only [Instance.checkBound, hbound, optional, id, isNone_of_isReal (hreal b rfl),
        hexclusive, lift_ok, ok_bind, Bool.false_eq_true, if_false, accepted_bind, Demand.beyond,
        Demand.exceeds, truthy_bool]
      refine congrArg _ (funext fun exceeds => ?_)
      cases exceeds <;> simp [Value.display_ok (hdisplay b rfl)]

theorem accepted_checkNumber {exclusiveMax exclusiveMin integer : Bool}
    {most least : Option Value} (hp : p.demand.Proper) (hl : p.demand.Legible)
    (hd : p.demand = .number exclusiveMax exclusiveMin integer most least) :
    accepted ((p.toInstance hash).checkNumber v (.str l))
      = Demand.acceptsNumber exclusiveMax exclusiveMin integer most least v := by
  rw [hd] at hp hl
  have hmost := accepted_checkBound hash l v .upper
    (Plan.get_of_demand hash hd "max" (by decide) rfl) hp.1
    (fun b hb => hl.shown b (List.mem_append_left _ (Option.mem_toList.mpr hb)))
    (Plan.get_of_demand hash hd "exclusive_max" (by decide) rfl)
  have hleast := accepted_checkBound hash l v .lower
    (Plan.get_of_demand hash hd "min" (by decide) rfl) hp.2
    (fun b hb => hl.shown b (List.mem_append_right _ (Option.mem_toList.mpr hb)))
    (Plan.get_of_demand hash hd "exclusive_min" (by decide) rfl)
  unfold Instance.checkNumber Demand.acceptsNumber
  rw [Plan.get_of_demand hash hd "integer" (by decide) rfl]
  cases hnum : !v.isReal || v.isNaN with
  | true => simp
  | false =>
      cases hint : integer && !v.isInteger with
      | true => simp [-Bool.and_eq_true, hint]
      | false =>
          simp only [Bool.false_eq_true, if_false, lift_ok, ok_bind, truthy_bool, hint,
            accepted_firstOf, hmost, hleast, Bool.false_or, bind_assoc]
          refine congrArg _ (funext fun above => ?_)
          cases above with
          | true => exact refusal_bind ..
          | false =>
              simp only [Bool.false_eq_true, if_false, if_true, ok_bind]
              rfl

theorem accepted_checkLength (m : Instance.Measure) (n : Nat) {least : Int} {most : Option Int}
    (hleast : (p.toInstance hash).get m.least = .ok (.int least))
    (hmost : (p.toInstance hash).get m.most = .ok (optional .int most))
    (hshown : ∀ w ∈ most.toList.map Value.int ++ [.int least], w.hasDisplay = true) :
    accepted ((p.toInstance hash).checkLength m n (.str l)) = .ok (Demand.fits least most n) := by
  have hleast' := Value.display_ok (hshown (.int least) (List.mem_append_right _ (.head _)))
  unfold Instance.checkLength Demand.fits
  rw [hleast, hmost]
  simp only [lift_ok, ok_bind, holds_lt_int]
  by_cases hlow : (n : Int) < least
  · simp [hlow, hleast', Int.not_le.mpr hlow]
  · cases most with
    | none => simp [hlow, optional, Value.isNone]; omega
    | some m =>
        have hmost' := Value.display_ok (hshown (.int m) (.head _))
        by_cases hhigh : m < (n : Int)
        · simp [hlow, hhigh, hmost', optional, Value.isNone, holds_gt_int]
        · simp [hlow, hhigh, optional, Value.isNone, holds_gt_int]
          omega

/-- A pattern for texts can be asked about each of them. -/
theorem Pattern.search_ok {q : Pattern} {s : String} (h : q.text? = some s) (text : String) :
    q.search text = .ok (q.occursIn text) := by
  rw [search, source_of_text h]

theorem accepted_checkPattern {text : String} (htext : v.text? = some text)
    {pattern : Option Pattern}
    (hpattern : (p.toInstance hash).get "pattern" = .ok (optional .pattern pattern))
    (hsource : ∀ q, pattern = some q → ∃ s, q.text? = some s) :
    accepted ((p.toInstance hash).checkPattern v text (.str l))
      = .ok (pattern.all (·.occursIn text)) := by
  unfold Instance.checkPattern
  rw [hpattern]
  cases pattern with
  | none => rfl
  | some q =>
      obtain ⟨s, hs⟩ := hsource q rfl
      have hdisplay := Value.display_ok (Value.hasDisplay_of_text htext)
      cases h : q.occursIn text <;> simp [optional, Pattern.search_ok hs, hdisplay, h]

theorem accepted_checkString {most : Option Int} {least : Int} {pattern : Option Pattern}
    (hl : p.demand.Legible) (hd : p.demand = .string most least pattern) :
    accepted ((p.toInstance hash).checkString v (.str l))
      = Demand.acceptsString most least pattern v := by
  rw [hd] at hl
  unfold Instance.checkString Demand.acceptsString
  cases htext : v.text? with
  | none => simp
  | some text =>
      have hlength := accepted_checkLength hash l .text text.length
        (Plan.get_of_demand hash hd "min_length" (by decide) rfl)
        (Plan.get_of_demand hash hd "max_length" (by decide) rfl) hl.shown
      have hpattern := accepted_checkPattern hash l v htext
        (Plan.get_of_demand hash hd "pattern" (by decide) rfl) hl.pattern
      simp only [accepted_firstOf, hlength, hpattern, ok_bind]
      cases Demand.fits least most text.length <;> simp

theorem accepted_checkArguments (f : Callable) (n : Nat) {most : Option Value} {least : Value}
    (hleast : (p.toInstance hash).get "min_arguments" = .ok least)
    (hmost : (p.toInstance hash).get "max_arguments" = .ok (optional id most))
    (hint : ∀ b, most = some b → b.isInteger = true)
    (hshown : ∀ w ∈ most.toList ++ [least], w.hasDisplay = true) :
    accepted ((p.toInstance hash).checkArguments n (.callable f) (.str l))
      = do
        if ← Value.holds .lt (.int n) least then return false
        else return !(← Demand.exceeds .gt (.int n) most) := by
  have hf : (Value.callable f).hasLiteral = true := rfl
  have hleast' := Value.display_ok (hshown least (List.mem_append_right _ (.head _)))
  unfold Instance.checkArguments
  simp only [hleast, hmost, lift_ok, ok_bind, accepted_bind]
  refine congrArg _ (funext fun below => ?_)
  cases below with
  | true => simp [hleast', hf]
  | false =>
      cases most with
      | none => simp [optional, Value.isNone, Demand.exceeds]
      | some b =>
          have hnone : (optional id (some b)).isNone = false := isNone_of_isInteger (hint b rfl)
          have hmost' := Value.display_ok (hshown b (.head _))
          rw [if_neg Bool.false_ne_true, if_neg Bool.false_ne_true, hnone,
            if_neg Bool.false_ne_true, accepted_bind]
          refine congrArg _ (funext fun above => ?_)
          cases above <;> simp [optional, hmost', hf]

theorem accepted_checkFunction {most : Option Value} {least : Value} {named : Bool}
    (hp : p.demand.Proper) (hl : p.demand.Legible) (hd : p.demand = .function most least named) :
    accepted ((p.toInstance hash).checkFunction v (.str l))
      = Demand.acceptsFunction most least named v := by
  rw [hd] at hp hl
  unfold Instance.checkFunction Demand.acceptsFunction
  rw [Plan.get_of_demand hash hd "named" (by decide) rfl]
  cases v with
  | callable f =>
      cases hnamed : named && !f.isNamed with
      | true => simp [-Bool.and_eq_true, hnamed, Value.hasLiteral]
      | false =>
          simp only [lift_ok, ok_bind, truthy_bool, hnamed]
          rw [if_neg Bool.false_ne_true, if_neg Bool.false_ne_true]
          cases f.argumentCount? with
          | none => simp
          | some n =>
              exact accepted_checkArguments hash l f n
                (Plan.get_of_demand hash hd "min_arguments" (by decide) rfl)
                (Plan.get_of_demand hash hd "max_arguments" (by decide) rfl) hp.1 hl.shown
  | _ => simp only [lift_ok, ok_bind, truthy_bool, accepted_refused]

theorem accepted_checkUnique {unique : Bool} (items : List Value)
    (hunique : (p.toInstance hash).get "unique_items" = .ok (.bool unique)) :
    accepted ((p.toInstance hash).checkUnique items (.str l))
      = .ok !(unique && !(Value.duplicateGroups items).isEmpty) := by
  unfold Instance.checkUnique
  rw [hunique]
  cases unique with
  | false => simp
  | true => cases h : Value.duplicateGroups items <;> simp

end checks

/-! ## Asking parts -/

@[simp] theorem askAll_nil {α : Type} (ask : α → Outcome Bool) : askAll ask [] = .ok true := rfl

@[simp] theorem askAll_cons {α : Type} (ask : α → Outcome Bool) (x : α) (xs : List α) :
    askAll ask (x :: xs) = ask x >>= fun a => askAll ask xs >>= fun b => .ok (a && b) := by
  simp only [askAll, List.mapM_cons, bind_assoc, pure_eq, ok_bind, List.all_cons, id]

theorem askAll_eq_true {α : Type} {ask : α → Outcome Bool} :
    ∀ {xs : List α}, askAll ask xs = .ok true ↔ ∀ x ∈ xs, ask x = .ok true
  | [] => ⟨nofun, fun _ => rfl⟩
  | x :: rest => by
      rw [askAll_cons, List.forall_mem_cons, ← askAll_eq_true]
      constructor
      · intro h
        obtain ⟨a, ha, h⟩ := bind_eq_ok.mp h
        obtain ⟨b, hb, h⟩ := bind_eq_ok.mp h
        obtain ⟨rfl, rfl⟩ := Bool.and_eq_true_iff.mp (Except.ok.inj h)
        exact ⟨ha, hb⟩
      · rintro ⟨ha, hb⟩
        rw [ha, ok_bind, hb]
        rfl

theorem askAny_eq_true {α : Type} {ask : α → Outcome Bool} :
    ∀ {xs : List α}, askAny ask xs = .ok true → ∃ x ∈ xs, ask x = .ok true
  | x :: rest, h => by
      rw [askAny] at h
      obtain ⟨b, hb, h⟩ := bind_eq_ok.mp h
      cases b with
      | true => exact ⟨x, List.mem_cons_self, hb⟩
      | false =>
          obtain ⟨y, hy, htrue⟩ := askAny_eq_true h
          exact ⟨y, List.mem_cons_of_mem _ hy, htrue⟩

/-- Where all can be asked, one of them ends the search. -/
theorem askAny_of_mem {α : Type} {ask : α → Outcome Bool} {x : α} :
    ∀ {xs : List α}, (∀ y ∈ xs, ∃ b, ask y = .ok b) → x ∈ xs → ask x = .ok true →
      askAny ask xs = .ok true
  | y :: rest, hall, hx, htrue => by
      obtain ⟨b, hb⟩ := hall y List.mem_cons_self
      rw [askAny, hb, ok_bind]
      cases b with
      | true => rfl
      | false =>
          rcases List.mem_cons.mp hx with rfl | hx
          · cases Except.ok.inj (htrue.symm.trans hb)
          · exact askAny_of_mem (fun z hz => hall z (List.mem_cons_of_mem _ hz)) hx htrue

theorem askAny_ok {α : Type} {ask : α → Outcome Bool} :
    ∀ {xs : List α}, (∀ y ∈ xs, ∃ b, ask y = .ok b) → ∃ b, askAny ask xs = .ok b
  | [], _ => ⟨false, rfl⟩
  | y :: rest, hall => by
      obtain ⟨b, hb⟩ := hall y List.mem_cons_self
      rw [askAny, hb, ok_bind]
      cases b with
      | true => exact ⟨true, rfl⟩
      | false => exact askAny_ok fun z hz => hall z (List.mem_cons_of_mem _ hz)

theorem askAll_ok {α : Type} {ask : α → Outcome Bool} :
    ∀ {xs : List α}, (∀ y ∈ xs, ∃ b, ask y = .ok b) → ∃ b, askAll ask xs = .ok b
  | [], _ => ⟨true, rfl⟩
  | y :: rest, hall => by
      obtain ⟨b, hb⟩ := hall y List.mem_cons_self
      obtain ⟨c, hc⟩ := askAll_ok fun z hz => hall z (List.mem_cons_of_mem _ hz)
      exact ⟨b && c, by rw [askAll_cons, hb, ok_bind, hc, ok_bind]⟩

/-- An ask that decides as `decide` does, whatever the lead. -/
def Decides (ask : Ask) (decide : Schema → Value → Outcome Bool) (t : Schema) : Prop :=
  ∀ w l, accepted (ask t w (.str l)) = decide t w

section parts

variable {ask : Ask} {decide : Schema → Value → Outcome Bool} {t : Schema}

theorem isEmpty_itemErrors (h : Decides ask decide t) :
    ∀ (items : List Value) (i : Nat),
      List.isEmpty <$> Instance.itemErrors ask (.schema t) i items = askAll (decide t) items
  | [], _ => rfl
  | w :: rest, i => by
      rw [askAll_cons, ← isEmpty_itemErrors h rest (i + 1), ← h w ("At index " ++ toString i ++ ": ")]
      simp only [Instance.itemErrors, askAttribute]
      cases ask t w (.str ("At index " ++ toString i ++ ": ")) with
      | error e => rfl
      | ok error =>
          cases Instance.itemErrors ask (.schema t) (i + 1) rest with
          | error e => rfl
          | ok errors => cases error <;> rfl

theorem accepted_summarized (l one several : String) (kind : ErrorKind)
    (errors : Outcome (List ErrorInfo)) :
    accepted (errors >>= summarized (.str l) one several kind) = List.isEmpty <$> errors := by
  cases errors with
  | error e => rfl
  | ok es => cases es <;> rfl

theorem accepted_checkArray {p : Plan} (hash l : String) (v : Value) {most : Option Int}
    {least : Int} {item : Option Schema} {unique : Bool} (hl : p.demand.Legible)
    (hd : p.demand = .array most least item unique)
    (hask : ∀ t ∈ p.demand.parts, Decides ask decide t) :
    accepted (Instance.checkArray ask (p.toInstance hash) v (.str l))
      = Demand.acceptsArray decide most least item unique v := by
  rw [hd] at hl
  unfold Instance.checkArray Demand.acceptsArray
  cases hitems : v.arrayItems? with
  | none => simp
  | some items =>
      have hlength := accepted_checkLength hash l .array items.length
        (Plan.get_of_demand hash hd "min_items" (by decide) rfl)
        (Plan.get_of_demand hash hd "max_items" (by decide) rfl) hl.shown
      have hunique := accepted_checkUnique hash l items
        (Plan.get_of_demand hash hd "unique_items" (by decide) rfl)
      have hparts : accepted (Instance.checkItems ask (p.toInstance hash) items (.str l))
          = Demand.askItems decide item items := by
        unfold Instance.checkItems
        rw [Plan.get_of_demand hash hd "schema" (by decide) rfl]
        cases item with
        | none => rfl
        | some t =>
            have ht : t ∈ p.demand.parts := by simp [hd, Demand.parts]
            rw [Demand.askItems, ← isEmpty_itemErrors (hask t ht) items 0]
            exact accepted_summarized ..
      simp only [accepted_firstOf, hlength, hunique, hparts, ok_bind]
      cases Demand.fits least most items.length with
      | false => rfl
      | true => cases unique && !(Value.duplicateGroups items).isEmpty <;> rfl

/-! ## Asking the parts of an object -/

theorem isEmpty_entryErrors {properties : List (Value × Schema)} {generic : Option Schema}
    (h : ∀ t ∈ properties.map (·.2) ++ generic.toList, Decides ask decide t) :
    ∀ es : Entries,
      List.isEmpty <$> Instance.entryErrors ask (Demand.entries properties)
          (optional .schema generic) es
        = askAll (Demand.askEntry decide properties generic) es
  | [] => rfl
  | (key, w) :: rest => by
      rw [askAll_cons, ← isEmpty_entryErrors h rest]
      simp only [Instance.entryErrors, Demand.getD_find?_entries, Demand.askEntry]
      cases hg : Demand.governing properties generic key with
      | none =>
          simp only [optional, Value.isNone, if_true, pure_eq, ok_bind]
          cases Instance.entryErrors ask (Demand.entries properties) _ rest <;> rfl
      | some t =>
          dsimp only
          cases hkey : key.hasDisplay with
          | false => simp [optional, Value.isNone, Value.display_error hkey]
          | true =>
              rw [if_pos rfl,
                ← h t (Demand.mem_of_governing hg) w ("At property " ++ key.bareSpelling ++ ": ")]
              simp only [optional, Value.isNone, askAttribute, Value.display_ok hkey, lift_ok,
                ok_bind, Bool.false_eq_true, if_false]
              cases ask t w (.str ("At property " ++ key.bareSpelling ++ ": ")) with
              | error e => rfl
              | ok error =>
                  cases Instance.entryErrors ask (Demand.entries properties) _ rest with
                  | error e => rfl
                  | ok errors => cases error <;> rfl

/-- A marked schema says whether it is required. -/
theorem get_required_of_marked (h : t.IsMarked) :
    t.get "required" = .ok (.bool t.isRequired) := by
  have get : ∀ {s : Instance} {b : Bool}, s.attributes.lookup "required" = some (.bool b) →
      s.get? "required" = some (.bool b) := by
    intro s b hb
    simp [Instance.get?, hb]
  cases t with
  | single s =>
      obtain ⟨b, hb⟩ := h s (List.mem_singleton.mpr rfl)
      simp [Schema.get, Schema.isRequired, Schema.required, Instance.get, Instance.flag, get hb]
  | multi members =>
      have all : ∀ ss : List Instance, (∀ s ∈ ss, s ∈ members) →
          ∃ b, Instance.allFlag "required" ss = .ok b := by
        intro ss
        induction ss with
        | nil => exact fun _ => ⟨true, rfl⟩
        | cons s rest ih =>
            intro hss
            obtain ⟨b, hb⟩ := h s (hss s List.mem_cons_self)
            obtain ⟨c, hc⟩ := ih fun u hu => hss u (List.mem_cons_of_mem _ hu)
            refine ⟨b && c, ?_⟩
            simp only [Instance.allFlag, Instance.flag, get hb, truthy_bool, ok_bind, hc]
            cases b <;> rfl
      obtain ⟨b, hb⟩ := all members fun _ hs => hs
      cases hempty : members.isEmpty <;>
        simp [Schema.get, Schema.isRequired, Schema.required, hempty, hb]

/-- The error of a required property that is missing. -/
def ErrorInfo.missing (key : Value) : ErrorInfo :=
  { of ("Missing required value for property: " ++ key.bareSpelling) .objectRequired with
    property := key }

/-- The keys of required properties that are missing. -/
def missingKeys (properties : List (Value × Schema)) (es : Entries) : List Value :=
  (properties.filter fun e => e.2.isRequired && !es.contains e.1).map (·.1)

theorem missingErrors_eq (given : Entries) {properties : List (Value × Schema)}
    (h : ∀ e ∈ properties, e.2.IsMarked)
    (hkeys : ∀ key ∈ properties.map (·.1), key.hasDisplay = true) :
    Instance.missingErrors given (Demand.entries properties)
      = .ok ((missingKeys properties given).map .missing) := by
  induction properties with
  | nil => rfl
  | cons x rest ih =>
      obtain ⟨key, t⟩ := x
      rw [List.map_cons, List.forall_mem_cons] at hkeys
      have hrest := ih (fun e he => h e (List.mem_cons_of_mem _ he)) hkeys.2
      have hrequired := get_required_of_marked (h (key, t) List.mem_cons_self)
      simp only [Demand.entries, List.map_cons, Instance.missingErrors, Value.get, hrequired,
        Value.display_ok hkeys.1, lift_ok, ok_bind, truthy_bool] at hrest ⊢
      rw [hrest, ok_bind, missingKeys, missingKeys, List.filter_cons]
      cases t.isRequired && !Entries.contains given key <;> rfl

theorem missingKeys_isEmpty (properties : List (Value × Schema)) (es : Entries) :
    (missingKeys properties es).isEmpty
      = !properties.any fun (key, t) => t.isRequired && !es.contains key := by
  rw [missingKeys, List.isEmpty_map]
  induction properties with
  | nil => rfl
  | cons x rest ih =>
      rw [List.filter_cons, List.any_cons, Bool.not_or, ← ih]
      cases hmissing : x.2.isRequired && !es.contains x.1 <;> simp [hmissing]

theorem accepted_checkObject {p : Plan} (hash l : String) (v : Value) {allowNull clean : Bool}
    {properties : List (Value × Schema)} {generic : Option Schema} (hp : p.demand.Proper)
    (hl : p.demand.Legible) (hd : p.demand = .object allowNull clean properties generic)
    (hask : ∀ t ∈ p.demand.parts, Decides ask decide t) :
    accepted (Instance.checkObject ask (p.toInstance hash) v (.str l))
      = Demand.acceptsObject decide allowNull properties generic v := by
  rw [hd] at hp hl hask
  unfold Instance.checkObject Demand.acceptsObject
  cases v with
  | none =>
      simp only [Plan.get_of_demand hash hd "allow_null" (by decide) rfl, lift_ok, ok_bind,
        truthy_bool]
      cases allowNull <;> rfl
  | dict entries =>
      have hproperties := Plan.properties_of_demand hash hd
      obtain ⟨g, hg, hentries⟩ : ∃ g, (p.toInstance hash).genericFor entries = .ok g ∧
          List.isEmpty <$> Instance.entryErrors ask (Demand.entries properties) g entries
            = askAll (Demand.askEntry decide properties generic) entries := by
        cases entries with
        | nil => exact ⟨.none, rfl, rfl⟩
        | cons e es =>
            exact ⟨optional .schema generic, Plan.genericFor_of_demand hash hd e es,
              isEmpty_entryErrors hask _⟩
      simp only [hproperties, hg, missingErrors_eq entries hp hl.shown, lift_ok, ok_bind]
      rw [← hentries, ← missingKeys_isEmpty]
      cases Instance.entryErrors ask (Demand.entries properties) g entries with
      | error e => rfl
      | ok errors => cases errors <;> cases missingKeys properties entries <;> rfl
  | _ => exact accepted_refused ..

/-! ## Asking alternatives -/

def Search.isFound : Search → Bool
  | .found _ _ => true
  | .refused _ => false

theorem isFound_run (v : Value) :
    ∀ {ts : List Schema}, (∀ t ∈ ts, Decides ask decide t) → ∀ i : Nat,
      Search.isFound <$> Search.run ask v i (ts.map .schema) = askAny (decide · v) ts
  | [], _, _ => rfl
  | t :: rest, h, i => by
      have ih := isFound_run v (fun u hu => h u (List.mem_cons_of_mem _ hu)) (i + 1)
      simp only [List.map_cons, Search.run, askAny]
      rw [← h t List.mem_cons_self v "", ← ih]
      cases ask t v (.str "") with
      | error e => rfl
      | ok error =>
          cases error with
          | none => rfl
          | some e =>
              cases Search.run ask v (i + 1) (rest.map .schema) with
              | error e => rfl
              | ok found => cases found <;> rfl

theorem accepted_searchVerdict (found : Outcome Search) (l : String) (kind : ErrorKind) :
    accepted (found >>= fun f => Instance.searchVerdict f (.str l) kind)
      = Search.isFound <$> found := by
  cases found with
  | error e => rfl
  | ok f => cases f <;> simp [Instance.searchVerdict, Search.isFound] 

/-! ## All checks of a plan -/

theorem accepted_checkStep {p : Plan} (hash l : String) (v : Value) (hp : p.demand.Proper)
    (hl : p.demand.Legible) (hkind : p.demand.kind ≠ .typed)
    (hask : ∀ t ∈ p.demand.parts, Decides ask decide t) :
    accepted (Instance.checkStep ask (p.toInstance hash) v (.str l) (.builtin p.demand.kind))
      = p.demand.accepts decide v := by
  cases hd : p.demand with
  | typed => exact absurd (by rw [hd]; rfl) hkind
  | boolean => exact accepted_checkBoolean l v
  | symbol => exact accepted_checkSymbol l v
  | number => exact accepted_checkNumber hash l v hp hl hd
  | string => exact accepted_checkString hash l v hl hd
  | function => exact accepted_checkFunction hash l v hp hl hd
  | array => exact accepted_checkArray hash l v hl hd hask
  | object => exact accepted_checkObject hash l v hp hl hd hask
  | oneOf variants =>
      have hvariants : ∀ t ∈ variants, Decides ask decide t := fun t ht =>
        hask t (by rw [hd]; exact ht)
      show accepted (Instance.checkOneOf ask (p.toInstance hash) v (.str l)) = _
      unfold Instance.checkOneOf searchItems
      simp only [Plan.get_of_demand hash hd "one_of" (by decide) rfl, lift_ok, ok_bind, Value.items]
      rw [accepted_searchVerdict, isFound_run v hvariants]
      rfl

theorem accepted_errorWith {p : Plan} (hash l : String) (v : Value) (hp : p.demand.Proper)
    (hl : p.demand.Legible) (hask : ∀ t ∈ p.demand.parts, Decides ask decide t) :
    accepted ((p.toInstance hash).errorWith ask v (.str l)) = p.accepts decide v := by
  have hrequire : (p.toInstance hash).require "error" = .ok () :=
    p.require_toInstance hash (by decide)
  simp only [Instance.errorWith, hrequire, orEmpty_str, lift_ok, ok_bind, p.checks_toInstance,
    Instance.firstError, accepted_firstOf]
  simp only [Instance.checkStep, accepted_checkTyped, Plan.accepts]
  cases p.lists v with
  | false => exact refusal_bind ..
  | true =>
      simp only [if_true, Bool.not_true, Bool.false_eq_true, if_false, bind_assoc]
      refine congrArg _ (funext fun validated => ?_)
      cases validated with
      | false => exact refusal_bind ..
      | true =>
          by_cases hkind : p.demand.kind = .typed
          · cases hd : p.demand <;> simp [hd, Demand.kind] at hkind
            simp [Demand.kind, Instance.firstError, Demand.accepts]
          · have hstep := accepted_checkStep hash l v hp hl hkind hask
            simp only [if_true, hkind, if_false, Instance.firstError, accepted_firstOf, hstep]
            cases p.demand.accepts decide v with
            | error e => rfl
            | ok b => cases b <;> rfl

end parts

/-! ## Compiled schemas -/

namespace Schema

/-- The decision of a schema does not depend on the lead. -/
def Settled (t : Schema) : Prop := Decides Schema.error Schema.accepts t

theorem accepted_error_single {p : Plan} (hash : String) (hp : p.demand.Proper)
    (hl : p.demand.Legible) (hparts : ∀ t ∈ p.demand.parts, t.Settled) (v : Value) (l : String) :
    accepted ((Schema.single (p.toInstance hash)).error v (.str l)) = p.accepts Schema.accepts v := by
  rw [error_single]
  exact accepted_errorWith hash l v hp hl hparts

theorem accepted_error_multi {members : List Instance}
    (h : ∀ s ∈ members, (Schema.single s).Settled) (v : Value) (l : String) :
    accepted ((Schema.multi members).error v (.str l))
      = askAny (fun s => (Schema.single s).accepts v) members := by
  have hall : ∀ t ∈ members.map Schema.single, t.Settled := by
    intro t ht
    obtain ⟨s, hs, rfl⟩ := List.mem_map.mp ht
    exact h s hs
  have hmap : ∀ ss : List Instance, askAny (fun t => Schema.accepts t v) (ss.map Schema.single)
      = askAny (fun s => (Schema.single s).accepts v) ss := by
    intro ss
    induction ss with
    | nil => rfl
    | cons s rest ih => simp only [List.map_cons, askAny, ih]
  rw [error_multi, accepted_searchVerdict, ← hmap, ← isFound_run v hall 0, searchMembers_eq]

theorem Compiled.settled {s : Schema} (h : s.Compiled) : s.Settled := by
  induction h with
  | single p hash proper _ _ ih =>
      intro v l
      rw [accepts, accepted_error_single hash proper.demand proper.legible ih v l,
        accepted_error_single hash proper.demand proper.legible ih v ""]
  | multi members _ ih =>
      intro v l
      rw [accepts, accepted_error_multi ih v l, accepted_error_multi ih v ""]

/-- The lead has no part in the decision. -/
theorem Compiled.accepted_error {s : Schema} (h : s.Compiled) (v : Value) (l : String) :
    accepted (s.error v (.str l)) = s.accepts v := h.settled v l

theorem accepts_single {p : Plan} (hash : String) (hp : p.demand.Proper) (hl : p.demand.Legible)
    (hparts : ∀ t ∈ p.demand.parts, t.Compiled) (v : Value) :
    (Schema.single (p.toInstance hash)).accepts v = p.accepts Schema.accepts v :=
  accepted_error_single hash hp hl (fun t ht => (hparts t ht).settled) v ""

theorem accepts_multi {members : List Instance}
    (h : ∀ s ∈ members, (Schema.single s).Compiled) (v : Value) :
    (Schema.multi members).accepts v = askAny (fun s => (Schema.single s).accepts v) members :=
  accepted_error_multi (fun s hs => (h s hs).settled) v ""

theorem accepts_eq_error {s : Schema} {v : Value} {e : Failure} :
    s.accepts v = .error e ↔ s.error v (.str "") = .error e := by
  unfold accepts accepted
  cases s.error v (.str "") with
  | error e => simp
  | ok x => simp

theorem accepts_eq_true {s : Schema} {v : Value} :
    s.accepts v = .ok true ↔ s.error v (.str "") = .ok none := accepted_eq_true

end Schema

end Conform
