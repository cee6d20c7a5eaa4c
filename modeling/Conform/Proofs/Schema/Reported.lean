/-
# `Proofs.Schema.Reported` — what stands in an error

Most checks report a single fault, and their error has no parts.  Three sum up
the errors of others: an array those of its items, an object those of its missing
properties and of its entries, and a one-of those of its alternatives.
`Plan.Reported` lists these cases.  In the first two a child has an error if and
only if the schema that it falls to refuses it, so the list of errors runs beside
the list of children that are refused (`itemErrors_refused`,
`entryErrors_refused`).
-/
import Conform.Proofs.Schema.OneOf

namespace Conform

/-! ## Places -/

namespace ErrorInfo

/-- The error of an item, with its position. -/
def atIndex (e : ErrorInfo) (i : Nat) : ErrorInfo := { e with index := some i }

/-- The error of what stands under a key. -/
def atKey (e : ErrorInfo) (key : Value) : ErrorInfo := { e with property := key }

end ErrorInfo

/-- Whether a schema refuses a value, if that has an answer. -/
def Schema.refuses (t : Schema) (v : Value) : Bool :=
  match t.accepts v with
  | .ok b => !b
  | .error _ => false

def indexLead (i : Nat) : Value := .str ("At index " ++ toString i ++ ": ")

def keyLead (name : String) : Value := .str ("At property " ++ name ++ ": ")

/-- The entries with a schema that refuses their values. -/
def refusedEntries (properties : List (Value × Schema)) (generic : Option Schema) (es : Entries) :
    Entries :=
  es.filter fun e => (Demand.governing properties generic e.1).any (·.refuses e.2)

theorem Schema.Compiled.refuses_eq {t : Schema} (ht : t.Compiled) {w : Value} {l : String}
    {r : Option ErrorInfo} (h : t.error w (.str l) = .ok r) : t.refuses w = r.isSome := by
  rw [Schema.refuses, ← ht.accepted_error w l, h]
  cases r <;> rfl

/-- The items that are refused have an error each, in order. -/
theorem itemErrors_refused {t : Schema} (ht : t.Compiled) {items : List Value} {n : Nat}
    {errors : List ErrorInfo}
    (h : Instance.itemErrors Schema.error (.schema t) n items = .ok errors) :
    List.Forall₂ (fun x e => ∃ e₀, t.error x.1 (indexLead x.2) = .ok (some e₀) ∧
        e = e₀.atIndex x.2)
      ((items.zipIdx n).filter fun x => t.refuses x.1) errors := by
  induction items generalizing n errors with
  | nil =>
      obtain rfl := Except.ok.inj h
      exact .nil
  | cons w rest ih =>
      simp only [Instance.itemErrors, askAttribute, bind_eq_ok] at h
      obtain ⟨r, hr, errors', hrest, h⟩ := h
      rw [List.zipIdx_cons, List.filter_cons, ht.refuses_eq hr]
      cases r with
      | none =>
          obtain rfl := Except.ok.inj h
          exact ih hrest
      | some e =>
          obtain rfl := Except.ok.inj h
          exact .cons ⟨e, hr, rfl⟩ (ih hrest)

theorem entryErrors_refused {properties : List (Value × Schema)} {generic : Option Schema}
    (hparts : ∀ t ∈ properties.map (·.2) ++ generic.toList, t.Compiled) {es : Entries}
    {errors : List ErrorInfo}
    (h : Instance.entryErrors Schema.error (Demand.entries properties) (optional .schema generic) es
      = .ok errors) :
    List.Forall₂ (fun x e => ∃ t name e₀, Demand.governing properties generic x.1 = some t ∧
        x.1.display = .ok name ∧ t.error x.2 (keyLead name) = .ok (some e₀) ∧ e = e₀.atKey x.1)
      (refusedEntries properties generic es) errors := by
  induction es generalizing errors with
  | nil =>
      obtain rfl := Except.ok.inj h
      exact .nil
  | cons x rest ih =>
      simp only [Instance.entryErrors, Demand.getD_find?_entries] at h
      rw [refusedEntries, List.filter_cons]
      cases hgoverning : Demand.governing properties generic x.1 with
      | none =>
          rw [hgoverning] at h
          obtain ⟨_, hnone, h⟩ := bind_eq_ok.mp h
          obtain rfl := Except.ok.inj hnone
          obtain ⟨errors', hrest, h⟩ := bind_eq_ok.mp h
          obtain rfl := Except.ok.inj h
          exact ih hrest
      | some t =>
          rw [hgoverning] at h
          obtain ⟨name, hname, h⟩ := bind_eq_ok.mp h
          obtain ⟨r, hr, h⟩ := bind_eq_ok.mp h
          obtain ⟨errors', hrest, h⟩ := bind_eq_ok.mp h
          have hr' : t.error x.2 (keyLead name) = .ok r := hr
          rw [Option.any_some, (hparts t (Demand.mem_of_governing hgoverning)).refuses_eq hr']
          cases r with
          | none =>
              obtain rfl := Except.ok.inj h
              exact ih hrest
          | some e =>
              obtain rfl := Except.ok.inj h
              exact .cons ⟨t, name, e, hgoverning, lift_eq_ok.mp hname, hr', rfl⟩ (ih hrest)

/-! ## Verdicts without parts -/

/-- What every error of a verdict satisfies. -/
def Reports (P : ErrorInfo → Prop) (x : Verdict) : Prop := ∀ e, x = .ok (some e) → P e

namespace Reports

variable {P : ErrorInfo → Prop} {x y : Verdict}

theorem none : Reports P (.ok none) := nofun

theorem throw {f : Failure} : Reports P (.error f) := nofun

theorem some {e : ErrorInfo} (h : P e) : Reports P (.ok (some e)) := by
  rintro _ ⟨⟩
  exact h

theorem bind {α : Type} {z : Outcome α} {f : α → Verdict} (h : ∀ a, z = .ok a → Reports P (f a)) :
    Reports P (z >>= f) := by
  intro e he
  obtain ⟨a, ha, he⟩ := bind_eq_ok.mp he
  exact h a ha e he

theorem firstOf (hx : Reports P x) (hy : Reports P y) : Reports P (firstOf x y) := by
  refine bind fun r hr => ?_
  cases r with
  | none => exact hy
  | some e => exact .some (hx e hr)

theorem ite {c : Prop} [Decidable c] (hx : c → Reports P x) (hy : ¬c → Reports P y) :
    Reports P (if c then x else y) := by
  split
  · exact hx ‹_›
  · exact hy ‹_›

end Reports

/-- The kinds of the errors that sum up those of items or of entries. -/
def ErrorKind.ofContainer : ErrorKind → Bool
  | .arrayItems | .objectProperties => true
  | _ => false

/-- An error that sums up no others. -/
def ErrorInfo.IsLeaf (e : ErrorInfo) : Prop :=
  e.errors = [] ∧ e.kind.ofContainer = false

theorem ErrorInfo.isLeaf_missing (key : Value) : (missing key).IsLeaf := ⟨rfl, rfl⟩

section leaf

variable {s : Instance} {v lead : Value}

theorem leaf_refused {expects : String} {kind : ErrorKind} (h : kind.ofContainer = false) :
    Reports ErrorInfo.IsLeaf (refused lead v expects kind) :=
  .bind fun _ _ => .bind fun _ _ => .some ⟨rfl, h⟩

theorem leaf_reported {message : String} {kind : ErrorKind} (h : kind.ofContainer = false) :
    Reports ErrorInfo.IsLeaf (reported lead message kind) :=
  .bind fun _ _ => .some ⟨rfl, h⟩

theorem leaf_checkEnum : Reports ErrorInfo.IsLeaf (s.checkEnum v lead) := by
  refine .bind fun listed _ => .ite (fun _ => .none) fun _ => .bind fun items _ =>
    .ite (fun _ => .none) fun _ => .bind fun _ _ => leaf_refused rfl

theorem leaf_checkValidator : Reports ErrorInfo.IsLeaf (s.checkValidator v lead) := by
  refine .bind fun validator _ => ?_
  cases validator with
  | none => exact .none
  | callable f =>
      refine .bind fun answer _ => .bind fun accepted _ => ?_
      cases answer.text? with
      | some text => exact .bind fun _ _ => leaf_refused rfl
      | none => exact .ite (fun _ => .none) fun _ => leaf_refused rfl
  | _ => exact .throw

theorem leaf_checkTyped : Reports ErrorInfo.IsLeaf (s.checkTyped v lead) :=
  .firstOf leaf_checkEnum leaf_checkValidator

theorem leaf_checkBoolean : Reports ErrorInfo.IsLeaf (Instance.checkBoolean v lead) :=
  .ite (fun _ => .none) fun _ => leaf_refused rfl

theorem leaf_checkSymbol : Reports ErrorInfo.IsLeaf (Instance.checkSymbol v lead) := by
  unfold Instance.checkSymbol
  split
  · exact .none
  · exact leaf_refused rfl

theorem leaf_checkBound (side : Instance.Side) (hside : side = .upper ∨ side = .lower) :
    Reports ErrorInfo.IsLeaf (s.checkBound side v lead) := by
  refine .bind fun bound _ => .ite (fun _ => .none) fun _ => .bind fun _ _ => .bind fun _ _ =>
    .bind fun _ _ => .ite (fun _ => .bind fun _ _ => ?_) fun _ => .none
  rcases hside with rfl | rfl <;> exact leaf_refused rfl

theorem leaf_checkNumber : Reports ErrorInfo.IsLeaf (s.checkNumber v lead) := by
  refine .ite (fun _ => leaf_refused rfl) fun _ => .bind fun _ _ =>
    .bind fun _ _ => .ite (fun _ => leaf_refused rfl) fun _ => ?_
  exact .firstOf (leaf_checkBound _ (.inl rfl)) (leaf_checkBound _ (.inr rfl))

theorem leaf_checkLength {m : Instance.Measure} (hm : m = .text ∨ m = .array) {n : Nat} :
    Reports ErrorInfo.IsLeaf (s.checkLength m n lead) := by
  refine .bind fun low _ => .bind fun short _ => .ite (fun _ => .bind fun _ _ => ?_) fun _ =>
    .bind fun high _ => .ite (fun _ => .none) fun _ => .bind fun long _ =>
      .ite (fun _ => .bind fun _ _ => ?_) fun _ => .none
  · rcases hm with rfl | rfl <;> exact leaf_reported rfl
  · rcases hm with rfl | rfl <;> exact leaf_reported rfl

theorem leaf_checkPattern {text : String} :
    Reports ErrorInfo.IsLeaf (s.checkPattern v text lead) := by
  refine .bind fun pattern _ => ?_
  cases pattern with
  | none => exact .none
  | pattern p =>
      exact .bind fun _ _ => .ite (fun _ => .none) fun _ => .bind fun _ _ => leaf_reported rfl
  | _ => exact .throw

theorem leaf_checkString : Reports ErrorInfo.IsLeaf (s.checkString v lead) := by
  unfold Instance.checkString
  split
  · exact leaf_refused rfl
  · exact .firstOf (leaf_checkLength (.inl rfl)) leaf_checkPattern

theorem leaf_checkArguments {n : Nat} : Reports ErrorInfo.IsLeaf (s.checkArguments n v lead) := by
  refine .bind fun low _ => .bind fun few _ => .ite (fun _ => .bind fun _ _ => ?_) fun _ =>
    .bind fun high _ => .ite (fun _ => .none) fun _ => .bind fun many _ =>
      .ite (fun _ => .bind fun _ _ => ?_) fun _ => .none
  · exact leaf_refused rfl
  · exact leaf_refused rfl

theorem leaf_checkFunction : Reports ErrorInfo.IsLeaf (s.checkFunction v lead) := by
  unfold Instance.checkFunction
  split
  · refine .bind fun _ _ => .bind fun _ _ => .ite (fun _ => leaf_refused rfl) fun _ => ?_
    split
    · exact .none
    · exact leaf_checkArguments
  · exact .bind fun _ _ => .bind fun _ _ => leaf_refused rfl

theorem leaf_checkUnique {items : List Value} :
    Reports ErrorInfo.IsLeaf (s.checkUnique items lead) := by
  refine .bind fun _ _ => .bind fun _ _ => .ite (fun _ => .none) fun _ => ?_
  split
  · exact .none
  · exact leaf_reported rfl

end leaf

/-! ## The errors of a plan -/

/-- Where the error of a plan comes from: it has no parts, or lists what the plan
asks about. -/
inductive Plan.Reported (p : Plan) (v : Value) : ErrorInfo → Prop
  | leaf {e : ErrorInfo} (h : e.IsLeaf) : Reported p v e
  | items {most : Option Int} {least : Int} {t : Schema} {unique : Bool} {items : List Value}
      {e : ErrorInfo} (demand : p.demand = .array most least (some t) unique)
      (array : v.arrayItems? = some items) (kind : e.kind = .arrayItems)
      (errors : Instance.itemErrors Schema.error (.schema t) 0 items = .ok e.errors) :
      Reported p v e
  | entries {allowNull clean : Bool} {properties : List (Value × Schema)} {generic : Option Schema}
      {es : Entries} {refused : List ErrorInfo} {e : ErrorInfo}
      (demand : p.demand = .object allowNull clean properties generic) (object : v = .dict es)
      (kind : e.kind = .objectProperties)
      (entries : Instance.entryErrors Schema.error (Demand.entries properties)
        (optional .schema generic) es = .ok refused)
      (errors : e.errors = (missingKeys properties es).map .missing ++ refused) : Reported p v e
  | variants {variants : List Schema} {e : ErrorInfo} (demand : p.demand = .oneOf variants)
      (kind : e.kind = .oneOf)
      (errors : List.Forall₂ (fun t d => t.error v (.str "") = .ok (some d)) variants e.errors) :
      Reported p v e

section plan

variable {p : Plan} {hash lead : String} {v : Value}

theorem reported_leaf {x : Verdict} (h : Reports ErrorInfo.IsLeaf x) : Reports (p.Reported v) x :=
  fun e he => .leaf (h e he)

theorem reported_summarized {P : ErrorInfo → Prop} {one several : String} {kind : ErrorKind}
    {errors : List ErrorInfo} (h : ∀ e, e.kind = kind → e.errors = errors → P e) (lead : Value) :
    Reports P (summarized lead one several kind errors) := by
  unfold summarized
  split
  · exact .none
  · exact .bind fun _ _ => .some (h _ rfl rfl)

theorem reported_checkArray {most : Option Int} {least : Int} {item : Option Schema}
    {unique : Bool} (hd : p.demand = .array most least item unique) :
    Reports (p.Reported v)
      (Instance.checkArray Schema.error (p.toInstance hash) v (.str lead)) := by
  unfold Instance.checkArray
  split
  · exact reported_leaf (leaf_refused rfl)
  · rename_i items hitems
    refine .firstOf (reported_leaf (leaf_checkLength (.inr rfl)))
      (.firstOf (reported_leaf leaf_checkUnique) ?_)
    unfold Instance.checkItems
    rw [Plan.get_of_demand hash hd "schema" (by decide) rfl, lift_ok, ok_bind]
    cases item with
    | none => exact .none
    | some t =>
        refine .bind fun errors herrors => reported_summarized ?_ _
        rintro e hkind rfl
        exact .items hd hitems hkind herrors

theorem reported_checkObject {allowNull clean : Bool} {properties : List (Value × Schema)}
    {generic : Option Schema} (hp : p.demand.Proper) (hl : p.demand.Legible)
    (hd : p.demand = .object allowNull clean properties generic) :
    Reports (p.Reported v)
      (Instance.checkObject Schema.error (p.toInstance hash) v (.str lead)) := by
  rw [hd] at hp hl
  unfold Instance.checkObject
  split
  · refine .bind fun _ _ => .bind fun _ _ => .ite (fun _ => .none) fun _ => reported_leaf ?_
    exact .bind fun _ _ => .some ⟨rfl, rfl⟩
  · rename_i es
    have hproperties := Plan.properties_of_demand hash hd
    rw [hproperties, lift_ok, ok_bind, missingErrors_eq es hp hl.shown, ok_bind]
    refine .bind fun g hg => .bind fun refused hrefused => reported_summarized ?_ _
    intro e hkind herrors
    refine .entries hd rfl hkind ?_ herrors
    cases es with
    | nil => exact hrefused
    | cons x rest =>
        have hgeneric := Plan.genericFor_of_demand hash hd x rest
        obtain rfl := Except.ok.inj (hgeneric.symm.trans (lift_eq_ok.mp hg))
        exact hrefused
  · exact reported_leaf (leaf_refused rfl)

theorem reported_checkOneOf {variants : List Schema} (hd : p.demand = .oneOf variants) :
    Reports (p.Reported v)
      (Instance.checkOneOf Schema.error (p.toInstance hash) v (.str lead)) := by
  intro e he
  simp only [Instance.checkOneOf, searchItems, Plan.get_of_demand hash hd "one_of" (by decide) rfl,
    lift_ok, ok_bind, Value.items] at he
  obtain ⟨found, hrun, he⟩ := bind_eq_ok.mp he
  cases found with
  | found n t => cases he
  | refused errors =>
      rw [Instance.searchVerdict, orEmpty_str, lift_ok, ok_bind] at he
      obtain rfl := Option.some.inj (Except.ok.inj he)
      exact .variants hd rfl ((run_eq_refused 0).mp hrun)

/-- The errors of a plan, one kind after another. -/
theorem reported_error (hp : p.demand.Proper) (hl : p.demand.Legible) :
    Reports (p.Reported v) ((Schema.single (p.toInstance hash)).error v (.str lead)) := by
  have own : ∀ lead : String, Reports (p.Reported v)
      (Instance.checkStep Schema.error (p.toInstance hash) v (.str lead)
        (.builtin p.demand.kind)) := by
    intro lead
    cases hd : p.demand with
    | typed => exact reported_leaf leaf_checkTyped
    | boolean => exact reported_leaf leaf_checkBoolean
    | symbol => exact reported_leaf leaf_checkSymbol
    | number => exact reported_leaf leaf_checkNumber
    | string => exact reported_leaf leaf_checkString
    | function => exact reported_leaf leaf_checkFunction
    | array => exact reported_checkArray hd
    | object => exact reported_checkObject hp hl hd
    | oneOf => exact reported_checkOneOf hd
  rw [Schema.error_single, Instance.errorWith, p.require_toInstance hash (by decide), orEmpty_str]
  show Reports _ (Instance.firstError _ _ _ _ (p.toInstance hash).checks)
  rw [p.checks_toInstance]
  refine .firstOf (reported_leaf leaf_checkTyped) ?_
  split
  · exact .none
  · exact .firstOf (own lead) .none

end plan

end Conform
