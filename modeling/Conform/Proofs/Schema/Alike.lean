/-
# `Proofs.Schema.Alike` — schemas with one text decide alike

Schemas that have the same token under every name are taken apart attribute by
attribute: the type tells the kind, and each check reads the same of both, or
something that faithful digests do not confuse.  The schemas inside are those of
a hypothesis; the induction over them comes later.
-/
import Conform.Proofs.Schema.Faithful
import Conform.Proofs.Schema.Accepts
import Conform.Proofs.Value.Key

namespace Conform

namespace Schema

/-- Schemas that decide in the same way. -/
structure Alike (s t : Schema) : Prop where
  required : s.required = t.required
  accepts : ∀ v, s.accepts v = t.accepts v

theorem Alike.isRequired {s t : Schema} (h : s.Alike t) : s.isRequired = t.isRequired := by
  rw [Schema.isRequired, Schema.isRequired, h.required]

end Schema

/-! ## Parts that decide alike -/

/-- Keys that equal the same keys are looked up alike. -/
theorem Entries.find?_congr {k k' : Value} (h : ∀ w, Value.sameKey k w = Value.sameKey k' w)
    (es : Entries) : es.find? k = es.find? k' := by
  induction es with
  | nil => rfl
  | cons e rest ih =>
      obtain ⟨key, v⟩ := e
      rw [find?, find?, Value.sameKey_comm key k, Value.sameKey_comm key k', h key, ih]

namespace Demand

/-- Properties whose keys are found alike, and whose schemas decide alike. -/
def SameProperty (e e' : Value × Schema) : Prop :=
  (∀ k, Value.sameKey e.1 k = Value.sameKey e'.1 k) ∧ e.2.Alike e'.2

/-- Properties that have such a partner, in whatever order they are declared. -/
structure SameProperties (props props' : List (Value × Schema)) : Prop where
  forth : ∀ e ∈ props, ∃ e' ∈ props', SameProperty e e'
  back : ∀ e' ∈ props', ∃ e ∈ props, SameProperty e e'

variable {item item' : Option Schema} {props props' : List (Value × Schema)}

theorem acceptsArray_congr (hitem : Option.Rel Schema.Alike item item') (most : Option Int)
    (least : Int) (unique : Bool) (v : Value) :
    acceptsArray Schema.accepts most least item unique v
      = acceptsArray Schema.accepts most least item' unique v := by
  have hask : askItems Schema.accepts item = askItems Schema.accepts item' := by
    funext items
    cases hitem with
    | none => rfl
    | some halike =>
        show askAll _ items = askAll _ items
        rw [funext halike.accepts]
  simp only [acceptsArray, hask]

namespace SameProperties

/-- A key is governed by schemas that decide alike, or by none. -/
theorem governing (h : SameProperties props props')
    (hapart : props'.Pairwise fun e f => Value.sameKey e.1 f.1 = false)
    (hitem : Option.Rel Schema.Alike item item') (key : Value) :
    Option.Rel Schema.Alike (Demand.governing props item key)
      (Demand.governing props' item' key) := by
  unfold Demand.governing
  cases hfind : props.find? fun e => Value.sameKey e.1 key with
  | some e =>
      have hkey : Value.sameKey e.1 key = true := by simpa using List.find?_some hfind
      obtain ⟨e', he', hsame, halike⟩ := h.forth e (List.mem_of_find?_eq_some hfind)
      rw [Value.find?_eq_of_apart hapart he' ((hsame key).symm.trans hkey)]
      exact .some halike
  | none =>
      have hnone : (props'.find? fun e => Value.sameKey e.1 key) = none := by
        rw [List.find?_eq_none] at hfind ⊢
        intro e' he'
        obtain ⟨e, he, hsame, -⟩ := h.back e' he'
        rw [← hsame key]
        exact hfind e he
      rw [hnone]
      exact hitem

/-- A required property is missing on both sides, or on none. -/
theorem misses (h : SameProperties props props') (entries : Entries) :
    (props.any fun (key, t) => t.isRequired && !entries.contains key)
      = props'.any fun (key, t) => t.isRequired && !entries.contains key := by
  have hmissing : ∀ e e' : Value × Schema, SameProperty e e' →
      (e.2.isRequired && !entries.contains e.1) = (e'.2.isRequired && !entries.contains e'.1) := by
    intro e e' hsame
    rw [hsame.2.isRequired, Entries.contains, Entries.contains, Entries.find?_congr hsame.1]
  rw [Bool.eq_iff_iff, List.any_eq_true, List.any_eq_true]
  constructor
  · rintro ⟨e, he, hmisses⟩
    obtain ⟨e', he', hsame⟩ := h.forth e he
    exact ⟨e', he', (hmissing e e' hsame).symm.trans hmisses⟩
  · rintro ⟨e', he', hmisses⟩
    obtain ⟨e, he, hsame⟩ := h.back e' he'
    exact ⟨e, he, (hmissing e e' hsame).trans hmisses⟩

theorem acceptsObject (h : SameProperties props props')
    (hapart : props'.Pairwise fun e f => Value.sameKey e.1 f.1 = false)
    (hitem : Option.Rel Schema.Alike item item') (allowNull : Bool) (v : Value) :
    Demand.acceptsObject Schema.accepts allowNull props item v
      = Demand.acceptsObject Schema.accepts allowNull props' item' v := by
  cases v with
  | dict entries =>
      have hask : askEntry Schema.accepts props item = askEntry Schema.accepts props' item' := by
        funext entry
        have hgoverning := h.governing hapart hitem entry.1
        unfold askEntry
        revert hgoverning
        generalize Demand.governing props item entry.1 = t
        generalize Demand.governing props' item' entry.1 = u
        rintro (halike | _)
        · dsimp only
          rw [halike.accepts entry.2]
        · rfl
      simp only [Demand.acceptsObject, hask, h.misses]
  | _ => rfl

end SameProperties

end Demand

/-! ## The type tells the kind -/

namespace Value

theorem text?_of_denoted {v : Value} {s : String} (h : v.denoted? = some (.text s)) :
    v.text? = some s := by
  unfold denoted? at h
  split at h
  case h_7 => split at h <;> cases h
  case h_11 =>
      split at h
      · obtain ⟨_, -, hworth⟩ := Option.map_eq_some_iff.mp h
        cases hworth
      · rename_i ht
        cases h
        exact ht
      · cases h
  all_goals cases h

/-- What nothing else is equal to. -/
def Denoted.unique? : Denoted → Option Value
  | .aliasKey k => some (.aliasKey k)
  | .ofClass c => some (.callable (.ofClass c))
  | _ => .none

theorem eq_of_denoted {v w : Value} {d : Denoted} (h : v.denoted? = some d)
    (hd : d.unique? = some w) : v = w := by
  unfold denoted? at h
  split at h
  case h_4 | h_8 =>
      cases h
      exact Option.some.inj hd
  case h_7 => split at h <;> cases h <;> cases hd
  case h_11 =>
      split at h
      · obtain ⟨_, -, rfl⟩ := Option.map_eq_some_iff.mp h
        cases hd
      · cases h
        cases hd
      · cases h
  all_goals
    cases h
    cases hd

/-- What the controllers of this library are registered under. -/
def isAlias : Value → Bool
  | .str _ | .aliasKey _ | .callable (.ofClass _) => true
  | _ => false

/-- A type has the token of the alias that it names. -/
theorem token_of_sameKey {a v : Value} (ha : a.isAlias = true) (h : sameKey a v = true) :
    v.token = a.token := by
  have hdenoted : ∀ d, a.denoted? = some d → atomEqual a v = true → v.denoted? = some d := by
    intro d hd hv
    rcases denoted?_of_atomEqual hv with ⟨c, -, rfl, -⟩ | ⟨-, heq⟩
    · cases hd
    · exact heq ▸ hd
  unfold isAlias at ha
  split at ha
  · rename_i s
    have htext := text?_of_denoted (hdenoted (.text s) rfl h)
    unfold text? at htext
    split at htext
    · exact Option.some.inj htext ▸ rfl
    · exact Option.some.inj htext ▸ rfl
    · cases htext
  · rename_i k
    rw [eq_of_denoted (hdenoted (.aliasKey k) rfl h) rfl]
  · rename_i c
    rw [eq_of_denoted (hdenoted (.ofClass c) rfl h) rfl]
  · cases ha

end Value

/-- The token of a type tells the controller. -/
theorem kind_of_token {c d : BuiltinController} (hc : c ∈ builtinControllers)
    (hd : d ∈ builtinControllers) {a b : Value} (ha : a ∈ c.aliases) (hb : b ∈ d.aliases)
    {token : String} (hat : a.token = .ok token) (hbt : b.token = .ok token) : c.kind = d.kind := by
  have hkinds : ∀ c ∈ builtinControllers, ∀ d ∈ builtinControllers, ∀ a ∈ c.aliases,
      ∀ b ∈ d.aliases, a.token.toOption = b.token.toOption → a.token.toOption ≠ none →
        c.kind = d.kind := by
    decide +kernel
  refine hkinds c hc d hd a ha b hb ?_ ?_
  · rw [hat, hbt]
  · rw [hat]
    exact Option.some_ne_none token

/-! ## Plans with one text -/

namespace Plan

/-- Under every name there are values with one token, or none. -/
def SameTokens (p q : Plan) : Prop :=
  ∀ name, Option.Rel (fun v w : Value => ∃ token, v.token = .ok token ∧ w.token = .ok token)
    (p.attributes.lookup name) (q.attributes.lookup name)

variable {p q : Plan}

theorem lookup_iff {name : String} {v : Value} :
    p.attributes.lookup name = some v ↔ (name, v) ∈ p.attributes :=
  Attributes.lookup_iff p.names_nodup

theorem areNames : Attributes.AreNames attributeNames := by decide +kernel

/-- The attributes of a plan among schemas with faithful digests. -/
theorem areClear {ss : List Instance} (hf : Schema.Faithful ss) {hash : String}
    (hp : Schema.Among ss (.single (p.toInstance hash))) :
    Attributes.AreClear attributeNames p.attributes where
  name e he := p.names_subset (List.mem_map_of_mem he)
  clear e he token htoken := by
    cases hcallable : e.2.isCallable with
    | false =>
        obtain ⟨t, -, rfl⟩ := Value.outline_of_token hcallable htoken
        exact isClear_render attributeNames t
    | true =>
        obtain ⟨name, v⟩ := e
        cases v with
        | callable f => exact (hf.token name f ⟨_, hp, lookup_iff.mpr he⟩ token htoken).1
        | _ => cases hcallable
  nonempty := List.cons_ne_nil _ _

/-- One text has the same tokens. -/
theorem sameTokens {ss : List Instance} (hf : Schema.Faithful ss) {hash hash' text : String}
    (hp : Schema.Among ss (.single (p.toInstance hash)))
    (hq : Schema.Among ss (.single (q.toInstance hash')))
    (hpt : (Schema.single (p.toInstance hash)).digested = .ok text)
    (hqt : (Schema.single (q.toInstance hash')).digested = .ok text) : p.SameTokens q := by
  obtain ⟨ls, hls, hptext⟩ := bind_eq_ok.mp hpt
  obtain ⟨ls', hls', hqtext⟩ := bind_eq_ok.mp hqt
  have htext := (Except.ok.inj hptext).trans (Except.ok.inj hqtext).symm
  have hclear := areClear hf hp
  have hclear' := areClear hf hq
  intro name
  cases hv : p.attributes.lookup name with
  | some v =>
      obtain ⟨w, token, hw, hvt, hwt⟩ :=
        Attributes.token_of_text areNames hclear hclear' hls hls' htext (lookup_iff.mp hv)
      rw [lookup_iff.mpr hw]
      exact .some ⟨token, hvt, hwt⟩
  | none =>
      cases hw : q.attributes.lookup name with
      | none => exact .none
      | some w =>
          obtain ⟨v, token, hv', -, -⟩ := Attributes.token_of_text areNames hclear' hclear hls' hls
            htext.symm (lookup_iff.mp hw)
          rw [lookup_iff.mpr hv'] at hv
          cases hv

theorem SameTokens.text (h : p.SameTokens q) {name : String} {v w : Value}
    (hv : p.attributes.lookup name = some v) (hw : q.attributes.lookup name = some w)
    (hvc : v.isCallable = false) (hwc : w.isCallable = false) : v.SameText w := by
  have htokens := h name
  rw [hv, hw] at htokens
  cases htokens with
  | some htoken =>
      obtain ⟨token, hvt, hwt⟩ := htoken
      exact Value.sameText_of_token hvc hwc hvt hwt

/-- What a controller sets is kept. -/
theorem lookup_of_demand {d : Demand} (hd : p.demand = d) {name : String} {v : Value}
    (hname : name ∉ commonNames ∧ name ≠ "required") (hv : d.attributes.lookup name = some v) :
    p.attributes.lookup name = some v := by
  subst hd
  exact (p.lookup_demand hname.1 hname.2).trans hv

/-- The types name one controller. -/
theorem SameTokens.kind (h : p.SameTokens q) (hp : p.Proper) (hq : q.Proper) :
    p.demand.kind = q.demand.kind := by
  have htype : ∀ r : Plan, r.attributes.lookup "type" = some r.type := fun r => by
    simp [attributes, common, List.lookup_cons]
  have htokens := h "type"
  rw [htype p, htype q] at htokens
  obtain ⟨token, hpt, hqt⟩ : ∃ token, p.type.token = .ok token ∧ q.type.token = .ok token := by
    cases htokens with
    | some htoken => exact htoken
  have hforms : ∀ c ∈ builtinControllers, ∀ a ∈ c.aliases, a.isAlias = true := by decide
  obtain ⟨c, hc, hck, a, ha, hpa⟩ := hp.type
  obtain ⟨d, hd, hdk, b, hb, hqb⟩ := hq.type
  rw [Value.token_of_sameKey (hforms c hc a ha) hpa] at hpt
  rw [Value.token_of_sameKey (hforms d hd b hb) hqb] at hqt
  rw [← hck, ← hdk]
  exact kind_of_token hc hd ha hb hpt hqt

theorem SameTokens.required (h : p.SameTokens q) : p.required = q.required := by
  have htokens := h "required"
  rw [p.lookup_required, q.lookup_required] at htokens
  cases hp : p.required with
  | none =>
      cases hq : q.required with
      | none => rfl
      | some c =>
          rw [hp, hq] at htokens
          cases htokens
  | some b =>
      cases hq : q.required with
      | none =>
          rw [hp, hq] at htokens
          cases htokens
      | some c =>
          have htext := h.text (p.lookup_required.trans (congrArg _ hp))
            (q.lookup_required.trans (congrArg _ hq)) rfl rfl
          rw [htext.bool]

end Plan

/-! ## Checks that read the same -/

/-- A question with the same answers has one answer. -/
theorem any_congr {α : Type} {f : α → Bool} {xs ys : List α}
    (h : List.Forall₂ (fun x y => f x = f y) xs ys) : xs.any f = ys.any f := by
  induction h with
  | nil => rfl
  | cons hhead _ ih => rw [List.any_cons, List.any_cons, hhead, ih]

theorem haveLiterals_congr {xs ys : List Value}
    (h : List.Forall₂ (fun x y => x.hasLiteral = y.hasLiteral) xs ys) :
    Value.haveLiterals xs = Value.haveLiterals ys := by
  induction h with
  | nil => rfl
  | cons hhead _ ih => rw [Value.haveLiterals, Value.haveLiterals, hhead, ih]

theorem askAny_congr {α : Type} {ask : α → Outcome Bool} {xs ys : List α}
    (h : List.Forall₂ (fun x y => ask x = ask y) xs ys) : askAny ask xs = askAny ask ys := by
  induction h with
  | nil => rfl
  | cons hhead _ ih => rw [askAny, askAny, hhead, ih]

/-- Plans among schemas with faithful digests that have one text, and whose
parts decide alike where they have one digest. -/
structure Plan.Matches (ss : List Instance) (p q : Plan) : Prop where
  faithful : Schema.Faithful ss
  left : ∃ hash, Schema.Among ss (.single (p.toInstance hash))
  right : ∃ hash, Schema.Among ss (.single (q.toInstance hash))
  proper : p.Proper
  proper' : q.Proper
  tokens : p.SameTokens q
  compiled : ∀ t ∈ p.demand.parts, t.Compiled
  compiled' : ∀ u ∈ q.demand.parts, u.Compiled
  alike : ∀ t ∈ p.demand.parts, ∀ u ∈ q.demand.parts, t.hash = u.hash → t.Alike u

namespace Plan.Matches

variable {ss : List Instance} {p q : Plan} {d d' : Demand}

theorem records (h : Matches ss p q) {name : String} {v : Value}
    (hv : p.attributes.lookup name = some v) : Schema.Records ss name v :=
  let ⟨_, hp⟩ := h.left
  ⟨_, hp, hv⟩

theorem records' (h : Matches ss p q) {name : String} {v : Value}
    (hv : q.attributes.lookup name = some v) : Schema.Records ss name v :=
  let ⟨_, hq⟩ := h.right
  ⟨_, hq, hv⟩

/-- Listed values equal the same values and can be shown alike, one by one. -/
theorem listed (h : Matches ss p q) :
    (p.enum = none ∧ q.enum = none) ∨ ∃ xs ys, p.enum = some xs ∧ q.enum = some ys ∧
      List.Forall₂ (fun x y => (∀ v, Value.strictEqual x v = Value.strictEqual y v) ∧
        x.hasLiteral = y.hasLiteral) xs ys := by
  have hlookup : ∀ r : Plan, r.attributes.lookup "enum" = some (optional .tuple r.enum) := fun r => by
    simp [attributes, common, List.lookup_cons]
  have hcallable : ∀ r : Plan, (optional .tuple r.enum).isCallable = false := fun r => by
    cases r.enum <;> rfl
  have htext := h.tokens.text (hlookup p) (hlookup q) (hcallable p) (hcallable q)
  rcases htext.optional (fun _ _ => Value.not_none_tuple) fun _ _ => Value.not_none_tuple with
    ⟨hxs, hys⟩ | ⟨xs, ys, hxs, hys, htexts⟩
  · exact .inl ⟨hxs, hys⟩
  · have hpxs := h.records ((hlookup p).trans (by rw [hxs]))
    have hqys := h.records' ((hlookup q).trans (by rw [hys]))
    refine .inr ⟨xs, ys, hxs, hys, forall₂_imp (fun x hx y hy hxy => ?_) htexts.list⟩
    exact ⟨h.faithful.enum xs ys hpxs hqys x hx y hy hxy,
      h.faithful.shown xs ys hpxs hqys x hx y hy hxy⟩

theorem lists (h : Matches ss p q) (v : Value) : p.lists v = q.lists v := by
  rw [Plan.lists, Plan.lists]
  rcases h.listed with ⟨hxs, hys⟩ | ⟨xs, ys, hxs, hys, hitems⟩
  · rw [hxs, hys]
  · rw [hxs, hys]
    simp only [Option.all_some, Value.strictIndex?, List.findIdx?_isSome]
    exact any_congr (forall₂_imp (fun _ _ _ _ hxy => hxy.1 v) hitems)

theorem listsWritable (h : Matches ss p q) : p.listsWritable = q.listsWritable := by
  rw [Plan.listsWritable, Plan.listsWritable]
  rcases h.listed with ⟨hxs, hys⟩ | ⟨xs, ys, hxs, hys, hitems⟩
  · rw [hxs, hys]
  · rw [hxs, hys]
    exact haveLiterals_congr (forall₂_imp (fun _ _ _ _ hxy => hxy.2) hitems)

theorem validates (h : Matches ss p q) (v : Value) : p.validates v = q.validates v := by
  have hlookup : ∀ r : Plan,
      r.attributes.lookup "validator" = some (optional .callable r.validator) := fun r => by
    simp [attributes, common, List.lookup_cons]
  have htokens := h.tokens "validator"
  rw [hlookup p, hlookup q] at htokens
  obtain ⟨token, hpt, hqt⟩ : ∃ token, (optional .callable p.validator).token = .ok token ∧
      (optional .callable q.validator).token = .ok token := by
    cases htokens with
    | some htoken => exact htoken
  have hleft := h.records (hlookup p)
  have hright := h.records' (hlookup q)
  rw [Plan.validates, Plan.validates]
  cases hpf : p.validator with
  | none =>
      cases hqf : q.validator with
      | none => rfl
      | some g =>
          rw [hpf] at hpt
          rw [hqf] at hqt hright
          exact absurd (Except.ok.inj hpt).symm (h.faithful.token _ g hright token hqt).2
  | some f =>
      rw [hpf] at hpt hleft
      cases hqf : q.validator with
      | none =>
          rw [hqf] at hqt
          exact absurd (Except.ok.inj hqt).symm (h.faithful.token _ f hleft token hpt).2
      | some g =>
          rw [hqf] at hqt hright
          dsimp only
          rw [h.faithful.validator f g hleft hright (hpt.trans hqt.symm) v]

/-! ## Demands that are met alike -/

/-- Bounds under one name compare in the same way. -/
theorem exceeds (h : Matches ss p q) (name : String) {a b : Option Value}
    (ha : p.attributes.lookup name = some (optional id a))
    (hb : q.attributes.lookup name = some (optional id b))
    (har : ∀ x, a = some x → x.isReal = true) (hbr : ∀ y, b = some y → y.isReal = true)
    (c : Comparison) {v : Value} (hv : v.isReal = true) :
    Demand.exceeds c v a = Demand.exceeds c v b := by
  have hcallable : ∀ o : Option Value, (∀ x, o = some x → x.isReal = true) →
      (optional id o).isCallable = false := by
    intro o ho
    cases o with
    | none => rfl
    | some x =>
        have hx := ho x rfl
        cases x <;> first | rfl | cases hx
  have htext := h.tokens.text ha hb (hcallable a har) (hcallable b hbr)
  have hleft := h.records ha
  have hright := h.records' hb
  rcases htext.optional (fun x hx => Value.not_none_of_isReal (har x hx))
      (fun y hy => Value.not_none_of_isReal (hbr y hy)) with
    ⟨rfl, rfl⟩ | ⟨x, y, rfl, rfl, hxy⟩
  · rfl
  · exact h.faithful.bound name x y hleft hright (har x rfl) (hbr y rfl) hxy c v hv

/-- Limits under one name are the same. -/
theorem limit (h : Matches ss p q) (name : String) {a b : Option Int}
    (ha : p.attributes.lookup name = some (optional .int a))
    (hb : q.attributes.lookup name = some (optional .int b)) : a = b := by
  have hcallable : ∀ o : Option Int, (optional Value.int o).isCallable = false := fun o => by
    cases o <;> rfl
  have htext := h.tokens.text ha hb (hcallable a) (hcallable b)
  rcases htext.optional (fun _ _ => Value.not_none_of_isReal rfl)
      (fun _ _ => Value.not_none_of_isReal rfl) with
    ⟨rfl, rfl⟩ | ⟨x, y, rfl, rfl, hxy⟩
  · rfl
  · rw [hxy.int]

section demands

variable {d d' : Demand} (h : Matches ss p q) (hd : p.demand = d) (hd' : q.demand = d')
include h hd hd'

theorem flag (name : String) {a b : Bool} (hname : name ∉ commonNames ∧ name ≠ "required")
    (ha : d.attributes.lookup name = some (.bool a))
    (hb : d'.attributes.lookup name = some (.bool b)) : a = b :=
  (h.tokens.text (lookup_of_demand hd hname ha) (lookup_of_demand hd' hname hb) rfl rfl).bool

theorem whole (name : String) {a b : Int} (hname : name ∉ commonNames ∧ name ≠ "required")
    (ha : d.attributes.lookup name = some (.int a))
    (hb : d'.attributes.lookup name = some (.int b)) : a = b :=
  (h.tokens.text (lookup_of_demand hd hname ha) (lookup_of_demand hd' hname hb) rfl rfl).int

end demands

theorem acceptsNumber (h : Matches ss p q) {above below whole above' below' whole' : Bool}
    {most least most' least' : Option Value} (hd : p.demand = .number above below whole most least)
    (hd' : q.demand = .number above' below' whole' most' least') (v : Value) :
    Demand.acceptsNumber above below whole most least v
      = Demand.acceptsNumber above' below' whole' most' least' v := by
  have hp := hd ▸ h.proper.demand
  have hq := hd' ▸ h.proper'.demand
  obtain rfl := h.flag hd hd' "exclusive_max" (by decide) rfl rfl
  obtain rfl := h.flag hd hd' "exclusive_min" (by decide) rfl rfl
  obtain rfl := h.flag hd hd' "integer" (by decide) rfl rfl
  cases hv : v.isReal with
  | false => simp [Demand.acceptsNumber, hv]
  | true =>
      have hupper := fun c => h.exceeds "max" (lookup_of_demand hd (by decide) rfl)
        (lookup_of_demand hd' (by decide) rfl) hp.1 hq.1 c hv
      have hlower := fun c => h.exceeds "min" (lookup_of_demand hd (by decide) rfl)
        (lookup_of_demand hd' (by decide) rfl) hp.2 hq.2 c hv
      simp only [Demand.acceptsNumber, Demand.beyond, hupper, hlower]

theorem acceptsString (h : Matches ss p q) {most most' : Option Int} {least least' : Int}
    {pattern pattern' : Option Pattern} (hd : p.demand = .string most least pattern)
    (hd' : q.demand = .string most' least' pattern') (v : Value) :
    Demand.acceptsString most least pattern v = Demand.acceptsString most' least' pattern' v := by
  have hpattern : p.attributes.lookup "pattern" = some (optional .pattern pattern) :=
    lookup_of_demand hd (by decide) rfl
  have hpattern' : q.attributes.lookup "pattern" = some (optional .pattern pattern') :=
    lookup_of_demand hd' (by decide) rfl
  have hcallable : ∀ o : Option Pattern, (optional Value.pattern o).isCallable = false :=
    fun o => by cases o <;> rfl
  obtain rfl := h.limit "max_length" (lookup_of_demand hd (by decide) rfl)
    (lookup_of_demand hd' (by decide) rfl)
  obtain rfl := h.whole hd hd' "min_length" (by decide) rfl rfl
  have htext := h.tokens.text hpattern hpattern' (hcallable _) (hcallable _)
  have hleft := h.records hpattern
  have hright := h.records' hpattern'
  rcases htext.optional (fun _ _ => Value.not_none_pattern) (fun _ _ => Value.not_none_pattern) with
    ⟨rfl, rfl⟩ | ⟨r, s, rfl, rfl, hrs⟩
  · rfl
  · rw [h.faithful.pattern r s hleft hright hrs.pattern.1 hrs.pattern.2]

theorem acceptsFunction (h : Matches ss p q) {most most' : Option Value} {least least' : Value}
    {named named' : Bool} (hd : p.demand = .function most least named)
    (hd' : q.demand = .function most' least' named') (v : Value) :
    Demand.acceptsFunction most least named v = Demand.acceptsFunction most' least' named' v := by
  have hp := hd ▸ h.proper.demand
  have hq := hd' ▸ h.proper'.demand
  obtain rfl := h.flag hd hd' "named" (by decide) rfl rfl
  have hmost := fun (n : Int) => h.exceeds "max_arguments"
    (lookup_of_demand hd (by decide) rfl) (lookup_of_demand hd' (by decide) rfl)
    (fun x hx => isReal_of_isInteger (hp.1 x hx)) (fun y hy => isReal_of_isInteger (hq.1 y hy)) .gt
    (v := .int n) rfl
  have hleast : ∀ n : Int, Value.holds .lt (.int n) least = Value.holds .lt (.int n) least' := by
    have hbound := fun (n : Int) => h.exceeds "min_arguments" (a := some least)
      (b := some least') (lookup_of_demand hd (by decide) rfl)
      (lookup_of_demand hd' (by decide) rfl)
      (fun x hx => Option.some.inj hx ▸ isReal_of_isInteger hp.2)
      (fun y hy => Option.some.inj hy ▸ isReal_of_isInteger hq.2) .lt (v := .int n) rfl
    exact hbound
  cases v with
  | callable f => simp only [Demand.acceptsFunction, hmost, hleast]
  | _ => rfl

/-! ## Parts that decide alike -/

variable {item item' : Option Schema}

/-- The schemas of all parts are both absent, or decide alike. -/
theorem generic (h : Matches ss p q)
    (hlookup : p.attributes.lookup "schema" = some (optional .schema item))
    (hlookup' : q.attributes.lookup "schema" = some (optional .schema item'))
    (hitem : item.toList ⊆ p.demand.parts) (hitem' : item'.toList ⊆ q.demand.parts) :
    Option.Rel Schema.Alike item item' := by
  have hcallable : ∀ o : Option Schema, (optional Value.schema o).isCallable = false :=
    fun o => by cases o <;> rfl
  have hleft : ∀ t, item = some t → t ∈ p.demand.parts := fun t ht => hitem (by simp [ht])
  have hright : ∀ u, item' = some u → u ∈ q.demand.parts := fun u hu => hitem' (by simp [hu])
  have htext := h.tokens.text hlookup hlookup' (hcallable _) (hcallable _)
  rcases htext.optional (fun t ht => Value.not_none_schema (h.compiled t (hleft t ht)).answers)
      (fun u hu => Value.not_none_schema (h.compiled' u (hright u hu)).answers) with
    ⟨rfl, rfl⟩ | ⟨t, u, rfl, rfl, htu⟩
  · exact .none
  · have ht := hleft t rfl
    have hu := hright u rfl
    exact .some (h.alike t ht u hu (htu.schema (h.compiled t ht).answers (h.compiled' u hu).answers))

theorem acceptsArray (h : Matches ss p q) {most most' : Option Int} {least least' : Int}
    {unique unique' : Bool} (hd : p.demand = .array most least item unique)
    (hd' : q.demand = .array most' least' item' unique') (v : Value) :
    Demand.acceptsArray Schema.accepts most least item unique v
      = Demand.acceptsArray Schema.accepts most' least' item' unique' v := by
  obtain rfl := h.limit "max_items" (lookup_of_demand hd (by decide) rfl)
    (lookup_of_demand hd' (by decide) rfl)
  obtain rfl := h.whole hd hd' "min_items" (by decide) rfl rfl
  obtain rfl := h.flag hd hd' "unique_items" (by decide) rfl rfl
  have hitem := h.generic (lookup_of_demand hd (by decide) rfl)
    (lookup_of_demand hd' (by decide) rfl) (by rw [hd]; exact fun _ ht => ht)
    (by rw [hd']; exact fun _ hu => hu)
  exact Demand.acceptsArray_congr hitem _ _ _ v

theorem acceptsOneOf (h : Matches ss p q) {variants variants' : List Schema}
    (hd : p.demand = .oneOf variants) (hd' : q.demand = .oneOf variants') (v : Value) :
    askAny (Schema.accepts · v) variants = askAny (Schema.accepts · v) variants' := by
  have hvariants : ∀ t ∈ variants, t ∈ p.demand.parts := fun t ht => by rw [hd]; exact ht
  have hvariants' : ∀ u ∈ variants', u ∈ q.demand.parts := fun u hu => by rw [hd']; exact hu
  have hlookup : p.attributes.lookup "one_of" = some (.tuple (variants.map .schema)) :=
    lookup_of_demand hd (by decide) rfl
  have htext := h.tokens.text hlookup (lookup_of_demand hd' (by decide) rfl) rfl rfl
  have hdigests := htext.schemas (fun t ht => (h.compiled t (hvariants t ht)).answers)
    fun u hu => (h.compiled' u (hvariants' u hu)).answers
  exact askAny_congr (forall₂_imp (fun t ht u hu heq =>
    (h.alike t (hvariants t ht) u (hvariants' u hu) heq).accepts v) hdigests)

section objects

variable {allowNull allowNull' clean clean' : Bool} {props props' : List (Value × Schema)}

/-- Every property of one plan has one of the other that goes by the same keys
and decides alike. -/
theorem property (h : Matches ss p q) (hd : p.demand = .object allowNull clean props item)
    (hd' : q.demand = .object allowNull' clean' props' item') :
    Demand.SameProperties props props' := by
  have hlookup : p.attributes.lookup "properties" = some (.dict (Demand.entries props)) :=
    lookup_of_demand hd (by decide) rfl
  have hlookup' : q.attributes.lookup "properties" = some (.dict (Demand.entries props')) :=
    lookup_of_demand hd' (by decide) rfl
  have hpart : ∀ e ∈ props, e.2 ∈ p.demand.parts := fun e he => by
    rw [hd]
    exact List.mem_append_left _ (List.mem_map_of_mem he)
  have hpart' : ∀ e ∈ props', e.2 ∈ q.demand.parts := fun e he => by
    rw [hd']
    exact List.mem_append_left _ (List.mem_map_of_mem he)
  have htexts : ∀ {ps : List (Value × Schema)},
      Schema.Records ss "properties" (.dict (Demand.entries ps)) →
        (ps.map fun e => e.1.textSpelling).Nodup := fun hrecords =>
    List.pairwise_map.mpr
      ((List.pairwise_map.mp (h.faithful.apart _ hrecords)).imp fun hapart => hapart.2)
  have hleft := h.records hlookup
  have hright := h.records' hlookup'
  have hentry : ∀ {ps : List (Value × Schema)} {e : Value × Schema}, e ∈ ps →
      (e.1, Value.schema e.2) ∈ Demand.entries ps := fun he => List.mem_map.mpr ⟨_, he, rfl⟩
  have halike : ∀ e ∈ props, ∀ e' ∈ props', e.1.textSpelling = e'.1.textSpelling →
      e.2.hash = e'.2.hash → Demand.SameProperty e e' :=
    fun e he e' he' htext hhash =>
      ⟨h.faithful.key _ _ hleft hright _ (hentry he) _ (hentry he') htext,
        h.alike _ (hpart e he) _ (hpart' e' he') hhash⟩
  have hanswers := fun e he => (h.compiled _ (hpart e he)).answers
  have hanswers' := fun e he => (h.compiled' _ (hpart' e he)).answers
  have hshown : ∀ e ∈ props, e.1.hasDisplay = true := fun e he =>
    h.proper.legible.shown _ (by rw [hd]; exact List.mem_map_of_mem he)
  have hshown' : ∀ e ∈ props', e.1.hasDisplay = true := fun e he =>
    h.proper'.legible.shown _ (by rw [hd']; exact List.mem_map_of_mem he)
  have hsame := h.tokens.text hlookup hlookup' rfl rfl
  constructor
  · intro e he
    obtain ⟨e', he', htext, hhash⟩ :=
      hsame.properties hanswers hanswers' hshown hshown' (htexts hleft) (htexts hright) e he
    exact ⟨e', he', halike e he e' he' htext hhash⟩
  · intro e' he'
    obtain ⟨e, he, htext, hhash⟩ :=
      hsame.symm.properties hanswers' hanswers hshown' hshown (htexts hright) (htexts hleft) e' he'
    exact ⟨e, he, halike e he e' he' htext.symm hhash.symm⟩

theorem acceptsObject (h : Matches ss p q) (hd : p.demand = .object allowNull clean props item)
    (hd' : q.demand = .object allowNull' clean' props' item') (v : Value) :
    Demand.acceptsObject Schema.accepts allowNull props item v
      = Demand.acceptsObject Schema.accepts allowNull' props' item' v := by
  obtain rfl := h.flag hd hd' "allow_null" (by decide) rfl rfl
  have hlookup' : q.attributes.lookup "properties" = some (.dict (Demand.entries props')) :=
    lookup_of_demand hd' (by decide) rfl
  have hapart : props'.Pairwise fun e f => Value.sameKey e.1 f.1 = false :=
    (List.pairwise_map.mp (h.faithful.apart _ (h.records' hlookup'))).imp fun hapart => hapart.1
  have hitem := h.generic (lookup_of_demand hd (by decide) rfl)
    (lookup_of_demand hd' (by decide) rfl) (by rw [hd]; exact List.subset_append_right _ _)
    (by rw [hd']; exact List.subset_append_right _ _)
  exact (h.property hd hd').acceptsObject hapart hitem allowNull v

end objects

/-- What one text demands is met by the same values. -/
theorem accepts (h : Matches ss p q) (v : Value) :
    p.accepts Schema.accepts v = q.accepts Schema.accepts v := by
  have hkind := h.tokens.kind h.proper h.proper'
  have hdemand : p.demand.accepts Schema.accepts v = q.demand.accepts Schema.accepts v := by
    cases hd : p.demand <;> cases hd' : q.demand <;> rw [hd, hd'] at hkind
    case number.number => exact h.acceptsNumber hd hd' v
    case string.string => exact h.acceptsString hd hd' v
    case function.function => exact h.acceptsFunction hd hd' v
    case array.array => exact h.acceptsArray hd hd' v
    case object.object => exact h.acceptsObject hd hd' v
    case oneOf.oneOf => exact h.acceptsOneOf hd hd' v
    all_goals first | rfl | cases hkind
  rw [Plan.accepts, Plan.accepts, h.lists v, h.listsWritable, h.validates v, hdemand]

end Plan.Matches

end Conform
