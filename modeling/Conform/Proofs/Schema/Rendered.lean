/-
# `Proofs.Schema.Rendered` — the plain form of values and schemas

Writing a value out replaces what is no plain data: tuples by lists, schemas by
dictionaries of their attributes or lists of these, callables and patterns by
texts, and an absent value by nothing.  Sets are handed on as they are, with
whatever is in them, so nothing is said of values that hold sets.  Neither is
anything said of keys, which are handed on as well.

A pattern that was compiled from bytes has no text and stays, and a schema can be
given an attribute in the place of the operation that writes it out.  Both are shown as
they are, and are left out of what follows.

Compiling adds no set: what is in the attributes of a schema besides flags,
counts, patterns, callables and the schemas of its parts, stands under the
default and among the listed values of a configuration inside.  So what has
been compiled from options without sets is written out plainly at any depth.
-/
import Conform.Schema.Rendering
import Conform.Proofs.Config.Reordered
import Conform.Proofs.Config.Steady
import Conform.Proofs.Config.Throughout
import Conform.Proofs.Schema.Kept

namespace Conform

/-! ## Plain data -/

/-- Plain data that holds nothing. -/
def Value.isPlainAtom : Value → Bool
  | .undefined | .callable _ | .pattern _ => false
  | v => v.isAtom

/-- Data made of lists, of dictionaries under any keys, and of what holds nothing and is
neither callable nor a pattern nor absent. -/
inductive Value.Plain : Value → Prop
  | atom {v : Value} : v.isPlainAtom = true → Plain v
  | list {items : List Value} : (∀ v ∈ items, Plain v) → Plain (.list items)
  | dict {entries : Entries} : (∀ e ∈ entries, Plain e.2) → Plain (.dict entries)

/-- The attributes of a schema that are written out. -/
def Instance.shown (s : Instance) : Attributes := s.attributes.filter (isPublic ·.1)

/-- The second value has the shape of the first: a list or tuple is a list of as many
items, and a dictionary is one with the same keys in the same order.  Schemas have the
shape of the dictionary of their attributes, and alternatives that of their list. -/
inductive Value.SameShape : Value → Value → Prop
  | atom {v w : Value} : v.isAtom = true → w.isAtom = true → SameShape v w
  | list {vs ws : List Value} : List.Forall₂ SameShape vs ws → SameShape (.list vs) (.list ws)
  | tuple {vs ws : List Value} : List.Forall₂ SameShape vs ws → SameShape (.tuple vs) (.list ws)
  | dict {es fs : Entries} : es.map Prod.fst = fs.map Prod.fst →
      List.Forall₂ SameShape (es.map Prod.snd) (fs.map Prod.snd) → SameShape (.dict es) (.dict fs)
  | single {s : Instance} {fs : Entries} :
      s.shown.map (fun e => .str e.1) = fs.map Prod.fst →
      List.Forall₂ SameShape (s.shown.map Prod.snd) (fs.map Prod.snd) →
      SameShape (.schema (.single s)) (.dict fs)
  | multi {members : List Instance} {ws : List Value} :
      List.Forall₂ SameShape (members.map fun s => .schema (.single s)) ws →
      SameShape (.schema (.multi members)) (.list ws)

/-- A value that holds nothing and is written out as plain data: any but a pattern
for bytes. -/
def Value.isShownAtom : Value → Bool
  | .pattern p => p.text?.isSome
  | v => v.isAtom

/-- The second value is what is written out of the first: plain data of its shape. -/
structure Value.ShownAs (v w : Value) : Prop where
  render : v.render = .ok w
  plain : w.Plain
  shape : v.SameShape w

/-- An attribute and what is written out of it, under its name. -/
structure ShownUnder (e : String × Value) (f : Value × Value) : Prop where
  name : f.1 = .str e.1
  plain : f.2.Plain
  shape : e.2.SameShape f.2

namespace Value

variable {v w type : Value} {items ws : List Value} {es fs : Entries} {attrs : Attributes}

/-! ## What is written out -/

theorem renderAll_eq (items : List Value) : renderAll items = items.mapM render := by
  induction items with
  | nil => rfl
  | cons v rest ih => rw [renderAll, ih, List.mapM_cons]

theorem renderAll_eq_ok :
    renderAll items = .ok ws ↔ List.Forall₂ (fun v w => v.render = .ok w) items ws := by
  rw [renderAll_eq, mapM_eq_ok]

theorem renderInstances_eq (members : List Instance) :
    Instance.renderAll members = members.mapM Instance.render := by
  induction members with
  | nil => rfl
  | cons s rest ih => rw [Instance.renderAll, ih, List.mapM_cons]

theorem renderEntries_ok
    (h : List.Forall₂ (fun e f => f.1 = e.1 ∧ e.2.render = .ok f.2) es fs) :
    renderEntries es = .ok fs := by
  induction h with
  | nil => rfl
  | @cons e f _ _ hentry _ ih =>
      obtain ⟨key, v⟩ := e
      obtain ⟨_, w⟩ := f
      obtain ⟨rfl, hw⟩ := hentry
      rw [renderEntries, hw, ih]
      rfl

theorem renderAttributes_ok
    (h : List.Forall₂ (fun e f => f.1 = .str e.1 ∧ e.2.render = .ok f.2)
      (attrs.filter (isPublic ·.1)) fs) : renderAttributes attrs = .ok fs := by
  induction attrs generalizing fs with
  | nil =>
      cases h
      rfl
  | cons e rest ih =>
      obtain ⟨name, v⟩ := e
      rw [List.filter_cons] at h
      rw [renderAttributes]
      split at h
      · rename_i hpublic
        rw [if_pos hpublic]
        cases h with
        | @cons _ f _ _ hentry hrest =>
            obtain ⟨_, w⟩ := f
            obtain ⟨rfl, hw⟩ := hentry
            rw [hw, ih hrest]
            rfl
      · rename_i hprivate
        rw [if_neg hprivate, ih h]

/-- A text is plain data. -/
theorem isPlainAtom_of_text (h : v.text?.isSome = true) : v.isPlainAtom = true := by
  cases v <;> first | rfl | cases h

theorem isAtom_of_isPlainAtom (h : v.isPlainAtom = true) : v.isAtom = true := by
  cases v <;> first | rfl | cases h

theorem isAtom_of_isShownAtom (h : v.isShownAtom = true) : v.isAtom = true := by
  cases v <;> first | rfl | cases h

theorem render_of_isPlainAtom (h : v.isPlainAtom = true) : v.render = .ok v := by
  cases v <;> first | rfl | cases h

/-- Plain data is written out as it is. -/
theorem Plain.render (h : v.Plain) : v.render = .ok v := by
  induction h with
  | atom h => exact render_of_isPlainAtom h
  | list _ ih =>
      rw [Value.render, renderAll_eq_ok.mpr (List.forall₂_same.mpr ih)]
      rfl
  | dict _ ih =>
      rw [Value.render, renderEntries_ok (List.forall₂_same.mpr fun e he => ⟨rfl, ih e he⟩)]
      rfl

namespace ShownAs

theorem of_isShownAtom (h : v.isShownAtom = true) : ∃ w, v.ShownAs w := by
  have hatom := isAtom_of_isShownAtom h
  obtain ⟨w, hw, hplain⟩ : ∃ w, v.render = .ok w ∧ w.isPlainAtom = true := by
    cases v with
    | pattern p =>
        obtain ⟨s, hs⟩ := Option.isSome_iff_exists.mp h
        exact ⟨.str s, by rw [Value.render, Pattern.shown, hs]; rfl, rfl⟩
    | list | tuple | set | frozenset | dict | schema => cases h
    | _ => exact ⟨_, rfl, rfl⟩
  exact ⟨w, hw, .atom hplain, .atom hatom (isAtom_of_isPlainAtom hplain)⟩

theorem list (h : List.Forall₂ ShownAs items ws) : (Value.list items).ShownAs (.list ws) where
  render := by
    rw [Value.render, renderAll_eq_ok.mpr (h.imp fun _ _ hvw => hvw.render)]
    rfl
  plain := .list fun w hw => by
    obtain ⟨v, -, hvw⟩ := forall₂_mem_right h hw
    exact hvw.plain
  shape := .list (h.imp fun _ _ hvw => hvw.shape)

theorem tuple (h : List.Forall₂ ShownAs items ws) : (Value.tuple items).ShownAs (.list ws) where
  render := by
    rw [Value.render, renderAll_eq_ok.mpr (h.imp fun _ _ hvw => hvw.render)]
    rfl
  plain := (list h).plain
  shape := .tuple (h.imp fun _ _ hvw => hvw.shape)

theorem dict (h : List.Forall₂ (fun e f => f.1 = e.1 ∧ e.2.ShownAs f.2) es fs) :
    (Value.dict es).ShownAs (.dict fs) where
  render := by
    rw [Value.render, renderEntries_ok (h.imp fun _ _ hef => ⟨hef.1, hef.2.render⟩)]
    rfl
  plain := .dict fun f hf => by
    obtain ⟨e, -, -, hef⟩ := forall₂_mem_right h hf
    exact hef.plain
  shape := by
    refine .dict (map_eq_of_forall₂ h fun _ _ hef => hef.1.symm) ?_
    rw [List.forall₂_map_left_iff, List.forall₂_map_right_iff]
    exact h.imp fun _ _ hef => hef.2.shape

theorem multi {members : List Instance}
    (h : List.Forall₂ (fun s w => s.writesOut = true ∧ (schema (.single s)).ShownAs w) members ws) :
    (schema (.multi members)).ShownAs (.list ws) where
  render := by
    have hmembers : Instance.renderAll members = .ok ws := by
      rw [renderInstances_eq, mapM_eq_ok]
      refine h.imp fun s w => ?_
      rintro ⟨hwrites, hshown⟩
      have hrender := hshown.render
      rwa [Value.render, Schema.render, if_pos hwrites] at hrender
    rw [Value.render, Schema.render, hmembers]
    rfl
  plain := .list fun w hw => by
    obtain ⟨s, -, -, hsw⟩ := forall₂_mem_right h hw
    exact hsw.plain
  shape := .multi (List.forall₂_map_left_iff.mpr (h.imp fun _ _ hsw => hsw.2.shape))

end ShownAs

/-- The type is written out as a text, unless it is one. -/
theorem shownType_cases (controller : String) (type : Value) :
    (∃ w : Value, w.text?.isSome = true ∧ shownType controller (some type) = some w) ∨
      type.text?.isSome = true ∧ shownType controller (some type) = .none := by
  unfold shownType
  split
  · exact .inl ⟨_, rfl, rfl⟩
  · rename_i v heq
    obtain rfl := Option.some.inj heq
    split
    · exact .inr ⟨‹_›, rfl⟩
    · exact .inl ⟨_, rfl, rfl⟩
  · exact .inl ⟨_, rfl, rfl⟩

/-- In the place of an attribute without parts, other plain data may stand. -/
theorem put_shown {name : String} (h : List.Forall₂ ShownUnder attrs fs)
    (hmem : name ∈ attrs.map Prod.fst) (hatom : ∀ e ∈ attrs, e.1 = name → e.2.isAtom = true)
    (hw : w.isPlainAtom = true) : List.Forall₂ ShownUnder attrs (fs.put (.str name) w) := by
  induction h with
  | nil => cases hmem
  | @cons e f rest fs hef hrest ih =>
      obtain ⟨hhead, htail⟩ := List.forall_mem_cons.mp hatom
      obtain ⟨key, u⟩ := f
      obtain rfl : key = .str e.1 := hef.name
      rw [Entries.put]
      by_cases hname : e.1 = name
      · rw [if_pos (sameKey_str.mpr hname)]
        exact .cons ⟨rfl, .atom hw, .atom (hhead hname) (isAtom_of_isPlainAtom hw)⟩ hrest
      · have hmem : name ∈ rest.map Prod.fst :=
          (List.mem_cons.mp hmem).resolve_left fun heq => hname heq.symm
        rw [sameKey_str_ne hname, if_neg Bool.false_ne_true]
        exact .cons hef (ih hmem htail)

/-- A schema is written out as its attributes, with a text in place of the type. -/
theorem ShownAs.single {s : Instance} (hnames : (s.attributes.map Prod.fst).Nodup)
    (hmem : ("type", type) ∈ s.attributes) (htype : type.isAtom = true)
    (hintact : s.attributes.lookup "to_json" = .none)
    (h : ∀ e ∈ s.shown, ∃ w, e.2.ShownAs w) : ∃ w, (schema (.single s)).ShownAs w := by
  obtain ⟨chain, attributes, hash⟩ := s
  have hlookup : attributes.lookup "type" = some type :=
    (Attributes.lookup_iff hnames).mpr hmem
  have hshown : ("type", type) ∈ attributes.filter (isPublic ·.1) :=
    List.mem_filter.mpr ⟨hmem, (by decide : isPublic "type" = true)⟩
  obtain ⟨fs, hfs⟩ : ∃ fs : Entries, List.Forall₂
      (fun e f => f.1 = .str e.1 ∧ e.2.ShownAs f.2) (attributes.filter (isPublic ·.1)) fs :=
    exists_forall₂ fun e he => (h e he).imp' (fun w => (.str e.1, w)) fun w hw => ⟨rfl, hw⟩
  have hentries : renderAttributes attributes = .ok fs :=
    renderAttributes_ok (hfs.imp fun _ _ hef => ⟨hef.1, hef.2.render⟩)
  have hunder : List.Forall₂ ShownUnder (attributes.filter (isPublic ·.1)) fs :=
    hfs.imp fun _ _ hef => ⟨hef.1, hef.2.plain, hef.2.shape⟩
  obtain ⟨gs, hgs, hunder⟩ : ∃ gs,
      withType fs (shownType ((chain.getLast?.map Layer.name).getD "") (some type)) = gs ∧
        List.Forall₂ ShownUnder (attributes.filter (isPublic ·.1)) gs := by
    rcases shownType_cases ((chain.getLast?.map Layer.name).getD "") type with
      ⟨w, hw, heq⟩ | ⟨-, heq⟩
    · refine ⟨_, by rw [heq]; rfl, put_shown hunder (List.mem_map_of_mem hshown) ?_
        (isPlainAtom_of_text hw)⟩
      intro e he hname
      obtain rfl := List.inj_on_of_nodup_map hnames (List.mem_of_mem_filter he) hmem hname
      exact htype
    · exact ⟨fs, by rw [heq]; rfl, hunder⟩
  refine ⟨.dict gs, ?_, .dict fun f hf => ?_, .single (map_eq_of_forall₂ hunder fun _ _ hef =>
    hef.name.symm) ?_⟩
  · have hwrites : Instance.writesOut ⟨chain, attributes, hash⟩ = true := by
      rw [Instance.writesOut, hintact]
    rw [Value.render, Schema.render, if_pos hwrites, Instance.render, hintact]
    simp only [hlookup, hentries, hgs, ok_bind, pure_eq]
  · obtain ⟨e, -, hef⟩ := forall₂_mem_right hunder hf
    exact hef.plain
  · rw [List.forall₂_map_left_iff, List.forall₂_map_right_iff]
    exact hunder.imp fun _ _ hef => hef.shape

/-- Values of which it is known how they are written out: no sets and no patterns for
bytes, and of schemas the attributes, each name once, an atom for the type and none in
the place of the operation that writes them out. -/
inductive Showable : Value → Prop
  | atom {v : Value} : v.isShownAtom = true → Showable v
  | list {items : List Value} : (∀ v ∈ items, Showable v) → Showable (.list items)
  | tuple {items : List Value} : (∀ v ∈ items, Showable v) → Showable (.tuple items)
  | dict {entries : Entries} : (∀ e ∈ entries, Showable e.2) → Showable (.dict entries)
  | single {s : Instance} {type : Value} : (s.attributes.map Prod.fst).Nodup →
      ("type", type) ∈ s.attributes → type.isAtom = true →
      s.attributes.lookup "to_json" = .none → (∀ e ∈ s.attributes, Showable e.2) →
      Showable (.schema (.single s))
  | multi {members : List Instance} : (∀ s ∈ members, Showable (.schema (.single s))) →
      Showable (.schema (.multi members))

theorem Showable.writesOut {s : Instance} (h : (schema (.single s)).Showable) :
    s.writesOut = true := by
  cases h with
  | atom h => cases h
  | single _ _ _ hintact => rw [Instance.writesOut, hintact]

theorem Showable.shown (h : v.Showable) : ∃ w, v.ShownAs w := by
  induction h with
  | atom h => exact ShownAs.of_isShownAtom h
  | list _ ih =>
      obtain ⟨ws, hws⟩ := exists_forall₂ ih
      exact ⟨_, .list hws⟩
  | tuple _ ih =>
      obtain ⟨ws, hws⟩ := exists_forall₂ ih
      exact ⟨_, .tuple hws⟩
  | @dict es _ ih =>
      obtain ⟨fs, hfs⟩ : ∃ fs : Entries,
          List.Forall₂ (fun e f => f.1 = e.1 ∧ e.2.ShownAs f.2) es fs :=
        exists_forall₂ fun e he => (ih e he).imp' (fun w => (e.1, w)) fun w hw => ⟨rfl, hw⟩
      exact ⟨_, .dict hfs⟩
  | single hnames hmem htype hintact _ ih =>
      exact ShownAs.single hnames hmem htype hintact fun e he => ih e (List.mem_of_mem_filter he)
  | multi hmembers ih =>
      obtain ⟨ws, hws⟩ := exists_forall₂ fun s hs =>
        (ih s hs).imp fun w hw => And.intro (hmembers s hs).writesOut hw
      exact ⟨_, .multi hws⟩

theorem showable_dict_iff {es : Entries} :
    (dict es).Showable ↔ ∀ e ∈ es, e.2.Showable := by
  constructor
  · intro h
    cases h with
    | atom h => cases h
    | dict h => exact h
  · exact .dict

/-- What is listed in a value without sets is without sets. -/
theorem Showable.listed (h : v.Showable) (hitems : v.listed? = some items) :
    ∀ w ∈ items, w.Showable := by
  cases h with
  | atom h => cases v <;> first | (cases hitems; done) | cases h
  | list h => exact Option.some.inj hitems ▸ h
  | tuple h => exact Option.some.inj hitems ▸ h
  | _ => cases hitems

theorem passedOn_showable : PassedOn Showable where
  none := .atom rfl
  empty := .dict (List.forall_mem_nil _)
  listed := Showable.listed
  entry h := showable_dict_iff.mp h
  update es fs hes hfs := by
    have hes := showable_dict_iff.mp hes
    have hfs := showable_dict_iff.mp hfs
    have hupdate : ∀ e ∈ es.update fs, True ∧ e.2.Showable :=
      Entries.forall_update (P := fun _ => True) (Q := Showable)
        (fun e he => ⟨trivial, hes e he⟩) fun e he => ⟨trivial, hfs e he⟩
    exact .dict fun e he => (hupdate e he).2
  erase es key h := .dict fun e he => showable_dict_iff.mp h e (List.mem_of_mem_filter he)

end Value

/-! ## Schemas that have been compiled -/

section compiled

variable {p : Plan} {config : Entries} {required : Option Bool}

theorem showable_optional {α : Type} {f : α → Value} {x : Option α}
    (h : ∀ a, x = some a → (f a).Showable) : (optional f x).Showable := by
  cases x with
  | none => exact .atom rfl
  | some a => exact h a rfl

theorem showable_default (h : p.ReadFrom config required) (hconfig : (Value.dict config).Showable) :
    p.default.Showable := by
  cases hdefault : p.hasDefault with
  | true => exact Value.passedOn_showable.get? hconfig (h.default hdefault)
  | false =>
      rw [h.proper.default hdefault]
      exact .atom rfl

theorem showable_enum (h : p.ReadFrom config required) (hconfig : (Value.dict config).Showable) :
    (optional Value.tuple p.enum).Showable := by
  refine showable_optional fun kept hkept => .tuple fun v hv => ?_
  rw [h.enum] at hkept
  obtain ⟨items, hitems, rfl⟩ := Option.map_eq_some_iff.mp hkept
  obtain ⟨listed, hlisted, hitems⟩ := Option.bind_eq_some_iff.mp hitems
  have hlisted := Value.passedOn_showable.get? hconfig hlisted
  exact hlisted.listed hitems v (Value.mem_of_dedupeStrict hv)

theorem Value.isShownAtom_of_isReal {v : Value} (h : v.isReal = true) : v.isShownAtom = true := by
  cases v <;> first | rfl | cases h

theorem Value.isShownAtom_of_isInteger {v : Value} (h : v.isInteger = true) :
    v.isShownAtom = true := by
  cases v <;> first | rfl | cases h

/-- No alias of this library is a pattern. -/
theorem Registry.isShownAtom_of_alias {c : BuiltinController} {a type : Value}
    (hc : c ∈ builtinControllers) (ha : a ∈ c.aliases) (hsame : Value.sameKey a type = true) :
    type.isShownAtom = true := by
  have hforms : ∀ c ∈ builtinControllers, ∀ a ∈ c.aliases, a.isAlias = true := by decide
  have halias := hforms c hc a ha
  have hatom := isAtom_of_alias hc ha hsame
  cases type with
  | pattern q =>
      unfold Value.isAlias at halias
      split at halias <;> first | exact absurd hsame Bool.false_ne_true | cases halias
  | _ => exact hatom

theorem showable_demand {d : Demand} (hd : d.Proper) (hl : d.Legible)
    (hparts : ∀ t ∈ d.parts, (Value.schema t).Showable) :
    ∀ e ∈ d.attributes, e.2.Showable := by
  cases d with
  | typed | boolean | symbol => exact List.forall_mem_nil _
  | number exclusiveMax exclusiveMin integer most least =>
      simp only [Demand.attributes, List.forall_mem_cons]
      exact ⟨.atom rfl, .atom rfl, .atom rfl,
        showable_optional fun b hb => .atom (Value.isShownAtom_of_isReal (hd.1 b hb)),
        showable_optional fun b hb => .atom (Value.isShownAtom_of_isReal (hd.2 b hb)),
        List.forall_mem_nil _⟩
  | string most least pattern =>
      simp only [Demand.attributes, List.forall_mem_cons]
      exact ⟨showable_optional fun _ _ => .atom rfl, .atom rfl,
        showable_optional fun q hq => .atom (Option.isSome_iff_exists.mpr (hl.pattern q hq)),
        List.forall_mem_nil _⟩
  | function most least named =>
      simp only [Demand.attributes, List.forall_mem_cons]
      exact ⟨showable_optional fun b hb => .atom (Value.isShownAtom_of_isInteger (hd.1 b hb)),
        .atom (Value.isShownAtom_of_isInteger hd.2), .atom rfl, List.forall_mem_nil _⟩
  | array most least item unique =>
      simp only [Demand.attributes, List.forall_mem_cons]
      exact ⟨showable_optional fun _ _ => .atom rfl, .atom rfl,
        showable_optional fun t ht => hparts t (Option.mem_toList.mpr ht), .atom rfl,
        List.forall_mem_nil _⟩
  | object allowNull clean properties generic =>
      rw [Demand.parts, List.forall_mem_append, List.forall_mem_map] at hparts
      simp only [Demand.attributes, List.forall_mem_cons]
      exact ⟨.atom rfl, .atom rfl, .dict (List.forall_mem_map.mpr hparts.1),
        showable_optional fun t ht => hparts.2 t (Option.mem_toList.mpr ht), List.forall_mem_nil _⟩
  | oneOf variants =>
      exact List.forall_mem_singleton.mpr (.tuple (List.forall_mem_map.mpr hparts))

/-- A schema that was read from a configuration without sets, if its parts are
without sets. -/
theorem showable_plan (h : p.ReadFrom config required) (hconfig : (Value.dict config).Showable)
    (hparts : ∀ t ∈ p.demand.parts, (Value.schema t).Showable) (hash : String) :
    (Value.schema (.single (p.toInstance hash))).Showable := by
  obtain ⟨c, hc, -, a, ha, hsame⟩ := h.proper.type
  have htype : p.type.isShownAtom = true := Registry.isShownAtom_of_alias hc ha hsame
  have hcommon : ∀ e ∈ p.common, e.2.Showable := by
    simp only [Plan.common, List.forall_mem_cons]
    exact ⟨showable_default h hconfig, showable_enum h hconfig, .atom rfl,
      showable_optional fun _ _ => .atom rfl, .atom htype, showable_optional fun _ _ => .atom rfl,
      List.forall_mem_nil _⟩
  have hadded : ∀ e ∈ p.added, e.2.Showable := List.forall_mem_map.mpr fun _ _ => .atom rfl
  have hmem : ("type", p.type) ∈ p.attributes := by simp [Plan.attributes, Plan.common]
  have hintact : p.attributes.lookup "to_json" = none :=
    p.lookup_eq_none (by decide)
  refine .single p.names_nodup hmem (Value.isAtom_of_isShownAtom htype) hintact ?_
  exact List.forall_mem_append.mpr ⟨List.forall_mem_append.mpr
    ⟨hcommon, showable_demand h.proper.demand h.proper.legible hparts⟩, hadded⟩

/-- Each schema inside was read from a configuration inside, and so is written out as
what stands there; by induction over the schemas. -/
theorem showable_of_makes {c : Value} (hc : c.Showable) {s : Schema} (hs : s.Compiled)
    (hmakes : ∀ t, s.Inside (.single t) → c.Makes t) : (Value.schema s).Showable := by
  induction hs with
  | single p hash _ _ _ ih =>
      obtain ⟨config, required, hnested, hcompile⟩ := hmakes _ .self
      obtain ⟨q, hash', heq, hread, -⟩ := plan_of_compile hcompile
      -- the plan that was read need not be `p`, but its schemas are those of `p`
      have heq := Schema.single.inj heq
      have hparts : p.demand.parts = q.demand.parts := by
        rw [← p.parts_toInstance hash, heq, q.parts_toInstance]
      rw [heq]
      refine showable_plan hread (Value.passedOn_showable.nested hnested hc) (fun t ht => ?_) hash'
      rw [← hparts] at ht
      refine ih t ht fun u hu => hmakes u ?_
      exact .trans (.part .self (by rwa [p.parts_toInstance hash])) hu
  | multi members _ ih =>
      exact .multi fun s hs => ih s hs fun u hu => hmakes u (.trans (.member .self hs) hu)

/-- Compiling adds no sets. -/
theorem showable_of_compile {c : Value} {s : Schema} (hc : c.Showable)
    (hs : Registry.builtin.compile c .none = .ok s) : (Value.schema s).Showable :=
  showable_of_makes hc (compiled_of_compile hs) fun t ht =>
    makes_inside hs ht t (List.mem_singleton.mpr rfl)

end compiled

/-! ## Introspection -/

/-- Values made of what holds nothing, but for patterns for bytes, and of schemas by
lists, tuples and dictionaries; the schemas have been compiled from such values. -/
inductive Value.Inspectable : Value → Prop
  | atom {v : Value} : v.isShownAtom = true → Inspectable v
  | list {items : List Value} : (∀ v ∈ items, Inspectable v) → Inspectable (.list items)
  | tuple {items : List Value} : (∀ v ∈ items, Inspectable v) → Inspectable (.tuple items)
  | dict {entries : Entries} : (∀ e ∈ entries, Inspectable e.2) → Inspectable (.dict entries)
  | schema {c : Value} {s : Schema} : Inspectable c → Registry.builtin.compile c .none = .ok s →
      Inspectable (.schema s)

theorem Value.Inspectable.showable {v : Value} (h : v.Inspectable) : v.Showable := by
  induction h with
  | atom h => exact .atom h
  | list _ ih => exact .list ih
  | tuple _ ih => exact .tuple ih
  | dict _ ih => exact .dict ih
  | schema _ hs ih => exact showable_of_compile ih hs

/-- A schema is written out by its own operation. -/
theorem Value.Showable.rendered {s : Schema} (h : (Value.schema s).Showable) :
    s.rendered = (Value.schema s).render := by
  cases s with
  | single t => rw [Schema.rendered, Value.render, Schema.render, if_pos h.writesOut]
  | multi members => rfl

/-- **What is shown of a value is plain data of its shape, and is shown as it is.**  At
any depth, and inside of schemas as well, nothing but keys is a schema, a tuple, callable,
a pattern or absent; lists and tuples are lists of as many items, and dictionaries keep
their keys in order. -/
theorem render_plain {v : Value} (h : v.Inspectable) :
    ∃ w, v.render = .ok w ∧ w.Plain ∧ v.SameShape w ∧ w.render = .ok w ∧
      ∀ s, v = .schema s → s.rendered = .ok w := by
  obtain ⟨w, hrender, hplain, hshape⟩ := h.showable.shown
  refine ⟨w, hrender, hplain, hshape, hplain.render, ?_⟩
  rintro s rfl
  exact h.showable.rendered.trans hrender

/-- A schema of two alternatives, one of them with a list of values and the other with a
callable, next to an absent value. -/
theorem render_plain_choice :
    ∃ s, Registry.builtin.compile (.dict choiceOptions) .none = .ok s ∧
      (Value.tuple [.undefined, .schema s]).Inspectable ∧
      ∃ w, (Value.tuple [.undefined, .schema s]).render = .ok w ∧ w.Plain ∧
        (Value.tuple [.undefined, .schema s]).SameShape w ∧ w.render = .ok w := by
  obtain ⟨hash, hash', hash'', -, -, hs⟩ := compile_choice
  have hlisted : (Value.dict enumOptions).Inspectable := by
    refine .dict (List.forall_mem_singleton.mpr (.list (List.forall_mem_singleton.mpr ?_)))
    exact .list (List.forall_mem_singleton.mpr (.atom rfl))
  have hvalidated : (Value.dict absOptions).Inspectable :=
    .dict (List.forall_mem_singleton.mpr (.atom rfl))
  have hconfig : (Value.dict choiceOptions).Inspectable := by
    refine .dict (List.forall_mem_cons.mpr ⟨.atom rfl, List.forall_mem_singleton.mpr ?_⟩)
    exact .list (List.forall_mem_cons.mpr ⟨hlisted, List.forall_mem_singleton.mpr hvalidated⟩)
  have hpair := Value.Inspectable.tuple (List.forall_mem_cons.mpr
    ⟨.atom (rfl : Value.undefined.isShownAtom = true),
      List.forall_mem_singleton.mpr (.schema hconfig hs)⟩)
  obtain ⟨w, hrender, hplain, hshape, hagain, -⟩ := render_plain hpair
  exact ⟨_, hs, hpair, w, hrender, hplain, hshape, hagain⟩

/-- An attribute in the place of the operation that writes a schema out. -/
def blockingEntries : Entries := [(.str "to_json", .str "x")]

def blockedAttributes : Attributes :=
  (Plan.plain (.str "typed") .typed none).attributes ++ [("to_json", .str "x")]

theorem compile_blocked : ∃ hash, Registry.builtin.compile (.dict []) (.dict blockingEntries)
    = .ok (.single ⟨Kind.typed.chain, blockedAttributes, hash⟩) := by
  obtain ⟨hash, hhash⟩ : ∃ hash, blockedAttributes.hash = .ok hash :=
    Attributes.hash_of_digestible (List.all_eq_true.mp rfl)
  have hsingle : (compileSingle (compile .builtin) .builtin (.dict []) (.dict blockingEntries)).result
      = .ok ⟨Kind.typed.chain, blockedAttributes, hash⟩ := by
    show (liftM (finishInstance _ Kind.typed.chain blockedAttributes) : Outcome _) = _
    rw [finishInstance, hhash]
    rfl
  refine ⟨hash, ?_⟩
  show (compile .builtin (.dict []) (.dict blockingEntries)).result = _
  rw [compile_eq]
  show (compileSingle _ _ _ _ >>= fun s => pure (Schema.single s)).result = _
  rw [Build.result_bind, hsingle]
  rfl

/-- A pattern for bytes is shown as it is, and so is a schema with something in the
place of that operation. -/
theorem render_not_plain :
    (Value.pattern ⟨.bytes [97] false, .plain, .char 97⟩).render
        = .ok (.pattern ⟨.bytes [97] false, .plain, .char 97⟩) ∧
      ∃ s, Registry.builtin.compile (.dict []) (.dict blockingEntries) = .ok s ∧
        (Value.schema s).render = .ok (.schema s) := by
  refine ⟨rfl, ?_⟩
  obtain ⟨hash, hs⟩ := compile_blocked
  exact ⟨_, hs, rfl⟩

end Conform
