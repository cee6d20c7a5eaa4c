/-
# `Proofs.Digest.Outline` — the tree that a token writes down

The token of a value is the text of a tree.  `Value.outline` gives the tree,
for whatever has one; since the text determines the tree, values with equal
tokens have equal outlines, and these can be taken apart node by node.
-/
import Conform.Digest.Attributes
import Conform.Value.Class
import Conform.Proofs.Outcome
import Conform.Proofs.Digest.Word
import Conform.Proofs.Value.Written

namespace Conform

namespace StableText

/-- The tree of an integer, if it can be written. -/
def intTree (n : Int) : Except Fault Tree :=
  if Number.isWritable n then .ok (.word (.ofText (toString n) (Word.spells_int n)))
  else .error .badValue

theorem intTree_ok {n : Int} (h : Number.isWritable n = true) :
    intTree n = .ok (.word (.ofText (toString n) (Word.spells_int n))) := if_pos h

/-- The tree of a value without parts. -/
def atomTree : Value → Except Fault Tree
  | .none => .ok (.word (.ofText "null" (by decide)))
  | .bool b => .ok (.word (.ofText (if b then "true" else "false") (by cases b <;> decide)))
  | .int n | .member ⟨_, _, .number n⟩ => intTree n
  | .float x | .scalar (.float64 x) => .ok (.word (.ofText (ofFloat x) (Word.spells_float x)))
  | .str s | .member ⟨_, _, .text s⟩ => .ok (.text s)
  | _ => .error .typeMismatch

/-- A key without its quotes. -/
def keyName (k : Value) : Except Fault String :=
  match k.text? with
  | some s => .ok s
  | none => ofAtom k

/-- An object from its keys and what the trees of their values come to. -/
def objectTree (entries : List (Value × Except Fault Tree)) : Except Fault Tree := do
  if comparable (entries.map (·.1)) then
    let sorted := entries.mergeSort fun a b => keyBelow a.1 b.1
    return .object (← sorted.mapM fun (k, t) => return (← keyName k, ← t))
  else throw .typeMismatch

mutual

/-- The tree of plain data. -/
def tree : Value → Except Fault Tree
  | .list items | .tuple items => do return .list (← itemTrees items)
  | .dict entries => objectTree (entryTrees entries)
  | v => atomTree v
termination_by structural v => v

def itemTrees : List Value → Except Fault (List Tree)
  | [] => .ok []
  | v :: rest => do return (← tree v) :: (← itemTrees rest)
termination_by structural vs => vs

def entryTrees : List (Value × Value) → List (Value × Except Fault Tree)
  | [] => []
  | (k, v) :: rest => (k, tree v) :: entryTrees rest
termination_by structural es => es

end

theorem itemTrees_eq (cs : List Value) : itemTrees cs = cs.mapM tree := by
  induction cs with
  | nil => rfl
  | cons c rest ih => rw [itemTrees, ih, List.mapM_cons]

theorem entryTrees_eq (cs : Entries) : entryTrees cs = cs.map fun c => (c.1, tree c.2) := by
  induction cs with
  | nil => rfl
  | cons c rest ih => rw [entryTrees, ih, List.map_cons]

/-! ## The text of a tree -/

theorem render_word {s : String} (h : Word.Spells s) : (Tree.word (.ofText s h)).render = s :=
  String.ofList_toList

theorem text_eq (n : Int) : Number.text n = Tree.render <$> intTree n := by
  unfold Number.text intTree written
  split
  · exact congrArg Except.ok (render_word (Word.spells_int n)).symm
  · rfl

theorem ofAtom_eq (v : Value) : ofAtom v = Tree.render <$> atomTree v := by
  have word : ∀ {s : String} (h : Word.Spells s),
      (Except.ok s : Except Fault String) = Tree.render <$> .ok (.word (.ofText s h)) :=
    fun h => congrArg Except.ok (render_word h).symm
  cases v with
  | none => exact word _
  | bool b => exact word _
  | int n => exact text_eq n
  | float x => exact word _
  | member m =>
      obtain ⟨family, name, content⟩ := m
      cases content with
      | plain n => rfl
      | number n => exact text_eq n
      | text s => rfl
  | scalar s =>
      cases s with
      | float64 x => exact word _
      | _ => rfl
  | _ => rfl

theorem ofKey_eq (k : Value) : ofKey k = quote <$> keyName k := by
  unfold ofKey keyName
  cases k.text? with
  | some s => rfl
  | none => rfl

/-- Texts with commas between them. -/
theorem toList_intercalate (texts : List String) :
    (",".intercalate texts).toList = (texts.flatMap fun s => ',' :: s.toList).drop 1 := by
  rw [String.toList_intercalate]
  induction texts with
  | nil => rfl
  | cons s rest ih =>
      cases rest with
      | nil => simp
      | cons t rest => simpa using ih

theorem charsItems_eq (ts : List Tree) :
    Tree.charsItems ts = (ts.map Tree.render).flatMap fun s => ',' :: s.toList := by
  induction ts with
  | nil => rfl
  | cons t ts ih =>
      rw [Tree.charsItems, ih, List.map_cons, List.flatMap_cons, Tree.render, String.toList_ofList]
      rfl

/-- An entry as it is written. -/
def entryText (e : String × Tree) : String := quote e.1 ++ ":" ++ e.2.render

theorem charsEntries_eq (es : List (String × Tree)) :
    Tree.charsEntries es = (es.map entryText).flatMap fun s => ',' :: s.toList := by
  induction es with
  | nil => rfl
  | cons e es ih =>
      obtain ⟨k, t⟩ := e
      rw [Tree.charsEntries, ih, List.map_cons, List.flatMap_cons]
      simp [entryText, Tree.render, quote, quotedChars]

theorem render_list (ts : List Tree) :
    "[" ++ ",".intercalate (ts.map Tree.render) ++ "]" = (Tree.list ts).render := by
  apply String.toList_inj.mp
  show _ = (String.ofList (Tree.list ts).chars).toList
  rw [String.toList_ofList, Tree.chars, charsItems_eq, String.toList_append, String.toList_append,
    toList_intercalate]
  rfl

theorem render_object (es : List (String × Tree)) :
    "\x7b" ++ ",".intercalate (es.map entryText) ++ "\x7d" = (Tree.object es).render := by
  apply String.toList_inj.mp
  show _ = (String.ofList (Tree.object es).chars).toList
  rw [String.toList_ofList, Tree.chars, charsEntries_eq, String.toList_append,
    String.toList_append, toList_intercalate]
  rfl

theorem mapM_parts :
    ∀ es : List (Value × Except Fault Tree),
      (es.map fun e => (e.1, Tree.render <$> e.2)).mapM
          (fun e => do return (← ofKey e.1) ++ ":" ++ (← e.2) : _ → Except Fault String)
        = List.map entryText <$> es.mapM fun e => do return (← keyName e.1, ← e.2)
  | [] => rfl
  | (k, t) :: rest => by
      rw [List.map_cons, List.mapM_cons, List.mapM_cons, mapM_parts rest, ofKey_eq]
      cases keyName k with
      | error e => rfl
      | ok name =>
          cases t with
          | error e => rfl
          | ok t =>
              cases rest.mapM
                  fun e => (do return (← keyName e.1, ← e.2) : Except Fault (String × Tree)) with
              | error e => rfl
              | ok parts => rfl

theorem object_eq (es : List (Value × Except Fault Tree)) :
    object (es.map fun e => (e.1, Tree.render <$> e.2)) = Tree.render <$> objectTree es := by
  have hkeys : (es.map fun e => (e.1, Tree.render <$> e.2)).map (·.1) = es.map (·.1) := by
    rw [List.map_map]
    rfl
  have hsorted : (es.map fun e => (e.1, Tree.render <$> e.2)).mergeSort
        (fun a b => keyBelow a.1 b.1)
      = (es.mergeSort fun a b => keyBelow a.1 b.1).map fun e => (e.1, Tree.render <$> e.2) :=
    (List.map_mergeSort (f := fun e : Value × Except Fault Tree => (e.1, Tree.render <$> e.2))
      (r := fun a b => keyBelow a.1 b.1) fun _ _ _ _ => rfl).symm
  unfold object objectTree
  rw [hkeys]
  split
  · dsimp only
    rw [hsorted]
    have hparts := mapM_parts (es.mergeSort fun a b => keyBelow a.1 b.1)
    refine (congrArg (· >>= fun parts => pure ("\x7b" ++ ",".intercalate parts ++ "\x7d"))
      hparts).trans ?_
    cases (es.mergeSort fun a b => keyBelow a.1 b.1).mapM
        fun e => (do return (← keyName e.1, ← e.2) : Except Fault (String × Tree)) with
    | error e => rfl
    | ok parts => exact congrArg Except.ok (render_object parts)
  · rfl

/-- What is neither a sequence nor a dictionary has no parts. -/
theorem ofValue_atom {v : Value} (hlisted : v.listed? = none) (hdict : v.isDict = false) :
    ofValue v = Tree.render <$> tree v := by
  have hatom : ofValue v = ofAtom v ∧ tree v = atomTree v := by
    cases v with
    | list items => cases hlisted
    | tuple items => cases hlisted
    | dict entries => cases hdict
    | _ => exact ⟨rfl, rfl⟩
  rw [hatom.1, hatom.2, ofAtom_eq]

mutual

/-- The text of plain data is that of its tree. -/
theorem ofValue_eq : ∀ v : Value, ofValue v = Tree.render <$> tree v
  | .list items => by
      rw [ofValue, tree, ofItems_eq items]
      cases itemTrees items with
      | error e => rfl
      | ok ts => exact congrArg Except.ok (render_list ts)
  | .tuple items => by
      rw [ofValue, tree, ofItems_eq items]
      cases itemTrees items with
      | error e => rfl
      | ok ts => exact congrArg Except.ok (render_list ts)
  | .dict entries => by
      rw [ofValue, tree, ofEntries_eq entries]
      exact object_eq (entryTrees entries)
  | .none | .undefined | .bool _ | .int _ | .float _ | .str _ | .bytes _ | .set _ | .frozenset _
  | .aliasKey _ | .member _ | .pattern _ | .scalar _ | .tensor _ | .moment _ | .object _
  | .callable _ | .code _ | .schema _ => ofValue_atom rfl rfl
termination_by structural v => v

theorem ofItems_eq : ∀ vs : List Value, ofItems vs = List.map Tree.render <$> itemTrees vs
  | [] => rfl
  | v :: rest => by
      rw [ofItems, itemTrees, ofValue_eq v, ofItems_eq rest]
      cases tree v with
      | error e => rfl
      | ok t =>
          cases itemTrees rest with
          | error e => rfl
          | ok ts => rfl
termination_by structural vs => vs

theorem ofEntries_eq :
    ∀ es : List (Value × Value),
      ofEntries es = (entryTrees es).map fun e => (e.1, Tree.render <$> e.2)
  | [] => rfl
  | (k, v) :: rest => by rw [ofEntries, entryTrees, List.map_cons, ofValue_eq v, ofEntries_eq rest]
termination_by structural es => es

end

end StableText

namespace Value

/-- The tree of a value, reduced to plain data first. -/
def outline (v : Value) : Except Fault Tree := do StableText.tree (← v.canonical)

/-- Whether a value has a token of its own, which is no tree. -/
def isCallable : Value → Bool
  | .callable _ => true
  | _ => false

theorem token_eq {v : Value} (h : v.isCallable = false) : v.token = Tree.render <$> v.outline := by
  have hplain : v.token = v.canonical >>= StableText.ofValue := by
    cases v with
    | callable f => cases h
    | _ => rfl
  rw [hplain, outline]
  cases v.canonical with
  | error e => rfl
  | ok c => exact StableText.ofValue_eq c

/-- A value that is not callable has a token when it has an outline. -/
theorem token_ok {v : Value} {t : Tree} (h : v.isCallable = false) (ht : v.outline = .ok t) :
    v.token = .ok t.render := by
  rw [token_eq h, ht]
  rfl

theorem outline_of_token {v : Value} {s : String} (h : v.isCallable = false)
    (hs : v.token = .ok s) : ∃ t, v.outline = .ok t ∧ t.render = s := by
  rw [token_eq h] at hs
  exact map_eq_ok.mp hs

/-- Equal tokens write down equal trees. -/
theorem outline_eq_of_token {v w : Value} {s : String} (hv : v.isCallable = false)
    (hw : w.isCallable = false) (hvs : v.token = .ok s) (hws : w.token = .ok s) :
    ∃ t, v.outline = .ok t ∧ w.outline = .ok t := by
  obtain ⟨t, ht, hrender⟩ := outline_of_token hv hvs
  obtain ⟨u, hu, hrender'⟩ := outline_of_token hw hws
  obtain rfl := Tree.render_inj (hrender.trans hrender'.symm)
  exact ⟨t, ht, hu⟩

/-! ## Outlines of the data of schemas -/

theorem tree_tagged (name : String) (v : Value) :
    StableText.tree (tagged name v) = do return .object [(name, ← StableText.tree v)] := by
  show StableText.objectTree [(.str name, StableText.tree v)] = _
  rw [StableText.objectTree, List.mergeSort_singleton]
  cases StableText.tree v with
  | error e => rfl
  | ok t => rfl

theorem outline_undefined :
    Value.undefined.outline
      = .ok (.object [("$undefined", .word (.ofText "true" (by decide)))]) := by
  rw [outline, canonical, ok_bind, tree_tagged]
  rfl

/-- A schema is told by its digest. -/
theorem outline_schema {s : Schema} (h : s.answers = true) :
    (Value.schema s).outline = .ok (.object [("$schema", .text s.hash)]) := by
  rw [outline, canonical, ok_bind, if_pos h, tree_tagged]
  rfl

/-- A pattern for text is told by its source and its options. -/
theorem outline_pattern {p : Pattern} {s : String} (h : p.text? = some s) :
    (Value.pattern p).outline = .ok (.object [("$pattern", .text s),
      ("flags", .word (.ofText (toString (p.flags : Int)) (Word.spells_int _)))]) := by
  obtain ⟨source, mode, node⟩ := p
  cases source with
  | bytes bs locale => cases h
  | text t =>
      obtain rfl := Option.some.inj h
      have hflags : StableText.tree (.int (Pattern.mk (.text t) mode node).flags) = .ok _ :=
        StableText.intTree_ok (Pattern.isWritable_flags _)
      rw [outline, canonical, ok_bind]
      have hbelow : StableText.keyBelow (.str "$pattern") (.str "flags") = true := by decide
      have hsorted : ∀ t u : Except Fault Tree,
          [(Value.str "$pattern", t), (.str "flags", u)].mergeSort
              (fun a b => StableText.keyBelow a.1 b.1)
            = [(.str "$pattern", t), (.str "flags", u)] :=
        fun _ _ => List.mergeSort_of_pairwise (List.pairwise_pair.mpr hbelow)
      show StableText.objectTree [(.str "$pattern", .ok (.text t)), (.str "flags", _)] = _
      rw [StableText.objectTree, hsorted, hflags]
      rfl

theorem canonicalItems_eq (items : List Value) : canonicalItems items = items.mapM canonical := by
  induction items with
  | nil => rfl
  | cons v rest ih => rw [canonicalItems, ih, List.mapM_cons]

/-- The outline of a sequence has those of its items. -/
theorem outline_list {items : List Value} {t : Tree} :
    (Value.list items).outline = .ok t ↔
      ∃ ts, t = .list ts ∧ List.Forall₂ (fun v u => v.outline = .ok u) items ts := by
  have houtline : (Value.list items).outline
      = (items.mapM canonical >>= fun cs => cs.mapM StableText.tree) >>= fun ts =>
          pure (Tree.list ts) := by
    rw [outline, canonical, canonicalItems_eq]
    simp only [bind_assoc, pure_bind, StableText.tree, StableText.itemTrees_eq]
  rw [houtline, bind_eq_ok]
  simp only [mapM_mapM_eq_ok, pure_eq_ok]
  exact exists_congr fun ts => and_comm.trans (and_congr_left' eq_comm)

/-- Lists and tuples have one outline. -/
theorem outline_tuple (items : List Value) :
    (Value.tuple items).outline = (Value.list items).outline := rfl

end Value

end Conform
