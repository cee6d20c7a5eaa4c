/-
# `Proofs.Value.Deduplicated` — what strict equality keeps of a list

Strict equality is symmetric and transitive on unfixed values, and reflexive
where a second occurrence of a value can be told to be the same: not for what
is not a number, and not for callables, which are equal to no other
occurrence.  On these values it is an equivalence, and a list without its
repetitions holds one member of each of its classes, the first.  So a value is
found in the one list when it is found in the other, and an enumeration, which
keeps its list without repetitions, lets the same values through.
-/
import Conform.Proofs.Config.Steady
import Conform.Proofs.Digest.Total
import Conform.Proofs.Value.Duplicates

namespace Conform

namespace Value

/-! ## Values that can occur twice -/

/-- Whether a second occurrence of a value equals the first if what it holds does.
Elements and keys are found again as keys, which they are in every set and dictionary
that can be built. -/
def recurs : Value → Bool
  | .float x => !x.isNaN
  | .scalar _ | .tensor _ | .callable _ | .code _ | .schema _ => false
  | .set items | .frozenset items => allHashable items
  | .dict entries => entries.all (·.1.hashable)
  | _ => true

/-- Whether a value, with all that it holds, can occur twice and be found to. -/
def isRecurrent (v : Value) : Bool := v.everywhere recurs

variable {u v w : Value} {items : List Value} {entries : Entries}

theorem isRecurrent_list :
    (Value.list items).isRecurrent = true ↔ ∀ v ∈ items, v.isRecurrent = true :=
  everywhere_list.trans ⟨fun h => h.2, fun h => ⟨rfl, h⟩⟩

theorem isRecurrent_tuple :
    (Value.tuple items).isRecurrent = true ↔ ∀ v ∈ items, v.isRecurrent = true :=
  everywhere_tuple.trans ⟨fun h => h.2, fun h => ⟨rfl, h⟩⟩

theorem allHashable_iff : allHashable items = true ↔ ∀ v ∈ items, v.hashable = true := by
  induction items with
  | nil => exact iff_of_true rfl (List.forall_mem_nil _)
  | cons v rest ih => rw [allHashable, Bool.and_eq_true, ih, List.forall_mem_cons]

/-- The elements of a set are keys, and can occur twice themselves. -/
theorem isRecurrent_elements (hitems : v.elements? = some items) (h : v.isRecurrent = true) :
    ∀ w ∈ items, w.isRecurrent = true ∧ w.hashable = true := by
  intro w hw
  cases v with
  | set xs =>
      obtain rfl := Option.some.inj hitems
      obtain ⟨hkeys, heach⟩ := everywhere_set.mp h
      exact ⟨heach w hw, allHashable_iff.mp hkeys w hw⟩
  | frozenset xs =>
      obtain rfl := Option.some.inj hitems
      obtain ⟨hkeys, heach⟩ := everywhere_frozenset.mp h
      exact ⟨heach w hw, allHashable_iff.mp hkeys w hw⟩
  | _ => cases hitems

theorem isRecurrent_entry (h : (Value.dict entries).isRecurrent = true) :
    ∀ e ∈ entries, (e.1.isRecurrent = true ∧ e.1.hashable = true) ∧ e.2.isRecurrent = true := by
  intro e he
  obtain ⟨hkeys, heach⟩ := everywhere_dict.mp h
  exact ⟨⟨(heach e he).1, List.all_eq_true.mp hkeys e he⟩, (heach e he).2⟩

/-- What can occur twice has no fixed representation. -/
theorem isUnfixed_of_isRecurrent (v : Value) (h : v.isRecurrent = true) : v.isUnfixed = true := by
  refine everywhere_imp (fun w hw => ?_) v h
  cases w with
  | scalar | tensor => cases hw
  | _ => rfl

/-! ## Reflexivity -/

theorem sameKeys_self (h : ∀ v ∈ items, sameKey v v = true) : sameKeys items items = true := by
  induction items with
  | nil => rfl
  | cons v rest ih =>
      obtain ⟨hv, hrest⟩ := List.forall_mem_cons.mp h
      rw [sameKeys, hv, ih hrest]
      rfl

theorem equalAll_self (h : ∀ v ∈ items, equal v v = true) : equalAll items items = true := by
  induction items with
  | nil => rfl
  | cons v rest ih =>
      obtain ⟨hv, hrest⟩ := List.forall_mem_cons.mp h
      rw [equalAll, hv, ih hrest]
      rfl

/-- A set equals itself if its elements do. -/
theorem sameKey_elements_self (hitems : v.elements? = some items)
    (h : ∀ w ∈ items, sameKey w w = true) : sameKey v v = true :=
  (sameKey_elements hitems).mpr
    ⟨items, hitems, fun w hw => ⟨w, hw, h w hw⟩, fun w hw => ⟨w, hw, h w hw⟩⟩

/-- What denotes something equals itself. -/
theorem sameKey_of_denoted (h : v.denoted?.isSome = true) : sameKey v v = true := by
  refine sameKey_of_atomEqual ?_
  unfold atomEqual
  split
  · cases h
  · rw [h, beq_self_eq_true]
    rfl

mutual

/-- A key that can occur twice is found under itself. -/
theorem sameKey_refl :
    ∀ (v : Value), v.isRecurrent = true → v.hashable = true → sameKey v v = true := by
  intro v h hkey
  cases v with
  | tuple items =>
      have hkeys := allHashable_iff.mp hkey
      have hitems := isRecurrent_tuple.mp h
      exact sameKeys_self (sameKey_refl_item items fun w hw => ⟨hitems w hw, hkeys w hw⟩)
  | frozenset items =>
      exact sameKey_elements_self rfl (sameKey_refl_item items (isRecurrent_elements rfl h))
  | list | set | dict | tensor => cases hkey
  | scalar | callable | code | schema => cases of_everywhere h
  | float x =>
      cases x with
      | nan => cases of_everywhere h
      | _ => exact sameKey_of_denoted rfl
  | member m =>
      obtain ⟨family, name, content⟩ := m
      cases content <;> exact sameKey_of_denoted rfl
  | moment m =>
      refine sameKey_of_denoted ?_
      rw [denoted?]
      cases m.instant? <;> rfl
  | _ => exact sameKey_of_denoted rfl
termination_by structural v => v

theorem sameKey_refl_item :
    ∀ (items : List Value), (∀ v ∈ items, v.isRecurrent = true ∧ v.hashable = true) →
      ∀ v ∈ items, sameKey v v = true
  | w :: rest, h, v, hv => by
      rw [List.forall_mem_cons] at h
      cases hv with
      | head => exact sameKey_refl w h.1.1 h.1.2
      | tail _ hv' => exact sameKey_refl_item rest h.2 v hv'
termination_by structural items => items

end

/-- What is compared as a whole is a set, or is compared as a key. -/
theorem equal_refl_of_isWhole (hwhole : v.isWhole = true) (h : v.isRecurrent = true) :
    equal v v = true := by
  have hunfixed := isUnfixed_of_isRecurrent v h
  refine (equal_whole_iff hunfixed hunfixed hwhole).mpr ⟨hwhole, ?_⟩
  cases v with
  | list | tuple | dict => cases hwhole
  | set items =>
      have heach := isRecurrent_elements rfl h
      exact sameKey_elements_self rfl fun w hw => sameKey_refl w (heach w hw).1 (heach w hw).2
  | tensor => cases of_everywhere h
  | _ => exact sameKey_refl _ h rfl

mutual

theorem equal_refl : ∀ (v : Value), v.isRecurrent = true → equal v v = true := by
  intro v h
  cases v with
  | list items => exact equalAll_self (equal_refl_item items (isRecurrent_list.mp h))
  | tuple items => exact equalAll_self (equal_refl_item items (isRecurrent_tuple.mp h))
  | dict entries =>
      have heach := isRecurrent_entry h
      -- each entry is found under its own key
      have hself : ∀ e ∈ entries, sameKey e.1 e.1 = true ∧ equal e.2 e.2 = true := fun e he =>
        ⟨sameKey_refl e.1 (heach e he).1.1 (heach e he).1.2,
          equal_refl_entry entries (fun f hf => (heach f hf).2) e he⟩
      exact equal_dict_iff.mpr
        ⟨fun e he => ⟨e, he, hself e he⟩, fun e he => ⟨e, he, hself e he⟩⟩
  | _ => exact equal_refl_of_isWhole rfl h
termination_by structural v => v

theorem equal_refl_item :
    ∀ (items : List Value), (∀ v ∈ items, v.isRecurrent = true) →
      ∀ v ∈ items, equal v v = true
  | w :: rest, h, v, hv => by
      rw [List.forall_mem_cons] at h
      cases hv with
      | head => exact equal_refl w h.1
      | tail _ hv' => exact equal_refl_item rest h.2 v hv'
termination_by structural items => items

theorem equal_refl_entry :
    ∀ (es : List (Value × Value)), (∀ e ∈ es, e.2.isRecurrent = true) →
      ∀ e ∈ es, equal e.2 e.2 = true
  | (_, w) :: rest, h, e, he => by
      rw [List.forall_mem_cons] at h
      cases he with
      | head => exact equal_refl w h.1
      | tail _ he' => exact equal_refl_entry rest h.2 e he'
termination_by structural es => es

end

theorem sameType_self (v : Value) : sameType v v = true := by
  cases v with
  | member | moment | scalar => exact beq_self_eq_true _
  | _ => rfl

theorem strictEqual_refl (h : v.isRecurrent = true) : strictEqual v v = true := by
  rw [strictEqual, sameType_self, equal_refl v h]
  rfl

/-- Strict equality sorts the values that can occur twice into classes. -/
theorem strictEqual_equivalence :
    Equivalence fun v w : { v : Value // v.isRecurrent = true } =>
      strictEqual v.1 w.1 = true where
  refl v := strictEqual_refl v.2
  symm {v w} := strictEqual_symm (isUnfixed_of_isRecurrent _ v.2) (isUnfixed_of_isRecurrent _ w.2)
  trans {u v w} := strictEqual_trans (isUnfixed_of_isRecurrent _ u.2)
    (isUnfixed_of_isRecurrent _ v.2) (isUnfixed_of_isRecurrent _ w.2)

/-! ## A list without its repetitions -/

theorem isSome_strictIndex?_iff :
    (strictIndex? items v).isSome = true ↔ ∃ w ∈ items, strictEqual w v = true := by
  rw [strictIndex?, List.findIdx?_isSome, List.any_eq_true]

theorem dedupeStrict_append :
    dedupeStrict (items ++ [w]) =
      if (strictIndex? (dedupeStrict items) w).isSome then dedupeStrict items
      else dedupeStrict items ++ [w] := by
  rw [dedupeStrict, List.foldl_append]
  rfl

theorem dedupeStrict_sublist (items : List Value) : (dedupeStrict items).Sublist items := by
  induction items using List.reverseRecOn with
  | nil => exact .slnil
  | append_singleton items w ih =>
      rw [dedupeStrict_append]
      split
      · exact ih.trans (List.sublist_append_left items [w])
      · exact ih.append (List.Sublist.refl [w])

/-- Each item is strictly equal to one that is kept. -/
theorem exists_dedupeStrict (h : ∀ v ∈ items, v.isRecurrent = true) :
    ∀ v ∈ items, ∃ w ∈ dedupeStrict items, strictEqual w v = true := by
  induction items using List.reverseRecOn with
  | nil => exact List.forall_mem_nil _
  | append_singleton items w ih =>
      rw [List.forall_mem_append, List.forall_mem_singleton] at h
      intro v hv
      rw [dedupeStrict_append]
      rcases List.mem_append.mp hv with hv | hv
      · obtain ⟨u, hu, huv⟩ := ih h.1 v hv
        split
        · exact ⟨u, hu, huv⟩
        · exact ⟨u, List.mem_append_left _ hu, huv⟩
      · obtain rfl := List.mem_singleton.mp hv
        split
        · exact isSome_strictIndex?_iff.mp ‹_›
        · exact ⟨v, List.mem_append_right _ (List.mem_singleton_self v), strictEqual_refl h.2⟩

/-- A value is found among the kept items when it is found among all. -/
theorem isSome_strictIndex?_dedupeStrict (h : ∀ w ∈ items, w.isRecurrent = true)
    (hv : v.isRecurrent = true) :
    (strictIndex? (dedupeStrict items) v).isSome = (strictIndex? items v).isSome := by
  rw [Bool.eq_iff_iff, isSome_strictIndex?_iff, isSome_strictIndex?_iff]
  constructor
  · rintro ⟨w, hw, hwv⟩
    exact ⟨w, mem_of_dedupeStrict hw, hwv⟩
  · rintro ⟨w, hw, hwv⟩
    obtain ⟨u, hu, huw⟩ := exists_dedupeStrict h w hw
    have hrecurs := h u (mem_of_dedupeStrict hu)
    exact ⟨u, hu, strictEqual_equivalence.trans (x := ⟨u, hrecurs⟩) (y := ⟨w, h w hw⟩)
      (z := ⟨v, hv⟩) huw hwv⟩

/-- What is kept are the items that are strictly equal to none before them. -/
theorem dedupeStrict_eq (h : ∀ v ∈ items, v.isRecurrent = true) :
    dedupeStrict items = (firstOccurrences items).map Prod.fst := by
  induction items using List.reverseRecOn with
  | nil => rfl
  | append_singleton items w ih =>
      rw [List.forall_mem_append, List.forall_mem_singleton] at h
      rw [dedupeStrict_append, isSome_strictIndex?_dedupeStrict h.1 h.2, ih h.1, strictIndex?,
        List.findIdx?_isSome, firstOccurrences_append, List.map_append]
      cases items.any (strictEqual · w) with
      | true => exact (List.append_nil _).symm
      | false => rfl

/-- No two that are kept are strictly equal. -/
theorem pairwise_dedupeStrict (h : ∀ v ∈ items, v.isRecurrent = true) :
    (dedupeStrict items).Pairwise fun v w => strictEqual v w = false ∧ strictEqual w v = false := by
  have hapart : (dedupeStrict items).Pairwise fun v w => strictEqual v w = false := by
    rw [dedupeStrict_eq h]
    exact List.pairwise_map.mpr (pairwise_firstOccurrences items)
  refine hapart.imp_of_mem fun {v w} hv hw hvw => ⟨hvw, ?_⟩
  have hv := h v (mem_of_dedupeStrict hv)
  have hw := h w (mem_of_dedupeStrict hw)
  refine Bool.eq_false_iff.mpr fun hwv => Bool.eq_false_iff.mp hvw ?_
  exact strictEqual_symm (isUnfixed_of_isRecurrent w hw) (isUnfixed_of_isRecurrent v hv) hwv

end Value

/-! ## Enumerations -/

theorem checkEnum_eq_none {p : Plan} {items : List Value} (hash lead : String) (v : Value)
    (hitems : p.enum = some items) :
    (p.toInstance hash).checkEnum v (.str lead) = .ok none ↔
      (Value.strictIndex? items v).isSome = true := by
  rw [← accepted_eq_true, accepted_checkEnum, Plan.lists, hitems, Option.all_some]
  cases (Value.strictIndex? items v).isSome <;> simp

/-- **Strict equality sorts values into classes, and of each class a list without
repetitions keeps the first.**  That is among values of which a second occurrence can be
told to be the same, at any depth.  No two that are kept are strictly equal, in either
order, and a value is found among them exactly if it is found in the list; so the
enumeration that a configuration lists lets through what is strictly equal to something
on the list. -/
theorem dedupeStrict_keeps_classes :
    (Equivalence fun v w : { v : Value // v.isRecurrent = true } =>
      Value.strictEqual v.1 w.1 = true) ∧
    ∀ items : List Value, (∀ v ∈ items, v.isRecurrent = true) →
      Value.dedupeStrict items = (Value.firstOccurrences items).map Prod.fst ∧
      (Value.dedupeStrict items).Sublist items ∧
      (Value.dedupeStrict items).Pairwise
        (fun v w => Value.strictEqual v w = false ∧ Value.strictEqual w v = false) ∧
      ∀ v : Value, v.isRecurrent = true →
        (Value.strictIndex? (Value.dedupeStrict items) v = none ↔
          Value.strictIndex? items v = none) ∧
        ∀ (config : Entries) (listed : Value) (s : Instance),
          config.get? "enum" = some listed → listed.listed? = some items →
          Registry.builtin.compile (.dict config) .none = .ok (.single s) →
          s.get "enum" = .ok (.tuple (Value.dedupeStrict items)) ∧
          ∀ lead : String, s.checkEnum v (.str lead) = .ok none ↔
            ∃ w ∈ items, Value.strictEqual w v = true := by
  refine ⟨Value.strictEqual_equivalence, fun items hitems => ⟨Value.dedupeStrict_eq hitems,
    Value.dedupeStrict_sublist items, Value.pairwise_dedupeStrict hitems, fun v hv => ?_⟩⟩
  have hfound := Value.isSome_strictIndex?_dedupeStrict hitems hv
  constructor
  · rw [← Option.not_isSome_iff_eq_none, ← Option.not_isSome_iff_eq_none, hfound]
  · intro config listed s hlisted hlist hs
    have hcompile : (compile .builtin (.dict config) (mark none)).result = .ok (.single s) := hs
    obtain ⟨p, hash, heq, hread, -⟩ := plan_of_compile hcompile
    obtain rfl := Schema.single.inj heq
    have henum : p.enum = some (Value.dedupeStrict items) := by
      rw [hread.enum, hlisted, Option.bind_some, hlist, Option.map_some]
    constructor
    · rw [Plan.get_enum, henum]
      rfl
    · intro lead
      rw [checkEnum_eq_none hash lead v henum, hfound, Value.isSome_strictIndex?_iff]

/-! ## Zeros -/

/-- A number, a flag, the number again, a fraction, and lists of two of these: only the
number and the two lists are repeated. -/
def zeros : List Value :=
  [.int 0, .bool false, .int 0, .float (.zero false), .list [.int 0], .list [.bool false]]

def zerosOptions : Entries := [(.str "enum", .list zeros)]

def zerosPlan : Plan :=
  { Plan.plain (.str "typed") .typed none with
    enum := some [.int 0, .bool false, .float (.zero false), .list [.int 0]] }

theorem compile_zeros : ∃ hash, Registry.builtin.compile (.dict zerosOptions) .none
    = .ok (.single (zerosPlan.toInstance hash)) :=
  Plan.compile_of_digestible (p := zerosPlan) zerosOptions builtinControllers[0] rfl rfl rfl
    (absurd rfl) rfl

theorem dedupeStrict_keeps_classes_zeros :
    ∃ s, Registry.builtin.compile (.dict zerosOptions) .none = .ok (.single s) ∧
      Value.dedupeStrict zeros = [.int 0, .bool false, .float (.zero false), .list [.int 0]] ∧
      s.get "enum" = .ok (.tuple (Value.dedupeStrict zeros)) ∧
      s.checkEnum (.list [.float (.zero true)]) (.str "") = .ok none := by
  obtain ⟨hash, hs⟩ := compile_zeros
  obtain ⟨-, hkeeps⟩ := dedupeStrict_keeps_classes
  obtain ⟨hfirst, -, -, hfound⟩ := hkeeps zeros (by decide)
  obtain ⟨-, henum⟩ := hfound (.list [.float (.zero true)]) rfl
  obtain ⟨hkept, haccepts⟩ := henum zerosOptions (.list zeros) _ rfl rfl hs
  refine ⟨_, hs, hfirst.trans rfl, hkept, (haccepts "").mpr ⟨.list [.int 0], ?_, rfl⟩⟩
  simp [zeros]

end Conform
