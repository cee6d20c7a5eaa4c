/-
# `Proofs.Value.Everywhere` — what holds of a value all the way down

A value holds others: items, elements and entries.  `everywhere p` says that `p`
holds of the value and of all of these.  It is a function, so that it can be read
off any given value, and the lemmas take it apart by the kind of the value.

Dictionaries are put together from the entries of others when configurations
are merged, and whatever holds everywhere in those holds everywhere in the
outcome.
-/
import Conform.Proofs.Config.Height

namespace Conform

/-! ## All the way down -/

mutual

/-- Whether something is true of a value and of all it holds. -/
def Value.everywhere (p : Value → Bool) (v : Value) : Bool :=
  p v && match v with
    | .list items | .tuple items | .set items | .frozenset items => Value.allEverywhere p items
    | .dict entries => Value.entriesEverywhere p entries
    | _ => true
termination_by structural v

def Value.allEverywhere (p : Value → Bool) : List Value → Bool
  | [] => true
  | v :: rest => v.everywhere p && Value.allEverywhere p rest
termination_by structural vs => vs

def Value.entriesEverywhere (p : Value → Bool) : List (Value × Value) → Bool
  | [] => true
  | (key, v) :: rest => key.everywhere p && v.everywhere p && Value.entriesEverywhere p rest
termination_by structural es => es

end

/-- Entries of which something is true everywhere, keys included. -/
def Entries.Everywhere (p : Value → Bool) (es : Entries) : Prop :=
  ∀ e ∈ es, e.1.everywhere p = true ∧ e.2.everywhere p = true

namespace Value

variable {p : Value → Bool} {v : Value} {items : List Value} {entries : Entries}

theorem of_everywhere (h : v.everywhere p = true) : p v = true := by
  unfold everywhere at h
  exact (Bool.and_eq_true_iff.mp h).1

theorem allEverywhere_iff :
    allEverywhere p items = true ↔ ∀ v ∈ items, v.everywhere p = true := by
  induction items with
  | nil => exact iff_of_true rfl (List.forall_mem_nil _)
  | cons v rest ih =>
      show (v.everywhere p && allEverywhere p rest) = true ↔ _
      rw [Bool.and_eq_true, ih, List.forall_mem_cons]

theorem entriesEverywhere_iff : entriesEverywhere p entries = true ↔ entries.Everywhere p := by
  induction entries with
  | nil => exact iff_of_true rfl (List.forall_mem_nil _)
  | cons e rest ih =>
      show (e.1.everywhere p && e.2.everywhere p && entriesEverywhere p rest) = true ↔ _
      rw [Bool.and_eq_true, Bool.and_eq_true, ih]
      unfold Entries.Everywhere
      rw [List.forall_mem_cons]

theorem everywhere_list :
    (Value.list items).everywhere p = true ↔
      p (.list items) = true ∧ ∀ v ∈ items, v.everywhere p = true := by
  show (p (.list items) && allEverywhere p items) = true ↔ _
  rw [Bool.and_eq_true, allEverywhere_iff]

theorem everywhere_tuple :
    (Value.tuple items).everywhere p = true ↔
      p (.tuple items) = true ∧ ∀ v ∈ items, v.everywhere p = true := by
  show (p (.tuple items) && allEverywhere p items) = true ↔ _
  rw [Bool.and_eq_true, allEverywhere_iff]

theorem everywhere_set :
    (Value.set items).everywhere p = true ↔
      p (.set items) = true ∧ ∀ v ∈ items, v.everywhere p = true := by
  show (p (.set items) && allEverywhere p items) = true ↔ _
  rw [Bool.and_eq_true, allEverywhere_iff]

theorem everywhere_frozenset :
    (Value.frozenset items).everywhere p = true ↔
      p (.frozenset items) = true ∧ ∀ v ∈ items, v.everywhere p = true := by
  show (p (.frozenset items) && allEverywhere p items) = true ↔ _
  rw [Bool.and_eq_true, allEverywhere_iff]

theorem everywhere_dict :
    (Value.dict entries).everywhere p = true ↔
      p (.dict entries) = true ∧ entries.Everywhere p := by
  show (p (.dict entries) && entriesEverywhere p entries) = true ↔ _
  rw [Bool.and_eq_true, entriesEverywhere_iff]

theorem everywhere_listed (h : v.everywhere p = true) (hitems : v.listed? = some items) :
    ∀ w ∈ items, w.everywhere p = true := by
  cases v with
  | list xs =>
      obtain rfl := Option.some.inj hitems
      exact (everywhere_list.mp h).2
  | tuple xs =>
      obtain rfl := Option.some.inj hitems
      exact (everywhere_tuple.mp h).2
  | _ => cases hitems

/-! ## Weaker tests -/

mutual

/-- What passes a test everywhere passes a weaker one everywhere. -/
theorem everywhere_imp {q : Value → Bool} (hpq : ∀ v, p v = true → q v = true) :
    ∀ v : Value, v.everywhere p = true → v.everywhere q = true := by
  intro v h
  have hv := hpq v (of_everywhere h)
  cases v with
  | list items =>
      exact everywhere_list.mpr ⟨hv, everywhere_imp_item hpq items (everywhere_list.mp h).2⟩
  | tuple items =>
      exact everywhere_tuple.mpr ⟨hv, everywhere_imp_item hpq items (everywhere_tuple.mp h).2⟩
  | set items =>
      exact everywhere_set.mpr ⟨hv, everywhere_imp_item hpq items (everywhere_set.mp h).2⟩
  | frozenset items =>
      exact everywhere_frozenset.mpr
        ⟨hv, everywhere_imp_item hpq items (everywhere_frozenset.mp h).2⟩
  | dict entries =>
      exact everywhere_dict.mpr ⟨hv, everywhere_imp_entry hpq entries (everywhere_dict.mp h).2⟩
  | _ => exact (Bool.and_true _).trans hv
termination_by structural v => v

theorem everywhere_imp_item {q : Value → Bool} (hpq : ∀ v, p v = true → q v = true) :
    ∀ items : List Value, (∀ v ∈ items, v.everywhere p = true) →
      ∀ v ∈ items, v.everywhere q = true
  | w :: rest, h, v, hv => by
      rw [List.forall_mem_cons] at h
      cases hv with
      | head => exact everywhere_imp hpq w h.1
      | tail _ hv' => exact everywhere_imp_item hpq rest h.2 v hv'
termination_by structural items => items

theorem everywhere_imp_entry {q : Value → Bool} (hpq : ∀ v, p v = true → q v = true) :
    ∀ es : List (Value × Value), Entries.Everywhere p es → Entries.Everywhere q es
  | [], _ => List.forall_mem_nil _
  | (key, w) :: rest, h => by
      obtain ⟨⟨hkey, hw⟩, hrest⟩ := List.forall_mem_cons.mp h
      exact List.forall_mem_cons.mpr
        ⟨⟨everywhere_imp hpq key hkey, everywhere_imp hpq w hw⟩, everywhere_imp_entry hpq rest hrest⟩
termination_by structural es => es

end

/-! ## Values without fixed representations -/

/-- Whether nothing of fixed representation is in a value. -/
def isUnfixed (v : Value) : Bool := v.everywhere fun w => !w.isFixed

theorem isFixed_of_isUnfixed (h : v.isUnfixed = true) : v.isFixed = false := by
  have hv := of_everywhere h
  rwa [Bool.not_eq_true'] at hv

theorem isUnfixed_list : (Value.list items).isUnfixed = true ↔ ∀ v ∈ items, v.isUnfixed = true :=
  everywhere_list.trans ⟨fun h => h.2, fun h => ⟨rfl, h⟩⟩

theorem isUnfixed_tuple : (Value.tuple items).isUnfixed = true ↔ ∀ v ∈ items, v.isUnfixed = true :=
  everywhere_tuple.trans ⟨fun h => h.2, fun h => ⟨rfl, h⟩⟩

theorem isUnfixed_dict :
    (Value.dict entries).isUnfixed = true ↔
      ∀ e ∈ entries, e.1.isUnfixed = true ∧ e.2.isUnfixed = true :=
  everywhere_dict.trans ⟨fun h => h.2, fun h => ⟨rfl, h⟩⟩

/-- What is no array of several positions counts as true or false. -/
theorem truthy_ok (h : v.isFixed = false) : ∃ b, v.truthy = .ok b := by
  cases v with
  | tensor => cases h
  | member m =>
      obtain ⟨family, name, content⟩ := m
      cases content <;> exact ⟨_, rfl⟩
  | schema s => cases s <;> exact ⟨_, rfl⟩
  | _ => exact ⟨_, rfl⟩

/-- An array of two numbers, which counts neither as true nor as false. -/
def twoNumbers : Value := .tensor ⟨.integer .int64, [2], [.int 1, .int 2]⟩

/-! ## First occurrences -/

/-- Whichever items are passed over, those that are kept are among the items. -/
theorem mem_of_foldl_keep {seen : List Value → Value → Bool} {rest kept : List Value}
    (h : v ∈ rest.foldl (fun kept w => if seen kept w then kept else kept ++ [w]) kept) :
    v ∈ kept ++ rest := by
  induction rest generalizing kept with
  | nil => exact List.mem_append_left _ h
  | cons w rest ih =>
      have hv := ih h
      dsimp only at hv
      split at hv
      · exact ((List.sublist_cons_self w rest).append_left kept).subset hv
      · rwa [List.append_assoc] at hv

theorem mem_of_dedupeStrict (h : v ∈ dedupeStrict items) : v ∈ items := mem_of_foldl_keep h

end Value

/-! ## Entries -/

namespace Entries

variable {p : Value → Bool} {es fs : Entries} {key v : Value}

theorem Everywhere.nil : Everywhere p [] := List.forall_mem_nil _

theorem Everywhere.find? (h : es.Everywhere p) (hv : es.find? key = some v) :
    v.everywhere p = true := by
  obtain ⟨k, hmem, -⟩ := mem_of_find? hv
  exact (h _ hmem).2

section put

variable {P Q : Value → Prop}

/-- Putting adds no key or value but its own. -/
theorem forall_put (h : ∀ e ∈ es, P e.1 ∧ Q e.2) (hkey : P key) (hv : Q v) :
    ∀ e ∈ es.put key v, P e.1 ∧ Q e.2 := by
  induction es with
  | nil => exact List.forall_mem_singleton.mpr ⟨hkey, hv⟩
  | cons e rest ih =>
      obtain ⟨hhead, hrest⟩ := List.forall_mem_cons.mp h
      rw [Entries.put]
      split
      · exact List.forall_mem_cons.mpr ⟨⟨hhead.1, hv⟩, hrest⟩
      · exact List.forall_mem_cons.mpr ⟨hhead, ih hrest⟩

theorem forall_update (h : ∀ e ∈ es, P e.1 ∧ Q e.2) (hfs : ∀ e ∈ fs, P e.1 ∧ Q e.2) :
    ∀ e ∈ es.update fs, P e.1 ∧ Q e.2 := by
  induction fs generalizing es with
  | nil => exact h
  | cons e rest ih =>
      obtain ⟨hhead, hrest⟩ := List.forall_mem_cons.mp hfs
      exact ih (forall_put h hhead.1 hhead.2) hrest

theorem forall_ofList (h : ∀ e ∈ es, P e.1 ∧ Q e.2) :
    ∀ e ∈ Entries.ofList es, P e.1 ∧ Q e.2 := forall_update (List.forall_mem_nil _) h

end put

theorem Everywhere.put (h : es.Everywhere p) (hkey : key.everywhere p = true)
    (hv : v.everywhere p = true) : (es.put key v).Everywhere p :=
  forall_put (P := fun w => w.everywhere p = true) (Q := fun w => w.everywhere p = true) h hkey hv

theorem Everywhere.update (h : es.Everywhere p) (hfs : fs.Everywhere p) :
    (es.update fs).Everywhere p :=
  forall_update (P := fun w => w.everywhere p = true) (Q := fun w => w.everywhere p = true) h hfs

theorem Everywhere.erase (h : es.Everywhere p) (key : Value) : (es.erase key).Everywhere p :=
  fun e he => h e (List.mem_of_mem_filter he)

end Entries

end Conform
