/-
# `Proofs.Config.Merging` — merged configurations

A container's configuration and a part's own are merged pair by pair, the
part's alternatives varying slowest.  Merging and taking out an option put
nothing into a configuration that was in neither of the two, so they add no
height.
-/
import Conform.Config.Merged
import Conform.Config.Height
import Conform.Proofs.Outcome

namespace Conform

namespace Value

/-! ## Heights of parts -/

theorem height_le_of_mem {v : Value} : ∀ {vs : List Value}, v ∈ vs → v.height ≤ heightAll vs
  | w :: rest, h => by
      rw [heightAll]
      cases h with
      | head => exact Nat.le_max_left _ _
      | tail _ h' => exact Nat.le_trans (height_le_of_mem h') (Nat.le_max_right _ _)

theorem height_le_of_mem_entries {k v : Value} :
    ∀ {es : Entries}, (k, v) ∈ es → v.height ≤ heightEntries es
  | (_, w) :: rest, h => by
      rw [heightEntries]
      cases h with
      | head => exact Nat.le_max_left _ _
      | tail _ h' => exact Nat.le_trans (height_le_of_mem_entries h') (Nat.le_max_right _ _)

theorem heightEntries_le_iff {n : Nat} :
    ∀ {es : Entries}, heightEntries es ≤ n ↔ ∀ e ∈ es, e.2.height ≤ n
  | [] => by simp [heightEntries]
  | (k, v) :: rest => by
      rw [heightEntries, Nat.max_le, heightEntries_le_iff, List.forall_mem_cons]

theorem height_lt_of_listed? {v w : Value} {items : List Value} (h : v.listed? = some items)
    (hw : w ∈ items) : w.height < v.height := by
  cases v with
  | list _ | tuple _ =>
      obtain rfl := Option.some.inj h
      exact Nat.lt_succ_of_le (height_le_of_mem hw)
  | _ => simp [listed?] at h

end Value

namespace Entries

theorem mem_of_find? {key v : Value} :
    ∀ {es : Entries}, es.find? key = some v → ∃ k, (k, v) ∈ es ∧ Value.sameKey k key = true
  | (k, w) :: rest, h => by
      simp only [find?] at h
      split at h
      · rename_i hk
        obtain rfl := Option.some.inj h
        exact ⟨k, List.mem_cons_self, hk⟩
      · obtain ⟨k', hm, hk'⟩ := mem_of_find? h
        exact ⟨k', List.mem_cons_of_mem _ hm, hk'⟩

theorem snd_of_mem_put {key v : Value} {e : Value × Value} :
    ∀ {es : Entries}, e ∈ es.put key v → e.2 = v ∨ ∃ k, (k, e.2) ∈ es
  | [], h => by
      obtain rfl := List.mem_singleton.mp h
      exact .inl rfl
  | (k, w) :: rest, h => by
      simp only [put] at h
      split at h
      · rcases List.mem_cons.mp h with rfl | h
        · exact .inl rfl
        · exact .inr ⟨e.1, List.mem_cons_of_mem _ h⟩
      · rcases List.mem_cons.mp h with rfl | h
        · exact .inr ⟨k, List.mem_cons_self⟩
        · exact (snd_of_mem_put h).imp_right fun ⟨l, hl⟩ => ⟨l, List.mem_cons_of_mem _ hl⟩

theorem find?_put_self {key v : Value} (hkey : Value.sameKey key key = true) :
    ∀ {es : Entries}, (es.put key v).find? key = some v
  | [] => by simp [put, find?, hkey]
  | (k, w) :: rest => by
      simp only [put]
      split
      · rename_i h
        simp [find?, h]
      · rename_i h
        simp [find?, h, find?_put_self hkey]

theorem put_eq_self {key v : Value} {es : Entries} (h : es.find? key = some v) :
    es.put key v = es := by
  induction es with
  | nil => cases h
  | cons e rest ih =>
      rw [find?] at h
      rw [put]
      split at h
      · rename_i hsame
        rw [if_pos hsame, ← Option.some.inj h]
      · rename_i hdiffer
        rw [if_neg hdiffer, ih h]

theorem snd_of_mem_update {e : Value × Value} :
    ∀ {fs es : Entries}, e ∈ es.update fs → (∃ k, (k, e.2) ∈ es) ∨ ∃ k, (k, e.2) ∈ fs
  | [], es, h => .inl ⟨e.1, h⟩
  | (k, v) :: rest, es, h => by
      have h : e ∈ (es.put k v).update rest := h
      rcases snd_of_mem_update h with ⟨l, hl⟩ | ⟨l, hl⟩
      · rcases snd_of_mem_put hl with heq | hold
        · exact .inr ⟨k, heq ▸ List.mem_cons_self⟩
        · exact .inl hold
      · exact .inr ⟨l, List.mem_cons_of_mem _ hl⟩

end Entries

namespace Value

/-- An option is not higher than the options. -/
theorem height_of_get? {es : Entries} {name : String} {v : Value} (h : es.get? name = some v) :
    v.height ≤ heightEntries es := by
  obtain ⟨k, hm, -⟩ := Entries.mem_of_find? h
  exact height_le_of_mem_entries hm

theorem height_pos_of_isConfiguration {v : Value} (h : v.isConfiguration = true) :
    0 < v.height := by
  cases v with
  | dict _ | list _ | tuple _ => exact Nat.succ_pos _
  | _ => simp [isConfiguration] at h

/-! ## Heights of merged configurations -/

/-- A configuration, or none. -/
def IsDictOrNone (v : Value) : Prop := v = .none ∨ ∃ es, v = .dict es

theorem isDictOrNone_of_isConfiguration {v : Value} (h : v.isConfiguration = true) :
    (∀ items, v.listed? = some items → ∀ w ∈ items, w.IsDictOrNone) ∧
      (v.listed? = Option.none → v.IsDictOrNone) := by
  have dict : ∀ {w : Value}, w.isDict = true → w.IsDictOrNone := by
    intro w hw
    cases w with
    | dict es => exact .inr ⟨es, rfl⟩
    | _ => simp [isDict] at hw
  cases v with
  | dict es => exact ⟨fun _ heq => (by cases heq), fun _ => .inr ⟨es, rfl⟩⟩
  | list items | tuple items =>
      simp only [isConfiguration, Bool.and_eq_true, List.all_eq_true] at h
      refine ⟨fun _ heq w hw => ?_, fun heq => by cases heq⟩
      obtain rfl := Option.some.inj heq
      exact dict (h.2 w hw)
  | _ => simp [isConfiguration] at h

theorem configEntries_eq {v : Value} (h : v.IsDictOrNone) :
    ∃ es, v.configEntries = .ok es ∧ ∀ e ∈ es, e.2.height < v.height := by
  rcases h with rfl | ⟨es, rfl⟩
  · exact ⟨[], rfl, by simp⟩
  · refine ⟨es, ?_, fun e he => Nat.lt_succ_of_le (height_le_of_mem_entries he)⟩
    cases es <;> rfl

/-- A dictionary whose values are lower than `n`. -/
def IsDictBelow (n : Nat) (v : Value) : Prop := ∃ es : Entries, v = .dict es ∧ ∀ e ∈ es, e.2.height < n

/-- Every value in a merged configuration is in one of the two. -/
theorem mergeSchemas_eq {g s : Value} (hg : g.IsDictOrNone) (hs : s.IsDictOrNone) :
    ∃ c, mergeSchemas g s = .ok c ∧ c.IsDictBelow (max g.height s.height) := by
  obtain ⟨ges, hges, hgh⟩ := configEntries_eq hg
  obtain ⟨ses, hses, hsh⟩ := configEntries_eq hs
  refine ⟨.dict (Entries.update ges ses), by simp [mergeSchemas, hges, hses, pure, Except.pure],
    _, rfl, ?_⟩
  intro e he
  rcases Entries.snd_of_mem_update he with ⟨k, hk⟩ | ⟨k, hk⟩
  · exact Nat.lt_of_lt_of_le (hgh (k, e.2) hk) (Nat.le_max_left _ _)
  · exact Nat.lt_of_lt_of_le (hsh (k, e.2) hk) (Nat.le_max_right _ _)

theorem mergeProducts_below {specifics generics products : List Value} {n : Nat}
    (hs : ∀ s ∈ specifics, s.IsDictOrNone ∧ s.height ≤ n)
    (hg : ∀ g ∈ generics, g.IsDictOrNone ∧ g.height ≤ n)
    (h : mergeProducts specifics generics = .ok products) :
    ∀ c ∈ products, c.IsDictBelow n := by
  simp only [mergeProducts, bind_eq_ok, pure_eq_ok, mapM_eq_ok] at h
  obtain ⟨rows, hrows, rfl⟩ := h
  intro c hc
  obtain ⟨row, hrow, hc⟩ := List.mem_flatten.mp hc
  obtain ⟨s, hsmem, hsrow⟩ := forall₂_mem_right hrows hrow
  obtain ⟨g, hgmem, hgc⟩ := forall₂_mem_right hsrow hc
  obtain ⟨c', hc', es, rfl, hes⟩ := mergeSchemas_eq (hg g hgmem).1 (hs s hsmem).1
  obtain rfl := Except.ok.inj (hc'.symm.trans hgc)
  exact ⟨es, rfl, fun e he => Nat.lt_of_lt_of_le (hes e he)
    (Nat.max_le.mpr ⟨(hg g hgmem).2, (hs s hsmem).2⟩)⟩

/-- What is listed, or the one that lists nothing. -/
theorem eq_or_mem_listed {v w : Value} (h : w ∈ v.listed?.getD [v]) :
    w = v ∨ ∃ items, v.listed? = some items ∧ w ∈ items := by
  cases hlisted : v.listed? with
  | none =>
      rw [hlisted] at h
      exact .inl (List.mem_singleton.mp h)
  | some items =>
      rw [hlisted] at h
      exact .inr ⟨items, rfl, h⟩

/-- What a container's configuration or a part's own may be. -/
def IsPartOption (v : Value) : Prop := v = .none ∨ v.isConfiguration = true

/-- The configurations that are merged with others: those listed, or the one. -/
theorem IsPartOption.alternatives {v : Value} (h : v.IsPartOption) :
    ∀ w ∈ v.listed?.getD [v], w.IsDictOrNone ∧ w.height ≤ v.height := by
  rcases h with rfl | h
  · intro w hw
    obtain rfl := List.mem_singleton.mp hw
    exact ⟨.inl rfl, Nat.le_refl _⟩
  · obtain ⟨several, one⟩ := isDictOrNone_of_isConfiguration h
    intro w hw
    cases hv : v.listed? with
    | none =>
        rw [hv] at hw
        obtain rfl := List.mem_singleton.mp hw
        exact ⟨one hv, Nat.le_refl _⟩
    | some items =>
        rw [hv] at hw
        exact ⟨several items hv w hw, Nat.le_of_lt (height_lt_of_listed? hv hw)⟩

/-- The merged alternatives, in order. -/
theorem mergeConfigs_eq {generic specific : Value} (hg : generic.IsPartOption)
    (hs : specific.IsPartOption) :
    (do let merged ← generic.mergeConfigs specific; return merged.listed?.getD [merged])
      = mergeProducts (specific.listed?.getD [specific]) (generic.listed?.getD [generic]) := by
  unfold mergeConfigs
  cases hgl : generic.listed? with
  | none =>
      cases hsl : specific.listed? with
      | none =>
          have one : ∀ {v : Value}, v.IsPartOption → v.listed? = Option.none → v.IsDictOrNone := by
            intro v hv hl
            exact (hv.alternatives v (by simp [hl])).1
          obtain ⟨_, hc, es, rfl, -⟩ := mergeSchemas_eq (one hg hgl) (one hs hsl)
          simp [hc, mergeProducts, pure, Except.pure, listed?]
      | some specifics =>
          cases h : mergeProducts specifics [generic] <;>
            simp [h, pure, Except.pure, listed?]
  | some generics =>
      cases hsl : specific.listed? with
      | none => cases h : mergeProducts [specific] generics <;> simp [h, pure, Except.pure, listed?]
      | some specifics =>
          cases h : mergeProducts specifics generics <;> simp [h, pure, Except.pure, listed?]

end Value

/-- The schema of a part, by its merged alternatives. -/
theorem compileMerged_eq (f : Factory) (key : Value) {generic specific : Value}
    (hg : generic.IsPartOption) (hs : specific.IsPartOption) :
    compileMerged f key generic specific = do
      let candidates ← (liftM (Value.mergeProducts (specific.listed?.getD [specific])
        (generic.listed?.getD [generic])) : Build (List Value))
      let schemas ← candidates.mapM (compileCandidate f key)
      return .collapse schemas := by
  rw [← Value.mergeConfigs_eq hg hs, compileMerged]
  cases generic.mergeConfigs specific <;> rfl

theorem splitRequired_eq (es : Entries) :
    splitRequired (.dict es) = do
      return (es.erase (.str "required"), ← (es.getD "required" (.bool false)).truthy) := rfl

/-! ## Pairs -/

namespace Value

/-- The entries of a configuration; `none` stands for an empty one. -/
def entries : Value → Entries
  | .dict es => es
  | _ => []

/-- The alternatives of a configuration: those listed, or the one. -/
def alternatives (v : Value) : List Entries := (v.listed?.getD [v]).map entries

/-- The merged pairs of two configurations. -/
def pairs (generic specific : Value) : List Entries :=
  specific.alternatives.flatMap fun s => generic.alternatives.map fun g => Entries.update g s

theorem mem_pairs {generic specific : Value} {es : Entries} (h : es ∈ generic.pairs specific) :
    ∃ g ∈ generic.alternatives, ∃ s ∈ specific.alternatives, es = Entries.update g s := by
  obtain ⟨s, hs, hes⟩ := List.mem_flatMap.mp h
  obtain ⟨g, hg, rfl⟩ := List.mem_map.mp hes
  exact ⟨g, hg, s, hs, rfl⟩

theorem mergeSchemas_entries {g s : Value} (hg : g.IsDictOrNone) (hs : s.IsDictOrNone) :
    mergeSchemas g s = .ok (.dict (Entries.update g.entries s.entries)) := by
  have config : ∀ {v : Value}, v.IsDictOrNone → v.configEntries = .ok v.entries := by
    rintro v (rfl | ⟨es, rfl⟩)
    · rfl
    · cases es <;> rfl
  rw [mergeSchemas, config hg, config hs]
  rfl

theorem mergeProducts_pairs {generic specific : Value} (hg : generic.IsPartOption)
    (hs : specific.IsPartOption) :
    mergeProducts (specific.listed?.getD [specific]) (generic.listed?.getD [generic])
      = .ok ((pairs generic specific).map .dict) := by
  have row : ∀ s ∈ specific.listed?.getD [specific],
      (generic.listed?.getD [generic]).mapM (fun g => mergeSchemas g s)
        = .ok ((generic.listed?.getD [generic]).map fun g =>
            Value.dict (Entries.update g.entries s.entries)) := fun s hm =>
    mapM_eq_map fun g hgm => mergeSchemas_entries (hg.alternatives g hgm).1 (hs.alternatives s hm).1
  rw [mergeProducts, mapM_eq_map row, pairs, alternatives, alternatives]
  simp only [ok_bind, pure_eq, List.flatten_eq_flatMap, List.map_flatMap, List.flatMap_map,
    List.map_map]
  rfl

end Value

/-- The schema of a part, by its merged alternatives. -/
theorem compileMerged_eq_pairs (f : Factory) (key : Value) {generic specific : Value}
    (hg : generic.IsPartOption) (hs : specific.IsPartOption) :
    compileMerged f key generic specific = do
      let schemas ← (generic.pairs specific).mapM fun pair => compileCandidate f key (.dict pair)
      return .collapse schemas := by
  rw [compileMerged_eq f key hg hs, Value.mergeProducts_pairs hg hs]
  show ((generic.pairs specific).map Value.dict).mapM _ >>= _ = _
  rw [List.mapM_map]
  rfl

end Conform
