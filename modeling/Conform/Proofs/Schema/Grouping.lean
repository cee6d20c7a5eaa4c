/-
# `Proofs.Schema.Grouping` — alternatives of alternatives

Alternatives are composed from schemas and from alternatives that were composed
before, and at every stage a schema whose digest occurred is left out.  How the
stages are nested does not show: what remains are the first occurrences among
the leaves, read from left to right.  This is because leaving out may be done
twice (`dropRepeated_absorb`): a group has lost nothing but schemas whose digest
an earlier one of the same group keeps.

The digested text of alternatives is the digests of their members in a row,
without anything between them.  Digests are of one length, so the row says
which they are.
-/
import Conform.Config.Compile
import Conform.Proofs.Config.Compiled
import Conform.Proofs.Digest.Lines
import Conform.Proofs.Schema.Choice
import Conform.Proofs.Schema.Faithful
import Conform.Proofs.Schema.Supplied
import Mathlib.Data.List.Induction

namespace Conform

/-! ## Leaving out twice -/

namespace Schema

variable {ss ts : List Instance} {s : Instance} {seen : List String}

/-- Only the digests that occur later on matter. -/
theorem dropRepeated_congr {seen seen' : List String}
    (h : ∀ s ∈ ss, s.hash ∈ seen ↔ s.hash ∈ seen') :
    dropRepeated seen ss = dropRepeated seen' ss := by
  induction ss generalizing seen seen' with
  | nil => rfl
  | cons s rest ih =>
      have hhead : seen.contains s.hash = seen'.contains s.hash := by
        rw [Bool.eq_iff_iff, List.contains_iff_mem, List.contains_iff_mem]
        exact h s List.mem_cons_self
      have hrest : ∀ t ∈ rest, t.hash ∈ seen ↔ t.hash ∈ seen' := fun t ht =>
        h t (List.mem_cons_of_mem _ ht)
      have hnext : ∀ t ∈ rest, t.hash ∈ s.hash :: seen ↔ t.hash ∈ s.hash :: seen' := by
        intro t ht
        rw [List.mem_cons, List.mem_cons, hrest t ht]
      rw [dropRepeated, dropRepeated, hhead, ih hrest, ih hnext]

/-- What comes first is left out of what follows. -/
theorem dropRepeated_append (ss ts : List Instance) :
    dropRepeated seen (ss ++ ts)
      = dropRepeated seen ss ++ dropRepeated (ss.map Instance.hash ++ seen) ts := by
  induction ss generalizing seen with
  | nil => rfl
  | cons s rest ih =>
      rw [List.cons_append, dropRepeated, dropRepeated]
      split
      · rename_i hseen
        rw [ih]
        refine congrArg _ (dropRepeated_congr fun t _ => ?_)
        have hmem := List.contains_iff_mem.mp hseen
        simp only [List.map_cons, List.cons_append, List.mem_cons, List.mem_append]
        exact ⟨.inr, fun h => h.elim (fun heq => .inr (heq ▸ hmem)) id⟩
      · rw [ih, List.cons_append]
        refine congrArg _ (congrArg _ (dropRepeated_congr fun t _ => ?_))
        simp only [List.map_cons, List.cons_append, List.mem_cons, List.mem_append]
        tauto

/-- Nothing with a digest that occurred is left. -/
theorem hash_not_mem_of_mem_dropRepeated (h : s ∈ dropRepeated seen ss) : s.hash ∉ seen := by
  induction ss generalizing seen with
  | nil => cases h
  | cons t rest ih =>
      rw [dropRepeated] at h
      split at h
      · exact ih h
      · rename_i hfresh
        rcases List.mem_cons.mp h with rfl | h
        · exact fun hmem => hfresh (List.contains_iff_mem.mpr hmem)
        · exact fun hmem => ih h (List.mem_cons_of_mem _ hmem)

theorem nodup_dropRepeated (ss : List Instance) (seen : List String) :
    ((dropRepeated seen ss).map Instance.hash).Nodup := by
  induction ss generalizing seen with
  | nil => exact .nil
  | cons s rest ih =>
      rw [dropRepeated]
      split
      · exact ih seen
      · refine List.nodup_cons.mpr ⟨fun hmem => ?_, ih _⟩
        obtain ⟨t, ht, heq⟩ := List.mem_map.mp hmem
        exact hash_not_mem_of_mem_dropRepeated ht (heq ▸ List.mem_cons_self)

/-- Leaving out less before changes nothing. -/
theorem dropRepeated_dropRepeated {fewer : List String} (h : fewer ⊆ seen) (ss : List Instance) :
    dropRepeated seen (dropRepeated fewer ss) = dropRepeated seen ss := by
  induction ss generalizing seen fewer with
  | nil => rfl
  | cons s rest ih =>
      rw [dropRepeated, dropRepeated]
      split
      · rename_i hfewer
        have hseen := List.contains_iff_mem.mpr (h (List.contains_iff_mem.mp hfewer))
        rw [if_pos hseen, ih h]
      · rw [dropRepeated]
        split
        · rename_i hseen
          exact ih (List.cons_subset.mpr ⟨List.contains_iff_mem.mp hseen, h⟩)
        · rw [ih (List.cons_subset_cons _ h)]

/-- A group of which repeated schemas were left out before. -/
theorem dropRepeated_absorb (ss ts : List Instance) :
    dropRepeated seen (dropRepeated [] ss ++ ts) = dropRepeated seen (ss ++ ts) := by
  rw [dropRepeated_append, dropRepeated_append, dropRepeated_dropRepeated (List.nil_subset _)]
  refine congrArg _ (dropRepeated_congr fun t _ => ?_)
  -- both have the same digests, since each one left out is kept by another
  have hdigests : t.hash ∈ (dropRepeated [] ss).map Instance.hash ↔ t.hash ∈ ss.map Instance.hash := by
    constructor
    · exact fun hmem => ((dropRepeated_sublist ss []).map _).subset hmem
    · intro hmem
      obtain ⟨u, hu, heq⟩ := List.mem_map.mp hmem
      obtain ⟨w, hw, hhash⟩ := (exists_mem_dropRepeated hu).resolve_left List.not_mem_nil
      exact List.mem_map.mpr ⟨w, hw, hhash.trans heq⟩
  rw [List.mem_append, List.mem_append, hdigests]

/-! ## First occurrences -/

/-- The schemas whose digest none before them has. -/
def firstOccurrences (ss : List Instance) : List Instance :=
  (ss.zipIdx.filter fun e => !((ss.take e.2).map Instance.hash).contains e.1.hash).map Prod.fst

theorem firstOccurrences_snoc (ss : List Instance) (s : Instance) :
    firstOccurrences (ss ++ [s]) = firstOccurrences ss ++
      if (ss.map Instance.hash).contains s.hash then [] else [s] := by
  have hearlier : ss.zipIdx.filter
      (fun e => !(((ss ++ [s]).take e.2).map Instance.hash).contains e.1.hash)
        = ss.zipIdx.filter fun e => !((ss.take e.2).map Instance.hash).contains e.1.hash :=
    List.filter_congr fun e he => by
      have hlt := List.snd_lt_add_of_mem_zipIdx he
      rw [List.take_append_of_le_length (by omega)]
  rw [firstOccurrences, List.zipIdx_append, List.filter_append, List.map_append, hearlier,
    List.zipIdx_singleton, Nat.zero_add, firstOccurrences]
  have hlast : (ss ++ [s]).take ss.length = ss := List.take_left
  cases h : (ss.map Instance.hash).contains s.hash <;>
    simp only [List.filter_cons, hlast, h, Bool.not_true, Bool.not_false] <;> rfl

theorem dropRepeated_eq_firstOccurrences (ss : List Instance) :
    dropRepeated [] ss = firstOccurrences ss := by
  induction ss using List.reverseRecOn with
  | nil => rfl
  | append_singleton ss s ih =>
      rw [dropRepeated_append, firstOccurrences_snoc, ih, List.append_nil]
      rfl

end Schema

/-! ## Groups of groups -/

/-- Schemas and alternatives that alternatives are composed from. -/
inductive Grouping where
  | leaf (s : Instance)
  | group (parts : List Grouping)

namespace Grouping

mutual

/-- The schema that is composed. -/
def schema : Grouping → Schema
  | leaf s => .single s
  | group parts => .ofAlternatives (schemas parts)
termination_by structural g => g

def schemas : List Grouping → List Schema
  | [] => []
  | g :: rest => g.schema :: schemas rest
termination_by structural gs => gs

end

mutual

/-- The single schemas, from left to right. -/
def leaves : Grouping → List Instance
  | leaf s => [s]
  | group parts => leavesOf parts
termination_by structural g => g

def leavesOf : List Grouping → List Instance
  | [] => []
  | g :: rest => g.leaves ++ leavesOf rest
termination_by structural gs => gs

end

mutual

theorem members_schema : ∀ g : Grouping, g.schema.members = Schema.dropRepeated [] g.leaves
  | leaf s => rfl
  | group parts => by
      rw [schema, leaves, Schema.ofAlternatives, Schema.members]
      exact members_schemas parts []
termination_by structural g => g

theorem members_schemas : ∀ (parts : List Grouping) (seen : List String),
    Schema.dropRepeated seen ((schemas parts).flatMap Schema.members)
      = Schema.dropRepeated seen (leavesOf parts)
  | [], _ => rfl
  | g :: rest, seen => by
      rw [schemas, leavesOf, List.flatMap_cons, members_schema g, Schema.dropRepeated_absorb,
        Schema.dropRepeated_append, Schema.dropRepeated_append, members_schemas rest]
termination_by structural gs => gs

end

/-- A group is the first occurrences among its leaves. -/
theorem schema_group (parts : List Grouping) :
    (group parts).schema = .multi (Schema.firstOccurrences (leavesOf parts)) := by
  rw [schema, Schema.ofAlternatives, members_schemas, Schema.dropRepeated_eq_firstOccurrences]

end Grouping

/-! ## Digests of members -/

/-- A schema that some registry compiles a configuration to, or a member of it. -/
def Instance.Built (s : Instance) : Prop :=
  ∃ r configuration additional u, Registry.compile r configuration additional = .ok u ∧ s ∈ u.members

section built

variable {f : Factory} {r : Registry}

theorem hash_of_compileSingle {configuration additional : Value} {s : Instance}
    (h : (compileSingle f r configuration additional).result = .ok s) :
    ∃ attrs : Attributes, attrs.hash = .ok s.hash := by
  simp only [compileSingle, Build.result_bind, bind_eq_ok] at h
  obtain ⟨config, -, extras, -, h⟩ := h
  cases hresolve : r.resolve (typedEntries config).2 with
  | none =>
      rw [hresolve] at h
      cases h
  | some d =>
      simp only [hresolve, buildInstance, Build.result_bind, bind_eq_ok] at h
      obtain ⟨-, -, -, -, attrs, -, h⟩ := h
      rw [Build.result_lift_fault, lift_eq_ok, finishInstance, bind_eq_ok] at h
      obtain ⟨hash, hhash, h⟩ := h
      obtain ⟨frozen, -, h⟩ := bind_eq_ok.mp h
      cases frozen with
      | true => cases h
      | false =>
          simp only [Bool.false_eq_true, if_false] at h
          split at h
          · cases h
          · split at h
            · cases h
            · obtain rfl := Except.ok.inj h
              exact ⟨attrs, hhash⟩

/-- Compiling completes every schema with the digest of its attributes. -/
theorem Instance.Built.hash {s : Instance} (h : s.Built) :
    ∃ text, s.hash = Sha256.hexDigest text := by
  obtain ⟨r, configuration, additional, u, hu, hs⟩ := h
  have hsingle : ∃ c a, (compileSingle (compile r) r c a).result = .ok s := by
    have hu : (compile r configuration additional).result = .ok u := hu
    rw [compile_eq, compileWith] at hu
    split at hu
    · simp only [Build.result_bind, Build.result_mapM, bind_eq_ok] at hu
      obtain ⟨extras, -, ss, hss, hu⟩ := hu
      obtain rfl := Except.ok.inj hu
      rw [ofAlternatives_single] at hs
      have hmem := (dropRepeated_sublist _ _).subset hs
      obtain ⟨x, -, hx⟩ := forall₂_mem_right (mapM_eq_ok.mp hss) hmem
      exact ⟨_, _, hx⟩
    · split at hu
      · cases hu
      · simp only [Build.result_bind, bind_eq_ok] at hu
        obtain ⟨t, ht, hu⟩ := hu
        obtain rfl := Except.ok.inj hu
        obtain rfl := List.mem_singleton.mp hs
        exact ⟨_, _, ht⟩
  obtain ⟨c, a, hsingle⟩ := hsingle
  obtain ⟨attrs, hattrs⟩ := hash_of_compileSingle hsingle
  rw [Attributes.hash] at hattrs
  obtain ⟨ls, -, hhash⟩ := bind_eq_ok.mp hattrs
  exact ⟨_, (Except.ok.inj hhash).symm⟩

end built

/-- Sixty-four digits of base sixteen. -/
def IsDigest (text : String) : Prop :=
  text.toList.length = 64 ∧ ∀ c ∈ text.toList, c ∈ Sha256.hexDigits

theorem Instance.Built.isDigest {s : Instance} (h : s.Built) : IsDigest s.hash := by
  obtain ⟨text, htext⟩ := h.hash
  rw [htext]
  exact ⟨Sha256.hexDigest_length text, Sha256.mem_hexDigest text⟩

/-- The digests of alternatives are read back from the digested text. -/
theorem digested_multi_inj {members members' : List Instance}
    (h : ∀ s ∈ members, IsDigest s.hash) (h' : ∀ s ∈ members', IsDigest s.hash) :
    (Schema.multi members).digested = (Schema.multi members').digested ↔
      members.map Instance.hash = members'.map Instance.hash := by
  constructor
  · exact fun heq => join_inj (by decide) (List.forall_mem_map.mpr fun s hs => (h s hs).1)
      (List.forall_mem_map.mpr fun s hs => (h' s hs).1) (Except.ok.inj heq)
  · intro heq
    simp only [Schema.digested, heq]

/-! ## Alternatives of any nesting -/

open Grouping in
/-- **Alternatives are flat, and how they were grouped does not show.**  Alternatives of
schemas and alternatives have the first occurrences among the leaves as members, which
are single schemas with different digests; any other nesting of the same leaves gives the
same schema.  The text of their digest is the digests of the members, each of sixty-four
digits, and two alternatives have the same one only if these are the same in order. -/
theorem grouping_flat (parts : List Grouping) (hparts : ∀ s ∈ leavesOf parts, s.Built) :
    ∃ members, Schema.ofAlternatives (schemas parts) = .multi members ∧
      members = Schema.firstOccurrences (leavesOf parts) ∧
      (members.map Instance.hash).Nodup ∧ (∀ s ∈ members, IsDigest s.hash) ∧
      (∀ parts', leavesOf parts' = leavesOf parts →
        Schema.ofAlternatives (schemas parts') = .multi members) ∧
      (Schema.multi members).digested = .ok (String.join (members.map Instance.hash)) ∧
      (Schema.multi members).hash = Sha256.hexDigest (String.join (members.map Instance.hash)) ∧
      ∀ parts' members', (∀ s ∈ leavesOf parts', s.Built) →
        Schema.ofAlternatives (schemas parts') = .multi members' →
        ((Schema.multi members).digested = (Schema.multi members').digested ↔
          members.map Instance.hash = members'.map Instance.hash) := by
  have hdigests : ∀ {ps : List Grouping}, (∀ s ∈ leavesOf ps, s.Built) →
      ∀ s ∈ Schema.firstOccurrences (leavesOf ps), IsDigest s.hash := by
    intro ps hps s hs
    rw [← Schema.dropRepeated_eq_firstOccurrences] at hs
    exact (hps s ((dropRepeated_sublist _ _).subset hs)).isDigest
  refine ⟨_, schema_group parts, rfl, ?_, hdigests hparts, ?_, rfl, rfl, ?_⟩
  · rw [← Schema.dropRepeated_eq_firstOccurrences]
    exact Schema.nodup_dropRepeated _ _
  · intro parts' hleaves
    rw [← hleaves]
    exact schema_group parts'
  · intro parts' members' hparts' hmembers'
    obtain rfl := Schema.multi.inj ((schema_group parts').symm.trans hmembers')
    exact digested_multi_inj (hdigests hparts) (hdigests hparts')

open Grouping in
theorem grouping_flat_nested :
    ∃ s, (∀ t ∈ leavesOf [group [leaf s], leaf s], t.Built) ∧
      leavesOf [leaf s, group [leaf s]] = leavesOf [group [leaf s], leaf s] ∧
      Schema.ofAlternatives (schemas [group [leaf s], leaf s]) = .multi [s] ∧
      Schema.ofAlternatives (schemas [leaf s, group [leaf s]]) = .multi [s] ∧
      IsDigest s.hash := by
  obtain ⟨hash, hs⟩ := compile_text
  have hbuilt : ∀ t ∈ [textPlan.toInstance hash, textPlan.toInstance hash], t.Built := by
    simp only [List.mem_cons, List.not_mem_nil, or_false, or_self, forall_eq]
    exact ⟨_, _, _, _, hs, List.mem_singleton.mpr rfl⟩
  have hfirst : Schema.firstOccurrences [textPlan.toInstance hash, textPlan.toInstance hash]
      = [textPlan.toInstance hash] := by
    simp [Schema.firstOccurrences]
  obtain ⟨members, hgroup, rfl, -, hdigest, hother, -⟩ :=
    grouping_flat [group [leaf (textPlan.toInstance hash)], leaf (textPlan.toInstance hash)] hbuilt
  have hmembers : Schema.firstOccurrences (leavesOf [group [leaf (textPlan.toInstance hash)],
      leaf (textPlan.toInstance hash)]) = [textPlan.toInstance hash] := hfirst
  rw [hmembers] at hgroup hdigest hother
  exact ⟨_, hbuilt, rfl, hgroup, hother _ rfl, hdigest _ List.mem_cons_self⟩

end Conform
