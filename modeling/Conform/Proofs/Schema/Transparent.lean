/-
# `Proofs.Schema.Transparent` — alternatives may be left out

A list of configurations becomes one schema, in which alternatives whose
digest occurred before are left out.  Where the digests are faithful this
does not show: schemas with one digest decide alike, at every depth, so the
alternative that a value belongs to is never left out.  Canonical forms
take a number of fixed representation for the plain one, which the
comparison with listed values does not, and there it does show.
-/
import Conform.Proofs.Schema.Alike
import Conform.Proofs.Schema.Choice

namespace Conform

namespace Schema

variable {ss : List Instance} {u w : Schema}

theorem Among.part {s : Instance} (h : Among ss (.single s)) (hu : u ∈ s.parts) : Among ss u := by
  obtain ⟨t, ht, hin⟩ := h
  exact ⟨t, ht, .part hin hu⟩

theorem Among.member {members : List Instance} (h : Among ss (.multi members)) {s : Instance}
    (hs : s ∈ members) : Among ss (.single s) := by
  obtain ⟨t, ht, hin⟩ := h
  exact ⟨t, ht, .member hin hs⟩

/-! ## The text of a digest -/

theorem Compiled.digested_ok (h : u.Compiled) :
    ∃ text, u.digested = .ok text ∧ u.hash = Sha256.hexDigest text := by
  cases h with
  | single p hash _ digest =>
      rw [Attributes.hash_eq] at digest
      obtain ⟨text, htext, hhash⟩ := map_eq_ok.mp digest
      exact ⟨text, htext, hhash.symm⟩
  | multi members => exact ⟨_, rfl, rfl⟩

/-- Only the text of a single schema has lines with names. -/
theorem equals_digested {text : String} (h : u.Compiled) (htext : u.digested = .ok text) :
    '=' ∈ text.toList ↔ ∃ s, u = .single s := by
  cases h with
  | single p hash =>
      refine ⟨fun _ => ⟨_, rfl⟩, fun _ => ?_⟩
      obtain ⟨ls, hls, htext⟩ := bind_eq_ok.mp htext
      rw [← Except.ok.inj htext]
      have hdefault : ("default", p.default) ∈ p.attributes := List.mem_cons_self
      have hpublic : isPublic "default" = true := by decide
      exact Attributes.equals_mem_text hls hdefault hpublic
  | multi members each =>
      refine ⟨fun hequals => ?_, fun ⟨s, hs⟩ => nomatch hs⟩
      rw [← Except.ok.inj htext, String.toList_join] at hequals
      obtain ⟨_, hhash, hequals⟩ := List.mem_flatMap.mp hequals
      obtain ⟨s, hs, rfl⟩ := List.mem_map.mp hhash
      obtain ⟨_, -, hdigest⟩ := (each s hs).digested_ok
      rw [show s.hash = _ from hdigest] at hequals
      exact absurd hequals (Sha256.equals_hexDigest _)

theorem Compiled.hash_length {s : Instance} (h : (Schema.single s).Compiled) :
    s.hash.toList.length = 64 := by
  obtain ⟨_, -, hdigest⟩ := h.digested_ok
  rw [show s.hash = _ from hdigest]
  exact Sha256.hexDigest_length _

/-- The digests of alternatives are read back from their row. -/
theorem hash_members {members members' : List Instance}
    (h : ∀ s ∈ members, (Schema.single s).Compiled)
    (h' : ∀ s ∈ members', (Schema.single s).Compiled)
    (htext : String.join (members.map Instance.hash) = String.join (members'.map Instance.hash)) :
    List.Forall₂ (fun s t : Instance => s.hash = t.hash) members members' := by
  have hrow := join_inj (by decide) (List.forall_mem_map.mpr fun s hs => (h s hs).hash_length)
    (List.forall_mem_map.mpr fun s hs => (h' s hs).hash_length) htext
  rw [← List.forall₂_eq_eq_eq] at hrow
  simpa [List.forall₂_map_left_iff, List.forall₂_map_right_iff] using hrow

/-! ## One digest -/

theorem required_congr {members members' : List Instance}
    (h : List.Forall₂ (fun s t => s.flag "required" = t.flag "required") members members') :
    (multi members).required = (multi members').required := by
  have hall : Instance.allFlag "required" members = Instance.allFlag "required" members' := by
    induction h with
    | nil => rfl
    | cons hhead _ ih => rw [Instance.allFlag, Instance.allFlag, hhead, ih]
  cases h with
  | nil => rfl
  | cons _ _ => exact hall

/-- Where digests are faithful, schemas with one digest have one text. -/
theorem Compiled.digested_eq (hf : Faithful ss) (hu : u.Compiled) (hw : w.Compiled)
    (hau : Among ss u) (haw : Among ss w) (hhash : u.hash = w.hash) :
    ∃ text, u.digested = .ok text ∧ w.digested = .ok text := by
  obtain ⟨text, hut, hux⟩ := hu.digested_ok
  obtain ⟨text', hwt, hwx⟩ := hw.digested_ok
  obtain rfl := hf.digest _ _ hau haw _ _ hut hwt (hux.symm.trans (hhash.trans hwx))
  exact ⟨text, hut, hwt⟩

/-- Compiled schemas with one digest decide alike. -/
theorem Compiled.alike (hf : Faithful ss) (hu : u.Compiled) (hw : w.Compiled) (hau : Among ss u)
    (haw : Among ss w) (hhash : u.hash = w.hash) : u.Alike w := by
  induction hu generalizing w with
  | single p hash proper digest parts ih =>
      have hp := Compiled.single p hash proper digest parts
      obtain ⟨text, hpt, hwt⟩ := hp.digested_eq hf hw hau haw hhash
      obtain ⟨s, rfl⟩ := (equals_digested hw hwt).mp ((equals_digested hp hpt).mpr ⟨_, rfl⟩)
      cases hw with
      | single q hash' proper' digest' parts' =>
          have htokens := Plan.sameTokens hf hau haw hpt hwt
          have hmatches : Plan.Matches ss p q :=
            { faithful := hf
              left := ⟨hash, hau⟩
              right := ⟨hash', haw⟩
              proper := proper
              proper' := proper'
              tokens := htokens
              compiled := parts
              compiled' := parts'
              alike := fun t ht v hv heq => ih t ht (parts' v hv)
                (hau.part (by rwa [Plan.parts_toInstance]))
                (haw.part (by rwa [Plan.parts_toInstance])) heq }
          constructor
          · show (p.toInstance hash).flag "required" = (q.toInstance hash').flag "required"
            rw [Plan.flag_required, Plan.flag_required, htokens.required]
          · intro v
            rw [accepts_single hash proper.demand proper.legible parts,
              accepts_single hash' proper'.demand proper'.legible parts', hmatches.accepts v]
  | multi members each ih =>
      have hmulti := Compiled.multi members each
      obtain ⟨text, hut, hwt⟩ := hmulti.digested_eq hf hw hau haw hhash
      cases hw with
      | single q hash' proper' digest' parts' =>
          have hq := Compiled.single q hash' proper' digest' parts'
          obtain ⟨s, hs⟩ := (equals_digested hmulti hut).mp ((equals_digested hq hwt).mpr ⟨_, rfl⟩)
          cases hs
      | multi members' each' =>
          have hrow := hash_members each each'
            ((Except.ok.inj hut).trans (Except.ok.inj hwt).symm)
          have halike : List.Forall₂ (fun s t => (Schema.single s).Alike (.single t)) members
              members' := forall₂_imp (fun s hs t ht heq =>
            ih s hs (each' t ht) (hau.member hs) (haw.member ht) heq) hrow
          constructor
          · exact required_congr (halike.imp fun _ _ h => h.required)
          · intro v
            rw [accepts_multi each, accepts_multi each']
            exact askAny_congr (halike.imp fun _ _ h => h.accepts v)

end Schema

/-! ## Alternatives -/

/-- Configurations that compile one by one become alternatives. -/
theorem compile_list {r : Registry} {cs : List Entries} {ss : List Instance}
    (h : List.Forall₂ (fun c s => r.compile (.dict c) .none = .ok (.single s)) cs ss) :
    r.compile (.list (cs.map .dict)) .none = .ok (.ofAlternatives (ss.map .single)) := by
  have hsingle : ∀ {c : Entries} {s : Instance}, r.compile (.dict c) .none = .ok (.single s) →
      (compileSingle (compile r) r (.dict c) .none).result = .ok s := by
    intro c s hc
    change (compile r (.dict c) (mark none)).result = _ at hc
    rw [compile_eq, compileWith_unlisted _ rfl, map_eq_ok] at hc
    obtain ⟨t, ht, heq⟩ := hc
    obtain rfl := Schema.single.inj heq
    exact ht
  change (compile r (.list (cs.map .dict)) .none).result = _
  rw [compile_eq, compileWith_listed _ rfl, map_eq_ok]
  exact ⟨ss, mapM_eq_ok.mpr (List.forall₂_map_left_iff.mpr (h.imp fun _ _ => hsingle)), rfl⟩

/-- Where digests are faithful, the alternatives of a list of configurations
decide like all the schemas that these compile to. -/
theorem alternatives_transparent {cs : List Entries} {ss : List Instance}
    (hcs : List.Forall₂ (fun c s => Registry.builtin.compile (.dict c) .none = .ok (.single s)) cs ss)
    (hf : Schema.Faithful ss) :
    ∃ members, Registry.builtin.compile (.list (cs.map .dict)) .none = .ok (.multi members) ∧
      (∀ v, (Schema.multi members).accepts v = .ok true ↔ ∃ t, Schema.Chosen v ss t) ∧
      ∀ v t, Schema.Chosen v ss t →
        (Schema.multi members).normalize v = (Schema.single t).normalize v := by
  have hcompiled : ∀ s ∈ ss, (Schema.single s).Compiled := by
    intro s hs
    obtain ⟨c, -, hc⟩ := forall₂_mem_right hcs hs
    exact compiled_of_compile hc
  have hmembers := congrArg Schema.members (ofAlternatives_single ss)
  refine ⟨_, compile_list hcs, Schema.chosen_of_members hmembers fun s hs t ht hhash => ?_⟩
  exact ((hcompiled s hs).alike hf (hcompiled t ht) ⟨s, hs, .self⟩ ⟨t, ht, .self⟩ hhash).accepts

/-! ## Listed numbers -/

def listedOptions (v : Value) : Entries := [(.str "enum", .list [v])]

def listedPlan (v : Value) : Plan :=
  { Plan.plain (.str "typed") .typed none with enum := some [v] }

theorem sortedPublic_listedPlan (v : Value) :
    (listedPlan v).attributes.sortedPublic = (listedPlan v).attributes := by
  refine Plan.sortedPublic_eq (.refl _) ?_
  show ["default", "enum", "has_default", "transform", "type",
    "validator"].Pairwise fun s t => textBelow s t = true
  decide

theorem compile_listed {v : Value} {hash : String}
    (hhash : (listedPlan v).attributes.hash = .ok hash) :
    Registry.builtin.compile (.dict (listedOptions v)) .none
      = .ok (.single ((listedPlan v).toInstance hash)) :=
  Plan.compile_eq_plan (p := listedPlan v) (listedOptions v)
    ⟨.typed, [.str "typed", .aliasKey .typed], true⟩ rfl rfl rfl (absurd rfl) hhash

theorem hash_listed {n : Int} (hn : Number.isWritable n = true) :
    ∃ hash, (listedPlan (.int n)).attributes.hash = .ok hash := by
  refine Plan.hash_ok (p := listedPlan (.int n)) ?_ rfl rfl
    ⟨_, Value.token_ok rfl Value.outline_undefined⟩ ⟨_, Value.token_ok rfl rfl⟩
    (List.forall_mem_nil _)
  intro items hitems
  obtain rfl := Option.some.inj hitems
  exact ⟨_, Value.token_ok rfl
    (Value.outline_list.mpr ⟨_, rfl, .cons (StableText.intTree_ok hn) .nil⟩)⟩

theorem accepts_listed (v : Value) (hash : String) (w : Value) :
    (Schema.single ((listedPlan v).toInstance hash)).accepts w
      = (listedPlan v).accepts Schema.accepts w :=
  Schema.accepts_single (p := listedPlan v) hash trivial (.of_nil rfl rfl) nofun w

/-- A schema of one listed integer, however often, has nothing to be confused
with. -/
theorem faithful_listed {n : Int} (hn : Number.isWritable n = true) {hash : String}
    {ss : List Instance} (hss : ∀ s ∈ ss, s = (listedPlan (.int n)).toInstance hash) :
    Schema.Faithful ss := by
  have hamong : ∀ u, Schema.Among ss u → u = .single ((listedPlan (.int n)).toInstance hash) := by
    rintro u ⟨s, hs, hin⟩
    rw [hss s hs] at hin
    exact (listedPlan (.int n)).eq_of_inside hash rfl hin
  have hrecords : ∀ {name : String} {v : Value}, Schema.Records ss name v →
      (name, v) ∈ (listedPlan (.int n)).attributes := by
    rintro name v ⟨t, ht, hv⟩
    obtain rfl := Schema.single.inj (hamong _ ht)
    exact Plan.lookup_iff.mp hv
  simp only [listedPlan, Plan.plain, Plan.attributes, Plan.common, Demand.attributes, Plan.added,
    optional, Option.toList, List.map_nil, List.append_nil, List.mem_cons, List.not_mem_nil,
    or_false, Prod.mk.injEq] at hrecords
  have hsimple : ∀ {name : String} {v : Value}, Schema.Records ss name v → v.isReal = false ∧
      (∀ f, v ≠ .callable f) ∧ (∀ r, v ≠ .pattern r) ∧ ∀ es, v ≠ .dict es := by
    intro name v hv
    rcases hrecords hv with ⟨-, rfl⟩ | ⟨-, rfl⟩ | ⟨-, rfl⟩ | ⟨-, rfl⟩ | ⟨-, rfl⟩ | ⟨-, rfl⟩ <;>
      simp [Value.isReal]
  have hnamed : Schema.Named ss := by
    constructor
    · intro u w hu hw x y hx hy _
      rw [hamong u hu] at hx
      rw [hamong w hw] at hy
      exact Except.ok.inj (hx.symm.trans hy)
    · exact fun name f h => absurd rfl ((hsimple h).2.1 f)
    · exact fun f g h => absurd rfl ((hsimple h).2.1 f)
    · exact fun r q h => absurd rfl ((hsimple h).2.2.1 r)
  have hplain : Schema.ArePlain (fun _ => False) ss := by
    constructor
    · intro xs hxs x hx
      have hxs : xs = [.int n] := by simpa using hrecords hxs
      rw [hxs, List.mem_singleton] at hx
      exact hx ▸ .int hn
    · intro name a ha hreal
      rw [(hsimple ha).1] at hreal
      cases hreal
    · exact fun es h => absurd rfl ((hsimple h).2.2.2 es)
    · exact fun es h => absurd rfl ((hsimple h).2.2.2 es)
  exact hplain.faithful ⟨fun _ hx => False.elim hx, fun _ _ hx => False.elim hx⟩ hnamed

theorem alternatives_transparent_repeated :
    ∃ s members, Registry.builtin.compile
        (.list [.dict (listedOptions (.int 1)), .dict (listedOptions (.int 1))]) .none
          = .ok (.multi members) ∧
      Schema.Faithful [s, s] ∧ (Schema.multi members).accepts (.int 1) = .ok true ∧
      (Schema.multi members).normalize (.int 1) = (Schema.single s).normalize (.int 1) ∧
      (Schema.multi members).accepts (.int 2) ≠ .ok true := by
  obtain ⟨hash, hhash⟩ := hash_listed (n := 1) (by decide)
  have hs := compile_listed hhash
  have hsame : ∀ s ∈ [(listedPlan (.int 1)).toInstance hash, (listedPlan (.int 1)).toInstance hash],
      s = (listedPlan (.int 1)).toInstance hash := by simp
  have hf := faithful_listed (by decide) hsame
  obtain ⟨members, hmulti, haccepts, hnormalize⟩ :=
    alternatives_transparent (.cons hs (.cons hs .nil)) hf
  have hone : (Schema.single ((listedPlan (.int 1)).toInstance hash)).accepts (.int 1)
      = .ok true := accepts_listed _ _ _
  have htwo : (Schema.single ((listedPlan (.int 1)).toInstance hash)).accepts (.int 2)
      = .ok false := accepts_listed _ _ _
  refine ⟨_, members, hmulti, hf, (haccepts _).mpr ⟨_, .here hone⟩, hnormalize _ _ (.here hone), ?_⟩
  intro h
  obtain ⟨t, ht⟩ := (haccepts _).mp h
  rw [Schema.chosen_cons_of_refused htwo, Schema.chosen_cons_of_refused htwo] at ht
  exact Schema.not_chosen_nil ht

def fixedOne : Value := .scalar (.integer .int64 1)

theorem lines_fixedOne : (listedPlan fixedOne).attributes.lines
    = (listedPlan (.int 1)).attributes.lines := by
  rw [Attributes.lines, sortedPublic_listedPlan, Attributes.lines, sortedPublic_listedPlan]
  rfl

/-- A number of fixed representation is digested like a plain one but is not
equal to it, so its alternative is missed. -/
theorem alternatives_missed :
    ∃ s t members,
      Registry.builtin.compile (.dict (listedOptions (.int 1))) .none = .ok (.single s) ∧
      Registry.builtin.compile (.dict (listedOptions fixedOne)) .none = .ok (.single t) ∧
      (Schema.single s).digested = (Schema.single t).digested ∧
      Registry.builtin.compile
        (.list [.dict (listedOptions (.int 1)), .dict (listedOptions fixedOne)]) .none
          = .ok (.multi members) ∧
      (Schema.single t).accepts fixedOne = .ok true ∧
      (Schema.multi members).accepts fixedOne = .ok false := by
  obtain ⟨hash, hhash⟩ := hash_listed (n := 1) (by decide)
  have hhash' : (listedPlan fixedOne).attributes.hash = .ok hash := by
    rw [Attributes.hash, lines_fixedOne]
    exact hhash
  have hs := compile_listed hhash
  have ht := compile_listed hhash'
  have hlist := compile_list (.cons hs (.cons ht .nil))
  have hmembers : Schema.ofAlternatives ([(listedPlan (.int 1)).toInstance hash,
      (listedPlan fixedOne).toInstance hash].map .single)
        = .multi [(listedPlan (.int 1)).toInstance hash] := by
    simp [Schema.ofAlternatives, Schema.members, Schema.dropRepeated, Plan.toInstance]
  rw [hmembers] at hlist
  refine ⟨_, _, _, hs, ht, ?_, hlist, ?_, ?_⟩
  · exact congrArg (· >>= fun ls => pure ("\n".intercalate ls)) lines_fixedOne.symm
  · rw [accepts_listed]
    rfl
  · have hcompiled : ∀ s ∈ [(listedPlan (.int 1)).toInstance hash], (Schema.single s).Compiled := by
      intro s hmem
      rw [List.mem_singleton.mp hmem]
      exact compiled_of_compile hs
    rw [Schema.accepts_multi hcompiled, askAny, accepts_listed]
    rfl

end Conform
