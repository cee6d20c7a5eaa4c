/-
# `Proofs.Schema.Supplied` — a default in place of a missing value

A single schema takes its default before it checks, so a missing value and the
default come to the same.  Alternatives have a default as well, that of the first
member with one, but they do not take it: they search for a member that accepts a
missing value, and what becomes of it is up to this member.  So the two come to the
same only where the search ends at one member for both, and at one that has the
default.
-/
import Conform.Proofs.Digest.Total
import Conform.Proofs.Schema.Choice
import Conform.Proofs.Schema.Steady
import Conform.Proofs.Schema.Transparent

namespace Conform

variable {d : Value}

/-! ## One schema -/

/-- Nothing else is supplied for a default, not even if it is absent itself. -/
theorem supplied_default {p : Plan} {hash : String} (h : p.hasDefault = true)
    (hfresh : p.default.freshDefault = .ok p.default) :
    (p.toInstance hash).supplied .undefined = .ok p.default ∧
      (p.toInstance hash).supplied p.default = .ok p.default := by
  have hsupplied : (p.toInstance hash).supplied .undefined = .ok p.default := by
    rw [supplied_toInstance, h, hfresh]
    rfl
  exact ⟨hsupplied, supplied_supplied hsupplied⟩

theorem normalize_default {t : Instance} (ht : (Schema.single t).Compiled)
    (hdefault : t.flag "has_default" = .ok true) (hd : t.get "default" = .ok d)
    (hfresh : d.freshDefault = .ok d) :
    (Schema.single t).normalize .undefined = (Schema.single t).normalize d := by
  cases ht with
  | single p hash proper _ _ =>
      rw [Plan.flag_hasDefault] at hdefault
      rw [Plan.get_default] at hd
      obtain rfl := Except.ok.inj hd
      obtain ⟨hmissing, hgiven⟩ := supplied_default (Except.ok.inj hdefault) hfresh
      rw [normalize_toInstance, normalize_toInstance, hmissing, hgiven]

/-! ## Alternatives -/

/-- Where no member accepts a value, the alternatives refuse it. -/
theorem normalize_refused {v : Value} {members : List Instance}
    (h : ∀ s ∈ members, (Schema.single s).accepts v = .ok false) :
    ∃ info, (Schema.multi members).normalize v = .error (.value info) := by
  obtain ⟨errors, heach⟩ := exists_forall₂ fun s hs => Schema.accepts_eq_false.mp (h s hs)
  have hrun := (run_eq_refused 0).mpr (List.forall₂_map_left_iff.mpr heach)
  refine ⟨.ofVariants errors "" .multi, ?_⟩
  rw [Schema.normalize_multi, searchMembers_eq, hrun]
  rfl

section standin

/-- Any value, or one. -/
def standinOptions : Entries := [(.str "default", .int 1)]

def standinPlan : Plan :=
  { Plan.plain (.str "typed") .typed none with default := .int 1, hasDefault := true }

/-- A text, or this one. -/
def textOptions : Entries := [(.str "type", .str "string"), (.str "default", .str "a")]

def textPlan : Plan :=
  { Plan.plain (.str "string") (.string none 0 none) none with
    default := .str "a", hasDefault := true }

theorem compile_standin :
    ∃ hash, Registry.builtin.compile (.dict standinOptions) .none
      = .ok (.single (standinPlan.toInstance hash)) :=
  Plan.compile_of_digestible (p := standinPlan) standinOptions builtinControllers[0] rfl rfl rfl
    (absurd rfl) rfl

theorem compile_text :
    ∃ hash, Registry.builtin.compile (.dict textOptions) .none
      = .ok (.single (textPlan.toInstance hash)) :=
  Plan.compile_of_digestible (p := textPlan) textOptions builtinControllers[7] rfl rfl rfl
    (fun _ => rfl) rfl

/-- A list of one configuration compiles to one alternative. -/
theorem compile_alone {config : Entries} {s : Instance}
    (h : Registry.builtin.compile (.dict config) .none = .ok (.single s)) :
    Registry.builtin.compile (.list [.dict config]) .none = .ok (.multi [s]) :=
  compile_list (.cons h .nil)

end standin

end Conform
