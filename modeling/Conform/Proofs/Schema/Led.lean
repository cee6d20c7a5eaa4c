/-
# `Proofs.Schema.Led` — a lead decorates a message

Each check takes the lead of its message and writes it before its own words, as
do the summaries of several errors and of refused alternatives.  Errors of parts
have leads of their own, which name their places, and are summed up below the
first line.  So the verdicts with a lead and without one go through the same
branches, and differ in the front of one message.
-/
import Conform.Proofs.Schema.Accepts
import Conform.Proofs.Schema.Supplied

namespace Conform

/-- The same error, with a lead before its message. -/
def ErrorInfo.ledBy (e : ErrorInfo) (lead : String) : ErrorInfo :=
  { e with message := lead ++ e.message }

theorem ErrorInfo.eq_ledBy_iff {e e' : ErrorInfo} {lead : String} :
    e' = e.ledBy lead ↔ e'.message = lead ++ e.message ∧ e'.kind = e.kind ∧
      e'.errors = e.errors ∧ e'.property = e.property ∧ e'.index = e.index := by
  constructor
  · rintro rfl
    exact ⟨rfl, rfl, rfl, rfl, rfl⟩
  · rintro ⟨hmessage, hkind, herrors, hproperty, hindex⟩
    obtain ⟨message, kind, errors, property, index⟩ := e'
    subst hmessage hkind herrors hproperty hindex
    rfl

/-- The first verdict is the second after a lead: both accept, or the errors differ in
the message alone, or both fail in the same way. -/
inductive Led (lead : String) : Verdict → Verdict → Prop
  | accepts : Led lead (.ok none) (.ok none)
  | refuses (e : ErrorInfo) : Led lead (.ok (some (e.ledBy lead))) (.ok (some e))
  | fails (f : Failure) : Led lead (.error f) (.error f)

namespace Led

variable {lead : String} {x y x' y' : Verdict}

theorem iff_eq : Led lead x y ↔ x = Option.map (·.ledBy lead) <$> y := by
  constructor
  · intro h
    cases h with
    | accepts => rfl
    | refuses e => rfl
    | fails f => rfl
  · rintro rfl
    rcases y with f | (_ | e)
    · exact .fails f
    · exact .accepts
    · exact .refuses e

theorem accepts_iff (h : Led lead x y) : x = .ok none ↔ y = .ok none := by
  cases h <;> simp

theorem refuses_iff (h : Led lead x y) {e' : ErrorInfo} :
    x = .ok (some e') ↔ ∃ e, y = .ok (some e) ∧ e' = e.ledBy lead := by
  cases h <;> simp [eq_comm]

/-- What is asked before the message is composed has no part in it. -/
theorem bind {α : Type} {z : Outcome α} {f g : α → Verdict} (h : ∀ a, Led lead (f a) (g a)) :
    Led lead (z >>= f) (z >>= g) := by
  cases z with
  | error e => exact .fails e
  | ok a => exact h a

theorem ite {c : Prop} [Decidable c] (ht : Led lead x y) (he : Led lead x' y') :
    Led lead (if c then x else x') (if c then y else y') := by
  split
  · exact ht
  · exact he

theorem firstOf (h : Led lead x y) (h' : Led lead x' y') :
    Led lead (firstOf x x') (firstOf y y') := by
  cases h with
  | accepts => exact h'
  | refuses e => exact .refuses e
  | fails f => exact .fails f

/-- A message is composed after its lead. -/
theorem of_message (text : String) (e : ErrorInfo) :
    Led lead (.ok (some { e with message := lead ++ text }))
      (.ok (some { e with message := "" ++ text })) := by
  rw [String.empty_append]
  exact .refuses { e with message := text }

end Led

/-! ## One check after another -/

section checks

variable {s : Instance} {v : Value} (lead : String)

theorem led_refused (v : Value) (expects : String) (kind : ErrorKind) :
    Led lead (refused (.str lead) v expects kind) (refused (.str "") v expects kind) :=
  .bind fun message => .of_message message (.of "" kind)

theorem led_reported (message : String) (kind : ErrorKind) :
    Led lead (reported (.str lead) message kind) (reported (.str "") message kind) :=
  .of_message message (.of "" kind)

theorem led_checkEnum : Led lead (s.checkEnum v (.str lead)) (s.checkEnum v (.str "")) := by
  refine .bind fun listed => .ite .accepts (.bind fun items => .ite .accepts (.bind fun words => ?_))
  exact led_refused lead v _ _

theorem led_checkValidator :
    Led lead (s.checkValidator v (.str lead)) (s.checkValidator v (.str "")) := by
  refine .bind fun validator => ?_
  cases validator with
  | none => exact .accepts
  | callable f =>
      refine .bind fun answer => .bind fun accepted => ?_
      cases answer.text? with
      | some text => exact .bind fun said => led_refused lead v _ _
      | none => exact .ite .accepts (led_refused lead v _ _)
  | _ => exact .fails _

theorem led_checkTyped : Led lead (s.checkTyped v (.str lead)) (s.checkTyped v (.str "")) :=
  (led_checkEnum lead).firstOf (led_checkValidator lead)

theorem led_checkBoolean :
    Led lead (Instance.checkBoolean v (.str lead)) (Instance.checkBoolean v (.str "")) :=
  .ite .accepts (led_refused lead v _ _)

theorem led_checkSymbol :
    Led lead (Instance.checkSymbol v (.str lead)) (Instance.checkSymbol v (.str "")) := by
  unfold Instance.checkSymbol
  split
  · exact .accepts
  · exact led_refused lead v _ _

theorem led_checkBound (side : Instance.Side) :
    Led lead (s.checkBound side v (.str lead)) (s.checkBound side v (.str "")) := by
  refine .bind fun bound => .ite .accepts (.bind fun given => .bind fun exclusive => .bind fun out =>
    .ite (.bind fun shown => ?_) .accepts)
  exact led_refused lead v _ _

theorem led_checkNumber : Led lead (s.checkNumber v (.str lead)) (s.checkNumber v (.str "")) := by
  refine .ite (led_refused lead v _ _) (.bind fun given => .bind fun integer =>
    .ite (led_refused lead v _ _) ?_)
  exact (led_checkBound lead .upper).firstOf (led_checkBound lead .lower)

theorem led_checkLength (m : Instance.Measure) (n : Nat) :
    Led lead (s.checkLength m n (.str lead)) (s.checkLength m n (.str "")) := by
  refine .bind fun low => .bind fun short => .ite (.bind fun shown => led_reported lead _ _)
    (.bind fun high => .ite .accepts (.bind fun long => .ite (.bind fun shown => ?_) .accepts))
  exact led_reported lead _ _

theorem led_checkPattern (text : String) :
    Led lead (s.checkPattern v text (.str lead)) (s.checkPattern v text (.str "")) := by
  refine .bind fun pattern => ?_
  cases pattern with
  | none => exact .accepts
  | pattern p =>
      exact .bind fun found => .ite .accepts (.bind fun shown => led_reported lead _ _)
  | _ => exact .fails _

theorem led_checkString : Led lead (s.checkString v (.str lead)) (s.checkString v (.str "")) := by
  unfold Instance.checkString
  split
  · exact led_refused lead v _ _
  · exact (led_checkLength lead _ _).firstOf (led_checkPattern lead _)

theorem led_checkArguments (n : Nat) :
    Led lead (s.checkArguments n v (.str lead)) (s.checkArguments n v (.str "")) := by
  refine .bind fun low => .bind fun few => .ite (.bind fun shown => led_refused lead v _ _)
    (.bind fun high => .ite .accepts (.bind fun many => .ite (.bind fun shown => ?_) .accepts))
  exact led_refused lead v _ _

theorem led_checkFunction :
    Led lead (s.checkFunction v (.str lead)) (s.checkFunction v (.str "")) := by
  unfold Instance.checkFunction
  split
  · refine .bind fun given => .bind fun named => .ite (led_refused lead _ _ _) ?_
    split
    · exact .accepts
    · exact led_checkArguments lead _
  · exact .bind fun given => .bind fun named => led_refused lead _ _ _

theorem led_checkUnique (items : List Value) :
    Led lead (s.checkUnique items (.str lead)) (s.checkUnique items (.str "")) := by
  refine .bind fun given => .bind fun unique => .ite .accepts ?_
  split
  · exact .accepts
  · exact led_reported lead _ _

/-- An error that sums up others has its lead in front of the count; the errors that it
sums up have leads of their own. -/
theorem led_summarized (one several : String) (kind : ErrorKind) (errors : List ErrorInfo) :
    Led lead (summarized (.str lead) one several kind errors)
      (summarized (.str "") one several kind errors) := by
  cases errors with
  | nil => exact .accepts
  | cons e rest => exact .of_message _ { ErrorInfo.of "" kind with errors := e :: rest }

variable {ask : Ask}

theorem led_checkItems (items : List Value) :
    Led lead (Instance.checkItems ask s items (.str lead))
      (Instance.checkItems ask s items (.str "")) :=
  .bind fun _ => .ite .accepts (.bind fun errors => led_summarized lead _ _ _ errors)

theorem led_checkArray :
    Led lead (Instance.checkArray ask s v (.str lead)) (Instance.checkArray ask s v (.str "")) := by
  unfold Instance.checkArray
  split
  · exact led_refused lead v _ _
  · refine (led_checkLength lead _ _).firstOf ?_
    exact (led_checkUnique lead _).firstOf (led_checkItems lead _)

theorem led_checkObject :
    Led lead (Instance.checkObject ask s v (.str lead))
      (Instance.checkObject ask s v (.str "")) := by
  unfold Instance.checkObject
  split
  · refine .bind fun given => .bind fun allowed => .ite .accepts ?_
    exact .of_message _ (.of "" .objectNone)
  · refine .bind fun properties => .bind fun missing => .bind fun generic => .bind fun errors => ?_
    exact led_summarized lead _ _ _ _
  · exact led_refused lead v _ _

theorem led_searchVerdict (search : Search) (kind : ErrorKind) :
    Led lead (Instance.searchVerdict search (.str lead) kind)
      (Instance.searchVerdict search (.str "") kind) := by
  cases search with
  | found position schema => exact .accepts
  | refused errors =>
      simp only [Instance.searchVerdict, orEmpty_str, lift_ok, ok_bind]
      exact .of_message _ { ErrorInfo.of "" kind with errors := errors }

theorem led_checkOneOf :
    Led lead (Instance.checkOneOf ask s v (.str lead)) (Instance.checkOneOf ask s v (.str "")) :=
  .bind fun _ => .bind fun search => led_searchVerdict lead search .oneOf

theorem led_checkCall (f : Callable) :
    Led lead (s.checkCall f v (.str lead)) (s.checkCall f v (.str "")) := by
  unfold Instance.checkCall
  split
  · refine .bind fun applies => .ite ?_ .accepts
    exact .of_message _ (.of "" _)
  · exact .ite .accepts (.fails _)
  · exact .fails _

/-- One step of a chain, of this library or added. -/
theorem led_checkStep (step : Step) :
    Led lead (Instance.checkStep ask s v (.str lead) step)
      (Instance.checkStep ask s v (.str "") step) := by
  cases step with
  | call f => exact led_checkCall lead f
  | builtin kind =>
      cases kind with
      | typed => exact led_checkTyped lead
      | array => exact led_checkArray lead
      | boolean => exact led_checkBoolean lead
      | function => exact led_checkFunction lead
      | number => exact led_checkNumber lead
      | object => exact led_checkObject lead
      | oneOf => exact led_checkOneOf lead
      | string => exact led_checkString lead
      | symbol => exact led_checkSymbol lead

/-- A whole chain of steps. -/
theorem led_firstError (steps : List Step) :
    Led lead (Instance.firstError ask s v (.str lead) steps)
      (Instance.firstError ask s v (.str "") steps) := by
  induction steps with
  | nil => exact .accepts
  | cons step rest ih => exact (led_checkStep lead step).firstOf ih

end checks

/-! ## Schemas -/

theorem Instance.led_errorWith (lead : String) (ask : Ask) (s : Instance) (v : Value) :
    Led lead (s.errorWith ask v (.str lead)) (s.errorWith ask v (.str "")) := by
  refine .bind fun _ => ?_
  rw [orEmpty_str, orEmpty_str]
  exact led_firstError lead s.checks

/-- The schemas inside are asked with the leads of their places, so whatever answers for
them is the same with and without a lead. -/
theorem Schema.led_error (lead : String) (s : Schema) (v : Value) :
    Led lead (s.error v (.str lead)) (s.error v (.str "")) := by
  rw [error_eq, error_eq]
  cases s with
  | single t => exact t.led_errorWith lead _ v
  | multi members => exact .bind fun search => led_searchVerdict lead search .multi

/-- **A lead decorates the message and decides nothing.**  With any lead, a schema fails,
accepts or refuses a value as it does with none, and a refusal is the same error, parts
and places included, with the lead before its own message.  So the search for an
alternative, which asks without a lead, ends where every candidate before refuses with
a lead, and the one that is found accepts with it. -/
theorem error_led (s : Schema) (v : Value) (lead : String) :
    s.error v (.str lead) = Option.map (·.ledBy lead) <$> s.error v (.str "") ∧
      (s.error v (.str lead) = .ok none ↔ s.error v (.str "") = .ok none) ∧
      (∀ e', s.error v (.str lead) = .ok (some e') ↔ ∃ e, s.error v (.str "") = .ok (some e) ∧
        e'.message = lead ++ e.message ∧ e'.kind = e.kind ∧ e'.errors = e.errors ∧
          e'.property = e.property ∧ e'.index = e.index) ∧
      ∀ (ts : List Schema) (n : Nat) (t : Schema),
        Search.run Schema.error v 0 (ts.map .schema) = .ok (.found n t) ↔
          ∃ before after, ts = before ++ t :: after ∧ n = before.length ∧
            t.error v (.str lead) = .ok none ∧
            ∀ u ∈ before, ∃ e, u.error v (.str lead) = .ok (some e) := by
  have hled := s.led_error lead v
  refine ⟨Led.iff_eq.mp hled, hled.accepts_iff, fun e' => hled.refuses_iff.trans ?_, ?_⟩
  · exact exists_congr fun e => and_congr_right fun _ => ErrorInfo.eq_ledBy_iff
  · intro ts n t
    have hfound : ∀ u : Schema, u.error v (.str lead) = .ok none ↔ u.error v (.str "") = .ok none :=
      fun u => (u.led_error lead v).accepts_iff
    have hrefused : ∀ u : Schema, (∃ e, u.error v (.str lead) = .ok (some e)) ↔
        ∃ e, u.error v (.str "") = .ok (some e) := by
      intro u
      simp only [(u.led_error lead v).refuses_iff]
      exact ⟨fun ⟨_, e, he, _⟩ => ⟨e, he⟩, fun ⟨e, he⟩ => ⟨_, e, he, rfl⟩⟩
    simp only [run_eq_found, Nat.zero_add, hfound, hrefused]

/-- The same refusal of a number where a text is due, led by the name of a field. -/
theorem error_led_text :
    ∃ s, Registry.builtin.compile (.dict textOptions) .none = .ok s ∧
      s.error (.int 5) (.str "name: ")
        = .ok (some (.of "name: Invalid value 5. Expected a string." .type)) := by
  obtain ⟨hash, hs⟩ := compile_text
  have hrefused : (Schema.single (textPlan.toInstance hash)).error (.int 5) (.str "")
      = .ok (some (.of "Invalid value 5. Expected a string." .type)) := by
    rw [Schema.error_single]
    rfl
  exact ⟨_, hs, ((error_led _ _ "name: ").2.2.1 _).mpr ⟨_, hrefused, rfl, rfl, rfl, rfl, rfl⟩⟩

end Conform
