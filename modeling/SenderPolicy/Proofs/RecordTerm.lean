import SenderPolicy.Proofs.Term

/-! What one term does to a record. A modifier that is kept is refused if it is there already,
all other modifiers are passed over, and a term that is no modifier is a directive. -/
namespace SenderPolicy

inductive Modifier
  | redirect
  | explanation
  deriving DecidableEq, Repr

namespace Modifier

def name : Modifier → String
  | redirect => "redirect"
  | explanation => "exp"

theorem name_injective : Function.Injective name := by
  intro m m' h
  cases m <;> cases m' <;> first | rfl | exact absurd h (by decide)

def Accepts : Modifier → List Char → Prop
  -- A redirect needs a target.
  | redirect, value => value ≠ []
  | explanation, _ => True

end Modifier

namespace Record

def valueOf? (r : Record) : Modifier → Option String
  | .redirect => r.redirect?
  | .explanation => r.explanation?

def withValue (r : Record) (text : String) : Modifier → Record
  | .redirect => { r with redirect? := some text }
  | .explanation => { r with explanation? := some text }

@[simp]
theorem directives_withValue (r : Record) (text : String) (m : Modifier) :
    (r.withValue text m).directives = r.directives := by
  cases m <;> rfl

@[simp]
theorem valueOf?_withValue (r : Record) (text : String) (m m' : Modifier) :
    (r.withValue text m).valueOf? m' = if m' = m then some text else r.valueOf? m' := by
  cases m <;> cases m' <;> rfl

section Modifiers

variable {r r' : Record} {m : Modifier} {name value : List Char}

/-- A modifier that is there already is refused before its value is looked at. -/
theorem addModifier_of_taken (hname : String.ofList (Text.lower name) = m.name)
    (htaken : (r.valueOf? m).isSome = true) (value : List Char) :
    r.addModifier name value = .error (.duplicateModifier m.name) := by
  rw [addModifier, hname]
  cases m with
  | redirect => exact if_pos htaken
  | explanation => exact if_pos htaken

/-- A modifier that is not there yet is kept if it accepts the value. -/
theorem addModifier_of_free (hname : String.ofList (Text.lower name) = m.name)
    (hfree : r.valueOf? m = none) :
    r.addModifier name value = .ok r' ↔
      m.Accepts value ∧ r' = r.withValue (String.ofList value) m := by
  rw [addModifier, hname]
  cases m with
  | redirect =>
    have hnone : r.redirect? = none := hfree
    cases value <;> simp [Modifier.name, Modifier.Accepts, withValue, required, hnone, eq_comm]
  | explanation =>
    have hnone : r.explanation? = none := hfree
    simp [Modifier.name, Modifier.Accepts, withValue, hnone, eq_comm]

/-- All other modifiers are ignored. -/
theorem addModifier_of_unknown (h : ∀ m : Modifier, String.ofList (Text.lower name) ≠ m.name)
    (r : Record) (value : List Char) : r.addModifier name value = .ok r := by
  rw [addModifier]
  split
  next hname => exact absurd hname (h .redirect)
  next hname => exact absurd hname (h .explanation)
  next => rfl

/-- What a modifier can do: it is kept where the record has no such value yet, or it is none
that a record keeps. -/
theorem addModifier_eq_ok_iff : r.addModifier name value = .ok r' ↔
    (∃ m : Modifier, String.ofList (Text.lower name) = m.name ∧ r.valueOf? m = none ∧
      m.Accepts value ∧ r' = r.withValue (String.ofList value) m) ∨
    (∀ m : Modifier, String.ofList (Text.lower name) ≠ m.name) ∧ r' = r := by
  constructor
  · intro h
    by_cases hknown : ∃ m : Modifier, String.ofList (Text.lower name) = m.name
    · obtain ⟨m, hname⟩ := hknown
      -- It was accepted, so the record did not have it before.
      have hfree : r.valueOf? m = none := by
        by_contra hne
        rw [addModifier_of_taken hname (Option.isSome_iff_ne_none.mpr hne)] at h
        cases h
      exact .inl ⟨m, hname, hfree, (addModifier_of_free hname hfree).mp h⟩
    · have hunknown := not_exists.mp hknown
      rw [addModifier_of_unknown hunknown] at h
      exact .inr ⟨hunknown, (Except.ok.inj h).symm⟩
  · intro h
    rcases h with ⟨m, hname, hfree, haccepts, rfl⟩ | ⟨hunknown, rfl⟩
    · exact (addModifier_of_free hname hfree).mpr ⟨haccepts, rfl⟩
    · exact addModifier_of_unknown hunknown _ value

end Modifiers

/-- What one term can do: a modifier goes its own way, and all else is a directive that is
put at the end. -/
theorem addTerm_eq_ok_iff {r r' : Record} {term : List Char} :
    r.addTerm term = .ok r' ↔
      (∃ name value, modifier? term = some (name, value) ∧ r.addModifier name value = .ok r') ∨
        modifier? term = none ∧ ∃ d, readDirective term = .ok d ∧
          r' = { r with directives := r.directives ++ [d] } := by
  rw [addTerm]
  cases hmodifier : modifier? term with
  | some cut =>
    obtain ⟨name, value⟩ := cut
    simp [and_assoc]
  | none =>
    cases readDirective term with
    | error e => simp
    | ok d => simp [eq_comm]

end Record
end SenderPolicy
