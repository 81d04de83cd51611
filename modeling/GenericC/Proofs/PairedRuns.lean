import GenericC.Proofs.RuleComposition

/-! Two runs side by side. Both begin in states that are related, and if the ways to put rules together cannot tell
related states apart, then both take the same steps and end in related states again. -/

namespace GenericC.Parse

/-- Two runs end alike: with results that `view` shows as the same or with the same stop, in related states. -/
inductive EndsAlike {α γ : Type} (view : α → γ) (related : ParseState → ParseState → Prop) :
    EStateM.Result Stop ParseState α → EStateM.Result Stop ParseState α → Prop where
  | ok {value other : α} {after behind : ParseState} (same : view value = view other) (later : related after behind) :
      EndsAlike view related (.ok value after) (.ok other behind)
  | error {stop : Stop} {after behind : ParseState} (later : related after behind) :
      EndsAlike view related (.error stop after) (.error stop behind)

/-- Two rules end alike wherever they begin in related states. -/
def Matches {α γ : Type} (view : α → γ) (related : ParseState → ParseState → Prop) (rule other : Parse α) : Prop :=
  ∀ ⦃first second : ParseState⦄, related first second → EndsAlike view related (rule first) (other second)

/-- A relation that stays when both states are changed in the same way. -/
structure Framed (related : ParseState → ParseState → Prop) : Prop where
  quiet (change : Nat → Nat) {first second : ParseState} : related first second →
    related { first with quiet := change first.quiet } { second with quiet := change second.quiet }
  depth (change : Nat → Nat) {first second : ParseState} : related first second →
    related { first with depth := change first.depth } { second with depth := change second.depth }
  typeParams {first second : ParseState} : related first second → first.typeParams = second.typeParams
  scopes (scopes : List (List Text)) {first second : ParseState} : related first second →
    related { first with typeParams := scopes } { second with typeParams := scopes }
  back {first second before behind : ParseState} : related first second → related before behind →
    related { first with place := before.place } { second with place := behind.place }
  deep {first second : ParseState} : related first second →
    (first.settings.maxNesting ≤ first.depth ↔ second.settings.maxNesting ≤ second.depth) ∧
      related (markedTooDeep first) (markedTooDeep second)

variable {α β γ δ : Type} {view : α → γ} {last : β → δ} {related : ParseState → ParseState → Prop}
  {rule other : Parse α} {first second : ParseState}

theorem EndsAlike.bind {next follow : α → Parse β} (early : EndsAlike view related (rule first) (other second))
    (rest : ∀ value value', view value = view value' → Matches last related (next value) (follow value')) :
    EndsAlike last related ((rule >>= next) first) ((other >>= follow) second) := by
  rw [bind_apply, bind_apply]
  generalize rule first = begun, other second = begun' at early ⊢
  cases early with
  | ok same later => exact rest _ _ same later
  | error later => exact .error later

namespace Matches

theorem recover (inner : Matches view related rule other) :
    Matches (Option.map view) related (Parse.recover rule) (Parse.recover other) := by
  intro first second begins
  have ends := inner begins
  unfold Parse.recover
  generalize rule first = begun, other second = begun' at ends ⊢
  cases ends with
  | ok same later => exact .ok (congrArg some same) later
  | @error stop _ _ later =>
    cases stop with
    | rejected => exact .ok rfl later
    | _ => exact .error later

theorem loopWithin {round round' : α → Parse (Round α β)}
    (rounds : ∀ value value', view value = view value' → Matches (Round.map view last) related (round value) (round' value'))
    {allowance allowance' : List Token} (length : allowance.length = allowance'.length) {value value' : α}
    (same : view value = view value') :
    Matches last related (Parse.loopWithin round allowance value) (Parse.loopWithin round' allowance' value') := by
  -- Both loops are allowed the same number of rounds, so neither is cut off before the other.
  induction allowance generalizing allowance' value value' with
  | nil =>
    rw [List.length_eq_zero_iff.mp length.symm]
    exact fun _ _ begins => .error begins
  | cons token allowance ih =>
    obtain ⟨token', allowance', rfl⟩ := List.exists_cons_of_length_eq_add_one length.symm
    refine fun _ _ begins => (rounds value value' same begins).bind fun outcome outcome' ends => ?_
    cases outcome with
    | done result =>
      cases outcome' with
      | done result' => exact fun _ _ later => .ok (Round.done.inj ends) later
      | again next => cases ends
    | again next =>
      cases outcome' with
      | done result => cases ends
      | again next' => exact ih (Nat.succ.inj length) (Round.again.inj ends)

variable (framed : Framed related)
include framed

theorem quietly (inner : Matches view related rule other) :
    Matches view related (Parse.quietly rule) (Parse.quietly other) := by
  intro first second begins
  have ends := inner (framed.quiet (· + 1) begins)
  unfold Parse.quietly
  generalize rule { first with quiet := first.quiet + 1 } = begun, other { second with quiet := second.quiet + 1 } = begun'
    at ends ⊢
  cases ends with
  | ok same later => exact .ok same (framed.quiet (· - 1) later)
  | error later => exact .error (framed.quiet (· - 1) later)

theorem attempt (trial : Matches view related rule other) :
    Matches (Option.map view) related (Parse.attempt rule) (Parse.attempt other) := by
  intro first second begins
  have ends := trial.quietly framed begins
  unfold Parse.attempt
  generalize Parse.quietly rule first = begun, Parse.quietly other second = begun' at ends ⊢
  cases ends with
  | ok same later => exact .ok (congrArg some same) later
  | @error stop _ _ later =>
    cases stop with
    | rejected => exact .ok rfl (framed.back later begins)
    | _ => exact .error later

theorem lookahead {rule other : Parse Bool} (trial : Matches id related rule other) :
    Matches id related (Parse.lookahead rule) (Parse.lookahead other) := by
  intro first second begins
  have ends := trial.quietly framed begins
  unfold Parse.lookahead
  generalize Parse.quietly rule first = begun, Parse.quietly other second = begun' at ends ⊢
  cases ends with
  | ok same later => exact .ok same (framed.back later begins)
  | @error stop _ _ later =>
    cases stop with
    | rejected => exact .ok rfl (framed.back later begins)
    | _ => exact .error later

theorem nested (inner : Matches view related rule other) :
    Matches view related (Parse.nested rule) (Parse.nested other) := by
  intro first second begins
  have ends := inner (framed.depth (· + 1) begins)
  rw [nested_apply, nested_apply, markTooDeep_apply, markTooDeep_apply]
  simp only [(framed.deep begins).1]
  split
  · exact .error (framed.deep begins).2
  · generalize rule { first with depth := first.depth + 1 } = begun, other { second with depth := second.depth + 1 } = begun'
      at ends ⊢
    cases ends with
    | ok same later => exact .ok same (framed.depth (· - 1) later)
    | error later => exact .error (framed.depth (· - 1) later)

theorem withTypeParams {scope : List Text} (kept : ∀ state, Leaves (Moves state) (rule state))
    (inner : Matches view related rule other) :
    Matches view related (Parse.withTypeParams scope rule) (Parse.withTypeParams scope other) := by
  intro first second begins
  have ends := inner (framed.scopes (scope :: first.typeParams) begins)
  -- The rule leaves the scopes as they were, so it is the same one that both runs drop.
  have kept := kept { first with typeParams := scope :: first.typeParams }
  have drop {after behind : ParseState} (later : related after behind)
      (same : after.typeParams = scope :: first.typeParams) : EndsAlike id related (dropTypeParams after) (dropTypeParams behind) := by
    rw [dropTypeParams_apply same, dropTypeParams_apply (framed.typeParams later ▸ same)]
    exact .ok rfl (framed.scopes _ later)
  unfold Parse.withTypeParams
  rw [← framed.typeParams begins]
  generalize rule { first with typeParams := scope :: first.typeParams } = begun,
    other { second with typeParams := scope :: first.typeParams } = begun' at ends kept ⊢
  cases ends with
  | ok same later => exact (drop later kept.typeParams).bind fun _ _ _ _ _ last => .ok same last
  | error later => exact (drop later kept.typeParams).bind fun _ _ _ _ _ last => .error last

end Matches

end GenericC.Parse
