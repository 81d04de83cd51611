import GenericC.Proofs.GrammarComposition

/-! What a trial leaves behind. Nothing is reported in a trial, and a failed one gives its tokens back. Only the mark
that the source nests too deep outlives a trial, since the parse cannot go on behind it. As long as that mark is not
set, a trial moves the place at most, and a failed trial leaves the state as it was. -/

namespace GenericC.Parse

/-- What a rule does that is not heard: in a trial only the place moves, unless the source turns out to nest too
deep. -/
structure Unheard (before after : ParseState) : Prop where
  quiet : after.quiet = before.quiet
  tooDeep : before.tooDeep = true → after.tooDeep = true
  still : 0 < before.quiet → after.tooDeep = before.tooDeep → after = { before with place := after.place }

theorem Unheard.refl (state : ParseState) : Unheard state state := ⟨rfl, id, fun _ _ => rfl⟩

theorem Unheard.trans {first second third : ParseState} (early : Unheard first second) (late : Unheard second third) :
    Unheard first third := by
  refine ⟨late.quiet.trans early.quiet, fun marked => late.tooDeep (early.tooDeep marked), fun trial same => ?_⟩
  have between : second.tooDeep = first.tooDeep := by
    cases marked : first.tooDeep with
    | true => exact early.tooDeep marked
    | false =>
      rw [marked] at same
      exact Bool.eq_false_iff.mpr fun before => Bool.eq_false_iff.mp same (late.tooDeep before)
  have here := early.still trial between
  have there := late.still (early.quiet ▸ trial) (same.trans between.symm)
  calc third = { second with place := third.place } := there
    _ = { first with place := third.place } := by rw [here]

theorem reported_unheard (problem : Diagnostic) (state : ParseState) : Unheard state (reported problem state) := by
  unfold reported
  split
  · exact .refl state
  next loud =>
    -- Outside of a trial the report is heard, and nothing is said about that.
    have out : ¬ 0 < state.quiet := fun trial => loud (by rw [decide_eq_true trial, Bool.true_or])
    split <;> exact ⟨rfl, id, fun trial => absurd trial out⟩

theorem markedTooDeep_unheard (state : ParseState) : Unheard state (markedTooDeep state) := by
  unfold markedTooDeep
  split
  · exact .refl state
  next unmarked =>
    have marked : (reported (depthProblem state) { state with tooDeep := true, quiet := 0 }).tooDeep = true := by
      unfold reported
      split
      · rfl
      · split <;> rfl
    exact ⟨rfl, fun _ => marked, fun _ same => absurd (same.symm.trans marked) unmarked⟩

theorem unheard_carried : Carried false Unheard where
  refl := .refl
  trans := .trans
  place _ unheard := ⟨unheard.quiet, unheard.tooDeep, fun trial same => by rw [unheard.still trial same]⟩
  report _ := reported_unheard _
  mark := markedTooDeep_unheard
  declare _ _ may := nomatch may
  trial unheard _ := ⟨rfl, unheard.tooDeep, fun _ same => by rw [unheard.still (Nat.succ_pos _) same]⟩
  nested unheard _ := ⟨unheard.quiet, unheard.tooDeep, fun trial same => by rw [unheard.still trial same]⟩
  scope unheard := ⟨unheard.quiet, unheard.tooDeep, fun trial same => by rw [unheard.still trial same]⟩

/-- At most the place has moved, unless the source turned out to nest too deep. -/
def Silent (before after : ParseState) : Prop :=
  after.tooDeep = before.tooDeep → after = { before with place := after.place }

theorem Silent.back {before after : ParseState} (silent : Silent before after) :
    Silent before { after with place := before.place } := fun same => by rw [silent same]

variable {α γ : Type} {room : Nat} {view : α → γ} {rule : Parse α}

theorem quietly_silent (composed : Composed false room view rule) (state : ParseState) :
    Leaves (Silent state) (quietly rule state) := by
  have back {after : ParseState} (both : Moves { state with quiet := state.quiet + 1 } after ∧
      Unheard { state with quiet := state.quiet + 1 } after) : Silent state { after with quiet := after.quiet - 1 } := by
    intro same
    rw [both.2.still (Nat.succ_pos _) same]
    rfl
  have inner := composed.carries unheard_carried { state with quiet := state.quiet + 1 }
  unfold Parse.quietly
  cases result : rule { state with quiet := state.quiet + 1 } <;> rw [result] at inner <;> exact back inner

theorem lookahead_silent {rule : Parse Bool} (composed : Composed false room id rule) (state : ParseState) :
    Leaves (Silent state) (lookahead rule state) ∧
      ∀ answer after, lookahead rule state = .ok answer after → after.tooDeep = state.tooDeep → after = state := by
  have silent := (quietly_silent composed state).lookahead Silent.back
  refine ⟨silent, fun answer after ran same => ?_⟩
  rw [ran] at silent
  rw [silent same, lookahead_place ran]

theorem attempt_silent (composed : Composed false room view rule) (state : ParseState) :
    Leaves (Silent state) (attempt rule state) ∧
      ∀ after, attempt rule state = .ok none after → after.tooDeep = state.tooDeep → after = state := by
  have silent := (quietly_silent composed state).attempt Silent.back
  refine ⟨silent, fun after ran same => ?_⟩
  have place : after.place = state.place := by
    unfold Parse.attempt at ran
    split at ran <;> cases ran
    rfl
  rw [ran] at silent
  rw [silent same, place]

end GenericC.Parse
