import GenericC.Proofs.GrammarComposition
import GenericC.Proofs.PairedRuns

/-! Parses of two files with the same tokens. Rules carry places along, into trees and into reports, but they never
look at them: from two states that differ in places only, a rule takes the same steps, and what it leaves differs
in places only. -/

namespace GenericC

namespace Parse

variable {α γ : Type} {first second : ParseState} {view : α → γ} {rule other : Parse α}

namespace Mirror

theorem reported (mirror : Mirror first second) {problem other : Diagnostic} (same : problem.summary = other.summary) :
    Mirror (reported problem first) (reported other second) := by
  have muted : (0 < first.quiet || !first.settings.reporting) = (0 < second.quiet || !second.settings.reporting) := by
    rw [mirror.quiet, mirror.settings]
  have full : (first.settings.maxErrors ≠ 0 && first.settings.maxErrors ≤ first.errors + 1) =
      (second.settings.maxErrors ≠ 0 && second.settings.maxErrors ≤ second.errors + 1) := by
    rw [mirror.settings, mirror.errors]
  have counted : first.errors + 1 = second.errors + 1 := congrArg (· + 1) mirror.errors
  unfold Parse.reported
  rw [muted, full]
  split
  · exact mirror
  · split
    · exact { mirror with errors := counted }
    · refine { mirror with errors := counted, reports := ?_ }
      rw [List.map_cons, List.map_cons, same, mirror.reports]

theorem markedTooDeep (mirror : Mirror first second) : Mirror (markedTooDeep first) (markedTooDeep second) := by
  unfold Parse.markedTooDeep
  rw [mirror.tooDeep]
  split
  · exact mirror
  · have marked : Mirror { first with tooDeep := true, quiet := 0 } { second with tooDeep := true, quiet := 0 } :=
      { mirror with quiet := rfl, tooDeep := rfl }
    have same : (depthProblem first).summary = (depthProblem second).summary := by
      unfold depthProblem
      rw [mirror.settings]
      rfl
    exact { marked.reported same with quiet := mirror.quiet }

theorem framed : Framed Mirror where
  quiet change _ _ mirror := { mirror with quiet := congrArg change mirror.quiet }
  depth change _ _ mirror := { mirror with depth := congrArg change mirror.depth }
  typeParams mirror := mirror.typeParams
  scopes _ _ _ mirror := { mirror with typeParams := rfl }
  back mirror before := { mirror with stream := before.stream, taken := before.taken }
  deep mirror := ⟨by rw [mirror.settings, mirror.depth], mirror.markedTooDeep⟩

theorem advance : Matches Token.content Mirror Parse.advance Parse.advance := by
  intro state mate mirror
  rw [advance_apply, advance_apply, mirror.kind]
  split
  · exact .ok mirror.current mirror
  · have upcoming := mirror.upcoming
    cases here : state.place.upcoming with
    | nil =>
      cases there : mate.place.upcoming with
      | nil => exact .error mirror
      | cons token rest => rw [here, there] at upcoming; cases upcoming
    | cons token rest =>
      cases there : mate.place.upcoming with
      | nil => rw [here, there] at upcoming; cases upcoming
      | cons token' rest' =>
        rw [here, there] at upcoming
        exact .ok mirror.current { mirror with stream := upcoming, taken := congrArg (· + 1) mirror.taken }

theorem closeAngle : Matches id Mirror Parse.closeAngle Parse.closeAngle := by
  intro state mate mirror
  rw [closeAngle_apply, closeAngle_apply, mirror.kind]
  split
  · exact (advance mirror).bind fun _ _ _ _ _ later => .ok rfl later
  · split
    · refine .ok rfl { mirror with stream := ?_ }
      rw [ParseState.stream_eq, ParseState.stream_eq]
      exact congrArg _ mirror.upcoming
    · exact .ok rfl mirror

end Mirror

/-- Rules never look at places. -/
theorem Paired.blind {names : Bool} {room : Nat} (paired : Paired names room view rule other) :
    Matches view Mirror rule other := by
  induction paired with
  | pure same => exact fun _ _ mirror => .ok same mirror
  | bind _ _ early rest => exact fun _ _ mirror => (early mirror).bind rest
  | read _ _ ih => exact fun _ _ mirror => ih mirror mirror
  | giveUp | exhausted => exact fun _ _ mirror => .error mirror
  | advance => exact Mirror.advance
  | closeAngle => exact Mirror.closeAngle
  | report _ _ same =>
    intro state mate mirror
    rw [report_apply, report_apply]
    exact .ok rfl (mirror.reported same)
  | declare name =>
    exact fun _ _ mirror => .ok rfl { mirror with typeNames := congrArg (name :: ·) mirror.typeNames }
  | attempt _ trial => exact trial.attempt Mirror.framed
  | lookahead _ trial => exact trial.lookahead Mirror.framed
  | recover _ inner => exact inner.recover
  | nested _ inner => exact inner.nested Mirror.framed
  | withTypeParams paired inner => exact inner.withTypeParams Mirror.framed paired.moves
  | loop begins _ _ rounds =>
    intro state mate mirror
    have upcoming := congrArg List.length mirror.upcoming
    rw [List.length_map, List.length_map] at upcoming
    exact Matches.loopWithin rounds (by rw [List.length_cons, List.length_cons, upcoming]) begins mirror

end Parse

variable {file file' : UInt32} {tokens tokens' : List Token}

theorem closeTokens_contents (same : tokens.map Token.content = tokens'.map Token.content) :
    (closeTokens file tokens).map Token.content = (closeTokens file' tokens').map Token.content := by
  have last := congrArg List.getLast? same
  rw [List.getLast?_map, List.getLast?_map] at last
  unfold closeTokens
  cases here : tokens.getLast? with
  | none =>
    cases there : tokens'.getLast? with
    | none => rfl
    | some token => rw [here, there] at last; cases last
  | some token =>
    cases there : tokens'.getLast? with
    | none => rw [here, there] at last; cases last
    | some token' =>
      rw [here, there] at last
      have kind : token.kind = token'.kind := congrArg Prod.fst (Option.some.inj last)
      dsimp only
      rw [kind]
      split
      · exact same
      · rw [List.map_append, List.map_append, same]
        rfl

theorem ParseState.start_mirror (settings : ParseSettings) (file file' : UInt32)
    (same : tokens.map Token.content = tokens'.map Token.content) :
    Parse.Mirror (.start settings file tokens) (.start settings file' tokens') := by
  have closed : (closeTokens file tokens).map Token.content = (closeTokens file' tokens').map Token.content :=
    closeTokens_contents same
  refine ⟨rfl, ?_, rfl, ?_, rfl, rfl, rfl, rfl, rfl, rfl⟩
  · have head := congrArg (·.headD (default : Token).content) closed
    have tail := congrArg List.tail closed
    rw [List.headD_map, List.headD_map] at head
    rw [← List.map_tail, ← List.map_tail] at tail
    exact List.cons_eq_cons.mpr ⟨head, tail⟩
  · show wellKnownTypes ++ declaredTypeNames (closeTokens file tokens) =
      wellKnownTypes ++ declaredTypeNames (closeTokens file' tokens')
    rw [declaredTypeNames_eq, declaredTypeNames_eq, closed]

/-- Tokens of the same kinds and texts are parsed to the same program but for places, with the same reports. -/
theorem parseTokens_blind (settings : ParseSettings) (file file' : UInt32)
    (same : tokens.map Token.content = tokens'.map Token.content) :
    (parseTokens settings file tokens).program.bare = (parseTokens settings file' tokens').program.bare ∧
      (parseTokens settings file tokens).reports.map Diagnostic.summary =
        (parseTokens settings file' tokens').reports.map Diagnostic.summary := by
  have ends := (Parse.decls_composed (settings.maxNesting + 1)).blind (ParseState.start_mirror settings file file' same)
  unfold parseTokens
  generalize Parse.decls (settings.maxNesting + 1) (.start settings file tokens) = end1,
    Parse.decls (settings.maxNesting + 1) (.start settings file' tokens') = end2 at ends ⊢
  cases ends with
  | ok sameDecls mirror =>
    refine ⟨congrArg (Program.mk 0) sameDecls, ?_⟩
    rw [List.map_reverse, List.map_reverse, mirror.reports]
  | error mirror =>
    refine ⟨rfl, ?_⟩
    rw [List.map_reverse, List.map_reverse, mirror.reports]

end GenericC
