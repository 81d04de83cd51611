import GenericC.Proofs.ParserLogic
import GenericC.Proofs.TokenStreams
import Mathlib.Logic.Relation

/-! How the rules of the grammar are put together. All of them are made of a few steps, and only two of these move
on: one takes a token, the other takes half of a double bracket. Facts that each step has and that are kept when
rules are put together hold of the whole grammar. Rules are put together in pairs: two rules that are made of the same
steps and differ in places only. -/

namespace GenericC

/-- What is left of a double bracket when its first half is taken. -/
def Token.secondHalf (token : Token) : Token :=
  { token with kind := .greater, text := ">", span := { token.span with start := token.span.start + 1 } }

namespace Place

/-- A place moves on by a token or by half of one. -/
inductive Step (before : Place) : Place → Prop where
  | take {next : Token} {later : List Token} (more : before.current.kind ≠ .endOfFile)
      (upcoming : before.upcoming = next :: later) :
      Step before { current := next, upcoming := later, taken := before.taken + 1, last := before.current.span }
  | split (double : before.current.kind = .shiftRight) :
      Step before { before with
        current := before.current.secondHalf
        last := { before.current.span with stop := before.current.span.start + 1 } }

def Reaches : Place → Place → Prop := Relation.ReflTransGen Step

theorem Reaches.refl (place : Place) : place.Reaches place := Relation.ReflTransGen.refl

theorem Reaches.trans {first second third : Place} (early : first.Reaches second) (late : second.Reaches third) :
    first.Reaches third := Relation.ReflTransGen.trans early late

theorem Step.reaches {first second : Place} (step : first.Step second) : first.Reaches second :=
  Relation.ReflTransGen.single step

theorem Reaches.keeps (holds : Place → Prop) {first second : Place} (reaches : first.Reaches second)
    (step : ∀ {before after : Place}, before.Step after → holds before → holds after) (start : holds first) :
    holds second := by
  induction reaches with
  | refl => exact start
  | tail _ last ih => exact step last ih

theorem Reaches.taken_le {first second : Place} (reaches : first.Reaches second) : first.taken ≤ second.taken := by
  refine reaches.keeps (first.taken ≤ ·.taken) (fun step => ?_) (Nat.le_refl _)
  cases step with
  | take => exact Nat.le_succ_of_le
  | split => exact id

theorem Reaches.current_of_taken {first second : Place} (reaches : first.Reaches second)
    (same : second.taken = first.taken) :
    second.current = first.current ∨ (first.current.kind = .shiftRight ∧ second.current = first.current.secondHalf) := by
  induction reaches with
  | refl => exact .inl rfl
  | @tail middle last early step ih =>
    have behind := Reaches.taken_le early
    cases step with
    | take =>
      dsimp only at same
      omega
    | split double =>
      rcases ih same with here | ⟨-, half⟩
      · exact .inr (here ▸ ⟨double, rfl⟩)
      · rw [half] at double
        cases double

end Place

def Diagnostic.summary (problem : Diagnostic) : Severity × DiagnosticCode × Text :=
  (problem.severity, problem.code, problem.message)

theorem Token.eq_of_content {first second : Token} (same : first.content = second.content) :
    second = { first with span := second.span, leading := second.leading } := by
  obtain ⟨kind, span, text, leading⟩ := first
  obtain ⟨kind', span', text', leading'⟩ := second
  cases same
  rfl

theorem Token.describe_eq {first second : Token} (same : first.content = second.content) :
    first.describe = second.describe := by
  rw [Token.eq_of_content same]
  rfl

namespace Parse

variable {test : Prop} {stop stop' : Parse PUnit} {code : DiagnosticCode} {message : Text}

/-- Two states between which no rule can tell the difference. -/
structure Alike (first second : ParseState) : Prop where
  place : first.place = second.place
  typeNames : first.typeNames = second.typeNames
  typeParams : first.typeParams = second.typeParams
  quiet : first.quiet = second.quiet
  depth : first.depth = second.depth
  tooDeep : first.tooDeep = second.tooDeep
  maxNesting : first.settings.maxNesting = second.settings.maxNesting
  reporting : first.settings.reporting = second.settings.reporting

/-- Two states that differ in places only. -/
structure Mirror (first second : ParseState) : Prop where
  settings : first.settings = second.settings
  stream : first.stream = second.stream
  taken : first.place.taken = second.place.taken
  typeNames : first.typeNames = second.typeNames
  typeParams : first.typeParams = second.typeParams
  quiet : first.quiet = second.quiet
  depth : first.depth = second.depth
  tooDeep : first.tooDeep = second.tooDeep
  errors : first.errors = second.errors
  reports : first.reports.map Diagnostic.summary = second.reports.map Diagnostic.summary

namespace Mirror

variable {first second : ParseState}

theorem refl (state : ParseState) : Mirror state state := ⟨rfl, rfl, rfl, rfl, rfl, rfl, rfl, rfl, rfl, rfl⟩

theorem current (mirror : Mirror first second) : first.place.current.content = second.place.current.content :=
  (List.cons.inj mirror.stream).1

theorem upcoming (mirror : Mirror first second) :
    first.place.upcoming.map Token.content = second.place.upcoming.map Token.content := (List.cons.inj mirror.stream).2

theorem kind (mirror : Mirror first second) : first.place.current.kind = second.place.current.kind :=
  congrArg Prod.fst mirror.current

theorem knows (mirror : Mirror first second) (name : Text) : first.knows name = second.knows name := by
  rw [ParseState.knows, ParseState.knows, mirror.typeNames, mirror.typeParams]

end Mirror

/-- Whenever a rule begins at such a token and ends with such a result, it has taken a token. -/
def Takes {α : Type} (wanted : Token → Prop) (rule : Parse α) (result : α → Prop) : Prop :=
  ∀ ⦃state value after⦄, wanted state.place.current → rule state = .ok value after → result value →
    state.place.taken < after.place.taken

def Round.GoesOn {α β : Type} : Round α β → Prop
  | .again _ => True
  | .done _ => False

def Round.map {α β γ δ : Type} (going : α → γ) (ending : β → δ) : Round α β → Round γ δ
  | .again next => .again (going next)
  | .done result => .done (ending result)

/-- How rules are put together, and how two of them that do the same but for places. Of the results `view` shows all
but the places. In front of a composed rule there may be as many levels of nesting as it has room for. Only some rules
make names known. -/
inductive Paired (names : Bool) : (room : Nat) → {α γ : Type} → (α → γ) → Parse α → Parse α → Prop where
  | pure {room : Nat} {α γ : Type} {view : α → γ} {value value' : α} (same : view value = view value') :
      Paired names room view (Pure.pure value) (Pure.pure value')
  | bind {room : Nat} {α β γ δ : Type} {view : α → γ} {last : β → δ} {rule other : Parse α} {next follow : α → Parse β}
      (first : Paired names room view rule other)
      (rest : ∀ value value', view value = view value' → Paired names room last (next value) (follow value')) :
      Paired names room last (rule >>= next) (other >>= follow)
  | read {room : Nat} {α γ : Type} {view : α → γ} {next follow : ParseState → Parse α}
      (same : ∀ {first second : ParseState}, Alike first second → next first = next second)
      (rest : ∀ {state mate : ParseState}, Mirror state mate → Paired names room view (next state) (follow mate)) :
      Paired names room view (MonadState.get >>= next) (MonadState.get >>= follow)
  | giveUp {room : Nat} {α γ : Type} {view : α → γ} : Paired names room view (throw .rejected) (throw .rejected)
  | exhausted {α γ : Type} {view : α → γ} : Paired names 0 view (throw .exhausted) (throw .exhausted)
  | advance {room : Nat} : Paired names room Token.content Parse.advance Parse.advance
  | closeAngle {room : Nat} : Paired names room id Parse.closeAngle Parse.closeAngle
  | report {room : Nat} {problem problem' : Diagnostic} (error : problem.severity = .error)
      (other : decide (problem.code = .tooDeep) = false) (same : problem.summary = problem'.summary) :
      Paired names room id (Parse.report problem) (Parse.report problem')
  | declare {room : Nat} (name : Text) (may : names = true) : Paired names room id
      (modify fun state => { state with typeNames := name :: state.typeNames })
      (modify fun state => { state with typeNames := name :: state.typeNames })
  | attempt {room : Nat} {α γ : Type} {view : α → γ} {rule other : Parse α} (trial : Paired names room view rule other) :
      Paired names room (Option.map view) (Parse.attempt rule) (Parse.attempt other)
  | lookahead {room : Nat} {rule other : Parse Bool} (trial : Paired names room id rule other) :
      Paired names room id (Parse.lookahead rule) (Parse.lookahead other)
  | recover {room : Nat} {α γ : Type} {view : α → γ} {rule other : Parse α} (inner : Paired names room view rule other) :
      Paired names room (Option.map view) (Parse.recover rule) (Parse.recover other)
  | nested {room : Nat} {α γ : Type} {view : α → γ} {rule other : Parse α} (inner : Paired names room view rule other) :
      Paired names (room + 1) view (Parse.nested rule) (Parse.nested other)
  | withTypeParams {room : Nat} {α γ : Type} {view : α → γ} {scope : List Text} {rule other : Parse α}
      (inner : Paired names room view rule other) :
      Paired names room view (Parse.withTypeParams scope rule) (Parse.withTypeParams scope other)
  | loop {room : Nat} {α β γ δ : Type} {view : α → γ} {last : β → δ} {start start' : α}
      {round round' : α → Parse (Round α β)} (begins : view start = view start')
      (rounds : ∀ value value', view value = view value' →
        Paired names room (Round.map view last) (round value) (round' value'))
      (takes : ∀ value, Takes Any (round value) Round.GoesOn) :
      Paired names room last (Parse.loop start round) (Parse.loop start' round')

/-- A rule that is put together as rules are. Its results are shown but for places. -/
abbrev Composed {α γ : Type} (names : Bool) (room : Nat) (view : α → γ) (rule : Parse α) : Prop :=
  Paired names room view rule rule

/-- What a rule does to a state. -/
structure Moves (before after : ParseState) : Prop where
  place : before.place.Reaches after.place
  settings : after.settings = before.settings
  typeParams : after.typeParams = before.typeParams
  quiet : after.quiet = before.quiet
  depth : after.depth = before.depth
  reports : ∀ report ∈ after.reports, report ∈ before.reports ∨ report.severity = .error

theorem Moves.refl (state : ParseState) : Moves state state := ⟨.refl _, rfl, rfl, rfl, rfl, fun _ => .inl⟩

theorem Moves.trans {first second third : ParseState} (early : Moves first second) (late : Moves second third) :
    Moves first third where
  place := early.place.trans late.place
  settings := late.settings.trans early.settings
  typeParams := late.typeParams.trans early.typeParams
  quiet := late.quiet.trans early.quiet
  depth := late.depth.trans early.depth
  reports report member := (late.reports report member).elim (early.reports report) .inr

def Leaves {α : Type} (holds : ParseState → Prop) : EStateM.Result Stop ParseState α → Prop
  | .ok _ after => holds after
  | .error _ after => holds after

theorem Leaves.mono {α : Type} {holds more : ParseState → Prop} {result : EStateM.Result Stop ParseState α}
    (leaves : Leaves holds result) (weaker : ∀ after, holds after → more after) : Leaves more result := by
  cases result with
  | ok value after | error stop after => exact weaker after leaves

variable {α β γ δ : Type} {names : Bool} {room : Nat} {view : α → γ}

section
variable {rule : Parse α} {next : α → Parse β} {state : ParseState} {holds middle : ParseState → Prop}

theorem Leaves.bind (early : Leaves middle (rule state)) (stopped : ∀ {after}, middle after → holds after)
    (rest : ∀ {value after}, middle after → Leaves holds (next value after)) : Leaves holds ((rule >>= next) state) := by
  rw [bind_apply]
  cases result : rule state with
  | ok value after =>
    rw [result] at early
    exact rest early
  | error stop after =>
    rw [result] at early
    exact stopped early

theorem Leaves.recover (inner : Leaves holds (rule state)) : Leaves holds (Parse.recover rule state) := by
  unfold Parse.recover
  generalize rule state = result at inner ⊢
  cases result with
  | ok value after => exact inner
  | error stop after => cases stop <;> exact inner

theorem Leaves.attempt (trial : Leaves holds (quietly rule state))
    (back : ∀ {after : ParseState}, holds after → holds { after with place := state.place }) :
    Leaves holds (Parse.attempt rule state) := by
  unfold Parse.attempt
  generalize quietly rule state = result at trial ⊢
  cases result with
  | ok value after => exact trial
  | error stop after =>
    cases stop with
    | rejected => exact back trial
    | _ => exact trial

theorem Leaves.lookahead {rule : Parse Bool} (trial : Leaves holds (quietly rule state))
    (back : ∀ {after : ParseState}, holds after → holds { after with place := state.place }) :
    Leaves holds (Parse.lookahead rule state) := by
  unfold Parse.lookahead
  generalize quietly rule state = result at trial ⊢
  cases result with
  | ok value after => exact back trial
  | error stop after =>
    cases stop with
    | rejected => exact back trial
    | _ => exact trial

end

def reported (problem : Diagnostic) (state : ParseState) : ParseState :=
  if 0 < state.quiet || !state.settings.reporting then state
  else if state.settings.maxErrors ≠ 0 && state.settings.maxErrors ≤ state.errors + 1 then
    { state with errors := state.errors + 1 }
  else { state with errors := state.errors + 1, reports := problem :: state.reports }

theorem reported_moves {problem : Diagnostic} (error : problem.severity = .error) (state : ParseState) :
    Moves state (reported problem state) := by
  unfold reported
  split
  · exact .refl state
  · split
    · exact { Moves.refl state with }
    · refine { Moves.refl state with reports := fun report member => ?_ }
      rcases List.mem_cons.mp member with rfl | old
      · exact .inr error
      · exact .inl old

def depthProblem (state : ParseState) : Diagnostic :=
  .ofError .tooDeep
    (if state.place.current.kind = .endOfFile && 0 < state.place.last.stop then state.place.last.atEnd
      else state.place.current.span)
    (Text.concat ["nesting exceeds ", Text.ofNat state.settings.maxNesting, " levels"])

def markedTooDeep (state : ParseState) : ParseState :=
  if state.tooDeep then state
  else { reported (depthProblem state) { state with tooDeep := true, quiet := 0 } with quiet := state.quiet }

theorem markTooDeep_apply (state : ParseState) : markTooDeep state = .ok () (markedTooDeep state) := by
  unfold markTooDeep markedTooDeep
  rw [bind_apply]
  show (if !state.tooDeep then _ else _ : Parse Unit) state = _
  cases state.tooDeep with
  | true => rfl
  | false =>
    have located : errorSpan { state with tooDeep := true, quiet := 0 } =
        .ok (depthProblem state).span { state with tooDeep := true, quiet := 0 } := by
      unfold errorSpan depthProblem
      rw [bind_apply]
      exact (ite_apply _ _ _ _).trans (by split <;> rfl)
    show (errorSpan >>= fun span => _) { state with tooDeep := true, quiet := 0 } = _
    rw [bind_apply, located]
    dsimp only
    rw [bind_apply, report_apply]
    rfl

theorem markedTooDeep_moves (state : ParseState) : Moves state (markedTooDeep state) := by
  unfold markedTooDeep
  split
  · exact .refl state
  · have moves := @reported_moves (depthProblem state) rfl { state with tooDeep := true, quiet := 0 }
    exact { moves with quiet := rfl }

theorem loopWithin_leaves {round : α → Parse (Round α β)} {holds : ParseState → ParseState → Prop}
    (refl : ∀ state, holds state state) (trans : ∀ {first second third}, holds first second → holds second third →
      holds first third) (rounds : ∀ value state, Leaves (holds state) (round value state)) (allowance : List Token)
    (value : α) (state : ParseState) : Leaves (holds state) (loopWithin round allowance value state) := by
  induction allowance generalizing value state with
  | nil => exact refl state
  | cons _ allowance ih =>
    refine (rounds value state).bind id fun {result after} first => ?_
    cases result with
    | done result => exact first
    | again next => exact (ih next after).mono fun last late => trans first late

/-- A relation between the states before and behind a rule that every way to put rules together keeps. -/
structure Carried (names : Bool) (holds : ParseState → ParseState → Prop) : Prop where
  refl (state : ParseState) : holds state state
  trans {first second third : ParseState} : holds first second → holds second third → holds first third
  place {before after : ParseState} (place : Place) : holds before after → holds before { after with place }
  report {problem : Diagnostic} (other : decide (problem.code = .tooDeep) = false) (state : ParseState) :
    holds state (reported problem state)
  mark (state : ParseState) : holds state (markedTooDeep state)
  declare (name : Text) (state : ParseState) (may : names = true) :
    holds state { state with typeNames := name :: state.typeNames }
  trial {state after : ParseState} : holds { state with quiet := state.quiet + 1 } after →
    after.quiet = state.quiet + 1 → holds state { after with quiet := state.quiet }
  nested {state after : ParseState} : holds { state with depth := state.depth + 1 } after →
    after.depth = state.depth + 1 → holds state { after with depth := state.depth }
  scope {state after : ParseState} {inner : List Text} :
    holds { state with typeParams := inner :: state.typeParams } after → holds state { after with typeParams := state.typeParams }

/-- A rule has only moved on, and what is carried along holds. -/
abbrev Kept (holds : ParseState → ParseState → Prop) (before after : ParseState) : Prop :=
  Moves before after ∧ holds before after

namespace Carried

variable {holds : ParseState → ParseState → Prop} (carried : Carried names holds) {state after : ParseState}
include carried

theorem still (state : ParseState) : Kept holds state state := ⟨.refl state, carried.refl state⟩

theorem step {place : Place} (step : state.place.Step place) : Kept holds state { state with place } :=
  ⟨{ Moves.refl state with place := step.reaches }, carried.place place (carried.refl state)⟩

theorem chain {first second third : ParseState} (early : Kept holds first second) (late : Kept holds second third) :
    Kept holds first third := ⟨early.1.trans late.1, carried.trans early.2 late.2⟩

theorem back (kept : Kept holds state after) : Kept holds state { after with place := state.place } :=
  ⟨{ kept.1 with place := .refl _ }, carried.place _ kept.2⟩

theorem advance (state : ParseState) : Leaves (Kept holds state) (Parse.advance state) := by
  rw [advance_apply]
  split
  · exact carried.still state
  next more =>
    split
    · exact carried.still state
    next upcoming => exact carried.step (.take more upcoming)

theorem quietly {rule : Parse α} (inner : ∀ state, Leaves (Kept holds state) (rule state)) (state : ParseState) :
    Leaves (Kept holds state) (Parse.quietly rule state) := by
  have lower {after : ParseState} (kept : Kept holds { state with quiet := state.quiet + 1 } after) :
      Kept holds state { after with quiet := after.quiet - 1 } := by
    rw [kept.1.quiet]
    exact ⟨{ kept.1 with quiet := rfl }, carried.trial kept.2 kept.1.quiet⟩
  have inner := inner { state with quiet := state.quiet + 1 }
  unfold Parse.quietly
  cases result : rule { state with quiet := state.quiet + 1 } <;> rw [result] at inner <;> exact lower inner

theorem nestedRule {rule : Parse α} (inner : ∀ state, Leaves (Kept holds state) (rule state)) (state : ParseState) :
    Leaves (Kept holds state) (Parse.nested rule state) := by
  have lower {after : ParseState} (kept : Kept holds { state with depth := state.depth + 1 } after) :
      Kept holds state { after with depth := after.depth - 1 } := by
    rw [kept.1.depth]
    exact ⟨{ kept.1 with depth := rfl }, carried.nested kept.2 kept.1.depth⟩
  have inner := inner { state with depth := state.depth + 1 }
  rw [nested_apply]
  split
  · rw [markTooDeep_apply]
    exact ⟨markedTooDeep_moves state, carried.mark state⟩
  · cases result : rule { state with depth := state.depth + 1 } <;> rw [result] at inner <;> exact lower inner

theorem withTypeParams {rule : Parse α} (inner : ∀ state, Leaves (Kept holds state) (rule state)) (opened : List Text)
    (state : ParseState) : Leaves (Kept holds state) (Parse.withTypeParams opened rule state) := by
  have close {β : Type} {last : Parse β} {after : ParseState}
      (kept : Kept holds { state with typeParams := opened :: state.typeParams } after)
      (still : ∀ state, Leaves (· = state) (last state)) :
      Leaves (Kept holds state) ((dropTypeParams >>= fun _ => last) after) := by
    rw [bind_apply, dropTypeParams_apply kept.1.typeParams]
    refine (still _).mono ?_
    rintro _ rfl
    exact ⟨{ kept.1 with typeParams := rfl }, carried.scope kept.2⟩
  have inner := inner { state with typeParams := opened :: state.typeParams }
  unfold Parse.withTypeParams
  cases result : rule { state with typeParams := opened :: state.typeParams } with
  | ok value after | error stop after =>
    rw [result] at inner
    exact close inner fun _ => rfl

end Carried

/-- However a composed rule ends, it has only moved on, and whatever is carried along holds. -/
theorem Paired.carries {holds : ParseState → ParseState → Prop} (carried : Carried names holds) {rule other : Parse α}
    (paired : Paired names room view rule other) (state : ParseState) : Leaves (Kept holds state) (rule state) := by
  induction paired generalizing state with
  | pure => exact carried.still state
  | bind _ _ first rest =>
    refine (first state).bind id fun {value after} early => ?_
    exact (rest value value rfl after).mono fun last late => carried.chain early late
  | read same rest ih => exact ih (.refl state) state
  | giveUp | exhausted => exact carried.still state
  | advance => exact carried.advance state
  | closeAngle =>
    rw [closeAngle_apply]
    split
    · exact (carried.advance state).bind id id
    · split
      next double => exact carried.step (.split double)
      next => exact carried.still state
  | @report room problem problem' error other same =>
    exact report_apply problem state ▸ ⟨reported_moves error state, carried.report other state⟩
  | declare name may => exact ⟨{ Moves.refl state with }, carried.declare name state may⟩
  | attempt _ ih => exact (carried.quietly ih state).attempt carried.back
  | lookahead _ ih => exact (carried.quietly ih state).lookahead carried.back
  | recover _ ih => exact (ih state).recover
  | nested _ ih => exact carried.nestedRule ih state
  | withTypeParams _ ih => exact carried.withTypeParams ih _ state
  | loop begins rounds takes ih =>
    exact loopWithin_leaves carried.still carried.chain (fun value => ih value value rfl) _ _ state

theorem Paired.moves {rule other : Parse α} (paired : Paired names room view rule other) (state : ParseState) :
    Leaves (Moves state) (rule state) := by
  have nothing : Carried names fun _ _ => True := by constructor <;> intros <;> trivial
  exact (paired.carries nothing state).mono fun _ => And.left

theorem Paired.moved {rule other : Parse α} (paired : Paired names room view rule other) {state after : ParseState} {value : α}
    (ended : rule state = .ok value after) : Moves state after := by
  have moves := paired.moves state
  rw [ended] at moves
  exact moves

theorem Paired.taken_le {rule other : Parse α} (paired : Paired names room view rule other) {state after : ParseState} {value : α}
    (ended : rule state = .ok value after) : state.place.taken ≤ after.place.taken :=
  (paired.moved ended).place.taken_le

namespace Paired

variable {last : β → δ} {rule other : Parse α} {next follow : α → Parse β}

theorem through (view : α → γ) (early : Paired names room view rule other)
    (rest : ∀ value value', view value = view value' → Paired names room last (next value) (follow value')) :
    Paired names room last (rule >>= next) (other >>= follow) := early.bind rest

/-- A rule whose results show no places. -/
theorem exactly (early : Paired names room id rule other) (rest : ∀ value, Paired names room last (next value) (follow value)) :
    Paired names room last (rule >>= next) (other >>= follow) :=
  early.bind fun value _ (same : value = _) => same ▸ rest value

/-- A rule whose results are nothing but places. -/
theorem anywhere (early : Paired names room (fun _ => ()) rule other)
    (rest : ∀ value value', Paired names room last (next value) (follow value')) :
    Paired names room last (rule >>= next) (other >>= follow) := early.bind fun value value' _ => rest value value'

theorem token {rule other : Parse Token} {next follow : Token → Parse β} (early : Paired names room Token.content rule other)
    (rest : ∀ token span leading, Paired names room last (next token) (follow { token with span, leading })) :
    Paired names room last (rule >>= next) (other >>= follow) := by
  refine early.bind fun token token' same => ?_
  rw [Token.eq_of_content same]
  exact rest token _ _

theorem optional {rule other : Parse (Option α)} {next follow : Option α → Parse β}
    (early : Paired names room (Option.map view) rule other) (none : Paired names room last (next none) (follow none))
    (some : ∀ value value', view value = view value' → Paired names room last (next (some value)) (follow (some value'))) :
    Paired names room last (rule >>= next) (other >>= follow) := by
  refine early.bind fun value value' same => ?_
  cases value with
  | none =>
    cases value' with
    | none => exact none
    | some value' => cases same
  | some value =>
    cases value' with
    | none => cases same
    | some value' => exact some value value' (Option.some.inj same)

/-- A choice with the same rule behind both branches. -/
theorem either (view : α → γ) [Decidable test] {yes yes' no no' : Parse α} (left : Paired names room view yes yes')
    (right : Paired names room view no no')
    (rest : ∀ value value', view value = view value' → Paired names room last (next value) (follow value')) :
    Paired names room last (if test then yes >>= next else no >>= next)
      (if test then yes' >>= follow else no' >>= follow) := by
  split
  · exact left.bind rest
  · exact right.bind rest

theorem stopIf [Decidable test] {next follow : PUnit → Parse β} (stops : Paired names room id stop stop')
    (rest : Paired names room last (next ⟨⟩) (follow ⟨⟩)) :
    Paired names room last (if test then stop >>= next else next ⟨⟩) (if test then stop' >>= follow else follow ⟨⟩) := by
  split
  · exact stops.exactly fun _ => rest
  · exact rest

/-- A trial that is made in one case only. -/
theorem tried {test : Prop} [Decidable test] {rule other : Parse (Option α)} {next follow : Option α → Parse β}
    (early : Paired names room (Option.map view) rule other) (none : Paired names room last (next none) (follow none))
    (some : ∀ value value', view value = view value' → Paired names room last (next (some value)) (follow (some value'))) :
    Paired names room last (if test then rule >>= next else Pure.pure Option.none >>= next)
      (if test then other >>= follow else Pure.pure Option.none >>= follow) := by
  split
  · exact early.optional none some
  · exact none

theorem peek : Composed names room Token.content Parse.peek :=
  .read (fun alike => by rw [alike.place]) fun mirror => .pure mirror.current

theorem isAt {kind : TokenKind} : Composed names room id (Parse.isAt kind) :=
  peek.bind fun token token' same => .pure (by rw [id, id, show token.kind = token'.kind from congrArg Prod.fst same])

theorem peekPast {count : Nat} : Composed names room Token.content (Parse.peekPast count) := by
  refine .read (fun alike => by rw [alike.place]) fun {state mate} mirror => ?_
  dsimp only
  have found := congrArg (·[count]?) mirror.upcoming
  have last := congrArg (fun tokens : List Content => tokens.getLastD state.place.current.content) mirror.upcoming
  simp only [List.getElem?_map] at found
  rw [List.getLastD_map, mirror.current, List.getLastD_map] at last
  cases here : state.place.upcoming[count]? with
  | none =>
    cases there : mate.place.upcoming[count]? with
    | none => exact .pure last
    | some token => rw [here, there] at found; cases found
  | some token =>
    cases there : mate.place.upcoming[count]? with
    | none => rw [here, there] at found; cases found
    | some token' => rw [here, there] at found; exact .pure (Option.some.inj found)

theorem eat {kind : TokenKind} : Composed names room id (Parse.eat kind) := by
  refine isAt.exactly fun here => ?_
  split
  · exact advance.bind fun _ _ _ => .pure rfl
  · exact .pure rfl

theorem spanFrom {start start' : Span} : Paired names room (fun _ => ()) (Parse.spanFrom start) (Parse.spanFrom start') :=
  .read (fun alike => by rw [alike.place]) fun _ => .pure rfl

theorem errorSpan : Composed names room (fun _ => ()) Parse.errorSpan := by
  refine .read (fun alike => by rw [alike.place]) fun _ => ?_
  dsimp only
  split <;> split <;> exact .pure rfl

theorem reject {span span' : Span} (other : decide (code = .tooDeep) = false) :
    Paired names room view (Parse.reject code span message) (Parse.reject code span' message) :=
  exactly (report rfl other rfl) fun _ => .giveUp

theorem rejectHere (other : decide (code = .tooDeep) = false) :
    Composed names room view (Parse.rejectHere code message) := errorSpan.anywhere fun _ _ => reject other

theorem expect {kind : TokenKind} (other : decide (code = .tooDeep) = false) :
    Composed names room Token.content (Parse.expect kind code message) := by
  refine isAt.exactly fun here => ?_
  split
  · exact advance
  · refine .read (fun alike => by rw [alike.place]) fun mirror => errorSpan.anywhere fun span span' => ?_
    -- Whether a fix is proposed depends on places, but it is not a part of what is said.
    rw [Token.describe_eq mirror.current]
    split <;> split <;> exact exactly (report rfl other rfl) fun _ => .giveUp

theorem expectName : Composed names room Token.content (Parse.expectName message) := expect rfl

theorem expectSemicolon {after : Text} : Composed names room id (Parse.expectSemicolon after) :=
  .bind (.expect rfl) fun _ _ _ => .pure rfl

theorem isTypeName {name : Text} : Composed names room id (Parse.isTypeName name) :=
  .read (fun alike => by rw [alike.typeNames, alike.typeParams]) fun mirror => .pure (mirror.knows name)

theorem atTypeStart : Composed names room id Parse.atTypeStart := by
  refine peek.token fun token span leading => ?_
  dsimp only
  split
  · exact .pure rfl
  · split
    · exact isTypeName
    · exact .pure rfl

theorem again {value value' : α} (same : view value = view value') :
    Paired names room (Round.map view last) (Pure.pure (.again value)) (Pure.pure (.again value')) :=
  .pure (congrArg Round.again same)

theorem done {result result' : β} (same : last result = last result') :
    Paired names room (Round.map view last) (Pure.pure (.done result)) (Pure.pure (.done result')) :=
  .pure (congrArg Round.done same)

theorem forEach {items items' : List α} {body body' : α → PUnit → Parse (ForInStep PUnit)}
    (same : items.map view = items'.map view)
    (each : ∀ item item', view item = view item' → Paired names room id (body item .unit) (body' item' .unit)) :
    Paired names room id (forIn items PUnit.unit body) (forIn items' PUnit.unit body') := by
  induction items generalizing items' with
  | nil =>
    rw [List.map_eq_nil_iff.mp same.symm]
    exact .pure rfl
  | cons item rest ih =>
    obtain ⟨item', rest', rfl, head, tail⟩ := List.map_eq_cons_iff.mp same.symm
    rw [List.forIn_cons, List.forIn_cons]
    refine (each item item' head.symm).exactly fun step => ?_
    cases step with
    | done => exact .pure rfl
    | yield => exact ih tail.symm

end Paired

/-- Two rules that do the same but for places. When they begin at such a token and end with such a result, they have
taken a token. -/
structure Onward (names : Bool) (room : Nat) (wanted : Token → Prop) (view : α → γ) (rule other : Parse α)
    (result : α → Prop) : Prop where
  composed : Paired names room view rule other
  takes : Takes wanted rule result

abbrev TakesOne (names : Bool) (room : Nat) (wanted : Token → Prop) (view : α → γ) (rule : Parse α) : Prop :=
  Onward names room wanted view rule rule fun _ => True

namespace Onward

variable {wanted : Token → Prop} {last : β → δ} {rule other : Parse α} {next follow : α → Parse β} {result : β → Prop}

theorem weaken {more : Token → Prop} {fewer result : α → Prop} (onward : Onward names room wanted view rule other result)
    (begins : ∀ token, more token → wanted token) (ends : ∀ value, fewer value → result value) :
    Onward names room more view rule other fewer :=
  ⟨onward.composed, fun _ _ _ current ended holds => onward.takes (begins _ current) ended (ends _ holds)⟩

/-- A rule that is begun at such tokens only. -/
theorem within {more : Token → Prop} {result : α → Prop} (onward : Onward names room wanted view rule other fun _ => True)
    (begins : ∀ token, more token → wanted token) : Onward names room more view rule other result :=
  onward.weaken begins fun _ _ => trivial

theorem anywhere {result : α → Prop} (onward : Onward names room Any view rule other fun _ => True) :
    Onward names room wanted view rule other result := onward.within fun _ _ => trivial

/-- The first of two rules takes a token. -/
theorem first (onward : Onward names room wanted view rule other fun _ => True)
    (rest : ∀ value value', view value = view value' → Paired names room last (next value) (follow value')) :
    Onward names room wanted last (rule >>= next) (other >>= follow) result := by
  refine ⟨onward.composed.bind rest, fun state value after current ended _ => ?_⟩
  obtain ⟨found, middle, early, late⟩ := bind_eq_ok.mp ended
  exact Nat.lt_of_lt_of_le (onward.takes current early trivial) ((rest found found rfl).taken_le late)

/-- The second of two rules takes a token. -/
theorem second (early : Paired names room view rule other)
    (rest : ∀ value value', view value = view value' → Onward names room Any last (next value) (follow value') result) :
    Onward names room wanted last (rule >>= next) (other >>= follow) result := by
  refine ⟨early.bind fun value value' same => (rest value value' same).composed, fun state value after _ ended holds => ?_⟩
  obtain ⟨found, middle, begun, late⟩ := bind_eq_ok.mp ended
  exact Nat.lt_of_le_of_lt (early.taken_le begun) ((rest found found rfl).takes trivial late holds)

theorem through (view : α → γ) (early : Paired names room view rule other)
    (rest : ∀ value value', view value = view value' → Onward names room Any last (next value) (follow value') result) :
    Onward names room wanted last (rule >>= next) (other >>= follow) result := second early rest

theorem exactly (early : Paired names room id rule other)
    (rest : ∀ value, Onward names room Any last (next value) (follow value) result) :
    Onward names room wanted last (rule >>= next) (other >>= follow) result :=
  second early fun value _ (same : value = _) => same ▸ rest value

theorem behind {rule other : Parse Token} {next follow : Token → Parse β} (early : Paired names room Token.content rule other)
    (rest : ∀ token span leading, Onward names room Any last (next token) (follow { token with span, leading }) result) :
    Onward names room wanted last (rule >>= next) (other >>= follow) result := by
  refine second early fun token token' same => ?_
  rw [Token.eq_of_content same]
  exact rest token _ _

/-- The first of two rules takes a token and gives it to the second. -/
theorem token {rule other : Parse Token} {next follow : Token → Parse β}
    (onward : Onward names room wanted Token.content rule other fun _ => True)
    (rest : ∀ token span leading, Paired names room last (next token) (follow { token with span, leading })) :
    Onward names room wanted last (rule >>= next) (other >>= follow) result := by
  refine onward.first fun token token' same => ?_
  rw [Token.eq_of_content same]
  exact rest token _ _

theorem done {value value' : β} (same : last value = last value') : Onward names room wanted (Round.map view last)
    (Pure.pure (.done value)) (Pure.pure (.done value')) Round.GoesOn := by
  refine ⟨.done same, fun state value after _ ended holds => ?_⟩
  cases ended
  exact holds.elim

/-- A rule that never begins at such a token. -/
theorem never {rule other : Parse β} (composed : Paired names room last rule other) (none : ∀ token, ¬ wanted token) :
    Onward names room wanted last rule other result :=
  ⟨composed, fun _ _ _ current => absurd current (none _)⟩

theorem stopIf [Decidable test] {next follow : PUnit → Parse β}
    (stops : Onward names room wanted id stop stop' fun _ => True)
    (rest : Onward names room wanted last (next ⟨⟩) (follow ⟨⟩) result) :
    Onward names room wanted last (if test then stop >>= next else next ⟨⟩)
      (if test then stop' >>= follow else follow ⟨⟩) result := by
  split
  · exact stops.first fun _ _ _ => rest.composed
  · exact rest

theorem giveUp : Onward names room wanted last (throw .rejected) (throw .rejected) result :=
  ⟨.giveUp, fun _ _ _ _ ended => nomatch ended⟩

theorem exhausted : Onward names 0 wanted last (throw .exhausted) (throw .exhausted) result :=
  ⟨.exhausted, fun _ _ _ _ ended => nomatch ended⟩

theorem reject {span span' : Span} (other : decide (code = .tooDeep) = false) :
    Onward names room wanted last (Parse.reject code span message) (Parse.reject code span' message) result :=
  exactly (.report rfl other rfl) fun _ => giveUp

theorem rejectHere (other : decide (code = .tooDeep) = false) :
    Onward names room wanted last (Parse.rejectHere code message) (Parse.rejectHere code message) result :=
  second .errorSpan fun _ _ _ => reject other

theorem read {next follow : ParseState → Parse β}
    (same : ∀ {first second : ParseState}, Alike first second → next first = next second)
    (rest : ∀ {state mate : ParseState}, Mirror state mate →
      Onward names room wanted last (next state) (follow mate) result) :
    Onward names room wanted last (MonadState.get >>= next) (MonadState.get >>= follow) result :=
  ⟨.read same fun mirror => (rest mirror).composed,
    fun state _ _ current ended holds => (rest (.refl state)).takes current ended holds⟩

theorem peek {next follow : Token → Parse β} (rest : ∀ token span leading,
      Onward names room (fun found => wanted found ∧ found = token) last (next token) (follow { token with span, leading }) result) :
    Onward names room wanted last (Parse.peek >>= next) (Parse.peek >>= follow) result :=
  ⟨.token .peek fun token span leading => (rest token span leading).composed,
    fun state _ _ current ended holds => (rest state.place.current default []).takes ⟨current, rfl⟩ ended holds⟩

theorem isAt {kind : TokenKind} {next follow : Bool → Parse β}
    (yes : Onward names room (fun token => wanted token ∧ token.kind = kind) last (next true) (follow true) result)
    (no : Onward names room (fun token => wanted token ∧ token.kind ≠ kind) last (next false) (follow false) result) :
    Onward names room wanted last (Parse.isAt kind >>= next) (Parse.isAt kind >>= follow) result := by
  refine ⟨.exactly .isAt fun here => by cases here <;> [exact no.composed; exact yes.composed], ?_⟩
  intro state value after current ended holds
  replace ended : next (state.place.current.kind = kind) state = .ok value after := ended
  by_cases here : state.place.current.kind = kind
  · rw [decide_eq_true here] at ended
    exact yes.takes ⟨current, here⟩ ended holds
  · rw [decide_eq_false here] at ended
    exact no.takes ⟨current, here⟩ ended holds

/-- A rule that is given up at some kind of token. -/
theorem stopAt {kind : TokenKind} {next follow : PUnit → Parse β}
    (stops : Onward names room wanted id stop stop' fun _ => True)
    (rest : Onward names room (fun token => wanted token ∧ token.kind ≠ kind) last (next ⟨⟩) (follow ⟨⟩) result) :
    Onward names room wanted last (Parse.isAt kind >>= fun here => if here = true then stop >>= next else next ⟨⟩)
      (Parse.isAt kind >>= fun here => if here = true then stop' >>= follow else follow ⟨⟩) result :=
  isAt ((stops.first fun _ _ _ => rest.composed).weaken (fun _ => And.left) fun _ => id) rest

theorem taken (more : ∀ token, wanted token → token.kind ≠ .endOfFile) :
    TakesOne names room wanted Token.content Parse.advance := by
  refine ⟨.advance, fun state value after current ended _ => ?_⟩
  rw [advance_apply, if_neg (more _ current)] at ended
  split at ended
  · cases ended
  · cases ended
    exact Nat.lt_succ_self _

theorem advance {next follow : Token → Parse β} (more : ∀ token, wanted token → token.kind ≠ .endOfFile)
    (rest : ∀ token span leading, Paired names room last (next token) (follow { token with span, leading })) :
    Onward names room wanted last (Parse.advance >>= next) (Parse.advance >>= follow) result :=
  token (taken more) rest

theorem take {token : Token} {kind : TokenKind} {next follow : Token → Parse β} (here : token.kind = kind)
    (more : kind ≠ .endOfFile)
    (rest : ∀ token span leading, Paired names room last (next token) (follow { token with span, leading })) :
    Onward names room (fun found => wanted found ∧ found = token) last (Parse.advance >>= next) (Parse.advance >>= follow)
      result :=
  advance (fun _ same => same.2 ▸ here ▸ more) rest

theorem eat {kind : TokenKind} {next follow : Bool → Parse β} (more : kind ≠ .endOfFile)
    (yes : Paired names room last (next true) (follow true))
    (no : Onward names room (fun token => wanted token ∧ token.kind ≠ kind) last (next false) (follow false) result) :
    Onward names room wanted last (Parse.eat kind >>= next) (Parse.eat kind >>= follow) result := by
  refine ⟨.exactly .eat fun found => by cases found <;> [exact no.composed; exact yes], ?_⟩
  have eaten : Onward names room (fun token => wanted token ∧ token.kind = kind) id
      (Parse.advance >>= fun _ => Pure.pure true) (Parse.advance >>= fun _ => Pure.pure true) fun _ => True :=
    advance (fun _ here => here.2 ▸ more) fun _ _ _ => .pure rfl
  intro state value after current ended holds
  obtain ⟨found, middle, early, late⟩ := bind_eq_ok.mp ended
  rw [eat_apply] at early
  split at early
  next here =>
    have taken := eaten.takes ⟨current, here⟩ early trivial
    obtain ⟨token, behind, -, same⟩ := bind_eq_ok.mp early
    cases same
    exact Nat.lt_of_lt_of_le taken (yes.taken_le late)
  next other =>
    cases early
    exact no.takes ⟨current, other⟩ late holds

/-- Whether one more item follows a comma. -/
theorem more {items items' : α} {results results' : β} (same : view items = view items')
    (sameResults : last results = last results') : Onward names room wanted (Round.map view last)
      (Parse.eat .comma >>= fun found => if found = true then Pure.pure (.again items) else Pure.pure (.done results))
      (Parse.eat .comma >>= fun found => if found = true then Pure.pure (.again items') else Pure.pure (.done results'))
      Round.GoesOn := eat (by nofun) (.again same) (done sameResults)

theorem nested {result : α → Prop} (onward : Onward names room wanted view rule other result) :
    Onward names (room + 1) wanted view (Parse.nested rule) (Parse.nested other) result := by
  refine ⟨.nested onward.composed, fun state value after current ended holds => ?_⟩
  rw [nested_apply] at ended
  split at ended
  · split at ended <;> cases ended
  · split at ended
    next found behind inner =>
      cases ended
      have current : wanted { state with depth := state.depth + 1 }.place.current := current
      have taken := onward.takes current inner holds
      exact taken
    · cases ended

end Onward

theorem Paired.repeated (view : α → γ) {last : β → δ} {start start' : α} {round round' : α → Parse (Round α β)}
    (begins : view start = view start') (rounds : ∀ value value', view value = view value' →
      Onward names room Any (Round.map view last) (round value) (round' value') Round.GoesOn) :
    Paired names room last (Parse.loop start round) (Parse.loop start' round') :=
  .loop begins (fun value value' same => (rounds value value' same).composed) fun value => (rounds value value rfl).takes

namespace Onward

variable {wanted : Token → Prop} {last : β → δ} {rule other : Parse α} {result : β → Prop}

/-- A loop takes a token if its first round does. -/
theorem loop (view : α → γ) {start start' : α} {round round' : α → Parse (Round α β)} (same : view start = view start')
    (rounds : ∀ value value', view value = view value' →
      Onward names room Any (Round.map view last) (round value) (round' value') Round.GoesOn)
    (begins : Onward names room wanted (Round.map view last) (round start) (round' start') fun _ => True) :
    Onward names room wanted last (Parse.loop start round) (Parse.loop start' round') result := by
  refine ⟨.repeated view same rounds, fun state value after current ended _ => ?_⟩
  replace ended : loopWithin round (state.place.current :: state.place.upcoming) start state = .ok value after := ended
  obtain ⟨found, middle, early, late⟩ := bind_eq_ok.mp ended
  have taken := begins.takes current early trivial
  cases found with
  | done found =>
    cases late
    exact taken
  | again next =>
    have moves := loopWithin_leaves .refl .trans (fun value => (rounds value value rfl).composed.moves)
      state.place.upcoming next middle
    replace late : loopWithin round state.place.upcoming next middle = .ok value after := late
    rw [late] at moves
    exact Nat.lt_of_lt_of_le taken moves.place.taken_le

/-- Behind a rejected rule either a token is taken already, or the current one is the same or half of it. -/
theorem recover {next follow : Option α → Parse β} (onward : Onward names room wanted view rule other fun _ => True)
    (found : ∀ value value', view value = view value' → Paired names room last (next (some value)) (follow (some value')))
    (lost : Onward names room
      (fun token => wanted token ∨ ∃ double : Token, double.kind = .shiftRight ∧ token = double.secondHalf)
      last (next none) (follow none) result) :
    Onward names room wanted last (Parse.recover rule >>= next) (Parse.recover other >>= follow) result := by
  refine ⟨.optional (.recover onward.composed) lost.composed found, fun state value after current ended holds => ?_⟩
  obtain ⟨outcome, middle, early, late⟩ := bind_eq_ok.mp ended
  have moves := onward.composed.moves state
  unfold Parse.recover at early
  split at early
  next value behind inner =>
    cases early
    exact Nat.lt_of_lt_of_le (onward.takes current inner trivial) ((found value value rfl).taken_le late)
  next behind inner =>
    cases early
    rw [inner] at moves
    rcases Nat.lt_or_eq_of_le moves.place.taken_le with more | same
    · exact Nat.lt_of_lt_of_le more (lost.composed.taken_le late)
    · rw [same]
      refine lost.takes ?_ late holds
      rcases moves.place.current_of_taken same.symm with here | ⟨double, half⟩
      · exact .inl (here ▸ current)
      · exact .inr ⟨_, double, half⟩
  next => cases early

theorem whileAt {starts : TokenKind → Bool}
    (inner : Onward names room (fun token => starts token.kind = true) view rule other fun _ => True) :
    Onward names room (fun token => starts token.kind = true) (List.map view) (Parse.whileAt starts rule)
      (Parse.whileAt starts other) fun _ => True := by
  refine .loop (List.map view) rfl (fun found found' same => .peek fun token _ _ => ?_) (.peek fun token _ _ => ?_)
  · dsimp only
    split
    next here =>
      exact .first (inner.within fun _ same => same.2 ▸ here) fun _ _ item =>
        .again (by rw [List.map_cons, List.map_cons, item, same])
    next => exact .done (by rw [List.map_reverse, List.map_reverse, same])
  · dsimp only
    split
    · exact .first (inner.within fun _ => And.left) fun _ _ item => .again (congrArg ([·]) item)
    next other => exact .never (.done rfl) fun _ same => other (same.2 ▸ same.1)

theorem words {starts : TokenKind → Bool} (more : ∀ kind, starts kind = true → kind ≠ .endOfFile) :
    TakesOne names room (fun token => starts token.kind = true) id
      (Parse.whileAt starts do return (← Parse.advance).text) := by
  have text : TakesOne names room (fun token => starts token.kind = true) id (do return (← Parse.advance).text) :=
    advance (fun _ => more _) fun _ _ _ => .pure rfl
  have all : TakesOne names room _ (List.map id) (Parse.whileAt starts _) := text.whileAt
  rwa [List.map_id_fun] at all

theorem expect {kind : TokenKind} (more : kind ≠ .endOfFile) (noDepth : decide (code = .tooDeep) = false) :
    TakesOne names room wanted Token.content (Parse.expect kind code message) := by
  refine ⟨.expect noDepth, fun state value after current ended holds => ?_⟩
  obtain ⟨found, middle, early, late⟩ := bind_eq_ok.mp ended
  cases early
  split at late
  next here =>
    have taken : TakesOne names room (·.kind = kind) Token.content Parse.advance := taken fun _ here => here ▸ more
    exact taken.takes (of_decide_eq_true here) late holds
  next =>
    obtain ⟨_, _, here, ended⟩ := bind_eq_ok.mp late
    obtain ⟨_, _, located, ended⟩ := bind_eq_ok.mp ended
    split at ended
    all_goals
      obtain ⟨_, _, _, ended⟩ := bind_eq_ok.mp ended
      cases ended

theorem expectName : TakesOne names room wanted Token.content (Parse.expectName message) :=
  expect (by nofun) rfl

theorem expectSemicolon {owner : Text} : TakesOne names room wanted id (Parse.expectSemicolon owner) :=
  .token (.expect (by nofun) rfl) fun _ _ _ => .pure rfl

end Onward

namespace Paired

variable {rule other : Parse α}

theorem whileKind {kind : TokenKind} (inner : Onward names room (·.kind = kind) view rule other fun _ => True) :
    Paired names room (List.map view) (Parse.whileAt (· = kind) rule) (Parse.whileAt (· = kind) other) :=
  (Onward.whileAt (inner.within fun _ same => of_decide_eq_true same)).composed

theorem separated (inner : Paired names room view rule other) :
    Paired names room (List.map view) (Parse.separated rule) (Parse.separated other) :=
  .repeated (List.map view) rfl fun found found' same => .second inner fun item item' shown =>
    .more (by rw [List.map_cons, List.map_cons, shown, same])
      (by rw [List.map_reverse, List.map_reverse, List.map_cons, List.map_cons, shown, same])

end Paired

end Parse
end GenericC
