import GenericC.Parser
import GenericC.Proofs.TokenText
import Mathlib.Data.List.Infix

/-! A logic for the rules of the grammar. Whatever a rule does with the tokens, it leaves the settings, the scopes
and the depth of the parse as they were, and what it reports is added to what was reported before. A
rule that is not on trial is never rejected without a report, and takes no preprocessor line without one. Assertions
about rules are put together the way rules are. -/

namespace GenericC

def Place.lines (place : Place) : List Token := (place.current :: place.upcoming).filter (·.kind = .directive)

namespace ParseState

/-- All tokens that were not taken yet are spelled as their kinds want it. -/
def Spelled (state : ParseState) : Prop :=
  ∀ token ∈ state.place.current :: state.place.upcoming, token.Spelled

def Hears (state : ParseState) : Prop :=
  state.settings.reporting = true ∧
    (state.settings.maxErrors = 0 ∨ ¬ state.settings.maxErrors ≤ state.errors + 1)

theorem Hears.of_same {before after : ParseState} (hears : before.Hears)
    (settings : after.settings = before.settings) (errors : after.errors = before.errors) : after.Hears := by
  unfold Hears at *
  rw [settings, errors]
  exact hears

end ParseState

namespace Parse

variable {first second third state : ParseState} {kind : TokenKind}

/-- In which situation a rule is used. -/
inductive Mode
  /-- In a trial, where it may be rejected without a report. -/
  | trial
  /-- In a declaration. Typedefs introduce names. -/
  | rule
  /-- Where preprocessor lines may be taken: at top level, and behind something broken. -/
  | file
deriving DecidableEq

def Mode.NamesKept (mode : Mode) (before after : List Text) : Prop :=
  match mode with
  | .trial => after = before
  | _ => before <:+ after

/-- Something was reported, if reports are kept at all. -/
def Spoken (before after : ParseState) : Prop :=
  before.Hears → before.quiet = 0 → before.tooDeep = false → after.reports ≠ before.reports

/-- The preprocessor lines are still ahead behind a rule. -/
def Mode.Spares (mode : Mode) (before after : ParseState) : Prop :=
  mode = .file ∨ (mode = .rule ∧ Spoken before after) ∨ after.place.lines = before.place.lines

/-- What any rule leaves as it was. -/
structure Steady (mode : Mode) (before after : ParseState) : Prop where
  settings : after.settings = before.settings
  typeParams : after.typeParams = before.typeParams
  depth : after.depth = before.depth
  quiet : after.quiet = before.quiet
  typeNames : mode.NamesKept before.typeNames after.typeNames
  tooDeep : before.tooDeep = true → after.tooDeep = true
  reports : before.reports <:+ after.reports
  /-- A trial reports nothing, unless the source nests too deep. -/
  silent : 0 < before.quiet → after.tooDeep = before.tooDeep →
    after.errors = before.errors ∧ after.reports = before.reports
  /-- Nothing goes wrong without a report. -/
  heard : before.Hears → after.reports = before.reports →
    after.errors = before.errors ∧ after.tooDeep = before.tooDeep
  spares : mode.Spares before after

theorem Mode.NamesKept.refl (mode : Mode) (names : List Text) : mode.NamesKept names names := by
  cases mode
  · rfl
  · exact List.suffix_refl names
  · exact List.suffix_refl names

theorem Mode.NamesKept.trans {mode : Mode} {first second third : List Text} (early : mode.NamesKept first second)
    (late : mode.NamesKept second third) : mode.NamesKept first third := by
  cases mode
  · exact Eq.trans late early
  · exact List.IsSuffix.trans early late
  · exact List.IsSuffix.trans early late

theorem Steady.move {mode : Mode} (state : ParseState) (place : Place) (spares : mode.Spares state { state with place }) :
    Steady mode state { state with place } where
  settings := rfl
  typeParams := rfl
  depth := rfl
  quiet := rfl
  typeNames := .refl _ _
  tooDeep := id
  reports := List.suffix_refl _
  silent _ _ := ⟨rfl, rfl⟩
  heard _ _ := ⟨rfl, rfl⟩
  spares := spares

theorem Steady.refl (mode : Mode) (state : ParseState) : Steady mode state state :=
  .move state state.place (.inr (.inr rfl))

private theorem suffix_between {α : Type} {first second third : List α} (early : first <:+ second)
    (late : second <:+ third) (same : third = first) : second = first ∧ third = second := by
  subst same
  have := late.eq_of_length (Nat.le_antisymm late.length_le early.length_le)
  exact ⟨this, this.symm⟩

theorem Steady.split {mode : Mode} (early : Steady mode first second) (late : Steady mode second third)
    (same : third.reports = first.reports) : second.reports = first.reports ∧ third.reports = second.reports :=
  suffix_between early.reports late.reports same

theorem Spoken.after {mode : Mode} (early : Steady mode first second) (late : Steady mode second third)
    (spoken : Spoken second third) : Spoken first third := by
  intro hears loud shallow same
  obtain ⟨before, after⟩ := early.split late same
  obtain ⟨errors, deep⟩ := early.heard hears before
  exact spoken (hears.of_same early.settings errors) (early.quiet.trans loud) (deep.trans shallow) after

theorem Spoken.before {mode : Mode} (spoken : Spoken first second) (early : Steady mode first second)
    (late : Steady mode second third) : Spoken first third :=
  fun hears loud shallow same => spoken hears loud shallow (early.split late same).1

theorem Steady.trans {mode : Mode} (early : Steady mode first second) (late : Steady mode second third) :
    Steady mode first third where
  settings := late.settings.trans early.settings
  typeParams := late.typeParams.trans early.typeParams
  depth := late.depth.trans early.depth
  quiet := late.quiet.trans early.quiet
  typeNames := early.typeNames.trans late.typeNames
  tooDeep := late.tooDeep ∘ early.tooDeep
  reports := early.reports.trans late.reports
  silent := by
    intro quiet same
    have shallow : second.tooDeep = first.tooDeep :=
      Bool.eq_iff_iff.mpr ⟨fun deep => same ▸ late.tooDeep deep, early.tooDeep⟩
    obtain ⟨errors, reports⟩ := early.silent quiet shallow
    obtain ⟨errors', reports'⟩ := late.silent (early.quiet ▸ quiet) (same.trans shallow.symm)
    exact ⟨errors'.trans errors, reports'.trans reports⟩
  heard := by
    intro hears same
    obtain ⟨before, after⟩ := early.split late same
    obtain ⟨errors, deep⟩ := early.heard hears before
    obtain ⟨errors', deep'⟩ := late.heard (hears.of_same early.settings errors) after
    exact ⟨errors'.trans errors, deep'.trans deep⟩
  spares := by
    rcases early.spares with file | ⟨rule, spoken⟩ | same
    · exact .inl file
    · exact .inr (.inl ⟨rule, spoken.before early late⟩)
    · rcases late.spares with file | ⟨rule, spoken⟩ | same'
      · exact .inl file
      · exact .inr (.inl ⟨rule, spoken.after early late⟩)
      · exact .inr (.inr (same'.trans same))

theorem Steady.ofTrial {mode : Mode} {before after : ParseState} (steady : Steady .trial before after) :
    Steady mode before after :=
  { steady with
    typeNames := by rw [show after.typeNames = _ from steady.typeNames]; exact .refl _ _
    spares := by
      rcases steady.spares with ⟨⟨⟩⟩ | ⟨⟨⟩, -⟩ | same
      exact .inr (.inr same) }

theorem Steady.broken {mode : Mode} (loud : mode ≠ .trial) (early : Steady mode first second)
    (spoken : Spoken first second) (late : Steady .file second third) :
    Steady mode first third ∧ Spoken first third := by
  cases mode with
  | trial => exact absurd rfl loud
  | rule =>
    have early : Steady .file first second := { early with spares := .inl rfl }
    have spoken := spoken.before early late
    exact ⟨{ early.trans late with spares := .inr (.inl ⟨rfl, spoken⟩) }, spoken⟩
  | file => exact ⟨early.trans late, spoken.before early late⟩

/-- Where a rule may end. -/
def Ends {α : Type} (mode : Mode) (good : α → Prop) (before : ParseState) : EStateM.Result Stop ParseState α → Prop
  | .ok value after => Steady mode before after ∧ after.Spelled ∧ good value
  | .error stop after =>
    Steady mode before after ∧ after.Spelled ∧ (mode ≠ .trial → stop = .rejected → Spoken before after)

/-- From every place whose current token is as wanted, a rule ends properly. If it succeeds, its result is good. -/
def Meets {α : Type} (mode : Mode) (wanted : Token → Prop) (rule : Parse α) (good : α → Prop) : Prop :=
  ∀ state : ParseState, state.Spelled → wanted state.place.current → Ends mode good state (rule state)

def Any (_ : Token) : Prop := True

variable {α β : Type} {mode : Mode} {wanted : Token → Prop} {good : α → Prop}

theorem bind_apply (rule : Parse α) (next : α → Parse β) (state : ParseState) :
    (rule >>= next) state = match rule state with
      | .ok value after => next value after
      | .error stop after => .error stop after := by
  show EStateM.bind rule next state = _
  unfold EStateM.bind
  cases rule state <;> rfl

theorem bind_eq_ok {rule : Parse α} {next : α → Parse β} {after : ParseState} {value : β} :
    (rule >>= next) state = .ok value after ↔
      ∃ found middle, rule state = .ok found middle ∧ next found middle = .ok value after := by
  rw [bind_apply]
  cases rule state with
  | ok found middle | error stop middle => simp

theorem ite_apply (test : Prop) [Decidable test] (yes no : Parse α) (state : ParseState) :
    (if test then yes else no) state = if test then yes state else no state := by
  split <;> rfl

theorem Ends.mono {better : α → Prop} {before : ParseState} {result : EStateM.Result Stop ParseState α}
    (ends : Ends mode better before result) (entails : ∀ value, better value → good value) :
    Ends mode good before result := by
  cases result with
  | ok value after => exact ⟨ends.1, ends.2.1, entails _ ends.2.2⟩
  | error stop after => exact ends

theorem Ends.after {result : EStateM.Result Stop ParseState α} (ends : Ends mode good second result)
    (steady : Steady mode first second) : Ends mode good first result := by
  cases result with
  | ok value after => exact ⟨steady.trans ends.1, ends.2⟩
  | error stop after =>
    exact ⟨steady.trans ends.1, ends.2.1, fun loud stopped => (ends.2.2 loud stopped).after steady ends.1⟩

theorem Ends.bind {first : α → Prop} {last : β → Prop} {rule : Parse α} {next : α → Parse β} {state : ParseState}
    (ends : Ends mode first state (rule state))
    (rest : ∀ value, first value → Meets mode (fun token => ∃ after, rule state = .ok value after ∧ after.place.current = token)
      (next value) last) : Ends mode last state ((rule >>= next) state) := by
  rw [bind_apply]
  cases result : rule state with
  | error stop after =>
    rw [result] at ends
    exact ends
  | ok value middle =>
    rw [result] at ends
    obtain ⟨steady, spelled, valid⟩ := ends
    exact (rest value valid middle spelled ⟨middle, result, rfl⟩).after steady

namespace Meets

theorem weaken {more : Token → Prop} {better : α → Prop} {rule : Parse α} (meets : Meets mode wanted rule better)
    (holds : ∀ token, more token → wanted token) (entails : ∀ value, better value → good value) :
    Meets mode more rule good :=
  fun state spelled current => (meets state spelled (holds _ current)).mono entails

theorem mono {better : α → Prop} {rule : Parse α} (meets : Meets mode wanted rule better)
    (entails : ∀ value, better value → good value) : Meets mode wanted rule good :=
  meets.weaken (fun _ => id) entails

theorem within {more : Token → Prop} {rule : Parse α} (meets : Meets mode wanted rule good)
    (holds : ∀ token, more token → wanted token) : Meets mode more rule good :=
  meets.weaken holds fun _ => id

theorem anywhere {rule : Parse α} (meets : Meets mode Any rule good) : Meets mode wanted rule good :=
  meets.within fun _ _ => trivial

theorem pure {value : α} (holds : good value) : Meets mode wanted (pure value) good :=
  fun state spelled _ => ⟨.refl mode state, spelled, holds⟩

/-- Two rules, with what is known of the token between them. -/
theorem bindAt (behind : α → Token → Prop) {first : α → Prop} {last : β → Prop} {rule : Parse α} {next : α → Parse β}
    (meets : Meets mode wanted rule first)
    (lands : ∀ {state value after}, wanted state.place.current → rule state = .ok value after →
      behind value after.place.current)
    (rest : ∀ value, first value → Meets mode (behind value) (next value) last) : Meets mode wanted (rule >>= next) last :=
  fun state spelled holds => (meets state spelled holds).bind fun value valid =>
    (rest value valid).within fun _ ⟨_, ran, here⟩ => here ▸ lands holds ran

theorem bind {first : α → Prop} {last : β → Prop} {rule : Parse α} {next : α → Parse β}
    (meets : Meets mode wanted rule first) (rest : ∀ value, first value → Meets mode Any (next value) last) :
    Meets mode wanted (rule >>= next) last :=
  meets.bindAt (fun _ => Any) (fun _ _ => trivial) rest

theorem map (last : β → Prop) {rule : Parse α} {f : α → β} (meets : Meets mode wanted rule good)
    (holds : ∀ value, good value → last (f value)) : Meets mode wanted (f <$> rule) last :=
  meets.bind fun value valid => .pure (holds value valid)

theorem through (first : α → Prop) {last : β → Prop} {rule : Parse α} {next : α → Parse β}
    (meets : Meets mode wanted rule first) (rest : ∀ value, first value → Meets mode Any (next value) last) :
    Meets mode wanted (rule >>= next) last :=
  meets.bind rest

theorem never {last : β → Prop} {rule : Parse α} {next : α → Parse β} (meets : Meets mode wanted rule fun _ => False) :
    Meets mode wanted (rule >>= next) last :=
  meets.bind fun _ none => none.elim

theorem get {next : ParseState → Parse α} (rest : ∀ state, Meets mode wanted (next state) good) :
    Meets mode wanted (MonadState.get >>= next) good :=
  fun state spelled current => rest state state spelled current

theorem peek {next : Token → Parse α}
    (rest : ∀ token, token.Spelled → wanted token → Meets mode (· = token) (next token) good) :
    Meets mode wanted (Parse.peek >>= next) good :=
  fun state spelled current =>
    rest _ (spelled _ List.mem_cons_self) current state spelled rfl

theorem isAt {next : Bool → Parse α} (yes : Meets mode (fun token => wanted token ∧ token.kind = kind) (next true) good)
    (no : Meets mode (fun token => wanted token ∧ token.kind ≠ kind) (next false) good) :
    Meets mode wanted (Parse.isAt kind >>= next) good := by
  intro state spelled current
  show Ends mode good state (next (state.place.current.kind = kind) state)
  by_cases here : state.place.current.kind = kind
  · rw [decide_eq_true here]
    exact yes state spelled ⟨current, here⟩
  · rw [decide_eq_false here]
    exact no state spelled ⟨current, here⟩

/-- The current token is looked at, and nothing follows from it. -/
theorem test {next : Bool → Parse α} (rest : ∀ found, Meets mode wanted (next found) good) :
    Meets mode wanted (Parse.isAt kind >>= next) good :=
  fun state spelled current => rest _ state spelled current

/-- A trial may be given up at any point. -/
theorem giveUp : Meets .trial wanted (throw .rejected) good :=
  fun state spelled _ => ⟨.refl _ state, spelled, fun trial => absurd rfl trial⟩

/-- The other stops need no report. -/
theorem stop {stop : Stop} (other : stop ≠ .rejected) : Meets mode wanted (throw stop) good :=
  fun state spelled _ => ⟨.refl _ state, spelled, fun _ same => absurd same other⟩

end Meets

theorem advance_apply (state : ParseState) :
    advance state =
      if state.place.current.kind = .endOfFile then .ok state.place.current state
      else match state.place.upcoming with
        | [] => .error .overrun state
        | next :: later => .ok state.place.current { state with place :=
            { current := next, upcoming := later, taken := state.place.taken + 1, last := state.place.current.span } } := by
  unfold advance
  rw [bind_apply]
  show (if _ then _ else _ : Parse Token) state = _
  split
  · rfl
  · cases state.place.upcoming <;> rfl

theorem eat_apply (kind : TokenKind) (state : ParseState) :
    eat kind state = if state.place.current.kind = kind then (advance >>= fun _ => pure true) state else .ok false state := by
  unfold eat
  rw [bind_apply]
  show (if _ then _ else _ : Parse Bool) state = _
  by_cases here : state.place.current.kind = kind
  · rw [if_pos (decide_eq_true here), if_pos here]
  · rw [if_neg (by simpa using here), if_neg here]
    rfl

theorem closeAngle_apply (state : ParseState) :
    closeAngle state =
      if state.place.current.kind = .greater then (advance >>= fun _ => pure true) state
      else if state.place.current.kind = .shiftRight then
        .ok true { state with place := { state.place with
          current := { state.place.current with kind := .greater, text := ">", span :=
            { state.place.current.span with start := state.place.current.span.start + 1 } }
          last := { state.place.current.span with stop := state.place.current.span.start + 1 } } }
      else .ok false state := by
  unfold closeAngle
  rw [bind_apply]
  show (if _ then _ else _ : Parse Bool) state = _
  split
  · rfl
  · split <;> rfl

theorem report_apply (problem : Diagnostic) (state : ParseState) :
    report problem state = .ok () (
      if 0 < state.quiet || !state.settings.reporting then state
      else if state.settings.maxErrors ≠ 0 && state.settings.maxErrors ≤ state.errors + 1 then
        { state with errors := state.errors + 1 }
      else { state with errors := state.errors + 1, reports := problem :: state.reports }) := by
  unfold report
  rw [bind_apply]
  show (if _ then _ else _ : Parse Unit) state = _
  split
  · rfl
  · show (if _ then _ else _ : Parse Unit) state = _
    split <;> rfl

theorem ne_directive {p : TokenKind → Bool} (holds : p kind = true) (never : p .directive = false) :
    kind ≠ .directive := by
  rintro rfl
  rw [holds] at never
  cases never

theorem advance_ends {next : Token → Parse α} {state : ParseState} (spelled : state.Spelled)
    (other : mode = .file ∨ state.place.current.kind ≠ .directive)
    (rest : ∀ place, (state.place.current.kind ≠ .endOfFile → state.place.upcoming = place.current :: place.upcoming) →
      ParseState.Spelled { state with place } → Ends mode good { state with place } (next state.place.current { state with place })) :
    Ends mode good state ((advance >>= next) state) := by
  rw [bind_apply, advance_apply]
  by_cases last : state.place.current.kind = .endOfFile
  · rw [if_pos last]
    exact rest state.place (absurd last) spelled
  · rw [if_neg last]
    cases same : state.place.upcoming with
    | nil => exact ⟨.refl _ _, spelled, fun _ other => nomatch other⟩
    | cons next later =>
      refine (rest _ (fun _ => same) fun token member => ?_).after (.move _ _ ?_)
      · exact spelled token (List.mem_cons_of_mem _ (same ▸ member))
      · refine other.imp_right fun other => .inr ?_
        unfold Place.lines
        rw [same]
        exact (List.filter_cons_of_neg (by simpa using other)).symm

namespace Meets

private theorem advanceFrom {next : Token → Parse α}
    (other : ∀ token, wanted token → mode = .file ∨ token.kind ≠ .directive)
    (rest : ∀ token, token.Spelled → wanted token → Meets mode Any (next token) good) :
    Meets mode wanted (Parse.advance >>= next) good := fun state spelled current =>
  advance_ends spelled (other _ current) fun place _ spelled' =>
    rest _ (spelled _ List.mem_cons_self) current { state with place } spelled' trivial

theorem advance {next : Token → Parse α} (other : ∀ token, wanted token → token.kind ≠ .directive)
    (rest : ∀ token, token.Spelled → wanted token → Meets mode Any (next token) good) :
    Meets mode wanted (Parse.advance >>= next) good :=
  .advanceFrom (fun token holds => .inr (other token holds)) rest

theorem take {token : Token} {next : Token → Parse α} (other : token.kind ≠ .directive)
    (rest : Meets mode Any (next token) good) : Meets mode (· = token) (Parse.advance >>= next) good :=
  .advance (fun _ same => same ▸ other) fun _ _ same => same ▸ rest

theorem skip {next : Token → Parse α} (rest : ∀ token, Meets .file Any (next token) good) :
    Meets .file wanted (Parse.advance >>= next) good :=
  .advanceFrom (fun _ _ => .inl rfl) fun token _ _ => rest token

end Meets

theorem Meets.eat {next : Bool → Parse α} (other : kind ≠ .directive) (yes : Meets mode Any (next true) good)
    (no : Meets mode (fun token => wanted token ∧ token.kind ≠ kind) (next false) good) :
    Meets mode wanted (Parse.eat kind >>= next) good := by
  intro state spelled current
  rw [bind_apply, eat_apply]
  by_cases here : state.place.current.kind = kind
  · have taken : Meets mode (·.kind = kind) ((Parse.advance >>= fun _ => Pure.pure true) >>= next) good :=
      Meets.through (· = true) (Meets.advance (fun _ same => same ▸ other) fun _ _ _ => .pure rfl) fun value same => same ▸ yes
    rw [if_pos here, ← bind_apply]
    exact taken state spelled here
  · rw [if_neg here]
    exact no state spelled ⟨current, here⟩

theorem closeAngle_meets : Meets mode wanted closeAngle (fun _ => True) := by
  intro state spelled current
  rw [closeAngle_apply]
  split
  next here => exact advance_ends spelled (.inr (here ▸ nofun)) fun _ _ spelled => ⟨.refl _ _, spelled, trivial⟩
  · split
    next double =>
      refine ⟨.move _ _ (.inr (.inr ?_)), ?_, trivial⟩
      · exact (List.filter_cons_of_neg Bool.false_ne_true).trans (List.filter_cons_of_neg (by rw [double]; decide)).symm
      · intro token member
        rcases List.mem_cons.mp member with rfl | member
        · exact (rfl : (Text.ofString ">") = TokenKind.greater.spelling)
        · exact spelled token (List.mem_cons_of_mem _ member)
    · exact ⟨.refl _ _, spelled, trivial⟩

theorem report_steady (mode : Mode) (problem : Diagnostic) (state : ParseState) :
    ∃ after, report problem state = .ok () after ∧ after.place = state.place ∧ Steady mode state after ∧
      (state.Hears → state.quiet = 0 → after.reports ≠ state.reports) := by
  rw [report_apply]
  split
  next quiet =>
    refine ⟨_, rfl, rfl, .refl _ _, fun hears loud => ?_⟩
    simp [hears.1, loud] at quiet
  next loud =>
    have noTrial : state.quiet = 0 := by
      simp only [Bool.or_eq_true, decide_eq_true_eq, not_or] at loud
      omega
    split
    next full =>
      have deaf : ¬ state.Hears := by
        intro hears
        simp only [ne_eq, Bool.and_eq_true, decide_eq_true_eq] at full
        exact hears.2.elim full.1 (absurd full.2)
      refine ⟨_, rfl, rfl, ?_, fun hears => absurd hears deaf⟩
      exact { Steady.refl mode state with
        silent := fun quiet => absurd noTrial (Nat.pos_iff_ne_zero.mp quiet)
        heard := fun hears => absurd hears deaf
        spares := .inr (.inr rfl) }
    next =>
      have longer : problem :: state.reports ≠ state.reports := List.cons_ne_self _ _
      refine ⟨_, rfl, rfl, ?_, fun _ _ => longer⟩
      exact { Steady.refl mode state with
        reports := List.suffix_cons _ _
        silent := fun quiet => absurd noTrial (Nat.pos_iff_ne_zero.mp quiet)
        heard := fun _ same => absurd same longer
        spares := .inr (.inr rfl) }

theorem report_meets (problem : Diagnostic) : Meets mode wanted (report problem) (fun _ => True) := by
  intro state spelled _
  obtain ⟨after, result, place, steady, -⟩ := report_steady mode problem state
  rw [result]
  refine ⟨steady, ?_, trivial⟩
  unfold ParseState.Spelled
  rw [place]
  exact spelled

theorem Meets.reportFirst {problem : Diagnostic} {next : Unit → Parse α} (rest : Meets .trial wanted (next ()) good) :
    Meets mode wanted (report problem >>= next) good := by
  intro state spelled current
  obtain ⟨middle, result, place, steady, spoken⟩ := report_steady .trial problem state
  rw [bind_apply, result]
  have ends := rest middle (by unfold ParseState.Spelled; rwa [place]) (place ▸ current)
  dsimp only
  cases last : next () middle with
  | ok value after =>
    rw [last] at ends
    exact ⟨(steady.trans ends.1).ofTrial, ends.2⟩
  | error stop after =>
    rw [last] at ends
    refine ⟨(steady.trans ends.1).ofTrial, ends.2.1, fun _ _ hears loud _ same => ?_⟩
    exact spoken hears loud (steady.split ends.1 same).1

theorem Meets.reportAndThrow (problem : Diagnostic) :
    Meets mode wanted (report problem >>= fun _ => throw .rejected) good := .reportFirst .giveUp

theorem reject_meets (code : DiagnosticCode) (span : Span) (message : Text) :
    Meets mode wanted (reject code span message) good := .reportAndThrow _

theorem errorSpan_meets : Meets mode wanted errorSpan (fun _ => True) := by
  refine .get fun state => ?_
  dsimp only
  split <;> exact .pure trivial

theorem rejectHere_meets (code : DiagnosticCode) (message : Text) :
    Meets mode wanted (rejectHere code message) good :=
  errorSpan_meets.bind fun _ _ => reject_meets _ _ _

theorem Meets.span {start : Span} {next : Span → Parse α} (rest : ∀ span, Meets mode wanted (next span) good) :
    Meets mode wanted (spanFrom start >>= next) good :=
  fun state spelled current => rest _ state spelled current

theorem expect_meets {code : DiagnosticCode} {message : Text} (other : kind ≠ .directive) :
    Meets mode wanted (expect kind code message) (fun token => token.Spelled ∧ token.kind = kind) := by
  have taken : Meets mode (fun token => wanted token ∧ token.kind = kind) (advance >>= pure)
      fun token => token.Spelled ∧ token.kind = kind :=
    .advance (fun _ here => here.2 ▸ other) fun token spelled here => .pure ⟨spelled, here.2⟩
  rw [bind_pure] at taken
  refine .isAt taken ?_
  · refine .get fun state => errorSpan_meets.bind fun span _ => ?_
    dsimp only
    split
    · exact .reportAndThrow _
    · exact .reportAndThrow _

theorem Meets.name {message : Text} {next : Token → Parse α}
    (rest : ∀ token, IsName token.text → Meets mode Any (next token) good) :
    Meets mode wanted (expectName message >>= next) good := by
  refine (expect_meets (by nofun)).bind fun token ⟨spelled, kind⟩ => rest token ?_
  unfold Token.Spelled at spelled
  rwa [kind] at spelled

theorem Meets.semicolon {owner : Text} {next : Unit → Parse α} (rest : Meets mode Any (next ()) good) :
    Meets mode wanted (expectSemicolon owner >>= next) good :=
  Meets.through (fun _ => True) ((expect_meets (by nofun)).bind fun _ _ => .pure trivial) fun _ _ => rest

theorem peekPast_apply (count : Nat) (state : ParseState) : peekPast count state =
    .ok (state.place.upcoming[count]?.getD (state.place.upcoming.getLastD state.place.current)) state := by
  unfold peekPast
  rw [bind_apply]
  dsimp only [MonadState.get, getThe, MonadStateOf.get, EStateM.get]
  cases state.place.upcoming[count]? <;> rfl

theorem Meets.peekPast {count : Nat} {next : Token → Parse α} (rest : ∀ token, Meets mode wanted (next token) good) :
    Meets mode wanted (Parse.peekPast count >>= next) good := by
  intro state spelled current
  rw [bind_apply, peekPast_apply]
  exact rest _ state spelled current

theorem isTypeName_meets (name : Text) : Meets mode wanted (isTypeName name) (fun _ => True) :=
  .get fun _ => .pure trivial

theorem atTypeStart_meets : Meets mode wanted atTypeStart (fun _ => True) := by
  refine .peek fun token _ _ => ?_
  split
  · exact .pure trivial
  · split
    · exact isTypeName_meets _
    · exact .pure trivial

theorem errorSpan_apply (state : ParseState) : ∃ span, errorSpan state = .ok span state := by
  unfold errorSpan
  rw [bind_apply]
  show ∃ span, (if state.place.current.kind = .endOfFile && 0 < state.place.last.stop then _ else _ : Parse Span) state = _
  split <;> exact ⟨_, rfl⟩

theorem markTooDeep_steady (mode : Mode) (state : ParseState) :
    ∃ after, markTooDeep state = .ok () after ∧ after.place = state.place ∧ Steady mode state after ∧
      Spoken state after := by
  unfold markTooDeep
  rw [bind_apply]
  show ∃ after, (if !state.tooDeep then _ else _ : Parse Unit) state = _ ∧ _
  split
  next shallow =>
    have shallow : state.tooDeep = false := by simpa using shallow
    let marked : ParseState := { state with tooDeep := true, quiet := 0 }
    obtain ⟨span, found⟩ := errorSpan_apply marked
    obtain ⟨after, result, place, steady, spoken⟩ := report_steady mode
      (.ofError .tooDeep span (Text.concat ["nesting exceeds ", Text.ofNat state.settings.maxNesting, " levels"])) marked
    have spoken : state.Hears → after.reports ≠ state.reports := fun hears => spoken hears rfl
    refine ⟨{ after with quiet := state.quiet }, ?_, place, ?_, fun hears _ _ => spoken hears⟩
    · rw [bind_apply]
      show (errorSpan >>= _) marked = _
      rw [bind_apply, found]
      dsimp only
      rw [bind_apply, result]
      rfl
    · exact { steady with
        quiet := rfl
        silent := fun _ same => by
          have := steady.tooDeep rfl
          dsimp only at same
          rw [this, shallow] at same
          cases same
        tooDeep := fun deep => by rw [shallow] at deep; cases deep
        heard := fun hears same => absurd same (spoken hears)
        spares := .inr (.inr (congrArg Place.lines place)) }
  next deep =>
    have deep : state.tooDeep = true := by simpa using deep
    refine ⟨state, rfl, rfl, .refl _ _, fun _ _ shallow => ?_⟩
    rw [deep] at shallow
    cases shallow

theorem quietly_ends {rule : Parse α} (meets : Meets .trial wanted rule good) (state : ParseState) (spelled : state.Spelled)
    (current : wanted state.place.current) :
    Ends .trial good state (quietly rule state) := by
  have ends := meets { state with quiet := state.quiet + 1 } spelled current
  unfold quietly
  have back {after : ParseState} (steady : Steady .trial { state with quiet := state.quiet + 1 } after) :
      Steady .trial state { after with quiet := after.quiet - 1 } := by
    refine { steady with
      quiet := ?_
      silent := fun _ => steady.silent (Nat.succ_pos _)
      heard := steady.heard
      spares := Or.imp_right (Or.imp_left fun spoken => nomatch spoken.1) steady.spares }
    have := steady.quiet
    dsimp only at this ⊢
    omega
  cases result : rule { state with quiet := state.quiet + 1 } with
  | ok value after =>
    rw [result] at ends
    exact ⟨back ends.1, ends.2.1, ends.2.2⟩
  | error stop after =>
    rw [result] at ends
    exact ⟨back ends.1, ends.2.1, fun trial => absurd rfl trial⟩

private theorem Steady.goBack {before after : ParseState} (steady : Steady .trial before after) :
    Steady mode before { after with place := before.place } :=
  { steady.ofTrial with heard := steady.heard, silent := steady.silent, spares := .inr (.inr rfl) }

theorem Meets.attempt {rule : Parse α} (meets : Meets .trial wanted rule good) :
    Meets mode wanted (attempt rule) (fun found => ∀ value ∈ found, good value) := by
  intro state spelled current
  have ends := quietly_ends meets state spelled current
  unfold Parse.attempt
  cases result : quietly rule state with
  | ok value after =>
    rw [result] at ends
    refine ⟨ends.1.ofTrial, ends.2.1, ?_⟩
    rintro _ ⟨⟩
    exact ends.2.2
  | error stop after =>
    rw [result] at ends
    cases stop with
    | rejected => exact ⟨ends.1.goBack, spelled, fun _ none => nomatch none⟩
    | _ => exact ⟨ends.1.ofTrial, ends.2.1, fun _ other => nomatch other⟩

theorem Meets.lookahead {rule : Parse Bool} {last : Bool → Prop} (meets : Meets .trial wanted rule last) :
    Meets mode wanted (lookahead rule) (fun _ => True) := by
  intro state spelled current
  have ends := quietly_ends meets state spelled current
  unfold Parse.lookahead
  cases result : quietly rule state with
  | ok value after =>
    rw [result] at ends
    exact ⟨ends.1.goBack, spelled, trivial⟩
  | error stop after =>
    rw [result] at ends
    cases stop with
    | rejected => exact ⟨ends.1.goBack, spelled, trivial⟩
    | _ => exact ⟨ends.1.ofTrial, ends.2.1, fun _ other => nomatch other⟩

theorem lookahead_place {rule : Parse Bool} {after : ParseState} {found : Bool}
    (ran : lookahead rule state = .ok found after) : after.place = state.place := by
  unfold Parse.lookahead at ran
  split at ran <;> cases ran <;> rfl

theorem Meets.recover {rule : Parse α} {next : Option α → Parse β} {last : β → Prop} (loud : mode ≠ .trial)
    (meets : Meets mode wanted rule good) (found : ∀ value, good value → Meets mode Any (next (some value)) last)
    (broken : Meets .file Any (next none) last) : Meets mode wanted (recover rule >>= next) last := by
  intro state spelled current
  have ends := meets state spelled current
  rw [bind_apply]
  unfold Parse.recover
  cases result : rule state with
  | ok value after =>
    rw [result] at ends
    exact (found value ends.2.2 after ends.2.1 trivial).after ends.1
  | error stop after =>
    rw [result] at ends
    cases stop with
    | rejected =>
      obtain ⟨steady, spelled, spoken⟩ := ends
      have ends := broken after spelled trivial
      dsimp only
      cases result : next none after with
      | ok value final =>
        rw [result] at ends
        exact ⟨(steady.broken loud (spoken loud rfl) ends.1).1, ends.2⟩
      | error stop final =>
        rw [result] at ends
        have both := steady.broken loud (spoken loud rfl) ends.1
        exact ⟨both.1, ends.2.1, fun _ _ => both.2⟩
    | overrun | underflow | exhausted => exact ends

theorem Meets.atTop {rule : Parse α} (meets : Meets .rule wanted rule good) : Meets .file wanted rule good := by
  intro state spelled current
  have ends := meets state spelled current
  cases result : rule state with
  | ok value after =>
    rw [result] at ends
    exact ⟨{ ends.1 with spares := .inl rfl }, ends.2⟩
  | error stop after =>
    rw [result] at ends
    exact ⟨{ ends.1 with spares := .inl rfl }, ends.2.1, fun _ => ends.2.2 nofun⟩

theorem nested_apply (rule : Parse α) (state : ParseState) :
    nested rule state =
      if state.settings.maxNesting ≤ state.depth then
        match markTooDeep state with
        | .ok _ after => .error .rejected after
        | .error stop after => .error stop after
      else match rule { state with depth := state.depth + 1 } with
        | .ok result after => .ok result { after with depth := after.depth - 1 }
        | .error stop after => .error stop { after with depth := after.depth - 1 } := by
  unfold nested
  rw [bind_apply]
  show (if state.settings.maxNesting ≤ state.depth then _ else _ : Parse α) state = _
  refine (ite_apply _ _ _ _).trans ?_
  rw [bind_apply]
  congr 1
  cases markTooDeep state <;> rfl

theorem Meets.nested {rule : Parse α} (meets : Meets mode wanted rule good) :
    Meets mode wanted (nested rule) good := by
  intro state spelled current
  rw [nested_apply]
  split
  · obtain ⟨after, result, place, steady, spoken⟩ := markTooDeep_steady mode state
    rw [result]
    refine ⟨steady, ?_, fun _ _ => spoken⟩
    unfold ParseState.Spelled
    rw [place]
    exact spelled
  · have ends := meets { state with depth := state.depth + 1 } spelled current
    have back {after : ParseState} (steady : Steady mode { state with depth := state.depth + 1 } after) :
        Steady mode state { after with depth := after.depth - 1 } := by
      refine { steady with depth := ?_, heard := steady.heard }
      have := steady.depth
      dsimp only at this ⊢
      omega
    cases result : rule { state with depth := state.depth + 1 } with
    | ok value after | error stop after =>
      rw [result] at ends
      exact ⟨back ends.1, ends.2.1, ends.2.2⟩

theorem dropTypeParams_apply {inner : List Text} {outer : List (List Text)} (same : state.typeParams = inner :: outer) :
    dropTypeParams state = .ok () { state with typeParams := outer } := by
  cases state
  cases same
  rfl

theorem Meets.withTypeParams {names : List Text} {rule : Parse α} (meets : Meets mode wanted rule good) :
    Meets mode wanted (withTypeParams names rule) good := by
  intro state spelled current
  have ends := meets { state with typeParams := names :: state.typeParams } spelled current
  have back {after : ParseState} (steady : Steady mode { state with typeParams := names :: state.typeParams } after) :
      dropTypeParams after = .ok () { after with typeParams := state.typeParams } ∧
        Steady mode state { after with typeParams := state.typeParams } := by
    exact ⟨dropTypeParams_apply steady.typeParams, { steady with typeParams := rfl, heard := steady.heard }⟩
  unfold Parse.withTypeParams
  cases result : rule { state with typeParams := names :: state.typeParams } with
  | ok value after =>
    rw [result] at ends
    obtain ⟨dropped, steady⟩ := back ends.1
    show Ends mode good state ((dropTypeParams >>= fun _ => Pure.pure value) after)
    rw [bind_apply, dropped]
    exact ⟨steady, ends.2⟩
  | error stop after =>
    rw [result] at ends
    obtain ⟨dropped, steady⟩ := back ends.1
    show Ends mode good state ((dropTypeParams >>= fun _ => throw stop) after)
    rw [bind_apply, dropped]
    exact ⟨steady, ends.2⟩

def Round.Holds (goesOn : α → Prop) (ended : β → Prop) : Round α β → Prop
  | .again next => goesOn next
  | .done result => ended result

private theorem afterRound_meets {goesOn : α → Prop} {ended : β → Prop} {round : α → Parse (Round α β)}
    {allowance : List Token} (within : ∀ value, goesOn value → Meets mode Any (loopWithin round allowance value) ended)
    (result : Round α β) (kept : Round.Holds goesOn ended result) :
    Meets mode Any (match result with
      | .done result => Pure.pure result
      | .again next => loopWithin round allowance next) ended := by
  cases result with
  | done result => exact .pure kept
  | again next => exact within next kept

theorem Meets.loopFrom (goesOn : α → Prop) {ended : β → Prop} {start : α} {round : α → Parse (Round α β)}
    (first : Meets mode wanted (round start) (Round.Holds goesOn ended))
    (rounds : ∀ value, goesOn value → Meets mode Any (round value) (Round.Holds goesOn ended)) :
    Meets mode wanted (loop start round) ended := by
  have within (allowance : List Token) (value : α) (holds : goesOn value) :
      Meets mode Any (loopWithin round allowance value) ended := by
    induction allowance generalizing value with
    | nil => exact .stop (by decide)
    | cons _ allowance ih => exact (rounds value holds).bind (afterRound_meets ih)
  exact .get fun state => first.bind (afterRound_meets (within _))

theorem Meets.loop (goesOn : α → Prop) {ended : β → Prop} {start : α} {round : α → Parse (Round α β)}
    (begins : goesOn start) (rounds : ∀ value, goesOn value → Meets mode Any (round value) (Round.Holds goesOn ended)) :
    Meets mode wanted (loop start round) ended :=
  .loopFrom goesOn (rounds start begins).anywhere rounds

section
variable {starts : TokenKind → Bool} {rule : Parse α}

private theorem whileAt_round (meets : Meets mode (fun token => starts token.kind = true) rule good) (found : List α)
    (all : ∀ value ∈ found, good value) :
    Meets mode wanted (Parse.peek >>= fun token =>
      if starts token.kind = true then rule >>= fun value => Pure.pure (Round.again (value :: found))
      else Pure.pure (Round.done found.reverse))
      (Round.Holds (fun next => next ≠ [] ∧ ∀ value ∈ next, good value) (· = found.reverse)) := by
  refine .peek fun token _ _ => ?_
  split
  next here =>
    refine Meets.bind (meets.weaken (by rintro _ rfl; exact here) fun _ => id) fun value holds => .pure ?_
    exact ⟨List.cons_ne_nil _ _, List.forall_mem_cons.mpr ⟨holds, all⟩⟩
  next => exact .pure rfl

theorem Meets.whileAt (meets : Meets mode (fun token => starts token.kind = true) rule good) :
    Meets mode wanted (Parse.whileAt starts rule) (fun found => ∀ value ∈ found, good value) := by
  refine .loop (fun found => ∀ value ∈ found, good value) (by simp) fun found all => ?_
  refine (whileAt_round meets found all).mono fun round holds => ?_
  cases round with
  | again next => exact holds.2
  | done result =>
    obtain rfl : result = found.reverse := holds
    exact fun value member => all value (List.mem_reverse.mp member)

theorem Meets.whileAtSome (starts : TokenKind → Bool) {rule : Parse α}
    (meets : Meets mode (fun token => starts token.kind = true) rule good) :
    Meets mode (fun token => starts token.kind = true) (Parse.whileAt starts rule)
      (fun found => found ≠ [] ∧ ∀ value ∈ found, good value) := by
  refine .loopFrom (fun found => found ≠ [] ∧ ∀ value ∈ found, good value) ?_ fun found all => ?_
  · refine .peek fun token _ here => ?_
    rw [if_pos here]
    refine Meets.bind (meets.weaken (by rintro _ rfl; exact here) fun _ => id) fun value holds => .pure ?_
    exact ⟨List.cons_ne_nil _ _, List.forall_mem_cons.mpr ⟨holds, by simp⟩⟩
  · refine (whileAt_round meets found all.2).mono fun round holds => ?_
    cases round with
    | again next => exact holds
    | done result =>
      obtain rfl : result = found.reverse := holds
      exact ⟨by simpa using all.1, fun value member => all.2 value (List.mem_reverse.mp member)⟩

end

theorem Meets.separated {rule : Parse α} (meets : Meets mode Any rule good) :
    Meets mode wanted (separated rule) (fun found => found ≠ [] ∧ ∀ value ∈ found, good value) := by
  refine .loop (fun found => ∀ value ∈ found, good value) (by simp) fun found all => ?_
  refine meets.bind fun value holds => ?_
  have both : ∀ other ∈ value :: found, good other := List.forall_mem_cons.mpr ⟨holds, all⟩
  refine .eat (by nofun) (.pure both) (.pure ⟨by simp, ?_⟩)
  exact fun other member => both other (List.mem_reverse.mp member)

theorem Meets.forEach {items : List β} {body : β → PUnit → Parse (ForInStep PUnit)}
    (each : ∀ item ∈ items, Meets mode Any (body item .unit) (· = .yield .unit)) :
    Meets mode wanted (forIn items PUnit.unit body) (fun _ => True) := by
  suffices all : Meets mode Any (forIn items PUnit.unit body) (fun _ => True) from all.anywhere
  induction items with
  | nil => exact .pure trivial
  | cons item rest ih =>
    rw [List.forIn_cons]
    refine (each item List.mem_cons_self).bind ?_
    rintro _ rfl
    exact ih fun other member => each other (List.mem_cons_of_mem _ member)

theorem forIn_place {items : List β} {body : β → PUnit → Parse (ForInStep PUnit)}
    (each : ∀ {item state step after}, body item .unit state = .ok step after → after.place = state.place)
    {after : ParseState} {result : PUnit} (ran : forIn items PUnit.unit body state = .ok result after) :
    after.place = state.place := by
  induction items generalizing state with
  | nil =>
    cases ran
    rfl
  | cons item rest ih =>
    rw [List.forIn_cons] at ran
    obtain ⟨step, middle, early, late⟩ := bind_eq_ok.mp ran
    cases step with
    | done value =>
      cases late
      exact each early
    | yield value => exact (ih late).trans (each early)

theorem Meets.unlessTooDeep {next : Unit → Parse α} (rest : Meets mode wanted (next ()) good) :
    Meets mode wanted (MonadState.get >>= fun state =>
      if state.tooDeep = true then throw .rejected >>= next else next ()) good := by
  intro state spelled current
  show Ends mode good state ((if state.tooDeep = true then throw .rejected >>= next else next ()) state)
  split
  next deep =>
    refine ⟨.refl _ _, spelled, fun _ _ _ _ shallow => ?_⟩
    rw [deep] at shallow
    cases shallow
  next => exact rest state spelled current

end Parse
end GenericC
