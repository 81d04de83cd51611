import GenericC.Proofs.ParserProgress
import GenericC.Proofs.TrialFrames

/-! Nesting in a parse. Every rule is run at a depth within the limit, and however it ends, the depth and the type
parameters are what they were when it began. A source that nests too deep is marked when a rule would go past the limit,
and that is reported at most once. -/

namespace GenericC

def ParseState.depthReports (state : ParseState) : Nat := state.reports.countP (·.code = .tooDeep)

namespace Parse

variable {α β : Type} {names : Bool} {room levels : Nat}
variable {rule : Parse α} {state : ParseState}

/-- Too deep a source is reported no more often than it is marked. -/
def MarksFirst (before after : ParseState) : Prop :=
  after.depthReports + before.tooDeep.toNat ≤ before.depthReports + after.tooDeep.toNat

theorem MarksFirst.refl (state : ParseState) : MarksFirst state state := Nat.le_refl _

theorem MarksFirst.trans {first second third : ParseState} (early : MarksFirst first second)
    (late : MarksFirst second third) : MarksFirst first third := by
  unfold MarksFirst at *
  omega

theorem reported_marksFirst {problem : Diagnostic} (other : decide (problem.code = .tooDeep) = false)
    (state : ParseState) : MarksFirst state (reported problem state) := by
  unfold reported
  split
  · exact .refl state
  · split
    · exact .refl state
    · refine Nat.add_le_add_right (Nat.le_of_eq ?_) _
      exact List.countP_cons_of_neg (by simpa using other)

theorem depthReports_reported (problem : Diagnostic) (state : ParseState) :
    (reported problem state).depthReports ≤ state.depthReports + 1 ∧ (reported problem state).tooDeep = state.tooDeep := by
  unfold reported
  split
  · exact ⟨Nat.le_succ _, rfl⟩
  · split
    · exact ⟨Nat.le_succ _, rfl⟩
    · refine ⟨?_, rfl⟩
      show List.countP _ (problem :: state.reports) ≤ List.countP _ state.reports + 1
      rw [List.countP_cons]
      split <;> omega

theorem markedTooDeep_marksFirst (state : ParseState) : MarksFirst state (markedTooDeep state) := by
  unfold markedTooDeep
  split
  · exact .refl state
  next unmarked =>
    obtain ⟨once, marked⟩ := depthReports_reported (depthProblem state) { state with tooDeep := true, quiet := 0 }
    show _ + state.tooDeep.toNat ≤ state.depthReports + (reported _ _).tooDeep.toNat
    rw [Bool.not_eq_true] at unmarked
    rw [marked, unmarked]
    exact once

theorem marksFirst_carried : Carried true MarksFirst where
  refl := .refl
  trans := .trans
  place _ marks := marks
  report := reported_marksFirst
  mark := markedTooDeep_marksFirst
  declare _ state _ := .refl state
  trial marks _ := marks
  nested marks _ := marks
  scope marks := marks

theorem parseTokens_depthReports (settings : ParseSettings) (file : UInt32) (tokens : List Token) :
    (parseTokens settings file tokens).reports.countP (·.code = .tooDeep) ≤ 1 := by
  obtain ⟨decls, after, result⟩ := ParseState.start_ends settings file tokens
  have marks := (decls_composed (settings.maxNesting + 1)).carries marksFirst_carried (.start settings file tokens)
  rw [result] at marks
  have reports : (parseTokens settings file tokens).reports = after.reports.reverse := by
    unfold parseTokens
    rw [result]
  rw [reports, List.countP_reverse]
  calc after.depthReports ≤ after.depthReports + 0 := Nat.le_refl _
    _ ≤ 0 + after.tooDeep.toNat := marks.2
    _ ≤ 1 := by rw [Nat.zero_add]; exact Bool.toNat_le _

/-- A rule begins within the limit of nesting. However it ends, the depth and the type parameters are what they
were. -/
structure Level (rule : Parse α) (state : ParseState) : Prop where
  within : state.depth ≤ state.settings.maxNesting
  restored : Leaves (fun after => after.depth = state.depth ∧ after.typeParams = state.typeParams) (rule state)

/-- Every part of a rule that is run from a state is level, and so is the rule as a whole. -/
inductive Balanced : {α : Type} → Parse α → ParseState → Prop where
  | pure {α : Type} {value : α} {state : ParseState} (level : Level (Pure.pure value) state) :
      Balanced (Pure.pure value) state
  | bind {α β : Type} {rule : Parse α} {next : α → Parse β} {state : ParseState} (level : Level (rule >>= next) state)
      (first : Balanced rule state) (rest : ∀ value after, rule state = .ok value after → Balanced (next value) after) :
      Balanced (rule >>= next) state
  | read {α : Type} {next : ParseState → Parse α} {state : ParseState} (level : Level (get >>= next) state)
      (rest : Balanced (next state) state) : Balanced (get >>= next) state
  | stop {α : Type} {stop : Stop} {state : ParseState} (level : Level (throw stop : Parse α) state) :
      Balanced (throw stop : Parse α) state
  | advance {state : ParseState} (level : Level Parse.advance state) : Balanced Parse.advance state
  | closeAngle {state : ParseState} (level : Level Parse.closeAngle state) : Balanced Parse.closeAngle state
  | report {problem : Diagnostic} {state : ParseState} (level : Level (Parse.report problem) state) :
      Balanced (Parse.report problem) state
  | declare {name : Text} {state : ParseState}
      (level : Level (modify fun state => { state with typeNames := name :: state.typeNames }) state) :
      Balanced (modify fun state => { state with typeNames := name :: state.typeNames }) state
  | attempt {α : Type} {rule : Parse α} {state : ParseState} (level : Level (Parse.attempt rule) state)
      (trial : Balanced rule { state with quiet := state.quiet + 1 }) : Balanced (Parse.attempt rule) state
  | lookahead {rule : Parse Bool} {state : ParseState} (level : Level (Parse.lookahead rule) state)
      (trial : Balanced rule { state with quiet := state.quiet + 1 }) : Balanced (Parse.lookahead rule) state
  | recover {α : Type} {rule : Parse α} {state : ParseState} (level : Level (Parse.recover rule) state)
      (inner : Balanced rule state) : Balanced (Parse.recover rule) state
  | nested {α : Type} {rule : Parse α} {state : ParseState} (level : Level (Parse.nested rule) state)
      (deeper : state.depth < state.settings.maxNesting → Balanced rule { state with depth := state.depth + 1 }) :
      Balanced (Parse.nested rule) state
  | withTypeParams {α : Type} {names : List Text} {rule : Parse α} {state : ParseState}
      (level : Level (Parse.withTypeParams names rule) state)
      (scope : Balanced rule { state with typeParams := names :: state.typeParams }) :
      Balanced (Parse.withTypeParams names rule) state
  | loop {α β : Type} {start : α} {round : α → Parse (Round α β)} {state : ParseState}
      (level : Level (Parse.loop start round) state)
      (rounds : ∀ value now, Repeats round start state value now → Balanced (round value) now) :
      Balanced (Parse.loop start round) state

theorem Paired.restored {other : Parse α} (paired : Paired names room view rule other) (state : ParseState) :
    Leaves (fun after => after.depth = state.depth ∧ after.typeParams = state.typeParams) (rule state) :=
  (paired.moves state).mono fun _ moves => ⟨moves.depth, moves.typeParams⟩

theorem Paired.level {other : Parse α} (paired : Paired names room view rule other)
    (within : state.depth ≤ state.settings.maxNesting) : Level rule state := ⟨within, paired.restored state⟩

theorem Moves.within {before after : ParseState} (moves : Moves before after)
    (within : before.depth ≤ before.settings.maxNesting) : after.depth ≤ after.settings.maxNesting := by
  rw [moves.depth, moves.settings]
  exact within

theorem Paired.balanced {other : Parse α} (paired : Paired names room view rule other)
    (within : state.depth ≤ state.settings.maxNesting) : Balanced rule state := by
  induction paired generalizing state with
  | pure same => exact .pure ((@Paired.pure names 0 _ _ _ _ _ same).level within)
  | bind first rest first_balanced rest_balanced =>
    refine .bind ((first.bind rest).level within) (first_balanced within) fun value after ended => ?_
    exact rest_balanced value value rfl ((first.moved ended).within within)
  | read same rest ih => exact .read ((Paired.read same rest).level within) (ih (.refl state) within)
  | @giveUp room α => exact .stop ((@Paired.giveUp names 0 α α id).level within)
  | @exhausted α => exact .stop ((@Paired.exhausted names α α id).level within)
  | advance => exact .advance ((@Paired.advance names 0).level within)
  | closeAngle => exact .closeAngle ((@Paired.closeAngle names 0).level within)
  | report error other same => exact .report ((@Paired.report names 0 _ _ error other same).level within)
  | declare name may => exact .declare ((@Paired.declare names 0 name may).level within)
  | attempt trial ih => exact .attempt (trial.attempt.level within) (ih within)
  | lookahead trial ih => exact .lookahead (trial.lookahead.level within) (ih within)
  | recover inner ih => exact .recover (inner.recover.level within) (ih within)
  | nested inner ih => exact .nested (inner.nested.level within) fun deeper => ih deeper
  | withTypeParams inner ih => exact .withTypeParams (inner.withTypeParams.level within) (ih within)
  | loop begins rounds takes ih =>
    refine .loop ((Paired.loop begins rounds takes).level within) fun value now reached => ?_
    exact ih value value rfl ((reached.moves fun value => rounds value value rfl).within within)

/-- The rules of the grammar, with room for some levels of nesting. -/
inductive GrammarRule (levels : Nat) : {α : Type} → Parse α → Prop where
  | qualifiers : GrammarRule levels qualifiers
  | typeArgs : GrammarRule levels (typeArgs (typeExpr levels))
  | applied (name : Token) : GrammarRule levels (applied (typeExpr levels) name)
  | baseType : GrammarRule levels (baseType (typeExpr levels))
  | stars (start : Span) (type : TypeExpr) : GrammarRule levels (stars start type)
  | typeExpr : GrammarRule levels (typeExpr levels)
  | countStars : GrammarRule levels countStars
  | nextType (type : TypeExpr) : GrammarRule levels (nextType type)
  | typeParams : GrammarRule levels typeParams
  | isTypeLike (type : TypeExpr) : GrammarRule levels (isTypeLike type)
  | operators (least : Nat) (first : Expr) : GrammarRule levels (operators (binary levels) least first)
  | callArgs (callee : Expr) (types : List TypeExpr) : GrammarRule levels (callArgs (binary levels) callee types)
  | callTypeArgs : GrammarRule levels (callTypeArgs (typeExpr levels))
  | primary : GrammarRule levels (primary (binary levels) (typeExpr levels))
  | trailers (first : Expr) : GrammarRule levels (trailers (binary levels) first)
  | parenType : GrammarRule levels (parenType (typeExpr levels))
  | sizeof : GrammarRule levels (sizeof (unary levels) (typeExpr levels))
  | castOperand : GrammarRule levels (castOperand (unary levels) (initList levels))
  | unaryBody : GrammarRule levels (unaryBody (binary levels) (unary levels) (initList levels) (typeExpr levels))
  | initListBody : GrammarRule levels (initListBody (binary levels Binding.assignment) (initList levels))
  | binary (least : Nat) : GrammarRule levels (binary levels least)
  | unary : GrammarRule levels (unary levels)
  | initList : GrammarRule levels (initList levels)
  | expr : GrammarRule levels (expr levels)
  | value : GrammarRule levels (value levels)
  | initializer : GrammarRule levels (initializer levels)
  | dimensions : GrammarRule levels (dimensions levels)
  | storage : GrammarRule levels storage
  | declarator (type : TypeExpr) (name : Token) : GrammarRule levels (declarator levels type name)
  | declarators (type : TypeExpr) (name : Token) : GrammarRule levels (declarators levels type name)
  | localVars : GrammarRule levels (localVars levels)
  | typedName : GrammarRule levels (typedName levels)
  | atLocalVars : GrammarRule levels (atLocalVars levels)
  | condition (owner : Text) : GrammarRule levels (condition levels owner)
  | skipStmt : GrammarRule levels skipStmt
  | block : GrammarRule levels (block (stmt levels))
  | ifStmt : GrammarRule levels (ifStmt levels (stmt levels))
  | forInit : GrammarRule levels (forInit levels)
  | exprBefore (follower : TokenKind) : GrammarRule levels (exprBefore levels follower)
  | forStmt : GrammarRule levels (forStmt levels (stmt levels))
  | stmtBody : GrammarRule levels (stmtBody levels (stmt levels))
  | stmt : GrammarRule levels (stmt levels)
  | fieldLine : GrammarRule levels (fieldLine levels)
  | fieldBlock : GrammarRule levels (fieldBlock levels)
  | structAhead : GrammarRule levels structAhead
  | structDecl : GrammarRule levels (structDecl levels)
  | param : GrammarRule levels (param levels)
  | params : GrammarRule levels (params levels)
  | functionRest (start : Span) (decl : FuncDecl) : GrammarRule levels (functionRest levels start decl)
  | functionOrVars : GrammarRule levels (functionOrVars levels)
  | typedefTarget : GrammarRule levels (typedefTarget levels)
  | typedefDecl : GrammarRule levels (typedefDecl levels)
  | enumItem : GrammarRule levels (enumItem levels)
  | enumDecl : GrammarRule levels (enumDecl levels)
  | enumAhead : GrammarRule levels enumAhead
  | otherDecl : GrammarRule levels (otherDecl levels)
  | topLevel : GrammarRule levels (topLevel levels)
  | skipDecl : GrammarRule levels skipDecl
  | decls : GrammarRule levels (decls levels)

theorem GrammarRule.composed (given : GrammarRule levels rule) :
    ∃ (γ : Type) (view : α → γ), Composed true levels view rule := by
  obtain ⟨binaries, unaries, lists⟩ := @exprs_composed true levels
  have types := @typeExpr_composed true levels
  have stmts := @stmt_onward true levels
  cases given with
  | qualifiers => exact ⟨_, _, qualifiers_composed⟩
  | typeArgs => exact ⟨_, _, typeArgs_composed types⟩
  | applied name => exact ⟨_, _, applied_composed types rfl⟩
  | baseType => exact ⟨_, _, (baseType_onward types).composed⟩
  | stars start type => exact ⟨_, _, stars_composed rfl⟩
  | typeExpr => exact ⟨_, _, types⟩
  | countStars => exact ⟨_, _, countStars_composed⟩
  | nextType type => exact ⟨_, _, nextType_composed rfl⟩
  | typeParams => exact ⟨_, _, typeParams_composed⟩
  | isTypeLike type => exact ⟨_, _, isTypeLike_composed rfl⟩
  | operators least first => exact ⟨_, _, operators_composed binaries rfl⟩
  | callArgs callee types => exact ⟨_, _, (callArgs_onward binaries rfl rfl).composed⟩
  | callTypeArgs => exact ⟨_, _, callTypeArgs_composed types⟩
  | primary => exact ⟨_, _, primary_composed binaries types⟩
  | trailers first => exact ⟨_, _, trailers_composed binaries rfl⟩
  | parenType => exact ⟨_, _, parenType_composed types⟩
  | sizeof => exact ⟨_, _, sizeof_composed unaries types⟩
  | castOperand => exact ⟨_, _, castOperand_composed unaries lists⟩
  | unaryBody => exact ⟨_, _, unaryBody_composed binaries unaries lists types⟩
  | initListBody => exact ⟨_, _, initListBody_composed (binaries _) lists⟩
  | binary least => exact ⟨_, _, binaries least⟩
  | unary => exact ⟨_, _, unaries⟩
  | initList => exact ⟨_, _, lists⟩
  | expr => exact ⟨_, _, expr_composed levels⟩
  | value => exact ⟨_, _, value_composed levels⟩
  | initializer => exact ⟨_, _, initializer_composed levels⟩
  | dimensions => exact ⟨_, _, dimensions_composed levels⟩
  | storage => exact ⟨_, _, storage_composed⟩
  | declarator type name => exact ⟨_, _, declarator_composed levels rfl rfl⟩
  | declarators type name => exact ⟨_, _, declarators_composed levels rfl rfl⟩
  | localVars => exact ⟨_, _, (localVars_onward levels).composed⟩
  | typedName => exact ⟨_, _, typedName_composed levels⟩
  | atLocalVars => exact ⟨_, _, atLocalVars_composed levels⟩
  | condition owner => exact ⟨_, _, condition_composed levels owner⟩
  | skipStmt => exact ⟨_, _, skipStmt_onward.composed⟩
  | block => exact ⟨_, _, (block_onward stmts).composed⟩
  | ifStmt => exact ⟨_, _, (ifStmt_onward stmts.composed).composed⟩
  | forInit => exact ⟨_, _, forInit_composed levels⟩
  | exprBefore follower => exact ⟨_, _, exprBefore_composed levels follower⟩
  | forStmt => exact ⟨_, _, (forStmt_onward stmts.composed).composed⟩
  | stmtBody => exact ⟨_, _, (stmtBody_onward stmts).composed⟩
  | stmt => exact ⟨_, _, stmts.composed⟩
  | fieldLine => exact ⟨_, _, (fieldLine_onward levels).composed⟩
  | fieldBlock => exact ⟨_, _, fieldBlock_composed levels⟩
  | structAhead => exact ⟨_, _, structAhead_composed⟩
  | structDecl => exact ⟨_, _, (structDecl_onward levels).composed⟩
  | param => exact ⟨_, _, param_composed levels⟩
  | params => exact ⟨_, _, params_composed levels⟩
  | functionRest start decl => exact ⟨_, _, functionRest_composed levels rfl⟩
  | functionOrVars => exact ⟨_, _, (functionOrVars_onward levels).composed⟩
  | typedefTarget => exact ⟨_, _, typedefTarget_composed levels⟩
  | typedefDecl => exact ⟨_, _, (typedefDecl_onward levels).composed⟩
  | enumItem => exact ⟨_, _, enumItem_composed levels⟩
  | enumDecl => exact ⟨_, _, (enumDecl_onward levels).composed⟩
  | enumAhead => exact ⟨_, _, enumAhead_composed⟩
  | otherDecl => exact ⟨_, _, (otherDecl_onward levels).composed⟩
  | topLevel => exact ⟨_, _, (topLevel_onward levels).composed⟩
  | skipDecl => exact ⟨_, _, skipDecl_composed⟩
  | decls => exact ⟨_, _, decls_composed levels⟩

/-- The rules that are looked at ahead: whether a struct is declared, and whether a local variable is. -/
inductive LookedAt (levels : Nat) : Parse Bool → Prop where
  | structDecl : LookedAt levels structAhead
  | localVars : LookedAt levels (typedName levels)

/-- The rules that are tried: the type in parentheses of a size or a cast, and the type arguments of a call. -/
inductive Tried (levels : Nat) : {α : Type} → Parse α → Prop where
  | parenType : Tried levels (parenType (typeExpr levels))
  | callTypeArgs : Tried levels (callTypeArgs (typeExpr levels))

/-- What a trial does to a state. It ends with an answer inside tokens that are closed. At most the place moves, and not
even that for some answers, unless the source turns out to nest too deep. -/
structure Traceless (levels : Nat) (trial : Parse α) (undone : α → Prop) (state : ParseState) : Prop where
  ends : ∀ tokens : List Token, (∀ last ∈ tokens.getLast?, last.kind = .endOfFile) → state.place.In tokens →
    Roomy levels state → ∃ answer after, trial state = .ok answer after
  silent : Leaves (Silent state) (trial state)
  same : ∀ answer after, trial state = .ok answer after → undone answer → after.tooDeep = state.tooDeep → after = state

theorem Accepting.ends (accepting : Accepting rule) (composed : Composed names levels view rule) {tokens : List Token}
    (closed : ∀ last ∈ tokens.getLast?, last.kind = .endOfFile) (inside : state.place.In tokens)
    (roomy : Roomy levels state) : ∃ answer after, rule state = .ok answer after := by
  cases result : rule state with
  | ok answer after => exact ⟨answer, after, rfl⟩
  | error stop after =>
    cases (composed.safely closed inside roomy).rejected result
    exact absurd result (@accepting state after)

theorem lookahead_accepting {rule : Parse Bool} : Accepting (lookahead rule) := by
  intro state after stopped
  unfold lookahead at stopped
  split at stopped
  · cases stopped
  · cases stopped
  next other _ =>
    cases stopped
    exact other rfl

theorem attempt_accepting : Accepting (attempt rule) := by
  intro state after stopped
  unfold attempt at stopped
  split at stopped
  · cases stopped
  · cases stopped
  next other _ =>
    cases stopped
    exact other rfl

theorem LookedAt.traceless {rule : Parse Bool} (given : LookedAt levels rule) (state : ParseState) :
    Traceless levels (lookahead rule) (fun _ => True) state := by
  have composed : Composed false levels id rule := by
    cases given with
    | structDecl => exact structAhead_composed
    | localVars => exact typedName_composed levels
  obtain ⟨silent, same⟩ := lookahead_silent composed state
  exact ⟨fun tokens => lookahead_accepting.ends composed.lookahead, silent, fun answer after ended _ =>
    same answer after ended⟩

theorem Tried.traceless (given : Tried levels rule) (state : ParseState) :
    Traceless levels (attempt rule) (· = none) state := by
  obtain ⟨γ, view, composed⟩ : ∃ (γ : Type) (view : α → γ), Composed false levels view rule := by
    cases given with
    | parenType => exact ⟨_, _, parenType_composed (typeExpr_composed levels)⟩
    | callTypeArgs => exact ⟨_, _, callTypeArgs_composed (typeExpr_composed levels)⟩
  obtain ⟨silent, same⟩ := attempt_silent composed state
  refine ⟨fun tokens => attempt_accepting.ends composed.attempt, silent, ?_⟩
  rintro _ after ended rfl
  exact same after ended

end Parse

open Parse in
/-- Trials leave no trace, every rule puts the depth and the type parameters back and goes no deeper than the limit, and
too deep a source is reported once at most. -/
theorem parse_keeps_frame :
    (∀ {levels : Nat} {rule : Parse Bool}, LookedAt levels rule → ∀ state,
      Traceless levels (lookahead rule) (fun _ => True) state) ∧
    (∀ {levels : Nat} {α : Type} {rule : Parse α}, Tried levels rule → ∀ state,
      Traceless levels (attempt rule) (· = none) state) ∧
    (∀ {levels : Nat} {α : Type} {rule : Parse α}, GrammarRule levels rule → ∀ state,
      Leaves (fun after => after.depth = state.depth ∧ after.typeParams = state.typeParams) (rule state) ∧
        (state.depth ≤ state.settings.maxNesting → Balanced rule state)) ∧
    ∀ (settings : ParseSettings) (file : UInt32) (tokens : List Token),
      Balanced (decls (settings.maxNesting + 1)) (.start settings file tokens) ∧
        (parseTokens settings file tokens).reports.countP (·.code = .tooDeep) ≤ 1 := by
  refine ⟨fun given => given.traceless, fun given => given.traceless, fun given state => ?_, fun settings file tokens => ?_⟩
  · obtain ⟨_, _, composed⟩ := given.composed
    exact ⟨composed.restored state, composed.balanced⟩
  · exact ⟨(decls_composed _).balanced (Nat.zero_le _), parseTokens_depthReports settings file tokens⟩

open Parse in
/-- A comparison is tried as the type arguments of a call, and given back. -/
theorem comparison_given_back :
    let less : List Token := [{ kind := .less, span := {}, text := "<" }, { kind := .identifier, span := {}, text := "b" }]
    let state := ParseState.start { maxNesting := 4 } 0 less
    attempt (callTypeArgs (typeExpr 5)) state = .ok none state := by
  intro less state
  obtain ⟨after, ended, same⟩ : ∃ after, attempt (callTypeArgs (typeExpr 5)) state = .ok none after ∧
      after.tooDeep = state.tooDeep := ⟨_, rfl, rfl⟩
  rw [ended, (parse_keeps_frame.2.1 .callTypeArgs state).same none after ended rfl same]

end GenericC
