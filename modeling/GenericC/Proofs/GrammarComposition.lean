import GenericC.Proofs.BareTrees
import GenericC.Proofs.RuleComposition

/-! Every rule of the grammar is composed of the steps of a parse, and every round of its loops takes a token unless it
is the last. The trees that the rules build are the same but for places, whatever the places of the tokens. -/

namespace GenericC.Parse

variable {names : Bool} {room : Nat}

theorem qualify_bare (words : List Text) {type type' : TypeExpr} (same : type.bare = type'.bare) :
    (qualify words type).bare = (qualify words type').bare := by
  unfold qualify
  dsimp only
  split
  · exact same
  · cases type <;> cases type' <;> simp_all [TypeExpr.bare]

theorem qualifiers_composed : Composed names room id qualifiers :=
  (Onward.words fun kind qualifier => by rintro rfl; cases qualifier).composed

theorem typeArgs_composed {type : Parse TypeExpr} (inner : Composed names room TypeExpr.bare type) :
    Composed names room (List.map TypeExpr.bare) (typeArgs type) := by
  refine .token (.expect rfl) fun _ _ _ => inner.separated.bind fun args args' same => .exactly .closeAngle fun closed => ?_
  split
  · exact .pure same
  · exact .token .peek fun _ _ _ => .rejectHere rfl

theorem applied_composed {type : Parse TypeExpr} (inner : Composed names room TypeExpr.bare type) {name name' : Token}
    (same : name.content = name'.content) : Paired names room TypeExpr.bare (applied type name) (applied type name') := by
  refine (typeArgs_composed inner).bind fun args args' sameArgs => .anywhere .spanFrom fun _ _ => .pure ?_
  rw [TypeExpr.bare, TypeExpr.bare, TypeExpr.bareAll_eq_map, TypeExpr.bareAll_eq_map, sameArgs,
    show name.text = name'.text from congrArg Prod.snd same]

theorem baseType_onward {type : Parse TypeExpr} (inner : Composed names room TypeExpr.bare type) :
    TakesOne names room Any TypeExpr.bare (baseType type) := by
  refine .peek fun token _ _ => ?_
  dsimp only
  split
  next builtin =>
    have words : TakesOne names room (fun token => token.kind.isTypeKeyword = true) id
        (whileAt TokenKind.isTypeKeyword do return (← advance).text) :=
      .words fun kind builtin => by rintro rfl; cases builtin
    exact .first (words.within fun _ same => same.2 ▸ builtin) fun words _ (same : words = _) =>
      .anywhere .spanFrom fun _ _ => .pure (by subst same; rfl)
  next =>
    split
    next tag =>
      have more : token.kind ≠ .endOfFile := by
        intro last
        rw [last] at tag
        cases tag
      refine .take rfl more fun tag _ _ => .token .expectName fun name _ _ => .exactly .isAt fun less => ?_
      split
      · exact applied_composed inner rfl
      · exact .pure rfl
    next =>
      split
      next kind =>
        refine .take kind nofun fun name _ _ => .exactly .isAt fun less => ?_
        split
        · exact applied_composed inner rfl
        · exact .pure rfl
      · exact .rejectHere rfl

theorem stars_composed {start start' : Span} {type type' : TypeExpr} (same : type.bare = type'.bare) :
    Paired names room TypeExpr.bare (stars start type) (stars start' type') :=
  .repeated TypeExpr.bare same fun type type' same => .eat (by nofun) (qualifiers_composed.exactly fun _ =>
    .anywhere .spanFrom fun _ _ => .again (by rw [TypeExpr.bare, TypeExpr.bare, same])) (.done same)

theorem typeExpr_onward (levels : Nat) : TakesOne names levels Any TypeExpr.bare (typeExpr levels) := by
  induction levels with
  | zero => exact .exhausted
  | succ levels ih =>
    exact .nested (.behind .peek fun _ _ _ => .exactly qualifiers_composed fun before =>
      .first (baseType_onward ih.composed) fun _ _ same => qualifiers_composed.exactly fun after =>
        stars_composed (qualify_bare (before ++ after) same))

theorem typeExpr_composed (levels : Nat) : Composed names levels TypeExpr.bare (typeExpr levels) :=
  (typeExpr_onward levels).composed

theorem countStars_composed : Composed names room id countStars := by
  refine .bind (.whileKind (.advance (fun _ here => here ▸ nofun) fun _ _ _ => qualifiers_composed)) fun found found' same => .pure ?_
  rw [List.map_id_fun] at same
  exact congrArg List.length same

theorem nextType_composed {type type' : TypeExpr} (same : type.bare = type'.bare) :
    Paired names room TypeExpr.bare (nextType type) (nextType type') := by
  refine countStars_composed.exactly fun count => .pure ?_
  rw [TypeExpr.bare_pointers, TypeExpr.bare_pointers, ← TypeExpr.base_bare, ← TypeExpr.base_bare, same]

theorem typeParams_composed : Composed names room (List.map TypeParam.bare) typeParams := by
  have repeats {params params' : List TypeParam} (same : params.map TypeParam.bare = params'.map TypeParam.bare)
      (name : Text) : (params.filter (·.name = name)).map TypeParam.bare = (params'.filter (·.name = name)).map TypeParam.bare := by
    have filtered := congrArg (List.filter (·.name = name)) same
    rwa [List.filter_map, List.filter_map] at filtered
  refine .token .advance fun bracket _ _ => .token .peek fun token _ _ => ?_
  dsimp only
  split
  -- The rest of the rule stands behind both branches.
  on_goal 1 =>
    refine .exactly (.report rfl rfl rfl) fun _ => .token .advance fun _ _ _ => .exactly .giveUp fun _ => ?_
  all_goals
    refine .through (List.map TypeParam.bare) (.repeated (List.map TypeParam.bare) rfl fun params params' same => ?_)
      fun params params' same => .exactly .closeAngle fun closed => ?_
    · refine .behind .expectName fun name span leading => .exactly (.forEach (repeats same _) fun _ _ _ =>
        .exactly (.report rfl rfl rfl) fun _ => .pure rfl) fun _ => ?_
      have longer : (params ++ [TypeParam.mk name.text name.span]).map TypeParam.bare =
          (params' ++ [TypeParam.mk name.text span]).map TypeParam.bare := by
        rw [List.map_append, List.map_append, same]
        rfl
      exact .more longer longer
    · split
      · exact .pure same
      · exact .token .peek fun _ _ _ => .rejectHere rfl

theorem isTypeLike_composed {type type' : TypeExpr} (same : type.bare = type'.bare) :
    Paired names room id (isTypeLike type) (isTypeLike type') := by
  cases type with
  | absent | pointer elem loc | applied name args loc => cases type' <;> first | exact .pure rfl | cases same
  | named name loc =>
    cases type' with
    | named name' loc' =>
      cases same
      unfold isTypeLike
      dsimp only
      split
      · exact .pure rfl
      · split
        · split
          · exact .pure rfl
          · exact .isTypeName
        · exact .isTypeName
    | absent | pointer elem loc | applied name args loc => cases same

section
variable {operand : Nat → Parse Expr} {type : Parse TypeExpr}

private theorem binding_ne {kind : TokenKind} {binding : Binding} (found : Binding.of? kind = some binding) :
    kind ≠ .endOfFile := by
  rintro rfl
  cases found

theorem operators_composed (inner : ∀ least, Composed names room Expr.bare (operand least)) {least : Nat}
    {first first' : Expr} (same : first.bare = first'.bare) :
    Paired names room Expr.bare (operators operand least first) (operators operand least first') := by
  refine .repeated Expr.bare same fun left left' same => .peek fun token _ _ => ?_
  dsimp only
  split
  · exact .done same
  next binding found =>
    split
    · exact .done same
    · refine .take rfl (binding_ne found) fun _ _ _ => ?_
      split
      · refine (inner _).bind fun _ _ yes => .token (.expect rfl) fun _ _ _ => (inner _).bind fun _ _ no => .again ?_
        rw [Expr.bare, Expr.bare, same, yes, no]
      · refine (inner _).bind fun _ _ right => .again ?_
        rw [Expr.bare, Expr.bare, same, right]

theorem callArgs_onward (inner : ∀ least, Composed names room Expr.bare (operand least)) {callee callee' : Expr}
    {types types' : List TypeExpr} (same : callee.bare = callee'.bare)
    (sameTypes : types.map TypeExpr.bare = types'.map TypeExpr.bare) :
    Onward names room (·.kind = .leftParen) Expr.bare (callArgs operand callee types) (callArgs operand callee' types')
      fun _ => True := by
  refine .advance (fun _ here => here ▸ nofun) fun bracket _ _ => .exactly .isAt fun empty =>
    .either (List.map Expr.bare) (.pure rfl) (.separated (inner _)) fun args args' sameArgs => .exactly .eat fun closed => ?_
  split
  · refine .anywhere .spanFrom fun _ _ => .pure ?_
    rw [Expr.bare, Expr.bare, same, TypeExpr.bareAll_eq_map, TypeExpr.bareAll_eq_map, sameTypes, Expr.bareAll_eq_map,
      Expr.bareAll_eq_map, sameArgs]
  · exact .token .peek fun _ _ _ => .reject rfl

theorem callTypeArgs_composed (inner : Composed names room TypeExpr.bare type) :
    Composed names room (List.map TypeExpr.bare) (callTypeArgs type) :=
  (typeArgs_composed inner).bind fun _ _ same => .exactly .isAt fun _ => .stopIf .giveUp
    (.exactly (.forEach same fun _ _ same => (isTypeLike_composed same).exactly fun _ => .stopIf .giveUp (.pure rfl))
      fun _ => .pure same)

theorem primary_composed (inner : ∀ least, Composed names room Expr.bare (operand least))
    (types : Composed names room TypeExpr.bare type) : Composed names room Expr.bare (primary operand type) := by
  refine .token .peek fun token _ _ => ?_
  dsimp only
  split
  · refine .token .advance fun _ _ _ => .exactly .isAt fun less => ?_
    split
    · refine .optional (.attempt (callTypeArgs_composed types)) (.pure rfl) fun types types' same => ?_
      dsimp only
      exact (callArgs_onward inner (by rfl) same).composed
    · exact .pure rfl
  · exact .token .advance fun _ _ _ => .pure rfl
  · exact .token .advance fun _ _ _ => .pure rfl
  · exact .token .advance fun _ _ _ => .pure rfl
  · exact .exactly (Onward.words (by simp)).composed fun parts => .anywhere .spanFrom fun _ _ => .pure rfl
  · refine .token .advance fun _ _ _ => (inner _).bind fun _ _ same => .exactly .eat fun closed => ?_
    split
    · refine .anywhere .spanFrom fun _ _ => .pure ?_
      rw [Expr.bare, Expr.bare, same]
    · exact .reject rfl
  · exact .rejectHere rfl

theorem trailers_composed (inner : ∀ least, Composed names room Expr.bare (operand least)) {first first' : Expr}
    (same : first.bare = first'.bare) :
    Paired names room Expr.bare (trailers operand first) (trailers operand first') := by
  refine .repeated Expr.bare same fun object object' same => .peek fun token _ _ => ?_
  dsimp only
  have member (arrow : Bool) {name : Token} {span span' : Span} :
      Expr.bare (.member object name.text arrow span) = Expr.bare (.member object' name.text arrow span') := by
    rw [Expr.bare, Expr.bare, same]
  have step (op : TokenKind) {span span' : Span} : Expr.bare (.step op object span) = Expr.bare (.step op object' span') := by
    rw [Expr.bare, Expr.bare, same]
  split
  next kind =>
    exact .first ((callArgs_onward inner same rfl).within fun _ same => same.2 ▸ kind) fun _ _ call => .again call
  next kind =>
    refine .take kind nofun fun _ _ _ => (inner _).bind fun _ _ position => .exactly .eat fun closed => ?_
    split
    · refine .anywhere .spanFrom fun _ _ => .again ?_
      rw [Expr.bare, Expr.bare, same, position]
    · exact .rejectHere rfl
  next kind => exact .take kind nofun fun _ _ _ => .token .expectName fun _ _ _ => .again (member _)
  next kind => exact .take kind nofun fun _ _ _ => .token .expectName fun _ _ _ => .again (member _)
  next kind => exact .take kind nofun fun _ _ _ => .again (step _)
  next kind => exact .take kind nofun fun _ _ _ => .again (step _)
  · exact .done same

theorem parenType_composed (inner : Composed names room TypeExpr.bare type) :
    Composed names room TypeExpr.bare (parenType type) := by
  refine .token .advance fun _ _ _ => .exactly .atTypeStart fun starts => .stopIf .giveUp
    (inner.bind fun _ _ same => .exactly .eat fun closed => ?_)
  split
  · exact .pure same
  · exact .giveUp

theorem sizeof_composed {unary : Parse Expr} (unaries : Composed names room Expr.bare unary)
    (inner : Composed names room TypeExpr.bare type) : Composed names room Expr.bare (sizeof unary type) := by
  refine .token .advance fun word _ _ => .exactly .isAt fun paren =>
    .tried (.attempt (parenType_composed inner)) ?_ fun type type' same => ?_
  · refine unaries.bind fun _ _ same => .pure ?_
    rw [Expr.bare, Expr.bare, same]
  · refine .anywhere .spanFrom fun _ _ => .pure ?_
    rw [Expr.bare, Expr.bare, same]

theorem castOperand_composed {unary initList : Parse Expr} (unaries : Composed names room Expr.bare unary)
    (lists : Composed names room Expr.bare initList) : Composed names room Expr.bare (castOperand unary initList) := by
  refine .exactly .isAt fun brace => ?_
  split
  · exact lists
  · exact unaries

theorem unaryBody_composed {unary initList : Parse Expr} (inner : ∀ least, Composed names room Expr.bare (operand least))
    (unaries : Composed names room Expr.bare unary) (lists : Composed names room Expr.bare initList)
    (types : Composed names room TypeExpr.bare type) :
    Composed names room Expr.bare (unaryBody operand unary initList type) := by
  refine .token .peek fun token _ _ => ?_
  dsimp only
  split
  · refine .token .advance fun _ _ _ => unaries.bind fun _ _ same => .pure ?_
    rw [Expr.bare, Expr.bare, same]
  · split
    · exact sizeof_composed unaries types
    · refine .tried (.attempt (parenType_composed types)) ?_ fun type type' same => ?_
      · exact (primary_composed inner types).bind fun _ _ same => trailers_composed inner same
      · refine (castOperand_composed unaries lists).bind fun _ _ operand => .pure ?_
        rw [Expr.bare, Expr.bare, same, operand]

theorem initListBody_composed {value initList : Parse Expr} (values : Composed names room Expr.bare value)
    (lists : Composed names room Expr.bare initList) : Composed names room Expr.bare (initListBody value initList) := by
  refine .token .advance fun brace _ _ => .through (List.map Expr.bare)
    (.repeated (List.map Expr.bare) rfl fun elems elems' same => ?_) fun elems elems' same => .exactly .eat fun closed => ?_
  · have ended : elems.reverse.map Expr.bare = elems'.reverse.map Expr.bare := by
      rw [List.map_reverse, List.map_reverse, same]
    refine .isAt (.done ended) (.exactly .isAt fun inner => ?_)
    split
    on_goal 1 => refine .second lists fun elem elem' shown => ?_
    on_goal 2 => refine .second values fun elem elem' shown => ?_
    all_goals
      exact .more (by rw [List.map_cons, List.map_cons, shown, same])
        (by rw [List.map_reverse, List.map_reverse, List.map_cons, List.map_cons, shown, same])
  · split
    · refine .anywhere .spanFrom fun _ _ => .pure ?_
      rw [Expr.bare, Expr.bare, Expr.bareAll_eq_map, Expr.bareAll_eq_map, same]
    · exact .reject rfl

end

theorem exprs_composed (levels : Nat) :
    (∀ least, Composed names levels Expr.bare (binary levels least)) ∧ Composed names levels Expr.bare (unary levels) ∧
      Composed names levels Expr.bare (initList levels) := by
  induction levels with
  | zero => exact ⟨fun _ => .exhausted, .exhausted, .exhausted⟩
  | succ levels ih =>
    obtain ⟨operand, unary, initList⟩ := ih
    refine ⟨fun least => ?_, ?_, ?_⟩
    · exact .nested (unary.bind fun _ _ same => operators_composed operand same)
    · exact .nested (unaryBody_composed operand unary initList (typeExpr_composed levels))
    · exact .nested (initListBody_composed (operand _) initList)

theorem expr_composed (levels : Nat) : Composed names levels Expr.bare (expr levels) := (exprs_composed levels).1 _

theorem value_composed (levels : Nat) : Composed names levels Expr.bare (value levels) := (exprs_composed levels).1 _

theorem initializer_composed (levels : Nat) : Composed names levels Expr.bare (initializer levels) := by
  refine .exactly .isAt fun brace => ?_
  split
  · exact (exprs_composed levels).2.2
  · exact value_composed levels

theorem dimensions_composed (levels : Nat) : Composed names levels Dimensions.bare (dimensions levels) := by
  refine .whileKind (.advance (fun _ here => here ▸ nofun) fun bracket _ _ => .exactly .eat fun empty => ?_)
  split
  · exact .pure rfl
  · refine (expr_composed levels).bind fun _ _ same => .exactly .eat fun closed => ?_
    split
    · exact .pure (congrArg some same)
    · exact .reject rfl

theorem storage_composed : Composed names room id storage := by
  refine .repeated id rfl fun found _ (same : found = _) => .peek fun token _ _ => ?_
  subst same
  dsimp only
  split
  next kind => exact .take kind nofun fun _ _ _ => .again rfl
  next kind => exact .take kind nofun fun _ _ _ => .again rfl
  next kind => exact .take kind nofun fun _ _ _ => .again rfl
  · exact .done rfl

theorem declarator_composed (levels : Nat) {type type' : TypeExpr} (same : type.bare = type'.bare) {name name' : Token}
    (sameName : name.content = name'.content) :
    Paired names levels Declarator.bare (declarator levels type name) (declarator levels type' name') := by
  refine (dimensions_composed levels).bind fun dims dims' sameDims => .exactly .eat fun assigned =>
    .either (Option.map Expr.bare) ?_ (.pure rfl) fun init init' sameInit => .anywhere .spanFrom fun _ _ => .pure ?_
  · exact (initializer_composed levels).bind fun _ _ same => .pure (congrArg some same)
  · rw [Declarator.bare, Declarator.bare, same, sameDims, sameInit, show name.text = name'.text from congrArg Prod.snd sameName]

theorem declarators_composed (levels : Nat) {type type' : TypeExpr} (same : type.bare = type'.bare) {name name' : Token}
    (sameName : name.content = name'.content) :
    Paired names levels (List.map Declarator.bare) (declarators levels type name) (declarators levels type' name') := by
  refine .repeated (fun carried => (carried.1.bare, carried.2.1.content, carried.2.2.map Declarator.bare)) ?_
    fun carried carried' shown => ?_
  · rw [same, sameName]
  · obtain ⟨type, name, found⟩ := carried
    obtain ⟨type', name', found'⟩ := carried'
    obtain ⟨same, rest⟩ := Prod.mk.inj shown
    obtain ⟨sameName, sameFound⟩ := Prod.mk.inj rest
    refine .second (declarator_composed levels same sameName) fun item item' sameItem => ?_
    have longer : (item :: found).map Declarator.bare = (item' :: found').map Declarator.bare := by
      rw [List.map_cons, List.map_cons, sameItem, sameFound]
    refine .eat (by nofun) ((nextType_composed same).bind fun next next' sameNext => .bind .expectName fun name name' sameName => .again ?_)
      (.done (by rw [List.map_reverse, List.map_reverse, longer]))
    dsimp only
    rw [sameNext, sameName, longer]

theorem localVars_onward (levels : Nat) : TakesOne names levels Any VarDecl.bare (localVars levels) := by
  refine .behind .peek fun _ _ _ => .exactly storage_composed fun storage => .second (typeExpr_composed levels)
    fun type type' same => .token .expectName fun name _ _ => .bind (declarators_composed levels same rfl)
      fun vars vars' sameVars => .exactly .expectSemicolon fun _ => .anywhere .spanFrom fun _ _ => .pure ?_
  rw [VarDecl.bare, VarDecl.bare, sameVars]

theorem typedName_composed (levels : Nat) : Composed names levels id (typedName levels) := by
  refine (typeExpr_composed levels).bind fun type type' same => .exactly .isAt fun named => ?_
  have depth : type.pointerDepth = type'.pointerDepth := by
    rw [← type.pointerDepth_bare, ← type'.pointerDepth_bare, same]
  have base : type.base.bare = type'.base.bare := by
    rw [← type.base_bare, ← type'.base_bare, same]
  rw [depth]
  generalize type.base = found, type'.base = found' at base
  split
  · exact .pure rfl
  · -- What makes a name known does not depend on where the type is written, and the rest follows from that.
    cases found <;> cases found' <;> simp only [TypeExpr.bare, reduceCtorEq, TypeExpr.named.injEq, and_true] at base
    case' named.named =>
      subst base
      refine .exactly .isTypeName fun known => ?_
    case' absent.absent | applied.applied | pointer.pointer => refine .exactly (.pure rfl) fun known => ?_
    all_goals
      beta_reduce
      split
      · exact .pure rfl
      · split
        · exact .pure rfl
        · refine .token .peekPast fun token _ _ => ?_
          dsimp only
          split <;> exact .pure rfl

theorem atLocalVars_composed (levels : Nat) : Composed names levels id (atLocalVars levels) := by
  refine .token .peek fun token _ _ => ?_
  dsimp only
  split
  · exact .pure rfl
  · split
    · exact .lookahead (typedName_composed levels)
    · exact .atTypeStart

theorem condition_composed (levels : Nat) (owner : Text) : Composed names levels Expr.bare (condition levels owner) := by
  refine .token (.expect rfl) fun bracket _ _ => (expr_composed levels).bind fun _ _ same => .exactly .eat fun closed => ?_
  split
  · exact .pure same
  · exact .reject rfl

theorem skipStmt_onward :
    TakesOne names room (fun token => token.kind ≠ .endOfFile ∧ token.kind ≠ .rightBrace) id skipStmt := by
  refine .loop id rfl (fun depth _ (same : depth = _) => .peek fun token _ _ => ?_) (.peek fun token _ _ => ?_)
  · subst same
    dsimp only
    split
    · exact .done rfl
    next kind => exact .take kind nofun fun _ _ _ => .again rfl
    next kind =>
      split
      · exact .done rfl
      · exact .take kind nofun fun _ _ _ => .again rfl
    next kind =>
      refine .take kind nofun fun _ _ _ => ?_
      split
      · exact .done rfl
      · exact .again rfl
    next other _ _ _ => exact .take rfl other fun _ _ _ => .again rfl
  · dsimp only
    split
    next kind => exact .never (.done rfl) fun _ same => same.1.1 (same.2 ▸ kind)
    next kind => exact .take kind nofun fun _ _ _ => .again rfl
    next kind => exact .never (.done rfl) fun _ same => same.1.2 (same.2 ▸ kind)
    next kind => exact .take kind nofun fun _ _ _ => .done rfl
    next other _ _ _ => exact .take rfl other fun _ _ _ => .again rfl

theorem block_onward {stmt : Parse Stmt} (inner : TakesOne names room Any Stmt.bare stmt) :
    TakesOne names room Any Block.bare (block stmt) := by
  refine .token (.expect (by nofun) rfl) fun brace _ _ => .through (List.map Stmt.bare)
    (.repeated (List.map Stmt.bare) rfl fun stmts stmts' same => ?_) fun stmts stmts' same =>
      .anywhere .spanFrom fun _ _ => .pure (by rw [Block.bare, Block.bare, same])
  have ended : stmts.reverse.map Stmt.bare = stmts'.reverse.map Stmt.bare := by
    rw [List.map_reverse, List.map_reverse, same]
  refine .isAt (.behind .advance fun _ _ _ => .done ended) (.read (fun alike => by rw [alike.tooDeep]) fun mirror => ?_)
  rw [mirror.tooDeep]
  refine .stopIf .giveUp (.stopAt (.reject rfl) (.recover inner.anywhere (fun _ _ shown => .again
    (by rw [List.map_cons, List.map_cons, shown, same])) (.read (fun alike => by rw [alike.tooDeep]) fun mirror => ?_)))
  -- A statement that is broken at its first token is skipped, since that token does not end the block.
  rw [mirror.tooDeep]
  refine .stopIf .giveUp (.first (skipStmt_onward.within ?_) fun _ _ _ => .again same)
  rintro token (here | ⟨double, -, rfl⟩)
  · exact ⟨here.2, here.1.2⟩
  · have half : double.secondHalf.kind = .greater := rfl
    rw [half]
    decide

theorem exprBefore_composed (levels : Nat) (follower : TokenKind) :
    Composed names levels (Option.map Expr.bare) (exprBefore levels follower) := by
  refine .exactly .isAt fun missing => ?_
  split
  · exact .pure rfl
  · exact (expr_composed levels).bind fun _ _ same => .pure (congrArg some same)

theorem forInit_composed (levels : Nat) : Composed names levels ForInit.bare (forInit levels) := by
  refine .exactly .eat fun empty => ?_
  split
  · exact .pure rfl
  · refine .exactly (atLocalVars_composed levels) fun declares => ?_
    split
    · exact (localVars_onward levels).composed.bind fun _ _ same => .pure (by rw [ForInit.bare, ForInit.bare, same])
    · refine .token .peek fun _ _ _ => (expr_composed levels).bind fun _ _ same => .exactly .expectSemicolon fun _ =>
        .anywhere .spanFrom fun _ _ => .pure ?_
      rw [ForInit.bare, ForInit.bare, same]

section
variable {levels : Nat} {stmt : Parse Stmt}

theorem ifStmt_onward (inner : Composed names levels Stmt.bare stmt) :
    TakesOne names levels (·.kind = .kwIf) Stmt.bare (ifStmt levels stmt) := by
  refine .advance (fun _ here => here ▸ nofun) fun word _ _ => (condition_composed levels _).bind fun _ _ test => inner.bind fun _ _ yes =>
    .exactly .eat fun more => ?_
  split
  · refine inner.bind fun _ _ no => .anywhere .spanFrom fun _ _ => .pure ?_
    rw [Stmt.bare, Stmt.bare, test, yes, no]
  · refine .anywhere .spanFrom fun _ _ => .pure ?_
    rw [Stmt.bare, Stmt.bare, test, yes]

theorem forStmt_onward (inner : Composed names levels Stmt.bare stmt) :
    TakesOne names levels (·.kind = .kwFor) Stmt.bare (forStmt levels stmt) := by
  refine .advance (fun _ here => here ▸ nofun) fun word _ _ => .token (.expect rfl) fun bracket _ _ => (forInit_composed levels).bind fun _ _ init =>
    (exprBefore_composed levels _).bind fun _ _ test => .exactly .expectSemicolon fun _ =>
      (exprBefore_composed levels _).bind fun _ _ post => .exactly .eat fun closed => .stopIf (.reject rfl)
        (inner.bind fun _ _ body => .anywhere .spanFrom fun _ _ => .pure ?_)
  rw [Stmt.bare, Stmt.bare, init, test, post, body]

theorem stmtBody_onward (inner : TakesOne names levels Any Stmt.bare stmt) :
    TakesOne names levels Any Stmt.bare (stmtBody levels stmt) := by
  refine .peek fun token _ _ => ?_
  dsimp only
  split
  · exact .first (block_onward inner).anywhere fun _ _ same => .pure (by rw [← Block.toStmt_bare, ← Block.toStmt_bare, same])
  next kind => exact .take kind nofun fun _ _ _ => .pure rfl
  next kind =>
    refine .take kind nofun fun _ _ _ => (exprBefore_composed levels _).bind fun _ _ same => .exactly .expectSemicolon fun _ =>
      .anywhere .spanFrom fun _ _ => .pure ?_
    rw [Stmt.bare, Stmt.bare, same]
  next kind => exact .take kind nofun fun _ _ _ => .exactly .expectSemicolon fun _ => .anywhere .spanFrom fun _ _ => .pure rfl
  next kind => exact .take kind nofun fun _ _ _ => .exactly .expectSemicolon fun _ => .anywhere .spanFrom fun _ _ => .pure rfl
  next kind => exact (ifStmt_onward inner.composed).within fun _ same => same.2 ▸ kind
  next kind =>
    refine .take kind nofun fun _ _ _ => (condition_composed levels _).bind fun _ _ test => inner.composed.bind fun _ _ body =>
      .anywhere .spanFrom fun _ _ => .pure ?_
    rw [Stmt.bare, Stmt.bare, test, body]
  next kind =>
    refine .take kind nofun fun _ _ _ => inner.composed.bind fun _ _ body => .token (.expect rfl) fun _ _ _ =>
      (condition_composed levels _).bind fun _ _ test => .exactly .expectSemicolon fun _ => .anywhere .spanFrom fun _ _ => .pure ?_
    rw [Stmt.bare, Stmt.bare, test, body]
  next kind => exact (forStmt_onward inner.composed).within fun _ same => same.2 ▸ kind
  · refine .exactly (atLocalVars_composed levels) fun declares => ?_
    split
    · exact .first (localVars_onward levels) fun _ _ same => .pure (by rw [Stmt.bare, Stmt.bare, same])
    · refine .second (expr_composed levels) fun _ _ same => .first .expectSemicolon fun _ _ _ =>
        .anywhere .spanFrom fun _ _ => .pure ?_
      rw [Stmt.bare, Stmt.bare, same]

end

theorem stmt_onward (levels : Nat) : TakesOne names levels Any Stmt.bare (stmt levels) := by
  induction levels with
  | zero => exact .exhausted
  | succ levels ih => exact .nested (stmtBody_onward ih)

theorem fieldLine_onward (levels : Nat) : TakesOne names levels Any (List.map Field.bare) (fieldLine levels) := by
  refine .behind .peek fun start _ _ => .second (typeExpr_composed levels) fun type type' same => .second
    (.repeated (fun carried => (carried.1.bare, carried.2.map Field.bare)) (by rw [same]) fun carried carried' shown => ?_)
    fun fields fields' sameFields => .first .expectSemicolon fun _ _ _ => .pure sameFields
  obtain ⟨type, found⟩ := carried
  obtain ⟨type', found'⟩ := carried'
  obtain ⟨same, sameFound⟩ := Prod.mk.inj shown
  refine .token .expectName fun name _ _ => (dimensions_composed levels).bind fun dims dims' sameDims =>
    .anywhere .spanFrom fun span span' => .exactly .eat fun more => ?_
  have longer : (Field.mk type name.text dims span :: found).map Field.bare =
      (Field.mk type' name.text dims' span' :: found').map Field.bare := by
    rw [List.map_cons, List.map_cons, sameFound, Field.bare, Field.bare, same, sameDims]
  split
  · exact (nextType_composed same).bind fun next next' sameNext => .again (by dsimp only; rw [sameNext, longer])
  · exact .done (by rw [List.map_reverse, List.map_reverse, longer])

theorem fieldBlock_composed (levels : Nat) : Composed names levels (List.map Field.bare) (fieldBlock levels) :=
  .token (.expect rfl) fun _ _ _ => .repeated (List.map Field.bare) rfl fun _ _ same =>
    .isAt (.behind .advance fun _ _ _ => .done same) (.stopAt (.reject rfl) (.first (fieldLine_onward levels).anywhere
      fun _ _ sameLine => .again (by rw [List.map_append, List.map_append, same, sameLine])))

theorem structAhead_composed : Composed names room id structAhead := by
  refine .token .advance fun _ _ _ => .exactly .isAt fun body => ?_
  split
  · exact .pure rfl
  · refine .exactly .eat fun named => ?_
    split
    · exact .pure rfl
    · refine .exactly .isAt fun generic => ?_
      split
      on_goal 1 => refine typeParams_composed.bind fun _ _ _ => ?_
      all_goals exact .exactly .isAt fun _ => .exactly .isAt fun _ => .pure rfl

theorem names_bare {params params' : List TypeParam} (same : params.map TypeParam.bare = params'.map TypeParam.bare) :
    params.map (·.name) = params'.map (·.name) := by
  have names := congrArg (List.map TypeParam.name) same
  rwa [List.map_map, List.map_map] at names

theorem structDecl_onward (levels : Nat) : TakesOne names levels Any StructDecl.bare (structDecl levels) := by
  refine .behind .advance fun word _ _ => .exactly .isAt fun named => .exactly .isAt fun anonymous => ?_
  dsimp only
  -- However the name and the parameters are read, the rest of the rule is the same.
  split
  on_goal 1 =>
    refine .behind .advance fun name _ _ => .through StructDecl.bare (.pure rfl) fun decl decl' same =>
      .exactly .isAt fun generic => ?_
  on_goal 2 => split
  on_goal 2 =>
    refine .through StructDecl.bare (.rejectHere rfl) fun decl decl' same => .exactly .isAt fun generic => ?_
  on_goal 3 => refine .through StructDecl.bare (.pure rfl) fun decl decl' same => .exactly .isAt fun generic => ?_
  all_goals
    split
    on_goal 1 =>
      refine .second typeParams_composed fun params params' sameParams => .through StructDecl.bare
        (.pure (by rw [decl.bare_typeParams, decl'.bare_typeParams, same, sameParams])) fun decl decl' same => ?_
    on_goal 2 => refine .through StructDecl.bare (.pure same) fun decl decl' same => ?_
    all_goals
      rw [names_bare (congrArg StructDecl.typeParams same)]
      refine .eat (by nofun) (.anywhere .spanFrom fun _ _ => .pure same) (.second (.withTypeParams (fieldBlock_composed levels))
        fun fields fields' sameFields => .first .expectSemicolon fun _ _ _ => .anywhere .spanFrom fun _ _ => .pure ?_)
      rw [decl.bare_fields, decl'.bare_fields, same, sameFields]

theorem param_composed (levels : Nat) : Composed names levels Param.bare (param levels) := by
  refine .token .peek fun start _ _ => (typeExpr_composed levels).bind fun type type' same => .exactly .isAt fun named => ?_
  dsimp only
  split
  on_goal 1 => refine .token .advance fun _ _ _ => .exactly (.pure rfl) fun name => ?_
  on_goal 2 => refine .exactly (.pure rfl) fun name => ?_
  all_goals
    refine (dimensions_composed levels).bind fun dims dims' sameDims => .anywhere .spanFrom fun _ _ => .pure ?_
    rw [Param.bare, Param.bare, same, sameDims]

theorem params_composed (levels : Nat) :
    Composed names levels (fun found => (found.1.map Param.bare, found.2)) (params levels) := by
  refine .token .advance fun bracket _ _ => .exactly .eat fun empty => ?_
  split
  · exact .pure rfl
  · refine .exactly .isAt fun void => .token .peekPast fun next _ _ => ?_
    dsimp only
    split
    · exact .token .advance fun _ _ _ => .token .advance fun _ _ _ => .pure rfl
    · refine .through (fun found => (found.1.map Param.bare, found.2))
        (.repeated (List.map Param.bare) rfl fun found found' same => .eat (by nofun) (.done ?_)
          (.second (param_composed levels) fun param param' sameParam => ?_)) fun found found' same => .exactly .eat fun closed => ?_
      · rw [List.map_reverse, List.map_reverse, same]
      · have longer : (param :: found).map Param.bare = (param' :: found').map Param.bare := by
          rw [List.map_cons, List.map_cons, sameParam, same]
        exact .more longer (by rw [List.map_reverse, List.map_reverse, longer])
      · split
        · exact .pure same
        · exact .token .peek fun _ _ _ => .reject rfl

theorem functionRest_composed (levels : Nat) {start start' : Span} {decl decl' : FuncDecl} (same : decl.bare = decl'.bare) :
    Paired names levels FuncDecl.bare (functionRest levels start decl) (functionRest levels start' decl') := by
  refine (params_composed levels).bind fun found found' sameParams => ?_
  obtain ⟨params, variadic⟩ := found
  obtain ⟨params', variadic'⟩ := found'
  obtain ⟨sameParams, rfl⟩ := Prod.mk.inj sameParams
  have sameHead : { decl with params, variadic }.bare = { decl' with params := params', variadic }.bare := by
    rw [decl.bare_params, decl'.bare_params, same, sameParams]
  refine .exactly .eat fun prototype => ?_
  split
  · exact .anywhere .spanFrom fun _ _ => .pure sameHead
  · refine .exactly .isAt fun given => ?_
    split
    on_goal 1 => refine .token .peek fun _ _ _ => .exactly (.rejectHere rfl) fun _ => ?_
    all_goals
      refine (block_onward (stmt_onward levels)).composed.bind fun body body' sameBody => .anywhere .spanFrom fun _ _ => .pure ?_
      rw [FuncDecl.bare_body { decl with params, variadic }, FuncDecl.bare_body { decl' with params := params', variadic },
        sameHead, sameBody]

theorem functionOrVars_onward (levels : Nat) : TakesOne names levels Any Decl.bare (functionOrVars levels) := by
  refine .behind .peek fun _ _ _ => .exactly storage_composed fun storage => .second (typeExpr_composed levels)
    fun type type' same => .token .expectName fun name _ _ => .exactly .isAt fun generic => ?_
  dsimp only
  split
  on_goal 1 =>
    refine typeParams_composed.bind fun params params' sameParams => .exactly .isAt fun called =>
      .stopIf (.rejectHere rfl) (.through (List.map TypeParam.bare) (.pure sameParams) fun params params' sameParams => ?_)
  on_goal 2 => refine .through (List.map TypeParam.bare) (.pure rfl) fun params params' sameParams => ?_
  all_goals
    refine .exactly .isAt fun function => ?_
    split
    · rw [names_bare sameParams]
      refine .bind (.withTypeParams (functionRest_composed levels ?_)) fun decl decl' same => .pure ?_
      · rw [FuncDecl.bare, FuncDecl.bare, same, sameParams]
      · rw [Decl.bare, Decl.bare, same]
    · refine .bind (declarators_composed levels same rfl) fun vars vars' sameVars => .exactly .expectSemicolon fun _ =>
        .anywhere .spanFrom fun _ _ => .pure ?_
      rw [Decl.bare, Decl.bare, VarDecl.bare, VarDecl.bare, sameVars]

theorem typedefTarget_composed (levels : Nat) : Composed names levels TypedefTarget.bare (typedefTarget levels) := by
  refine .token .peek fun token _ _ => .token .peekPast fun next _ _ => .token .peekPast fun further _ _ => ?_
  dsimp only
  split
  · refine .token .advance fun word _ _ => .exactly .isAt fun named => ?_
    dsimp only
    split
    on_goal 1 => refine .token .advance fun name _ _ => .through StructDecl.bare (.pure rfl) fun decl decl' same => ?_
    on_goal 2 => refine .through StructDecl.bare (.pure rfl) fun decl decl' same => ?_
    all_goals
      refine (fieldBlock_composed levels).bind fun fields fields' sameFields => .anywhere .spanFrom fun _ _ => .pure ?_
      rw [TypedefTarget.bare, TypedefTarget.bare, decl.bare_fields, decl'.bare_fields, same, sameFields]
  · exact (typeExpr_composed levels).bind fun _ _ same => .pure (by rw [TypedefTarget.bare, TypedefTarget.bare, same])

theorem typedefDecl_onward (levels : Nat) : TakesOne true levels Any TypedefDecl.bare (typedefDecl levels) := by
  refine .behind .advance fun word _ _ => .second (typedefTarget_composed levels) fun target target' same =>
    .token .expectName fun name _ _ => (dimensions_composed levels).bind fun dims dims' sameDims =>
      .exactly .expectSemicolon fun _ => .exactly (.declare _ rfl) fun _ => .anywhere .spanFrom fun _ _ => .pure ?_
  rw [TypedefDecl.bare, TypedefDecl.bare, same, sameDims]

theorem enumItem_composed (levels : Nat) : Composed names levels EnumItem.bare (enumItem levels) := by
  refine .token .expectName fun name _ _ => .exactly .eat fun given =>
    .either (Option.map Expr.bare) ?_ (.pure rfl) fun value value' same => .anywhere .spanFrom fun _ _ => .pure ?_
  · exact (value_composed levels).bind fun _ _ same => .pure (congrArg some same)
  · rw [EnumItem.bare, EnumItem.bare, same]

theorem enumDecl_onward (levels : Nat) : TakesOne names levels Any EnumDecl.bare (enumDecl levels) := by
  refine .behind .advance fun word _ _ => .exactly .isAt fun named => ?_
  dsimp only
  split
  on_goal 1 => refine .behind .advance fun _ _ _ => .exactly (.pure rfl) fun name => ?_
  on_goal 2 => refine .exactly (.pure rfl) fun name => ?_
  all_goals
    refine .behind .advance fun brace _ _ => .through (List.map EnumItem.bare)
      (.repeated (List.map EnumItem.bare) rfl fun items items' same => .isAt (.done ?_)
        (.second (enumItem_composed levels) fun item item' sameItem => ?_)) fun items items' same =>
      .exactly .eat fun closed => .stopIf (.reject rfl) (.first .expectSemicolon fun _ _ _ => .anywhere .spanFrom fun _ _ => .pure ?_)
    · rw [List.map_reverse, List.map_reverse, same]
    · have longer : (item :: items).map EnumItem.bare = (item' :: items').map EnumItem.bare := by
        rw [List.map_cons, List.map_cons, sameItem, same]
      exact .more longer (by rw [List.map_reverse, List.map_reverse, longer])
    · rw [EnumDecl.bare, EnumDecl.bare, same]

theorem enumAhead_composed : Composed names room id enumAhead :=
  .token .peekPast fun _ _ _ => .token .peekPast fun _ _ _ => .pure rfl

theorem otherDecl_onward (levels : Nat) : TakesOne names levels Any Decl.bare (otherDecl levels) := by
  refine .behind .peek fun token _ _ => .exactly .atTypeStart fun starts => ?_
  dsimp only
  split
  · exact functionOrVars_onward levels
  · exact .rejectHere rfl

theorem topLevel_onward (levels : Nat) : TakesOne true levels Any (Option.map Decl.bare) (topLevel levels) := by
  have struct : TakesOne true levels Any (Option.map Decl.bare) (do return some (.struct (← structDecl levels))) :=
    .first (structDecl_onward levels) fun _ _ same => .pure (congrArg (some ∘ Decl.struct) same)
  have other : TakesOne true levels Any (Option.map Decl.bare) (do return some (← otherDecl levels)) :=
    .first (otherDecl_onward levels) fun _ _ same => .pure (congrArg some same)
  refine .peek fun token _ _ => ?_
  dsimp only
  split
  next kind =>
    refine .take kind nofun fun _ _ _ => .pure ?_
    unfold Decl.ofLine
    split <;> rfl
  next kind => exact .take kind nofun fun _ _ _ => .pure rfl
  · exact .first (typedefDecl_onward levels).anywhere fun _ _ same => .pure (congrArg (some ∘ Decl.typedef) same)
  · refine .exactly (.lookahead structAhead_composed) fun declared => ?_
    split
    · exact struct
    · exact other
  · refine .exactly (.lookahead structAhead_composed) fun declared => ?_
    split
    · exact struct
    · exact other
  · refine .exactly enumAhead_composed fun declared => ?_
    split
    · exact .first (enumDecl_onward levels) fun _ _ same => .pure (congrArg (some ∘ Decl.enum) same)
    · exact other
  · exact other.anywhere

theorem skipDecl_composed : Composed names room id skipDecl := by
  refine .repeated id rfl fun depth _ (same : depth = _) => .peek fun token _ _ => ?_
  subst same
  dsimp only
  split
  · exact .done rfl
  next kind => exact .take kind nofun fun _ _ _ => .again rfl
  next kind =>
    refine .take kind nofun fun _ _ _ => ?_
    split
    · exact .again rfl
    · exact .exactly .eat fun _ => .done rfl
  next kind =>
    refine .take kind nofun fun _ _ _ => ?_
    split
    · exact .done rfl
    · exact .again rfl
  next kind =>
    split
    · exact .done rfl
    · exact .take kind nofun fun _ _ _ => .again rfl
  next other _ _ _ _ => exact .take rfl other fun _ _ _ => .again rfl

/-- The rest of a broken declaration is skipped, or its first token is, so that a token is taken anyway. -/
private theorem skipped_takes {start : Nat} {decls : List Decl} {state after : ParseState}
    {result : Round (List Decl) (List Decl)} (begins : start ≤ state.place.taken)
    (more : state.place.taken = start → state.place.current.kind ≠ .endOfFile)
    (ended : (skipDecl >>= fun _ => get >>= fun middle =>
      if middle.place.taken = start then advance >>= fun _ => pure (Round.again decls) else pure (Round.again decls) :
        Parse (Round (List Decl) (List Decl))) state = .ok result after) : start < after.place.taken := by
  obtain ⟨_, middle, skipped, late⟩ := bind_eq_ok.mp ended
  replace late : (if middle.place.taken = start then advance >>= fun _ => pure (Round.again decls)
    else pure (Round.again decls) : Parse (Round (List Decl) (List Decl))) middle = .ok result after := late
  have moves := (@skipDecl_composed true 0).moved skipped
  split at late
  next same =>
    have still : middle.place.taken = state.place.taken :=
      Nat.le_antisymm (same ▸ begins) moves.place.taken_le
    have more : middle.place.current.kind ≠ .endOfFile := by
      rcases moves.place.current_of_taken still with here | ⟨-, half⟩
      · exact here ▸ more (still.symm.trans same)
      · exact half ▸ nofun
    have onward : TakesOne true 0 (·.kind ≠ .endOfFile) (fun _ => ()) (advance >>= fun _ => pure (Round.again decls) :
        Parse (Round (List Decl) (List Decl))) := .advance (fun _ => id) fun _ _ _ => .pure rfl
    exact same ▸ onward.takes more late trivial
  next other =>
    cases late
    have := moves.place.taken_le
    omega

theorem decls_composed (levels : Nat) : Composed true levels (List.map Decl.bare) (decls levels) := by
  refine .repeated (List.map Decl.bare) rfl fun decls decls' same => ?_
  have ended : decls.reverse.map Decl.bare = decls'.reverse.map Decl.bare := by
    rw [List.map_reverse, List.map_reverse, same]
  refine .isAt (.read (fun alike => by rw [alike.tooDeep]) fun mirror => ?_)
    (.read (fun alike => by rw [alike.tooDeep]) fun mirror => ?_)
  · exact .done ended
  · rw [mirror.tooDeep]
    split
    · exact .done ended
    refine ⟨.read (fun alike => by rw [alike.place]) fun {before beside} start =>
      .optional (.recover (topLevel_onward levels).composed) ?_ fun decl decl' sameDecl => ?_,
      fun state result after more ended _ => ?_⟩
    · refine .exactly skipDecl_composed fun _ => .read (fun alike => by rw [alike.place]) fun {after behind} skipped => ?_
      rw [skipped.taken, start.taken]
      split
      · exact .token .advance fun _ _ _ => .again same
      · exact .again same
    · refine .again ?_
      rw [List.map_append, List.map_append, same, ← Option.toList_map, ← Option.toList_map, sameDecl]
    have moves := (topLevel_onward levels).composed.moves state
    obtain ⟨_, _, here, ended⟩ := bind_eq_ok.mp ended
    cases here
    obtain ⟨found, middle, early, late⟩ := bind_eq_ok.mp ended
    unfold recover at early
    split at early
    next decl behind inner =>
      cases early
      cases late
      exact (topLevel_onward levels).takes trivial inner trivial
    next behind inner =>
      cases early
      rw [inner] at moves
      refine skipped_takes moves.place.taken_le (fun same => ?_) late
      rcases moves.place.current_of_taken same with here | ⟨-, half⟩
      · exact here ▸ more.2
      · exact half ▸ nofun
    next => cases early

end GenericC.Parse
