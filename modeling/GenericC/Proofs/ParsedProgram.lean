import GenericC.Proofs.ParserLogic
import GenericC.Proofs.WrittenTree

/-! Whatever is parsed can be written: the trees that the rules of the grammar build from the tokens of a file are
written trees. This holds with reports and without, since a rule that is rejected builds nothing. -/

namespace GenericC

theorem SpelledAs.eq_spelling {kind : TokenKind} {text : Text} (spelled : SpelledAs kind text)
    (fixed : kind.spelling ≠ []) : text = kind.spelling := by
  cases kind <;> first | exact spelled | exact absurd rfl fixed

theorem Token.Spelled.word {token : Token} (spelled : token.Spelled)
    (word : (token.kind.isTypeKeyword || token.kind.isTag || token.kind.isQualifier) = true) :
    token.text = token.kind.spelling := by
  refine SpelledAs.eq_spelling spelled fun empty => ?_
  obtain ⟨b, rest, same, -⟩ := isWord_spelling word
  cases empty.symm.trans same

theorem Token.Spelled.isName {token : Token} (spelled : token.Spelled) (identifier : token.kind = .identifier) :
    IsName token.text := by
  unfold Token.Spelled at spelled
  rwa [identifier] at spelled

theorem BaseWords.ofBuiltin {words : List Text} (some : words ≠ [])
    (all : ∀ word ∈ words, ∃ kind : TokenKind, kind.isTypeKeyword = true ∧ word = kind.spelling) : BaseWords words := by
  have kinds : ∃ kinds : List TokenKind, words = kinds.map TokenKind.spelling ∧
      ∀ kind ∈ kinds, kind.isTypeKeyword = true := by
    clear some
    induction words with
    | nil => exact ⟨[], rfl, by simp⟩
    | cons word rest ih =>
      obtain ⟨⟨kind, builtin, rfl⟩, later⟩ := List.forall_mem_cons.mp all
      obtain ⟨kinds, rfl, builtins⟩ := ih later
      exact ⟨kind :: kinds, rfl, List.forall_mem_cons.mpr ⟨builtin, builtins⟩⟩
  obtain ⟨kinds, rfl, builtins⟩ := kinds
  exact .builtin (by simpa using some) builtins

theorem joinWith_append {front back : List Text} (separator : Text) (someFront : front ≠ []) (someBack : back ≠ []) :
    Text.joinWith separator (front ++ back) =
      Text.joinWith separator front ++ separator ++ Text.joinWith separator back := by
  cases front with
  | nil => exact absurd rfl someFront
  | cons first rest =>
    cases back with
    | nil => exact absurd rfl someBack
    | cons next later => simp [Text.joinWith]

theorem nodup_eraseDups {α : Type} [BEq α] [LawfulBEq α] (items : List α) : items.eraseDups.Nodup := by
  induction length : items.length using Nat.strong_induction_on generalizing items with
  | _ n ih =>
    cases items with
    | nil => simp
    | cons first rest =>
      rw [List.eraseDups_cons, List.nodup_cons]
      refine ⟨by simp [List.mem_eraseDups], ih _ ?_ _ rfl⟩
      have := List.length_filter_le (fun b => !b == first) rest
      simp only [List.length_cons] at length
      omega

def Decl.line? : Decl → Option Text
  | inclusion _ line _ => some line
  | directive line _ => some line
  | _ => none

/-- A declaration that can be written and is no preprocessor line. -/
def Decl.Plain (decl : Decl) : Prop := decl.Written ∧ decl.line? = none

namespace Parse

variable {α : Type} {mode : Mode} {wanted : Token → Prop}

theorem qualifiers_meets : Meets mode wanted qualifiers (fun words => ∀ word ∈ words, IsQualifierWord word) := by
  refine .whileAt (.advance (fun _ holds => ne_directive holds rfl) fun token spelled qualifier => .pure ?_)
  exact ⟨token.kind, qualifier, spelled.word (by simp [qualifier])⟩

def IsBaseType : TypeExpr → Prop
  | .named name _ => ∃ words, BaseWords words ∧ name = Text.joinWith " " words
  | .applied name args _ => IsName name ∧ args ≠ [] ∧ TypeExpr.AllWritten args
  | _ => False

theorem qualify_written {words : List Text} {type : TypeExpr} (qualifiers : ∀ word ∈ words, IsQualifierWord word)
    (base : IsBaseType type) : (qualify words type).Written := by
  unfold qualify
  have front : Qualifiers words.eraseDups :=
    ⟨nodup_eraseDups words, fun word member => qualifiers word (List.mem_eraseDups.mp member)⟩
  split
  next none =>
    cases type with
    | named name loc =>
      obtain ⟨base, isBase, rfl⟩ := base
      exact ⟨[], base, ⟨List.nodup_nil, by simp⟩, isBase, rfl⟩
    | applied name args loc =>
      exact ⟨⟨[], name, ⟨List.nodup_nil, by simp⟩, base.1, by simp [Text.joinWith]⟩, base.2⟩
    | absent | pointer elem loc => exact base.elim
  next some =>
    have some : words.eraseDups ≠ [] := by
      cases words with
      | nil => simp at some
      | cons => simp [List.eraseDups_cons]
    cases type with
    | named name loc =>
      obtain ⟨base, isBase, rfl⟩ := base
      exact ⟨_, base, front, isBase, (joinWith_append _ some isBase.ne_nil).symm⟩
    | applied name args loc =>
      refine ⟨⟨_, name, front, base.1, ?_⟩, base.2⟩
      rw [joinWith_append _ some (by simp)]
      simp [Text.joinWith]
      rfl
    | absent | pointer elem loc => exact base.elim

theorem typeArgs_meets {type : Parse TypeExpr} (meets : Meets mode Any type TypeExpr.Written) :
    Meets mode wanted (typeArgs type) (fun args => args ≠ [] ∧ TypeExpr.AllWritten args) := by
  refine (expect_meets (by nofun)).bind fun _ _ => (Meets.separated meets).bind fun args all => ?_
  refine closeAngle_meets.bind fun closed _ => ?_
  split
  · exact .pure ⟨all.1, (TypeExpr.allWritten_iff _).mpr all.2⟩
  · exact .peek fun _ _ _ => rejectHere_meets _ _

theorem applied_meets {type : Parse TypeExpr} (meets : Meets mode Any type TypeExpr.Written) {name : Token}
    (isName : IsName name.text) : Meets mode wanted (applied type name) IsBaseType :=
  (typeArgs_meets meets).bind fun _ all => .span fun _ => .pure ⟨isName, all⟩

theorem baseType_meets {type : Parse TypeExpr} (meets : Meets mode Any type TypeExpr.Written) :
    Meets mode wanted (baseType type) IsBaseType := by
  refine .peek fun token spelled _ => ?_
  split
  next builtin =>
    have words : Meets mode (fun token => token.kind.isTypeKeyword = true)
        (whileAt TokenKind.isTypeKeyword do return (← advance).text)
        (fun words => words ≠ [] ∧ ∀ word ∈ words, ∃ kind : TokenKind, kind.isTypeKeyword = true ∧ word = kind.spelling) :=
      .whileAtSome _ (.advance (fun _ holds => ne_directive holds rfl) fun token spelled builtin =>
        .pure ⟨token.kind, builtin, spelled.word (by simp [builtin])⟩)
    refine (words.within (by rintro _ rfl; exact builtin)).bind fun words all => ?_
    exact .span fun _ => .pure ⟨words, .ofBuiltin all.1 all.2, rfl⟩
  next =>
    split
    next tag =>
      refine .take (ne_directive tag rfl) (.name fun name isName => .isAt (applied_meets meets isName) (.pure ?_))
      refine ⟨[token.kind.spelling, name.text], .tagged tag isName, ?_⟩
      rw [spelled.word (by simp [tag])]
      simp [Text.concat, Text.joinWith]
    next =>
      split
      next identifier =>
        have isName := spelled.isName identifier
        refine .take (by rw [identifier]; decide) (.isAt (applied_meets meets isName) (.pure ?_))
        exact ⟨[token.text], .name isName, by simp [Text.joinWith]⟩
      next => exact rejectHere_meets _ _

theorem stars_meets {start : Span} {type : TypeExpr} (written : type.Written) :
    Meets mode wanted (stars start type) TypeExpr.Written := by
  refine .loop TypeExpr.Written written fun type written => .eat (by nofun) ?_ (.pure written)
  exact qualifiers_meets.bind fun _ _ => .span fun _ => .pure written

theorem typeExpr_meets (levels : Nat) : Meets mode wanted (typeExpr levels) TypeExpr.Written := by
  induction levels generalizing wanted with
  | zero => exact .stop (by decide)
  | succ levels ih =>
    refine .nested (.peek fun token _ _ => ?_)
    refine qualifiers_meets.bind fun before qualifiers => (baseType_meets ih).bind fun base isBase => ?_
    refine qualifiers_meets.bind fun after qualifiers' => stars_meets (qualify_written ?_ isBase)
    exact List.forall_mem_append.mpr ⟨qualifiers, qualifiers'⟩

theorem countStars_meets : Meets mode wanted countStars (fun _ => True) :=
  Meets.bind (Meets.whileAt (.advance (fun _ here => of_decide_eq_true here ▸ nofun) fun _ _ _ => qualifiers_meets))
    fun _ _ => .pure trivial

theorem written_pointers {type : TypeExpr} (written : type.Written) (count : Nat) : (type.pointers count).Written := by
  induction count generalizing type with
  | zero => exact written
  | succ count ih => exact @ih (.pointer type _) written

theorem nextType_meets {type : TypeExpr} (written : type.Written) :
    Meets mode wanted (nextType type) TypeExpr.Written :=
  countStars_meets.bind fun count _ => .pure (written_pointers written.base count)

theorem typeParams_meets : Meets mode (fun token => wanted token ∧ token.kind = .less) typeParams
    (fun params => ∀ param ∈ params, IsName param.name) := by
  refine .advance (fun _ here => here.2 ▸ nofun) fun bracket _ _ => .peek fun token _ _ => ?_
  split
  next empty =>
    refine .reportFirst (.take (empty ▸ nofun) ?_)
    exact Meets.never .giveUp
  · refine Meets.through (fun params => ∀ param ∈ params, IsName param.name) ?_ fun params names => ?_
    · refine .loop (fun params => ∀ param ∈ params, IsName param.name) (by simp) fun params names => ?_
      refine .name fun name isName => ?_
      refine Meets.bind (Meets.forEach fun _ _ => ?_) fun _ _ => ?_
      · exact (report_meets _).bind fun _ _ => .pure rfl
      · have all : ∀ param ∈ params ++ [(⟨name.text, name.span⟩ : TypeParam)], IsName param.name := by
          exact List.forall_mem_append.mpr ⟨names, by simpa using isName⟩
        exact .eat (by nofun) (.pure all) (.pure all)
    · refine closeAngle_meets.bind fun _ _ => ?_
      split
      · exact .pure names
      · exact .peek fun _ _ _ => rejectHere_meets _ _

theorem isTypeLike_meets (type : TypeExpr) : Meets mode wanted (isTypeLike type) (fun _ => True) := by
  unfold isTypeLike
  split
  · exact .pure trivial
  · exact .pure trivial
  · split
    · exact .pure trivial
    · split
      · split
        · exact .pure trivial
        · exact isTypeName_meets _
      · exact isTypeName_meets _
  · exact .pure trivial

theorem isTypeLike_place {type : TypeExpr} {state after : ParseState} {found : Bool}
    (ran : isTypeLike type state = .ok found after) : after.place = state.place := by
  cases type with
  | named name loc =>
    rw [isTypeLike] at ran
    split at ran
    · cases ran
      rfl
    · cases keyword : TokenKind.keyword? name with
      | none =>
        rw [keyword] at ran
        cases ran
        rfl
      | some kind =>
        rw [keyword] at ran
        dsimp only at ran
        split at ran <;> cases ran <;> rfl
  | _ =>
    cases ran
    rfl

section
variable {operand : Nat → Parse Expr} (operands : ∀ least, Meets mode Any (operand least) Expr.Written)
include operands

theorem operators_meets (least : Nat) {first : Expr} (written : first.Written) :
    Meets mode wanted (operators operand least first) Expr.Written := by
  refine .loop Expr.Written written fun left written => .peek fun token _ _ => ?_
  split
  · exact .pure written
  next binding found =>
    split
    · exact .pure written
    · refine .take (by rintro same; rw [same] at found; cases found) ?_
      split
      · refine (operands _).bind fun yes writtenYes => (expect_meets (by nofun)).bind fun _ _ => ?_
        exact (operands _).bind fun no writtenNo => .pure ⟨written, writtenYes, writtenNo⟩
      next other =>
        refine (operands _).bind fun right writtenRight => .pure ⟨⟨?_, other⟩, written, writtenRight⟩
        rw [found]
        rfl

theorem callArgs_meets {callee : Expr} {types : List TypeExpr} (written : callee.Written)
    (writtenTypes : TypeExpr.AllWritten types) :
    Meets mode (·.kind = .leftParen) (callArgs operand callee types) Expr.Written := by
  refine .advance (fun _ here => here ▸ nofun) fun bracket _ _ => .isAt ?_ ?_
  · refine .eat (by nofun) ?_ (.peek fun _ _ _ => reject_meets _ _ _)
    exact .span fun _ => .pure ⟨written, writtenTypes, trivial⟩
  · refine (Meets.separated (operands _)).bind fun args all => .eat (by nofun) ?_ (.peek fun _ _ _ => reject_meets _ _ _)
    exact .span fun _ => .pure ⟨written, writtenTypes, (Expr.allWritten_iff _).mpr all.2⟩

omit operands in
theorem callTypeArgs_meets {type : Parse TypeExpr} (types : Meets .trial Any type TypeExpr.Written) :
    Meets .trial wanted (callTypeArgs type) TypeExpr.AllWritten := by
  refine (typeArgs_meets types).bind fun args all => ?_
  refine .isAt ?_ ?_
  · refine Meets.bind (Meets.forEach fun type _ => ?_) fun _ _ => .pure all.2
    refine (isTypeLike_meets type).bind fun known _ => ?_
    split
    · exact Meets.never .giveUp
    · exact .pure rfl
  · exact Meets.never .giveUp

omit operands in
theorem attempt_callTypeArgs {type : Parse TypeExpr} {state after : ParseState} {found : Option (List TypeExpr)}
    (ran : attempt (callTypeArgs type) state = .ok found after) (some : found ≠ none) :
    after.place.current.kind = .leftParen := by
  have lands {state after : ParseState} {types : List TypeExpr} (ran : callTypeArgs type state = .ok types after) :
      after.place.current.kind = .leftParen := by
    obtain ⟨types, middle, -, ran⟩ := bind_eq_ok.mp ran
    obtain ⟨here, _, same, ran⟩ := bind_eq_ok.mp ran
    cases same
    by_cases paren : middle.place.current.kind = .leftParen
    · rw [decide_eq_true paren] at ran
      obtain ⟨_, last, looped, ended⟩ := bind_eq_ok.mp ran
      cases ended
      rw [forIn_place (fun round => ?_) looped, paren]
      obtain ⟨known, _, looked, ended⟩ := bind_eq_ok.mp round
      cases known <;> cases ended
      exact isTypeLike_place looked
    · rw [decide_eq_false paren] at ran
      cases ran
  unfold attempt quietly at ran
  split at ran
  next inner =>
    cases ran
    split at inner
    next ran =>
      cases inner
      have paren := lands ran
      exact paren
    next => cases inner
  next =>
    cases ran
    exact absurd rfl some
  next => cases ran

theorem primary_meets {type : Parse TypeExpr} (types : Meets .trial Any type TypeExpr.Written) :
    Meets mode wanted (primary operand type) Expr.Written := by
  refine .peek fun token spelled _ => ?_
  unfold Token.Spelled at spelled
  split
  next identifier =>
    rw [identifier] at spelled
    refine .take (identifier ▸ nofun) (.isAt ?_ (.pure spelled))
    refine Meets.bindAt (fun found token => found ≠ none → token.kind = .leftParen) (Meets.attempt (callTypeArgs_meets types))
      (fun _ => attempt_callTypeArgs) fun found all => ?_
    cases found with
    | some types =>
      have call := @callArgs_meets mode _ operands (.name token.text token.span) types spelled (all types rfl)
      exact call.within fun _ here => here nofun
    | none => exact .pure spelled
  iterate 3
    next literal =>
      refine .take (literal ▸ nofun) (.pure ?_)
      rw [literal] at spelled ⊢
      exact spelled
  next string =>
    have parts : Meets mode (fun token => decide (token.kind = .string) = true)
        (whileAt (· = .string) do return (← advance).text)
        (fun parts => parts ≠ [] ∧ ∀ part ∈ parts, IsLiteral .string part) := by
      refine Meets.whileAtSome (· = .string) (.advance (fun _ here => of_decide_eq_true here ▸ nofun)
        fun token spelled string => .pure ?_)
      unfold Token.Spelled at spelled
      rw [of_decide_eq_true string] at spelled
      exact spelled
    refine (parts.within (by rintro _ rfl; exact decide_eq_true string)).bind fun parts all => ?_
    exact .span fun _ => .pure ⟨parts, all.1, all.2, rfl⟩
  next paren =>
    refine .take (paren ▸ nofun) ((operands _).bind fun inner written => .eat (by nofun) ?_ (reject_meets _ _ _))
    exact .span fun _ => .pure written
  next => exact rejectHere_meets _ _

theorem trailers_meets {first : Expr} (written : first.Written) :
    Meets mode wanted (trailers operand first) Expr.Written := by
  refine .loop Expr.Written written fun object written => .peek fun token _ _ => ?_
  split
  next paren =>
    have call := callArgs_meets operands written (show TypeExpr.AllWritten [] from trivial)
    exact (call.within (by rintro _ rfl; exact paren)).bind fun _ written => .pure written
  next bracket =>
    refine .take (bracket ▸ nofun) ((operands _).bind fun position writtenPosition => .eat (by nofun) ?_ (rejectHere_meets _ _))
    exact .span fun _ => .pure ⟨written, writtenPosition⟩
  next dot => exact .take (dot ▸ nofun) (.name fun name isName => .pure ⟨written, isName⟩)
  next arrow => exact .take (arrow ▸ nofun) (.name fun name isName => .pure ⟨written, isName⟩)
  next step => exact .take (step ▸ nofun) (.pure ⟨.inl step, written⟩)
  next step => exact .take (step ▸ nofun) (.pure ⟨.inr step, written⟩)
  next => exact .pure written

omit operands in
theorem parenType_meets {type : Parse TypeExpr} (types : Meets .trial Any type TypeExpr.Written) :
    Meets .trial (·.kind = .leftParen) (parenType type) TypeExpr.Written := by
  refine .advance (fun _ here => here ▸ nofun) fun _ _ _ => atTypeStart_meets.bind fun known _ => ?_
  split
  · exact Meets.never .giveUp
  · exact types.bind fun type written => .eat (by nofun) (.pure written) .giveUp

omit operands in
theorem sizeof_meets {unary : Parse Expr} {type : Parse TypeExpr} (unaries : Meets mode Any unary Expr.Written)
    (types : Meets .trial Any type TypeExpr.Written) : Meets mode (·.kind = .kwSizeof) (sizeof unary type) Expr.Written := by
  refine .advance (fun _ here => here ▸ nofun) fun word _ _ => .isAt ?_ ?_
  on_goal 1 => refine Meets.bind (Meets.attempt ((parenType_meets types).within fun _ here => here.2)) fun found all => ?_
  on_goal 2 => refine Meets.through (fun found => ∀ type ∈ found, type.Written) (.pure (by simp)) fun found all => ?_
  all_goals
    cases found with
    | some type => exact .span fun _ => .pure (all type rfl)
    | none => exact unaries.bind fun operand written => .pure written

omit operands in
theorem castOperand_meets {unary initList : Parse Expr} (unaries : Meets mode Any unary Expr.Written)
    (lists : Meets mode (·.kind = .leftBrace) initList Expr.Written) :
    Meets mode wanted (castOperand unary initList) Expr.Written :=
  .isAt (lists.within fun _ here => here.2) unaries.anywhere

theorem unaryBody_meets {unary initList : Parse Expr} {type : Parse TypeExpr}
    (unaries : Meets mode Any unary Expr.Written) (lists : Meets mode (·.kind = .leftBrace) initList Expr.Written)
    (types : Meets .trial Any type TypeExpr.Written) :
    Meets mode wanted (unaryBody operand unary initList type) Expr.Written := by
  refine .peek fun token _ _ => ?_
  split
  next isUnary => exact .take (ne_directive isUnary rfl) (unaries.bind fun inner written => .pure ⟨isUnary, written⟩)
  next =>
    split
    next word => exact (sizeof_meets unaries types).within (by rintro _ rfl; exact word)
    next =>
      split
      on_goal 1 =>
        rename_i paren
        refine Meets.bind (Meets.attempt ((parenType_meets types).within (by rintro _ rfl; exact paren))) fun found all => ?_
      on_goal 2 => refine Meets.through (fun found => ∀ type ∈ found, type.Written) (.pure (by simp)) fun found all => ?_
      all_goals
        cases found with
        | some type => exact (castOperand_meets unaries lists).bind fun inner written => .pure ⟨all type rfl, written⟩
        | none => exact (primary_meets operands types).bind fun first written => trailers_meets operands written

end

theorem initListBody_meets {value initList : Parse Expr} (values : Meets mode Any value Expr.Written)
    (lists : Meets mode (·.kind = .leftBrace) initList Expr.Written) : Meets mode (·.kind = .leftBrace) (initListBody value initList) Expr.Written := by
  refine .advance (fun _ here => here ▸ nofun) fun brace _ _ => Meets.through (fun elems => ∀ elem ∈ elems, elem.Written) ?_ fun elems all => ?_
  · refine .loop (fun elems => ∀ elem ∈ elems, elem.Written) (by simp) fun elems all => ?_
    refine .isAt (.pure fun other member => all other (List.mem_reverse.mp member)) (.isAt ?_ ?_)
    on_goal 1 => refine (lists.within fun _ here => here.2).bind fun elem written => ?_
    on_goal 2 => refine values.anywhere.bind fun elem written => ?_
    all_goals
      have more : ∀ other ∈ elem :: elems, other.Written := List.forall_mem_cons.mpr ⟨written, all⟩
      exact .eat (by nofun) (.pure more) (.pure fun other member => more other (List.mem_reverse.mp member))
  · refine .eat (by nofun) ?_ (reject_meets _ _ _)
    exact .span fun _ => .pure ((Expr.allWritten_iff _).mpr all)

theorem exprs_meet (levels : Nat) :
    (∀ least, Meets mode Any (binary levels least) Expr.Written) ∧ Meets mode Any (unary levels) Expr.Written ∧
      Meets mode (·.kind = .leftBrace) (initList levels) Expr.Written := by
  induction levels with
  | zero =>
    refine ⟨fun least => ?_, ?_, ?_⟩
    · rw [binary]
      exact .stop (by decide)
    · rw [unary]
      exact .stop (by decide)
    · rw [initList]
      exact .stop (by decide)
  | succ levels ih =>
    obtain ⟨binaries, unaries, lists⟩ := ih
    refine ⟨fun least => ?_, ?_, ?_⟩
    · rw [binary]
      exact .nested (unaries.bind fun first written => operators_meets binaries least written)
    · rw [unary]
      exact .nested (unaryBody_meets binaries unaries lists (typeExpr_meets levels))
    · rw [initList]
      exact .nested (initListBody_meets (binaries _) lists)

theorem expr_meets (levels : Nat) : Meets mode wanted (expr levels) Expr.Written :=
  ((exprs_meet levels).1 _).anywhere

theorem value_meets (levels : Nat) : Meets mode wanted (value levels) Expr.Written :=
  ((exprs_meet levels).1 _).anywhere

theorem initializer_meets (levels : Nat) : Meets mode wanted (initializer levels) Expr.Written :=
  .isAt ((exprs_meet levels).2.2.within fun _ here => here.2) (value_meets levels)

theorem dimensions_meets (levels : Nat) : Meets mode wanted (dimensions levels) Dimensions.Written := by
  refine .whileAt (.advance (fun _ here => of_decide_eq_true here ▸ nofun) fun bracket _ _ => .eat (by nofun) (.pure (by simp [Expr.OptionWritten])) ?_)
  refine (expr_meets levels).bind fun size written => .eat (by nofun) (.pure ?_) (reject_meets _ _ _)
  rintro _ ⟨⟩
  exact written

theorem storage_meets : Meets mode wanted storage (fun _ => True) := by
  refine .loop (fun _ => True) trivial fun found _ => .peek fun token _ _ => ?_
  split
  iterate 3 next kind => exact .take (kind ▸ nofun) (.pure trivial)
  · exact .pure trivial

theorem declarator_meets (levels : Nat) {type : TypeExpr} {name : Token} (written : type.Written)
    (isName : IsName name.text) : Meets mode wanted (declarator levels type name) Declarator.Written := by
  refine (dimensions_meets levels).bind fun dims writtenDims => .eat (by nofun) ?_ ?_
  · refine (Meets.map Expr.OptionWritten (initializer_meets levels) ?_).bind fun init writtenInit => ?_
    · rintro value written _ ⟨⟩
      exact written
    · exact .span fun _ => .pure ⟨written, isName, writtenDims, writtenInit⟩
  · exact .span fun _ => .pure ⟨written, isName, writtenDims, by simp [Expr.OptionWritten]⟩

theorem declarators_meets (levels : Nat) {type : TypeExpr} {name : Token} (written : type.Written)
    (isName : IsName name.text) : Meets mode wanted (declarators levels type name)
      (fun vars => vars ≠ [] ∧ ∀ declarator ∈ vars, declarator.Written) := by
  refine .loop (fun state => state.1.Written ∧ IsName state.2.1.text ∧ ∀ declarator ∈ state.2.2, declarator.Written)
    ⟨written, isName, by simp⟩ ?_
  rintro ⟨type, name, found⟩ ⟨written, isName, all⟩
  refine (declarator_meets levels written isName).bind fun declarator writtenDeclarator => ?_
  have more : ∀ other ∈ declarator :: found, other.Written := List.forall_mem_cons.mpr ⟨writtenDeclarator, all⟩
  refine .eat (by nofun) ?_ (.pure ⟨by simp, fun other member => more other (List.mem_reverse.mp member)⟩)
  exact (nextType_meets written).bind fun type written => .name fun name isName =>
    .pure ⟨written, isName, more⟩

theorem localVars_meets (levels : Nat) : Meets mode wanted (localVars levels) VarDecl.Written := by
  refine .peek fun token _ _ => storage_meets.bind fun storage _ => (typeExpr_meets levels).bind fun type written => ?_
  refine .name fun name isName => (declarators_meets levels written isName).bind fun vars all => ?_
  exact .semicolon <| .span fun _ => .pure all

theorem typedName_meets (levels : Nat) : Meets mode wanted (typedName levels) (fun _ => True) := by
  refine (typeExpr_meets levels).bind fun type _ => .isAt ?_ (.pure trivial)
  rw [if_neg (by decide)]
  dsimp only
  split
  on_goal 2 => refine (isTypeName_meets _).bind fun known _ => ?_
  on_goal 1 => refine Meets.through (fun _ => True) (.pure trivial) fun known _ => ?_
  on_goal 3 => refine Meets.through (fun _ => True) (.pure trivial) fun known _ => ?_
  all_goals
    split
    · exact .pure trivial
    · split
      · exact .pure trivial
      · refine .peekPast fun next => ?_
        split <;> exact .pure trivial

theorem atLocalVars_meets (levels : Nat) : Meets mode wanted (atLocalVars levels) (fun _ => True) := by
  refine .peek fun token _ _ => ?_
  split
  · exact .pure trivial
  · split
    · exact .lookahead (typedName_meets levels)
    · exact atTypeStart_meets

theorem condition_meets (levels : Nat) (owner : Text) : Meets mode wanted (condition levels owner) Expr.Written := by
  refine (expect_meets (by nofun)).bind fun bracket _ => (expr_meets levels).bind fun test written => ?_
  exact .eat (by nofun) (.pure written) (reject_meets _ _ _)

theorem skipStmt_meets : Meets .file wanted skipStmt (fun _ => True) := by
  refine .loop (fun _ => True) trivial fun depth _ => .peek fun token _ _ => ?_
  split
  · exact .pure trivial
  · exact .skip fun _ => .pure trivial
  · split
    · exact .pure trivial
    · exact .skip fun _ => .pure trivial
  · refine .skip fun _ => ?_
    split <;> exact .pure trivial
  · exact .skip fun _ => .pure trivial

theorem block_meets {stmt : Parse Stmt} (stmts : Meets .rule Any stmt Stmt.Written) :
    Meets .rule wanted (block stmt) (fun block => Stmt.AllWritten block.stmts) := by
  refine (expect_meets (by nofun)).bind fun brace _ => ?_
  refine Meets.through (fun stmts => ∀ stmt ∈ stmts, stmt.Written) ?_ fun stmts all => ?_
  · refine .loop (fun stmts => ∀ stmt ∈ stmts, stmt.Written) (by simp) fun found all => ?_
    have backwards : ∀ stmt ∈ found.reverse, stmt.Written := fun stmt member => all stmt (List.mem_reverse.mp member)
    refine .isAt (.advance (fun _ here => here.2 ▸ nofun) fun _ _ _ => .pure backwards) (.unlessTooDeep (.isAt ?_ ?_))
    · exact Meets.never (reject_meets _ _ _)
    · exact .recover nofun stmts.anywhere (fun stmt written => .pure (List.forall_mem_cons.mpr ⟨written, all⟩))
        (.unlessTooDeep (skipStmt_meets.bind fun _ _ => .pure all))
  · exact .span fun _ => .pure ((Stmt.allWritten_iff _).mpr all)

theorem ifStmt_meets (levels : Nat) {stmt : Parse Stmt} (stmts : Meets mode Any stmt Stmt.Written) :
    Meets mode (·.kind = .kwIf) (ifStmt levels stmt) Stmt.Written := by
  refine .advance (fun _ here => here ▸ nofun) fun word _ _ => (condition_meets levels _).bind fun test written => ?_
  refine stmts.bind fun yes writtenYes => .eat (by nofun) ?_ ?_
  · exact stmts.bind fun no writtenNo => .span fun _ => .pure ⟨written, writtenYes, writtenNo⟩
  · exact .span fun _ => .pure ⟨written, writtenYes⟩

theorem forInit_meets (levels : Nat) : Meets mode wanted (forInit levels) ForInit.Written := by
  refine .eat (by nofun) (.pure trivial) ((atLocalVars_meets levels).bind fun known _ => ?_)
  split
  · exact (localVars_meets levels).bind fun decl written => .pure written
  · refine .peek fun token _ _ => (expr_meets levels).bind fun value written => ?_
    exact .semicolon <| .span fun _ => .pure written

theorem exprBefore_meets (levels : Nat) (follower : TokenKind) :
    Meets mode wanted (exprBefore levels follower) Expr.OptionWritten := by
  refine .isAt (.pure (by simp [Expr.OptionWritten])) ((expr_meets levels).bind fun value written => .pure ?_)
  rintro _ ⟨⟩
  exact written

theorem forStmt_meets (levels : Nat) {stmt : Parse Stmt} (stmts : Meets mode Any stmt Stmt.Written) :
    Meets mode (·.kind = .kwFor) (forStmt levels stmt) Stmt.Written := by
  refine .advance (fun _ here => here ▸ nofun) fun word _ _ => (expect_meets (by nofun)).bind fun bracket _ => (forInit_meets levels).bind fun init written => ?_
  refine (exprBefore_meets levels _).bind fun test writtenTest => .semicolon <| ?_
  refine (exprBefore_meets levels _).bind fun post writtenPost => .eat (by nofun) ?_ ?_
  · exact stmts.bind fun body writtenBody => .span fun _ =>
      .pure ⟨written, writtenTest, writtenPost, writtenBody⟩
  · exact Meets.never (reject_meets _ _ _)

theorem stmtBody_meets (levels : Nat) {stmt : Parse Stmt} (stmts : Meets .rule Any stmt Stmt.Written) :
    Meets .rule wanted (stmtBody levels stmt) Stmt.Written := by
  refine .peek fun token _ _ => ?_
  split
  next => exact (block_meets stmts).bind fun block written => .pure written
  next word => exact .take (word ▸ nofun) (.pure trivial)
  next word =>
    refine .take (word ▸ nofun) ((exprBefore_meets levels _).bind fun value written => ?_)
    exact .semicolon (.span fun _ => .pure written)
  next word => exact .take (word ▸ nofun) (.semicolon (.span fun _ => .pure trivial))
  next word => exact .take (word ▸ nofun) (.semicolon (.span fun _ => .pure trivial))
  next word => exact (ifStmt_meets levels stmts).within (by rintro _ rfl; exact word)
  next word =>
    refine .take (word ▸ nofun) ((condition_meets levels _).bind fun test written => ?_)
    exact stmts.bind fun body writtenBody => .span fun _ => .pure ⟨written, writtenBody⟩
  next word =>
    refine .take (word ▸ nofun) (stmts.bind fun body writtenBody => (expect_meets (by nofun)).bind fun _ _ => ?_)
    exact (condition_meets levels _).bind fun test written => .semicolon (.span fun _ => .pure ⟨writtenBody, written⟩)
  next word => exact (forStmt_meets levels stmts).within (by rintro _ rfl; exact word)
  next =>
    refine (atLocalVars_meets levels).bind fun known _ => ?_
    split
    · exact (localVars_meets levels).bind fun decl written => .pure written
    · exact (expr_meets levels).bind fun value written => .semicolon (.span fun _ => .pure written)

theorem stmt_meets (levels : Nat) : Meets .rule wanted (stmt levels) Stmt.Written := by
  induction levels generalizing wanted with
  | zero => exact .stop (by decide)
  | succ levels ih => exact .nested (stmtBody_meets levels ih)

theorem fieldLine_meets (levels : Nat) :
    Meets mode wanted (fieldLine levels) (fun fields => ∀ field ∈ fields, field.Written) := by
  refine .peek fun token _ _ => (typeExpr_meets levels).bind fun type written => ?_
  refine Meets.through (fun fields => ∀ field ∈ fields, field.Written) ?_ fun fields all => ?_
  · refine .loop (fun state => state.1.Written ∧ ∀ field ∈ state.2, field.Written) ⟨written, by simp⟩ ?_
    rintro ⟨type, found⟩ ⟨written, all⟩
    refine .name fun name isName => (dimensions_meets levels).bind fun dims writtenDims => ?_
    refine .span fun loc => ?_
    have more : ∀ field ∈ ({ type, name := name.text, dims, loc } : Field) :: found, field.Written :=
      List.forall_mem_cons.mpr ⟨⟨written, isName, writtenDims⟩, all⟩
    refine .eat (by nofun) ?_ (.pure fun field member => more field (List.mem_reverse.mp member))
    exact (nextType_meets written).bind fun type written => .pure ⟨written, more⟩
  · exact .semicolon <| .pure all

theorem fieldBlock_meets (levels : Nat) :
    Meets mode wanted (fieldBlock levels) (fun fields => ∀ field ∈ fields, field.Written) := by
  refine (expect_meets (by nofun)).bind fun brace _ => ?_
  refine .loop (fun fields => ∀ field ∈ fields, field.Written) (by simp) fun fields all => ?_
  refine .isAt (.advance (fun _ here => here.2 ▸ nofun) fun _ _ _ => .pure all) (.isAt ?_ ?_)
  · exact Meets.never (reject_meets _ _ _)
  · exact (fieldLine_meets levels).bind fun line written => .pure (List.forall_mem_append.mpr ⟨all, written⟩)

theorem structAhead_meets : Meets mode (·.kind.isTag = true) structAhead (fun _ => True) := by
  refine .advance (fun _ tag => ne_directive tag rfl) fun _ _ _ => .isAt (.pure trivial) (.eat (by nofun) (.isAt ?_ ?_) (.pure trivial))
  · exact typeParams_meets.bind fun _ _ => .test fun _ => .test fun _ => .pure trivial
  · exact .test fun _ => .test fun _ => .pure trivial

theorem structDecl_meets (levels : Nat) : Meets mode (·.kind.isTag = true) (structDecl levels) StructDecl.Written := by
  refine .advance (fun _ tag => ne_directive tag rfl) fun word _ _ => .isAt (.test fun _ => ?_) (.isAt ?_ ?_)
  on_goal 2 => exact Meets.never (rejectHere_meets _ _)
  on_goal 1 =>
    refine .advance (fun _ here => here.2 ▸ nofun) fun name spelled here => Meets.through
      (fun decl => IsOptionalName decl.name ∧ decl.typeParams = [] ∧ decl.fields = none)
      (.pure ⟨.inr (spelled.isName here.2), rfl, rfl⟩) fun decl plain => ?_
  on_goal 2 =>
    refine Meets.through (fun decl => IsOptionalName decl.name ∧ decl.typeParams = [] ∧ decl.fields = none)
      (.pure ⟨.inl rfl, rfl, rfl⟩) fun decl plain => ?_
  -- However the name and the parameters are read, the rest of the rule is the same.
  all_goals
    obtain ⟨isName, noParams, noFields⟩ := plain
    refine .isAt (typeParams_meets.bind fun params names => Meets.through (fun decl => IsOptionalName decl.name ∧
      (∀ param ∈ decl.typeParams, IsName param.name) ∧ decl.fields = none) (.pure ⟨isName, names, noFields⟩) fun decl plain => ?_)
      (Meets.through (fun decl => IsOptionalName decl.name ∧ (∀ param ∈ decl.typeParams, IsName param.name) ∧
        decl.fields = none) (.pure ⟨isName, by simp [noParams], noFields⟩) fun decl plain => ?_)
    all_goals
      obtain ⟨isName, names, noFields⟩ := plain
      refine .eat (by nofun) (.span fun _ => .pure ⟨isName, names, by simp [StructDecl.fieldList, noFields]⟩) ?_
      exact Meets.bind (fieldBlock_meets levels).withTypeParams fun fields all =>
        .semicolon (.span fun _ => .pure ⟨isName, names, all⟩)

theorem param_meets (levels : Nat) : Meets mode wanted (param levels) Param.Written := by
  refine .peek fun token _ _ => (typeExpr_meets levels).bind fun type written => .isAt ?_ ?_
  on_goal 1 =>
    refine .advance (fun _ here => here.2 ▸ nofun) fun name spelled identifier =>
      Meets.through IsOptionalName (.pure (.inr (spelled.isName identifier.2))) fun name isName => ?_
  on_goal 2 => refine Meets.through IsOptionalName (.pure (.inl rfl)) fun name isName => ?_
  all_goals
    exact (dimensions_meets levels).bind fun dims writtenDims => .span fun _ => .pure ⟨written, isName, writtenDims⟩

theorem params_meets (levels : Nat) :
    Meets mode (fun token => wanted token ∧ token.kind = .leftParen) (params levels)
      (fun found => ∀ param ∈ found.1, param.Written) := by
  refine .advance (fun _ here => here.2 ▸ nofun) fun bracket _ _ => .eat (by nofun) (.pure (by simp)) ?_
  refine .isAt (fun state spelled void => ?_) (.peekPast fun next => ?_)
  on_goal 1 =>
    rw [bind_apply, peekPast_apply]
    dsimp only
    split
    next closed =>
      -- The parenthesis behind the word was looked at, so it is taken next.
      refine advance_ends spelled (.inr (void.2 ▸ nofun)) fun place upcoming spelled => ?_
      refine advance_ends spelled (.inr fun line => ?_) fun _ _ spelled => ⟨.refl _ _, spelled, by simp⟩
      rw [upcoming (void.2 ▸ nofun)] at closed
      rw [show place.current.kind = .rightParen by simpa using closed] at line
      cases line
    refine (?_ : Meets mode Any _ _) state spelled trivial
  all_goals
    refine Meets.through (fun found => ∀ param ∈ found.1, param.Written) ?_ fun found all => ?_
    · refine .loop (fun found => ∀ param ∈ found, param.Written) (by simp) fun found all => ?_
      refine .eat (by nofun) (.pure fun param member => all param (List.mem_reverse.mp member)) ?_
      refine Meets.bind (param_meets levels) fun param written => ?_
      have more : ∀ other ∈ param :: found, other.Written := List.forall_mem_cons.mpr ⟨written, all⟩
      exact .eat (by nofun) (.pure more) (.pure fun other member => more other (List.mem_reverse.mp member))
    · exact .eat (by nofun) (.pure all) (.peek fun _ _ _ => reject_meets _ _ _)

theorem functionRest_meets (levels : Nat) (start : Span) {decl : FuncDecl} (result : decl.result.Written)
    (isName : IsName decl.name) (names : ∀ param ∈ decl.typeParams, IsName param.name) (noBody : decl.body = none) :
    Meets .rule (fun token => wanted token ∧ token.kind = .leftParen) (functionRest levels start decl) FuncDecl.Written := by
  refine (params_meets levels).bind fun found written => .eat (by nofun) ?_ (.isAt ?_ ?_)
  · exact .span fun _ => .pure ⟨result, isName, names, written, by simp [noBody]⟩
  · refine (block_meets (stmt_meets levels)).bind fun body writtenBody => .span fun _ => ?_
    refine .pure ⟨result, isName, names, written, ?_⟩
    rintro _ ⟨⟩
    exact writtenBody
  · refine .peek fun _ _ _ => ?_
    exact Meets.never (rejectHere_meets _ _)

theorem functionOrVars_meets (levels : Nat) : Meets .rule wanted (functionOrVars levels) Decl.Plain := by
  refine .peek fun token _ _ => storage_meets.bind fun storage _ => (typeExpr_meets levels).bind fun type written => ?_
  refine .name fun name isName => ?_
  refine .isAt (typeParams_meets.bind fun params names => .isAt ?_ ?_) ?_
  on_goal 2 => exact Meets.never (rejectHere_meets _ _)
  on_goal 1 => refine Meets.through (fun params => ∀ param ∈ params, IsName param.name) (.pure names) fun params names => ?_
  on_goal 2 => refine Meets.through (fun params => ∀ param ∈ params, IsName param.name) (.pure (by simp)) fun params names => ?_
  all_goals
    refine .isAt ?_ ?_
    · exact Meets.bind (functionRest_meets levels _ written isName names rfl).withTypeParams fun decl written =>
        .pure ⟨written, rfl⟩
    · exact (declarators_meets levels written isName).bind fun vars all => .semicolon (.span fun _ => .pure ⟨all, rfl⟩)

theorem typedefTarget_meets (levels : Nat) : Meets mode wanted (typedefTarget levels) TypedefTarget.Written := by
  refine .peek fun token _ _ => .peekPast fun next => .peekPast fun second => ?_
  dsimp only
  split
  next tag =>
    refine .advance (fun word same line => ?_) fun word _ _ => ?_
    · rw [← same, line] at tag
      cases tag
    refine .isAt (.advance (fun _ here => here.2 ▸ nofun) fun name spelled identifier => ?_) ?_
    on_goal 1 =>
      refine Meets.through (fun decl => IsOptionalName decl.name ∧ decl.typeParams = [])
        (.pure ⟨.inr (spelled.isName identifier.2), rfl⟩) fun decl plain => ?_
    on_goal 2 =>
      refine Meets.through (fun decl => IsOptionalName decl.name ∧ decl.typeParams = []) (.pure ⟨.inl rfl, rfl⟩) fun decl plain => ?_
    all_goals
      exact (fieldBlock_meets levels).bind fun fields all => .span fun _ => .pure ⟨plain.1, by simp [plain.2], all⟩
  · exact (typeExpr_meets levels).bind fun type written => .pure written

theorem enumItem_meets (levels : Nat) : Meets mode wanted (enumItem levels) EnumItem.Written := by
  refine .name fun name isName => .eat (by nofun) ?_ ?_
  · refine (Meets.map Expr.OptionWritten (value_meets levels) ?_).bind fun value written => ?_
    · rintro value written _ ⟨⟩
      exact written
    · exact .span fun _ => .pure ⟨isName, written⟩
  · exact .span fun _ => .pure ⟨isName, by simp [Expr.OptionWritten]⟩

theorem enumDecl_meets (levels : Nat) {yes : EnumDecl → Parse α} {no : Parse α} {good : α → Prop}
    (declared : ∀ decl, decl.Written → Meets mode Any (yes decl) good) (other : Meets mode Any no good) :
    Meets mode (·.kind = .kwEnum) (enumAhead >>= fun known => if known = true then enumDecl levels >>= yes else no) good := by
  intro state spelled here
  unfold enumAhead
  rw [bind_assoc, bind_apply, peekPast_apply]
  dsimp only
  rw [bind_assoc, bind_apply, peekPast_apply]
  dsimp only
  rw [pure_bind]
  split
  on_goal 2 => exact other state spelled trivial
  next ahead =>
  refine Ends.bind ?_ fun decl written => (declared decl written).anywhere
  refine advance_ends spelled (.inr (here ▸ nofun)) fun place upcoming spelled => ?_
  rw [upcoming (here ▸ nofun)] at ahead
  show Ends mode _ _ ((if decide (place.current.kind = .identifier) = true then _ else _ : Parse EnumDecl) _)
  by_cases named : place.current.kind = .identifier
  on_goal 1 =>
    rw [if_pos (decide_eq_true named)]
    refine advance_ends spelled (.inr (named ▸ nofun)) fun further upcoming spelled' => ?_
    rw [upcoming (named ▸ nofun)] at ahead
    have isName : IsOptionalName place.current.text := .inr ((spelled _ List.mem_cons_self).isName named)
    have brace : further.current.kind = .leftBrace := by simpa [named] using ahead
    rw [pure_bind]
    refine (?_ : Meets mode (·.kind = .leftBrace) _ _) _ spelled' brace
  on_goal 2 =>
    rw [if_neg (by simpa using named)]
    have isName : IsOptionalName [] := .inl rfl
    have brace : place.current.kind = .leftBrace := by simpa [named] using ahead
    rw [pure_bind]
    refine (?_ : Meets mode (·.kind = .leftBrace) _ _) _ spelled brace
  all_goals
    refine .advance (fun _ here => here ▸ nofun) fun brace _ _ =>
      Meets.through (fun items => ∀ item ∈ items, item.Written) ?_ fun items all => ?_
    · refine .loop (fun items => ∀ item ∈ items, item.Written) (by simp) fun items all => ?_
      refine .isAt (.pure fun item member => all item (List.mem_reverse.mp member)) ?_
      refine Meets.bind (enumItem_meets levels) fun item written => ?_
      have more : ∀ other ∈ item :: items, other.Written := List.forall_mem_cons.mpr ⟨written, all⟩
      exact .eat (by nofun) (.pure more) (.pure fun other member => more other (List.mem_reverse.mp member))
    · refine .eat (by nofun) (.semicolon (.span fun _ => .pure ⟨isName, all⟩)) ?_
      exact Meets.never (reject_meets _ _ _)

theorem otherDecl_meets (levels : Nat) : Meets .rule wanted (otherDecl levels) Decl.Plain := by
  refine .peek fun token _ _ => atTypeStart_meets.bind fun known _ => ?_
  split
  · exact functionOrVars_meets levels
  · exact rejectHere_meets _ _

theorem skipDecl_meets : Meets .file wanted skipDecl (fun _ => True) := by
  refine .loop (fun _ => True) trivial fun depth _ => .peek fun token _ _ => ?_
  split
  · exact .pure trivial
  · exact .skip fun _ => .pure trivial
  · refine .skip fun _ => ?_
    split
    · exact .pure trivial
    · exact .eat (by nofun) (.pure trivial) (.pure trivial)
  · refine .skip fun _ => ?_
    split <;> exact .pure trivial
  · split
    · exact .pure trivial
    · exact .skip fun _ => .pure trivial
  · exact .skip fun _ => .pure trivial

theorem typedefDecl_meets (levels : Nat) :
    Meets .rule (·.kind = .kwTypedef) (typedefDecl levels) TypedefDecl.Written := by
  refine .advance (fun _ here => here ▸ nofun) fun word _ _ => (typedefTarget_meets levels).bind fun target written => ?_
  refine .name fun name isName => (dimensions_meets levels).bind fun dims writtenDims => ?_
  refine .semicolon <| ?_
  have known : Meets .rule Any (modify fun state => { state with typeNames := name.text :: state.typeNames })
      (fun _ => True) := fun state spelled _ =>
    ⟨{ Steady.refl .rule state with typeNames := List.suffix_cons _ _, spares := .inr (.inr rfl) }, spelled, trivial⟩
  exact known.bind fun _ _ => .span fun _ => .pure ⟨written, isName, writtenDims⟩

theorem topLevel_meets (levels : Nat) :
    Meets .rule (·.kind ≠ .directive) (topLevel levels) (fun found => ∀ decl ∈ found, decl.Plain) := by
  have one {decl : Decl} (plain : decl.Plain) : ∀ other ∈ some decl, other.Plain := by
    rintro _ ⟨⟩
    exact plain
  have other : Meets .rule Any (do return some (← otherDecl levels)) (fun found => ∀ decl ∈ found, decl.Plain) :=
    (otherDecl_meets levels).bind fun decl plain => .pure (one plain)
  have struct : Meets .rule (·.kind.isTag = true) (do
      if ← lookahead structAhead then return some (.struct (← structDecl levels))
      return some (← otherDecl levels)) (fun found => ∀ decl ∈ found, decl.Plain) := by
    refine Meets.bindAt (fun _ token => token.kind.isTag = true) (Meets.lookahead structAhead_meets)
      (fun tag ran => by rwa [lookahead_place ran]) fun known _ => ?_
    split
    · exact (structDecl_meets levels).bind fun decl written => .pure (one ⟨written, rfl⟩)
    · exact other.anywhere
  refine .peek fun token _ noLine => ?_
  split
  next line => exact absurd line noLine
  next word => exact .take (word ▸ nofun) (.pure (by simp))
  next word =>
    exact ((typedefDecl_meets levels).within (by rintro _ rfl; exact word)).bind fun decl written => .pure (one ⟨written, rfl⟩)
  next word => exact struct.within (by rintro _ rfl; rw [word]; rfl)
  next word => exact struct.within (by rintro _ rfl; rw [word]; rfl)
  next word =>
    refine (enumDecl_meets levels (fun decl written => .pure (@one (.enum decl) ⟨written, rfl⟩)) other).within ?_
    rintro _ rfl
    exact word
  next => exact other.anywhere

theorem topLevel_line (levels : Nat) {state : ParseState} (line : state.place.current.kind = .directive) :
    topLevel levels state = (advance >>= fun _ =>
      pure (some (Decl.ofLine state.place.current.text state.place.current.span))) state := by
  have looked : peek state = .ok state.place.current state := rfl
  rw [topLevel, bind_apply, looked]
  dsimp only
  rw [line]

theorem anyDecl_meets (levels : Nat) :
    Meets .file wanted (topLevel levels) (fun found => ∀ decl ∈ found, decl.Written) := by
  intro state spelled _
  by_cases line : state.place.current.kind = .directive
  · rw [topLevel_line levels line]
    refine Meets.skip (fun _ => .pure ?_) state spelled (show Any _ from trivial)
    rintro _ ⟨⟩
    unfold Decl.ofLine
    split <;> trivial
  · exact ((topLevel_meets levels).atTop state spelled line).mono fun found plain decl member => (plain decl member).1

theorem decls_meets (levels : Nat) :
    Meets .file wanted (decls levels) (fun decls => ∀ decl ∈ decls, decl.Written) := by
  refine .loop (fun decls => ∀ decl ∈ decls, decl.Written) (by simp) fun decls all => ?_
  have backwards : ∀ decl ∈ decls.reverse, decl.Written := fun decl member => all decl (List.mem_reverse.mp member)
  refine .isAt (.get fun state => .pure backwards) (.get fun state => ?_)
  split
  · exact .pure backwards
  · refine .get fun state => .recover nofun (anyDecl_meets levels) (fun found written => .pure ?_) ?_
    · exact List.forall_mem_append.mpr ⟨fun decl member => written decl (Option.mem_toList.mp member), all⟩
    · refine skipDecl_meets.bind fun _ _ => .get fun state => ?_
      split
      · exact .skip fun _ => .pure all
      · exact .pure all

end Parse

theorem closeTokens_spelled (file : UInt32) {tokens : List Token} (spelled : ∀ token ∈ tokens, token.Spelled) :
    ∀ token ∈ closeTokens file tokens, token.Spelled := by
  unfold closeTokens
  split
  · split
    · exact spelled
    · exact List.forall_mem_append.mpr ⟨spelled, by simp [Token.Spelled, SpelledAs]⟩
  · simp [Token.Spelled, SpelledAs]

theorem closeTokens_ne_nil (file : UInt32) (tokens : List Token) : closeTokens file tokens ≠ [] := by
  unfold closeTokens
  split
  next last found =>
    split
    · rintro rfl
      cases found
    · simp
  · simp

theorem ParseState.start_spelled (settings : ParseSettings) (file : UInt32) {tokens : List Token}
    (spelled : ∀ token ∈ tokens, token.Spelled) : (ParseState.start settings file tokens).Spelled := by
  have all := closeTokens_spelled file spelled
  have some := closeTokens_ne_nil file tokens
  unfold ParseState.Spelled ParseState.start
  cases closed : closeTokens file tokens with
  | nil => exact absurd closed some
  | cons first rest => rwa [closed] at all

/-- Whatever a file contains, what is parsed from it can be written. -/
theorem parseFile_written (settings : ParseSettings) (file : UInt32) (content : Text) :
    (parseFile settings file content).program.Written := by
  have spelled := ParseState.start_spelled settings file (tokenize_spelled file content)
  have ends := Parse.decls_meets (settings.maxNesting + 1) _ spelled (show Parse.Any _ from trivial)
  unfold parseFile parseTokens
  dsimp only
  split
  next decls after result =>
    rw [result] at ends
    exact ends.2.2
  next => exact fun decl member => nomatch member

end GenericC
