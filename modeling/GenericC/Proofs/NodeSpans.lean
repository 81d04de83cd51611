import GenericC.Proofs.SpanLogic

/-! Where the trees of a program stand. Every rule of the grammar builds its tree from the tokens between two places, the
tree covers just these bytes, and whatever is below it covers some of them. -/

namespace GenericC

variable {label : NodeLabel} {children : List Node}

def Decl.closer : Decl → TokenKind
  | .function decl => if decl.body.isSome then .rightBrace else .semicolon
  | .inclusion .. | .directive .. => .directive
  | _ => .semicolon

def TypedefTarget.toNodes : TypedefTarget → List Node
  | .type _ => []
  | .body decl => [decl.toNode]

theorem Expr.toNodes_eq_map (exprs : List Expr) : Expr.toNodes exprs = exprs.map Expr.toNode := by
  induction exprs with
  | nil => rfl
  | cons first rest ih => rw [Expr.toNodes, List.map_cons, ih]

theorem Stmt.toNodes_eq_map (stmts : List Stmt) : Stmt.toNodes stmts = stmts.map Stmt.toNode := by
  induction stmts with
  | nil => rfl
  | cons first rest ih => rw [Stmt.toNodes, List.map_cons, ih]

theorem Dimensions.toNodes_eq_flatMap (dims : Dimensions) : dims.toNodes = dims.flatMap fun dim => dim.toList.map Expr.toNode := by
  unfold Dimensions.toNodes
  induction dims with
  | nil => rfl
  | cons dim rest ih =>
    cases dim with
    | none | some size => simpa using ih

section
-- The equations of both are derived here once, since many of the proofs below ask for them.
attribute [local simp] Expr.toNode Stmt.toNode

theorem Expr.span_toNode (expr : Expr) : expr.toNode.label.span = expr.span := by
  cases expr <;> rfl

end

namespace Place

variable {file : UInt32} {size : Nat} {origin first second left right last : Place} {tree : Node}

structure Builds (file : UInt32) (first second : Place) (tree : Node) : Prop where
  span : first.Fills file second tree.label.span
  nested : tree.Nested

structure Holds (file : UInt32) (first second : Place) (tree : Node) : Prop where
  span : first.Covers file second tree.label.span
  nested : tree.Nested

def HoldsAll (file : UInt32) (first second : Place) (trees : List Node) : Prop :=
  ∀ tree ∈ trees, first.Holds file second tree

theorem Builds.holds (builds : first.Builds file second tree) (passes : first.Passes file size second) :
    first.HoldsAll file second [tree] :=
  List.forall_mem_singleton.mpr ⟨builds.span.covers passes, builds.nested⟩

theorem HoldsAll.nil : first.HoldsAll file second [] := List.forall_mem_nil _

theorem HoldsAll.widen {trees : List Node} (holds : first.HoldsAll file second trees)
    (early : origin.Passes file size first) (late : second.Passes file size last) : origin.HoldsAll file last trees :=
  fun tree member => ⟨(holds tree member).span.widen early late, (holds tree member).nested⟩

theorem builds_node (fills : first.Fills file second label.span) (passes : first.Passes file size second)
    (below : first.HoldsAll file second children) : first.Builds file second (.node label children) :=
  ⟨fills, .node (fills.covers passes).some (fun child member => fills.contains (below child member).span)
    fun child member => (below child member).nested⟩

end Place

namespace Parse

variable {α β : Type} {room : Nat} {file : UInt32} {size : Nat} {origin place last : Place}

def Yields (file : UInt32) (size : Nat) (rule : Parse α) (tree : α → Node) : Prop :=
  ∀ place, At file size place rule fun value after => place.Builds file after (tree value)

def EndsWith (file : UInt32) (size : Nat) (kind : TokenKind) (first second : Place) : Prop :=
  ∃ closing, first.Passes file size closing ∧ closing.current.kind = kind ∧ Took file size closing second

/-- What is known of the way from one place to another: whether a token was taken, and which trees were read, in order. -/
structure Since (file : UInt32) (size : Nat) (origin : Place) (moved : Bool) (held : List Node) (place : Place) : Prop where
  passes : origin.Passes file size place
  taken : moved = true → origin.taken < place.taken
  holds : origin.HoldsAll file place held

theorem At.since {rule : Parse α} {good : α → Place → Prop}
    (rest : Since file size place false [] place → At file size place rule good) : At file size place rule good :=
  fun _ _ _ ended same sorted => rest ⟨.refl sorted, nofun, .nil⟩ ended same sorted

namespace Since

variable {moved : Bool} {held trees : List Node} {tree whole : Node} {front back : Span} {good : β → Place → Prop}

theorem onward (since : Since file size origin moved held place) (further : place.Passes file size last) :
    Since file size origin moved held last where
  passes := since.passes.trans further
  taken := fun before => Nat.lt_of_lt_of_le (since.taken before) further.taken_le
  holds := since.holds.widen (.refl since.passes.start) further

theorem took (since : Since file size origin moved held place) (took : Took file size place last) :
    Since file size origin true held last :=
  { since.onward took.toPasses with taken := fun _ => Nat.lt_of_le_of_lt since.passes.taken_le took.taken }

theorem beside (since : Since file size origin moved held place) (more : origin.HoldsAll file place trees) :
    Since file size origin moved (held ++ trees) place :=
  { since with holds := List.forall_mem_append.mpr ⟨since.holds, more⟩ }

theorem add (since : Since file size origin moved held place) (further : place.Passes file size last)
    (more : place.HoldsAll file last trees) : Since file size origin moved (held ++ trees) last :=
  (since.onward further).beside (more.widen since.passes (.refl further.sorted))

theorem addOne (since : Since file size origin moved held place) (further : place.Passes file size last)
    (built : place.Builds file last tree) : Since file size origin true (held ++ [tree]) last :=
  { since.add further (built.holds further) with
    taken := fun _ => Nat.lt_of_le_of_lt since.passes.taken_le built.span.taken }

theorem loose (since : Since file size origin moved held place) : Since file size origin false held place :=
  { since with taken := nofun }

/-- What is collected in a loop stands there with the last one first. -/
theorem cons {item : α} {items : List α} {tree : α → Node}
    (since : Since file size origin moved (items.reverse.map tree ++ [tree item]) place) :
    Since file size origin moved ((item :: items).reverse.map tree) place := by
  simpa using since

theorem consAll {item : α} {items : List α} {trees : α → List Node}
    (since : Since file size origin moved (items.reverse.flatMap trees ++ trees item) place) :
    Since file size origin moved ((item :: items).reverse.flatMap trees) place := by
  simpa using since

theorem builds (since : Since file size origin moved held place) (begins : origin.Begins file place front)
    (ends : origin.Ends file place back) (span : label.span = front.cover back) (node : whole = .node label held) :
    origin.Builds file place whole :=
  node ▸ Place.builds_node (span ▸ begins.cover ends) since.passes since.holds

theorem node (since : Since file size origin true held place) (span : label.span = origin.current.span.cover place.last)
    (node : whole = .node label held) : origin.Builds file place whole :=
  since.builds (since.passes.begins (since.taken rfl)) (since.passes.ends (since.taken rfl)) span node

section
variable {rule : Parse α} {next : α → Parse β}

theorem skip {view : α → γ} (since : Since file size origin moved held place) (composed : Composed true room view rule)
    (rest : ∀ value last, Since file size origin moved held last → At file size last (next value) good) :
    At file size place (rule >>= next) good :=
  .skip composed fun value last further => rest value last (since.onward further)

theorem one {tree : α → Node} (since : Since file size origin moved held place) (rules : Yields file size rule tree)
    (rest : ∀ value last, Since file size origin true (held ++ [tree value]) last → place.Builds file last (tree value) →
      At file size last (next value) good) : At file size place (rule >>= next) good :=
  (rules place).bind fun value last further built => rest value last (since.addOne further built) built

theorem all {trees : α → List Node} (since : Since file size origin moved held place)
    (early : At file size place rule fun value after => place.HoldsAll file after (trees value))
    (rest : ∀ value last, Since file size origin moved (held ++ trees value) last → At file size last (next value) good) :
    At file size place (rule >>= next) good :=
  early.bind fun value last further more => rest value last (since.add further more)

end

theorem word {next : Token → Parse β} (since : Since file size origin moved held place)
    (rest : ∀ last, Since file size origin moved held last → At file size last (next place.current) good) :
    At file size place (Parse.advance >>= next) good :=
  .word fun last further => rest last (since.onward further)

theorem eat {kind : TokenKind} {next : Bool → Parse β} (since : Since file size origin moved held place)
    (more : kind ≠ .endOfFile)
    (yes : ∀ last, Since file size origin true held last → EndsWith file size kind origin last →
      At file size last (next true) good) (no : At file size place (next false) good) :
    At file size place (Parse.eat kind >>= next) good :=
  .eat more (fun last here took => yes last (since.took took) ⟨place, since.passes, here, took⟩) fun _ => no

theorem expect {kind : TokenKind} {code : DiagnosticCode} {message : Text} {next : Token → Parse β}
    (since : Since file size origin moved held place) (more : kind ≠ .endOfFile)
    (rest : ∀ last, Since file size origin true held last → At file size last (next place.current) good) :
    At file size place (Parse.expect kind code message >>= next) good :=
  .expect more fun last _ took => rest last (since.took took)

theorem expectSemicolon {owner : Text} {next : Unit → Parse β} (since : Since file size origin moved held place)
    (rest : ∀ last, Since file size origin true held last → EndsWith file size .semicolon origin last →
      At file size last (next ()) good) : At file size place (Parse.expectSemicolon owner >>= next) good :=
  .expectSemicolon fun last here took => rest last (since.took took) ⟨place, since.passes, here, took⟩

theorem item {rule : Parse α} {tree : α → Node} {items : List α}
    (since : Since file size origin false (items.reverse.map tree) place) (rules : Yields file size rule tree) :
    At file size place (do
      let item ← rule
      if ← Parse.eat .comma then return .again (item :: items)
      return .done (item :: items).reverse)
      (At.Behind (fun items after => Since file size origin false (items.reverse.map tree) after)
        fun items after => Since file size origin false (items.map tree) after) :=
  since.one rules fun _ _ since _ => since.eat (by nofun) (fun _ since _ => .pure since.cons.loose) (.pure since.cons.loose)

end Since

theorem At.whileAt {starts : TokenKind → Bool} {rule : Parse α} {trees : α → List Node}
    (rules : ∀ middle, At file size middle rule fun value after => middle.HoldsAll file after (trees value)) :
    At file size place (Parse.whileAt starts rule) fun found after => place.HoldsAll file after (found.flatMap trees) := by
  refine .since fun since => .loop (fun found middle => Since file size place false (found.reverse.flatMap trees) middle) since
    fun found middle _ since => .peek ?_
  split
  · exact since.all (rules middle) fun _ _ since => .pure since.consAll
  · exact .pure since.holds

theorem At.separated {rule : Parse α} {tree : α → Node} (rules : Yields file size rule tree) :
    At file size place (Parse.separated rule) fun found after => place.HoldsAll file after (found.map tree) :=
  .since fun since => .mono (.loop (fun found middle => Since file size place false (found.reverse.map tree) middle) since
    fun _ _ _ since => since.item rules) fun _ _ _ since => since.holds

theorem Onward.at {wanted : Token → Prop} {view : α → γ} {rule : Parse α} (onward : TakesOne true room wanted view rule)
    (current : wanted place.current) : At file size place rule fun _ after => Since file size place true [] after := by
  rintro state value after ended rfl sorted
  have passes : state.place.Passes file size after.place := ⟨sorted, (onward.composed.moved ended).place⟩
  exact ⟨passes, passes, fun _ => onward.takes current ended trivial, .nil⟩

section
variable {operand : Nat → Parse Expr} {type : Parse TypeExpr} {unary initList : Parse Expr}

namespace Since

variable {moved : Bool} {held : List Node} {left right : Place} {front back : Expr} {whole : Node}

theorem first (passes : origin.Passes file size place) (built : origin.Builds file place front.toNode) :
    Since file size origin true [front.toNode] place :=
  ⟨passes, fun _ => built.span.taken, built.holds passes⟩

theorem begins (since : Since file size origin moved held place) (built : origin.Builds file left front.toNode)
    (first : held.head? = some front.toNode) : origin.Begins file place front.span := by
  have within := (since.holds _ (List.mem_of_head? first)).span
  rw [← Expr.span_toNode]
  exact ⟨within.taken, within.file, built.span.low, within.high⟩

theorem ends (since : Since file size origin moved (held ++ [back.toNode]) place)
    (built : right.Builds file place back.toNode) : origin.Ends file place back.span := by
  have within := (since.holds _ (List.mem_append_right _ List.mem_cons_self)).span
  rw [← Expr.span_toNode]
  exact ⟨within.file, within.low, built.span.high⟩

theorem buildsFrom (since : Since file size origin true held place) (built : origin.Builds file left front.toNode)
    (first : held.head? = some front.toNode) (span : label.span = front.span.cover place.last)
    (node : whole = .node label held) : origin.Builds file place whole :=
  since.builds (since.begins built first) (since.passes.ends (since.taken rfl)) span node

theorem buildsTo (since : Since file size origin true (held ++ [back.toNode]) place)
    (built : right.Builds file place back.toNode) (span : label.span = origin.current.span.cover back.span)
    (node : whole = .node label (held ++ [back.toNode])) : origin.Builds file place whole :=
  since.builds (since.passes.begins (since.taken rfl)) (since.ends built) span node

end Since

theorem operators_at (operands : ∀ least, Yields file size (operand least) Expr.toNode) (least : Nat) {first : Expr}
    (passes : origin.Passes file size place) (built : origin.Builds file place first.toNode) :
    At file size place (operators operand least first) fun found after => origin.Builds file after found.toNode := by
  refine .loop (fun left middle => origin.Builds file middle left.toNode) built fun left middle further built => .peek ?_
  have since := Since.first (passes.trans further) built
  split
  · exact .pure built
  split
  · exact .pure built
  refine since.word fun _ since => ?_
  split
  · refine since.one (operands _) fun yes _ since _ => since.expect (by nofun) fun _ since => ?_
    refine since.one (operands _) fun no _ since last => .pure ?_
    exact since.builds (since.begins built rfl) (since.ends last) rfl (Expr.toNode.eq_def _)
  · refine since.one (operands _) fun right _ since last => .pure ?_
    exact since.builds (since.begins built rfl) (since.ends last) rfl (Expr.toNode.eq_def _)

theorem callArgs_at (operands : ∀ least, Yields file size (operand least) Expr.toNode) {callee : Expr} {types : List TypeExpr}
    {left : Place} (since : Since file size origin true [callee.toNode] place) (built : origin.Builds file left callee.toNode) :
    At file size place (callArgs operand callee types) fun found after => origin.Builds file after found.toNode := by
  have closed {args : List Expr} {last : Place} (since : Since file size origin true (callee.toNode :: args.map Expr.toNode) last) :
      origin.Builds file last (Expr.call callee types args (callee.span.cover last.last)).toNode := by
    rw [Expr.toNode, Expr.toNodes_eq_map]
    exact since.buildsFrom built rfl rfl rfl
  refine since.word fun _ since => .isAt (fun _ => ?_) fun _ => ?_
  · exact since.eat (by nofun) (fun _ since _ => .spanFrom (.pure (closed since))) (.peek at_reject)
  · refine since.all (.separated (operands _)) fun args _ since => ?_
    exact since.eat (by nofun) (fun _ since _ => .spanFrom (.pure (closed since))) (.peek at_reject)

theorem primary_at (operands : ∀ least, Yields file size (operand least) Expr.toNode) (types : Composed true room TypeExpr.bare type) :
    At file size place (primary operand type) fun found after => place.Builds file after found.toNode := by
  have leaf {whole : Expr} {label : NodeLabel} {behind : Place} (took : Took file size place behind)
      (span : label.span = place.current.span) (tree : whole.toNode = .node label []) :
      place.Builds file behind whole.toNode :=
    tree ▸ Place.builds_node (span ▸ took.fills) took.toPasses .nil
  refine .peek ?_
  split
  next kind =>
    refine .advance (kind ▸ nofun) fun behind took => ?_
    have name := leaf took rfl (Expr.toNode.eq_def (.name place.current.text _))
    refine .isAt (fun _ => ?_) fun _ => .pure name
    exact .attempt (callTypeArgs_composed types).at
      (fun _ _ passes _ => callArgs_at operands ((Since.first took.toPasses name).onward passes) name) (.pure name)
  next kind => exact .advance (kind ▸ nofun) fun behind took => .pure (leaf took rfl (Expr.toNode.eq_def _))
  next kind => exact .advance (kind ▸ nofun) fun behind took => .pure (leaf took rfl (Expr.toNode.eq_def _))
  next kind => exact .advance (kind ▸ nofun) fun behind took => .pure (leaf took rfl (Expr.toNode.eq_def _))
  next kind =>
    have parts := @Onward.words true room (· = .string) (by simp)
    exact (parts.at (decide_eq_true kind)).bind fun _ _ _ since => .spanFrom (.pure (since.node rfl (Expr.toNode.eq_def _)))
  next =>
    refine .since fun since => since.word fun _ since => since.one (operands _) fun inner _ since _ => ?_
    exact since.eat (by nofun) (fun _ since _ => .spanFrom (.pure (since.node rfl (Expr.toNode.eq_def _)))) at_reject
  next => exact at_rejectHere

theorem trailers_at (operands : ∀ least, Yields file size (operand least) Expr.toNode) {first : Expr}
    (passes : origin.Passes file size place) (built : origin.Builds file place first.toNode) :
    At file size place (trailers operand first) fun found after => origin.Builds file after found.toNode := by
  refine .loop (fun object middle => origin.Builds file middle object.toNode) built fun object middle further built =>
    .peek ?_
  have since := Since.first (passes.trans further) built
  -- The object and the last token that belongs to it.
  have upTo {whole : Expr} {label : NodeLabel} {inner last : Place} (since : Since file size origin true [object.toNode] inner)
      (took : Took file size inner last) (span : label.span = object.span.cover inner.current.span)
      (tree : whole.toNode = .node label [object.toNode]) : origin.Builds file last whole.toNode :=
    (since.took took).buildsFrom built rfl (took.last ▸ span) tree
  split
  next => exact (callArgs_at operands since built).bind fun _ _ _ built => .pure built
  next =>
    refine since.word fun _ since => since.one (operands _) fun position _ since _ => ?_
    exact since.eat (by nofun) (fun _ since _ => .spanFrom (.pure (since.buildsFrom built rfl rfl (Expr.toNode.eq_def _))))
      at_rejectHere
  next => exact since.word fun _ since => .expectName fun _ took => .pure (upTo since took rfl (Expr.toNode.eq_def _))
  next => exact since.word fun _ since => .expectName fun _ took => .pure (upTo since took rfl (Expr.toNode.eq_def _))
  next kind => exact .advance (kind ▸ nofun) fun _ took => .pure (upTo since took rfl (Expr.toNode.eq_def _))
  next kind => exact .advance (kind ▸ nofun) fun _ took => .pure (upTo since took rfl (Expr.toNode.eq_def _))
  next => exact .pure built

theorem sizeof_at (here : place.current.kind = .kwSizeof) (unaries : Yields file size unary Expr.toNode)
    (types : Composed true room TypeExpr.bare type) :
    At file size place (sizeof unary type) fun found after => place.Builds file after found.toNode := by
  refine .since fun since => .advance (here ▸ nofun) fun behind took => ?_
  have since := since.took took
  have ofExpr : At file size behind (do
      let operand ← unary
      return Expr.sizeofExpr operand (place.current.span.cover operand.span))
      fun found after => place.Builds file after found.toNode :=
    since.one unaries fun operand _ since built => .pure (since.buildsTo built rfl (Expr.toNode.eq_def _))
  refine .isAt (fun _ => ?_) fun _ => ofExpr
  refine .attempt (parenType_composed types).at (fun type last passes _ => .spanFrom (.pure ?_)) ofExpr
  exact (since.onward passes).node rfl (Expr.toNode.eq_def _)

theorem unaryBody_at (operands : ∀ least, Yields file size (operand least) Expr.toNode)
    (unaries : Yields file size unary Expr.toNode) (lists : Yields file size initList Expr.toNode)
    (types : Composed true room TypeExpr.bare type) :
    At file size place (unaryBody operand unary initList type) fun found after => place.Builds file after found.toNode := by
  have plain : At file size place (do trailers operand (← primary operand type))
      fun found after => place.Builds file after found.toNode :=
    (primary_at operands types).bind fun first behind passes built => trailers_at operands passes built
  refine .since fun since => .peek ?_
  split
  · exact since.word fun _ since => since.one unaries fun inner _ since built =>
      .pure (since.buildsTo built rfl (Expr.toNode.eq_def _))
  split
  next kind => exact sizeof_at kind unaries types
  split
  · refine .attempt (parenType_composed types).at (fun type middle passes _ => ?_) plain
    have castOperand : Yields file size (castOperand unary initList) Expr.toNode := fun behind =>
      .isAt (fun _ => lists behind) fun _ => unaries behind
    exact (since.onward passes).one castOperand fun inner _ since built =>
      .pure (since.buildsTo built rfl (Expr.toNode.eq_def _))
  · exact plain

theorem initListBody_at {value : Parse Expr} (values : Yields file size value Expr.toNode)
    (lists : Yields file size initList Expr.toNode) :
    At file size place (initListBody value initList) fun found after => place.Builds file after found.toNode := by
  refine .since fun since => since.word fun _ since => ?_
  refine .through (fun elems after => Since file size place false (elems.map Expr.toNode) after) ?_ fun elems _ _ since => ?_
  · refine .loop (fun elems middle => Since file size place false (elems.reverse.map Expr.toNode) middle) since
      fun elems middle _ since => ?_
    exact .isAt (fun _ => .pure since) fun _ => .isAt (fun _ => since.item lists) fun _ => since.item values
  · refine since.eat (by nofun) (fun _ since _ => .spanFrom (.pure ?_)) at_reject
    rw [Expr.toNode, Expr.toNodes_eq_map]
    exact since.node rfl rfl

end

theorem exprs_yield (levels : Nat) :
    (∀ least, Yields file size (binary levels least) Expr.toNode) ∧ Yields file size (unary levels) Expr.toNode ∧
      Yields file size (initList levels) Expr.toNode := by
  induction levels with
  | zero => exact ⟨fun _ _ => at_throw, fun _ => at_throw, fun _ => at_throw⟩
  | succ levels ih =>
    obtain ⟨operands, unaries, lists⟩ := ih
    refine ⟨fun least place => ?_, fun place => ?_, fun place => ?_⟩
    · exact .nested ((unaries place).bind fun first behind passes built => operators_at operands least passes built)
    · exact .nested (unaryBody_at operands unaries lists (typeExpr_composed levels))
    · exact .nested (initListBody_at (operands _) lists)

theorem expr_yields (levels : Nat) : Yields file size (expr levels) Expr.toNode := (exprs_yield levels).1 _

theorem value_yields (levels : Nat) : Yields file size (value levels) Expr.toNode := (exprs_yield levels).1 _

theorem initializer_yields (levels : Nat) : Yields file size (initializer levels) Expr.toNode := fun place =>
  .isAt (fun _ => (exprs_yield levels).2.2 place) fun _ => value_yields levels place

theorem optional_at {rule : Parse Expr} (rules : Yields file size rule Expr.toNode) :
    At file size place (some <$> rule) fun value after => place.HoldsAll file after (Expr.optionalNodes value) :=
  .map ((rules place).mono fun _ _ passes built => built.holds passes)

theorem dimensions_at (levels : Nat) :
    At file size place (dimensions levels) fun dims after => place.HoldsAll file after dims.toNodes := by
  simp only [Dimensions.toNodes_eq_flatMap]
  refine .whileAt fun middle => .since fun since => since.word fun _ since => since.eat (by nofun) (fun _ _ _ => .pure .nil) ?_
  refine since.one (expr_yields levels) fun size _ since _ => ?_
  exact since.eat (by nofun) (fun _ since _ => .pure since.holds) at_reject

theorem declarator_at (levels : Nat) (type : TypeExpr) {named : Place} (took : Took file size named place) :
    At file size place (declarator levels type named.current) fun found after => named.Builds file after found.toNode := by
  have since : Since file size named true [] place := ⟨took.toPasses, fun _ => took.taken, .nil⟩
  refine since.all (dimensions_at levels) fun dims _ since => since.eat (by nofun) (fun _ since _ => ?_) (.given ?_)
  · exact since.all (optional_at (initializer_yields levels)) fun init _ since => .spanFrom (.pure (since.node rfl rfl))
  · exact .spanFrom (.pure ((since.beside .nil).node rfl rfl))

theorem declarators_at (levels : Nat) (type : TypeExpr) {moved : Bool} {named : Place}
    (since : Since file size origin moved [] named) (took : Took file size named place) :
    At file size place (declarators levels type named.current)
      fun found after => Since file size origin true (found.map Declarator.toNode) after := by
  refine .loop (fun state middle => ∃ named, Since file size origin false (state.2.2.reverse.map Declarator.toNode) named ∧
    Took file size named middle ∧ state.2.1 = named.current) ⟨named, since.loose, took, rfl⟩ ?_
  rintro ⟨type, _, found⟩ middle _ ⟨named, since, took, rfl⟩
  refine (declarator_at levels type took).bind fun declarator after passes built => ?_
  have since := (since.addOne (took.toPasses.trans passes) built).cons
  refine since.eat (by nofun) (fun _ since _ => ?_) (.pure since)
  exact since.skip (@nextType_composed true 0 _ _ rfl) fun type next since => .expectName fun _ took =>
    .pure ⟨next, since.loose, took, rfl⟩

theorem localVars_yields (levels : Nat) : Yields file size (localVars levels) VarDecl.toNode := by
  refine fun place => .since fun since => .peek (since.skip (@storage_composed true 0) fun storage _ since => ?_)
  refine since.skip (typeExpr_composed levels) fun type named since => .expectName fun _ took => ?_
  refine (declarators_at levels type since took).bind fun vars _ _ since => since.expectSemicolon fun _ since _ => ?_
  exact .spanFrom (.pure (since.node rfl rfl))

theorem atTypeStart_at : At file size place atTypeStart fun _ after => after = place := by
  refine .peek ?_
  split
  · exact .pure rfl
  · split
    · exact .read fun _ _ => .pure rfl
    · exact .pure rfl

theorem atLocalVars_at (levels : Nat) : At file size place (atLocalVars levels) fun _ after => after = place := by
  refine .peek ?_
  split
  · exact .pure rfl
  · split
    · exact .lookahead
    · exact atTypeStart_at

theorem condition_at (levels : Nat) (owner : Text) :
    At file size place (condition levels owner) fun test after => place.HoldsAll file after [test.toNode] := by
  refine .since fun since => since.expect (by nofun) fun _ since => since.one (expr_yields levels) fun test _ since _ => ?_
  exact since.eat (by nofun) (fun _ since _ => .pure since.holds) at_reject

theorem exprBefore_at (levels : Nat) (follower : TokenKind) :
    At file size place (exprBefore levels follower) fun value after => place.HoldsAll file after (Expr.optionalNodes value) :=
  .isAt (fun _ => .pure .nil) fun _ => optional_at (expr_yields levels)

section
variable {levels : Nat} {stmt : Parse Stmt}

theorem block_at (composed : Composed true room Stmt.bare stmt) (stmts : Yields file size stmt Stmt.toNode) :
    At file size place (block stmt)
      fun found after => place.Builds file after found.toStmt.toNode ∧ EndsWith file size .rightBrace place after := by
  refine .since fun since => since.expect (by nofun) fun behind since => ?_
  refine .through (fun found after => Since file size place true (found.map Stmt.toNode) after ∧
    EndsWith file size .rightBrace place after) ?_ fun found last _ ⟨since, ends⟩ => .spanFrom (.pure ⟨?_, ends⟩)
  · refine .loop (fun found middle => Since file size place true (found.reverse.map Stmt.toNode) middle) since
      fun found middle _ since => .isAt (fun here => .advance (here ▸ nofun) fun last took => .pure ?_) fun _ => ?_
    · exact ⟨since.took took, middle, since.passes, here, took⟩
    · refine .read fun state _ => .stopIf at_throw fun _ => .isAt (fun _ => .never at_reject) fun _ => ?_
      refine .recover composed (stmts middle) (fun stmt after further built => .pure (since.addOne further built).cons)
        fun after further => .read fun state _ => .stopIf at_throw fun _ => ?_
      exact (since.onward further).skip (@skipStmt_onward true 0).composed fun _ _ since => .pure since
  · show place.Builds file last (Stmt.block found _).toNode
    rw [Stmt.toNode, Stmt.toNodes_eq_map]
    exact since.node rfl rfl

theorem ifStmt_at (stmts : Yields file size stmt Stmt.toNode) :
    At file size place (ifStmt levels stmt) fun found after => place.Builds file after found.toNode := by
  refine .since fun since => since.word fun _ since => since.all (condition_at levels _) fun test _ since => ?_
  refine since.one stmts fun yes _ since _ => since.eat (by nofun) (fun _ since _ => ?_) ?_
  · exact since.one stmts fun no _ since _ => .spanFrom (.pure (since.node rfl (Stmt.toNode.eq_def _)))
  · exact .spanFrom (.pure (since.node rfl (Stmt.toNode.eq_def _)))

theorem forInit_at : At file size place (forInit levels) fun init after => place.HoldsAll file after init.toNodes := by
  refine .eat (by nofun) (fun _ _ _ => .pure .nil) fun _ => (atLocalVars_at levels).bind fun vars _ _ same => ?_
  subst same
  split
  · exact (localVars_yields levels _).bind fun decl after passes built => .pure (built.holds passes)
  · refine .since fun since => .peek (since.one (expr_yields levels) fun value _ since _ => ?_)
    exact since.expectSemicolon fun _ since _ => .spanFrom (.pure ((since.node rfl rfl).holds since.passes))

theorem forStmt_at (stmts : Yields file size stmt Stmt.toNode) :
    At file size place (forStmt levels stmt) fun found after => place.Builds file after found.toNode := by
  refine .since fun since => since.word fun _ since => since.expect (by nofun) fun _ since => ?_
  refine since.all forInit_at fun init _ since => since.all (exprBefore_at levels _) fun test _ since => ?_
  refine since.expectSemicolon fun _ since _ => since.all (exprBefore_at levels _) fun post _ since => ?_
  refine since.eat (by nofun) (fun _ since _ => since.one stmts fun body _ since _ => ?_) (.never at_reject)
  exact .spanFrom (.pure (since.node rfl (Stmt.toNode.eq_def _)))

theorem stmtBody_at (composed : Composed true levels Stmt.bare stmt) (stmts : Yields file size stmt Stmt.toNode) :
    At file size place (stmtBody levels stmt) fun found after => place.Builds file after found.toNode := by
  refine .since fun since => .peek ?_
  split
  next => exact (block_at composed stmts).bind fun block after passes built => .pure built.1
  next kind =>
    refine .advance (kind ▸ nofun) fun last took => .pure ?_
    rw [Stmt.toNode]
    exact Place.builds_node took.fills took.toPasses .nil
  next =>
    refine since.word fun _ since => since.all (exprBefore_at levels _) fun value _ since => ?_
    exact since.expectSemicolon fun _ since _ => .spanFrom (.pure (since.node rfl (Stmt.toNode.eq_def _)))
  next =>
    exact since.word fun _ since => since.expectSemicolon fun _ since _ =>
      .spanFrom (.pure (since.node rfl (Stmt.toNode.eq_def _)))
  next =>
    exact since.word fun _ since => since.expectSemicolon fun _ since _ =>
      .spanFrom (.pure (since.node rfl (Stmt.toNode.eq_def _)))
  next => exact ifStmt_at stmts
  next =>
    refine since.word fun _ since => since.all (condition_at levels _) fun test _ since => ?_
    exact since.one stmts fun body _ since _ => .spanFrom (.pure (since.node rfl (Stmt.toNode.eq_def _)))
  next =>
    refine since.word fun _ since => since.one stmts fun body _ since _ => since.expect (by nofun) fun _ since => ?_
    refine since.all (condition_at levels _) fun test _ since => since.expectSemicolon fun _ since _ => ?_
    exact .spanFrom (.pure (since.node rfl (Stmt.toNode.eq_def _)))
  next => exact forStmt_at stmts
  next =>
    refine (atLocalVars_at levels).bind fun vars _ _ same => ?_
    subst same
    split
    · exact (localVars_yields levels _).bind fun decl after passes built => .pure built
    · refine since.one (expr_yields levels) fun value _ since _ => since.expectSemicolon fun _ since _ => ?_
      exact .spanFrom (.pure (since.node rfl (Stmt.toNode.eq_def _)))

end

theorem stmt_yields (levels : Nat) : Yields file size (stmt levels) Stmt.toNode := by
  induction levels with
  | zero => exact fun _ => at_throw
  | succ levels ih => exact fun place => .nested (stmtBody_at (stmt_onward levels).composed ih)

section
variable {moved : Bool}

/-- A declaration over all bytes between two places, the last token of which closes it. -/
structure Declares (file : UInt32) (size : Nat) (first second : Place) (decl : Decl) : Prop where
  builds : first.Builds file second decl.toNode
  ends : EndsWith file size decl.closer first second

theorem fieldLine_at (levels : Nat) :
    At file size place (fieldLine levels) fun fields after => place.HoldsAll file after (fields.map Field.toNode) := by
  refine .since fun since => .peek (since.skip (typeExpr_composed levels) fun type _ since => ?_)
  refine .through (fun fields after => Since file size place true (fields.map Field.toNode) after) ?_ fun fields _ _ since =>
    since.expectSemicolon fun _ since _ => .pure since.holds
  refine .loop (fun state middle => Since file size place false (state.2.reverse.map Field.toNode) middle) since ?_
  rintro ⟨type, found⟩ middle _ since
  refine .expectName fun behind took => (dimensions_at levels).bind fun dims last further sizes => .spanFrom ?_
  -- All fields of a line begin where the line does.
  have since := since.took took
  have bare : Since file size place true [] behind := { since with holds := .nil }
  have field : place.Builds file last (Field.toNode
      { type, name := middle.current.text, dims, loc := place.current.span.cover last.last }) :=
    (bare.add further sizes).node rfl rfl
  have since := ((since.onward further).beside (field.holds (bare.onward further).passes)).cons
  refine since.eat (by nofun) (fun _ since _ => ?_) (.pure since)
  exact since.skip (@nextType_composed true 0 _ _ rfl) fun type _ since => .pure since.loose

theorem fieldBlock_at (levels : Nat) :
    At file size place (fieldBlock levels) fun fields after => Since file size place true (fields.map Field.toNode) after := by
  refine .since fun since => since.expect (by nofun) fun _ since => ?_
  refine .loop (fun fields middle => Since file size place true (fields.map Field.toNode) middle) since fun fields middle _ since => ?_
  refine .isAt (fun _ => since.word fun _ since => .pure since) fun _ => .isAt (fun _ => .never at_reject) fun _ => ?_
  refine since.all (fieldLine_at levels) fun line last since => .pure ?_
  show Since file size place true ((fields ++ line).map Field.toNode) last
  rw [List.map_append]
  exact since

theorem structRest_at (levels : Nat) {word : Place} (decl : StructDecl) (plain : decl.fields = none)
    (since : Since file size word moved [] place) {owner : Text} :
    At file size place (do
      if ← eat .semicolon then return { decl with loc := ← spanFrom word.current.span }
      let fields ← withTypeParams (decl.typeParams.map (·.name)) (fieldBlock levels)
      expectSemicolon owner
      return { decl with fields := some fields, loc := ← spanFrom word.current.span } : Parse StructDecl)
      fun found after => Declares file size word after (.struct found) := by
  cases decl
  cases plain
  refine since.eat (by nofun) (fun _ since ends => .spanFrom (.pure ⟨since.node rfl rfl, ends⟩)) ?_
  refine (At.withTypeParams (fieldBlock_at levels)).bind fun fields _ further block => ?_
  exact (since.add further block.holds).expectSemicolon fun _ since ends => .spanFrom (.pure ⟨since.node rfl rfl, ends⟩)

theorem structDecl_at (levels : Nat) :
    At file size place (structDecl levels) fun decl after => Declares file size place after (.struct decl) := by
  refine .since fun since => since.word fun _ since => ?_
  have rest (decl : StructDecl) (plain : decl.fields = none) {middle : Place} (since : Since file size place false [] middle) :
      At file size middle (do
        let decl ← if ← isAt .less then pure { decl with typeParams := ← typeParams } else pure decl
        if ← eat .semicolon then return { decl with loc := ← spanFrom place.current.span }
        let fields ← withTypeParams (decl.typeParams.map (·.name)) (fieldBlock levels)
        expectSemicolon (Text.concat [place.current.text, " declaration"])
        return { decl with fields := some fields, loc := ← spanFrom place.current.span } : Parse StructDecl)
        fun found after => Declares file size place after (.struct found) := by
    refine .isAt (fun _ => since.skip (@typeParams_composed true 0) fun params _ since => .given ?_) fun _ => .given ?_
    · exact structRest_at levels { decl with typeParams := params } plain since
    · exact structRest_at levels decl plain since
  refine .isAt (fun _ => since.word fun _ since => .given (rest _ rfl since)) fun _ => .isAt (fun _ => ?_) fun _ => ?_
  · exact .never at_rejectHere
  · exact .given (rest _ rfl since)

theorem param_yields (levels : Nat) : Yields file size (param levels) Param.toNode := by
  intro place
  have rest (type : TypeExpr) (name : Text) {middle : Place} (since : Since file size place true [] middle) :
      At file size middle (do
        let dims ← dimensions levels
        return { type, name, dims, loc := ← spanFrom place.current.span } : Parse Param)
        fun param after => place.Builds file after param.toNode :=
    since.all (dimensions_at levels) fun dims _ since => .spanFrom (.pure (since.node rfl rfl))
  refine .peek (((typeExpr_onward levels).at trivial).bind fun type _ _ since => ?_)
  exact .isAt (fun _ => since.word fun _ since => .given (rest type _ since)) fun _ => .given (rest type _ since)

theorem params_at (levels : Nat) :
    At file size place (params levels) fun params after => place.HoldsAll file after (params.1.map Param.toNode) := by
  refine .since fun since => since.word fun _ since => since.eat (by nofun) (fun _ _ _ => .pure .nil) ?_
  refine since.skip (@Paired.isAt true 0 _) fun void _ since => .peekPast fun next => ?_
  split
  · exact .word fun _ _ => .word fun _ _ => .pure .nil
  refine .through (fun params after => Since file size place false (params.1.map Param.toNode) after) ?_ fun params _ _ since =>
    since.eat (by nofun) (fun _ since _ => .pure since.holds) (.peek at_reject)
  refine .loop (fun (found : List Param) middle => Since file size place false (found.reverse.map Param.toNode) middle) since
    fun _ _ _ since => since.eat (by nofun) (fun _ since _ => .pure since.loose) ?_
  refine since.one (param_yields levels) fun param _ since _ => ?_
  exact since.eat (by nofun) (fun _ since _ => .pure since.cons.loose) (.pure since.cons.loose)

theorem functionRest_at (levels : Nat) {first : Place} (decl : FuncDecl) (plain : decl.body = none)
    (since : Since file size first moved [] place) :
    At file size place (functionRest levels first.current.span decl)
      fun found after => Declares file size first after (.function found) := by
  cases decl
  cases plain
  refine since.all (params_at levels) fun params _ since => ?_
  refine since.eat (by nofun) (fun _ since ends => .spanFrom (.pure ⟨(since.beside .nil).node rfl rfl, ends⟩)) ?_
  refine .isAt (fun _ => ?_) fun _ => .peek (.never at_rejectHere)
  refine (block_at (stmt_onward levels).composed (stmt_yields levels)).bind fun body _ further ⟨built, closed⟩ => ?_
  obtain ⟨closing, passes, here, took⟩ := closed
  exact .spanFrom (.pure ⟨(since.addOne further built).node rfl rfl, closing, since.passes.trans passes, here, took⟩)

theorem functionOrVars_at (levels : Nat) :
    At file size place (functionOrVars levels) fun decl after => Declares file size place after decl := by
  refine .since fun since => .peek (since.skip (@storage_composed true 0) fun storage _ since => ?_)
  refine since.skip (typeExpr_composed levels) fun type named since => .expectName fun _ took => ?_
  have behind := since.took took
  have function (params : List TypeParam) {middle : Place} (since : Since file size place true [] middle) :
      At file size middle (Decl.function <$> withTypeParams (params.map (·.name)) (functionRest levels place.current.span
        { storage, result := type, name := named.current.text, nameLoc := named.current.span, typeParams := params }))
        fun decl after => Declares file size place after decl :=
    .map (.withTypeParams (functionRest_at levels _ rfl since))
  refine .isAt (fun _ => behind.skip (@typeParams_composed true 0) fun params _ since => ?_) fun _ => .given ?_
  · refine .isAt (fun here => .given ?_) fun _ => .never at_rejectHere
    exact .isAt (fun _ => function params since) fun other => absurd here other
  · refine .isAt (fun _ => function [] behind) fun _ => ?_
    refine (declarators_at levels type since took).bind fun vars _ _ since => ?_
    exact since.expectSemicolon fun _ since ends => .spanFrom (.pure ⟨since.node rfl rfl, ends⟩)

theorem typedefTarget_at (levels : Nat) :
    At file size place (typedefTarget levels) fun target after => place.HoldsAll file after target.toNodes := by
  have rest (decl : StructDecl) {middle : Place} (since : Since file size place false [] middle) : At file size middle (do
      let fields ← fieldBlock levels
      return .body { decl with fields := some fields, loc := ← spanFrom place.current.span } : Parse TypedefTarget)
      fun target after => place.HoldsAll file after target.toNodes := by
    refine (fieldBlock_at levels).bind fun fields _ further block => .spanFrom (.pure ?_)
    have since : Since file size place true (fields.map Field.toNode) _ :=
      { since.add further block.holds with taken := fun _ => Nat.lt_of_le_of_lt since.passes.taken_le (block.taken rfl) }
    exact Place.Builds.holds (since.node rfl rfl) since.passes
  refine .since fun since => .peek (.peekPast fun _ => .peekPast fun _ => ?_)
  dsimp only
  split
  · refine since.word fun _ since => .isAt (fun _ => ?_) fun _ => .given (rest _ since)
    exact since.word fun _ since => .given (rest _ since)
  · exact .skip (typeExpr_composed levels) fun _ _ _ => .pure .nil

theorem typedefDecl_at (levels : Nat) :
    At file size place (typedefDecl levels) fun decl after => Declares file size place after (.typedef decl) := by
  refine .since fun since => since.word fun _ since => since.all (typedefTarget_at levels) fun target _ since => ?_
  refine since.expect (by nofun) fun _ since => since.all (dimensions_at levels) fun dims _ since => ?_
  refine since.expectSemicolon fun last since ends => .change ?_ (.spanFrom (.pure ⟨?_, ends⟩))
  · exact fun _ => rfl
  · cases target <;> exact since.node rfl rfl

theorem enumItem_at (levels : Nat) :
    At file size place (enumItem levels)
      fun item after => place.HoldsAll file after (Expr.optionalNodes item.value) := by
  refine .since fun since => since.expect (by nofun) fun _ since => since.eat (by nofun) (fun _ since _ => ?_) ?_
  · exact since.all (optional_at (value_yields levels)) fun _ _ since => .spanFrom (.pure since.holds)
  · exact .given (.spanFrom (.pure .nil))

theorem enumDecl_at (levels : Nat) :
    At file size place (enumDecl levels) fun decl after => Declares file size place after (.enum decl) := by
  have rest (name : Text) {middle : Place} (since : Since file size place false [] middle) : At file size middle (do
      let brace ← advance
      let items ← loop [] fun (items : List EnumItem) => do
        if ← isAt .rightBrace then return .done items.reverse
        let items := (← enumItem levels) :: items
        if ← eat .comma then return .again items
        return .done items.reverse
      if !(← eat .rightBrace) then
        reject .unclosedBrace brace.span "expected '\x7d' to close enum"
      expectSemicolon "enum"
      return { name, items, loc := ← spanFrom place.current.span } : Parse EnumDecl)
      fun decl after => Declares file size place after (.enum decl) := by
    let values (items : List EnumItem) := items.flatMap fun item => Expr.optionalNodes item.value
    refine since.word fun _ since => .through (fun items after => Since file size place false (values items) after) ?_
      fun items _ _ since => ?_
    · refine .loop (fun (items : List EnumItem) middle => Since file size place false (values items.reverse) middle) since
        fun items _ _ since => .isAt (fun _ => .pure since) fun _ => since.all (enumItem_at levels) fun item _ since => ?_
      have since : Since file size place false (values (item :: items).reverse) _ := since.consAll
      exact since.eat (by nofun) (fun _ since _ => .pure since.loose) (.pure since)
    · refine since.eat (by nofun) (fun _ since _ => ?_) (.never at_reject)
      exact since.expectSemicolon fun _ since ends => .spanFrom (.pure ⟨since.node rfl rfl, ends⟩)
  refine .since fun since => since.word fun _ since => .isAt (fun _ => ?_) fun _ => .given (rest _ since)
  exact since.word fun _ since => .given (rest _ since)

end

theorem otherDecl_at (levels : Nat) :
    At file size place (otherDecl levels) fun decl after => Declares file size place after decl := by
  refine .peek (atTypeStart_at.bind fun starts _ _ same => ?_)
  subst same
  split
  · exact functionOrVars_at levels
  · exact at_rejectHere

def Tops (file : UInt32) (size : Nat) (first second : Place) : Option Decl → Prop
  | some decl => Declares file size first second decl
  | none => first.current.kind = .semicolon ∧ Took file size first second

theorem topLevel_at (levels : Nat) :
    At file size place (topLevel levels) fun decl after => Tops file size place after decl := by
  have other : At file size place (otherDecl levels >>= fun decl => pure (some decl))
      fun decl after => Tops file size place after decl :=
    (otherDecl_at levels).bind fun _ _ _ declares => .pure declares
  refine .peek ?_
  split
  next kind =>
    refine .advance (kind ▸ nofun) fun last took => .pure ?_
    show Declares file size place last (.ofLine _ _)
    have ends : EndsWith file size .directive place last := ⟨place, .refl took.start, kind, took⟩
    unfold Decl.ofLine
    split
    · exact ⟨Place.builds_node took.fills took.toPasses .nil, ends⟩
    · exact ⟨Place.builds_node took.fills took.toPasses .nil, ends⟩
  next kind => exact .advance (kind ▸ nofun) fun last took => .pure ⟨kind, took⟩
  next => exact (typedefDecl_at levels).bind fun _ _ _ declares => .pure declares
  iterate 2
    next =>
      refine .bind .lookahead fun declared _ _ same => ?_
      subst same
      split
      · exact (structDecl_at levels).bind fun _ _ _ declares => .pure declares
      · exact other
  next =>
    refine .through (fun _ after => after = place) (.peekPast fun _ => .peekPast fun _ => .pure rfl) fun declared _ _ same => ?_
    subst same
    split
    · exact (enumDecl_at levels).bind fun _ _ _ declares => .pure declares
    · exact other
  next => exact other

end Parse
end GenericC
