import GenericC.Proofs.GrammarComposition
import GenericC.Proofs.OperatorGrouping

/-! How the operators of a source are grouped when it is read. One loop reads an operand behind every operator that binds
tightly enough. Before each of its rounds the expression read so far is grouped, and it is the left operand of the
operator that follows, whatever that operator is. -/

namespace GenericC
namespace Parse

variable {α β : Type}

theorem loop_ends {start : α} {round : α → Parse (Round α β)} {state after : ParseState} {result : β}
    (holds : α → ParseState → Prop) (begins : holds start state)
    (again : ∀ {value now next later}, holds value now → round value now = .ok (.again next) later → holds next later)
    (ended : loop start round state = .ok result after) :
    ∃ value now, holds value now ∧ round value now = .ok (.done result) after := by
  have within (allowance : List Token) (value : α) (now : ParseState) (here : holds value now)
      (ended : loopWithin round allowance value now = .ok result after) :
      ∃ value now, holds value now ∧ round value now = .ok (.done result) after := by
    induction allowance generalizing value now with
    | nil => cases ended
    | cons _ allowance ih =>
      obtain ⟨found, later, ran, rest⟩ := bind_eq_ok.mp ended
      cases found with
      | done found =>
        cases rest
        exact ⟨value, now, here, ran⟩
      | again next => exact ih next later (again here ran) rest
  exact within _ start state begins ended

theorem nested_inv {rule : Parse α} {state ended : ParseState} {value : α} (ran : nested rule state = .ok value ended) :
    ∃ after, rule { state with depth := state.depth + 1 } = .ok value after ∧
      ended = { after with depth := after.depth - 1 } ∧ state.depth < state.settings.maxNesting := by
  rw [nested_apply] at ran
  split at ran
  · rw [markTooDeep_apply] at ran
    cases ran
  next shallow =>
    split at ran
    next inner =>
      cases ran
      exact ⟨_, inner, rfl, Nat.lt_of_not_le shallow⟩
    · cases ran

theorem advance_value {state after : ParseState} {token : Token} (ran : advance state = .ok token after) :
    token = state.place.current := by
  rw [advance_apply] at ran
  split at ran
  · cases ran
    rfl
  · split at ran
    · cases ran
    · cases ran
      rfl

theorem expect_inv {kind : TokenKind} {code : DiagnosticCode} {message : Text} {state after : ParseState} {token : Token}
    (ran : expect kind code message state = .ok token after) :
    state.place.current.kind = kind ∧ advance state = .ok token after ∧ token = state.place.current := by
  obtain ⟨here, middle, looked, rest⟩ := bind_eq_ok.mp ran
  cases looked
  split at rest
  next same => exact ⟨of_decide_eq_true same, rest, advance_value rest⟩
  next =>
    obtain ⟨_, _, -, rest⟩ := bind_eq_ok.mp rest
    obtain ⟨_, _, -, rest⟩ := bind_eq_ok.mp rest
    dsimp only at rest
    split at rest
    · obtain ⟨_, _, -, stopped⟩ := bind_eq_ok.mp rest
      cases stopped
    · obtain ⟨_, _, -, stopped⟩ := bind_eq_ok.mp rest
      cases stopped

def Gives (rule : Parse α) (good : α → Prop) : Prop := ∀ ⦃state value after⦄, rule state = .ok value after → good value

namespace Gives

variable {rule : Parse α} {good : α → Prop}

theorem pure {value : α} (holds : good value) : Gives (Pure.pure value) good := by
  rintro state _ after ⟨⟩
  exact holds

theorem stop {stop : Stop} : Gives (throw stop) good := by
  rintro state _ after ⟨⟩

theorem bind {first : Parse β} {next : β → Parse α} (rest : ∀ value, Gives (next value) good) :
    Gives (first >>= next) good := by
  intro state value after ended
  obtain ⟨found, middle, -, late⟩ := bind_eq_ok.mp ended
  exact rest found late

theorem reject {code : DiagnosticCode} {span : Span} {message : Text} : Gives (Parse.reject code span message) good :=
  bind fun _ => stop

theorem rejectHere {code : DiagnosticCode} {message : Text} : Gives (Parse.rejectHere code message) good :=
  bind fun _ => reject

theorem nested (inner : Gives rule good) : Gives (Parse.nested rule) good := by
  intro state value after ended
  obtain ⟨deeper, ran, -⟩ := nested_inv ended
  exact inner ran

/-- One of two rules, and what follows both. -/
theorem either {test : Prop} [Decidable test] {first second : Parse β} {next : β → Parse α}
    (rest : ∀ value, Gives (next value) good) : Gives (if test then first >>= next else second >>= next) good := by
  split <;> exact bind rest

end Gives

def Round.Gives (holds : α → Prop) (good : β → Prop) : Round α β → Prop
  | .again next => holds next
  | .done result => good result

theorem loop_gives {start : α} {round : α → Parse (Round α β)} {good : β → Prop} (holds : α → Prop) (begins : holds start)
    (rounds : ∀ value, holds value → Gives (round value) (Round.Gives holds good)) : Gives (loop start round) good := by
  intro state result after ended
  obtain ⟨value, now, here, last⟩ :=
    loop_ends (fun value _ => holds value) begins (fun here ran => rounds _ here ran) ended
  exact rounds value here last

section
variable {operand : Nat → Parse Expr} {type : Parse TypeExpr} {rule lists : Parse Expr}

theorem callArgs_operand (callee : Expr) (types : List TypeExpr) :
    Gives (callArgs operand callee types) (Expr.isOperand · = true) := by
  refine .bind fun bracket => .bind fun empty => .either fun args => .bind fun closed => ?_
  split
  · exact .bind fun _ => .pure rfl
  · exact .bind fun _ => .reject

theorem primary_operand : Gives (primary operand type) (Expr.isOperand · = true) := by
  refine .bind fun token => ?_
  split
  · refine .bind fun _ => .bind fun less => ?_
    split
    · refine .bind fun found => ?_
      split
      · exact callArgs_operand _ _
      · exact .pure rfl
    · exact .pure rfl
  · exact .bind fun _ => .pure rfl
  · exact .bind fun _ => .pure rfl
  · exact .bind fun _ => .pure rfl
  · exact .bind fun _ => .bind fun _ => .pure rfl
  · refine .bind fun _ => .bind fun _ => .bind fun closed => ?_
    split
    · exact .bind fun _ => .pure rfl
    · exact .reject
  · exact .rejectHere

theorem trailers_operand {first : Expr} (whole : first.isOperand = true) :
    Gives (trailers operand first) (Expr.isOperand · = true) := by
  refine loop_gives (Expr.isOperand · = true) whole fun object whole => .bind fun token => ?_
  split
  · intro state round after ended
    obtain ⟨called, middle, ran, rest⟩ := bind_eq_ok.mp ended
    cases rest
    exact callArgs_operand object [] ran
  · refine .bind fun _ => .bind fun _ => .bind fun closed => ?_
    split
    · exact .bind fun _ => .pure rfl
    · exact .rejectHere
  · exact .bind fun _ => .bind fun _ => .pure rfl
  · exact .bind fun _ => .bind fun _ => .pure rfl
  · exact .bind fun _ => .pure rfl
  · exact .bind fun _ => .pure rfl
  · exact .pure whole

theorem sizeof_operand : Gives (sizeof rule type) (Expr.isOperand · = true) := by
  refine .bind fun word => .bind fun paren => .either fun found => ?_
  cases found with
  | some type | none => exact .bind fun _ => .pure rfl

theorem unaryBody_operand : Gives (unaryBody operand rule lists type) (Expr.isOperand · = true) := by
  refine .bind fun token => ?_
  split
  · exact .bind fun _ => .bind fun _ => .pure rfl
  · split
    · exact sizeof_operand
    · refine .either fun found => ?_
      cases found with
      | some type => exact .bind fun _ => .pure rfl
      | none =>
        intro state value after ended
        obtain ⟨first, middle, ran, rest⟩ := bind_eq_ok.mp ended
        exact trailers_operand (primary_operand ran) rest

end

theorem unary_operand (levels : Nat) : Gives (unary levels) (Expr.isOperand · = true) := by
  cases levels with
  | zero => exact .stop
  | succ levels => exact .nested unaryBody_operand

/-- A chain is read from one state to another. Every operand is read by itself, by a rule that may stand some levels
deeper, and every operator is the next token. -/
inductive Consumes (levels : Nat) : ParseState → List Link → ParseState → Prop where
  | nil (state : ParseState) : Consumes levels state [] state
  | operand {state middle after : ParseState} {found : Expr} {links : List Link} (deeper : Nat)
      (same : middle.depth = state.depth)
      (ran : unary (levels - deeper) { state with depth := state.depth + deeper } =
        .ok found { middle with depth := middle.depth + deeper })
      (rest : Consumes levels middle links after) : Consumes levels state (.operand found :: links) after
  | operator {state middle after : ParseState} {token : Token} {links : List Link}
      (ran : advance state = .ok token middle) (rest : Consumes levels middle links after) :
      Consumes levels state (.operator token.kind :: links) after

namespace Consumes

variable {levels : Nat} {first second third : ParseState} {links others : List Link}

theorem append (early : Consumes levels first links second) (late : Consumes levels second others third) :
    Consumes levels first (links ++ others) third := by
  induction early with
  | nil => exact late
  | operand deeper same ran _ ih => exact .operand deeper same ran (ih late)
  | operator ran _ ih => exact .operator ran (ih late)

theorem advance_depth {state after : ParseState} {token : Token} (ran : advance state = .ok token after) (depth : Nat) :
    advance { state with depth } = .ok token { after with depth } := by
  rw [advance_apply] at ran ⊢
  dsimp only at ran ⊢
  split at ran
  next ended =>
    cases ran
    rw [if_pos ended]
  next more =>
    rw [if_neg more]
    split at ran
    · cases ran
    · cases ran
      rfl

/-- What is read at some depth is read from one level further out, where there is one level more. -/
theorem outward (consumes : Consumes levels first links second) (deep : 0 < first.depth) :
    Consumes (levels + 1) { first with depth := first.depth - 1 } links { second with depth := second.depth - 1 } := by
  induction consumes with
  | nil state => exact .nil _
  | @operand state middle after found links deeper same ran rest ih =>
    have up : state.depth - 1 + (deeper + 1) = state.depth + deeper := by omega
    have up' : middle.depth - 1 + (deeper + 1) = middle.depth + deeper := by omega
    refine @Consumes.operand _ _ { middle with depth := middle.depth - 1 } _ _ _ (deeper + 1) ?_ ?_ (ih (same ▸ deep))
    · rw [same]
    · rw [Nat.add_sub_add_right, up, up']
      exact ran
  | @operator state middle after token links ran rest ih =>
    have depth := ((@Paired.advance true 0).moved ran).depth
    refine .operator (advance_depth ran _) ?_
    rw [← depth]
    exact ih (depth ▸ deep)

end Consumes

def operatorRound (operand : Nat → Parse Expr) (least : Nat) (left : Expr) : Parse (Round Expr Expr) := do
  let token ← peek
  match Binding.of? token.kind with
  | none => return .done left
  | some binding =>
    if binding.precedence < least then return .done left
    let _ ← advance
    if token.kind = .question then
      let yes ← operand Binding.comma
      let _ ← expect .colon .unexpectedToken "expected ':' in conditional expression"
      let no ← operand Binding.conditional
      return .again (.conditional left yes no (left.span.cover no.span))
    let right ← operand binding.rightPrecedence
    return .again (.binary token.kind left right (left.span.cover right.span))

theorem operators_eq (operand : Nat → Parse Expr) (least : Nat) (first : Expr) :
    operators operand least first = Parse.loop first (operatorRound operand least) := rfl

/-- What a round of the loop over operators has done. -/
inductive OperatorRan (operand : Nat → Parse Expr) (least : Nat) (left : Expr) (state after : ParseState) :
    Round Expr Expr → Prop
  | done (same : after = state) (stops : TokenKind.StopsAt least state.place.current.kind) :
      OperatorRan operand least left state after (.done left)
  | conditional {binding : Binding} {middle later last : ParseState} {yes no : Expr} {colon : Token}
      (found : Binding.of? state.place.current.kind = some binding) (high : ¬ binding.precedence < least)
      (taken : advance state = .ok state.place.current middle) (question : state.place.current.kind = .question)
      (first : operand Binding.comma middle = .ok yes later)
      (second : expect .colon .unexpectedToken "expected ':' in conditional expression" later = .ok colon last)
      (third : operand Binding.conditional last = .ok no after) :
      OperatorRan operand least left state after (.again (.conditional left yes no (left.span.cover no.span)))
  | binary {binding : Binding} {middle : ParseState} {right : Expr}
      (found : Binding.of? state.place.current.kind = some binding) (high : ¬ binding.precedence < least)
      (taken : advance state = .ok state.place.current middle) (other : state.place.current.kind ≠ .question)
      (first : operand binding.rightPrecedence middle = .ok right after) :
      OperatorRan operand least left state after
        (.again (.binary state.place.current.kind left right (left.span.cover right.span)))

section
variable {operand : Nat → Parse Expr} {least : Nat} {left : Expr} {state after : ParseState}

theorem operatorRound_ran {round : Round Expr Expr} (ran : operatorRound operand least left state = .ok round after) :
    OperatorRan operand least left state after round := by
  unfold operatorRound at ran
  obtain ⟨_, _, looked, ran⟩ := bind_eq_ok.mp ran
  cases looked
  cases found : Binding.of? state.place.current.kind with
  | none =>
    rw [found] at ran
    cases ran
    refine .done rfl fun binding same => ?_
    rw [found] at same
    cases same
  | some binding =>
    rw [found] at ran
    dsimp only at ran
    by_cases low : binding.precedence < least
    · rw [if_pos low] at ran
      cases ran
      refine .done rfl fun other same => ?_
      rw [found] at same
      cases same
      exact low
    · rw [if_neg low] at ran
      obtain ⟨token, middle, taken, ran⟩ := bind_eq_ok.mp ran
      obtain rfl := advance_value taken
      split at ran
      next question =>
        obtain ⟨yes, later, first, ran⟩ := bind_eq_ok.mp ran
        obtain ⟨colon, last, second, ran⟩ := bind_eq_ok.mp ran
        obtain ⟨no, ended, third, ran⟩ := bind_eq_ok.mp ran
        cases ran
        exact .conditional found low taken question first second third
      next other =>
        obtain ⟨right, ended, first, ran⟩ := bind_eq_ok.mp ran
        cases ran
        exact .binary found low taken other first

end

/-- How an expression was read: from the chain of its operands and operators, up to a token that it does not go on
with. -/
structure ReadInOrder (levels least : Nat) (state : ParseState) (found : Expr) (after : ParseState) : Prop where
  consumes : Consumes levels state found.chain after
  grouped : found.Grouped
  binds : found.Binds least
  stops : after.place.current.kind.StopsAt least

section
variable {levels least : Nat} {left : Expr} {state middle after : ParseState}

/-- Before each round of the loop: the expression so far is the left operand of whatever operator follows. -/
structure Partial (levels least : Nat) (start : ParseState) (left : Expr) (now : ParseState) : Prop where
  consumes : Consumes levels start left.chain now
  grouped : left.Grouped
  binds : left.Binds least
  ready : ∀ binding, Binding.of? now.place.current.kind = some binding → left.Binds binding.leftPrecedence

theorem Partial.operand (ran : unary levels state = .ok left after) : Partial levels least state left after := by
  have whole := unary_operand levels ran
  refine ⟨?_, .operand whole, Expr.binds_of_isOperand whole least, fun binding _ => Expr.binds_of_isOperand whole _⟩
  rw [Expr.chain_of_isOperand whole]
  have depth := ((@exprs_composed true levels).2.1.moved ran).depth
  exact .operand 0 depth ran (.nil after)

/-- What follows a right operand does not belong to it, so it takes the whole expression as its left operand. -/
theorem ready_behind {op : TokenKind} {root : Binding} (found : Binding.of? op = some root)
    (stops : after.place.current.kind.StopsAt root.rightPrecedence) (binding : Binding)
    (follows : Binding.of? after.place.current.kind = some binding) : binding.leftPrecedence ≤ root.precedence :=
  (Binding.left_le_iff found follows).mpr (stops binding follows)

theorem Partial.again {start : ParseState} {next : Expr} (partly : Partial levels least start left state)
    (operands : ∀ {least state found after}, binary levels least state = .ok found after →
      ReadInOrder levels least state found after)
    (ran : OperatorRan (binary levels) least left state after (.again next)) : Partial levels least start next after := by
  cases ran with
  | conditional found high taken question first second third =>
    have yes := operands first
    have no := operands third
    obtain ⟨closes, closed, rfl⟩ := expect_inv second
    rw [question] at found
    cases found
    have before := partly.ready ⟨Binding.conditional, true⟩ (question ▸ rfl)
    refine ⟨?_, .conditional partly.grouped yes.grouped no.grouped before no.binds, ?_, fun binding follows => ?_⟩
    · refine partly.consumes.append (question ▸ .operator taken (yes.consumes.append ?_))
      exact closes ▸ .operator closed no.consumes
    · exact Expr.binds_conditional.mpr (Nat.le_of_not_lt high)
    · exact Expr.binds_conditional.mpr (ready_behind Expr.Grouped.question_found no.stops binding follows)
  | binary found high taken other first =>
    have right := operands first
    refine ⟨partly.consumes.append (.operator taken right.consumes),
      .binary found other partly.grouped right.grouped (partly.ready _ found) right.binds, ?_, fun binding follows => ?_⟩
    · exact (Expr.binds_binary found).mpr (Nat.le_of_not_lt high)
    · exact (Expr.binds_binary found).mpr (ready_behind found right.stops binding follows)

theorem operators_inOrder {start : ParseState} {found : Expr} (begins : Partial levels least start left state)
    (operands : ∀ {least state found after}, binary levels least state = .ok found after →
      ReadInOrder levels least state found after)
    (ended : operators (binary levels) least left state = .ok found after) :
    ReadInOrder levels least start found after := by
  rw [operators_eq] at ended
  obtain ⟨value, now, here, last⟩ := loop_ends (Partial levels least start) begins
    (fun here ran => here.again operands (operatorRound_ran ran)) ended
  cases operatorRound_ran last with
  | done same stops =>
    subst same
    exact ⟨here.consumes, here.grouped, here.binds, stops⟩

end

theorem binary_inOrder {levels least : Nat} {state after : ParseState} {found : Expr}
    (ran : binary levels least state = .ok found after) : ReadInOrder levels least state found after := by
  induction levels generalizing least state found after with
  | zero => cases ran
  | succ levels ih =>
    obtain ⟨deeper, inner, rfl, -⟩ := nested_inv ran
    obtain ⟨first, middle, early, late⟩ := bind_eq_ok.mp inner
    have read := operators_inOrder (.operand early) ih late
    exact { read with consumes := read.consumes.outward (Nat.succ_pos _) }

end Parse

/-- An expression is read as the one grouping of its chain of operands and operators, and up to the first operator that
does not bind tightly enough. -/
theorem operators_group_uniquely {levels least : Nat} {state after : ParseState} {found : Expr}
    (ran : Parse.binary levels least state = .ok found after) :
    Parse.Consumes levels state found.chain after ∧ found.Grouped ∧ found.Binds least ∧
      after.place.current.kind.StopsAt least ∧ ∀ other : Expr, other.Grouped → other.chain = found.chain → other = found :=
  have read := Parse.binary_inOrder ran
  ⟨read.consumes, read.grouped, read.binds, read.stops, fun _ grouped same => read.grouped.eq_of_chain grouped same⟩

/-- The operators of an expression, each in front of those in its operands. -/
def Expr.rootsFirst : Expr → List TokenKind
  | binary op left right _ => op :: (left.rootsFirst ++ right.rootsFirst)
  | conditional test yes no _ => .question :: (test.rootsFirst ++ yes.rootsFirst ++ no.rootsFirst)
  | _ => []

def readRoots : EStateM.Result Stop ParseState Expr → Option (List TokenKind × TokenKind)
  | .ok found after => some (found.rootsFirst, after.place.current.kind)
  | .error _ _ => none

/-- In front of the comma, `a = 1 - 1 - 1 * 1 ? 1 : 1, …` is an assignment of a conditional whose test is a difference. -/
theorem assigned_conditional :
    let plain (kind : TokenKind) : Token := { kind, span := {} }
    let upcoming := [.assign, .integer, .minus, .integer, .minus, .integer, .star, .integer, .question, .integer, .colon,
      .integer, .comma, .endOfFile].map plain
    let state : ParseState :=
      { settings := {}, place := { current := plain .identifier, upcoming, last := {} }, typeNames := [], errors := 0 }
    ∃ found after, Parse.binary 9 Binding.assignment state = .ok found after ∧
      found.rootsFirst = [.assign, .question, .minus, .minus, .star] ∧ after.place.current.kind = .comma ∧ found.Grouped ∧
      ∀ other : Expr, other.Grouped → other.chain = found.chain → other = found := by
  intro plain upcoming state
  have roots : readRoots (Parse.binary 9 Binding.assignment state) =
      some ([.assign, .question, .minus, .minus, .star], .comma) := by decide +kernel
  cases ran : Parse.binary 9 Binding.assignment state with
  | ok found after =>
    rw [ran] at roots
    obtain ⟨-, grouped, -, -, unique⟩ := operators_group_uniquely ran
    obtain ⟨operators, comma⟩ := Prod.mk.inj (Option.some.inj roots)
    exact ⟨found, after, rfl, operators, comma, grouped, unique⟩
  | error stop after =>
    rw [ran] at roots
    cases roots

end GenericC
