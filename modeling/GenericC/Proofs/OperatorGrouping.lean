import GenericC.Parser.Exprs

/-! How operators group their operands. Written out in a row, an expression is a chain of operands with operators in
between. An operator that binds tighter takes its operands first, and operators that bind alike take theirs from one
side, so a chain can be grouped in one way only. -/

namespace GenericC

variable {binding : Binding} {op : TokenKind}

namespace Binding

/-- The least precedence of operators that belong to the left operand. -/
def leftPrecedence (binding : Binding) : Nat :=
  if binding.right then binding.precedence + 1 else binding.precedence

theorem precedence_le_left (binding : Binding) : binding.precedence ≤ binding.leftPrecedence := by
  unfold leftPrecedence
  split <;> omega

theorem precedence_le_right (binding : Binding) : binding.precedence ≤ binding.rightPrecedence := by
  unfold rightPrecedence
  split <;> omega

theorem right_eq {kind : TokenKind} (found : of? kind = some binding) :
    binding.right = decide (binding.precedence = assignment ∨ binding.precedence = conditional) := by
  unfold of? at found
  split at found
  · cases found
    rfl
  · split at found <;> cases found <;> rfl

/-- Of two operators in a row, either the left one is done before the right one, or the right one belongs to the right
operand of the left one. -/
theorem left_le_iff {first second : TokenKind} {left right : Binding} (found : of? first = some left)
    (behind : of? second = some right) :
    right.leftPrecedence ≤ left.precedence ↔ right.precedence < left.rightPrecedence := by
  have alike : left.precedence = right.precedence → left.right = right.right := fun same => by
    rw [right_eq found, right_eq behind, same]
  unfold leftPrecedence rightPrecedence
  cases toRight : left.right <;> cases fromRight : right.right <;> simp only [toRight, fromRight] at alike ⊢ <;> grind

end Binding

/-- A token that is no operator of some precedence or more. -/
def TokenKind.StopsAt (least : Nat) (kind : TokenKind) : Prop :=
  ∀ binding, Binding.of? kind = some binding → binding.precedence < least

/-- A link of a chain. The two operators of a conditional are links of their own. -/
inductive Link
  | operand (expr : Expr)
  | operator (kind : TokenKind)

namespace Expr

/-- The operands of an expression and the operators in between, in the order they are written. -/
def chain : Expr → List Link
  | binary op left right _ => left.chain ++ .operator op :: right.chain
  | conditional test yes no _ => test.chain ++ .operator .question :: (yes.chain ++ .operator .colon :: no.chain)
  | operand => [.operand operand]

def precedence? : Expr → Option Nat
  | binary op _ _ _ => (Binding.of? op).map (·.precedence)
  | conditional _ _ _ _ => some Binding.conditional
  | _ => none

def isOperand : Expr → Bool
  | binary _ _ _ _ => false
  | conditional _ _ _ _ => false
  | _ => true

/-- The operator at the root binds that tightly, if there is one. -/
def Binds (least : Nat) (expr : Expr) : Prop := ∀ precedence ∈ expr.precedence?, least ≤ precedence

/-- Every operator has operands that bind tightly enough. The right operand of an operator that groups to the left binds
tighter than the operator, and so does the left operand of one that groups to the right. -/
inductive Grouped : Expr → Prop where
  | operand {expr : Expr} (whole : expr.isOperand = true) : Grouped expr
  | binary {op : TokenKind} {binding : Binding} {left right : Expr} (found : Binding.of? op = some binding)
      (other : op ≠ .question) (first : Grouped left) (second : Grouped right)
      (before : left.Binds binding.leftPrecedence) (behind : right.Binds binding.rightPrecedence) :
      Grouped (.binary op left right (left.span.cover right.span))
  | conditional {test yes no : Expr} (first : Grouped test) (second : Grouped yes) (third : Grouped no)
      (before : test.Binds (Binding.conditional + 1)) (behind : no.Binds Binding.conditional) :
      Grouped (.conditional test yes no (test.span.cover no.span))

theorem chain_of_isOperand {expr : Expr} (whole : expr.isOperand = true) : expr.chain = [.operand expr] := by
  cases expr <;> first | rfl | cases whole

theorem chain_ne_nil (expr : Expr) : expr.chain ≠ [] := by
  cases expr <;> simp [chain]

theorem isOperand_of_chain {expr : Expr} {link : Link} (only : expr.chain = [link]) : expr.isOperand = true := by
  cases expr with
  | binary op left right loc => simp [chain, List.append_eq_singleton_iff, chain_ne_nil] at only
  | conditional test yes no loc => simp [chain, List.append_eq_singleton_iff] at only
  | _ => rfl

theorem precedence?_of_isOperand {expr : Expr} (whole : expr.isOperand = true) : expr.precedence? = none := by
  cases expr <;> first | rfl | cases whole

theorem binds_of_isOperand {expr : Expr} (whole : expr.isOperand = true) (least : Nat) : expr.Binds least := by
  rw [Binds, precedence?_of_isOperand whole]
  nofun

theorem binds_binary {left right : Expr} {loc : Span} {least : Nat} (found : Binding.of? op = some binding) :
    (binary op left right loc).Binds least ↔ least ≤ binding.precedence := by
  simp [Binds, precedence?, found]

theorem binds_conditional {test yes no : Expr} {loc : Span} {least : Nat} :
    (conditional test yes no loc).Binds least ↔ least ≤ Binding.conditional := by
  simp [Binds, precedence?]

end Expr

namespace Link

/-- How many conditionals a link opens. A colon closes one. -/
def opens : Link → Int
  | .operator .question => 1
  | .operator .colon => -1
  | _ => 0

/-- How many conditionals are open behind some links. -/
def level : List Link → Int
  | [] => 0
  | link :: links => link.opens + level links

@[simp] theorem level_nil : level [] = 0 := rfl

@[simp] theorem level_cons (link : Link) (links : List Link) : level (link :: links) = link.opens + level links := rfl

@[simp] theorem level_append (first second : List Link) : level (first ++ second) = level first + level second := by
  induction first with
  | nil => exact (Int.zero_add _).symm
  | cons link first ih => rw [List.cons_append, level_cons, level_cons, ih, Int.add_assoc]

@[simp] theorem opens_operand (expr : Expr) : (operand expr).opens = 0 := rfl

@[simp] theorem opens_question : (operator .question).opens = 1 := rfl

@[simp] theorem opens_colon : (operator .colon).opens = -1 := rfl

theorem opens_binary (found : Binding.of? op = some binding) (other : op ≠ .question) : (operator op).opens = 0 := by
  unfold opens
  split
  next same => cases same; exact absurd rfl other
  next same => cases same; cases found
  next => rfl

end Link

section
variable {α : Type} {xs ys front back : List α} {x y : α}

private theorem cut_cases (same : xs ++ ys = front ++ y :: back) :
    (∃ zs, front = xs ++ zs) ∨ ∃ zs, xs = front ++ y :: zs ∧ back = zs ++ ys := by
  rcases List.append_eq_append_iff.mp same with ⟨zs, whole, -⟩ | ⟨zs, whole, rest⟩
  · exact .inl ⟨zs, whole⟩
  · cases zs with
    | nil => exact .inl ⟨[], by rw [whole, List.append_nil, List.append_nil]⟩
    | cons z zs =>
      rw [List.cons_append] at rest
      cases rest
      exact .inr ⟨zs, whole, rfl⟩

private theorem link_cases (same : xs ++ x :: ys = front ++ y :: back) :
    (∃ zs, front = xs ++ x :: zs ∧ ys = zs ++ y :: back) ∨ (xs = front ∧ x = y ∧ ys = back) ∨
      ∃ zs, xs = front ++ y :: zs ∧ back = zs ++ x :: ys := by
  rcases cut_cases same with ⟨zs, rfl⟩ | behind
  · rw [List.append_assoc] at same
    have rest := List.append_cancel_left same
    cases zs with
    | nil =>
      cases rest
      exact .inr (.inl ⟨(List.append_nil _).symm, rfl, rfl⟩)
    | cons z zs =>
      cases rest
      exact .inl ⟨zs, rfl, rfl⟩
  · exact .inr (.inr behind)

end

namespace Expr.Grouped
open Link (level)

variable {expr other front back : Expr} {xs ys us vs : List Link}

theorem level_eq (grouped : expr.Grouped) : level expr.chain = 0 := by
  induction grouped with
  | operand whole => simp [chain_of_isOperand whole]
  | binary found other first second before behind firstLevel secondLevel =>
    simp [chain, firstLevel, secondLevel, Link.opens_binary found other]
  | conditional first second third before behind firstLevel secondLevel thirdLevel =>
    simp [chain, firstLevel, secondLevel, thirdLevel]

theorem level_nonneg (grouped : expr.Grouped) (cut : xs ++ ys = expr.chain) : 0 ≤ level xs := by
  induction grouped generalizing xs ys with
  | operand whole =>
    rw [chain_of_isOperand whole] at cut
    rcases List.append_eq_singleton_iff.mp cut with ⟨rfl, -⟩ | ⟨rfl, -⟩
    · exact Int.le_refl _
    · exact Int.le_refl _
  | binary found other first second before behind firstLevel secondLevel =>
    rcases cut_cases cut with ⟨zs, inside⟩ | ⟨zs, rfl, inside⟩
    · exact firstLevel inside.symm
    · have := secondLevel inside.symm
      simp only [Link.level_append, Link.level_cons, first.level_eq, Link.opens_binary found other]
      omega
  | conditional first second third before behind firstLevel secondLevel thirdLevel =>
    rcases cut_cases cut with ⟨zs, inside⟩ | ⟨zs, rfl, inside⟩
    · exact firstLevel inside.symm
    simp only [Link.level_append, Link.level_cons, first.level_eq, Link.opens_question]
    rcases cut_cases inside.symm with ⟨ws, within⟩ | ⟨ws, rfl, within⟩
    · have := secondLevel within.symm
      omega
    · have := thirdLevel within.symm
      simp only [Link.level_append, Link.level_cons, second.level_eq, Link.opens_colon]
      omega

/-- An operator outside of all conditionals binds as tightly as the operator at the root. -/
theorem le_precedence {least : Nat} (grouped : expr.Grouped) (binds : expr.Binds least)
    (cut : xs ++ .operator op :: ys = expr.chain) (outside : level xs = 0) (found : Binding.of? op = some binding) :
    least ≤ binding.precedence := by
  induction grouped generalizing xs ys least with
  | operand whole =>
    rw [chain_of_isOperand whole] at cut
    simp [List.append_eq_singleton_iff] at cut
  | @binary root rootBinding left right rootFound other first second before behind firstBinds secondBinds =>
    have root_le := (binds_binary rootFound).mp binds
    rcases link_cases cut with ⟨zs, inside, -⟩ | ⟨rfl, same, -⟩ | ⟨zs, rfl, inside⟩
    · have := firstBinds before inside.symm outside
      have := rootBinding.precedence_le_left
      omega
    · cases same
      cases found.symm.trans rootFound
      exact root_le
    · simp only [Link.level_append, Link.level_cons, first.level_eq, Link.opens_binary rootFound other] at outside
      have := secondBinds behind inside.symm (by omega)
      have := rootBinding.precedence_le_right
      omega
  | @conditional test yes no first second third before behind firstBinds secondBinds thirdBinds =>
    have root_le := binds_conditional.mp binds
    rcases link_cases cut with ⟨zs, inside, -⟩ | ⟨rfl, same, -⟩ | ⟨zs, rfl, inside⟩
    · have := firstBinds before inside.symm outside
      omega
    · cases same
      cases found
      exact root_le
    -- Behind the question mark the conditional is open up to its colon.
    simp only [Link.level_append, Link.level_cons, first.level_eq, Link.opens_question] at outside
    rcases link_cases inside.symm with ⟨ws, within, -⟩ | ⟨-, same, -⟩ | ⟨ws, rfl, within⟩
    · have := second.level_nonneg within.symm
      omega
    · cases same
      cases found
    · simp only [Link.level_append, Link.level_cons, second.level_eq, Link.opens_colon] at outside
      have := thirdBinds behind within.symm (by omega)
      omega

/-- An operator cannot stand in the left operand of another one that stands in its own right operand. -/
theorem not_crossed {left right : TokenKind} {leftBinding rightBinding : Binding} (leftFound : Binding.of? left = some leftBinding)
    (rightFound : Binding.of? right = some rightBinding) (first : front.Grouped) (second : back.Grouped)
    (before : front.Binds rightBinding.leftPrecedence) (behind : back.Binds leftBinding.rightPrecedence)
    (cut : xs ++ .operator left :: ys = front.chain) (outside : level xs = 0)
    (cut' : us ++ .operator right :: vs = back.chain) (outside' : level us = 0) : False := by
  have early := first.le_precedence before cut outside leftFound
  have late := second.le_precedence behind cut' outside' rightFound
  have := (Binding.left_le_iff leftFound rightFound).mp early
  omega

theorem question_found : Binding.of? .question = some ⟨Binding.conditional, true⟩ := rfl

/-- A chain has an operator of two operands at its root, or a conditional, but not both. -/
theorem binary_ne_conditional {left right test yes no : Expr} {loc loc' : Span}
    (first : (Expr.binary op left right loc).Grouped) (second : (Expr.conditional test yes no loc').Grouped) :
    (Expr.binary op left right loc).chain ≠ (Expr.conditional test yes no loc').chain := by
  intro same
  cases first with
  | operand whole => cases whole
  | @binary _ binding _ _ found other left_grouped right_grouped before behind =>
    cases second with
    | operand whole => cases whole
    | conditional test_grouped yes_grouped no_grouped test_binds no_binds =>
      have rises := Link.opens_binary found other
      have leftLevel := left_grouped.level_eq
      rcases link_cases same with ⟨zs, inside, rest⟩ | ⟨-, here, -⟩ | ⟨zs, inside, rest⟩
      · have testLevel := test_grouped.level_eq
        rw [inside] at testLevel
        simp only [Link.level_append, Link.level_cons, rises] at testLevel
        exact not_crossed found question_found test_grouped right_grouped test_binds behind inside.symm leftLevel
          rest.symm (by omega)
      · cases here
        exact other rfl
      rw [inside] at leftLevel
      simp only [Link.level_append, Link.level_cons, test_grouped.level_eq, Link.opens_question] at leftLevel
      rcases link_cases rest.symm with ⟨ws, within, -⟩ | ⟨-, here, -⟩ | ⟨ws, rfl, within⟩
      · have := yes_grouped.level_nonneg within.symm
        omega
      · cases here
        cases found
      · simp only [Link.level_append, Link.level_cons, yes_grouped.level_eq, Link.opens_colon] at leftLevel
        exact not_crossed question_found found left_grouped no_grouped before no_binds inside.symm
          test_grouped.level_eq within.symm (by omega)

/-- Of two operators at the root of one chain neither stands in front of the other. -/
theorem left_not_longer {op' : TokenKind} {binding' : Binding} {left right left' right' : Expr}
    (found : Binding.of? op = some binding) (notQuestion : op ≠ .question) (found' : Binding.of? op' = some binding')
    (first : left.Grouped) (second : right.Grouped) (behind : right.Binds binding.rightPrecedence)
    (first' : left'.Grouped) (before' : left'.Binds binding'.leftPrecedence) {zs : List Link}
    (inside : left'.chain = left.chain ++ .operator op :: zs) (rest : right.chain = zs ++ .operator op' :: right'.chain) :
    False := by
  have level := first'.level_eq
  rw [inside] at level
  simp only [Link.level_append, Link.level_cons, first.level_eq, Link.opens_binary found notQuestion] at level
  exact not_crossed found found' first' second before' behind inside.symm first.level_eq rest.symm (by omega)

theorem test_not_longer {test test' : Expr} {zs : List Link} (first : test.Grouped) (first' : test'.Grouped)
    (before' : test'.Binds (Binding.conditional + 1)) (inside : test'.chain = test.chain ++ .operator .question :: zs) :
    False := by
  have := first'.le_precedence before' inside.symm first.level_eq question_found
  dsimp only at this
  omega

theorem yes_not_longer {yes yes' : Expr} {zs : List Link} (second : yes.Grouped) (second' : yes'.Grouped)
    (inside : yes'.chain = yes.chain ++ .operator .colon :: zs) : False := by
  have cut : (yes.chain ++ [.operator .colon]) ++ zs = yes'.chain := by rw [inside, List.append_assoc]; rfl
  have := second'.level_nonneg cut
  simp only [Link.level_append, Link.level_cons, Link.level_nil, second.level_eq, Link.opens_colon] at this
  omega

theorem eq_of_chain (grouped : expr.Grouped) (other_grouped : other.Grouped) (same : other.chain = expr.chain) :
    other = expr := by
  induction grouped generalizing other with
  | operand whole =>
    rw [chain_of_isOperand whole] at same
    rw [chain_of_isOperand (isOperand_of_chain same)] at same
    cases same
    rfl
  | binary found notQuestion first second before behind firstOnly secondOnly =>
    cases other_grouped with
    | operand whole =>
      rw [chain_of_isOperand whole] at same
      cases isOperand_of_chain same.symm
    | binary found' notQuestion' first' second' before' behind' =>
      rcases link_cases same with ⟨zs, inside, rest⟩ | ⟨lefts, here, rights⟩ | ⟨zs, inside, rest⟩
      · exact (left_not_longer found' notQuestion' found first' second' behind' first before inside rest).elim
      · cases here
        rw [firstOnly first' lefts, secondOnly second' rights]
      · exact (left_not_longer found notQuestion found' first second behind first' before' inside rest).elim
    | conditional first' second' third' before' behind' =>
      exact absurd same.symm (binary_ne_conditional (.binary found notQuestion first second before behind)
        (.conditional first' second' third' before' behind'))
  | conditional first second third before behind firstOnly secondOnly thirdOnly =>
    cases other_grouped with
    | operand whole =>
      rw [chain_of_isOperand whole] at same
      cases isOperand_of_chain same.symm
    | binary found' notQuestion' first' second' before' behind' =>
      exact absurd same (binary_ne_conditional (.binary found' notQuestion' first' second' before' behind')
        (.conditional first second third before behind))
    | conditional first' second' third' before' behind' =>
      rcases link_cases same with ⟨zs, inside, -⟩ | ⟨tests, -, rest⟩ | ⟨zs, inside, -⟩
      · exact (test_not_longer first' first before inside).elim
      · rcases link_cases rest with ⟨zs, inside, -⟩ | ⟨yeses, -, noes⟩ | ⟨zs, inside, -⟩
        · exact (yes_not_longer second' second inside).elim
        · rw [firstOnly first' tests, secondOnly second' yeses, thirdOnly third' noes]
        · exact (yes_not_longer second second' inside).elim
      · exact (test_not_longer first first' before' inside).elim

end Expr.Grouped
end GenericC
