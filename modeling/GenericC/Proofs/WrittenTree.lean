import GenericC.Parser.Exprs
import GenericC.Program.Node
import GenericC.Proofs.TokenText
import GenericC.Proofs.TypeKeys

/-! Which trees can be written in a source. Names are names of the language, literals are literals, and the name
of a type is made of words: qualifiers, each at most once, and then built-in words, a tag with its
name, or a name. -/

namespace GenericC

inductive BaseWords : List Text → Prop where
  | builtin {kinds : List TokenKind} (some : kinds ≠ []) (words : ∀ kind ∈ kinds, kind.isTypeKeyword = true) :
      BaseWords (kinds.map TokenKind.spelling)
  | tagged {tag : TokenKind} {name : Text} (isTag : tag.isTag = true) (isName : IsName name) :
      BaseWords [tag.spelling, name]
  | name {name : Text} (isName : IsName name) : BaseWords [name]

def IsQualifierWord (word : Text) : Prop := ∃ kind : TokenKind, kind.isQualifier = true ∧ word = kind.spelling

def Qualifiers (words : List Text) : Prop := words.Nodup ∧ ∀ word ∈ words, IsQualifierWord word

def TypeName (name : Text) : Prop :=
  ∃ front base, Qualifiers front ∧ BaseWords base ∧ name = Text.joinWith " " (front ++ base)

def GenericName (name : Text) : Prop :=
  ∃ front word, Qualifiers front ∧ IsName word ∧ name = Text.joinWith " " (front ++ [word])

mutual
def TypeExpr.Written : TypeExpr → Prop
  | .absent => False
  | .named name _ => TypeName name
  | .applied name args _ => GenericName name ∧ args ≠ [] ∧ TypeExpr.AllWritten args
  | .pointer elem _ => elem.Written

def TypeExpr.AllWritten : List TypeExpr → Prop
  | [] => True
  | first :: rest => first.Written ∧ TypeExpr.AllWritten rest
end

theorem TypeExpr.allWritten_iff (types : List TypeExpr) : AllWritten types ↔ ∀ type ∈ types, type.Written := by
  induction types with
  | nil => simp [AllWritten]
  | cons type rest ih => simp [AllWritten, ih]

theorem TypeExpr.Written.base {type : TypeExpr} (written : type.Written) : type.base.Written := by
  match type with
  | .pointer elem _ => exact @TypeExpr.Written.base elem written
  | .named _ _ | .applied _ _ _ => exact written

/-- The text of a literal. Strings that follow each other are one literal. -/
def LiteralText (kind : TokenKind) (value : Text) : Prop :=
  match kind with
  | .string => ∃ parts, parts ≠ [] ∧ (∀ part ∈ parts, IsLiteral .string part) ∧ value = Text.joinWith " " parts
  | .integer | .floating | .character => IsLiteral kind value
  | _ => False

mutual
def Expr.Written : Expr → Prop
  | .name called _ => IsName called
  | .literal kind value _ => LiteralText kind value
  | .binary op left right _ => ((Binding.of? op).isSome ∧ op ≠ .question) ∧ left.Written ∧ right.Written
  | .unary op operand _ => op.isUnary = true ∧ operand.Written
  | .step op operand _ => (op = .plusPlus ∨ op = .minusMinus) ∧ operand.Written
  | .conditional test yes no _ => test.Written ∧ yes.Written ∧ no.Written
  | .call callee typeArgs args _ => callee.Written ∧ TypeExpr.AllWritten typeArgs ∧ Expr.AllWritten args
  | .member object field _ _ => object.Written ∧ IsName field
  | .index object position _ => object.Written ∧ position.Written
  | .sizeofType type _ => type.Written
  | .sizeofExpr operand _ => operand.Written
  | .cast type operand _ => type.Written ∧ operand.Written
  | .paren inner _ => inner.Written
  | .initList elems _ => Expr.AllWritten elems

def Expr.AllWritten : List Expr → Prop
  | [] => True
  | first :: rest => first.Written ∧ Expr.AllWritten rest
end

theorem Expr.allWritten_iff (exprs : List Expr) : AllWritten exprs ↔ ∀ expr ∈ exprs, expr.Written := by
  induction exprs with
  | nil => simp [AllWritten]
  | cons expr rest ih => simp [AllWritten, ih]

def Expr.OptionWritten (value : Option Expr) : Prop := ∀ expr ∈ value, expr.Written

def Dimensions.Written (dims : Dimensions) : Prop := ∀ size ∈ dims, Expr.OptionWritten size

structure Declarator.Written (declarator : Declarator) : Prop where
  type : declarator.type.Written
  name : IsName declarator.name
  dims : declarator.dims.Written
  init : Expr.OptionWritten declarator.init

def VarDecl.Written (decl : VarDecl) : Prop := decl.vars ≠ [] ∧ ∀ declarator ∈ decl.vars, declarator.Written

def ForInit.Written : ForInit → Prop
  | absent => True
  | vars decl => decl.Written
  | expr value _ => value.Written

mutual
def Stmt.Written : Stmt → Prop
  | .block stmts _ => Stmt.AllWritten stmts
  | .ret value _ => Expr.OptionWritten value
  | .ifThen test yes _ => test.Written ∧ yes.Written
  | .ifElse test yes no _ => test.Written ∧ yes.Written ∧ no.Written
  | .whileLoop test body _ => test.Written ∧ body.Written
  | .doWhile body test _ => body.Written ∧ test.Written
  | .forLoop init test post body _ =>
    init.Written ∧ Expr.OptionWritten test ∧ Expr.OptionWritten post ∧ body.Written
  | .breakLoop _ => True
  | .continueLoop _ => True
  | .empty _ => True
  | .expr value _ => value.Written
  | .vars decl => decl.Written

def Stmt.AllWritten : List Stmt → Prop
  | [] => True
  | first :: rest => first.Written ∧ Stmt.AllWritten rest
end

theorem Stmt.allWritten_iff (stmts : List Stmt) : AllWritten stmts ↔ ∀ stmt ∈ stmts, stmt.Written := by
  induction stmts with
  | nil => simp [AllWritten]
  | cons stmt rest ih => simp [AllWritten, ih]

def IsOptionalName (name : Text) : Prop := name = [] ∨ IsName name

structure Field.Written (field : Field) : Prop where
  type : field.type.Written
  name : IsName field.name
  dims : field.dims.Written

structure Param.Written (param : Param) : Prop where
  type : param.type.Written
  name : IsOptionalName param.name
  dims : param.dims.Written

structure StructDecl.Written (decl : StructDecl) : Prop where
  name : IsOptionalName decl.name
  typeParams : ∀ param ∈ decl.typeParams, IsName param.name
  fields : ∀ field ∈ decl.fieldList, field.Written

structure FuncDecl.Written (decl : FuncDecl) : Prop where
  result : decl.result.Written
  name : IsName decl.name
  typeParams : ∀ param ∈ decl.typeParams, IsName param.name
  params : ∀ param ∈ decl.params, param.Written
  body : ∀ block ∈ decl.body, Stmt.AllWritten block.stmts

def TypedefTarget.Written : TypedefTarget → Prop
  | type target => target.Written
  | body decl => decl.Written

structure TypedefDecl.Written (decl : TypedefDecl) : Prop where
  target : decl.target.Written
  name : IsName decl.name
  dims : decl.dims.Written

structure EnumItem.Written (item : EnumItem) : Prop where
  name : IsName item.name
  value : Expr.OptionWritten item.value

structure EnumDecl.Written (decl : EnumDecl) : Prop where
  name : IsOptionalName decl.name
  items : ∀ item ∈ decl.items, item.Written

def Decl.Written : Decl → Prop
  | struct decl => decl.Written
  | function decl => decl.Written
  | vars decl => decl.Written
  | typedef decl => decl.Written
  | enum decl => decl.Written
  | inclusion _ _ _ => True
  | directive _ _ => True

def Program.Written (program : Program) : Prop := ∀ decl ∈ program.decls, decl.Written

namespace Node

theorem visitAll_eq (opens : NodeLabel → Bool) (nodes : List Node) : visitAll opens nodes = nodes.flatMap (visit opens) := by
  induction nodes with
  | nil => rfl
  | cons node rest ih => rw [visitAll, ih, List.flatMap_cons]

theorem labels_node (label : NodeLabel) (children : List Node) :
    labels (.node label children) = label :: children.flatMap labels := by
  rw [labels, visit, if_pos rfl, visitAll_eq]
  rfl

def types (tree : Node) : List TypeExpr := tree.labels.flatMap (·.types)

theorem types_node (label : NodeLabel) (children : List Node) :
    types (.node label children) = label.types ++ children.flatMap types := by
  rw [types, labels_node, List.flatMap_cons, List.flatMap_assoc]
  rfl

end Node

def Node.TypesWritten (tree : Node) : Prop := ∀ type ∈ tree.types, type.Written

theorem Node.typesWritten_node (label : NodeLabel) (children : List Node) :
    TypesWritten (.node label children) ↔
      (∀ type ∈ label.types, type.Written) ∧ ∀ child ∈ children, child.TypesWritten := by
  simp only [TypesWritten, types_node, List.mem_append, List.mem_flatMap]
  constructor
  · intro all
    exact ⟨fun type member => all type (.inl member), fun child member type inside => all type (.inr ⟨child, member, inside⟩)⟩
  · rintro ⟨own, below⟩ type (member | ⟨child, member, inside⟩)
    · exact own type member
    · exact below child member type inside

section
attribute [local simp] Expr.toNode Stmt.toNode ForInit.toNodes Decl.toNode Node.typesWritten_node

mutual
theorem Expr.Written.types {expr : Expr} (written : expr.Written) : expr.toNode.TypesWritten := by
  match expr with
  | .name _ _ | .literal _ _ _ => simp
  | .binary _ _ _ _ => simp [written.2.1.types, written.2.2.types]
  | .unary _ _ _ | .step _ _ _ => simp [written.2.types]
  | .conditional _ _ _ _ => simp [written.1.types, written.2.1.types, written.2.2.types]
  | .call callee typeArgs args _ =>
    rw [Expr.toNode, Node.typesWritten_node, List.forall_mem_cons]
    exact ⟨(TypeExpr.allWritten_iff _).mp written.2.1, written.1.types, Expr.AllWritten.types written.2.2⟩
  | .member object _ _ _ => simp [written.1.types]
  | .index object position _ => simp [written.1.types, written.2.types]
  | .sizeofType type _ =>
    have type : type.Written := written
    simp [type]
  | .sizeofExpr inner _ | .paren inner _ =>
    have below : inner.toNode.TypesWritten := Expr.Written.types written
    simp [below]
  | .cast type operand _ =>
    have type : type.Written := written.1
    simp [type, written.2.types]
  | .initList elems _ =>
    rw [Expr.toNode, Node.typesWritten_node]
    exact ⟨by simp, @Expr.AllWritten.types elems written⟩

theorem Expr.AllWritten.types {exprs : List Expr} (written : Expr.AllWritten exprs) :
    ∀ node ∈ Expr.toNodes exprs, node.TypesWritten := by
  match exprs with
  | [] => simp [Expr.toNodes]
  | first :: rest =>
    rw [Expr.toNodes, List.forall_mem_cons]
    exact ⟨written.1.types, Expr.AllWritten.types written.2⟩
end

theorem Expr.OptionWritten.types {value : Option Expr} (written : OptionWritten value) :
    ∀ node ∈ Expr.optionalNodes value, node.TypesWritten := by
  intro node member
  obtain ⟨expr, found, rfl⟩ := List.mem_map.mp member
  exact (written expr (Option.mem_toList.mp found)).types

theorem Dimensions.Written.types {dims : Dimensions} (written : dims.Written) :
    ∀ node ∈ dims.toNodes, node.TypesWritten := by
  intro node member
  obtain ⟨expr, found, rfl⟩ := List.mem_map.mp member
  obtain ⟨size, inside, rfl⟩ := List.mem_filterMap.mp found
  exact (written _ inside expr rfl).types

theorem Declarator.Written.types {declarator : Declarator} (written : declarator.Written) :
    declarator.toNode.TypesWritten := by
  rw [Declarator.toNode, Node.typesWritten_node, List.forall_mem_append]
  exact ⟨by simpa using written.type, written.dims.types, written.init.types⟩

theorem VarDecl.Written.types {decl : VarDecl} (written : decl.Written) : decl.toNode.TypesWritten := by
  rw [VarDecl.toNode, Node.typesWritten_node, List.forall_mem_map]
  exact ⟨by simp, fun declarator member => (written.2 declarator member).types⟩

theorem ForInit.Written.types {init : ForInit} (written : init.Written) :
    ∀ node ∈ init.toNodes, node.TypesWritten := by
  cases init with
  | absent => simp [ForInit.toNodes]
  | vars decl =>
    rw [ForInit.toNodes, List.forall_mem_singleton]
    exact VarDecl.Written.types written
  | expr value loc =>
    have below : value.toNode.TypesWritten := Expr.Written.types written
    simp [below]

mutual
theorem Stmt.Written.types {stmt : Stmt} (written : stmt.Written) : stmt.toNode.TypesWritten := by
  match stmt with
  | .block stmts _ =>
    rw [Stmt.toNode, Node.typesWritten_node]
    exact ⟨by simp, @Stmt.AllWritten.types stmts written⟩
  | .ret value _ =>
    rw [Stmt.toNode, Node.typesWritten_node]
    exact ⟨by simp, @Expr.OptionWritten.types value written⟩
  | .ifThen _ _ _ | .whileLoop _ _ _ | .doWhile _ _ _ => simp [written.1.types, written.2.types]
  | .ifElse _ _ _ _ => simp [written.1.types, written.2.1.types, written.2.2.types]
  | .forLoop init test post body _ =>
    rw [Stmt.toNode, Node.typesWritten_node]
    simp only [List.forall_mem_append, List.forall_mem_singleton]
    exact ⟨by simp, ⟨⟨written.1.types, written.2.1.types⟩, written.2.2.1.types⟩, written.2.2.2.types⟩
  | .breakLoop _ | .continueLoop _ | .empty _ => simp
  | .expr value _ =>
    have below : value.toNode.TypesWritten := Expr.Written.types written
    simp [below]
  | .vars decl => exact @VarDecl.Written.types decl written

theorem Stmt.AllWritten.types {stmts : List Stmt} (written : Stmt.AllWritten stmts) :
    ∀ node ∈ Stmt.toNodes stmts, node.TypesWritten := by
  match stmts with
  | [] => simp [Stmt.toNodes]
  | first :: rest =>
    rw [Stmt.toNodes, List.forall_mem_cons]
    exact ⟨written.1.types, Stmt.AllWritten.types written.2⟩
end

theorem Field.Written.types {field : Field} (written : field.Written) : field.toNode.TypesWritten := by
  rw [Field.toNode, Node.typesWritten_node]
  exact ⟨by simpa using written.type, written.dims.types⟩

theorem Param.Written.types {param : Param} (written : param.Written) : param.toNode.TypesWritten := by
  rw [Param.toNode, Node.typesWritten_node]
  exact ⟨by simpa using written.type, written.dims.types⟩

theorem StructDecl.Written.types {decl : StructDecl} (written : decl.Written) : decl.toNode.TypesWritten := by
  rw [StructDecl.toNode, Node.typesWritten_node, List.forall_mem_map]
  exact ⟨by simp, fun field member => (written.fields field member).types⟩

theorem FuncDecl.Written.types {decl : FuncDecl} (written : decl.Written) : decl.toNode.TypesWritten := by
  rw [FuncDecl.toNode, Node.typesWritten_node]
  simp only [List.forall_mem_append, List.forall_mem_map, Option.mem_toList]
  refine ⟨by simpa using written.result, fun param member => (written.params param member).types, fun body found => ?_⟩
  exact @Stmt.Written.types body.toStmt (written.body body found)

theorem TypedefDecl.Written.types {decl : TypedefDecl} (written : decl.Written) : decl.toNode.TypesWritten := by
  have target := written.target
  unfold TypedefDecl.toNode
  split
  next type same =>
    have target : type.Written := by rwa [same] at target
    rw [Node.typesWritten_node]
    exact ⟨by simpa using target, written.dims.types⟩
  next struct same =>
    rw [same] at target
    rw [Node.typesWritten_node, List.forall_mem_cons]
    exact ⟨by simp, StructDecl.Written.types target, written.dims.types⟩

theorem EnumDecl.Written.types {decl : EnumDecl} (written : decl.Written) : decl.toNode.TypesWritten := by
  rw [EnumDecl.toNode, Node.typesWritten_node]
  refine ⟨by simp, fun node member => ?_⟩
  obtain ⟨item, found, inside⟩ := List.mem_flatMap.mp member
  exact (written.items item found).value.types node inside

theorem Decl.Written.types {decl : Decl} (written : decl.Written) : decl.toNode.TypesWritten := by
  cases decl with
  | struct decl => exact StructDecl.Written.types written
  | function decl => exact FuncDecl.Written.types written
  | vars decl => exact VarDecl.Written.types written
  | typedef decl => exact TypedefDecl.Written.types written
  | enum decl => exact EnumDecl.Written.types written
  | inclusion target line loc | directive line loc => simp

end

theorem isKeyMark_of_isNameByte {b : UInt8} (inside : Lexeme.isNameByte b = true) : isKeyMark b = false := by
  cases mark : isKeyMark b with
  | false => rfl
  | true =>
    simp only [isKeyMark, Bool.or_eq_true, decide_eq_true_eq] at mark
    rcases mark with (((rfl | rfl) | rfl) | rfl) | rfl <;> exact absurd inside (by decide)

theorem IsWord.keyName {word : Text} (isWord : IsWord word) : KeyName word := by
  obtain ⟨b, rest, rfl, start, inside⟩ := isWord
  refine ⟨List.cons_ne_nil _ _, ?_⟩
  intro c member
  rcases List.mem_cons.mp member with rfl | member
  · exact isKeyMark_of_isNameByte (isNameByte_of_start start)
  · exact isKeyMark_of_isNameByte (inside c member)

theorem isWord_iff (text : Text) :
    IsWord text ↔ (match text with
      | [] => false
      | b :: rest => Lexeme.isNameStart b && rest.all Lexeme.isNameByte) = true := by
  cases text with
  | nil => simp [IsWord]
  | cons b rest =>
    simp only [IsWord, List.cons.injEq, Bool.and_eq_true, List.all_eq_true]
    constructor
    · rintro ⟨_, _, ⟨rfl, rfl⟩, start, inside⟩
      exact ⟨start, inside⟩
    · intro holds
      exact ⟨b, rest, ⟨rfl, rfl⟩, holds⟩

theorem isWord_spelling {kind : TokenKind} (word : (kind.isTypeKeyword || kind.isTag || kind.isQualifier) = true) :
    IsWord kind.spelling := by
  rw [isWord_iff]
  cases kind <;> first | exact absurd word (by decide) | decide

theorem isWord_of_isTag {kind : TokenKind} (tag : kind.isTag = true) : IsWord kind.spelling :=
  isWord_spelling (by simp [tag])

theorem IsQualifierWord.isWord {word : Text} (qualifier : IsQualifierWord word) : IsWord word := by
  obtain ⟨kind, qualifier, rfl⟩ := qualifier
  exact isWord_spelling (by simp [qualifier])

theorem BaseWords.isWord {words : List Text} (base : BaseWords words) : ∀ word ∈ words, IsWord word := by
  cases base with
  | builtin some builtin =>
    intro word member
    obtain ⟨kind, inside, rfl⟩ := List.mem_map.mp member
    exact isWord_spelling (by simp [builtin kind inside])
  | tagged isTag isName =>
    simpa using ⟨isWord_of_isTag isTag, isName.word⟩
  | name isName => simpa using isName.word

theorem BaseWords.ne_nil {words : List Text} (base : BaseWords words) : words ≠ [] := by
  cases base with
  | builtin some builtin => simpa using some
  | tagged isTag isName | name isName => simp

theorem keyName_joinWith {words : List Text} (some : words ≠ []) (all : ∀ word ∈ words, IsWord word) :
    KeyName (Text.joinWith " " words) := by
  cases words with
  | nil => exact absurd rfl some
  | cons first rest =>
    have head := (all first List.mem_cons_self).keyName
    refine ⟨fun empty => head.1 (List.append_eq_nil_iff.mp empty).1, ?_⟩
    intro b member
    rcases List.mem_append.mp member with member | member
    · exact head.2 b member
    · obtain ⟨word, inside, member⟩ := List.mem_flatMap.mp member
      rcases List.mem_append.mp member with blank | member
      · have blanks : (Text.ofString " ").all (isKeyMark · == false) = true := by decide
        exact beq_iff_eq.mp (List.all_eq_true.mp blanks b blank)
      · exact (all word (List.mem_cons_of_mem _ inside)).keyName.2 b member

theorem TypeName.keyName {name : Text} (typeName : TypeName name) : KeyName name := by
  obtain ⟨front, base, qualifiers, words, rfl⟩ := typeName
  refine keyName_joinWith (by simp [words.ne_nil]) ?_
  rw [List.forall_mem_append]
  exact ⟨fun word member => (qualifiers.2 word member).isWord, words.isWord⟩

theorem GenericName.keyName {name : Text} (genericName : GenericName name) : KeyName name := by
  obtain ⟨front, word, qualifiers, isName, rfl⟩ := genericName
  refine keyName_joinWith (by simp) ?_
  rw [List.forall_mem_append]
  exact ⟨fun word member => (qualifiers.2 word member).isWord, by simpa using isName.word⟩

mutual
theorem TypeExpr.Written.keyed {type : TypeExpr} (written : type.Written) : type.Keyed := by
  match type with
  | .named _ _ => exact TypeName.keyName written
  | .applied _ args _ => exact ⟨written.1.keyName, TypeExpr.AllWritten.keyed written.2.2⟩
  | .pointer elem _ => exact @TypeExpr.Written.keyed elem written

theorem TypeExpr.AllWritten.keyed {types : List TypeExpr} (written : TypeExpr.AllWritten types) :
    TypeExpr.AllKeyed types := by
  match types with
  | [] => trivial
  | first :: rest => exact ⟨written.1.keyed, TypeExpr.AllWritten.keyed written.2⟩
end

end GenericC
