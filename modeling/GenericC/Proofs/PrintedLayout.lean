import GenericC.Emit.Unit

/-! What the text of a declaration is made of: tokens, blanks, and the two kinds of references that are written
under a C name, types and called generic functions. The layout of a construct lists them in order without
saying how the references are spelled; written out, it is the text that is printed. -/

namespace GenericC

inductive Fragment
  | token (kind : TokenKind) (text : Text)
  | blank (text : Text)
  | literal (kind : TokenKind) (text : Text)
  | type (type : TypeExpr)
  /-- A generic function that is called with types. -/
  | genericCall (name : Text) (args : List TypeExpr)

namespace Fragment

def mark (kind : TokenKind) : Fragment := token kind kind.spelling

def word (name : Text) : Fragment := token .identifier name

def space : Fragment := blank " "

def newline : Fragment := blank "\n"

/-- Layouts with commas in between, each comma followed by `gap`. -/
def joined (gap : Fragment) : List (List Fragment) → List Fragment
  | [] => []
  | first :: rest => first ++ rest.flatMap fun item => [mark .comma, gap] ++ item

end Fragment

def Storage.layout (storage : Storage) : List Fragment :=
  (if storage.isStatic then [.mark .kwStatic, .space] else []) ++
    (if storage.isExtern then [.mark .kwExtern, .space] else []) ++
    (if storage.isInline then [.mark .kwInline, .space] else [])

namespace Printer

variable (printer : Printer)

def typeLayout (type : TypeExpr) : List Fragment := [.type (printer.subst.type type)]

/-- The name of a generic function that is called with types, unless the callee is any other expression. -/
def genericCallee (callee : Expr) (typeArgs : List TypeExpr) : Option Fragment :=
  if typeArgs.isEmpty || callee.calleeName.isEmpty then none
  else if (printer.index.func? callee.calleeName).isSome then
    some (.genericCall callee.calleeName (printer.subst.types typeArgs))
  else some (.word callee.calleeName)

mutual
def exprLayout : Expr → List Fragment
  | .name called _ => [.word called]
  | .literal kind value _ => [.literal kind value]
  | .binary op left right _ =>
    if op = .comma then exprLayout left ++ [.mark .comma, .space] ++ exprLayout right
    else exprLayout left ++ [.space, .mark op, .space] ++ exprLayout right
  | .unary op operand _ =>
    [.mark op, .blank (operandGap op.spelling (printer.expr operand))] ++ exprLayout operand
  | .step op operand _ => exprLayout operand ++ [.mark op]
  | .conditional test yes no _ =>
    exprLayout test ++ [.space, .mark .question, .space] ++ exprLayout yes ++ [.space, .mark .colon, .space] ++ exprLayout no
  | .call callee typeArgs args _ =>
    (match printer.genericCallee callee typeArgs with
      | some name => [name]
      | none => exprLayout callee) ++ [.mark .leftParen] ++ exprsLayout args ++ [.mark .rightParen]
  | .member object field arrow _ => exprLayout object ++ [.mark (if arrow then .arrow else .dot), .word field]
  | .index object position _ => exprLayout object ++ [.mark .leftBracket] ++ exprLayout position ++ [.mark .rightBracket]
  | .sizeofType type _ => [.mark .kwSizeof, .mark .leftParen] ++ printer.typeLayout type ++ [.mark .rightParen]
  | .sizeofExpr operand _ =>
    match operand with
    | .paren _ _ => [.mark .kwSizeof] ++ exprLayout operand
    | _ => [.mark .kwSizeof, .space] ++ exprLayout operand
  | .cast type operand _ => [.mark .leftParen] ++ printer.typeLayout type ++ [.mark .rightParen] ++ exprLayout operand
  | .paren inner _ => [.mark .leftParen] ++ exprLayout inner ++ [.mark .rightParen]
  | .initList elems _ => [.mark .leftBrace] ++ exprsLayout elems ++ [.mark .rightBrace]

def exprsLayout : List Expr → List Fragment
  | [] => []
  | [only] => exprLayout only
  | first :: next :: rest => exprLayout first ++ [.mark .comma, .space] ++ exprsLayout (next :: rest)
end

def optionalLayout (value : Option Expr) : List Fragment := (value.map printer.exprLayout).getD []

def dimensionsLayout (dims : Dimensions) : List Fragment :=
  dims.flatMap fun size => [.mark .leftBracket] ++ printer.optionalLayout size ++ [.mark .rightBracket]

def declaredLayout (type : TypeExpr) (name : Text) (dims : Dimensions) : List Fragment :=
  printer.typeLayout type ++ (if name.isEmpty then [] else [.space, .word name]) ++ printer.dimensionsLayout dims

def initialLayout (init : Option Expr) : List Fragment :=
  match init with
  | some value => [.space, .mark .assign, .space] ++ printer.exprLayout value
  | none => []

def sharedLayout (declarator : Declarator) : List Fragment :=
  List.replicate (printer.subst.type declarator.type).pointerDepth (.mark .star) ++ [.word declarator.name] ++
    printer.dimensionsLayout declarator.dims ++ printer.initialLayout declarator.init

def varsLayout (decl : VarDecl) : List Fragment :=
  match decl.vars with
  | [] => decl.storage.layout
  | [only] =>
    decl.storage.layout ++ printer.declaredLayout only.type only.name only.dims ++ printer.initialLayout only.init
  | first :: _ =>
    decl.storage.layout ++ [.type (printer.subst.type first.type).base, .space] ++
      Fragment.joined .space (decl.vars.map printer.sharedLayout)

def paramLayout (param : Param) : List Fragment := printer.declaredLayout param.type param.name param.dims

def paramsLayout (decl : FuncDecl) : List Fragment :=
  let params := decl.params.map printer.paramLayout
  let params := if decl.variadic then params ++ [[.mark .ellipsis]] else params
  if params.isEmpty then [.mark .kwVoid] else Fragment.joined .space params

def signatureLayout (decl : FuncDecl) (name : Text) : List Fragment :=
  decl.storage.layout ++ printer.typeLayout decl.result ++ [.space, .word name, .mark .leftParen] ++
    printer.paramsLayout decl ++ [.mark .rightParen]

def fieldLayout (field : Field) : List Fragment :=
  [.blank (indent 1)] ++ printer.declaredLayout field.type field.name field.dims ++ [.mark .semicolon, .newline]

def fieldsLayout (fields : List Field) : List Fragment :=
  [.mark .leftBrace, .newline] ++ fields.flatMap printer.fieldLayout ++ [.mark .rightBrace]

def enumItemLayout (item : EnumItem) : List Fragment :=
  [.blank (indent 1), .word item.name] ++ printer.initialLayout item.value

def enumLayout (decl : EnumDecl) : List Fragment :=
  [.mark .kwEnum, .space] ++ (if decl.name.isEmpty then [] else [.word decl.name, .space]) ++ [.mark .leftBrace, .newline] ++
    Fragment.joined .newline (decl.items.map printer.enumItemLayout) ++ (if decl.items.isEmpty then [] else [.newline]) ++
    [.mark .rightBrace, .mark .semicolon, .newline, .newline]

end Printer

def StructDecl.keywordKind (decl : StructDecl) : TokenKind := if decl.isUnion then .kwUnion else .kwStruct

namespace Printer

variable (printer : Printer)

def typedefLayout (decl : TypedefDecl) : List Fragment :=
  [.mark .kwTypedef, .space] ++
    (match decl.target with
      | .type type => printer.declaredLayout type decl.name decl.dims ++ [.mark .semicolon, .newline]
      | .body struct =>
        [.mark struct.keywordKind, .space] ++ (if struct.name.isEmpty then [] else [.word struct.name, .space]) ++
          printer.fieldsLayout struct.fieldList ++ [.space, .word decl.name] ++ printer.dimensionsLayout decl.dims ++
          [.mark .semicolon, .newline, .newline])

def forInitLayout : ForInit → List Fragment
  | .absent => []
  | .vars decl => printer.varsLayout decl
  | .expr value _ => printer.exprLayout value

def spacedLayout (value : Option Expr) : List Fragment :=
  match value with
  | some value => [.space] ++ printer.exprLayout value
  | none => []

def lineBreak (level : Nat) : List Fragment := [.newline, .blank (indent level)]

mutual
def stmtLayout (level : Nat) : Stmt → List Fragment
  | .block stmts _ =>
    [.mark .leftBrace, .newline] ++ stmtsLayout (level + 1) stmts ++ [.blank (indent level), .mark .rightBrace]
  | .ret value _ => [.mark .kwReturn] ++ printer.spacedLayout value ++ [.mark .semicolon]
  | .ifThen test yes _ =>
    [.mark .kwIf, .space, .mark .leftParen] ++ printer.exprLayout test ++ [.mark .rightParen] ++
      (if yes.isBlock then [.space] ++ stmtLayout level yes else lineBreak (level + 1) ++ stmtLayout (level + 1) yes)
  | .ifElse test yes no _ =>
    [.mark .kwIf, .space, .mark .leftParen] ++ printer.exprLayout test ++ [.mark .rightParen] ++
      (if yes.isBlock then [.space] ++ stmtLayout level yes ++ [.space, .mark .kwElse]
      else lineBreak (level + 1) ++ stmtLayout (level + 1) yes ++ lineBreak level ++ [.mark .kwElse]) ++
      (if no.isBlock || no.isBranch then [.space] ++ stmtLayout level no
      else lineBreak (level + 1) ++ stmtLayout (level + 1) no)
  | .whileLoop test body _ =>
    [.mark .kwWhile, .space, .mark .leftParen] ++ printer.exprLayout test ++ [.mark .rightParen] ++
      (if body.isBlock then [.space] ++ stmtLayout level body else lineBreak (level + 1) ++ stmtLayout (level + 1) body)
  | .doWhile body test _ =>
    [.mark .kwDo] ++
      (if body.isBlock then [.space] ++ stmtLayout level body ++ [.space]
      else lineBreak (level + 1) ++ stmtLayout (level + 1) body ++ lineBreak level) ++
      [.mark .kwWhile, .space, .mark .leftParen] ++ printer.exprLayout test ++ [.mark .rightParen, .mark .semicolon]
  | .forLoop init test post body _ =>
    [.mark .kwFor, .space, .mark .leftParen] ++ printer.forInitLayout init ++ [.mark .semicolon] ++
      printer.spacedLayout test ++ [.mark .semicolon] ++ printer.spacedLayout post ++ [.mark .rightParen] ++
      (if body.isBlock then [.space] ++ stmtLayout level body else lineBreak (level + 1) ++ stmtLayout (level + 1) body)
  | .breakLoop _ => [.mark .kwBreak, .mark .semicolon]
  | .continueLoop _ => [.mark .kwContinue, .mark .semicolon]
  | .empty _ => [.mark .semicolon]
  | .expr value _ => printer.exprLayout value ++ [.mark .semicolon]
  | .vars decl => printer.varsLayout decl ++ [.mark .semicolon]

def stmtsLayout (level : Nat) : List Stmt → List Fragment
  | [] => []
  | first :: rest => [.blank (indent level)] ++ stmtLayout level first ++ [.newline] ++ stmtsLayout level rest
end

def functionLayout (decl : FuncDecl) (name : Text) (body : Block) : List Fragment :=
  printer.signatureLayout decl name ++ [.space] ++ printer.stmtLayout 0 body.toStmt ++ [.newline, .newline]

def prototypeLayout (decl : FuncDecl) (name : Text) : List Fragment :=
  printer.signatureLayout decl name ++ [.mark .semicolon, .newline]

def structBodyLayout (decl : StructDecl) (name : Text) (fields : List Field) : List Fragment :=
  [.mark decl.keywordKind, .space, .word name, .space] ++ printer.fieldsLayout fields ++ [.mark .semicolon, .newline, .newline]

def structLayout (decl : StructDecl) : List Fragment :=
  match decl.fields with
  | none => [.mark decl.keywordKind, .space, .word decl.name, .mark .semicolon, .newline]
  | some fields => printer.structBodyLayout decl decl.name fields

/-- A declaration of a C file; generic ones and preprocessor lines are written elsewhere. -/
def declLayout : Decl → List Fragment
  | .struct decl => if decl.isGeneric then [] else printer.structLayout decl
  | .function decl =>
    if decl.isGeneric then []
    else match decl.body with
      | none => printer.prototypeLayout decl decl.name
      | some body => printer.functionLayout decl decl.name body
  | .vars decl => printer.varsLayout decl ++ [.mark .semicolon, .newline]
  | .typedef decl => printer.typedefLayout decl
  | .enum decl => printer.enumLayout decl
  | .inclusion _ _ _ => []
  | .directive _ _ => []

def written : Fragment → Text
  | .token _ text => text
  | .blank text => text
  | .literal _ text => text
  | .type type => printer.render type
  | .genericCall name args => mangle name args

def write (layout : List Fragment) : Text := layout.flatMap printer.written

@[simp] theorem write_nil : printer.write [] = [] := rfl

@[simp] theorem write_cons (first : Fragment) (rest : List Fragment) :
    printer.write (first :: rest) = printer.written first ++ printer.write rest := rfl

@[simp] theorem write_append (first second : List Fragment) :
    printer.write (first ++ second) = printer.write first ++ printer.write second := List.flatMap_append

@[simp] theorem written_token (kind : TokenKind) (text : Text) : printer.written (.token kind text) = text := rfl
@[simp] theorem written_mark (kind : TokenKind) : printer.written (.mark kind) = kind.spelling := rfl
@[simp] theorem written_word (name : Text) : printer.written (.word name) = name := rfl
@[simp] theorem written_space : printer.written .space = Text.ofString " " := rfl
@[simp] theorem written_newline : printer.written .newline = Text.ofString "\n" := rfl

@[simp] theorem written_blank (text : Text) : printer.written (.blank text) = text := rfl
@[simp] theorem written_literal (kind : TokenKind) (text : Text) : printer.written (.literal kind text) = text := rfl
@[simp] theorem written_type (type : TypeExpr) : printer.written (.type type) = printer.render type := rfl

@[simp] theorem write_typeLayout (type : TypeExpr) : printer.write (printer.typeLayout type) = printer.type type :=
  List.append_nil _

end Printer

@[simp] theorem concat_nil : Text.concat [] = [] := rfl

@[simp] theorem concat_cons (first : Text) (rest : List Text) :
    Text.concat (first :: rest) = first ++ Text.concat rest := rfl

namespace Printer

variable (printer : Printer)

section
open Text TokenKind

/-- The fixed stretches of printed text, cut into tokens and blanks. -/
private theorem spellings :
    ofString "" = [] ∧
    ofString ", " = comma.spelling ++ ofString " " ∧
    ofString ",\n" = comma.spelling ++ ofString "\n" ∧
    ofString " ? " = ofString " " ++ (question.spelling ++ ofString " ") ∧
    ofString " : " = ofString " " ++ (colon.spelling ++ ofString " ") ∧
    ofString "(" = leftParen.spelling ∧
    ofString ")" = rightParen.spelling ∧
    ofString "[" = leftBracket.spelling ∧
    ofString "]" = rightBracket.spelling ∧
    ofString "\x7b" = leftBrace.spelling ∧
    ofString "\x7d" = rightBrace.spelling ∧
    ofString ";" = semicolon.spelling ∧
    ofString "." = dot.spelling ∧
    ofString "->" = arrow.spelling ∧
    ofString "..." = ellipsis.spelling ∧
    ofString "sizeof" = kwSizeof.spelling ∧
    ofString "sizeof " = kwSizeof.spelling ++ ofString " " ∧
    ofString "sizeof(" = kwSizeof.spelling ++ leftParen.spelling := by
  decide

private theorem lineSpellings :
    ofString " = " = ofString " " ++ (assign.spelling ++ ofString " ") ∧
    ofString "\x7b\n" = leftBrace.spelling ++ ofString "\n" ∧
    ofString ";\n" = semicolon.spelling ++ ofString "\n" ∧
    ofString ";\n\n" = semicolon.spelling ++ (ofString "\n" ++ ofString "\n") ∧
    ofString "\x7d;\n\n" =
      rightBrace.spelling ++ (semicolon.spelling ++ (ofString "\n" ++ ofString "\n")) ∧
    ofString "\n\n" = ofString "\n" ++ ofString "\n" ∧
    ofString "void" = kwVoid.spelling ∧
    ofString "enum " = kwEnum.spelling ++ ofString " " ∧
    ofString "typedef " = kwTypedef.spelling ++ ofString " " ∧
    ofString "static " = kwStatic.spelling ++ ofString " " ∧
    ofString "extern " = kwExtern.spelling ++ ofString " " ∧
    ofString "inline " = kwInline.spelling ++ ofString " " ∧
    ofString "return" = kwReturn.spelling ∧
    ofString "if (" = kwIf.spelling ++ (ofString " " ++ leftParen.spelling) ∧
    ofString "while (" = kwWhile.spelling ++ (ofString " " ++ leftParen.spelling) ∧
    ofString "for (" = kwFor.spelling ++ (ofString " " ++ leftParen.spelling) ∧
    ofString ");" = rightParen.spelling ++ semicolon.spelling ∧
    ofString " else" = ofString " " ++ kwElse.spelling ∧
    ofString "else" = kwElse.spelling ∧
    ofString "do" = kwDo.spelling ∧
    ofString "break;" = kwBreak.spelling ++ semicolon.spelling ∧
    ofString "continue;" = kwContinue.spelling ++ semicolon.spelling := by
  decide

end

attribute [local simp] spellings lineSpellings exprLayout Printer.expr stmtLayout Printer.stmt

theorem write_genericCallee (callee : Expr) (typeArgs : List TypeExpr) :
    (printer.genericCallee callee typeArgs).map printer.written = printer.genericCallee? callee typeArgs := by
  unfold genericCallee genericCallee?
  split
  · rfl
  · split <;> rfl

mutual
theorem write_exprLayout (expr : Expr) : printer.write (printer.exprLayout expr) = printer.expr expr := by
  cases expr with
  | name called loc | literal kind value loc | sizeofType type loc => simp
  | binary op left right loc =>
    rw [exprLayout, Printer.expr]
    split <;> simp [write_exprLayout left, write_exprLayout right]
  | unary op inner loc | step op inner loc | cast type inner loc | paren inner loc => simp [write_exprLayout inner]
  | conditional test yes no loc => simp [write_exprLayout test, write_exprLayout yes, write_exprLayout no]
  | call callee typeArgs args loc =>
    rw [exprLayout, Printer.expr, ← write_genericCallee]
    cases printer.genericCallee callee typeArgs with
    | some name => simp [write_exprsLayout args]
    | none => simp [write_exprLayout callee, write_exprsLayout args]
  | member object field arrow loc => cases arrow <;> simp [write_exprLayout object]
  | index object position loc => simp [write_exprLayout object, write_exprLayout position]
  | sizeofExpr operand loc =>
    have below := write_exprLayout operand
    rw [exprLayout.eq_def, Printer.expr.eq_def]
    dsimp only
    split <;> simp [below, -exprLayout, -Printer.expr]
  | initList elems loc => simp [write_exprsLayout elems]

theorem write_exprsLayout (exprs : List Expr) : printer.write (printer.exprsLayout exprs) = printer.exprs exprs := by
  cases exprs with
  | nil => simp [exprsLayout, Printer.exprs]
  | cons first rest =>
    have later := write_exprsLayout rest
    cases rest with
    | nil => simp [exprsLayout, Printer.exprs, write_exprLayout first]
    | cons next rest => simp [exprsLayout, Printer.exprs, write_exprLayout first, later]
end

theorem write_optionalLayout (value : Option Expr) :
    printer.write (printer.optionalLayout value) = printer.optionalExpr value := by
  cases value <;> simp [optionalLayout, optionalExpr, write_exprLayout]

theorem write_flatMap {α : Type} (items : List α) (layout : α → List Fragment) :
    printer.write (items.flatMap layout) = items.flatMap fun item => printer.write (layout item) :=
  List.flatMap_assoc

theorem write_joined (gap : Fragment) (items : List (List Fragment)) :
    printer.write (Fragment.joined gap items) =
      Text.joinWith (TokenKind.comma.spelling ++ printer.written gap) (items.map printer.write) := by
  cases items with
  | nil => rfl
  | cons first rest =>
    simp [Fragment.joined, Text.joinWith, write_flatMap, List.flatMap_map]

theorem write_dimensionsLayout (dims : Dimensions) :
    printer.write (printer.dimensionsLayout dims) = printer.dimensions dims := by
  simp [dimensionsLayout, dimensions, write_flatMap, write_optionalLayout]

theorem write_declaredLayout (type : TypeExpr) (name : Text) (dims : Dimensions) :
    printer.write (printer.declaredLayout type name dims) = printer.declared type name dims := by
  unfold declaredLayout declared
  split <;> simp [write_dimensionsLayout]

theorem write_initialLayout (init : Option Expr) :
    printer.write (printer.initialLayout init) = printer.initial init := by
  cases init <;> simp [initialLayout, initial, write_exprLayout]

theorem write_storageLayout (storage : Storage) : printer.write storage.layout = storage.render := by
  unfold Storage.layout Storage.render
  split <;> split <;> split <;> simp 

theorem write_stars (count : Nat) :
    printer.write (List.replicate count (.mark .star)) = List.replicate count (Text.byte '*') := by
  induction count with
  | zero => rfl
  | succ count ih =>
    rw [List.replicate_succ, List.replicate_succ, write_cons, ih]
    rfl

theorem write_sharedLayout (declarator : Declarator) :
    printer.write (printer.sharedLayout declarator) = printer.sharedDeclarator declarator := by
  simp [sharedLayout, sharedDeclarator, write_stars, write_dimensionsLayout, write_initialLayout]

theorem write_varsLayout (decl : VarDecl) : printer.write (printer.varsLayout decl) = printer.vars decl := by
  have shared : printer.write ∘ printer.sharedLayout = printer.sharedDeclarator := funext printer.write_sharedLayout
  unfold varsLayout vars
  rcases decl.vars with _ | ⟨first, _ | ⟨next, rest⟩⟩
  · exact write_storageLayout printer decl.storage
  · simp [write_storageLayout, write_declaredLayout, write_initialLayout]
  · simp [write_storageLayout, write_joined, write_sharedLayout, shared]

theorem write_signatureLayout (decl : FuncDecl) (name : Text) :
    printer.write (printer.signatureLayout decl name) = printer.signature decl name := by
  have params : printer.write ∘ printer.paramLayout =
      fun param => printer.declared param.type param.name param.dims :=
    funext fun param => printer.write_declaredLayout param.type param.name param.dims
  unfold signatureLayout signature paramsLayout
  dsimp only
  cases decl.variadic with
  | true => simp [write_storageLayout, write_joined, params]
  | false =>
    cases decl.params with
    | nil => simp [write_storageLayout]
    | cons first rest =>
      have first : printer.write (printer.paramLayout first) = printer.declared first.type first.name first.dims :=
        congrFun params first
      simp [write_storageLayout, write_joined, first, params]

theorem write_fieldsLayout (fields : List Field) :
    printer.write (printer.fieldsLayout fields) = printer.fields fields := by
  simp [fieldsLayout, fieldLayout, Printer.fields, write_flatMap, write_declaredLayout]

theorem write_enumLayout (decl : EnumDecl) : printer.write (printer.enumLayout decl) = printer.enum decl := by
  have items : printer.write ∘ printer.enumItemLayout = printer.enumItem := by
    funext item
    simp [enumItemLayout, enumItem, write_initialLayout]
  unfold enumLayout Printer.enum
  split <;> split <;> simp [write_joined, items]

theorem write_keyword (decl : StructDecl) : decl.keywordKind.spelling = decl.keyword := by
  unfold StructDecl.keywordKind StructDecl.keyword
  split <;> decide

theorem write_typedefLayout (decl : TypedefDecl) :
    printer.write (printer.typedefLayout decl) = printer.typedef decl := by
  unfold typedefLayout Printer.typedef
  cases decl.target with
  | type type => simp [write_declaredLayout]
  | body struct =>
    dsimp only
    split <;> simp [write_fieldsLayout, write_dimensionsLayout, write_keyword]

theorem write_forInitLayout (init : ForInit) : printer.write (printer.forInitLayout init) = printer.forInit init := by
  cases init <;> simp [forInitLayout, forInit, write_varsLayout, write_exprLayout]

theorem write_spacedLayout (value : Option Expr) :
    printer.write (printer.spacedLayout value) = printer.spaced value := by
  cases value with
  | none => rfl
  | some value =>
    simp only [spacedLayout, spaced, write_append, write_exprLayout]
    rfl

theorem write_lineBreak (level : Nat) : printer.write (lineBreak level) = Text.ofString "\n" ++ indent level := by
  simp [lineBreak]

private theorem byte_space (text : Text) : Text.byte ' ' :: text = Text.ofString " " ++ text := rfl

mutual
theorem write_stmtLayout (level : Nat) (stmt : Stmt) :
    printer.write (printer.stmtLayout level stmt) = printer.stmt level stmt := by
  cases stmt with
  | block stmts loc => simp [write_stmtsLayout (level + 1) stmts]
  | ret value loc => simp [write_spacedLayout]
  | ifThen test body loc | whileLoop test body loc | doWhile body test loc =>
    rw [stmtLayout, Printer.stmt]
    split <;> simp [write_exprLayout, write_lineBreak, write_stmtLayout _ body, byte_space]
  | ifElse test yes no loc =>
    rw [stmtLayout, Printer.stmt]
    split <;> split <;>
      simp [write_exprLayout, write_lineBreak, write_stmtLayout _ yes, write_stmtLayout _ no, byte_space]
  | forLoop init test post body loc =>
    rw [stmtLayout, Printer.stmt]
    split <;> simp [write_forInitLayout, write_spacedLayout, write_lineBreak, write_stmtLayout _ body, byte_space]
  | breakLoop loc | continueLoop loc | empty loc => simp
  | expr value loc => simp [write_exprLayout]
  | vars decl => simp [write_varsLayout]

theorem write_stmtsLayout (level : Nat) (stmts : List Stmt) :
    printer.write (printer.stmtsLayout level stmts) = printer.stmts level stmts := by
  cases stmts with
  | nil => simp [stmtsLayout, Printer.stmts]
  | cons first rest =>
    simp [stmtsLayout, Printer.stmts, write_stmtLayout level first, write_stmtsLayout level rest]
end

theorem write_functionLayout (decl : FuncDecl) (name : Text) (body : Block) :
    printer.write (printer.functionLayout decl name body) = printer.function decl name body := by
  simp [functionLayout, Printer.function, write_signatureLayout, write_stmtLayout]

theorem write_prototypeLayout (decl : FuncDecl) (name : Text) :
    printer.write (printer.prototypeLayout decl name) = Text.concat [printer.signature decl name, ";\n"] := by
  simp [prototypeLayout, write_signatureLayout]

theorem write_structBodyLayout (decl : StructDecl) (name : Text) (fields : List Field) :
    printer.write (printer.structBodyLayout decl name fields) =
      Text.concat [decl.keyword, " ", name, " ", printer.fields fields, ";\n\n"] := by
  simp [structBodyLayout, write_keyword, write_fieldsLayout]

theorem write_structLayout (decl : StructDecl) : printer.write (printer.structLayout decl) = printer.struct decl := by
  unfold structLayout Printer.struct
  cases decl.fields with
  | none => simp [write_keyword]
  | some fields => exact write_structBodyLayout printer decl decl.name fields

theorem write_declLayout (decl : Decl) : printer.write (printer.declLayout decl) = Emitter.declText printer decl := by
  cases decl with
  | struct decl =>
    simp only [declLayout, Emitter.declText]
    split
    · rfl
    · exact write_structLayout printer decl
  | function decl =>
    simp only [declLayout, Emitter.declText]
    split
    · rfl
    · cases decl.body with
      | none => exact write_prototypeLayout printer decl decl.name
      | some body => exact write_functionLayout printer decl decl.name body
  | vars decl => simp [declLayout, Emitter.declText, write_varsLayout]
  | typedef decl => exact write_typedefLayout printer decl
  | enum decl => exact write_enumLayout printer decl
  | inclusion target line loc | directive line loc => rfl

end Printer
end GenericC
