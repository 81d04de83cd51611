import GenericC.Text

/-! The kinds of tokens. -/

namespace GenericC

inductive TokenKind
  | invalid | endOfFile | identifier | integer | floating | string | character | directive | kwStruct
  | kwUnion | kwEnum | kwTypedef | kwVoid | kwInt | kwChar | kwFloat | kwDouble | kwLong | kwShort
  | kwUnsigned | kwSigned | kwConst | kwVolatile | kwStatic | kwExtern | kwInline | kwReturn | kwIf
  | kwElse | kwWhile | kwDo | kwFor | kwBreak | kwContinue | kwSizeof | leftBrace | rightBrace | leftParen
  | rightParen | leftBracket | rightBracket | less | greater | lessEqual | greaterEqual | equal | notEqual
  | semicolon | comma | dot | ellipsis | arrow | assign | plus | minus | star | slash | percent | amp
  | pipe | caret | tilde | bang | question | colon | andAnd | orOr | shiftLeft | shiftRight | plusAssign
  | minusAssign | starAssign | slashAssign | percentAssign | ampAssign | pipeAssign | caretAssign
  | shiftLeftAssign | shiftRightAssign | plusPlus | minusMinus
deriving DecidableEq, Repr, Inhabited

namespace TokenKind

def table : List (TokenKind × String) := [
  (.invalid, "Invalid"), (.endOfFile, "EOF"), (.identifier, "Ident"), (.integer, "IntLit"),
  (.floating, "FloatLit"), (.string, "StringLit"), (.character, "CharLit"), (.directive, "Directive"),
  (.kwStruct, "KwStruct"), (.kwUnion, "KwUnion"), (.kwEnum, "KwEnum"), (.kwTypedef, "KwTypedef"),
  (.kwVoid, "KwVoid"), (.kwInt, "KwInt"), (.kwChar, "KwChar"), (.kwFloat, "KwFloat"),
  (.kwDouble, "KwDouble"), (.kwLong, "KwLong"), (.kwShort, "KwShort"), (.kwUnsigned, "KwUnsigned"),
  (.kwSigned, "KwSigned"), (.kwConst, "KwConst"), (.kwVolatile, "KwVolatile"), (.kwStatic, "KwStatic"),
  (.kwExtern, "KwExtern"), (.kwInline, "KwInline"), (.kwReturn, "KwReturn"), (.kwIf, "KwIf"),
  (.kwElse, "KwElse"), (.kwWhile, "KwWhile"), (.kwDo, "KwDo"), (.kwFor, "KwFor"), (.kwBreak, "KwBreak"),
  (.kwContinue, "KwContinue"), (.kwSizeof, "KwSizeof"), (.leftBrace, "LBrace"), (.rightBrace, "RBrace"),
  (.leftParen, "LParen"), (.rightParen, "RParen"), (.leftBracket, "LBracket"), (.rightBracket, "RBracket"),
  (.less, "Lt"), (.greater, "Gt"), (.lessEqual, "LtEq"), (.greaterEqual, "GtEq"), (.equal, "EqEq"),
  (.notEqual, "BangEq"), (.semicolon, "Semicolon"), (.comma, "Comma"), (.dot, "Dot"),
  (.ellipsis, "Ellipsis"), (.arrow, "Arrow"), (.assign, "Assign"), (.plus, "Plus"), (.minus, "Minus"),
  (.star, "Star"), (.slash, "Slash"), (.percent, "Percent"), (.amp, "Amp"), (.pipe, "Pipe"),
  (.caret, "Caret"), (.tilde, "Tilde"), (.bang, "Bang"), (.question, "Question"), (.colon, "Colon"),
  (.andAnd, "AndAnd"), (.orOr, "OrOr"), (.shiftLeft, "Shl"), (.shiftRight, "Shr"),
  (.plusAssign, "PlusAssign"), (.minusAssign, "MinusAssign"), (.starAssign, "StarAssign"),
  (.slashAssign, "SlashAssign"), (.percentAssign, "PercentAssign"), (.ampAssign, "AmpAssign"),
  (.pipeAssign, "PipeAssign"), (.caretAssign, "CaretAssign"), (.shiftLeftAssign, "ShlAssign"),
  (.shiftRightAssign, "ShrAssign"), (.plusPlus, "PlusPlus"), (.minusMinus, "MinusMinus")]

def keywords : List (TokenKind × String) := [
  (.kwStruct, "struct"), (.kwUnion, "union"), (.kwEnum, "enum"), (.kwTypedef, "typedef"), (.kwVoid, "void"),
  (.kwInt, "int"), (.kwChar, "char"), (.kwFloat, "float"), (.kwDouble, "double"), (.kwLong, "long"),
  (.kwShort, "short"), (.kwUnsigned, "unsigned"), (.kwSigned, "signed"), (.kwConst, "const"),
  (.kwVolatile, "volatile"), (.kwStatic, "static"), (.kwExtern, "extern"), (.kwInline, "inline"),
  (.kwReturn, "return"), (.kwIf, "if"), (.kwElse, "else"), (.kwWhile, "while"), (.kwDo, "do"),
  (.kwFor, "for"), (.kwBreak, "break"), (.kwContinue, "continue"), (.kwSizeof, "sizeof")]

def operators : List (TokenKind × String) := [
  (.leftBrace, "\x7b"), (.rightBrace, "\x7d"), (.leftParen, "("), (.rightParen, ")"), (.leftBracket, "["),
  (.rightBracket, "]"), (.less, "<"), (.greater, ">"), (.lessEqual, "<="), (.greaterEqual, ">="),
  (.equal, "=="), (.notEqual, "!="), (.semicolon, ";"), (.comma, ","), (.dot, "."), (.ellipsis, "..."),
  (.arrow, "->"), (.assign, "="), (.plus, "+"), (.minus, "-"), (.star, "*"), (.slash, "/"), (.percent, "%"),
  (.amp, "&"), (.pipe, "|"), (.caret, "^"), (.tilde, "~"), (.bang, "!"), (.question, "?"), (.colon, ":"),
  (.andAnd, "&&"), (.orOr, "||"), (.shiftLeft, "<<"), (.shiftRight, ">>"), (.plusAssign, "+="),
  (.minusAssign, "-="), (.starAssign, "*="), (.slashAssign, "/="), (.percentAssign, "%="),
  (.ampAssign, "&="), (.pipeAssign, "|="), (.caretAssign, "^="), (.shiftLeftAssign, "<<="),
  (.shiftRightAssign, ">>="), (.plusPlus, "++"), (.minusMinus, "--")]

def name (kind : TokenKind) : Text :=
  match table.find? (fun row => row.1 = kind) with
  | some row => row.2
  | none => "Kind(?)"

/-- The spelling of an operator, a mark or a keyword; empty for kinds with many spellings. -/
def spelling (kind : TokenKind) : Text :=
  match (operators ++ keywords).find? (fun row => row.1 = kind) with
  | some row => row.2
  | none => []

def keyword? (word : Text) : Option TokenKind :=
  (keywords.find? fun row => Text.ofString row.2 = word).map Prod.fst

def isKeyword (kind : TokenKind) : Bool := keywords.any fun row => row.1 = kind

def isLiteral : TokenKind → Bool
  | integer | floating | string | character => true
  | _ => false

def isAssign : TokenKind → Bool
  | assign | plusAssign | minusAssign | starAssign | slashAssign | percentAssign | ampAssign | pipeAssign
  | caretAssign | shiftLeftAssign | shiftRightAssign => true
  | _ => false

def isTypeKeyword : TokenKind → Bool
  | kwVoid | kwInt | kwChar | kwFloat | kwDouble | kwLong | kwShort | kwUnsigned | kwSigned => true
  | _ => false

def isQualifier : TokenKind → Bool
  | kwConst | kwVolatile => true
  | _ => false

def isStorage : TokenKind → Bool
  | kwStatic | kwExtern | kwInline => true
  | _ => false

def isTag : TokenKind → Bool
  | kwStruct | kwUnion | kwEnum => true
  | _ => false

end TokenKind
end GenericC
