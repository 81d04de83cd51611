import GenericC.Token.Kind
import GenericC.Source.Span
import GenericC.Text.Quoted

/-! Tokens, each with the blanks and comments in front of it. -/

namespace GenericC

inductive TriviaKind
  | space | newline | lineComment | blockComment
deriving DecidableEq, Repr

namespace TriviaKind

def all : List TriviaKind := [space, newline, lineComment, blockComment]

def name : TriviaKind → Text
  | space => "Space"
  | newline => "Newline"
  | lineComment => "LineComment"
  | blockComment => "BlockComment"

end TriviaKind

structure Trivia where
  kind : TriviaKind
  span : Span
  text : Text
deriving DecidableEq, Repr

/-- One significant token. Its text is the part of the source that its span covers. -/
structure Token where
  kind : TokenKind
  span : Span
  text : Text := []
  leading : List Trivia := []
deriving DecidableEq, Repr, Inhabited

namespace Token

def isLiteral (token : Token) : Bool := token.kind.isLiteral

def isKeyword (token : Token) : Bool := token.kind.isKeyword

def describe (token : Token) : Text :=
  if token.kind = .endOfFile then "end of file"
  else if token.kind = .identifier then Text.ofString "identifier " ++ token.text.quoted
  else if token.kind = .directive then "preprocessor directive"
  else if token.isKeyword then Text.ofString "keyword '" ++ token.text ++ Text.ofString "'"
  else if token.isLiteral then Text.ofString "literal " ++ token.text
  else Text.ofString "'" ++ token.text ++ Text.ofString "'"

/-- A token without where it stands and what stands in front of it. -/
def content (token : Token) : TokenKind × Text := (token.kind, token.text)

end Token
end GenericC
