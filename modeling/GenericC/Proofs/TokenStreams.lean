import GenericC.Parser

/-! Tokens as a rule of the grammar sees them: a kind and a text. The type names that a file declares are told from
these alone. -/

namespace GenericC

/-- What a rule of the grammar sees of a token. -/
abbrev Content := TokenKind × Text

def Content.mark (kind : TokenKind) : Content := (kind, kind.spelling)

def Content.word (name : Text) : Content := (.identifier, name)

open Content (mark)

def Place.contents (place : Place) : List Content := (place.current :: place.upcoming).map Token.content

namespace ParseState

def stream (state : ParseState) : List Content := state.place.contents

def knows (state : ParseState) (name : Text) : Bool :=
  state.typeNames.contains name || state.typeParams.any (·.contains name)

theorem stream_eq (state : ParseState) :
    state.stream = state.place.current.content :: state.place.upcoming.map Token.content := rfl

end ParseState

def headKind (stream : List Content) : TokenKind := (stream.head?.map Prod.fst).getD .endOfFile

theorem ParseState.headKind_stream (state : ParseState) : headKind state.stream = state.place.current.kind := rfl

def TokenKind.nesting : TokenKind → Int
  | leftBrace | leftParen | leftBracket => 1
  | rightBrace | rightParen | rightBracket => -1
  | _ => 0

/-- The name that a typedef introduces, told from the tokens behind its keyword. -/
def typedefNameIn : (depth : Int) → (name : Text) → List Content → Option Text
  | _, _, [] => none
  | depth, name, (kind, text) :: rest =>
    if kind = .identifier then typedefNameIn depth (if depth = 0 then text else name) rest
    else if kind = .semicolon then
      if depth = 0 then if name.isEmpty then none else some name
      else typedefNameIn depth name rest
    else if kind = .endOfFile then none
    else typedefNameIn (depth + kind.nesting) name rest

def declaredBy (x : Content) (rest : List Content) : List Text :=
  if x.1.isTag then ((rest.head?.filter (·.1 = .identifier)).map Prod.snd).toList
  else if x.1 = .kwTypedef then (typedefNameIn 0 [] rest).toList
  else []

def declaredNames : List Content → List Text
  | [] => []
  | x :: rest => declaredBy x rest ++ declaredNames rest

theorem typedefName?_eq (depth : Int) (name : Text) (tokens : List Token) :
    typedefName? depth name tokens = typedefNameIn depth name (tokens.map Token.content) := by
  induction tokens generalizing depth name with
  | nil => rfl
  | cons token rest ih =>
    obtain ⟨kind, span, text, leading⟩ := token
    rw [List.map_cons]
    cases kind <;> simp only [typedefName?, typedefNameIn, Token.content, ih, TokenKind.nesting, reduceCtorEq,
      ↓reduceIte, Int.add_zero] <;> rfl

@[simp] theorem Token.content_fst (token : Token) : token.content.1 = token.kind := rfl

@[simp] theorem Token.content_snd (token : Token) : token.content.2 = token.text := rfl

theorem declaredTypeNames_eq (tokens : List Token) :
    declaredTypeNames tokens = declaredNames (tokens.map Token.content) := by
  induction tokens with
  | nil => rfl
  | cons token rest ih =>
    rw [List.map_cons, declaredNames, declaredBy, ← ih, Token.content_fst]
    cases rest with
    | nil => simp [declaredTypeNames, typedefNameIn]
    | cons next rest =>
      rw [declaredTypeNames, typedefName?_eq]
      by_cases tag : token.kind.isTag = true
      · by_cases named : next.kind = .identifier <;> simp [tag, named, Option.filter]
      · by_cases typedef : token.kind = .kwTypedef
        · rw [if_neg tag, if_neg tag, if_pos typedef, if_pos typedef]
        · rw [if_neg tag, if_neg tag, if_neg typedef, if_neg typedef, List.nil_append]

end GenericC
