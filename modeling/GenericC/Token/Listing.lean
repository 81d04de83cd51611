import GenericC.Token
import GenericC.Source.FileSet
import GenericC.Text.Json

/-! Lists of tokens for people and for tools. -/

namespace GenericC

def Span.toJson (span : Span) : Json :=
  .object [("File", .ofNat span.file.toNat), ("Start", .ofNat span.start.toNat), ("End", .ofNat span.stop.toNat)]

namespace Token

def upToEnd : List Token → List Token
  | [] => []
  | token :: rest => if token.kind = .endOfFile then [token] else token :: upToEnd rest

def place (files : Option FileSet) (token : Token) : Text :=
  match files.bind (·.resolve? token.span) with
  | none => []
  | some (start, stop) => start.render ++ Text.ofString "-" ++ stop.render

def leadingNames (token : Token) : List Text := token.leading.map (·.kind.name)

def listingLine (files : Option FileSet) (number : Nat) (token : Token) : Text :=
  let text := if token.text.isEmpty then [] else Text.ofString " " ++ token.text.quoted
  let place := token.place files
  let place := if place.isEmpty then [] else Text.ofString " at " ++ place
  let leading := if token.leading.isEmpty then []
    else Text.ofString " (leading: " ++ Text.joinWith ", " token.leadingNames ++ Text.ofString ")"
  Text.padLeft 3 (Text.ofNat number) ++ Text.ofString ": " ++ Text.padRight 15 token.kind.name ++ text ++ place ++
    leading ++ Text.ofString "\n"

private def listingLoop (files : Option FileSet) : Nat → List Token → List Text
  | _, [] => []
  | number, token :: rest => token.listingLine files number :: listingLoop files (number + 1) rest

def listing (files : Option FileSet) (tokens : List Token) : Text :=
  (listingLoop files 1 (upToEnd tokens)).flatten

def toJson (files : Option FileSet) (token : Token) : Json :=
  .ofGroups [[("kind", .string token.kind.name)], Json.optionalString "text" token.text,
    [("span", token.span.toJson)], Json.optionalString "pos" (token.place files),
    Json.optionalArray "leading" (token.leadingNames.map .string)]

def jsonListing (files : Option FileSet) (tokens : List Token) : Text :=
  (Json.array ((upToEnd tokens).map (toJson files))).document

end Token
end GenericC
