import GenericC.Terminal

/-! Which build of the tool this is. -/

namespace GenericC

structure BuildInfo where
  version : Text := "0.1.0-dev"
  commit : Text := []
  message : Text := []
  date : Text := []
deriving DecidableEq, Repr

namespace BuildInfo

/-- The version with its first three numbers in colours. What follows a `-` or `+` is left plain, and so is a
version with fewer than three numbers. -/
def coloured [Terminal] (info : BuildInfo) (painting : Bool) : Text :=
  let isMark (b : UInt8) : Bool := b = Text.byte '-' || b = Text.byte '+'
  let core : Text := info.version.takeWhile fun b => !isMark b
  let rest : Text := info.version.dropWhile fun b => !isMark b
  let paint (colour : Nat) (text : Text) : Text :=
    Terminal.paint { colour := some colour, bold := true } painting text
  match core.splitByte (Text.byte '.') with
  | major :: minor :: patch =>
    if patch.isEmpty then info.version
    else Text.concat [paint Style.yellow major, ".", paint Style.green minor, ".",
      paint Style.blue (Text.joinWith "." patch), rest]
  | _ => info.version

def long [Terminal] (info : BuildInfo) (painting : Bool) : Text :=
  let line (label value : Text) : Text := if value.isEmpty then [] else Text.concat [label, ": ", value, "\n"]
  Text.concat ["safec ", if painting then info.coloured true else info.version, "\n", line "commit" info.commit,
    line "message" info.message, line "built" info.date]

end BuildInfo
end GenericC
