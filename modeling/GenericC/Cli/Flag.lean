import GenericC.Text.Duration
import GenericC.Text.Integer
import GenericC.Text.Quoted

/-! Flags of a command line and how they are given. -/

namespace GenericC

inductive FlagKind
  | text
  | switch
  | number
  | duration
deriving DecidableEq, Repr

namespace FlagKind

/-- What a value is called in a list of flags; nothing for a switch, which needs none. -/
def placeholder : FlagKind → Text
  | text => "string"
  | switch => ""
  | number => "int"
  | duration => "duration"

end FlagKind

structure Flag where
  name : Text
  short : Option UInt8 := none
  kind : FlagKind
  usual : Text := []
  usage : Text
deriving DecidableEq, Repr

namespace Flag

def ofSwitch (name usage : Text) : Flag := { name, kind := .switch, usual := "false", usage }

def ofText (name usual usage : Text) : Flag := { name, kind := .text, usual, usage }

def ofNumber (name usual usage : Text) : Flag := { name, kind := .number, usual, usage }

def truth? (value : Text) : Option Bool :=
  if (["1", "t", "T", "TRUE", "true", "True"] : List Text).contains value then some true
  else if (["0", "f", "F", "FALSE", "false", "False"] : List Text).contains value then some false
  else none

def complaint? (kind : FlagKind) (value : Text) : Option Text :=
  match kind with
  | .text => none
  | .switch =>
    if (truth? value).isSome then none
    else some (Text.concat ["strconv.ParseBool: parsing ", value.quoted, ": invalid syntax"])
  | .number =>
    match value.toInteger with
    | .ok _ => none
    | .error .malformed => some (Text.concat ["strconv.ParseInt: parsing ", value.quoted, ": invalid syntax"])
    | .error .outOfRange => some (Text.concat ["strconv.ParseInt: parsing ", value.quoted, ": value out of range"])
  | .duration =>
    match value.toDuration with
    | .ok _ => none
    | .error fault => some (fault.message value)

def title (flag : Flag) : Text :=
  match flag.short with
  | some letter => Text.concat ["-", [letter], ", --", flag.name]
  | none => Text.concat ["--", flag.name]

end Flag

inductive FlagFault
  | badForm (argument : Text)
  | unknown (name : Text)
  | unknownShort (letter : UInt8) (letters : Text)
  | missingValue (name : Text)
  | missingShortValue (letter : UInt8) (letters : Text)
  | badValue (flag : Flag) (value reason : Text)
deriving DecidableEq, Repr

namespace FlagFault

/-- A letter in quotes. A byte beyond ASCII is shown by the first byte of its code point. -/
def quotedLetter (letter : UInt8) : Text :=
  let code := if letter < 0x80 then letter.toNat else if letter < 0xC0 then 0xC2 else 0xC3
  let inside := ((Text.quoted (Text.ofCode code)).drop 1).dropLast
  let inside : Text := if inside = Text.ofString "\\\"" then "\"" else if inside = Text.ofString "'" then "\\'" else inside
  Text.concat ["'", inside, "'"]

def message : FlagFault → Text
  | badForm argument => Text.concat ["bad flag syntax: ", argument]
  | unknown name => Text.concat ["unknown flag: --", name]
  | unknownShort letter letters => Text.concat ["unknown shorthand flag: ", quotedLetter letter, " in -", letters]
  | missingValue name => Text.concat ["flag needs an argument: --", name]
  | missingShortValue letter letters => Text.concat ["flag needs an argument: ", quotedLetter letter, " in -", letters]
  | badValue flag value reason =>
    Text.concat ["invalid argument ", value.quoted, " for ", flag.title.quoted, " flag: ", reason]

end FlagFault

structure Arguments where
  given : List (Text × Text) := []
  rest : List Text := []
deriving DecidableEq, Repr

namespace Arguments

def isGiven (arguments : Arguments) (name : Text) : Bool := arguments.given.any (·.1 = name)

def value? (arguments : Arguments) (name : Text) : Option Text :=
  (arguments.given.reverse.find? (·.1 = name)).map (·.2)

def text (arguments : Arguments) (flag : Flag) : Text := (arguments.value? flag.name).getD flag.usual

def truth (arguments : Arguments) (flag : Flag) : Bool := (Flag.truth? (arguments.text flag)).getD false

def number (arguments : Arguments) (flag : Flag) : Int := (arguments.text flag).toInteger.toOption.getD 0

def assign (flag : Flag) (value : Text) : Except FlagFault (Text × Text) :=
  match Flag.complaint? flag.kind value with
  | none => .ok (flag.name, value)
  | some reason => .error (.badValue flag value reason)

/-- A flag in its long form. Gives the flag and whether the next argument was its value. -/
def readLong (flags : List Flag) (argument : Text) (next : Option Text) : Except FlagFault ((Text × Text) × Bool) :=
  let body := argument.drop 2
  if body.head?.all fun b => b = Text.byte '-' || b = Text.byte '=' then .error (.badForm argument)
  else
    let (name, value) := Text.cutByte (Text.byte '=') body
    match flags.find? (·.name = name), value, next with
    | none, _, _ => .error (.unknown name)
    | some flag, some value, _ => (assign flag value).map (·, false)
    | some flag, none, next =>
      if flag.kind = .switch then (assign flag "true").map (·, false)
      else match next with
        | some value => (assign flag value).map (·, true)
        | none => .error (.missingValue name)

/-- Flags in their short form, one letter each, up to one that takes a value. An argument that begins with `-test.` is
passed over. -/
def readShort (flags : List Flag) (next : Option Text) : Text → Except FlagFault (List (Text × Text) × Bool)
  | [] => .ok ([], false)
  | letter :: more =>
    if Text.startsWith (letter :: more) "test." then .ok ([], false)
    else match flags.find? (·.short = some letter) with
      | none => .error (.unknownShort letter (letter :: more))
      | some flag =>
        if more.head? = some (Text.byte '=') && 1 < more.length then do
          return ([← assign flag (more.drop 1)], false)
        else if flag.kind = .switch then do
          let first ← assign flag "true"
          let (others, used) ← readShort flags next more
          return (first :: others, used)
        else if !more.isEmpty then do return ([← assign flag more], false)
        else match next with
          | some value => do return ([← assign flag value], true)
          | none => .error (.missingShortValue letter [letter])

/-- Reads arguments in any order; two dashes end the flags. -/
def read (flags : List Flag) (done : Arguments) : List Text → Except FlagFault Arguments
  | [] => .ok done
  | argument :: rest =>
    if argument.head? ≠ some (Text.byte '-') || argument.length = 1 then
      read flags { done with rest := done.rest ++ [argument] } rest
    else if argument = Text.ofString "--" then .ok { done with rest := done.rest ++ rest }
    else do
      let (given, used) ←
        if Text.startsWith argument "--" then
          (readLong flags argument rest.head?).map fun (flag, used) => ([flag], used)
        else readShort flags rest.head? (argument.drop 1)
      let done := { done with given := done.given ++ given }
      match used, rest with
      | true, _ :: rest => read flags done rest
      | _, rest => read flags done rest

end Arguments

namespace Flag

def usualIsPlain (flag : Flag) : Bool :=
  match flag.kind with
  | .text => flag.usual.isEmpty
  | .switch => flag.usual = Text.ofString "false"
  | .number => flag.usual = Text.ofString "0"
  | .duration => flag.usual = Text.ofString "0s"

def heading (flag : Flag) : Text :=
  let front := match flag.short with
    | some letter => Text.concat ["  -", [letter], ", --", flag.name]
    | none => Text.concat ["      --", flag.name]
  if flag.kind.placeholder.isEmpty then front else Text.concat [front, " ", flag.kind.placeholder]

def remark (flag : Flag) : Text :=
  let shown := if flag.kind = .text then flag.usual.quoted else flag.usual
  if flag.usualIsPlain then flag.usage else Text.concat [flag.usage, " (default ", shown, ")"]

def listing (flags : List Flag) : Text :=
  let flags := flags.mergeSort fun a b => a.name.ble b.name
  let widest := (flags.map (·.heading.length)).foldl max 0
  flags.flatMap fun flag => Text.concat [flag.heading.padRight widest, "   ", flag.remark, "\n"]

end Flag
end GenericC
