import GenericC.Cli.Flag
import GenericC.Text.Case

/-! The commands of the tool: their flags, how one is found among the arguments, and what is said about them. -/

namespace GenericC

inductive Arity
  | any
  | exactly (count : Nat)
  | nothing
deriving DecidableEq, Repr

inductive CommandName
  | root
  | build
  | tokenize
  | parse
  | insts
  | clean
  | version
  | help
  | completion
deriving DecidableEq, Repr

structure Command where
  name : CommandName
  word : Text
  /-- What follows the word in the line that shows how the command is used. -/
  form : Text := []
  short : Text
  long : Text := []
  flags : List Flag := []
  arity : Arity := .any
  runnable : Bool := true
  /-- The commands below this one, which are only shown. -/
  below : List (Text × Text) := []
deriving DecidableEq, Repr

namespace Flags

def color : Flag := .ofText "color" "auto" "colorize output (auto|on|off)"
def quiet : Flag := .ofSwitch "quiet" "suppress non-essential output"
def timings : Flag := .ofSwitch "timings" "show timing information"
def maxDiagnostics : Flag := .ofNumber "max-diagnostics" "100" "maximum number of diagnostics to show"
def config : Flag := .ofText "config" "" "path to safec.toml (default: search upwards from the input)"
def pathMode : Flag := .ofText "path-mode" "auto" "how paths are printed (auto|absolute|relative|basename)"
def trace : Flag := .ofText "trace" "" "write trace events to file (\"-\" for stderr; .ndjson/.json pick the format)"
def traceLevel : Flag := .ofText "trace-level" "off" "trace level (off|error|phase|detail|debug)"
def traceMode : Flag := .ofText "trace-mode" "stream" "trace mode (stream|ring|both)"
def traceRingSize : Flag := .ofNumber "trace-ring-size" "4096" "ring buffer capacity for --trace-mode ring/both"
def traceHeartbeat : Flag :=
  { name := "trace-heartbeat", kind := .duration, usual := "0s", usage := "emit heartbeat events at this interval (0 disables)" }
def cpuProfile : Flag := .ofText "cpu-profile" "" "write a CPU profile to file"
def memProfile : Flag := .ofText "mem-profile" "" "write a heap profile to file on exit"
def runtimeTrace : Flag := .ofText "runtime-trace" "" "write a Go runtime trace to file"

def output : Flag :=
  { name := "output", short := some (Text.byte 'o'), kind := .text, usage := "output file (single source) or directory" }
def header : Flag := .ofSwitch "header" "also write a companion .h with prototypes"
def jobs : Flag := .ofNumber "jobs" "0" "max parallel compilations (0=auto)"
def cache : Flag := .ofSwitch "cache" "reuse outputs of unchanged sources from the disk cache"
def ui : Flag := .ofText "ui" "auto" "progress UI (auto|on|off)"
def emitInsts : Flag := .ofSwitch "emit-insts" "write an instantiation listing next to each output"
def maxDepth : Flag := .ofNumber "max-depth" "0" "max nested instantiation depth (0=default)"
def headerComment : Flag := .ofText "header-comment" "" "first line of every generated file"
def noHeaderComment : Flag := .ofSwitch "no-header-comment" "omit the generated-file comment"
def diagFormat : Flag := .ofText "diag-format" "pretty" "diagnostics format (pretty|json)"

def prettyOrJson : Flag := .ofText "format" "pretty" "output format (pretty|json)"
def textOrJson : Flag := .ofText "format" "text" "output format (text|json)"
def full : Flag := .ofSwitch "full" "print build metadata, using \"unknown\" for missing fields"

def help (word : Text) : Flag :=
  { Flag.ofSwitch "help" (Text.concat ["help for ", word]) with short := some (Text.byte 'h') }
def version : Flag := { Flag.ofSwitch "version" "version for safec" with short := some (Text.byte 'v') }

def shared : List Flag :=
  [color, quiet, timings, maxDiagnostics, config, pathMode, trace, traceLevel, traceMode, traceRingSize, traceHeartbeat,
    cpuProfile, memProfile, runtimeTrace]

end Flags

namespace Command

def tool : Text := "safec"

def root : Command :=
  { name := .root
    word := tool
    short := "SafeC compiler: C with type parameters to plain C"
    long := "safec monomorphizes generic structs and functions and emits C99 for any C compiler"
    runnable := false }

def build : Command :=
  { name := .build
    word := "build"
    form := " [flags] [file.sc|dir]..."
    short := "Compile SafeC sources to C"
    long := Text.joinWith "\n"
      ["Build monomorphizes every given source (directories are searched for *.sc)",
        "and writes one .c file per source. Without arguments the sources listed in", "safec.toml are built."]
    flags := [Flags.output, Flags.header, Flags.jobs, Flags.cache, Flags.ui, Flags.emitInsts, Flags.maxDepth,
      Flags.headerComment, Flags.noHeaderComment, Flags.diagFormat] }

def tokenize : Command :=
  { name := .tokenize
    word := "tokenize"
    form := " [flags] file.sc"
    short := "Tokenize a SafeC source file"
    long := "Tokenize breaks down a SafeC source file into its constituent tokens"
    flags := [Flags.prettyOrJson]
    arity := .exactly 1 }

def parse : Command :=
  { name := .parse
    word := "parse"
    form := " [flags] file.sc"
    short := "Parse a SafeC source file and print its AST"
    flags := [Flags.prettyOrJson]
    arity := .exactly 1 }

def insts : Command :=
  { name := .insts
    word := "insts"
    form := " [flags] file.sc"
    short := "List the generic instantiations of a SafeC source file"
    long := Text.joinWith "\n"
      ["Insts runs monomorphization without writing C and prints every",
        "specialized struct and function with its mangled name and use sites."]
    flags := [Flags.textOrJson, Flags.maxDepth]
    arity := .exactly 1 }

def clean : Command :=
  { name := .clean
    word := "clean"
    form := " [flags]"
    short := "Remove the safec output cache"
    long := "Remove every cached compilation result used by `safec build --cache`."
    arity := .nothing }

def version : Command :=
  { name := .version
    word := "version"
    form := " [flags]"
    short := "Show safec version and build metadata"
    flags := [Flags.prettyOrJson, Flags.full]
    arity := .nothing }

def help : Command :=
  { name := .help
    word := "help"
    form := " [command] [flags]"
    short := "Help about any command"
    long := Text.joinWith "\n"
      ["Help provides help for any command in the application.",
        "Simply type safec help [path to command] for full details."] }

def completion : Command :=
  { name := .completion
    word := "completion"
    short := "Generate the autocompletion script for the specified shell"
    long := Text.joinWith "\n"
      ["Generate the autocompletion script for safec for the specified shell.",
        "See each sub-command's help for details on how to use the generated script."]
    arity := .nothing
    runnable := false
    below := (["bash", "fish", "powershell", "zsh"] : List Text).map fun shell =>
      (shell, Text.concat ["Generate the autocompletion script for ", shell]) }

def all : List Command := [build, tokenize, parse, insts, clean, version, help, completion]

def isRoot (command : Command) : Bool := command.name = .root

def path (command : Command) : Text :=
  if command.isRoot then tool else Text.concat [tool, " ", command.word]

def ownFlags (command : Command) : List Flag :=
  command.flags ++ Flags.help command.word :: if command.isRoot then [Flags.version] else []

def allFlags (command : Command) : List Flag := command.ownFlags ++ Flags.shared

/-! Finding a command -/

/-- Whether an argument has the form of a flag that takes the next argument for its value. Flags that are not
declared count, whatever they are. -/
def takesNext (flags : List Flag) (argument : Text) : Bool :=
  let switches := flags.filter (·.kind = .switch)
  !argument.contains (Text.byte '=') &&
    ((Text.startsWith argument "--" && !switches.any (·.name = argument.drop 2)) ||
      (Text.startsWith argument "-" && argument.length = 2 && !switches.any (·.short = argument[1]?)))

def dashes : Text := "--"

def words (flags : List Flag) : List Text → List Text
  | [] => []
  | argument :: rest =>
    if argument = dashes then []
    else if takesNext flags argument then
      match rest with
      | _ :: next :: rest => words flags (next :: rest)
      | _ => []
    else if argument.isEmpty || Text.startsWith argument "-" then words flags rest
    else argument :: words flags rest

def dropWord (flags : List Flag) (word : Text) : List Text → List Text
  | [] => []
  | argument :: rest =>
    if argument = dashes then argument :: rest
    else if takesNext flags argument then
      match rest with
      | value :: rest => argument :: value :: dropWord flags word rest
      | [] => [argument]
    else if argument = word then rest
    else argument :: dropWord flags word rest

/-! Proposals for mistyped commands -/

/-- One row of the table of edit distances, from the row above; `corner` and `left` are the entries to the upper left
and to the left. -/
def nextRow (letter : UInt8) (corner left : Nat) : Text → List Nat → List Nat
  | other :: others, above :: row =>
    let entry := if letter = other then corner else min (min above left) corner + 1
    entry :: nextRow letter above entry others row
  | _, _ => []

/-- How many bytes have to be changed, added or left out to make one text of another. -/
def editDistance (a b : Text) : Nat :=
  let (row, _) := a.foldl (fun (state : List Nat × Nat) letter =>
    let first := state.2 + 1
    (first :: nextRow letter state.2 first b state.1.tail, first)) (List.range (b.length + 1), 0)
  row.getLast?.getD 0

def proposals (word : Text) : List Text :=
  let typed := word.toLower
  ((all.filter (·.name ≠ .help)).map (·.word)).filter fun name =>
    editDistance typed name ≤ 2 || Text.startsWith name typed

def unknownMessage (word : Text) : Text :=
  let proposed := proposals word
  Text.concat ["unknown command ", word.quoted, " for ", tool.quoted,
    if proposed.isEmpty then ""
    else Text.concat ["\n\nDid you mean this?\n", proposed.flatMap fun name => Text.concat ["\t", name, "\n"]]]

def find (arguments : List Text) : Except Text (Command × List Text) :=
  match words Flags.shared arguments with
  | [] => .ok (root, arguments)
  | word :: _ =>
    match all.find? (·.word = word) with
    | some command => .ok (command, dropWord Flags.shared word arguments)
    | none => .error (unknownMessage word)

def arityFault? (command : Command) (rest : List Text) : Option Text :=
  match command.arity, rest with
  | .any, _ => none
  | .exactly count, rest =>
    if rest.length = count then none
    else some (Text.concat ["accepts ", Text.ofNat count, " arg(s), received ", Text.ofNat rest.length])
  | .nothing, [] => none
  | .nothing, word :: _ => some (Text.concat ["unknown command ", word.quoted, " for ", command.path.quoted])

/-! Help -/

/-- A word in quotes that need no escapes, where that is possible. -/
def quotedTopic (word : Text) : Text :=
  if word.isValidUtf8 && word.all fun b => (32 ≤ b || b = 9) && b ≠ 127 && b ≠ 96 then
    Text.concat ["`", word, "`"]
  else word.quoted

def namePadding : Nat := 11

def listed (command : Command) : List (Text × Text) :=
  if command.isRoot then (all.map fun command => (command.word, command.short)).mergeSort fun a b => a.1.ble b.1
  else command.below

def usageWith (command : Command) (own : List Flag) : Text :=
  let listed := command.listed
  Text.concat ["Usage:",
    if command.runnable then Text.concat ["\n  ", command.path, command.form] else "",
    if listed.isEmpty then "" else Text.concat ["\n  ", command.path, " [command]\n\nAvailable Commands:",
      listed.flatMap fun (word, short) => Text.concat ["\n  ", Text.padRight namePadding word, " ", short]],
    "\n\nFlags:\n",
    if command.isRoot then Text.dropEnd (Flag.listing (own ++ Flags.shared)) "\n"
    else Text.concat [Text.dropEnd (Flag.listing own) "\n", "\n\nGlobal Flags:\n",
      Text.dropEnd (Flag.listing Flags.shared) "\n"],
    if listed.isEmpty then ""
    else Text.concat ["\n\nUse \"", command.path, " [command] --help\" for more information about a command."],
    "\n"]

def helpText (command : Command) : Text :=
  Text.concat [if command.long.isEmpty then command.short else command.long, "\n\n",
    command.usageWith command.ownFlags]

def unknownTopic (topic : List Text) : Text :=
  Text.concat ["Unknown help topic [", Text.joinWith " " (topic.map quotedTopic), "]\n", root.usageWith []]

end Command
end GenericC
