import GenericC.Program.Node

/-! Where the nodes of a program may be written: inside its file, every declaration over at least
one byte, and the declarations in the order of the source. -/

namespace GenericC

inductive BoundsFault
  | inverted (span : Span)
  | outside (span whole : Span)
deriving DecidableEq, Repr

def BoundsFault.message : BoundsFault → Text
  | inverted span => Text.concat ["inverted span ", span.render]
  | outside span whole => Text.concat ["span ", span.render, " outside file ", whole.render]

def Span.boundsFault? (file size : UInt32) (span : Span) : Option BoundsFault :=
  let whole : Span := { file, start := 0, stop := size }
  if span.stop < span.start then some (.inverted span)
  else if whole.contains span then none
  else some (.outside span whole)

inductive SpanFault
  | otherFile (got want : UInt32)
  | emptyDecl (span : Span)
  | declBounds (position : Nat) (fault : BoundsFault)
  | order (position : Nat) (span previous : Span)
  | nodeBounds (kind : NodeKind) (position : Nat) (fault : BoundsFault)
deriving DecidableEq, Repr

namespace SpanFault

def message : SpanFault → Text
  | otherFile got want =>
    Text.concat ["program file id mismatch: got=", Text.ofUInt32 got, " want=", Text.ofUInt32 want]
  | emptyDecl span => Text.concat ["empty declaration span: ", span.render]
  | declBounds position fault => Text.concat ["declaration ", Text.ofNat position, ": ", fault.message]
  | order position span previous =>
    Text.concat ["declaration ", Text.ofNat position, " at ", span.render, " precedes declaration ",
      Text.ofNat (position - 1), " at ", previous.render]
  | nodeBounds kind position fault =>
    Text.concat ["node *ast.", kind.title, " inside declaration ", Text.ofNat position, ": ", fault.message]

end SpanFault

namespace Program

/-- The first fault among the nodes of one declaration. Nodes with an empty span have no place. -/
def nodeFault? (file size : UInt32) (position : Nat) (decl : Decl) : Option SpanFault :=
  decl.toNode.labels.findSome? fun label =>
    if label.span.isEmpty then none
    else (label.span.boundsFault? file size).map (.nodeBounds label.kind position)

def declFault? (file size : UInt32) (position : Nat) (previous : Option Span) (decl : Decl) :
    Option SpanFault :=
  let span := decl.span
  if span.stop ≤ span.start then some (.emptyDecl span)
  else match span.boundsFault? file size with
    | some fault => some (.declBounds position fault)
    | none =>
      match previous with
      | some before =>
        if span.start < before.start then some (.order position span before)
        else nodeFault? file size position decl
      | none => nodeFault? file size position decl

def declsFault? (file size : UInt32) : Nat → Option Span → List Decl → Option SpanFault
  | _, _, [] => none
  | position, previous, decl :: rest =>
    match declFault? file size position previous decl with
    | some fault => some fault
    | none => declsFault? file size (position + 1) (some decl.span) rest

/-- The first rule that the spans of a program break in the file `file` of `size` bytes, or `none` when
they are in order. -/
def spanFault? (program : Program) (file size : UInt32) : Option SpanFault :=
  if program.file ≠ file then some (.otherFile program.file file)
  else declsFault? file size 0 none program.decls

end Program
end GenericC
