import GenericC.Build.Cache
import GenericC.Text.Fields

/-! Cache entries as nested lists of fields. -/

namespace GenericC.CacheEntry

/-- Entries of another format are not read. -/
def format : Text := "genericc-cache-1"

def encodeOption (value : Option Text) : Text := Text.encodeFields value.toList

def decodeOption? (field : Text) : Option (Option Text) := do
  match ← Text.decodeFields? field with
  | [] => return none
  | [value] => return some value
  | _ => none

def encodeSpan (span : Span) : Text :=
  Text.encodeFields [Text.ofUInt32 span.file, Text.ofUInt32 span.start, Text.ofUInt32 span.stop]

def decodeSpan? (field : Text) : Option Span := do
  match ← Text.decodeFields? field with
  | [file, start, stop] =>
    return ⟨(Text.ofDigits file).toUInt32, (Text.ofDigits start).toUInt32, (Text.ofDigits stop).toUInt32⟩
  | _ => none

def encodeNote (note : Note) : Text := Text.encodeFields [encodeSpan note.span, note.message]

def decodeNote? (field : Text) : Option Note := do
  match ← Text.decodeFields? field with
  | [span, message] => return ⟨← decodeSpan? span, message⟩
  | _ => none

def encodeEdit (edit : Edit) : Text := Text.encodeFields [encodeSpan edit.span, edit.text]

def decodeEdit? (field : Text) : Option Edit := do
  match ← Text.decodeFields? field with
  | [span, text] => return ⟨← decodeSpan? span, text⟩
  | _ => none

def encodeFix (fix : Fix) : Text := Text.encodeFields [fix.title, Text.encodeFields (fix.edits.map encodeEdit)]

def decodeFix? (field : Text) : Option Fix := do
  match ← Text.decodeFields? field with
  | [title, edits] => return ⟨title, ← (← Text.decodeFields? edits).mapM decodeEdit?⟩
  | _ => none

def encodeDiagnostic (item : Diagnostic) : Text :=
  Text.encodeFields [Text.ofNat item.severity.rank.toNat, Text.ofNat item.code.number.toNat, encodeSpan item.span,
    item.message, Text.encodeFields (item.notes.map encodeNote), Text.encodeFields (item.fixes.map encodeFix)]

def decodeDiagnostic? (field : Text) : Option Diagnostic := do
  match ← Text.decodeFields? field with
  | [severity, code, span, message, notes, fixes] =>
    return {
      severity := ⟨(Text.ofDigits severity).toUInt8⟩
      code := ⟨(Text.ofDigits code).toUInt16⟩
      span := ← decodeSpan? span
      message
      notes := ← (← Text.decodeFields? notes).mapM decodeNote?
      fixes := ← (← Text.decodeFields? fixes).mapM decodeFix? }
  | _ => none

def encode (entry : CacheEntry) : Text :=
  Text.encodeFields [format, entry.path, entry.content, encodeOption entry.output, encodeOption entry.header,
    Text.encodeFields (entry.diagnostics.map encodeDiagnostic), Text.ofNat entry.structs, Text.ofNat entry.funcs]

def decode? (bytes : Text) : Option CacheEntry := do
  match ← Text.decodeFields? bytes with
  | [found, path, content, output, header, diagnostics, structs, funcs] =>
    if found ≠ format then none
    else return {
      path
      content
      output := ← decodeOption? output
      header := ← decodeOption? header
      diagnostics := ← (← Text.decodeFields? diagnostics).mapM decodeDiagnostic?
      structs := Text.ofDigits structs
      funcs := Text.ofDigits funcs }
  | _ => none

end GenericC.CacheEntry
