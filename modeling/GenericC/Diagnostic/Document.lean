import GenericC.Diagnostic.Pretty
import GenericC.Text.Json

/-! Diagnostics for tools, as a JSON document. -/

namespace GenericC

structure DocumentSettings where
  /-- Whether lines and columns are given beside offsets. -/
  positions : Bool := false
  paths : PathMode := .auto
  /-- How many diagnostics are written at most; zero or less means all. -/
  most : Int := 0
  notes : Bool := false
  fixes : Bool := false

namespace Document

def positions (files : Option FileSet) (span : Span) : Option (List (Text × Json)) := do
  match files.bind (·.get? span.file) with
  | none => return []
  | some file =>
    let start ← file.position? span.start
    let stop ← file.position? span.stop
    return Json.optionalNat "start_line" start.line.toNat ++ Json.optionalNat "start_col" start.column.toNat ++
      Json.optionalNat "end_line" stop.line.toNat ++ Json.optionalNat "end_col" stop.column.toNat

def location (settings : DocumentSettings) (files : Option FileSet) (span : Span) : Option Json := do
  let positions ← (if settings.positions then positions files span else some [])
  return .ofGroups [[("file", .string (FileSet.shownPath files span.file settings.paths)),
    ("start_byte", .ofNat span.start.toNat), ("end_byte", .ofNat span.stop.toNat)], positions]

def note (settings : DocumentSettings) (files : Option FileSet) (note : Note) : Option Json := do
  return .object [("message", .string note.message), ("location", ← location settings files note.span)]

def edit (settings : DocumentSettings) (files : Option FileSet) (edit : Edit) : Option Json := do
  return .ofGroups [[("location", ← location settings files edit.span), ("new_text", .string edit.text)],
    Json.optionalString "old_text" (← FileSet.shownText? files edit.span)]

def fix (settings : DocumentSettings) (files : Option FileSet) (fix : Fix) : Option Json := do
  return .ofGroups [[("title", .string fix.title)], Json.optionalArray "edits" (← fix.edits.mapM (edit settings files))]

def diagnostic (settings : DocumentSettings) (files : Option FileSet) (item : Diagnostic) : Option Json := do
  let notes ← (if settings.notes || item.code = .timings then item.notes.mapM (note settings files) else some [])
  let fixes ← (if settings.fixes then item.fixes.mapM (fix settings files) else some [])
  return .ofGroups [[("severity", .string item.severity.name), ("code", .string item.code.id),
      ("message", .string item.message), ("location", ← location settings files item.span)],
    Json.optionalArray "notes" notes, Json.optionalArray "fixes" fixes]

end Document

def Bag.toJson? (bag : Bag) (files : Option FileSet) (settings : DocumentSettings) : Option Json := do
  let items ← (if 0 < settings.most && settings.most < bag.items.length then Text.slice? bag.items 0 settings.most.toNat
    else some bag.items)
  return .ofGroups [[("diagnostics", .array (← items.mapM (Document.diagnostic settings files))),
    ("count", .ofNat items.length)], Json.optionalNat "dropped" bag.dropped]

def Bag.toJson (bag : Bag) (files : Option FileSet) (settings : DocumentSettings) : Json :=
  (bag.toJson? files settings).getD (.object [])

def Bag.document (bag : Bag) (files : Option FileSet) (settings : DocumentSettings) : Text :=
  (bag.toJson files settings).document

end GenericC
