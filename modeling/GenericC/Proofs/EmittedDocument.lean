import GenericC.Proofs.PrintedLayout
import Mathlib.Data.List.Basic

/-! A written file as a list of items: typedefs, struct definitions, prototypes, functions and plain declarations, each
with the layout of its text. Written out one after the other, they are the C file or the header. -/

namespace GenericC

inductive Item
  | lines (text : Text)
  | typedef (inst : Instantiation)
  | struct (inst : Instantiation) (decl : StructDecl) (fields : List Field)
  | prototype (func : Emitter.Specialized)
  | function (func : Emitter.Specialized) (body : Block)
  | plain (decl : Decl)

namespace Item

def definesFunction : Item → Bool
  | function _ _ => true
  | plain (.function decl) => decl.body.isSome
  | _ => false

/-- The printer of an item, with the type parameters in scope replaced. -/
def printer (printer : Printer) : Item → Printer
  | struct inst decl _ => printer.withSubst (.ofParams decl.typeParams inst.typeArgs)
  | prototype func => func.printer printer
  | function func _ => func.printer printer
  | _ => printer

def layout (base : Printer) (item : Item) : List Fragment :=
  let printer := item.printer base
  match item with
  | lines text => [.blank text]
  | typedef inst =>
    let decl := base.index.struct? inst.genericName
    [.mark .kwTypedef, .space, .token .kwStruct ((decl.map (·.keyword)).getD []), .space, .word inst.mangled, .space,
      .word inst.mangled, .mark .semicolon, .newline]
  | struct inst decl fields => printer.structBodyLayout decl inst.mangled fields
  | prototype func => printer.prototypeLayout func.decl func.inst.mangled
  | function func body => printer.functionLayout func.decl func.inst.mangled body
  | plain decl => printer.declLayout decl

def text (base : Printer) (item : Item) : Text := (item.printer base).write (item.layout base)

/-- Items and an empty line, or nothing when there are no items. -/
def paragraph (items : List Item) : List Item := if items.isEmpty then [] else items ++ [lines "\n"]

end Item

namespace Emitter

variable (emitter : Emitter)

def placed : List Instantiation :=
  (StructOrder.ofRegistry emitter.printer.index emitter.insts.structs).placed.reverse

def structItem? (index : Index) (inst : Instantiation) : Option Item :=
  match index.struct? inst.genericName with
  | none => none
  | some decl =>
    match decl.fields with
    | none => none
    | some fields =>
      match Subst.arityError? decl.typeParams inst.typeArgs with
      | some _ => none
      | none => some (.struct inst decl fields)

def typedefItem? (tagged : List Text) (inst : Instantiation) : Option Item :=
  if tagged.contains inst.mangled then none else some (.typedef inst)

def structItems : List Item :=
  Item.paragraph (emitter.placed.filterMap (typedefItem? emitter.tagged)) ++
    emitter.placed.filterMap (structItem? emitter.index)

/-- The specialized functions of a file; without definitions static ones are left out. -/
def specializedFuncs (bodies : Bool) : List Specialized :=
  ((emitter.insts.funcs.latestFirst.map (specialized emitter.index)).filterMap Except.toOption).filter
    fun func => bodies || !func.decl.storage.isStatic

def funcItem? (func : Specialized) : Option Item := func.decl.body.map (.function func)

def funcItems (bodies : Bool) : List Item :=
  Item.paragraph ((emitter.specializedFuncs bodies).map .prototype) ++
    if bodies then (emitter.specializedFuncs bodies).filterMap funcItem? else []

def plainItem? (decl : Decl) : Option Item := if decl.isGeneric then none else some (.plain decl)

def prototypeItem? : Decl → Option Item
  | .function decl =>
    if decl.isGeneric || decl.storage.isStatic then none else some (.plain (.function { decl with body := none }))
  | _ => none

def externVars (decl : VarDecl) : VarDecl :=
  { decl with storage := { isExtern := true }, vars := decl.vars.map ({ · with init := none }) }

def externItem? : Decl → Option Item
  | .vars decl => if decl.storage.isStatic then none else some (.plain (.vars (externVars decl)))
  | _ => none

def document : List Item :=
  [.lines (preamble emitter.settings), .lines (directives emitter.program)] ++ emitter.structItems ++
    emitter.funcItems true ++ emitter.program.decls.filterMap plainItem?

def headerDocument (guard : Text) : List Item :=
  let name : Text := guard ++ Text.ofString "_H"
  [.lines (preamble emitter.settings), .lines (Text.concat ["#ifndef ", name, "\n#define ", name, "\n\n"]),
      .lines (directives emitter.program)] ++ emitter.structItems ++
    (emitter.program.decls.filter isTypeDecl).filterMap plainItem? ++ emitter.funcItems false ++
    Item.paragraph (emitter.program.decls.filterMap prototypeItem?) ++
    Item.paragraph (emitter.program.decls.filterMap externItem?) ++ [.lines (Text.concat ["#endif /* ", name, " */\n"])]

end Emitter

/-- Two ways to pick and write what is worth writing agree when they agree on every item. -/
private theorem flatMap_picked {α β γ δ : Type} {pick : α → Option β} {write : β → List γ} {other : α → Option δ}
    {read : δ → List γ} (items : List α)
    (each : ∀ item, (pick item).toList.flatMap write = (other item).toList.flatMap read) :
    (items.filterMap pick).flatMap write = (items.filterMap other).flatMap read := by
  rw [List.filterMap_eq_flatMap_toList, List.filterMap_eq_flatMap_toList, List.flatMap_assoc, List.flatMap_assoc]
  exact List.flatMap_congr fun item _ => each item

private theorem typedefSpellings :
    Text.ofString "typedef " = TokenKind.kwTypedef.spelling ++ Text.ofString " " ∧
    Text.ofString ";\n" = TokenKind.semicolon.spelling ++ Text.ofString "\n" := by
  decide

namespace Item

variable {base : Printer}

@[simp] theorem text_lines (text : Text) : (lines text).text base = text := by
  simp [Item.text, Item.layout]

@[simp] theorem text_struct (inst : Instantiation) (decl : StructDecl) (fields : List Field) :
    (struct inst decl fields).text base = Text.concat [decl.keyword, " ", inst.mangled, " ",
      (base.withSubst (.ofParams decl.typeParams inst.typeArgs)).fields fields, ";\n\n"] :=
  Printer.write_structBodyLayout _ _ _ _

@[simp] theorem text_prototype (func : Emitter.Specialized) :
    (prototype func).text base = (func.prototype base).text :=
  Printer.write_prototypeLayout _ _ _

@[simp] theorem text_function (func : Emitter.Specialized) (body : Block) :
    (function func body).text base = (func.printer base).function func.decl func.inst.mangled body :=
  Printer.write_functionLayout _ _ _ _

@[simp] theorem text_plain (decl : Decl) : (plain decl).text base = Emitter.declText base decl :=
  Printer.write_declLayout base decl

theorem text_typedef {inst : Instantiation} (untagged : inst.mangled ∉ base.tagged) :
    (typedef inst).text base = Emitter.typedefLine base inst := by
  simp [Item.text, Item.layout, Item.printer, Emitter.typedefLine, untagged, typedefSpellings]

theorem text_ne_nil {item : Item} (line : .newline ∈ item.layout base) : item.text base ≠ [] := by
  intro empty
  have newline := List.flatMap_eq_nil_iff.mp empty _ line
  cases newline

theorem text_paragraph {items : List Item} (nonempty : ∀ item ∈ items, item.text base ≠ []) :
    (paragraph items).flatMap (text base) = Emitter.paragraph (items.flatMap (text base)) := by
  cases items with
  | nil => rfl
  | cons first rest =>
    have first := nonempty first List.mem_cons_self
    simp [paragraph, Emitter.paragraph, first]

end Item

namespace Emitter

variable (emitter : Emitter)

theorem typedefItem?_eq_some {tagged : List Text} {inst : Instantiation} {item : Item}
    (found : typedefItem? tagged inst = some item) : item = .typedef inst := by
  unfold typedefItem? at found
  split at found
  · cases found
  · exact (Option.some.inj found).symm

theorem structItem?_eq_some {index : Index} {inst : Instantiation} {item : Item}
    (found : structItem? index inst = some item) :
    ∃ decl fields, index.struct? inst.genericName = some decl ∧ decl.fields = some fields ∧
      Subst.arityError? decl.typeParams inst.typeArgs = none ∧ item = .struct inst decl fields := by
  unfold structItem? at found
  split at found
  · cases found
  next decl declared =>
    split at found
    · cases found
    next fields body =>
      split at found
      · cases found
      next fits => exact ⟨decl, fields, declared, body, fits, (Option.some.inj found).symm⟩

theorem plainItem?_eq_some {decl : Decl} {item : Item} (found : plainItem? decl = some item) :
    decl.isGeneric = false ∧ item = .plain decl := by
  unfold plainItem? at found
  split at found
  · cases found
  next plain => exact ⟨by simpa using plain, (Option.some.inj found).symm⟩

theorem typedefItems_text (printer : Printer) (insts : List Instantiation) :
    (Item.paragraph (insts.filterMap (typedefItem? printer.tagged))).flatMap (Item.text printer) =
      paragraph (insts.flatMap (typedefLine printer)) := by
  rw [Item.text_paragraph]
  · rw [List.filterMap_eq_flatMap_toList, List.flatMap_assoc]
    congr 1
    refine List.flatMap_congr fun inst _ => ?_
    by_cases tagged : inst.mangled ∈ printer.tagged
    · simp [typedefItem?, typedefLine, tagged]
    · simp [typedefItem?, tagged, Item.text_typedef]
  · intro item member
    obtain ⟨inst, -, found⟩ := List.mem_filterMap.mp member
    rw [typedefItem?_eq_some found]
    exact Item.text_ne_nil (by simp [Item.layout])

theorem structItem_text (printer : Printer) (inst : Instantiation) :
    (structItem? printer.index inst).toList.flatMap (Item.text printer) =
      (structPiece printer inst).toList.flatMap (·.text) := by
  unfold structItem? structPiece
  cases printer.index.struct? inst.genericName with
  | none => rfl
  | some decl =>
    dsimp only
    cases decl.fields with
    | none => rfl
    | some fields =>
      dsimp only
      cases Subst.arityError? decl.typeParams inst.typeArgs <;> simp

theorem structItems_text : emitter.structItems.flatMap (Item.text emitter.printer) = emitter.structs.text := by
  have bodies : (emitter.placed.filterMap (structItem? emitter.index)).flatMap (Item.text emitter.printer) =
      (emitter.placed.filterMap (structPiece emitter.printer)).flatMap (·.text) :=
    flatMap_picked emitter.placed (structItem_text emitter.printer)
  have typedefs : (Item.paragraph (emitter.placed.filterMap (typedefItem? emitter.tagged))).flatMap
      (Item.text emitter.printer) = paragraph (emitter.placed.flatMap (typedefLine emitter.printer)) :=
    typedefItems_text emitter.printer emitter.placed
  rw [structItems, List.flatMap_append, bodies, typedefs]
  simp [structs, placed]

theorem funcItems_text (bodies : Bool) :
    (emitter.funcItems bodies).flatMap (Item.text emitter.printer) = (emitter.funcs bodies).text := by
  have prototypes : (Item.paragraph ((emitter.specializedFuncs bodies).map .prototype)).flatMap
      (Item.text emitter.printer) =
      paragraph (((emitter.specializedFuncs bodies).map (Specialized.prototype emitter.printer)).flatMap (·.text)) := by
    rw [Item.text_paragraph]
    · simp [List.flatMap_map]
    · intro item member
      obtain ⟨func, -, rfl⟩ := List.mem_map.mp member
      exact Item.text_ne_nil (by simp [Item.layout, Printer.prototypeLayout])
  have definitions : ((emitter.specializedFuncs bodies).filterMap funcItem?).flatMap (Item.text emitter.printer) =
      ((emitter.specializedFuncs bodies).filterMap (Specialized.definition? emitter.printer)).flatMap (·.text) := by
    refine flatMap_picked _ fun func => ?_
    unfold funcItem? Specialized.definition?
    cases func.decl.body <;> simp
  rw [funcItems, List.flatMap_append, prototypes]
  cases bodies with
  | true =>
    rw [if_pos rfl, definitions]
    simp [funcs, specializedFuncs, printer]
  | false => simp [funcs, specializedFuncs, printer]

theorem plainItems_text (printer : Printer) (decls : List Decl) :
    (decls.filterMap plainItem?).flatMap (Item.text printer) = (decls.map (declPiece printer)).flatMap (·.text) := by
  rw [List.filterMap_eq_flatMap_toList, List.flatMap_assoc, List.flatMap_map]
  refine List.flatMap_congr fun decl _ => ?_
  unfold plainItem? declPiece
  split <;> simp

theorem emit_text : emitter.emit.text = emitter.document.flatMap (Item.text emitter.printer) := by
  simp [document, emit, structItems_text, funcItems_text, plainItems_text, plain]

theorem prototypeItem?_eq_some {decl : Decl} {item : Item} (found : prototypeItem? decl = some item) :
    ∃ func, decl = .function func ∧ func.isGeneric = false ∧ item = .plain (.function { func with body := none }) := by
  cases decl with
  | function func =>
    simp only [prototypeItem?] at found
    split at found
    · cases found
    next wanted =>
      simp only [Bool.or_eq_true, not_or, Bool.not_eq_true] at wanted
      exact ⟨func, rfl, wanted.1, (Option.some.inj found).symm⟩
  | _ => cases found

theorem externItem?_eq_some {decl : Decl} {item : Item} (found : externItem? decl = some item) :
    ∃ vars, decl = .vars vars ∧ item = .plain (.vars (externVars vars)) := by
  cases decl with
  | vars vars =>
    simp only [externItem?] at found
    split at found
    · cases found
    · exact ⟨vars, rfl, (Option.some.inj found).symm⟩
  | _ => cases found

theorem prototypeItems_text (printer : Printer) (decls : List Decl) :
    (Item.paragraph (decls.filterMap prototypeItem?)).flatMap (Item.text printer) =
      paragraph ((decls.filterMap (prototype? printer)).flatMap (·.text)) := by
  rw [Item.text_paragraph]
  · congr 1
    refine flatMap_picked decls fun decl => ?_
    cases decl with
    | function decl =>
      by_cases left : decl.isGeneric || decl.storage.isStatic
      · simp [prototypeItem?, prototype?, left]
      · have plain : FuncDecl.isGeneric { decl with body := none } = false := by
          simp only [Bool.or_eq_true, not_or, Bool.not_eq_true] at left
          exact left.1
        have same : printer.signature { decl with body := none } decl.name = printer.signature decl decl.name := rfl
        simp [prototypeItem?, prototype?, left, declText, plain, same]
    | _ => rfl
  · intro item member
    obtain ⟨decl, -, found⟩ := List.mem_filterMap.mp member
    obtain ⟨func, rfl, plain, rfl⟩ := prototypeItem?_eq_some found
    have plain : FuncDecl.isGeneric { func with body := none } = false := plain
    exact Item.text_ne_nil (by simp [Item.layout, Printer.declLayout, plain, Printer.prototypeLayout])

theorem externItems_text (printer : Printer) (decls : List Decl) :
    (Item.paragraph (decls.filterMap externItem?)).flatMap (Item.text printer) =
      paragraph ((decls.filterMap (extern? printer)).flatMap (·.text)) := by
  rw [Item.text_paragraph]
  · congr 1
    refine flatMap_picked decls fun decl => ?_
    cases decl with
    | vars decl =>
      by_cases left : decl.storage.isStatic
      · simp [externItem?, extern?, left]
      · simp [externItem?, extern?, left, declText, externVars]
    | _ => rfl
  · intro item member
    obtain ⟨decl, -, found⟩ := List.mem_filterMap.mp member
    obtain ⟨vars, rfl, rfl⟩ := externItem?_eq_some found
    exact Item.text_ne_nil (by simp [Item.layout, Printer.declLayout])

theorem emitHeader_text (guard : Text) :
    (emitter.emitHeader guard).text = (emitter.headerDocument guard).flatMap (Item.text emitter.printer) := by
  simp [headerDocument, emitHeader, structItems_text, funcItems_text, plainItems_text, typeDecls, prototypeItems_text,
    externItems_text, declared]

end Emitter
end GenericC
