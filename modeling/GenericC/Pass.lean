import GenericC.Emit.Unit

/-! The passes from a program to C as they are called: with a program and registries that may be missing, and in a
context that may be called off. -/

namespace GenericC

inductive PassFailure
  | canceled
  /-- The text could not be handed over. -/
  | unwritten (reason : Text)
deriving DecidableEq, Repr

def PassFailure.message : PassFailure → Text
  | canceled => "context canceled"
  | unwritten reason => Text.concat ["mono: write output: ", reason]

structure PassOutcome where
  insts : Option Instantiations
  reports : List Diagnostic := []
  text : Text := []
  failure : Option PassFailure := none

def PassOutcome.ofResult (result : PassResult) : PassOutcome := { insts := some result.insts, reports := result.reports }

structure Pass where
  program : Option Program
  maxDepth : Int := 0
  emit : EmitSettings := {}
  /-- Whether the context is called off before the pass begins. -/
  canceled : Bool := false

namespace Pass

def depth (pass : Pass) : Nat := depthFor pass.maxDepth

/-- The context is looked at before each declaration. -/
def stopsCollecting (pass : Pass) (program : Program) : Bool := pass.canceled && !program.decls.isEmpty

def collect (pass : Pass) (insts : Option Instantiations) : PassOutcome :=
  match pass.program, insts with
  | some program, some held =>
    if pass.stopsCollecting program then { insts, failure := some .canceled }
    else .ofResult (GenericC.collect program pass.depth held)
  | _, _ => { insts }

/-- The context is looked at before each entry. -/
def expand (pass : Pass) (insts : Option Instantiations) : PassOutcome :=
  match pass.program, insts with
  | some program, some held =>
    if pass.canceled && held.size ≠ 0 then { insts, failure := some .canceled }
    else .ofResult (GenericC.expand program pass.depth held)
  | _, _ => { insts }

def prepare (pass : Pass) : PassOutcome :=
  let empty : Instantiations := { collisions := .once [] }
  match pass.program with
  | some program =>
    if pass.stopsCollecting program then { insts := some empty, failure := some .canceled }
    else .ofResult (GenericC.prepare program pass.depth)
  | none => { insts := some empty }

def emitter (pass : Pass) (insts : Option Instantiations) : Emitter :=
  { program := pass.program.getD {}, insts := insts.getD {}, settings := pass.emit }

/-- Hands a text over to a writer, unless the context is called off. -/
def hand (pass : Pass) (insts : Option Instantiations) (unit : Emission) (early : List Diagnostic)
    (refuses : Text → Option Text) : PassOutcome :=
  if pass.canceled then { insts, reports := early, failure := some .canceled }
  else { insts, reports := unit.reports, text := unit.text, failure := (refuses unit.text).map .unwritten }

/-- The context is looked at when the specialized declarations are done. -/
def write (pass : Pass) (insts : Option Instantiations) (refuses : Text → Option Text := fun _ => none) : PassOutcome :=
  let emitter := pass.emitter insts
  pass.hand insts emitter.emit (Bag.firstOfEach [] (emitter.structs.reports ++ (emitter.funcs true).reports)) refuses

def writeHeader (pass : Pass) (guard : Text) (insts : Option Instantiations)
    (refuses : Text → Option Text := fun _ => none) : PassOutcome :=
  let unit := (pass.emitter insts).emitHeader guard
  pass.hand insts unit unit.reports refuses

/-- Prepares the instantiations and goes on from there, unless this fails. -/
def generate (pass : Pass) (next : Option Instantiations → PassOutcome) : PassOutcome :=
  let prepared := pass.prepare
  if prepared.failure.isSome then prepared
  else
    let outcome := next prepared.insts
    { outcome with reports := prepared.reports ++ outcome.reports }

end Pass
end GenericC
