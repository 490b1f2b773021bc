import Smpl.Machine.Eval

/-!
# Runs

A module is a named program; a bundle is the modules of a run in the order in which they are
evaluated, all in the global scope. The value of a bundle is the value of its entry module.
-/

namespace Smpl

/-- Evaluates the body of a program. Without a body the value is an integer zero. -/
def Program.evaluate (p : Program) (env : ScopeId) : Machine Value :=
  Eval.block eval env p.statements

/-- Evaluates a node in a scope. -/
def Node.evaluate (n : Node) (env : ScopeId) : Machine Value :=
  match n with
  | .program p => p.evaluate env
  | .statement s => Eval.statement eval env s
  | n => throw (.unsupportedNode n.nodeName)

/-- Evaluates a program in the global scope. -/
def evaluateProgram (program : Option Program) : Machine Value :=
  match program with
  | none => throw .noProgram
  | some p => do
    match p.body with
    | some body =>
      Machine.note .verbose
        ("evaluating program with " ++ toString body.length ++ " statements")
    | none => pure ()
    p.evaluate State.global

/-- Calls a procedure value. -/
def callProcedure (callee : Option Procedure) (arguments : List Value) : Machine Value :=
  Eval.callProcedure eval callee arguments

/-- A program with its name and the path of its file. -/
structure Module where
  name : String
  path : String
  program : Option Program
  deriving Inhabited

/-- Which module gives the value of a bundle. -/
inductive Entry where
  /-- The module at a position. -/
  | position (index : Nat)
  /-- A module of some name that is not in the bundle. -/
  | outside (name : String)
  deriving DecidableEq, Repr

/-- The modules of a run in order; a place may be empty. -/
structure Bundle where
  modules : List (Option Module)
  entry : Option Entry
  deriving Inhabited

/-- Why a bundle has no value. -/
inductive BundleFailure where
  /-- There is no bundle. -/
  | noBundle
  /-- No module is the entry. -/
  | noEntry
  /-- The evaluation of a module fails. -/
  | inModule (name path : String) (cause : Failure)
  /-- The entry is not among the modules that were evaluated. -/
  | entryNotRun (name : String)
  deriving Repr

namespace BundleFailure

/-- The failure of the module that failed. -/
def cause? : BundleFailure → Option Failure
  | .inModule _ _ cause => some cause
  | _ => none

/-- Whether the failure is a crash. -/
def isCrash (e : BundleFailure) : Bool := e.cause?.any Failure.isCrash

/-- The message of a failure. -/
def message : BundleFailure → String
  | .noBundle => "interpreter: program is nil"
  | .noEntry => "interpreter: program has no entry module"
  | .inModule name path cause =>
    "interpreter: evaluation error in module " ++ name ++ " (" ++ path ++ "): " ++ cause.message
  | .entryNotRun name => "interpreter: entry module " ++ name ++ " is not part of the program"

end BundleFailure

/-- A step of the run of a bundle. -/
abbrev BundleRun := EStateM BundleFailure State

/-- Evaluates one module. -/
def Module.evaluate (m : Module) (program : Program) : BundleRun Value := fun s =>
  let noted := { s with log := s.log.push ⟨.verbose, "evaluating module " ++ m.name⟩ }
  match evaluateProgram (some program) noted with
  | .ok v s' => .ok v s'
  | .error e s' => .error (.inModule m.name m.path e) s'

namespace Bundle

/-- Evaluates modules in order, from position `index` on. The value of the entry is kept. -/
def evaluateFrom (entry : Entry) : Nat → Option Value → List (Option Module) →
    BundleRun (Option Value)
  | _, found, [] => pure found
  | index, found, none :: rest => evaluateFrom entry (index + 1) found rest
  | index, found, some m :: rest =>
    match m.program with
    | none => evaluateFrom entry (index + 1) found rest
    | some program => do
      let v ← m.evaluate program
      evaluateFrom entry (index + 1) (if entry = .position index then some v else found) rest

/-- The name of the entry. -/
def entryName (b : Bundle) : Entry → String
  | .position index =>
    match b.modules[index]? with
    | some (some m) => m.name
    | _ => ""
  | .outside name => name

/-- Evaluates a bundle. -/
def evaluate (b : Bundle) : BundleRun Value :=
  match b.entry with
  | none => throw .noEntry
  | some entry => do
    match ← evaluateFrom entry 0 none b.modules with
    | some .nothing => throw (.entryNotRun (b.entryName entry))
    | some v => pure v
    | none => throw (.entryNotRun (b.entryName entry))

end Bundle

end Smpl
