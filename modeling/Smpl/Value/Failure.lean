import Smpl.Numeric.IntegerText
import Smpl.Text.Quoted
import Smpl.Value.Basic

/-!
# Failures

Why an evaluation stops without a value. Five kinds are errors of the program (`ErrorKind`): an
unbound variable, an operand of the wrong kind, a division by zero, an index out of bounds, and a
wrong number of values. The others come from the console, from an operator or a program part that
does not exist, from taking what is not there, from making what there is no room for, or from the
bound on the depth of evaluation. `message` is the only place where a failure has words.
-/

namespace Smpl

/-- The five kinds of errors of a program. -/
inductive ErrorKind where
  | unboundVariable
  | typeError
  | arithmeticError
  | boundsError
  | arityError
  deriving DecidableEq, Repr

/-- The word for a kind of error. -/
def ErrorKind.text : ErrorKind → String
  | .unboundVariable => "UnboundVariable"
  | .typeError => "TypeError"
  | .arithmeticError => "ArithmeticError"
  | .boundsError => "BoundsError"
  | .arityError => "ArityError"

/-- Where two counts have to agree. -/
inductive ArityContext where
  | scopeBindings
  | procedureCall
  | definition
  | slotAssignment
  | generatorRest
  | generatorParameters
  deriving DecidableEq, Repr

/-- The words for such a place. -/
def ArityContext.text : ArityContext → String
  | .scopeBindings => "scope bindings"
  | .procedureCall => "procedure call"
  | .definition => "definition"
  | .slotAssignment => "vector assignment"
  | .generatorRest => "vector generator procedure rest parameter"
  | .generatorParameters => "vector generator procedure"

/-- The most elements that there is room for at once. An element takes sixteen bytes, and there are
2 ^ 48 addresses. -/
def roomLimit : Int64 := 0x100000000000

/-- Why an evaluation stops. -/
inductive Failure where
  /-- No scope of the chain binds the name. -/
  | unbound (name : String)
  /-- An operand is of none of the kinds that an operation takes; it may be absent. -/
  | wrongKind (operation : String) (expected : List Kind) (actual : Option Kind)
  /-- The divisor of a division is zero. -/
  | divisionByZero
  /-- The divisor of a remainder is zero. -/
  | moduloByZero
  /-- A slot that the vector of a name does not have. -/
  | slotBounds (position : Int64) (size : Nat) (name : String)
  /-- A substring starts outside its string. -/
  | substringStart (position : Int64) (length : Nat)
  /-- A substring ends behind its string. -/
  | substringEnd (position : Int64) (length : Nat)
  /-- A generator is to make fewer than no elements. -/
  | generatorCount (count : Int64)
  /-- Two counts differ. -/
  | arity (context : ArityContext) (expected actual : Nat)
  /-- The console has no more input. -/
  | endOfInput (operation : String)
  /-- There is no console. -/
  | noConsole (operation : String)
  /-- No binary operator has the symbol. -/
  | unknownBinary (symbol : String)
  /-- No unary operator has the symbol. -/
  | unknownUnary (symbol : String)
  /-- An expression position is empty. -/
  | missingNode
  /-- The node is a part that cannot be evaluated on its own. -/
  | unsupportedNode (name : String)
  /-- There is no procedure to call, or it has no declaration. -/
  | noProcedure
  /-- There is no program to run. -/
  | noProgram
  /-- A slot, a character or a part of a generator is taken that is not there. -/
  | outOfRange
  /-- Room is wanted for fewer than no elements, or for more than there is room for. -/
  | noRoom (count : Int64)
  /-- The bound on the depth of evaluation is reached. -/
  | tooDeep
  deriving Repr

namespace Failure

/-- The failure of an operand that is of none of the expected kinds. -/
def kindOf (operation : String) (actual : Value) (expected : List Kind) : Failure :=
  .wrongKind operation expected actual.kind?

/-- The kind of error that a failure is, if it is an error of the program. -/
def kind? : Failure → Option ErrorKind
  | .unbound _ => some .unboundVariable
  | .wrongKind _ _ _ => some .typeError
  | .divisionByZero => some .arithmeticError
  | .moduloByZero => some .arithmeticError
  | .slotBounds _ _ _ => some .boundsError
  | .substringStart _ _ => some .boundsError
  | .substringEnd _ _ => some .boundsError
  | .generatorCount _ => some .boundsError
  | .arity _ _ _ => some .arityError
  | _ => none

/-- Whether a failure is a crash: it ends the whole command at once, and nothing reports it. -/
def isCrash : Failure → Bool
  | .outOfRange => true
  | .noRoom _ => true
  | _ => false

/-- The words for the kind of an operand. -/
def actualText : Option Kind → String
  | some kind => kind.text
  | none => "nothing"

/-- The message of a failure. -/
def message : Failure → String
  | .unbound name => "Undefined variable '" ++ name ++ "'"
  | .wrongKind operation expected actual =>
    operation ++ ": expected " ++ " or ".intercalate (expected.map Kind.text) ++ ", got " ++
      actualText actual
  | .divisionByZero => "division by zero"
  | .moduloByZero => "modulo by zero"
  | .slotBounds position size name =>
    "Reference to index [" ++ Numeric.integerText position ++ "] outside of bounds of " ++ name ++
      "[" ++ toString size ++ "]"
  | .substringStart position length =>
    "substring start " ++ Numeric.integerText position ++
      " outside of bounds of string of length " ++ toString length
  | .substringEnd position length =>
    "substring end " ++ Numeric.integerText position ++
      " outside of bounds of string of length " ++ toString length
  | .generatorCount count =>
    "vector generator count must be non-negative, got " ++ Numeric.integerText count
  | .arity context expected actual =>
    context.text ++ ": expected " ++ toString expected ++ ", got " ++ toString actual
  | .endOfInput operation => operation ++ ": EOF"
  | .noConsole operation => operation ++ ": no console attached"
  | .unknownBinary symbol => "unsupported binary operator " ++ Text.quote symbol
  | .unknownUnary symbol => "unsupported unary operator " ++ Text.quote symbol
  | .missingNode => "cannot visit nil node"
  | .unsupportedNode name => "unsupported node type " ++ name
  | .noProcedure => "interpreter: procedure is nil"
  | .noProgram => "interpreter: program is nil"
  | .outOfRange => "access out of range"
  | .noRoom count => "no room for " ++ Numeric.integerText count ++ " elements"
  | .tooDeep => "evaluation is nested too deeply"

end Failure

end Smpl
