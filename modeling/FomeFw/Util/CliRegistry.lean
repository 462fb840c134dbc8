import FomeFw.Util.EfiLib

/-! The registry of console commands, `cli_registry.cpp`. Callbacks and their parameters are
known by numbers, since the registry only passes them on. -/
namespace FomeFw.Util

/-- `action_type_e`. -/
inductive ActionType where
  | noParameter | noParameterP
  | oneParameter | oneParameterP
  | floatParameterNanAllowed | floatParameter | floatParameterP
  | stringParameter | stringParameterP
  | string2Parameter | string2ParameterP
  | string3Parameter | string5Parameter
  | twoIntsParameter | twoIntsParameterP
  | floatFloatParameter | floatFloatFloatParameter | floatFloatFloatFloatParameter
  | floatFloatParameterP
  | intFloatParameter
  deriving DecidableEq, Repr

structure TokenCallback where
  token : List Char
  parameterType : ActionType
  callback : Nat
  param : Nat
  deriving DecidableEq, Repr

/-- What a callback is called with; a float is `none` when it is NaN. -/
inductive Argument where
  | int (value : Int)
  | float (value : Option ℚ)
  | string (text : List Char)
  | pointer (param : Nat)
  deriving DecidableEq, Repr

structure Invocation where
  callback : Nat
  arguments : List Argument
  deriving DecidableEq, Repr

inductive FirmwareError where
  | lowerCaseExpected (token : List Char)
  | sameActionTwice (token : List Char)
  | tooManyConsoleActions
  deriving DecidableEq, Repr

/-- The texts printed. -/
inductive Message where
  | invalidInput
  | incorrectArgumentCount (count expected : Int)
  | unknownCommand (commandLine : List Char)
  | notAnInteger (argument : List Char)
  | invalidFloat (argument : List Char)
  | unsupportedParameterType (parameterType : ActionType)
  | longLine
  | failedToHandle (line : List Char)
  | confirmation (line : List Char) (lineLength : Nat)
  deriving DecidableEq, Repr

/-- `consoleActions`, of which `consoleActionCount` are in use, and the errors raised. -/
structure ConsoleActions where
  actions : List TokenCallback := []
  errors : List FirmwareError := []

def maxCmdLineLength : Nat := 100
def consoleMaxActions : Nat := 150

/-- Neither of the first two errors ends the function. -/
def ConsoleActions.doAddAction (c : ConsoleActions) (token : List Char) (type : ActionType)
    (callback param : Nat) : ConsoleActions :=
  let upper := (token.filter Char.isUpper).map fun _ => FirmwareError.lowerCaseExpected token
  let twice := (c.actions.filter fun action => token == action.token).map fun _ =>
    FirmwareError.sameActionTwice token
  let c := { c with errors := c.errors ++ upper ++ twice }
  if c.actions.length < consoleMaxActions then
    { c with actions := c.actions ++ [⟨token, type, callback, param⟩] }
  else { c with errors := c.errors ++ [.tooManyConsoleActions] }

/-- A call of one of the `addConsoleAction` functions; the pointer of the others is `NULL`. -/
inductive Registration where
  | addConsoleAction (token : List Char) (callback : Nat)
  | addConsoleActionP (token : List Char) (callback param : Nat)
  | addConsoleActionI (token : List Char) (callback : Nat)
  | addConsoleActionIP (token : List Char) (callback param : Nat)
  | addConsoleActionII (token : List Char) (callback : Nat)
  | addConsoleActionIIP (token : List Char) (callback param : Nat)
  | addConsoleActionIF (token : List Char) (callback : Nat)
  | addConsoleActionS (token : List Char) (callback : Nat)
  | addConsoleActionSP (token : List Char) (callback param : Nat)
  | addConsoleActionSS (token : List Char) (callback : Nat)
  | addConsoleActionSSP (token : List Char) (callback param : Nat)
  | addConsoleActionSSS (token : List Char) (callback : Nat)
  | addConsoleActionSSSSS (token : List Char) (callback : Nat)
  | addConsoleActionNANF (token : List Char) (callback : Nat)
  | addConsoleActionF (token : List Char) (callback : Nat)
  | addConsoleActionFF (token : List Char) (callback : Nat)
  | addConsoleActionFFF (token : List Char) (callback : Nat)
  | addConsoleActionFFFF (token : List Char) (callback : Nat)
  | addConsoleActionFFP (token : List Char) (callback param : Nat)
  deriving DecidableEq, Repr

/-- What the function passes to `doAddAction`. -/
def Registration.entry : Registration → TokenCallback
  | .addConsoleAction token callback => ⟨token, .noParameter, callback, 0⟩
  | .addConsoleActionP token callback param => ⟨token, .noParameterP, callback, param⟩
  | .addConsoleActionI token callback => ⟨token, .oneParameter, callback, 0⟩
  | .addConsoleActionIP token callback param => ⟨token, .oneParameterP, callback, param⟩
  | .addConsoleActionII token callback => ⟨token, .twoIntsParameter, callback, 0⟩
  | .addConsoleActionIIP token callback param => ⟨token, .twoIntsParameterP, callback, param⟩
  | .addConsoleActionIF token callback => ⟨token, .intFloatParameter, callback, 0⟩
  | .addConsoleActionS token callback => ⟨token, .stringParameter, callback, 0⟩
  | .addConsoleActionSP token callback param => ⟨token, .stringParameterP, callback, param⟩
  | .addConsoleActionSS token callback => ⟨token, .string2Parameter, callback, 0⟩
  | .addConsoleActionSSP token callback param => ⟨token, .string2ParameterP, callback, param⟩
  | .addConsoleActionSSS token callback => ⟨token, .string3Parameter, callback, 0⟩
  | .addConsoleActionSSSSS token callback => ⟨token, .string5Parameter, callback, 0⟩
  | .addConsoleActionNANF token callback => ⟨token, .floatParameterNanAllowed, callback, 0⟩
  | .addConsoleActionF token callback => ⟨token, .floatParameter, callback, 0⟩
  | .addConsoleActionFF token callback => ⟨token, .floatFloatParameter, callback, 0⟩
  | .addConsoleActionFFF token callback => ⟨token, .floatFloatFloatParameter, callback, 0⟩
  | .addConsoleActionFFFF token callback => ⟨token, .floatFloatFloatFloatParameter, callback, 0⟩
  | .addConsoleActionFFP token callback param => ⟨token, .floatFloatParameterP, callback, param⟩

def ConsoleActions.register (c : ConsoleActions) (r : Registration) : ConsoleActions :=
  c.doAddAction r.entry.token r.entry.parameterType r.entry.callback r.entry.param

def getParameterCount : ActionType → Int
  | .noParameter | .noParameterP => 0
  | .oneParameter | .oneParameterP | .floatParameter | .stringParameter => 1
  | .floatFloatParameter | .floatFloatParameterP | .string2Parameter | .string2ParameterP
  | .twoIntsParameter | .twoIntsParameterP | .intFloatParameter => 2
  | .string3Parameter | .floatFloatFloatParameter => 3
  | .floatFloatFloatFloatParameter => 4
  | .string5Parameter => 5
  | _ => -1

/-! `setargs` goes through its buffer once: `done` is what `args` has passed, with what was
written to it, and `rest` is what comes, up to the NUL. -/

/-- The loops over space, which is overwritten. -/
def skipSpace (done : List Char) : List Char → List Char × List Char
  | [] => (done, [])
  | c :: rest => if isspace c then skipSpace (done ++ ['\x00']) rest else (done, c :: rest)

/-- The two loops over a token, the inner one when a quote is open. There is no result for -1. -/
def scanToken (quoted : Bool) (done : List Char) : List Char → Option (List Char × List Char)
  | [] => if quoted then none else some (done, [])
  | c :: rest =>
    if quoted then scanToken (c != '"') (done ++ [c]) rest
    else if isspace c then some (done, c :: rest)
    else scanToken (c == '"') (done ++ [c]) rest

/-- The loop over the tokens, with how many of them may still come; the result is the buffer and
the offsets in `argv`. -/
def setargsLoop : (left : Nat) → (done rest : List Char) → (argv : List Nat) →
    Option (List Char × List Nat)
  | 0, done, rest, argv => some (done ++ rest, argv)
  | _ + 1, done, [], argv => some (done, argv)
  | left + 1, done, rest, argv => do
    let (scanned, behind) ← scanToken false done rest
    let (ended, behind) := match behind with
      | [] => (scanned, [])
      | _ :: behind => (scanned ++ ['\x00'], behind)
    let (ended, behind) := skipSpace ended behind
    setargsLoop left ended behind (argv ++ [done.length])

def setargs (args : List Char) (maxArgs : Nat) : Option (List Char × List Nat) :=
  let (done, rest) := skipSpace [] args
  setargsLoop maxArgs done rest []

/-- The string from an offset on. -/
def stringAt (buffer : List Char) (offset : Nat) : List Char :=
  (buffer.drop offset).takeWhile (· != '\x00')

/-- An integer argument, or the message with the argument that is `shown`. -/
def intArgument (shown argument : List Char) : Except Message Argument :=
  let value := atoi argument
  if isAtoiError value then .error (.notAnInteger shown) else .ok (.int value)

def floatArgument (argument : List Char) : Except Message Argument :=
  match atoff argument with
  | none => .error (.invalidFloat argument)
  | some value => .ok (.float (some value))

/-- The loops over the float arguments. -/
def floatArguments (argv : Nat → List Char) : (count i : Nat) → Except Message (List Argument)
  | 0, _ => .ok []
  | count + 1, i => do
    let value ← floatArgument (argv i)
    return value :: (← floatArguments argv count (i + 1))

/-- The call of the callback, or the message before -1 is returned. -/
def handleActionWithParameter (current : TokenCallback) (argv : Nat → List Char) :
    Except Message Invocation :=
  let call (arguments : List Argument) := Invocation.mk current.callback arguments
  let param := Argument.pointer current.param
  match current.parameterType with
  | .noParameter => .ok (call [])
  | .noParameterP => .ok (call [param])
  | .stringParameter => .ok (call [.string (argv 0)])
  | .stringParameterP => .ok (call [.string (argv 0), param])
  | .string2Parameter => .ok (call [.string (argv 0), .string (argv 1)])
  | .string2ParameterP => .ok (call [.string (argv 0), .string (argv 1), param])
  | .string3Parameter => .ok (call [.string (argv 0), .string (argv 1), .string (argv 2)])
  | .string5Parameter =>
    .ok (call [.string (argv 0), .string (argv 1), .string (argv 2), .string (argv 3), .string (argv 4)])
  | .twoIntsParameter => do
    let value0 ← intArgument (argv 0) (argv 0)
    let value1 ← intArgument (argv 0) (argv 1)
    return call [value0, value1]
  | .floatParameterNanAllowed => .ok (call [.float (atoff (argv 0))])
  | .floatParameter => do return call [← floatArgument (argv 0)]
  | .floatFloatParameter => do return call (← floatArguments argv 2 0)
  | .floatFloatParameterP => do return call ((← floatArguments argv 2 0) ++ [param])
  | .floatFloatFloatParameter => do return call (← floatArguments argv 3 0)
  | .floatFloatFloatFloatParameter => do return call (← floatArguments argv 4 0)
  | .intFloatParameter => do
    let value1 ← intArgument (argv 0) (argv 0)
    let value2 ← floatArgument (argv 1)
    return call [value1, value2]
  | .oneParameterP => do return call [← intArgument (argv 0) (argv 0), param]
  | .oneParameter => do return call [← intArgument (argv 0) (argv 0)]
  | .floatParameterP | .twoIntsParameterP => .error (.unsupportedParameterType current.parameterType)

/-- `line` is memory from the line on. -/
def strlen (line : List Char) : Nat := (line.takeWhile (· != '\x00')).length

/-- The command of the first token, if there is one. -/
def handleConsoleLineInternal (c : ConsoleActions) (commandLine : List Char) (lineLength : Nat) :
    Except Message Invocation :=
  let handleBuffer := commandLine.take (min lineLength maxCmdLineLength)
  match setargs handleBuffer 10 with
  | none | some (_, []) => .error .invalidInput
  | some (buffer, first :: offsets) =>
    let argv := offsets.map (stringAt buffer)
    match c.actions.find? fun current => stringAt buffer first == current.token with
    | none => .error (.unknownCommand commandLine)
    | some current =>
      if (argv.length : Int) ≠ getParameterCount current.parameterType then
        .error (.incorrectArgumentCount argv.length (getParameterCount current.parameterType))
      else handleActionWithParameter current fun i => argv.getD i []

/-- The callbacks called and the messages printed. -/
def handleConsoleLine (c : ConsoleActions) (line : List Char) : List Invocation × List Message :=
  let lineLength := strlen line
  if lineLength > maxCmdLineLength then ([], [.longLine])
  else match handleConsoleLineInternal c line lineLength with
    | .error message => ([], [message, .failedToHandle line])
    | .ok invocation => ([invocation], [.confirmation line lineLength])

end FomeFw.Util
