import WorkerPool.CommandLine.Option

/-!
# Reading arguments and the environment

Arguments are read from the left. An option that takes a value has it attached by an equals sign or
finds it in the next argument; the value is looked at when the next option, or the end, has come, so
a fault in it comes after an argument that is not understood but before the fault of a later option.
What the arguments leave open is looked up in the environment, option by option.
-/

namespace WorkerPool.CommandLine

/-- The options given, with their values. -/
abbrev Given := List (OptionName × OptionValue)

/-- Where the reading of arguments stands. -/
structure Scan where
  given : Given := []
  /-- An option whose value was not looked at, and the value if it has come. -/
  pending : Option (OptionName × Option String) := none

/-- Reads a value of an option. -/
def OptionName.readValue (o : OptionName) (text : String) : Except UsageError OptionValue :=
  match o.range? with
  | some range =>
    match range.read text with
    | .ok n => .ok (.number n)
    | .error fault => .error (.badNumber o text fault)
  | none =>
    if text = "true" then .ok (.flag true)
    else if text = "false" then .ok (.flag false)
    else .error (.badFlag o text)

/-- Text after a dash that is a number, with at most one point and one exponent, neither first. -/
def isNegativeNumber (rest : List Char) : Bool :=
  go true false false rest
where
  /-- `first`: nothing was read; `point`, `exponent`: one was read. -/
  go (first point exponent : Bool) : List Char → Bool
    | [] => true
    | c :: rest =>
      if (digit? c).isSome then go false point exponent rest
      else if c = '.' && !point && !exponent && !first then go false true exponent rest
      else if c = 'e' && !exponent && !first then !rest.isEmpty && go false point true rest
      else false

/-- The option takes values that begin with a dash, if they are numbers. -/
def OptionName.takesNegative (o : OptionName) : Bool := o == .maxTempWorkers

namespace Scan

/-- An option is given with its value. -/
def give (s : Scan) (o : OptionName) (text : String) : Except UsageError Scan :=
  if s.given.any (·.1 == o) then .error (.repeated o)
  else do
    let value ← o.readValue text
    pure { given := s.given ++ [(o, value)] }

/-- Looks at the value of the pending option. -/
def resolve (s : Scan) : Except UsageError Scan :=
  match s.pending with
  | none => .ok s
  | some (o, none) => .error (.missingValue o)
  | some (o, some text) => { s with pending := none }.give o text

/-- The option whose value is to come. -/
def awaiting? (s : Scan) : Option OptionName :=
  match s.pending with
  | some (o, none) => some o
  | _ => none

/-- Reads an argument that begins with two dashes: `word` up to the equals sign and the value after
it, if there is one. -/
def readLong (s : Scan) (word : String) (attached : Option String) : Except UsageError Scan :=
  match OptionName.ofWord? word, attached with
  | some .logJson, some text => .error (.surplusValue word text)
  | some .logJson, none => do (← s.resolve).give .logJson "true"
  | some o, some text => do (← s.resolve).give o text
  | some o, none => do
    let s ← s.resolve
    pure { s with pending := some (o, none) }
  | none, attached =>
    if word = "help" || word = "version" then
      match attached with
      | some text => .error (.surplusValue word text)
      | none => do
        let _ ← s.resolve
        .error (if word = "help" then .help true else .version)
    else .error (.unknown ("--" ++ word))

/-- Reads an argument that is no option: the value that the pending option waits for, or nothing
known. -/
def readPlain (s : Scan) (argument : String) : Except UsageError Scan :=
  match s.awaiting? with
  | some o => .ok { s with pending := some (o, some argument) }
  | none => .error (.unknown argument)

/-- Reads an argument that begins with one dash. -/
def readShort (s : Scan) (argument : String) (rest : List Char) : Except UsageError Scan :=
  if s.awaiting?.any OptionName.takesNegative && isNegativeNumber rest then s.readPlain argument
  else
    match rest with
    | 'h' :: _ => do
      let _ ← s.resolve
      .error (.help false)
    | 'V' :: _ => do
      let _ ← s.resolve
      .error .version
    | c :: _ => .error (.unknown (String.ofList ['-', c]))
    | [] => s.readPlain argument

/-- Splits the text after two dashes at its first equals sign. -/
def splitAttached (rest : List Char) : String × Option String :=
  match rest.span (· != '=') with
  | (word, []) => (String.ofList word, none)
  | (word, _ :: value) => (String.ofList word, some (String.ofList value))

/-- Reads arguments. After two dashes that stand alone nothing is understood any more. -/
def readAll (s : Scan) : List String → Except UsageError Scan
  | [] => .ok s
  | argument :: rest =>
    match argument.toList with
    | ['-', '-'] =>
      match rest with
      | [] => .ok s
      | next :: _ => .error (.unknown next)
    | '-' :: '-' :: long => do
      let (word, attached) := splitAttached long
      (← s.readLong word attached).readAll rest
    | '-' :: short => do (← s.readShort argument short).readAll rest
    | _ => do (← s.readPlain argument).readAll rest

/-- Reads arguments to their end. -/
def ofArguments (arguments : List String) : Except UsageError Scan := do
  (← readAll {} arguments).resolve

end Scan

/-- What an environment adds to the options given: of each option that is not given, the value of
its variable. -/
def readEnvironment (environment : String → Option String) (given : Given) :
    List OptionName → Except UsageError Given
  | [] => .ok given
  | o :: rest =>
    if given.any (·.1 == o) then readEnvironment environment given rest
    else
      match environment o.envName with
      | none => readEnvironment environment given rest
      | some text => do
        let value ← o.readValue text
        readEnvironment environment (given ++ [(o, value)]) rest

/-- The options that arguments and environment give. -/
def readOptions (arguments : List String) (environment : String → Option String) :
    Except UsageError Given := do
  let scan ← Scan.ofArguments arguments
  readEnvironment environment scan.given OptionName.all

/-- The number given for an option. -/
def Given.number? (given : Given) (o : OptionName) : Option Int :=
  match given.lookup o with
  | some (.number n) => some n
  | _ => none

/-- The flag is given and set. -/
def Given.isSet (given : Given) (o : OptionName) : Bool := given.lookup o == some (.flag true)

end WorkerPool.CommandLine
