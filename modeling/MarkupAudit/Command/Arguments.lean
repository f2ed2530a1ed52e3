import MarkupAudit.Text.Digit
import MarkupAudit.Text.Quoted

/-!
Arguments of a command line. An option may be shortened as long as it is not ambiguous, its value
may follow it or stand after an equals sign, and after two hyphens nothing is an option. A value
that is itself two hyphens is void: the option is given, and says nothing.
-/

namespace MarkupAudit.Arguments

/-- What an option does. -/
inductive OptionKind where
  /-- Asks for help. -/
  | help
  /-- Takes a value. -/
  | value
  /-- Stands by itself. -/
  | switch
deriving Repr, DecidableEq

/-- An option by its names. -/
structure OptionSpec where
  names : List String
  kind : OptionKind
deriving Repr, DecidableEq

/-- What is wrong with arguments. -/
inductive UsageError where
  | ambiguous (given : String) (names : List String)
  | expectedValue (spec : OptionSpec)
  | ignoredValue (spec : OptionSpec) (value : String)
  | required (name : String)
  | unknownCommand (given : String) (known : List String)
  | unrecognized (given : List String)
deriving Repr, DecidableEq

/-- What messages call an option. -/
def OptionSpec.label (spec : OptionSpec) : String :=
  "/".intercalate spec.names

/-- What is said of wrong arguments. -/
def UsageError.message : UsageError → String
  | .ambiguous given names =>
    "ambiguous option: " ++ given ++ " could match " ++ ", ".intercalate names
  | .expectedValue spec => "argument " ++ spec.label ++ ": expected one argument"
  | .ignoredValue spec value =>
    "argument " ++ spec.label ++ ": ignored explicit argument " ++ Text.quoted value
  | .required name => "the following arguments are required: " ++ name
  | .unknownCommand given known =>
    "argument command: invalid choice: " ++ Text.quoted given ++ " (choose from " ++
      ", ".intercalate (known.map Text.quoted) ++ ")"
  | .unrecognized given => "unrecognized arguments: " ++ " ".intercalate given

/-- What an argument is. -/
inductive Token where
  /-- A word. -/
  | plain (s : String)
  /-- The two hyphens after which nothing is an option. -/
  | hyphens
  /-- An option, perhaps with a value. -/
  | option (spec : OptionSpec) (value : Option String)
  /-- Something that looks like an option. -/
  | unknown (s : String)
deriving Repr, DecidableEq

/-- The text before the first equals sign, and the text after it if there is one. -/
def splitValue (s : String) : String × Option String :=
  let t := s.toList
  (String.ofList (t.takeWhile (· != '=')),
    match t.dropWhile (· != '=') with
    | [] => none
    | _ :: value => some (String.ofList value))

/-- All names of the options, each with its option. -/
def namesOf (options : List OptionSpec) : List (String × OptionSpec) :=
  options.flatMap fun spec => spec.names.map fun name => (name, spec)

/-- Whether `s` starts with `start`. -/
def startsWith (s start : String) : Bool :=
  start.toList.isPrefixOf s.toList

/-- What is left of the value that stands in one argument with the name of an option. A letter that
takes no value may be repeated, so that `-hh` says no more than `-h`; only what follows the
repetitions is a value. -/
def attached (spec : OptionSpec) (name value : Text) : Option Text :=
  match spec.kind, name, value with
  | .value, _, _ | _, _, [] => some value
  | _, ['-', letter], _ =>
    let rest := value.dropWhile (· == letter)
    if rest.isEmpty then none else some rest
  | _, _, _ => some value

/-- The option of a name and a value in one argument. -/
def Token.ofValue (spec : OptionSpec) (name value : String) : Token :=
  .option spec ((attached spec name.toList value.toList).map String.ofList)

/-- The options that an argument may be short for, each with its name. What comes after the name of
an option of one letter is its value. -/
def candidates (options : List OptionSpec) (s : String) :
    List (String × Token) :=
  if startsWith s "--" then
    let (start, value) := splitValue s
    ((namesOf options).filter fun entry => startsWith entry.1 start).map fun entry =>
      (entry.1, .option entry.2 value)
  else
    (namesOf options).filterMap fun entry =>
      if entry.1.toList == s.toList.take 2 then
        some (entry.1, .ofValue entry.2 entry.1 (String.ofList (s.toList.drop 2)))
      else if startsWith entry.1 s then some (entry.1, .option entry.2 none)
      else none

/-- Whether a text is digits, or has digits after a point and only digits before it. -/
def isNumber (t : Text) : Bool :=
  match t.dropWhile Text.isDecimal with
  | [] => !t.isEmpty
  | '.' :: fraction => !fraction.isEmpty && fraction.all Text.isDecimal
  | _ => false

/-- Whether a text is a hyphen and a number. A line may end after the number. -/
def isNegativeNumber : Text → Bool
  | '-' :: t => isNumber (if t.getLast? = some '\n' then t.dropLast else t)
  | _ => false

/-- What an argument before the two hyphens is. -/
def classifyOne (options : List OptionSpec) (s : String) : Except UsageError Token :=
  if s.toList.head? ≠ some '-' then .ok (.plain s)
  else match (namesOf options).find? fun entry => entry.1 == s with
    | some entry => .ok (.option entry.2 none)
    | none =>
      if s == "-" then .ok (.plain s)
      else
        let (name, value) := splitValue s
        match value, (namesOf options).find? fun entry => entry.1 == name with
        | some value, some entry => .ok (.ofValue entry.2 name value)
        | _, _ =>
          match candidates options s with
          | [(_, token)] => .ok token
          | [] =>
            if isNegativeNumber s.toList || s.toList.contains ' ' then .ok (.plain s)
            else .ok (.unknown s)
          | several => .error (.ambiguous s (several.map (·.1)))

/-- What the arguments are. -/
def classify (options : List OptionSpec) : List String → Except UsageError (List Token)
  | [] => .ok []
  | s :: rest =>
    if s == "--" then .ok (.hyphens :: rest.map .plain)
    else do
      let token ← classifyOne options s
      let tokens ← classify options rest
      return token :: tokens

/-- What the arguments say of an option that takes a value. -/
inductive OptionValue where
  /-- The option is not given. -/
  | absent
  /-- The option is given with two hyphens for a value. -/
  | void
  | text (s : String)
deriving Repr, DecidableEq

/-- The value that an option is given. -/
def OptionValue.ofString (s : String) : OptionValue :=
  if s = "--" then .void else .text s

/-- The text of a value, if it has one. -/
def OptionValue.text? : OptionValue → Option String
  | .text s => some s
  | .absent | .void => none

/-- What has been read of the arguments. -/
structure Reading where
  /-- Options with their values, the latest first. -/
  values : List (OptionSpec × String) := []
  switches : List OptionSpec := []
  words : List String := []
  /-- What is neither an option nor a wanted word. -/
  extras : List String := []
  help : Bool := false

/-- The value of an option. -/
def Reading.value (r : Reading) (spec : OptionSpec) : OptionValue :=
  match r.values.find? fun entry => entry.1 == spec with
  | none => .absent
  | some entry => .ofString entry.2

/-- Whether an option is given. -/
def Reading.has (r : Reading) (spec : OptionSpec) : Bool :=
  r.switches.contains spec

/-- Reads tokens when `wanted` more words are wanted. Reading ends at a request for help. -/
def readTokens (wanted : Nat) (r : Reading) : List Token → Except UsageError Reading
  | [] => .ok r
  | .option spec value :: rest =>
    match spec.kind, value, rest with
    | .value, some v, rest => readTokens wanted { r with values := (spec, v) :: r.values } rest
    | .value, none, .plain v :: rest =>
      readTokens wanted { r with values := (spec, v) :: r.values } rest
    | .value, none, _ => .error (.expectedValue spec)
    | _, some v, _ => .error (.ignoredValue spec v)
    | .switch, none, rest => readTokens wanted { r with switches := spec :: r.switches } rest
    | .help, none, _ => .ok { r with help := true }
  | .unknown s :: rest => readTokens wanted { r with extras := r.extras ++ [s] } rest
  | .plain s :: .hyphens :: rest =>
    if wanted = 0 then readTokens wanted { r with extras := r.extras ++ [s, "--"] } rest
    else readTokens (wanted - 1) { r with words := r.words ++ [s] } rest
  | .plain s :: rest =>
    if wanted = 0 then readTokens wanted { r with extras := r.extras ++ [s] } rest
    else readTokens (wanted - 1) { r with words := r.words ++ [s] } rest
  | .hyphens :: .plain s :: rest =>
    if wanted = 0 then readTokens wanted { r with extras := r.extras ++ ["--", s] } rest
    else readTokens (wanted - 1) { r with words := r.words ++ [s] } rest
  | .hyphens :: rest => readTokens wanted { r with extras := r.extras ++ ["--"] } rest

/-- Reads the arguments of a command that wants the words with the given names. -/
def read (options : List OptionSpec) (wanted : List String) (args : List String) :
    Except UsageError Reading := do
  let tokens ← classify options args
  let r ← readTokens wanted.length {} tokens
  if r.help then return r
  match wanted.drop r.words.length with
  | [] => return r
  | missing => .error (.required (", ".intercalate missing))

end MarkupAudit.Arguments
