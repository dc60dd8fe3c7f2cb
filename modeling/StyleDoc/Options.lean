/-!
The options of a command line. Short options may be grouped, and a value may stand in the same
argument or in the next one; after two hyphens every argument is an input. Every option is given at
most once.
-/

namespace StyleDoc

structure Options where
  inputs : List String := []
  output : Option String := none
  format : String := "json"
  showPrivate : Bool := false
  verbose : Bool := false
  deriving DecidableEq, Repr, Inhabited

namespace Options

/-- What is wrong with a command line. -/
inductive Fault where
  | unknown (argument : String)
  | repeated (option : String)
  | valueMissing (option : String)
  | valueNotAllowed (option : String)
  deriving DecidableEq, Repr

def Fault.message : Fault → String
  | .unknown argument => s!"unexpected argument '{argument}'"
  | .repeated option => s!"the argument '{option}' cannot be used multiple times"
  | .valueMissing option => s!"a value is required for '{option}'"
  | .valueNotAllowed option => s!"no value is allowed for '{option}'"

inductive Name where
  | output
  | format
  | showPrivate
  | verbose
  deriving DecidableEq, Repr

def Name.long : Name → String
  | .output => "output"
  | .format => "format"
  | .showPrivate => "show-private"
  | .verbose => "verbose"

def Name.display (name : Name) : String :=
  "--" ++ name.long

def Name.ofLong? (text : List Char) : Option Name :=
  [Name.output, .format, .showPrivate, .verbose].find? fun name => name.long.toList = text

def Name.ofShort? : Char → Option Name
  | 'o' => some .output
  | 'f' => some .format
  | 'v' => some .verbose
  | _ => none

/-- Whether the option comes with a value. -/
def Name.takesValue : Name → Bool
  | .output | .format => true
  | .showPrivate | .verbose => false

/-- What a command line says, in the order in which it says it. -/
inductive Setting where
  | input (text : String)
  | option (name : Name) (value : String)
  deriving DecidableEq, Repr

/-- An argument that asks for options. A hyphen by itself does not. -/
def looksLikeOption (argument : List Char) : Bool :=
  match argument with
  | '-' :: _ :: _ => true
  | _ => false

/-- The settings of a group of short options, and the option whose value is in the next argument. -/
def group : List Char → Except Fault (List Setting × Option Name)
  | [] => .ok ([], none)
  | c :: rest =>
      match Name.ofShort? c with
      | none => .error (.unknown (String.ofList ['-', c]))
      | some name =>
          if name.takesValue then
            match rest with
            | [] => .ok ([], some name)
            | '=' :: value => .ok ([.option name (String.ofList value)], none)
            | value => .ok ([.option name (String.ofList value)], none)
          else do
            let (settings, pending) ← group rest
            return (.option name "" :: settings, pending)

/-- The setting of a long option, or the option whose value is in the next argument. -/
def long (argument : List Char) : Except Fault (List Setting × Option Name) :=
  match Name.ofLong? (argument.takeWhile (· ≠ '=')), argument.dropWhile (· ≠ '=') with
  | none, _ => .error (.unknown (String.ofList ('-' :: '-' :: argument)))
  | some name, [] =>
      if name.takesValue then .ok ([], some name) else .ok ([.option name ""], none)
  | some name, _ :: value =>
      if name.takesValue then .ok ([.option name (String.ofList value)], none)
      else .error (.valueNotAllowed name.display)

/-- The settings of a command line. An option that waits for its value takes the next argument. -/
def settings : Option Name → List String → Except Fault (List Setting)
  | none, [] => .ok []
  | some name, [] => .error (.valueMissing name.display)
  | some name, argument :: rest =>
      if looksLikeOption argument.toList then .error (.valueMissing name.display)
      else (.option name argument :: ·) <$> settings none rest
  | none, argument :: rest =>
      if argument = "--" then
        .ok (rest.map .input)
      else if looksLikeOption argument.toList then do
        let (said, pending) ←
          match argument.toList with
          | '-' :: '-' :: name => long name
          | letters => group letters.tail
        return said ++ (← settings pending rest)
      else
        (.input argument :: ·) <$> settings none rest

/-- Adds what one setting says. The names that have been set already are given. -/
def apply (names : List Name) (options : Options) : List Setting → Except Fault Options
  | [] => .ok options
  | .input text :: rest => apply names { options with inputs := options.inputs ++ [text] } rest
  | .option name value :: rest =>
      if names.contains name then .error (.repeated name.display)
      else
        match name with
        | .output =>
            if value = "" then .error (.valueMissing name.display)
            else apply (name :: names) { options with output := some value } rest
        | .format => apply (name :: names) { options with format := value } rest
        | .showPrivate => apply (name :: names) { options with showPrivate := true } rest
        | .verbose => apply (name :: names) { options with verbose := true } rest

/-- The options of a command line. -/
def ofArguments (arguments : List String) : Except Fault Options := do
  apply [] {} (← settings none arguments)

end Options

end StyleDoc
