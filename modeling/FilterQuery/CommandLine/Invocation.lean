import FilterQuery.CommandLine.Environment
import FilterQuery.CommandLine.Options
import FilterQuery.Settings.Layer

/-!
# Invocations

What the words of a command line ask for. The words are read from the left: first those of the
program, then, after the name of a command, those of the command. A value stands in the word of its
option or in the next word, which must not look like an option. An option that is given twice at
one level is refused; the shared options may be given at both, where the later ones count, and
otherwise come from the environment.
-/

namespace FilterQuery

/-! ## Commands -/

/-- Where the text of a filter comes from. -/
inductive FilterSource where
  /-- There is no filter. -/
  | nowhere
  /-- The text itself. -/
  | text (text : String)
  /-- The file at a path. -/
  | file (path : String)
deriving DecidableEq, Repr

/-- What a search is asked for. -/
structure SearchArguments where
  /-- The entity whose rows are selected; found from the filter when it is not given. -/
  entity : Option String
  /-- The filter. -/
  source : FilterSource
  /-- The number of the page. -/
  page : Nat
  /-- The number of rows of a page. -/
  perPage : Option Nat
  /-- The texts of the orderings. -/
  orderBy : List String
deriving DecidableEq, Repr

/-- A command. -/
inductive Command where
  /-- Lists the entities. -/
  | entities
  /-- Writes the statements of a search. -/
  | compile (arguments : SearchArguments)
  /-- Finds the entity of a filter. -/
  | detect (source : FilterSource)
  /-- Runs a search. -/
  | search (arguments : SearchArguments)
deriving DecidableEq, Repr

/-- What a command line asks for. -/
inductive Invocation where
  /-- Tells how the program is used. -/
  | help
  /-- Tells the version. -/
  | version
  /-- Runs a command. -/
  | run (overrides : Overrides) (command : Command)
deriving DecidableEq, Repr

/-! ## Faults -/

/-- What is wrong with a command line. -/
inductive UsageError where
  /-- A word is no command and no value. -/
  | unexpectedWord (word : String)
  /-- An option does not exist here. -/
  | unknownOption (word : String)
  /-- An option that takes no value has one. -/
  | unexpectedValue (word : String)
  /-- An option lacks its value. -/
  | missingValue (option : CommandOption)
  /-- An option is given twice. -/
  | repeated (option : CommandOption)
  /-- A value is not accepted. -/
  | invalidValue (option : CommandOption) (value : String)
  /-- The value of an environment variable is not accepted. -/
  | invalidVariable (name value : String)
  /-- A filter is given as a text and as a file. -/
  | twoFilters
deriving DecidableEq, Repr

/-- The wording of a fault. -/
def UsageError.message : UsageError → String
  | .unexpectedWord word => s!"unexpected argument '{word}'"
  | .unknownOption word => s!"unknown option '{word}'"
  | .unexpectedValue word => s!"'{word}' takes no value"
  | .missingValue option => s!"--{option.name} needs a value"
  | .repeated option => s!"--{option.name} cannot be used several times"
  | .invalidValue option value => s!"invalid value '{value}' for --{option.name}"
  | .invalidVariable name value => s!"invalid value '{value}' for {name}"
  | .twoFilters => "--filter cannot be used with --file"

/-! ## Levels -/

/-- A level of the command line: the program itself or one of its commands. -/
inductive Level where
  /-- Before the command. -/
  | program
  /-- After `entities`. -/
  | entities
  /-- After `compile`. -/
  | compile
  /-- After `detect`. -/
  | detect
  /-- After `search`. -/
  | search
deriving DecidableEq, Repr

namespace Level

/-- The level of the command with a name. -/
def ofName? (name : String) : Option Level :=
  if name = "entities" then some .entities
  else if name = "compile" then some .compile
  else if name = "detect" then some .detect
  else if name = "search" then some .search
  else none

/-- The options of a level. -/
def options : Level → List CommandOption
  | .program | .entities => CommandOption.shared
  | .detect => CommandOption.shared ++ CommandOption.ofSource
  | .compile | .search => CommandOption.shared ++ CommandOption.ofSearch

end Level

/-- What can follow dashes. -/
inductive Switch where
  /-- The question how the program is used. -/
  | help
  /-- The question for the version. -/
  | version
  /-- An option. -/
  | option (option : CommandOption)
deriving DecidableEq, Repr

namespace Level

/-- The switch with a name. Only the program itself has a version. -/
def switch? (level : Level) (name : String) : Option Switch :=
  if name = "help" then some .help
  else if name = "version" && level == .program then some .version
  else (level.options.find? fun o => o.name == name).map .option

/-- The switch with a letter. -/
def switchOfLetter? (level : Level) (letter : Char) : Option Switch :=
  if letter = 'h' then some .help
  else if letter = 'V' && level == .program then some .version
  else (level.options.find? fun o => o.letter? == some letter).map .option

end Level

/-! ## Words -/

/-- What a word means at a level. -/
inductive Word where
  /-- A word without leading dashes, or a lone dash. -/
  | plain
  /-- Two dashes, after which there are no options. -/
  | stop
  /-- The question how the program is used. -/
  | help
  /-- The question for the version. -/
  | version
  /-- An option with its value. -/
  | complete (option : CommandOption) (value : String)
  /-- An option whose value is the next word. -/
  | awaiting (option : CommandOption)
deriving DecidableEq, Repr

namespace Word

/-- The value after an equals sign. -/
def afterEquals? : List Char → Option String
  | '=' :: cs => some (String.ofList cs)
  | _ => none

/-- The value in the word of a letter: what follows it, without a leading equals sign. -/
def attached? : List Char → Option String
  | [] => none
  | '=' :: cs => some (String.ofList cs)
  | cs => some (String.ofList cs)

/-- The meaning of an option and of the value in its word. -/
def ofOption (word : String) (o : CommandOption) : Option String → Except UsageError Word
  | none => .ok (if o.rule = .flag then .complete o "true" else .awaiting o)
  | some value => if o.rule = .flag then .error (.unexpectedValue word) else .ok (.complete o value)

/-- The meaning of a word with two dashes, by what follows them. -/
def ofName (level : Level) (word : String) (s : List Char) : Except UsageError Word :=
  let value := afterEquals? (s.dropWhile (· != '='))
  match level.switch? (String.ofList (s.takeWhile (· != '='))) with
  | none => .error (.unknownOption word)
  | some (.option o) => ofOption word o value
  | some .help => if value.isSome then .error (.unexpectedValue word) else .ok .help
  | some .version => if value.isSome then .error (.unexpectedValue word) else .ok .version

/-- The meaning of a word with one dash, by the letter and by what follows it. -/
def ofLetter (level : Level) (word : String) (c : Char) (s : List Char) :
    Except UsageError Word :=
  match level.switchOfLetter? c with
  | none => .error (.unknownOption word)
  | some (.option o) => ofOption word o (attached? s)
  | some .help => .ok .help
  | some .version => .ok .version

/-- The meaning of a word. -/
def ofText (level : Level) (word : String) : Except UsageError Word :=
  match word.toList with
  | ['-', '-'] => .ok .stop
  | '-' :: '-' :: s => ofName level word s
  | '-' :: c :: s => ofLetter level word c s
  | _ => .ok .plain

/-- Whether a word can be the value of the option before it. -/
def isValue (word : String) : Bool :=
  match word.toList with
  | '-' :: _ :: _ => false
  | _ => true

end Word

/-! ## Reading -/

namespace GivenOptions

/-- Adds an option with a value that must be accepted. -/
def add (given : GivenOptions) (o : CommandOption) (value : String) :
    Except UsageError GivenOptions :=
  if !o.rule.accepts value then .error (.invalidValue o value)
  else if (given.value? o).isSome && !o.isRepeatable then .error (.repeated o)
  else .ok (given ++ [(o, value)])

end GivenOptions

namespace Level

/-- Reads the words of a level. What happens at the end and at a word that is no option is told
from outside. -/
def read (level : Level)
    (atWord : GivenOptions → String → List String → Except UsageError Invocation)
    (atEnd : GivenOptions → Except UsageError Invocation) (given : GivenOptions) :
    List String → Except UsageError Invocation
  | [] => atEnd given
  | word :: rest => do
    match ← Word.ofText level word with
    | .plain => atWord given word rest
    | .stop =>
      match rest with
      | [] => atEnd given
      | next :: _ => .error (.unexpectedWord next)
    | .help => .ok .help
    | .version => .ok .version
    | .complete o value => do
      let given ← given.add o value
      read level atWord atEnd given rest
    | .awaiting o =>
      match rest with
      | [] => .error (.missingValue o)
      | value :: rest =>
        if Word.isValue value then do
          let given ← given.add o value
          read level atWord atEnd given rest
        else .error (.missingValue o)

end Level

/-! ## Values from several places -/

/-- Checks the environment variables that stand in for options that are not given. -/
def GivenOptions.checkVariables (given : GivenOptions) (e : Environment) :
    List CommandOption → Except UsageError Unit
  | [] => .ok ()
  | o :: os =>
    match given.value? o, o.environmentName?.bind fun name => (e.get? name).map (name, ·) with
    | none, some (name, value) =>
      if o.rule.accepts value then checkVariables given e os
      else .error (.invalidVariable name value)
    | _, _ => checkVariables given e os

/-- The value of a shared option: the one after the command, else the one before it, else that of
the environment variable. -/
def CommandOption.sharedValue? (o : CommandOption) (e : Environment)
    (before after : GivenOptions) : Option String :=
  ((after.value? o).or (before.value? o)).or (o.environmentName?.bind e.get?)

namespace Overrides

/-- The overrides that options before and after the command and the environment make. -/
def ofOptions (e : Environment) (before after : GivenOptions) : Overrides :=
  let value? (o : CommandOption) := o.sharedValue? e before after
  { debug := ((value? .debug).bind ValueRule.bool?).getD false
    config := value? .config
    dialect := (value? .backend).bind ValueRule.dialect?
    url := value? .databaseUrl
    maxBytes := (value? .maxFilterBytes).bind ValueRule.nat64?
    maxDepth := (value? .maxFilterDepth).bind ValueRule.nat64?
    maxConditions := (value? .maxFilterConditions).bind ValueRule.nat64?
    defaultPerPage := (value? .defaultPerPage).bind ValueRule.nat32?
    maxPerPage := (value? .maxPerPage).bind ValueRule.nat32? }

end Overrides

namespace Command

/-- Where the filter comes from. -/
def sourceOf (given : GivenOptions) : Except UsageError FilterSource :=
  match given.value? .filter, given.value? .file with
  | some _, some _ => .error .twoFilters
  | some text, none => .ok (.text text)
  | none, some path => .ok (.file path)
  | none, none => .ok .nowhere

/-- What a search is asked for. -/
def searchArguments (given : GivenOptions) : Except UsageError SearchArguments := do
  let source ← sourceOf given
  .ok {
    entity := given.value? .entity
    source := source
    page := ((given.value? .page).bind ValueRule.nat32?).getD defaultPage
    perPage := (given.value? .perPage).bind ValueRule.nat32?
    orderBy := given.values .orderBy }

/-- The command of a level with its options; without one, the entities are listed. -/
def ofOptions (level : Level) (given : GivenOptions) : Except UsageError Command :=
  match level with
  | .program | .entities => .ok .entities
  | .compile => (searchArguments given).map .compile
  | .detect => (sourceOf given).map .detect
  | .search => (searchArguments given).map .search

end Command

namespace Invocation

/-- Runs a command after the options are complete. -/
def finish (e : Environment) (level : Level) (before after : GivenOptions) :
    Except UsageError Invocation := do
  let command ← Command.ofOptions level after
  before.checkVariables e CommandOption.shared
  after.checkVariables e CommandOption.shared
  .ok (.run (.ofOptions e before after) command)

/-- Reads what follows the word `help`: at most the name of a command. -/
def readHelp : List String → Except UsageError Invocation
  | [] => .ok .help
  | word :: rest =>
    if rest.isEmpty && (word = "help" || (Level.ofName? word).isSome) then .ok .help
    else .error (.unexpectedWord word)

/-- Reads the name of a command and what follows it. -/
def readCommand (e : Environment) (before : GivenOptions) (word : String) (rest : List String) :
    Except UsageError Invocation :=
  if word = "help" then readHelp rest
  else
    match Level.ofName? word with
    | none => .error (.unexpectedWord word)
    | some level =>
      level.read (fun _ word _ => .error (.unexpectedWord word)) (finish e level before) [] rest

/-- Reads the words of a command line. -/
def ofWords (e : Environment) (words : List String) : Except UsageError Invocation :=
  Level.program.read (readCommand e) (fun given => finish e .program given given) [] words

end Invocation

end FilterQuery
