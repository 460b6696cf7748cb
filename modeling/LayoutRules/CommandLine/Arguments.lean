import LayoutRules.CommandLine.Terminal
import LayoutRules.Manifest.Basic

/-! The words of a command line and the arguments they give. Options and operands
may stand in any order; the first operand is the destination and the others are
tables. The value of an option is judged when the next argument is complete, and
what is missing or in conflict is judged after the last word. -/
namespace LayoutRules

structure Arguments where
  columns : Option Columns
  number : Option UInt32
  noHeading : Bool
  config : Option Path
  check : Bool
  verbose : Bool
  destination : Option Text
  tables : List Path
  deriving DecidableEq

namespace Arguments

def none : Arguments := ⟨.none,.none,false,.none,false,false,.none,[]⟩

inductive ValueOption where
  | want
  | number
  | config
  deriving DecidableEq, Repr

inductive Switch where
  | noHeader
  | check
  | verbose
  | help
  | version
  deriving DecidableEq, Repr

inductive Flag where
  | valued (option : ValueOption)
  | switch (switch : Switch)
  deriving DecidableEq, Repr

def Flag.ofName? (name : Text) : Option Flag :=
  if name = "want".toList then some (.valued .want)
  else if name = "number".toList then some (.valued .number)
  else if name = "config".toList then some (.valued .config)
  else if name = "no-header".toList then some (.switch .noHeader)
  else if name = "check".toList then some (.switch .check)
  else if name = "verbose".toList then some (.switch .verbose)
  else if name = "help".toList then some (.switch .help)
  else if name = "version".toList then some (.switch .version)
  else .none

def Flag.ofLetter? (letter : Char) : Option Flag :=
  if letter = 'c' then some (.valued .config)
  else if letter = 'v' then some (.switch .verbose)
  else if letter = 'h' then some (.switch .help)
  else if letter = 'V' then some (.switch .version)
  else .none

inductive Fault where
  | unknownOption
  | noValue
  | badWant (code : Text)
  | badNumber (numeral : Text) (cause : Numeral.Fault)
  | needlessValue
  | conflict
  | missing
  | help
  | version
  deriving DecidableEq, Repr

/-- A word by its form. A dash alone is an operand, and two dashes alone end the options. -/
inductive Word where
  | separator
  | long (name : Text) (attached : Option Text)
  | letters (letters : Text)
  | operand (text : Text)
  deriving DecidableEq, Repr

def Word.ofText : Text → Word
  | ['-','-'] => separator
  | '-' :: '-' :: body =>
    match body.dropWhile (· ≠ '=') with
    | [] => long body .none
    | _ :: value => long (body.takeWhile (· ≠ '=')) (some value)
  | ['-'] => operand ['-']
  | '-' :: body => letters body
  | text => operand text

inductive Pending where
  | nothing
  | awaiting (option : ValueOption)
  | value (option : ValueOption) (text : Text)
  | destination (text : Text)
  | tables (texts : List Text)
  deriving DecidableEq

structure Progress where
  given : Arguments
  pending : Pending
  operandsOnly : Bool
  deriving DecidableEq

/-- Takes the value of an option, which may be given once. -/
def setValue (arguments : Arguments) (option : ValueOption) (text : Text) :
    Except Fault Arguments :=
  match option with
  | .want =>
    if arguments.columns.isSome then .error .conflict
    else match Columns.ofCode? text with
      | some columns => .ok { arguments with columns := some columns }
      | .none => .error (.badWant text)
  | .number =>
    if arguments.number.isSome then .error .conflict
    else match Numeral.readUInt32 text with
      | .ok number => .ok { arguments with number := some number }
      | .error cause => .error (.badNumber text cause)
  | .config =>
    if arguments.config.isSome then .error .conflict
    else if text = [] then .error .noValue
    else .ok { arguments with config := some text }

def setSwitch (arguments : Arguments) (switch : Switch) : Except Fault Arguments :=
  match switch with
  | .noHeader =>
    if arguments.noHeading then .error .conflict else .ok { arguments with noHeading := true }
  | .check => if arguments.check then .error .conflict else .ok { arguments with check := true }
  | .verbose =>
    if arguments.verbose then .error .conflict else .ok { arguments with verbose := true }
  | .help => .error .help
  | .version => .error .version

namespace Progress

def start : Progress := ⟨Arguments.none,.nothing,false⟩

def settle (progress : Progress) : Except Fault Progress :=
  match progress.pending with
  | .nothing => .ok progress
  | .awaiting _ => .error .noValue
  | .value option text => do
    return { progress with given := ← progress.given.setValue option text,pending := .nothing }
  | .destination text =>
    .ok { progress with
      given := { progress.given with destination := some text }
      pending := .nothing }
  | .tables texts =>
    if [] ∈ texts then .error .noValue
    else
      .ok { progress with
        given := { progress.given with tables := progress.given.tables ++ texts }
        pending := .nothing }

def hasDestination (progress : Progress) : Bool :=
  progress.given.destination.isSome || match progress.pending with
    | .destination _ => true
    | _ => false

def takeOperand (progress : Progress) (text : Text) : Except Fault Progress :=
  if progress.hasDestination then
    match progress.pending with
    | .tables texts => .ok { progress with pending := .tables (texts ++ [text]) }
    | _ => do return { ← progress.settle with pending := .tables [text] }
  else do return { ← progress.settle with pending := .destination text }

def takeSwitch (progress : Progress) (switch : Switch) : Except Fault Progress := do
  let progress ← progress.settle
  return { progress with given := ← progress.given.setSwitch switch }

/-- Takes an option whose value is attached to it, or waits for the value in the next word. -/
def takeValued (progress : Progress) (option : ValueOption) (attached : Option Text) :
    Except Fault Progress := do
  let progress ← progress.settle
  match attached with
  | some text => return { progress with given := ← progress.given.setValue option text }
  | .none => return { progress with pending := .awaiting option }

/-- Takes options of one letter each. What follows an option with a value is that
value; an equals sign in front of it does not belong to it. -/
def takeLetters (progress : Progress) : Text → Except Fault Progress
  | [] => .ok progress
  | letter :: rest =>
    match Flag.ofLetter? letter with
    | .none => .error .unknownOption
    | some (.switch switch) => do (← progress.takeSwitch switch).takeLetters rest
    | some (.valued option) =>
      progress.takeValued option (match rest with
        | [] => .none
        | '=' :: text => some text
        | text => some text)

def take (progress : Progress) (text : Text) : Except Fault Progress :=
  if progress.operandsOnly then progress.takeOperand text
  else match Word.ofText text with
    | .separator => .ok { progress with operandsOnly := true }
    | .long name attached =>
      match Flag.ofName? name with
      | .none => .error .unknownOption
      | some (.switch switch) =>
        if attached.isSome then .error .needlessValue else progress.takeSwitch switch
      | some (.valued option) => progress.takeValued option attached
    | .letters letters => progress.takeLetters letters
    | .operand text =>
      match progress.pending with
      | .awaiting option => .ok { progress with pending := .value option text }
      | _ => progress.takeOperand text

end Progress

/-- A manifest excludes what describes a single job; without one, the job has to be complete. -/
def validate (arguments : Arguments) : Except Fault Arguments :=
  if arguments.config.isSome then
    if arguments.columns.isSome ∨ arguments.number.isSome ∨ arguments.noHeading then
      .error .conflict
    else .ok arguments
  else
    if arguments.columns.isNone ∨ arguments.destination.isNone ∨ arguments.tables = [] then
      .error .missing
    else .ok arguments

def ofWords (words : List Text) : Except Fault Arguments := do
  let progress ← words.foldlM Progress.take Progress.start
  validate (← progress.settle).given

def Fault.exit : Fault → Nat
  | help => 0
  | version => 0
  | _ => 2

def numeralMessage : Numeral.Fault → Text
  | .empty => "cannot parse integer from empty string".toList
  | .badDigit => "invalid digit found in string".toList
  | .tooLarge => "number too large to fit in target type".toList
  | .tooSmall => "number too small to fit in target type".toList
  | .outside value => Numeral.ofInt value ++ " is not in 0..=4294967295".toList

/-- The page on a value that an option does not take, as it is written for a terminal. -/
def refusalPage (value option cause : Text) : Text :=
  Terminal.highlighted "error:".toList ++ " invalid value '".toList ++ Terminal.highlighted value ++
    "' for '".toList ++ Terminal.highlighted option ++ "': ".toList ++ cause ++
    "\n\nFor more information, try '".toList ++
    Terminal.highlighted "--help".toList ++ "'.\n".toList

def Fault.page : Fault → Text
  | badWant code => refusalPage code "--want <WANT>".toList (Columns.refusal code)
  | badNumber numeral cause => refusalPage numeral "--number <N>".toList (numeralMessage cause)
  | version => "variantmap 0.1.0\n".toList
  | _ => []

/-- The first line of the page, without what only a terminal needs. -/
def Fault.message (fault : Fault) : Text :=
  ((Lines.ofText (Terminal.plain .ends fault.page)).head?).getD []

/-- Why arguments give no jobs. The causes other than the
manifest's do not arise from a command line. -/
inductive Refusal where
  | manifest (fault : Manifest.Fault)
  | noColumns
  | noDestination
  | noTables
  deriving DecidableEq

def Refusal.message : Refusal → Text
  | manifest fault => fault.message
  | noColumns => "--want is required when not using --config".toList
  | noDestination => "DEST is required when not using --config".toList
  | noTables => "at least one mapping file is required".toList

/-- The jobs that the arguments ask for: those of the manifest, or a single one. -/
def jobs (arguments : Arguments) : Action Refusal (List Job) :=
  match arguments.config with
  | some path => Action.within .manifest (Manifest.load path)
  | .none =>
    match arguments.columns, arguments.destination with
    | .none, _ => throw .noColumns
    | some _, .none => throw .noDestination
    | some columns, some destination =>
      if arguments.tables = [] then throw .noTables
      else return [{
        heading := Heading.ofNumber columns arguments.number
        destination := Destination.ofText destination
        tables := arguments.tables
        withHeading := !arguments.noHeading }]

end Arguments
end LayoutRules
