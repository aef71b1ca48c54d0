import CodeSurvey.Decimal.Reading
import CodeSurvey.Path

/-
Reading the arguments of a command.  Options stand anywhere before a double dash, in their long form
or as letters behind one dash.  A value is attached to its option or follows it; one that follows is
looked at when the next argument has been understood, so that an unknown argument behind it is
reported first.
-/

namespace CodeSurvey
namespace CommandLine

/-- Why arguments are not taken, or what is to be shown in place of a command. -/
inductive Refusal where
  | unknownCommand
  | unknownArgument
  | missingArgument
  /-- an option without its value, or an empty path -/
  | missingValue
  | malformedValue
  /-- a value for an option that takes none -/
  | surplusValue
  | repeated
  | help
  | version
  deriving Repr, DecidableEq, Inhabited

def Refusal.message : Refusal → String
  | unknownCommand => "unrecognized subcommand"
  | unknownArgument => "unexpected argument found"
  | missingArgument => "a required argument was not provided"
  | missingValue => "a value is required but none was supplied"
  | malformedValue => "a value is not of the kind that its option takes"
  | surplusValue => "a value was given to an option that takes none"
  | repeated => "an option cannot be used multiple times"
  | help => "help was asked for"
  | version => "the version was asked for"

inductive ArgumentValue where
  | path (path : Path)
  | text (text : String)
  | natural (n : Nat)
  | real (x : Float)
  deriving Repr, Inhabited

inductive ValueSort where
  | path
  | text
  | natural
  | real
  deriving Repr, DecidableEq, Inhabited

def ValueSort.read (sort : ValueSort) (text : String) : Except Refusal ArgumentValue :=
  match sort with
  | .path => if text.isEmpty then .error .missingValue else .ok (.path ⟨text⟩)
  | .text => .ok (.text text)
  | .natural =>
    match Decimal.natural? text.toList with
    | some n => .ok (.natural n)
    | none => .error .malformedValue
  | .real =>
    match Decimal.real? text.toList with
    | some x => .ok (.real x)
    | none => .error .malformedValue

/-- What an option is for. -/
inductive Role where
  | flag
  | help
  | version
  | value (sort : ValueSort)
  /-- a value that may be given any number of times -/
  | values (sort : ValueSort)
  deriving Repr, DecidableEq, Inhabited

structure Parameter where
  name : String
  letter : Option Char
  role : Role
  deriving Repr, DecidableEq, Inhabited

/-- An argument that is known by its place. -/
structure Positional where
  name : String
  sort : ValueSort
  isRequired : Bool
  deriving Repr, DecidableEq, Inhabited

structure Signature where
  options : List Parameter
  positional : Option Positional
  deriving Repr, DecidableEq, Inhabited

namespace Signature

def named? (signature : Signature) (name : String) : Option Parameter :=
  signature.options.find? (·.name == name)

def lettered? (signature : Signature) (letter : Char) : Option Parameter :=
  signature.options.find? (·.letter == some letter)

end Signature

/-- An argument whose value has not been looked at, or has not come. -/
structure Pending where
  name : String
  sort : ValueSort
  repeats : Bool
  value : Option String
  deriving Repr, DecidableEq, Inhabited

/-- What has been read of the arguments. -/
structure Reading where
  /-- flags and values in the order in which they were taken -/
  given : List (String × Option ArgumentValue) := []
  pending : Option Pending := none
  /-- whether a double dash was read -/
  isLiteral : Bool := false
  hasPositional : Bool := false
  deriving Repr, Inhabited

namespace Reading

def isGiven (reading : Reading) (name : String) : Bool := reading.given.any (·.1 == name)

/-- Takes the value of an argument. -/
def give (reading : Reading) (name : String) (sort : ValueSort) (repeats : Bool) (text : String) :
    Except Refusal Reading :=
  if reading.isGiven name && ! repeats then .error .repeated
  else (sort.read text).map fun value =>
    { reading with given := reading.given ++ [(name, some value)] }

/-- Looks at the value of the pending argument. -/
def settle (reading : Reading) : Except Refusal Reading :=
  match reading.pending with
  | none => .ok reading
  | some pending =>
    match pending.value with
    | none => .error .missingValue
    | some text =>
        { reading with pending := none }.give pending.name pending.sort pending.repeats text

/-- Whether the next plain argument is the value of an option. -/
def isWaiting (reading : Reading) : Bool :=
  ! reading.isLiteral && reading.pending.any (·.value.isNone)

def takeFlag (reading : Reading) (name : String) : Except Refusal Reading := do
  let reading ← reading.settle
  if reading.isGiven name then .error .repeated
  else .ok { reading with given := reading.given ++ [(name, none)] }

/-- An option with a value: the attached one, or else the one that is to follow. -/
def takeOption (reading : Reading) (name : String) (sort : ValueSort) (repeats : Bool)
    (attached : Option String) : Except Refusal Reading := do
  let reading ← reading.settle
  match attached with
  | some text => reading.give name sort repeats text
  | none => .ok { reading with pending := some ⟨name, sort, repeats, none⟩ }

def takeRefusal (reading : Reading) (refusal : Refusal) : Except Refusal Reading := do
  let _ ← reading.settle
  .error refusal

/-- An option in its long form. -/
def takeLong (signature : Signature) (reading : Reading) (text : List Char) :
    Except Refusal Reading :=
  let name := text.takeWhile (· != '=')
  let attached :=
    if name.length < text.length then some (String.ofList (text.drop (name.length + 1)))
    else none
  match signature.named? (String.ofList name) with
  | none => .error .unknownArgument
  | some parameter =>
    match parameter.role with
    | .value sort => reading.takeOption parameter.name sort false attached
    | .values sort => reading.takeOption parameter.name sort true attached
    | role =>
      if attached.isSome then .error .surplusValue
      else match role with
        | .help => reading.takeRefusal .help
        | .version => reading.takeRefusal .version
        | _ => reading.takeFlag parameter.name

/-- The value behind the letter of an option: all that follows it, less an equals sign. -/
def attachedTo : List Char → Option String
  | [] => none
  | '=' :: rest => some (String.ofList rest)
  | rest => some (String.ofList rest)

/-- Options as letters behind one dash; the first that takes a value is the last. -/
def takeLetters (signature : Signature) (reading : Reading) : List Char → Except Refusal Reading
  | [] => .ok reading
  | letter :: rest =>
    match signature.lettered? letter with
    | none => .error .unknownArgument
    | some parameter =>
      match parameter.role with
      | .value sort => reading.takeOption parameter.name sort false (attachedTo rest)
      | .values sort => reading.takeOption parameter.name sort true (attachedTo rest)
      | .help => reading.takeRefusal .help
      | .version => reading.takeRefusal .version
      | .flag => do
        let reading ← reading.takeFlag parameter.name
        takeLetters signature reading rest

/-- An argument that is known by its place. -/
def takePositional (signature : Signature) (reading : Reading) (text : String) :
    Except Refusal Reading :=
  match signature.positional with
  | none => .error .unknownArgument
  | some positional =>
    if reading.hasPositional then .error .unknownArgument
    else do
      let reading ← reading.settle
      .ok { reading with
        hasPositional := true
        pending := some ⟨positional.name, positional.sort, false, some text⟩ }

/-- The value of the option that waits for one. -/
def takeValue (reading : Reading) (text : String) : Reading :=
  { reading with pending := reading.pending.map fun pending => { pending with value := some text } }

end Reading

/-- The forms that an argument can have. -/
inductive Form where
  | doubleDash
  | long (text : List Char)
  | letters (text : List Char)
  | plain
  deriving Repr, DecidableEq, Inhabited

/-- The form of an argument; a single dash is plain. -/
def Form.ofText (text : String) : Form :=
  match text.toList with
  | ['-', '-'] => .doubleDash
  | '-' :: '-' :: rest => .long rest
  | '-' :: c :: rest => .letters (c :: rest)
  | _ => .plain

namespace Reading

/-- Takes an argument that is an option or the double dash; none if it is neither. -/
def takeDashed? (signature : Signature) (reading : Reading) (text : String) :
    Option (Except Refusal Reading) :=
  if reading.isLiteral then none
  else match Form.ofText text with
    | .doubleDash => some (.ok { reading with isLiteral := true })
    | .long name => some (reading.takeLong signature name)
    | .letters letters => some (takeLetters signature reading letters)
    | .plain => none

def take (signature : Signature) (reading : Reading) (text : String) : Except Refusal Reading :=
  match reading.takeDashed? signature text with
  | some result => result
  | none =>
    if reading.isWaiting then .ok (reading.takeValue text)
    else reading.takePositional signature text

def takeAll (signature : Signature) (reading : Reading) : List String → Except Refusal Reading
  | [] => .ok reading
  | text :: rest => do
    let reading ← reading.take signature text
    takeAll signature reading rest

/-- The arguments of a command, all of them understood and none missing. -/
def ofArguments (signature : Signature) (arguments : List String) : Except Refusal Reading := do
  let reading ← takeAll signature {} arguments
  let reading ← reading.settle
  match signature.positional with
  | some positional =>
    if positional.isRequired && ! reading.isGiven positional.name then .error .missingArgument
    else .ok reading
  | none => .ok reading

/-- The values of an argument, in order. -/
def values (reading : Reading) (name : String) : List ArgumentValue :=
  reading.given.filterMap fun (given, value) => if given == name then value else none

end Reading
end CommandLine
end CodeSurvey
