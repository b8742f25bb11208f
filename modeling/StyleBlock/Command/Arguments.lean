/-!
The arguments of the command line. Flags and options may stand anywhere; after two hyphens alone
everything is a plain argument.
-/

namespace StyleBlock.Command

inductive Verb where
  | compile
  | check
  | debug
  | test
deriving DecidableEq, Repr

def Verb.ofName? : String → Option Verb
  | "compile" => some .compile
  | "check" => some .check
  | "debug" => some .debug
  | "test" => some .test
  | _ => none

/-- What can be set by an argument that starts with a hyphen. -/
inductive Switch where
  | noColor
  | config
  | export
  | output
  | category
  | listCategories
  | help
  | version
deriving DecidableEq, Repr

namespace Switch

def takesValue : Switch → Bool
  | config | output | category => true
  | _ => false

/-- Whether nothing after the switch is read. -/
def endsReading : Switch → Bool
  | help | version => true
  | _ => false

/-- Whether the value is a path, which must not be empty. -/
def isPath : Switch → Bool
  | config | output => true
  | _ => false

/-- Whether the switch may be set more than once. -/
def isRepeatable : Switch → Bool
  | category => true
  | _ => false

/-- The switch of a long name, as far as a verb has it. -/
def ofLong? (verb : Option Verb) (name : String) : Option Switch :=
  match name, verb with
  | "no-color", _ => some noColor
  | "config", _ => some config
  | "help", _ => some help
  | "version", none => some version
  | "export", some .compile => some .export
  | "output", some .compile => some output
  | "category", some .test => some category
  | "list-categories", some .test => some listCategories
  | _, _ => none

/-- The switch of a letter, as far as a verb has it. -/
def ofLetter? (verb : Option Verb) (letter : Char) : Option Switch :=
  match letter, verb with
  | 'h', _ => some help
  | 'V', none => some version
  | 'o', some .compile => some output
  | 'c', some .test => some category
  | _, _ => none

end Switch

inductive UsageFault where
  | unknownArgument (argument : String)
  | unknownVerb (name : String)
  | missingVerb
  | missingValue (argument : String)
  | unexpectedValue (argument : String)
  | repeated (argument : String)
  | missingFile
deriving DecidableEq, Repr

def UsageFault.message : UsageFault → String
  | unknownArgument argument => "unexpected argument '" ++ argument ++ "' found"
  | unknownVerb name => "unrecognized subcommand '" ++ name ++ "'"
  | missingVerb => "a subcommand is required but one was not provided"
  | missingValue argument => "a value is required for '" ++ argument ++ "' but none was supplied"
  | unexpectedValue argument => "unexpected value for '" ++ argument ++ "' found"
  | repeated argument => "the argument '" ++ argument ++ "' cannot be used multiple times"
  | missingFile => "the following required arguments were not provided"

/-- What was read of the arguments. -/
structure Reading where
  verb : Option Verb
  plain : Option String
  switches : List (Switch × String)
  /-- The switches set since the verb, or before it. -/
  fresh : List Switch
  onlyPlain : Bool
deriving Repr

namespace Reading

def start : Reading := ⟨none, none, [], [], false⟩

/-- Sets a switch; a later value counts. -/
def set (reading : Reading) (argument : String) (switch : Switch) (value : String) :
    Except UsageFault Reading :=
  if reading.fresh.contains switch && !switch.isRepeatable then .error (.repeated argument)
  else if switch.isPath && value = "" then .error (.missingValue argument)
  else
    .ok { reading with
      switches := reading.switches ++ [(switch, value)], fresh := switch :: reading.fresh }

/-- An argument that is no switch: the verb first, then its file. -/
def addPlain (reading : Reading) (argument : String) : Except UsageFault Reading :=
  match reading.verb with
  | none =>
    if reading.onlyPlain then .error (.unknownArgument argument)
    else
      match Verb.ofName? argument, argument with
      | some verb, _ => .ok { reading with verb := some verb, fresh := [] }
      | none, "help" =>
        .ok { reading with switches := reading.switches ++ [(.help, "")] }
      | none, name => .error (.unknownVerb name)
  | some _ =>
    if reading.plain.isSome then .error (.unknownArgument argument)
    else if argument = "" then .error (.missingValue argument)
    else .ok { reading with plain := some argument }

/-- Whether an argument cannot be the value of the switch in front of it. -/
def isSwitchLike (argument : String) : Bool :=
  argument.startsWith "-" && argument ≠ "-"

/-- A switch with the value that was given along with it, or the next argument. -/
def addSwitch (reading : Reading) (argument : String) (switch : Switch) (value : Option String)
    (rest : List String) : Except UsageFault (Reading × List String) :=
  if switch.takesValue then
    match value, rest with
    | some value, _ => (reading.set argument switch value).map fun reading => (reading, rest)
    | none, next :: rest =>
      if isSwitchLike next then .error (.missingValue argument)
      else (reading.set argument switch next).map fun reading => (reading, rest)
    | none, [] => .error (.missingValue argument)
  else if value.isSome then .error (.unexpectedValue argument)
  else
    (reading.set argument switch "").map fun reading =>
      (reading, if switch.endsReading then [] else rest)

/-- The name and the value of a long argument. -/
def cutLong (chars : List Char) : String × Option String :=
  let name := chars.takeWhile fun c => c ≠ '='
  match chars.dropWhile fun c => c ≠ '=' with
  | [] => (String.ofList name, none)
  | _ :: value => (String.ofList name, some (String.ofList value))

/-- Reads one argument, and the next one if it is its value. -/
def step (reading : Reading) (argument : String) (rest : List String) :
    Except UsageFault (Reading × List String) :=
  if reading.onlyPlain || !isSwitchLike argument then
    (reading.addPlain argument).map fun reading => (reading, rest)
  else
    match argument.toList with
    | ['-', '-'] => .ok ({ reading with onlyPlain := true }, rest)
    | '-' :: '-' :: chars =>
      let (name, value) := cutLong chars
      match Switch.ofLong? reading.verb name with
      | none => .error (.unknownArgument argument)
      | some switch => reading.addSwitch ("--" ++ name) switch value rest
    | _ :: letter :: chars =>
      match Switch.ofLetter? reading.verb letter with
      | none => .error (.unknownArgument argument)
      | some switch =>
        let value := match chars with
          | [] => none
          | '=' :: value => some (String.ofList value)
          | value => some (String.ofList value)
        reading.addSwitch ("-" ++ letter.toString) switch value rest
    | _ => .error (.unknownArgument argument)

/-- What is left is passed on beside the outcome. -/
theorem left_eq_of_map {outcome : Except UsageFault Reading} {next : Reading}
    {rest left : List String}
    (same : outcome.map (fun reading => (reading, rest)) = .ok (next, left)) : left = rest := by
  cases outcome with
  | error fault => simp [Except.map] at same
  | ok reading => simp [Except.map] at same; exact same.2.symm

theorem addSwitch_shrinks {reading next : Reading} {argument : String} {switch : Switch}
    {value : Option String} {rest left : List String}
    (same : reading.addSwitch argument switch value rest = .ok (next, left)) :
    left.length ≤ rest.length := by
  unfold addSwitch at same
  split at same
  · split at same
    · exact Nat.le_of_eq (congrArg List.length (left_eq_of_map same))
    · split at same
      · simp at same
      · rw [left_eq_of_map same]
        exact Nat.le_succ _
    · simp at same
  · split at same
    · simp at same
    · rw [left_eq_of_map same]
      split
      · exact Nat.zero_le _
      · exact Nat.le_refl _

/-- A step takes the argument it reads. -/
theorem step_shrinks {reading next : Reading} {argument : String} {rest left : List String}
    (same : reading.step argument rest = .ok (next, left)) : left.length ≤ rest.length := by
  unfold step at same
  split at same
  · exact Nat.le_of_eq (congrArg List.length (left_eq_of_map same))
  · split at same
    · cases same
      exact Nat.le_refl _
    · simp only at same
      split at same
      · simp at same
      · exact addSwitch_shrinks same
    · split at same
      · simp at same
      · exact addSwitch_shrinks same
    · simp at same

/-- Reads arguments. -/
def readAll (reading : Reading) : List String → Except UsageFault Reading
  | [] => .ok reading
  | argument :: rest =>
    match found : reading.step argument rest with
    | .error fault => .error fault
    | .ok (reading, left) =>
      have : left.length ≤ rest.length := step_shrinks found
      readAll reading left
termination_by arguments => arguments.length

def has (reading : Reading) (switch : Switch) : Bool :=
  reading.switches.any fun (other, _) => other = switch

/-- The values of a switch, in order. -/
def values (reading : Reading) (switch : Switch) : List String :=
  (reading.switches.filter fun (other, _) => other = switch).map Prod.snd

end Reading

/-- What the command line asks for. -/
inductive Task where
  | compile (file : String) (exportNames : Bool) (output : Option String)
  | check (file : String)
  | debug (file : String)
  | test (path : String) (categories : List String)
  | listCategories (path : String)
  | help
  | version
deriving DecidableEq, Repr

structure Invocation where
  config : Option String
  task : Task
deriving DecidableEq, Repr

/-- Reads the arguments of the command line. -/
def Invocation.parse (arguments : List String) : Except UsageFault Invocation := do
  let reading ← Reading.start.readAll arguments
  let config := (reading.values .config).getLast?
  if reading.has .help then
    return ⟨config, .help⟩
  if reading.has .version then
    return ⟨config, .version⟩
  match reading.verb, reading.plain with
  | none, _ => throw .missingVerb
  | some _, none => throw .missingFile
  | some .compile, some file =>
    return ⟨config, .compile file (reading.has .export) (reading.values .output).getLast?⟩
  | some .check, some file => return ⟨config, .check file⟩
  | some .debug, some file => return ⟨config, .debug file⟩
  | some .test, some path =>
    if reading.has .listCategories then
      return ⟨config, .listCategories path⟩
    return ⟨config, .test path (reading.values .category)⟩

end StyleBlock.Command
