import Rebalance.CommandLine.Reading

/-!
Flags of a command line: `--name value` or `--name=value`, each at most once. A flag that is
not given takes its value from the environment, or else its default. Values are read in the
order in which they are met, and the first that is refused decides.
-/

namespace Rebalance.CommandLine

inductive Kind
  | natural
  /-- Of 32 bits. -/
  | percentage
  | number
  | duration
  | path
deriving DecidableEq, Inhabited

def Kind.check (kind : Kind) (text : String) : Except Refusal Unit :=
  let accept (fits : Bool) : Except Refusal Unit := if fits then .ok () else .error .usage
  match kind with
  | .natural => accept (readNatural wordMax text.toList).isSome
  | .percentage => accept (readSigned (Nat.pow 2 32 - 1) text.toList).isSome
  | .number => accept (readFloat text.toList).isSome
  | .duration => (readDuration text.toList).map fun _ => ()
  | .path => accept !text.isEmpty

structure Flag where
  kind : Kind
  name : String
  /-- The environment variable that stands in for the flag. -/
  envName? : Option String := none
  /-- Required where there is none. -/
  fallback : Option String := none
deriving Inhabited

abbrev Bindings := List (String × String)

def Bindings.find (bindings : Bindings) (name : String) : Option String :=
  (List.find? (·.1 = name) bindings).map (·.2)

def splitFlag (chars : List Char) : String × Option String :=
  let name := String.ofList (chars.takeWhile (· != '='))
  match chars.dropWhile (· != '=') with
  | _ :: value => (name, some (String.ofList value))
  | [] => (name, none)

def isValue (arg : String) : Bool :=
  match arg.toList with
  | '-' :: _ :: _ => false
  | _ => true

def bind (flags : List Flag) (bound : Bindings) (name value : String) : Except Refusal Bindings :=
  match flags.find? (·.name = name), bound.find name with
  | some flag, none => (flag.kind.check value).map fun _ => (name, value) :: bound
  | _, _ => .error .usage

def readArgs (flags : List Flag) (bound : Bindings) : List String → Except Refusal Bindings
  | [] => .ok bound
  | ["--"] => .ok bound
  | arg :: rest =>
    match arg.toList with
    | '-' :: '-' :: chars =>
      match splitFlag chars, rest with
      | (name, some value), rest =>
        match bind flags bound name value with
        | .ok bound => readArgs flags bound rest
        | .error refusal => .error refusal
      | (name, none), value :: rest =>
        if isValue value then
          match bind flags bound name value with
          | .ok bound => readArgs flags bound rest
          | .error refusal => .error refusal
        else .error .usage
      | (_, none), [] => .error .usage
    | _ => .error .usage

def standIn (given environment : Bindings) (flag : Flag) : Option String :=
  match given.find flag.name with
  | some _ => none
  | none => flag.envName?.bind environment.find

/-- The value of a flag: as given, else from the environment, else its default. -/
def valueOf (given environment : Bindings) (flag : Flag) : Option String :=
  (given.find flag.name).or ((standIn given environment flag).or flag.fallback)

/-- The values of all flags; a required one may not be missing. -/
def resolve (flags : List Flag) (environment : Bindings) (args : List String) :
    Except Refusal Bindings := do
  let given ← readArgs flags [] args
  flags.forM fun flag =>
    match standIn given environment flag with
    | some text => flag.kind.check text
    | none => .ok ()
  understood (flags.mapM fun flag =>
    (valueOf given environment flag).map fun value => (flag.name, value))

end Rebalance.CommandLine
