import StaticOpus.Text.Utf8

/-!
# Calls to cargo

An invocation is one call to cargo under a title. It either concerns the package under development,
with some of its features, or is passed on unchanged. The replies to calls are a list, taken in
order; a call beyond its end succeeds and prints nothing.
-/

namespace StaticOpus

/-- What a call to cargo came to. -/
structure Reply where
  stdout : List UInt8 := []
  stderr : List UInt8 := []
  code : Nat := 0

namespace Reply

/-- Whether the call succeeded. -/
def succeeded (reply : Reply) : Bool := reply.code = 0

end Reply

/-- One call to cargo: a label for its status lines, arguments, and, for the package under
development, a list of features. -/
structure Invocation where
  label : String
  args : List String
  features : Option String
  deriving DecidableEq

/-- A feature list as people read it: the empty one is the default. -/
def describeFeatures (features : String) : String := if features = "" then "default" else features

namespace Invocation

/-- The title of a call: its label, with the features it is about. -/
def title (invocation : Invocation) : String :=
  match invocation.features with
  | none => invocation.label
  | some features => invocation.label ++ " [" ++ describeFeatures features ++ "]"

/-- All arguments of a call. -/
def command (invocation : Invocation) : List String :=
  match invocation.features with
  | none => invocation.args
  | some features =>
    invocation.args ++ ["-p", "opus-shim"] ++
      if features = "" then [] else ["--features", features]

/-- Whether the system can pass the arguments on: none holds the zero character. -/
def isPassable (invocation : Invocation) : Bool :=
  invocation.command.all fun argument => argument.toList.all (· ≠ '\x00')

end Invocation

/-- Why a call could not be made. -/
inductive SpawnFault where
  | noProgram
  | nulInArgument
  deriving DecidableEq

/-- The system's text for a call that could not be made. -/
def SpawnFault.message : SpawnFault → String
  | .noProgram => "No such file or directory (os error 2)"
  | .nulInArgument => "nul byte found in provided data"

/-- A cargo program: its replies to the calls still to come, or none if there is no program. -/
abbrev Cargo := Option (List Reply)

namespace Cargo

/-- Makes a call, if it can be made: the reply, and the program after it. -/
def call (invocation : Invocation) (cargo : Cargo) : Except SpawnFault (Reply × Cargo) :=
  if invocation.isPassable then
    match cargo with
    | none => .error .noProgram
    | some [] => .ok ({}, some [])
    | some (reply :: rest) => .ok (reply, some rest)
  else .error .nulInArgument

end Cargo

end StaticOpus
