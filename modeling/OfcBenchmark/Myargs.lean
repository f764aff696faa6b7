import OfcBenchmark.Lib.Getopt

/-!
# Tables of options

`myargs.c`. A table is the list of its entries up to the one with the name NULL; what only the
manual prints is left out. An assertion that fails has no result.
-/

namespace OfcBenchmark
open Printf Getopt

/-- `enum argsType`. -/
inductive ArgsType
  | none
  | integer
  | flag
  | string
  | decimal
deriving DecidableEq, Repr

/-- What `default_val` holds, which is a union. -/
def ArgsType.Value : ArgsType → Type
  | .none => ℕ
  | .integer => ℤ
  | .flag => ℤ
  | .string => Text
  | .decimal => Double

/-- `struct args`. -/
structure Args where
  name : Text
  id : Char
  type : ArgsType
  default_val : type.Value

/-- `countOptions`. -/
def countOptions (options : List Args) : ℕ := options.length

/-! ## Arguments of getopt_long -/

/-- `has_arg` of an option. -/
def longArity (type : ArgsType) : HasArg :=
  if type = .none then .no_argument
  else if type = .flag then .optional_argument
  else .required_argument

/-- `argsToLong`, without the entry at the end. -/
def argsToLong (options : List Args) : List LongOption :=
  options.map fun o => ⟨o.name, longArity o.type, o.id⟩

/-- One turn of the loop of `argsToShort`. -/
def appendShort (max : ℕ) (shortargs : Cursor) (o : Args) : Option Cursor := do
  let shortargs ← shortargs.snprintf max (max - shortargs.pos) [o.id]
  if o.type ≠ .none ∧ o.type ≠ .flag then
    shortargs.snprintf max (max - shortargs.pos) [':']
  else some shortargs

/-- `argsToShort`: the text up to its first NUL. There is no result if something is written outside
the buffer. -/
def argsToShort (options : List Args) : Option Text :=
  let n := countOptions options
  let max := n * 2 + 1
  (options.foldlM (appendShort max) Cursor.empty).bind fun shortargs =>
    if shortargs.pos < max then some (shortargs.text.takeWhile (· ≠ '\x00')) else none

/-! ## Defaults -/

/-- `findArg`, with `none` for -1. -/
def findArg (options : List Args) (arg : Text) : Option ℕ := options.findIdx? (·.name = arg)

/-- The entry with this name. -/
def argsGet (options : List Args) (argname : Text) : Option Args :=
  (findArg options argname).bind fun i => options[i]?

/-- `argsGetDefaultStr`. -/
def argsGetDefaultStr (options : List Args) (argname : Text) : Option Text :=
  (argsGet options argname).bind fun
    | ⟨_, _, .string, value⟩ => some value
    | _ => none

/-- `argsGetDefaultInt`. -/
def argsGetDefaultInt (options : List Args) (argname : Text) : Option ℤ :=
  (argsGet options argname).bind fun
    | ⟨_, _, .integer, value⟩ => some value
    | _ => none

/-- `argsGetDefaultFlag`. -/
def argsGetDefaultFlag (options : List Args) (argname : Text) : Option ℤ :=
  (argsGet options argname).bind fun
    | ⟨_, _, .flag, value⟩ => some value
    | _ => none

end OfcBenchmark
