import GrupoDeEstudos.Sql.Functions
/-!
# The functions `functions.py` generates from tables

Most functions of `pyspark.sql.functions` are not written out. At import, loops over tables of
names bind each name in the module's namespace to the function one of four factories makes for
it, and a last loop wraps the deprecated names. A function object is modelled by the factory
call that made it. Calling it gives the `DeprecationWarning`s it issues and the JVM call it makes,
or `none` when the number of arguments does not fit, where Python raises `TypeError` before the
body runs.

A table is modelled by its keys. Its documentation strings only become `__doc__`, which the
`since` decorator extends before returning the function itself. The loops are modelled over any
tables (`Tables`), the module's own being `builtinTables`. The namespace here holds the bindings
the loops make, none of which the module binds before them; the hand-written `def`s later in the
module rebind some of their names, as `log` at line 798 does.
-/

namespace GrupoDeEstudos.Sql

variable {J : Type}

/-- A function object a factory of `functions.py` returns, by the call that made it. -/
inductive FunctionObject where
  /-- `_create_function(name, doc)`. -/
  | function (name : String)
  /-- `_create_function_over_column(name, doc)`. -/
  | overColumn (name : String)
  /-- `_create_binary_mathfunction(name, doc)`. -/
  | binaryMathfunction (name : String)
  /-- `_create_window_function(name, doc)`. -/
  | windowFunction (name : String)
  /-- `_wrap_deprecated_function(func, message)`. -/
  | deprecated (func : FunctionObject) (message : String)
  deriving DecidableEq, Repr

/-- The factories the registration loops call. -/
inductive Factory where
  | createFunction
  | createFunctionOverColumn
  | createBinaryMathfunction
  | createWindowFunction
  deriving DecidableEq, Repr

/-- The function object a factory makes for `name`. -/
def Factory.make : Factory → String → FunctionObject
  | .createFunction, name => .function name
  | .createFunctionOverColumn, name => .overColumn name
  | .createBinaryMathfunction, name => .binaryMathfunction name
  | .createWindowFunction, name => .windowFunction name

/-- What a call does: the `DeprecationWarning` messages it issues, in order, and the JVM call it
makes or the exception it raises. -/
structure Outcome (J : Type) where
  warnings : List String
  result : Except PyException (JvmCall J)

section Factories

variable (createColumnFromName : String → J) (toJavaColumn : PyObj J → Except PyException J)

/-- The function `_create_function(name)` makes: a `Column` gives its `_jc`, any other value goes
to the JVM as it is. -/
def createFunction (name : String) (col : PyObj J) : JvmCall J := ⟨name, [columnOrValue col]⟩

/-- The function `_create_function_over_column(name)` makes. -/
def createFunctionOverColumn (name : String) (col : PyObj J) : Except PyException (JvmCall J) :=
  (fun jc => ⟨name, [.column jc]⟩) <$> toJavaColumn col

/-- The function `_create_window_function(name)` makes, which takes no argument. -/
def createWindowFunction (name : String) : JvmCall J := ⟨name, []⟩

/-- The function `_wrap_deprecated_function(func, message)` makes:
`warnings.warn(message, DeprecationWarning)`, then `func(col)`. -/
def wrapDeprecatedFunction (func : PyObj J → Option (Outcome J)) (message : String)
    (col : PyObj J) : Option (Outcome J) :=
  (fun inner => ⟨message :: inner.warnings, inner.result⟩) <$> func col

/-- A call of a function object with positional arguments. -/
def FunctionObject.call : FunctionObject → List (PyObj J) → Option (Outcome J)
  | .function name, [col] => some ⟨[], .ok (createFunction name col)⟩
  | .overColumn name, [col] => some ⟨[], createFunctionOverColumn toJavaColumn name col⟩
  | .binaryMathfunction name, [col1, col2] =>
    some ⟨[], createBinaryMathfunction createColumnFromName name col1 col2⟩
  | .windowFunction name, [] => some ⟨[], .ok (createWindowFunction name)⟩
  | .deprecated func message, [col] =>
    wrapDeprecatedFunction (fun col => FunctionObject.call func [col]) message col
  | _, _ => none

end Factories

/-! ## The tables and the loops -/

/-- The keys of `_functions`. -/
def functions : List String := ["lit", "col", "column", "asc", "desc"]

/-- The keys of `_functions_over_column`. -/
def functionsOverColumn : List String :=
  ["sqrt", "abs", "max", "min", "count", "sum", "avg", "mean", "sumDistinct"]

/-- The keys of `_functions_1_4_over_column`. -/
def functions14OverColumn : List String :=
  ["acos", "asin", "atan", "cbrt", "ceil", "cos", "cosh", "exp", "expm1", "floor", "log", "log10",
    "log1p", "rint", "signum", "sin", "sinh", "tan", "tanh", "toDegrees", "toRadians",
    "bitwiseNOT"]

/-- The keys of `_functions_2_4`. -/
def functions24 : List String :=
  ["asc_nulls_first", "asc_nulls_last", "desc_nulls_first", "desc_nulls_last"]

/-- The keys of `_functions_1_6_over_column`. -/
def functions16OverColumn : List String :=
  ["stddev", "stddev_samp", "stddev_pop", "variance", "var_samp", "var_pop", "skewness",
    "kurtosis", "collect_list", "collect_set"]

/-- The keys of `_functions_2_1_over_column`. -/
def functions21OverColumn : List String := ["degrees", "radians"]

/-- The keys of `_binary_mathfunctions`. -/
def binaryMathfunctions : List String := ["atan2", "hypot", "pow"]

/-- The keys of `_window_functions`. -/
def windowFunctions : List String :=
  ["row_number", "dense_rank", "rank", "cume_dist", "percent_rank"]

/-- `_functions_deprecated`: each name with the message of its warning. -/
def functionsDeprecated : List (String × String) :=
  [("toDegrees", "Deprecated in 2.1, use degrees instead."),
    ("toRadians", "Deprecated in 2.1, use radians instead.")]

/-- The keys of `_string_functions`. -/
def stringFunctions : List String :=
  ["upper", "lower", "ascii", "base64", "unbase64", "ltrim", "rtrim", "trim"]

/-- The bindings the registration loops make, a name to its function object. -/
abbrev Namespace := String → Option FunctionObject

/-- `for _name, _doc in table.items(): globals()[_name] = since(v)(factory(_name, _doc))`. -/
def registerAll (factory : String → FunctionObject) (table : List String) (ns : Namespace) :
    Namespace :=
  table.foldl (fun ns name => Function.update ns name (some (factory name))) ns

/-- `for _name, _message in _functions_deprecated.items(): globals()[_name] =
_wrap_deprecated_function(globals()[_name], _message)`, where a name not yet bound raises
`KeyError`. -/
def wrapDeprecated (table : List (String × String)) (ns : Namespace) :
    Except PyException Namespace :=
  table.foldlM (fun ns entry =>
    match ns entry.1 with
    | some func => pure (Function.update ns entry.1 (some (.deprecated func entry.2)))
    | none => throw (.keyError entry.1)) ns

/-- The tables the loops of lines 303 to 320 read: the loops before the deprecation loop, in
order, each with its factory and the keys of its table; `_functions_deprecated`, whose keys are
distinct as those of any dictionary; and `_functions_2_4`. -/
structure Tables where
  loops : List (Factory × List String)
  deprecated : List (String × String)
  deprecatedDistinct : (deprecated.map Prod.fst).Nodup
  functions24 : List String

/-- The tables of `functions.py`. -/
def builtinTables : Tables where
  loops := [(.createFunction, functions), (.createFunctionOverColumn, functionsOverColumn),
    (.createFunctionOverColumn, functions14OverColumn),
    (.createBinaryMathfunction, binaryMathfunctions), (.createWindowFunction, windowFunctions),
    (.createFunctionOverColumn, functions16OverColumn),
    (.createFunctionOverColumn, functions21OverColumn)]
  deprecated := functionsDeprecated
  deprecatedDistinct := by decide
  functions24 := functions24

/-- The loops of lines 303 to 320, in order, over `tables`. -/
def registerBuiltins (tables : Tables) (ns : Namespace) : Except PyException Namespace :=
  let ns := tables.loops.foldl (fun ns loop => registerAll loop.1.make loop.2 ns) ns
  registerAll Factory.createFunction.make tables.functions24 <$>
    wrapDeprecated tables.deprecated ns

/-- The loop of line 1525. -/
def registerStringFunctions (ns : Namespace) : Namespace :=
  registerAll Factory.createFunctionOverColumn.make stringFunctions ns

end GrupoDeEstudos.Sql
