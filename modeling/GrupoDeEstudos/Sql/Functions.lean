import GrupoDeEstudos.Prime.PyMath
/-!
# The Python side of `pyspark.sql.functions`

`java/python/pyspark/sql/functions.py` builds column expressions by calling the JVM through
`sc._jvm.functions`. What it computes itself is how each argument is handed over and which
arguments it refuses before any call. A JVM call is modelled by its function name and its
arguments: a JVM column, a sequence of columns, or a Python value that Py4J converts on the way.
The helpers the module imports from `pyspark.sql.column` (`_to_java_column`, `_to_seq`,
`_create_column_from_name`) and the truth value of a `Column` are not in the repository; they
are parameters here. Values are those of Python 2, which the module supports through
`basestring`: `basestring` holds both `str` and `unicode`, and `int` and `long` are one integer
type. `float(n)` on an integer rounds as `Prime.roundToDouble` does.
-/

namespace GrupoDeEstudos.Sql

open GrupoDeEstudos.Prime (roundToDouble)

/-- A Python float: a finite binary64 number, held exactly, an infinity, or NaN. -/
inductive PyFloat where
  | finite (value : ℚ)
  | infinity (negative : Bool)
  | nan
  deriving DecidableEq, Repr

/-- The hashable values among those of `PyObj`, which a `set` can hold. -/
inductive PyKey (J : Type) where
  /-- A pyspark `Column`, hashed by identity. -/
  | column (jc : J)
  | str (s : String)
  | unicode (s : String)
  | int (n : ℤ)
  | bool (b : Bool)
  | float (x : PyFloat)
  | none
  | other

/-- The Python values the functions of `functions.py` tell apart; `J` is the type of the JVM
column that a pyspark `Column` holds as `_jc`. -/
inductive PyObj (J : Type) where
  /-- A pyspark `Column` with its JVM column `_jc`. -/
  | column (jc : J)
  /-- A byte string: `type(x) is str`. -/
  | str (s : String)
  /-- A `unicode` string: a `basestring` that is not a `str`. -/
  | unicode (s : String)
  /-- An `int` or a `long`. -/
  | int (n : ℤ)
  /-- `True` or `False`. -/
  | bool (b : Bool)
  /-- A `float`. -/
  | float (x : PyFloat)
  /-- `None`. -/
  | none
  /-- A `list`. -/
  | list (items : List (PyObj J))
  /-- A `set`, by its members in iteration order, each once. Python also merges members that
  compare equal across types, such as `1` and `True`; the model keeps those apart. -/
  | set (items : List (PyKey J)) (distinct : items.Nodup)
  /-- Any other object, with neither `__float__` nor `__len__`. -/
  | other

/-- A member of a `set` as the value it is. -/
def PyKey.toObj {J : Type} : PyKey J → PyObj J
  | .column jc => .column jc
  | .str s => .str s
  | .unicode s => .unicode s
  | .int n => .int n
  | .bool b => .bool b
  | .float x => .float x
  | .none => .none
  | .other => .other

/-- `s` is `set(keys)`: it holds each member of `keys` once, in an iteration order that CPython
takes from the hashes and the model leaves open. -/
def IsSetOf {J : Type} (s : PyObj J) (keys : List (PyKey J)) : Prop :=
  ∃ items distinct, s = .set items distinct ∧ ∀ x, x ∈ items ↔ x ∈ keys

/-- `isinstance(x, basestring)`, with the string. -/
def basestringValue {J : Type} : PyObj J → Option String
  | .str s | .unicode s => some s
  | _ => none

/-- The exceptions the modelled functions raise, with their messages. -/
inductive PyException where
  | typeError (message : String)
  | valueError (message : String)
  | overflowError (message : String)
  | keyError (key : String)
  deriving DecidableEq, Repr

/-- An argument of a call into `sc._jvm.functions`. -/
inductive JvmArg (J : Type) where
  | column (jc : J)
  /-- A Python value as it is: Py4J makes a `float` a Java `double`, a `str` a `String`. -/
  | value (v : PyObj J)
  /-- The Scala `Seq` that `_to_seq` builds. -/
  | columns (jcs : List J)
  /-- The options map `_options_to_str` builds, its keys with their values as strings. -/
  | options (entries : List (String × String))

/-- A call `sc._jvm.functions.<name>(args)`, whose result the returned `Column` wraps. -/
structure JvmCall (J : Type) where
  name : String
  args : List (JvmArg J)

variable {J : Type}

/-! ## `float()` and the binary math functions -/

/-- The integer value of `float(n)`: `|n|` rounded to binary64, with the sign of `n`. -/
def floatValue (n : ℤ) : ℤ :=
  if n < 0 then -(roundToDouble n.natAbs : ℤ) else roundToDouble n.natAbs

/-- `float(n)` for a Python integer: the nearest binary64, ties to even, and `OverflowError`
once that reaches `2^1024`. -/
def intToFloat (n : ℤ) : Except PyException PyFloat :=
  if 2 ^ 1024 ≤ roundToDouble n.natAbs then
    .error (.overflowError "long int too large to convert to float")
  else .ok (.finite (floatValue n))

/-- `x._jc if isinstance(x, Column) else x`. -/
def columnOrValue : PyObj J → JvmArg J
  | .column jc => .column jc
  | v => .value v

section Columns

variable (createColumnFromName : String → J) (toJavaColumn : PyObj J → Except PyException J)
  (toSeq : List (PyObj J) → Except PyException (List J))
  (columnTruth : J → Except PyException Bool)

/-- One argument of the wrapper `_create_binary_mathfunction` makes: a `Column` gives its `_jc`,
a `basestring` the column of that name, anything else `float(x)`. -/
def mathArg : PyObj J → Except PyException (JvmArg J)
  | .column jc => .ok (.column jc)
  | .str s | .unicode s => .ok (.column (createColumnFromName s))
  | .int n => (fun x => .value (.float x)) <$> intToFloat n
  | .bool b => .ok (.value (.float (.finite (if b then 1 else 0))))
  | .float x => .ok (.value (.float x))
  | .none | .list _ | .set _ _ | .other =>
    .error (.typeError "float() argument must be a string or a number")

/-- `_create_binary_mathfunction(name)` applied to `col1, col2`. -/
def createBinaryMathfunction (name : String) (col1 col2 : PyObj J) :
    Except PyException (JvmCall J) := do
  let arg1 ← mathArg createColumnFromName col1
  let arg2 ← mathArg createColumnFromName col2
  pure ⟨name, [arg1, arg2]⟩


/-! ## Functions of several columns -/

/-- `if len(cols) == 1 and isinstance(cols[0], (list, set)): cols = cols[0]`. -/
def flattenCols : List (PyObj J) → List (PyObj J)
  | [.list items] => items
  | [.set items _] => items.map PyKey.toObj
  | cols => cols

/-- `struct`, `create_map`, `array` and `map_concat`: `*cols` as one `Seq` of columns, a single
list or set standing for all of them. -/
def collectionFunction (name : String) (cols : List (PyObj J)) : Except PyException (JvmCall J) :=
  (fun jcs => ⟨name, [.columns jcs]⟩) <$> toSeq (flattenCols cols)

/-- `struct(*cols)`. -/
def struct := collectionFunction toSeq "struct"
/-- `create_map(*cols)`, which calls the JVM's `map`. -/
def createMap := collectionFunction toSeq "map"
/-- `array(*cols)`. -/
def array := collectionFunction toSeq "array"
/-- `map_concat(*cols)`. -/
def mapConcat := collectionFunction toSeq "map_concat"

/-- `greatest` and `least`: `ValueError` below two columns, else one `Seq` of them. -/
def atLeastTwoColumns (name message : String) (cols : List (PyObj J)) :
    Except PyException (JvmCall J) :=
  if cols.length < 2 then .error (.valueError message)
  else (fun jcs => ⟨name, [.columns jcs]⟩) <$> toSeq cols

/-- `greatest(*cols)`. -/
def greatest := atLeastTwoColumns toSeq "greatest" "greatest should take at least two columns"
/-- `least(*cols)`. -/
def least := atLeastTwoColumns toSeq "least" "least should take at least two columns"

/-! ## `window` -/

/-- `bool(x)`: a `Column`'s truth is the parameter `columnTruth`; other objects are true. -/
def truthy : PyObj J → Except PyException Bool
  | .column jc => columnTruth jc
  | .str s | .unicode s => .ok (s ≠ "")
  | .int n => .ok (n ≠ 0)
  | .bool b => .ok b
  | .float (.finite q) => .ok (q ≠ 0)
  | .float _ => .ok true
  | .none => .ok false
  | .list items => .ok !items.isEmpty
  | .set items _ => .ok !items.isEmpty
  | .other => .ok true

/-- `check_string_field(field, fieldName)` inside `window`: `TypeError` unless `field` is true
and of type `str`; the string is what the JVM then receives. -/
def checkStringField (field : PyObj J) (fieldName : String) : Except PyException String := do
  let present ← truthy columnTruth field
  match present, field with
  | true, .str s => pure s
  | _, _ => throw (.typeError s!"{fieldName} should be provided as a string")

/-- `window(timeColumn, windowDuration, slideDuration=None, startTime=None)`. -/
def window (timeColumn windowDuration slideDuration startTime : PyObj J) :
    Except PyException (JvmCall J) := do
  let timeCol ← toJavaColumn timeColumn
  let w ← checkStringField columnTruth windowDuration "windowDuration"
  let both ← do
    if ← truthy columnTruth slideDuration then truthy columnTruth startTime else pure false
  if both then
    let s ← checkStringField columnTruth slideDuration "slideDuration"
    let t ← checkStringField columnTruth startTime "startTime"
    pure ⟨"window", [.column timeCol, .value (.str w), .value (.str s),
      .value (.str t)]⟩
  else if ← truthy columnTruth slideDuration then
    let s ← checkStringField columnTruth slideDuration "slideDuration"
    pure ⟨"window", [.column timeCol, .value (.str w), .value (.str s)]⟩
  else if ← truthy columnTruth startTime then
    let t ← checkStringField columnTruth startTime "startTime"
    pure ⟨"window", [.column timeCol, .value (.str w), .value (.str w),
      .value (.str t)]⟩
  else pure ⟨"window", [.column timeCol, .value (.str w)]⟩

/-! ## `when` and `log` -/

/-- `when(condition, value)`: `TypeError` unless `condition` is a `Column`. -/
def when (condition value : PyObj J) : Except PyException (JvmCall J) :=
  match condition with
  | .column jc => .ok ⟨"when", [.column jc, columnOrValue value]⟩
  | _ => .error (.typeError "condition should be a Column")

/-- `log(arg1, arg2=None)`: with one argument the natural logarithm of the column `arg1`; with
two, the logarithm of the column `arg2` in the base `arg1`, which goes to the JVM as it is. -/
def log (arg1 arg2 : PyObj J) : Except PyException (JvmCall J) :=
  match arg2 with
  | .none => (fun jc => ⟨"log", [.column jc]⟩) <$> toJavaColumn arg1
  | _ => (fun jc => ⟨"log", [.value arg1, .column jc]⟩) <$> toJavaColumn arg2

/-! ## Schema arguments -/

section Schemas

variable (createColumnFromLiteral : PyObj J → J) (toStr : PyObj J → String)

/-- `_options_to_str(options)`: every value through `to_str`. -/
def optionsToStr (options : List (String × PyObj J)) : JvmArg J :=
  .options (options.map fun entry => (entry.1, toStr entry.2))

/-- The schema argument of `schema_of_json`, `schema_of_csv` and `from_csv`: a `basestring` is a
literal, a `Column` its JVM column, anything else `TypeError`. -/
def schemaArgument (x : PyObj J) : Except PyException J :=
  match x with
  | .str _ | .unicode _ => .ok (createColumnFromLiteral x)
  | .column _ => toJavaColumn x
  | _ => .error (.typeError "schema argument should be a column or string")

/-- `schema_of_json(json, options={})`. -/
def schemaOfJson (json : PyObj J) (options : List (String × PyObj J)) :
    Except PyException (JvmCall J) := do
  let col ← schemaArgument toJavaColumn createColumnFromLiteral json
  pure ⟨"schema_of_json", [.column col, optionsToStr toStr options]⟩

/-- `schema_of_csv(csv, options={})`. -/
def schemaOfCsv (csv : PyObj J) (options : List (String × PyObj J)) :
    Except PyException (JvmCall J) := do
  let col ← schemaArgument toJavaColumn createColumnFromLiteral csv
  pure ⟨"schema_of_csv", [.column col, optionsToStr toStr options]⟩

/-- `from_csv(col, schema, options={})`: the schema is converted before the column. -/
def fromCsv (col schema : PyObj J) (options : List (String × PyObj J)) :
    Except PyException (JvmCall J) := do
  let schema ← schemaArgument toJavaColumn createColumnFromLiteral schema
  let jc ← toJavaColumn col
  pure ⟨"from_csv", [.column jc, .column schema, optionsToStr toStr options]⟩

end Schemas

end Columns

end GrupoDeEstudos.Sql
