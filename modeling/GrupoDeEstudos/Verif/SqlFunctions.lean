import GrupoDeEstudos.Sql.Functions
import GrupoDeEstudos.Verif.Float
import Mathlib.Algebra.Order.Ring.Abs
import Mathlib.Data.List.Nodup
/-!
# What `pyspark.sql.functions` hands to the JVM

The binary math functions convert every argument that is neither a `Column` nor a string with
Python's `float()`. On an integer that conversion rounds to the nearest binary64, ties to even:
it raises `OverflowError` from `|n| = 2^1024 - 2^970` on, is exact exactly when the bits of `n`
below its 53-bit significand are zero, and is otherwise off by at most half a unit of the last
kept place. So `pow(col, 2**53 + 1)` hands the JVM `2**53`, before any JVM call is made.

`struct`, `create_map`, `array` and `map_concat` take their columns as arguments or as one list
or set; a set hands over each of its members once. `window` reaches the JVM exactly when its durations are nonempty byte strings, absent
optional ones apart, and each `TypeError` it raises itself names the argument it checks.
`RaisesOnly` states which exceptions a computation may raise and composes along `do` blocks.
-/

namespace GrupoDeEstudos.Verif.SqlFunctions

open GrupoDeEstudos.Prime GrupoDeEstudos.Sql
open GrupoDeEstudos.Verif.Float (roundToDouble_lt_iff roundToDouble_error two_mul_roundToDouble_le
  roundToDouble_eq_self_iff)

variable {J : Type}

/-! ## Steps of an `Except` computation -/

/-- A `do` step succeeds exactly when its first computation does and the rest succeeds on its
value. -/
theorem bind_eq_ok {α β : Type} {x : Except PyException α} {f : α → Except PyException β}
    {b : β} : x >>= f = .ok b ↔ ∃ a, x = .ok a ∧ f a = .ok b := by
  cases x with
  | error e => exact ⟨fun h => (nomatch h), fun ⟨_, h, _⟩ => (nomatch h)⟩
  | ok a => exact ⟨fun h => ⟨a, rfl, h⟩, fun ⟨_, h, run⟩ => by cases h; exact run⟩

/-- A mapped computation succeeds exactly when the computation does. -/
theorem map_eq_ok {α β : Type} {x : Except PyException α} {g : α → β} {b : β} :
    g <$> x = .ok b ↔ ∃ a, x = .ok a ∧ g a = b := by
  cases x with
  | error e => exact ⟨fun h => (nomatch h), fun ⟨_, h, _⟩ => (nomatch h)⟩
  | ok a => exact ⟨fun h => ⟨a, rfl, by cases h; rfl⟩, fun ⟨_, h, same⟩ => by cases h; rw [← same]; rfl⟩

/-- `pure a` succeeds with `a` only. -/
theorem pure_eq_ok {α : Type} {a b : α} : (pure a : Except PyException α) = .ok b ↔ a = b :=
  ⟨fun h => by cases h; rfl, fun h => h ▸ rfl⟩

/-! ## Which exceptions a function raises -/

/-- Every exception `m` raises satisfies `P`. -/
def RaisesOnly {α : Type} (P : PyException → Prop) (m : Except PyException α) : Prop :=
  ∀ e, m = .error e → P e

namespace RaisesOnly

variable {α β : Type} {P : PyException → Prop}

/-- `pure a` raises nothing. -/
theorem ofPure (a : α) : RaisesOnly P (pure a) := fun _ failed => by cases failed

/-- A `do` step raises what its first computation or the rest raises. -/
theorem ofBind {m : Except PyException α} {f : α → Except PyException β}
    (first : RaisesOnly P m) (rest : ∀ a, RaisesOnly P (f a)) : RaisesOnly P (m >>= f) := by
  intro e failed
  cases ran : m with
  | error raised =>
    rw [ran] at failed
    cases failed
    exact first e ran
  | ok a =>
    rw [ran] at failed
    exact rest a e failed

/-- A mapped computation raises what the computation raises. -/
theorem ofMap {m : Except PyException α} {g : α → β} (first : RaisesOnly P m) :
    RaisesOnly P (g <$> m) := by
  intro e failed
  cases ran : m with
  | error raised =>
    rw [ran] at failed
    cases failed
    exact first e ran
  | ok a =>
    rw [ran] at failed
    cases failed

/-- An `if` raises what one of its branches raises. -/
theorem ofIte {c : Prop} [Decidable c] {yes no : Except PyException α} (first : RaisesOnly P yes)
    (second : RaisesOnly P no) : RaisesOnly P (if c then yes else no) := by
  split <;> assumption

/-- A classification holds for any wider class of exceptions. -/
theorem mono {Q : PyException → Prop} {m : Except PyException α} (raises : RaisesOnly P m)
    (weaker : ∀ e, P e → Q e) : RaisesOnly Q m :=
  fun e failed => weaker e (raises e failed)

end RaisesOnly

/-! ## `float()` on integers -/

/-- `float(n)` raises `OverflowError` from `|n| ≥ 2^1024 - 2^970` on, else gives
`floatValue n`. -/
theorem intToFloat_eq (n : ℤ) : intToFloat n =
    if 2 ^ 1024 - 2 ^ 970 ≤ n.natAbs then
      .error (.overflowError "long int too large to convert to float")
    else .ok (.finite (floatValue n)) := by
  simp only [intToFloat, ← not_lt, roundToDouble_lt_iff]

/-- `float(n)` is `n` exactly when the bits of `|n|` below its 53-bit significand are zero. -/
theorem floatValue_eq_self_iff (n : ℤ) :
    floatValue n = n ↔ 2 ^ (n.natAbs.log2 - 52) ∣ n.natAbs := by
  rw [← roundToDouble_eq_self_iff]
  simp only [floatValue]
  split_ifs <;> omega

/-- `float(n)` is off from `n` by at most half a unit of the last kept place. -/
theorem two_mul_abs_floatValue_sub_le (n : ℤ) :
    2 * |floatValue n - n| ≤ 2 ^ (n.natAbs.log2 - 52) := by
  have lower := roundToDouble_error n.natAbs
  have upper := two_mul_roundToDouble_le n.natAbs
  have cast : ((2 ^ (n.natAbs.log2 - 52) : ℕ) : ℤ) = 2 ^ (n.natAbs.log2 - 52) := by
    push_cast; rfl
  have twice : 2 * |floatValue n - n| = |2 * (floatValue n - n)| := by
    rw [abs_mul, abs_two]
  rw [twice, ← cast, abs_le]
  generalize 2 ^ (n.natAbs.log2 - 52) = unit at lower upper
  simp only [floatValue]
  split_ifs <;> constructor <;> omega

/-! ## The binary math functions -/

section Math

variable (createColumnFromName : String → J)

/-- An integer argument of a binary math function: `OverflowError` from the threshold on, else
the double `float(n)`. -/
theorem mathArg_int (n : ℤ) : mathArg createColumnFromName (.int n) =
    if 2 ^ 1024 - 2 ^ 970 ≤ n.natAbs then
      .error (.overflowError "long int too large to convert to float")
    else .ok (.value (.float (.finite (floatValue n)))) := by
  simp only [mathArg, intToFloat_eq]
  split_ifs <;> rfl

/-- The exceptions of `float()` in the binary math functions: on a value that is neither a string
nor a number, and on a huge integer. -/
def MathError (e : PyException) : Prop :=
  e = .typeError "float() argument must be a string or a number" ∨
    e = .overflowError "long int too large to convert to float"

/-- One argument of a binary math function raises only the exceptions of `float()`. -/
theorem mathArg_raises (col : PyObj J) :
    RaisesOnly MathError (mathArg createColumnFromName col) := by
  intro e failed
  cases col with
  | int n =>
    rw [mathArg_int] at failed
    split_ifs at failed
    cases failed
    exact Or.inr rfl
  | float x => cases failed
  | _ => cases failed <;> exact Or.inl rfl

/-- The binary math functions raise only the exceptions of `float()`. -/
theorem createBinaryMathfunction_raises (name : String) (col1 col2 : PyObj J) :
    RaisesOnly MathError (createBinaryMathfunction createColumnFromName name col1 col2) :=
  .ofBind (mathArg_raises _ col1) fun _ => .ofBind (mathArg_raises _ col2) fun _ => .ofPure _

/-- `atan2`, `hypot` and `pow` with a Python integer `n` for either argument: from
`|n| ≥ 2^1024 - 2^970` on they raise `OverflowError` before any JVM call, the first argument's
error coming first also when the other argument fails to convert; below it the JVM receives the double `float(n)`, which is `n` exactly when
the bits of `|n|` below its 53-bit significand are zero and is otherwise off by at most half a
unit of the last kept place. -/
theorem createBinaryMathfunction_int (name : String) (col : PyObj J) (n : ℤ) :
    (∀ arg, mathArg createColumnFromName col = .ok arg →
      createBinaryMathfunction createColumnFromName name col (.int n) =
        if 2 ^ 1024 - 2 ^ 970 ≤ n.natAbs then
          .error (.overflowError "long int too large to convert to float")
        else .ok ⟨name, [arg, .value (.float (.finite (floatValue n)))]⟩) ∧
    (∀ e, mathArg createColumnFromName col = .error e →
      createBinaryMathfunction createColumnFromName name col (.int n) = .error e) ∧
    createBinaryMathfunction createColumnFromName name (.int n) col =
      (if 2 ^ 1024 - 2 ^ 970 ≤ n.natAbs then
        .error (.overflowError "long int too large to convert to float")
      else (fun arg => ⟨name, [.value (.float (.finite (floatValue n))), arg]⟩) <$>
        mathArg createColumnFromName col) ∧
    (floatValue n = n ↔ 2 ^ (n.natAbs.log2 - 52) ∣ n.natAbs) ∧
    2 * |floatValue n - n| ≤ 2 ^ (n.natAbs.log2 - 52) := by
  refine ⟨fun arg resolved => ?_, fun e failed => ?_, ?_, floatValue_eq_self_iff n,
    two_mul_abs_floatValue_sub_le n⟩
  · simp only [createBinaryMathfunction, resolved, mathArg_int]
    split_ifs <;> rfl
  · rw [createBinaryMathfunction, failed]
    rfl
  · simp only [createBinaryMathfunction, mathArg_int]
    split_ifs
    · rfl
    · cases mathArg createColumnFromName col <;> rfl

end Math

/-- `float(2**53 + 1)` is `2**53`: the last bit is a tie, rounded to the even significand. -/
theorem floatValue_two_pow_53_add_one : floatValue (2 ^ 53 + 1) = 2 ^ 53 := by
  have bits : (2 ^ 53 + 1 : ℕ).log2 = 53 :=
    GrupoDeEstudos.Verif.Float.log2_eq_of_bounds (by norm_num) (by norm_num)
  have rounded : roundToDouble (2 ^ 53 + 1) = 2 ^ 53 := by
    rw [roundToDouble, bits]
    decide
  simp only [floatValue, if_neg (show ¬ (2 ^ 53 + 1 : ℤ) < 0 by norm_num)]
  rw [show (2 ^ 53 + 1 : ℤ).natAbs = 2 ^ 53 + 1 by norm_num, rounded]
  norm_num

/-- `pow(col, 2**53 + 1)` hands the JVM the double `2**53`. -/
theorem createBinaryMathfunction_int_pow :
    createBinaryMathfunction (J := Unit) (fun _ => ()) "pow" (.column ()) (.int (2 ^ 53 + 1)) =
      .ok ⟨"pow", [.column (), .value (.float (.finite (2 ^ 53)))]⟩ := by
  rw [(createBinaryMathfunction_int (fun _ => ()) "pow" (.column ()) (2 ^ 53 + 1)).1 (.column ())
    rfl, if_neg (by norm_num), floatValue_two_pow_53_add_one]
  norm_num

/-! ## Functions of several columns -/

section Collections

variable (toSeq : List (PyObj J) → Except PyException (List J))

/-- Arguments that are not one list or one set are not flattened. -/
theorem flattenCols_of_not_single {cols : List (PyObj J)}
    (notList : ∀ items, cols ≠ [.list items])
    (notSet : ∀ items distinct, cols ≠ [.set items distinct]) : flattenCols cols = cols := by
  rcases cols with _ | ⟨col, _ | ⟨next, rest⟩⟩
  · rfl
  · cases col with
    | list items => exact absurd rfl (notList items)
    | set items distinct => exact absurd rfl (notSet items distinct)
    | _ => rfl
  · cases col <;> rfl

/-- The members of a set are never lists or sets, so they are not flattened again. -/
theorem flattenCols_map_toObj (order : List (PyKey J)) :
    flattenCols (order.map PyKey.toObj) = order.map PyKey.toObj := by
  rcases order with _ | ⟨key, _ | ⟨next, rest⟩⟩
  · rfl
  all_goals cases key <;> rfl

end Collections

section Window

variable (toJavaColumn : PyObj J → Except PyException J)
  (columnTruth : J → Except PyException Bool)

/-- `check_string_field` passes exactly the nonempty `str`s; a `unicode` fails it. -/
theorem checkStringField_eq_ok (field : PyObj J) (fieldName s : String) :
    checkStringField columnTruth field fieldName = .ok s ↔ field = .str s ∧ s ≠ "" := by
  rw [checkStringField, bind_eq_ok]
  constructor
  · rintro ⟨present, truth, matched⟩
    split at matched
    · cases pure_eq_ok.1 matched
      simpa [truthy] using truth
    · exact nomatch matched
  · rintro ⟨rfl, nonempty⟩
    exact ⟨true, by simpa [truthy] using nonempty, rfl⟩

/-- An optional duration of `window`: absent when `bool(field)` is false, else a nonempty `str`. -/
def OptionalDuration (field : PyObj J) : Option String → Prop
  | none => truthy columnTruth field = .ok false
  | some s => field = .str s ∧ s ≠ ""

/-- A given optional duration is true. -/
theorem truthy_of_duration {field : PyObj J} {s : String} (given : field = .str s ∧ s ≠ "") :
    truthy columnTruth field = .ok true := by
  obtain ⟨rfl, nonempty⟩ := given
  simp [truthy, nonempty]

/-- `window` calls the JVM exactly when the time column converts, `windowDuration` is a nonempty
`str`, and each of `slideDuration` and `startTime` is false or a nonempty `str`. A given slide
goes to the JVM, and when only a start is given `windowDuration` goes as the slide. -/
theorem window_eq_ok_iff (timeColumn windowDuration slideDuration startTime : PyObj J)
    (call : JvmCall J) :
    window toJavaColumn columnTruth timeColumn windowDuration slideDuration startTime = .ok call ↔
      ∃ jc w slide start, toJavaColumn timeColumn = .ok jc ∧ windowDuration = .str w ∧ w ≠ "" ∧
        OptionalDuration columnTruth slideDuration slide ∧
        OptionalDuration columnTruth startTime start ∧
        call = ⟨"window", .column jc :: .value (.str w) ::
          if slide = none ∧ start = none then []
          else .value (.str (slide.getD w)) :: start.toList.map (fun t => .value (.str t))⟩ := by
  constructor
  · intro ran
    obtain ⟨jc, hc, ran⟩ := bind_eq_ok.1 ran
    obtain ⟨w, hw, ran⟩ := bind_eq_ok.1 ran
    have window := (checkStringField_eq_ok columnTruth _ _ _).1 hw
    obtain ⟨bs, hs, ran⟩ := bind_eq_ok.1 ran
    cases bs
    · obtain ⟨_, absent, ran⟩ := bind_eq_ok.1 ran
      cases pure_eq_ok.1 absent
      obtain ⟨_, hs', ran⟩ := bind_eq_ok.1 ran
      cases hs.symm.trans hs'
      obtain ⟨bt, ht, ran⟩ := bind_eq_ok.1 ran
      cases bt
      · exact ⟨jc, w, none, none, hc, window.1, window.2, hs, ht, (pure_eq_ok.1 ran).symm⟩
      · obtain ⟨t, hct, ran⟩ := bind_eq_ok.1 ran
        exact ⟨jc, w, none, some t, hc, window.1, window.2, hs,
          (checkStringField_eq_ok columnTruth _ _ _).1 hct, (pure_eq_ok.1 ran).symm⟩
    · obtain ⟨bt, ht, ran⟩ := bind_eq_ok.1 ran
      cases bt
      · obtain ⟨_, hs', ran⟩ := bind_eq_ok.1 ran
        cases hs.symm.trans hs'
        obtain ⟨s, hcs, ran⟩ := bind_eq_ok.1 ran
        exact ⟨jc, w, some s, none, hc, window.1, window.2,
          (checkStringField_eq_ok columnTruth _ _ _).1 hcs, ht, (pure_eq_ok.1 ran).symm⟩
      · obtain ⟨s, hcs, ran⟩ := bind_eq_ok.1 ran
        obtain ⟨t, hct, ran⟩ := bind_eq_ok.1 ran
        exact ⟨jc, w, some s, some t, hc, window.1, window.2,
          (checkStringField_eq_ok columnTruth _ _ _).1 hcs,
          (checkStringField_eq_ok columnTruth _ _ _).1 hct, (pure_eq_ok.1 ran).symm⟩
  · rintro ⟨jc, w, slide, start, hc, rfl, nonempty, given, started, rfl⟩
    refine bind_eq_ok.2 ⟨jc, hc, bind_eq_ok.2 ⟨w, (checkStringField_eq_ok columnTruth _ _ _).2
      ⟨rfl, nonempty⟩, ?_⟩⟩
    cases slide with
    | none =>
      refine bind_eq_ok.2 ⟨false, given, bind_eq_ok.2 ⟨false, rfl, bind_eq_ok.2 ⟨false, given, ?_⟩⟩⟩
      cases start with
      | none => exact bind_eq_ok.2 ⟨false, started, rfl⟩
      | some t =>
        exact bind_eq_ok.2 ⟨true, truthy_of_duration columnTruth started,
          bind_eq_ok.2 ⟨t, (checkStringField_eq_ok columnTruth _ _ _).2 started, rfl⟩⟩
    | some s =>
      have slid := (checkStringField_eq_ok columnTruth _ "slideDuration" _).2 given
      refine bind_eq_ok.2 ⟨true, truthy_of_duration columnTruth given, ?_⟩
      cases start with
      | none =>
        exact bind_eq_ok.2 ⟨false, started, bind_eq_ok.2 ⟨true,
          truthy_of_duration columnTruth given, bind_eq_ok.2 ⟨s, slid, rfl⟩⟩⟩
      | some t =>
        exact bind_eq_ok.2 ⟨true, truthy_of_duration columnTruth started, bind_eq_ok.2 ⟨s, slid,
          bind_eq_ok.2 ⟨t, (checkStringField_eq_ok columnTruth _ _ _).2 started, rfl⟩⟩⟩

/-- `bool(x)` raises only what the truth value of a `Column` raises. -/
theorem truthy_raises (field : PyObj J) :
    RaisesOnly (fun e => ∃ jc, columnTruth jc = .error e) (truthy columnTruth field) := by
  intro e failed
  cases field with
  | column jc => exact ⟨jc, failed⟩
  | float x => cases x <;> cases failed
  | _ => cases failed

/-- `check_string_field` raises the `TypeError` that names its field, or what `bool(field)`
raises. -/
theorem checkStringField_raises (field : PyObj J) (fieldName : String) :
    RaisesOnly (fun e => (∃ jc, columnTruth jc = .error e) ∨
        e = .typeError s!"{fieldName} should be provided as a string")
      (checkStringField columnTruth field fieldName) := by
  refine .ofBind ((truthy_raises columnTruth field).mono fun _ => Or.inl)
    fun present e failed => Or.inr ?_
  split at failed
  · cases failed
  · cases failed; rfl

/-- The exceptions `window` may raise: the time column's conversion error, the truth value of a
`Column` failing, or the `TypeError` naming `windowDuration`, `slideDuration` or `startTime`. -/
def WindowError (timeColumn : PyObj J) (e : PyException) : Prop :=
  toJavaColumn timeColumn = .error e ∨ (∃ jc, columnTruth jc = .error e) ∨
      ∃ fieldName ∈ ["windowDuration", "slideDuration", "startTime"],
        e = .typeError s!"{fieldName} should be provided as a string"

/-- Every exception `window` raises is a `WindowError`: each `TypeError` of its own names the
argument it checks. -/
theorem window_raises (timeColumn windowDuration slideDuration startTime : PyObj J) :
    RaisesOnly (WindowError toJavaColumn columnTruth timeColumn)
      (window toJavaColumn columnTruth timeColumn windowDuration slideDuration startTime) := by
  have truthy' : ∀ field, RaisesOnly (WindowError toJavaColumn columnTruth timeColumn)
      (truthy columnTruth field) :=
    fun field => (truthy_raises columnTruth field).mono fun _ => (Or.inr ∘ Or.inl)
  have check : ∀ field fieldName,
      fieldName ∈ ["windowDuration", "slideDuration", "startTime"] →
      RaisesOnly (WindowError toJavaColumn columnTruth timeColumn)
        (checkStringField columnTruth field fieldName) :=
    fun field fieldName listed => (checkStringField_raises columnTruth field fieldName).mono
      fun _ raised => raised.elim (Or.inr ∘ Or.inl)
        fun named => Or.inr (Or.inr ⟨fieldName, listed, named⟩)
  unfold window
  refine .ofBind (fun e failed => Or.inl failed) fun _ => ?_
  repeat' first
    | exact .ofPure _
    | exact truthy' _
    | exact check _ _ (by decide)
    | refine .ofBind ?_ fun _ => ?_
    | refine .ofIte ?_ ?_

end Window

/-! ## `when` and schema arguments -/

/-- `when` raises only the `TypeError` that names its condition. -/
theorem when_raises (condition value : PyObj J) :
    RaisesOnly (· = .typeError "condition should be a Column") (when condition value) := by
  intro e failed
  cases condition <;> cases failed <;> rfl

section Schemas

variable (toJavaColumn : PyObj J → Except PyException J) (createColumnFromLiteral : PyObj J → J)
  (toStr : PyObj J → String)

/-- A schema argument raises the `TypeError` that names it, or what `_to_java_column` raises on
it. -/
theorem schemaArgument_raises (x : PyObj J) :
    RaisesOnly (fun e => toJavaColumn x = .error e ∨
        e = .typeError "schema argument should be a column or string")
      (schemaArgument toJavaColumn createColumnFromLiteral x) := by
  intro e failed
  cases x <;> first | exact Or.inl failed | cases failed <;> exact Or.inr rfl

/-- The exceptions of a schema function with schema argument `x` and column `col`: what
`_to_java_column` raises on them, and the `TypeError` that names the schema argument. -/
def SchemaError (x col : PyObj J) (e : PyException) : Prop :=
  toJavaColumn x = .error e ∨ toJavaColumn col = .error e ∨
    e = .typeError "schema argument should be a column or string"

/-- `schema_of_json`, `schema_of_csv` and `from_csv` raise only `SchemaError`s. -/
theorem schemaFunctions_raise (x col : PyObj J) (options : List (String × PyObj J)) :
    RaisesOnly (SchemaError toJavaColumn x col)
        (schemaOfJson toJavaColumn createColumnFromLiteral toStr x options) ∧
      RaisesOnly (SchemaError toJavaColumn x col)
        (schemaOfCsv toJavaColumn createColumnFromLiteral toStr x options) ∧
      RaisesOnly (SchemaError toJavaColumn x col)
        (fromCsv toJavaColumn createColumnFromLiteral toStr col x options) := by
  have schema : RaisesOnly (SchemaError toJavaColumn x col)
      (schemaArgument toJavaColumn createColumnFromLiteral x) :=
    (schemaArgument_raises toJavaColumn createColumnFromLiteral x).mono
      fun _ raised => raised.elim Or.inl (Or.inr ∘ Or.inr)
  refine ⟨.ofBind schema fun _ => .ofPure _, .ofBind schema fun _ => .ofPure _,
    .ofBind schema fun _ => .ofBind (fun e failed => Or.inr (Or.inl failed)) fun _ => .ofPure _⟩

end Schemas

end GrupoDeEstudos.Verif.SqlFunctions
