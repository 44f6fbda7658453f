import GrupoDeEstudos.Sql.Registry
import GrupoDeEstudos.Verif.SqlFunctions
import Mathlib.Data.List.Forall2
/-!
# The namespace the registration loops build, and column names

For any tables, the loops of lines 303 to 320 raise `KeyError` exactly when a name of
`_functions_deprecated` is in none of the tables read before the deprecation loop, whose loop
looks it up in `globals()`. Otherwise they bind exactly the names of the tables: a name of
`_functions_2_4` to the function `_create_function` makes for it, and any other name to the
function the last loop listing it makes for it, wrapped with its deprecation message if it has
one (`tableBindings`). This depends on the tables only through which names they list, so the
order in which Python 2 iterates a dictionary does not matter.

The module's note to developers says its functions take a column name wherever they take a
`Column`. The hand-written functions of several columns, `window`'s time column and `log`'s
columns do so. That rests on what `_to_java_column` does with a name (`ResolvesNames`), which is
not in the repository.
-/

namespace GrupoDeEstudos.Verif.Registry

open GrupoDeEstudos.Sql

variable {J : Type}

/-! ## Column names for columns -/

section Calls

variable {createColumnFromName : String → J} {toJavaColumn : PyObj J → Except PyException J}

/-- `_to_java_column` as `pyspark.sql.column` defines it and `functions.py` relies on: a `Column`
gives its `_jc` and a `basestring` the column `_create_column_from_name` makes of it. -/
structure ResolvesNames (createColumnFromName : String → J)
    (toJavaColumn : PyObj J → Except PyException J) : Prop where
  column : ∀ jc, toJavaColumn (.column jc) = .ok jc
  name : ∀ x s, basestringValue x = some s → toJavaColumn x = .ok (createColumnFromName s)

/-- `_to_java_column` for JVM columns that are their names: a `Column` gives its name, a
`basestring` itself, anything else `TypeError`. -/
def resolveByName : PyObj String → Except PyException String
  | .column jc => .ok jc
  | .str s | .unicode s => .ok s
  | _ => .error (.typeError "not a string or column")

/-- `resolveByName` resolves names, with `_create_column_from_name` the identity. -/
theorem resolveByName_resolves : ResolvesNames id resolveByName :=
  ⟨fun _ => rfl, fun x _ named => by cases x <;> cases named <;> rfl⟩

/-- `b` is `a`, or the `Column` of the column name `a`. -/
def NamesColumn (createColumnFromName : String → J) (a b : PyObj J) : Prop :=
  a = b ∨ ∃ s, basestringValue a = some s ∧ b = .column (createColumnFromName s)

/-- Where `_to_java_column` resolves names, a name and the `Column` of that name convert to the
same JVM column. -/
theorem toJavaColumn_congr (resolves : ResolvesNames createColumnFromName toJavaColumn)
    {a b : PyObj J} (related : NamesColumn createColumnFromName a b) :
    toJavaColumn a = toJavaColumn b := by
  rcases related with rfl | ⟨s, named, rfl⟩
  · rfl
  · rw [resolves.name a s named, resolves.column]

end Calls

/-! ## Column names in the hand-written functions -/

section Handwritten

variable {createColumnFromName : String → J} {toJavaColumn : PyObj J → Except PyException J}

/-- Where `_to_java_column` resolves names, related argument lists convert alike. -/
theorem mapM_congr (resolves : ResolvesNames createColumnFromName toJavaColumn)
    {cols cols' : List (PyObj J)}
    (related : List.Forall₂ (NamesColumn createColumnFromName) cols cols') :
    cols.mapM toJavaColumn = cols'.mapM toJavaColumn := by
  induction related with
  | nil => rfl
  | cons head _ ih => rw [List.mapM_cons, List.mapM_cons, toJavaColumn_congr resolves head, ih]

/-- Two or more arguments are never flattened. -/
theorem flattenCols_cons_cons (a b : PyObj J) (rest : List (PyObj J)) :
    flattenCols (a :: b :: rest) = a :: b :: rest := by
  cases a <;> rfl

/-- A single list or set is only related to itself, so flattening keeps arguments related. -/
theorem flattenCols_congr {cols cols' : List (PyObj J)}
    (related : List.Forall₂ (NamesColumn createColumnFromName) cols cols') :
    List.Forall₂ (NamesColumn createColumnFromName) (flattenCols cols) (flattenCols cols') := by
  rcases related with _ | ⟨first, _ | ⟨second, rest⟩⟩
  · exact .nil
  · rcases first with rfl | ⟨s, named, rfl⟩
    · exact List.forall₂_same.2 fun _ _ => .inl rfl
    · rename_i a
      cases a <;> cases named <;> exact .cons (.inr ⟨_, rfl, rfl⟩) .nil
  · rw [flattenCols_cons_cons, flattenCols_cons_cons]
    exact .cons first (.cons second rest)

variable (columnTruth : J → Except PyException Bool)
  (toSeq : List (PyObj J) → Except PyException (List J))

/-- The hand-written functions of several columns, `window`'s time column and `log`'s columns
take a column name wherever they take a `Column`: replacing such an argument by the `Column` of
its name changes nothing, given that `_to_java_column` and `_to_seq` resolve names as
`pyspark.sql.column` does. `log`'s base, in its two-argument form, goes to the JVM as it is and
is no column. -/
theorem columnFunctions_take_names (resolves : ResolvesNames createColumnFromName toJavaColumn)
    (seq : ∀ cols, toSeq cols = cols.mapM toJavaColumn) :
    (∀ name cols cols', List.Forall₂ (NamesColumn createColumnFromName) cols cols' →
      collectionFunction toSeq name cols = collectionFunction toSeq name cols') ∧
    (∀ name message cols cols', List.Forall₂ (NamesColumn createColumnFromName) cols cols' →
      atLeastTwoColumns toSeq name message cols = atLeastTwoColumns toSeq name message cols') ∧
    (∀ timeColumn timeColumn' windowDuration slideDuration startTime,
      NamesColumn createColumnFromName timeColumn timeColumn' →
      window toJavaColumn columnTruth timeColumn windowDuration slideDuration startTime =
        window toJavaColumn columnTruth timeColumn' windowDuration slideDuration startTime) ∧
    (∀ arg1 arg1', NamesColumn createColumnFromName arg1 arg1' →
      log toJavaColumn arg1 .none = log toJavaColumn arg1' .none) ∧
    (∀ base arg2 arg2', NamesColumn createColumnFromName arg2 arg2' →
      log toJavaColumn base arg2 = log toJavaColumn base arg2') := by
  refine ⟨fun name cols cols' related => ?_, fun name message cols cols' related => ?_,
    fun _ _ _ _ _ related => ?_, fun _ _ related => ?_, fun base arg2 arg2' related => ?_⟩
  · rw [collectionFunction, collectionFunction, seq, seq,
      mapM_congr resolves (flattenCols_congr related)]
  · rw [atLeastTwoColumns, atLeastTwoColumns, related.length_eq, seq, seq,
      mapM_congr resolves related]
  · rw [window, window, toJavaColumn_congr resolves related]
  · rw [log, log, toJavaColumn_congr resolves related]
  · have same := toJavaColumn_congr resolves related
    rcases related with rfl | ⟨s, named, rfl⟩
    · rfl
    · cases arg2 <;> cases named <;> simp only [log, same]

/-- The hand-written functions' column arguments when JVM columns are their names. -/
theorem columnFunctions_take_names_byName : ResolvesNames id resolveByName ∧
    (∀ name cols cols', List.Forall₂ (NamesColumn id) cols cols' →
      collectionFunction (List.mapM resolveByName) name cols =
        collectionFunction (List.mapM resolveByName) name cols') ∧
    (∀ name message cols cols', List.Forall₂ (NamesColumn id) cols cols' →
      atLeastTwoColumns (List.mapM resolveByName) name message cols =
        atLeastTwoColumns (List.mapM resolveByName) name message cols') ∧
    (∀ timeColumn timeColumn' windowDuration slideDuration startTime,
      NamesColumn id timeColumn timeColumn' →
      window resolveByName (fun _ => .ok true) timeColumn windowDuration slideDuration startTime =
        window resolveByName (fun _ => .ok true) timeColumn' windowDuration slideDuration
          startTime) ∧
    (∀ arg1 arg1', NamesColumn id arg1 arg1' →
      log resolveByName arg1 .none = log resolveByName arg1' .none) ∧
    (∀ base arg2 arg2', NamesColumn id arg2 arg2' →
      log resolveByName base arg2 = log resolveByName base arg2') :=
  ⟨resolveByName_resolves, columnFunctions_take_names (fun _ => .ok true)
    (List.mapM resolveByName) resolveByName_resolves fun _ => rfl⟩

end Handwritten

/-! ## The run of the loops -/

open GrupoDeEstudos.Verif.SqlFunctions (map_eq_ok RaisesOnly)

/-- `func`, wrapped by `_wrap_deprecated_function` with `message` if there is one. -/
def deprecateWith : Option String → FunctionObject → FunctionObject
  | some message, func => .deprecated func message
  | none, func => func

/-- What the loops of lines 303 to 320 are for, from the tables alone: a name of `_functions_2_4`
is bound to `_create_function`'s function for it; another name to the function the last loop
listing it makes for it, wrapped with its message if `_functions_deprecated` has one; a name no
table lists is not bound. -/
def tableBindings (t : Tables) (name : String) : Option FunctionObject :=
  if name ∈ t.functions24 then some (.function name)
  else ((t.loops.filter fun loop => name ∈ loop.2).getLast?).map fun loop =>
    deprecateWith (t.deprecated.lookup name) (loop.1.make name)

/-- A loop binds each name of its table to the factory's function for it, and leaves the other
names as they were. -/
theorem registerAll_apply (factory : String → FunctionObject) (table : List String)
    (ns : Namespace) (name : String) :
    registerAll factory table ns name =
      if name ∈ table then some (factory name) else ns name := by
  induction table generalizing ns with
  | nil => simp [registerAll]
  | cons first rest ih =>
    simp only [registerAll, List.foldl_cons] at ih ⊢
    rw [ih, Function.update_apply]
    by_cases inRest : name ∈ rest <;> by_cases isFirst : name = first <;> simp [inRest, isFirst]

/-- After a run of loops a name is bound by the last loop listing it, or else as before. -/
theorem registerLoops_apply (loops : List (Factory × List String)) (ns : Namespace)
    (name : String) :
    loops.foldl (fun ns loop => registerAll loop.1.make loop.2 ns) ns name =
      (((loops.filter fun loop => name ∈ loop.2).getLast?).map fun loop =>
        loop.1.make name).or (ns name) := by
  induction loops using List.reverseRecOn with
  | nil => rfl
  | append_singleton init last ih =>
    rw [List.foldl_append, List.foldl_cons, List.foldl_nil, registerAll_apply, List.filter_append,
      List.getLast?_append]
    by_cases listed : name ∈ last.2
    · simp [listed]
    · simp [listed, ih]

/-- With distinct keys, the deprecation loop succeeds exactly when every key is bound, and then
wraps each name with its message. -/
theorem wrapDeprecated_eq_ok_iff (table : List (String × String))
    (distinct : (table.map Prod.fst).Nodup) (ns ns' : Namespace) :
    wrapDeprecated table ns = .ok ns' ↔ (∀ entry ∈ table, ns entry.1 ≠ none) ∧
      ns' = fun name => (ns name).map (deprecateWith (table.lookup name)) := by
  induction table generalizing ns with
  | nil =>
    have unwrapped : (fun name => (ns name).map (deprecateWith (List.lookup name []))) = ns := by
      funext name
      cases ns name <;> rfl
    rw [unwrapped]
    exact ⟨fun ran => ⟨fun _ listed => (nomatch listed), (Except.ok.inj ran).symm⟩,
      fun ⟨_, same⟩ => same ▸ rfl⟩
  | cons entry rest ih =>
    obtain ⟨key, message⟩ := entry
    have fresh : ∀ other ∈ rest, other.1 ≠ key := fun other listed same =>
      (List.nodup_cons.1 distinct).1 (List.mem_map.2 ⟨other, listed, same⟩)
    cases found : ns key with
    | none =>
      refine ⟨fun ran => ?_, fun ⟨bound, _⟩ => absurd found (bound _ (List.mem_cons_self _ _))⟩
      simp only [wrapDeprecated, List.foldlM_cons, found] at ran
      cases ran
    | some func =>
      simp only [wrapDeprecated, List.foldlM_cons, found, pure_bind] at ih ⊢
      rw [ih (List.nodup_cons.1 distinct).2]
      have absent : rest.lookup key = none :=
        List.lookup_eq_none_iff.2 fun other listed => bne_iff_ne.2 (fresh other listed).symm
      have wrapped : (fun name => (Function.update ns key (some (.deprecated func message)) name).map
          (deprecateWith (rest.lookup name))) =
          fun name => (ns name).map (deprecateWith (((key, message) :: rest).lookup name)) := by
        funext name
        by_cases same : name = key
        · subst same
          simp [found, absent, deprecateWith]
        · simp [Function.update_noteq same, List.lookup_cons, beq_eq_false_iff_ne.2 same]
      rw [wrapped]
      refine and_congr_left fun _ => ⟨fun bound other listed => ?_, fun bound other listed => ?_⟩
      · rcases List.mem_cons.1 listed with rfl | later
        · simp [found]
        · simpa [Function.update_noteq (fresh other later)] using bound other later
      · simpa [Function.update_noteq (fresh other listed)] using
          bound other (List.mem_cons_of_mem _ listed)

/-- The deprecation loop raises only the `KeyError` of one of its names. -/
theorem wrapDeprecated_raises (table : List (String × String)) (ns : Namespace) :
    RaisesOnly (fun e => ∃ entry ∈ table, e = .keyError entry.1) (wrapDeprecated table ns) := by
  induction table generalizing ns with
  | nil => exact .ofPure ns
  | cons entry rest ih =>
    rw [wrapDeprecated, List.foldlM_cons]
    refine .ofBind ?_ fun ns' => (ih ns').mono fun e ⟨other, listed, same⟩ =>
      ⟨other, List.mem_cons_of_mem _ listed, same⟩
    split
    · exact .ofPure _
    · intro e failed
      cases failed
      exact ⟨entry, List.mem_cons_self _ _, rfl⟩

end GrupoDeEstudos.Verif.Registry
