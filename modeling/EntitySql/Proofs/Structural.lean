import EntitySql.Proofs.Awaited
import EntitySql.Store.Operations

/-!
# Failures before anything is sent

Statements are built from the arguments of an operation before anything is
sent. What is wrong with the arguments is a structural failure, and comes from
one of three places: the arguments themselves, the fields of the entity, or its
names. Nothing that is found on the way to a statement counts as a failure of
the database.

- `FailsAs`, `FailsStructurally`: computations and the failures they have.
- `BuildFailures`: a property of all failures from the three places.
- `Filter.compile_failsAs`: filters.
- `Store.countStatement_failsAs` and the like, one for each statement.
-/

namespace EntitySql

variable {α β : Type}

/-- All failures of a computation have a property. -/
def FailsAs (P : Failure → Prop) (x : Except Failure α) : Prop :=
  ∀ failure, x = .error failure → P failure

namespace FailsAs

variable {P Q : Failure → Prop}

/-- A result is no failure. -/
theorem of_ok (a : α) : FailsAs P (.ok a) := fun _ h => nomatch h

theorem of_error {failure : Failure} (h : P failure) :
    FailsAs P (.error failure : Except Failure α) := fun _ heq => by
  cases heq
  exact h

/-- All failures have a weaker property. -/
theorem imp {x : Except Failure α} (hx : FailsAs P x) (h : ∀ failure, P failure → Q failure) :
    FailsAs Q x := fun failure heq => h failure (hx failure heq)

/-- Steps that fail so, one after the other. -/
theorem bind {x : Except Failure α} {f : α → Except Failure β} (hx : FailsAs P x)
    (hf : ∀ a, FailsAs P (f a)) : FailsAs P (x >>= f) := by
  intro failure h
  rcases bind_eq_error.1 h with h | ⟨a, _, h⟩
  · exact hx failure h
  · exact hf a failure h

theorem bind_ok {x : Except Failure α} {f : α → β} (hx : FailsAs P x) :
    FailsAs P (x >>= fun a => .ok (f a)) :=
  hx.bind fun a => of_ok (f a)

end FailsAs

/-- All failures of a computation are structural. -/
def FailsStructurally (x : Except Failure α) : Prop :=
  ∀ failure, x = .error failure → failure.kind = .structural

/-- The failure is found in the arguments of an operation, whatever the entity and its names. -/
def Failure.IsPlain : Failure → Prop
  | .invalidFilter _ | .missingIdentity .. | .invalidMetadata _ | .conversion _
  | .unsupportedOperation _ | .configuration _ => True
  | _ => False

/-- Such failures are structural. -/
theorem Failure.IsPlain.kind_eq {failure : Failure} (h : failure.IsPlain) :
    failure.kind = .structural := by
  cases failure <;> first | rfl | exact h.elim

/-- All failures that come up while the statements for an entity are built with given names have a
property. -/
structure BuildFailures (P : Failure → Prop) (e : Entity) (names : EntityNames) : Prop where
  plain : ∀ failure : Failure, failure.IsPlain → P failure
  field : ∀ key, FailsAs P (e.field key)
  column : ∀ key, FailsAs P (names.columnOf key)

theorem BuildFailures.structural {e : Entity} {names : EntityNames} :
    BuildFailures (fun failure => failure.kind = .structural) e names where
  plain := fun _ h => h.kind_eq
  field := fun key => by
    rw [Entity.field]
    split
    · exact .of_ok _
    · exact .of_error rfl
  column := fun key => by
    rw [EntityNames.columnOf]
    split
    · exact .of_ok _
    · exact .of_error rfl

open FailsAs

/-! ## Values and arguments -/

/-- A value that is not of the wanted kind. -/
theorem Converter.orMismatch_failsAs (wanted : String) (v : Value) (found : Option Value) :
    FailsAs Failure.IsPlain (orMismatch wanted v found) := by
  cases found with
  | none => exact of_error trivial
  | some w => exact of_ok w

/-- A value that is no instant. -/
theorem Converter.toInstant?_failsAs (v : Value) : FailsAs Failure.IsPlain (toInstant? v) := by
  cases v with
  | null => exact of_ok _
  | timestamp t => exact of_ok _
  | text s =>
    rw [toInstant?]
    split
    · exact of_ok _
    · exact of_error trivial
  | integer n =>
    rw [toInstant?]
    split
    · exact of_ok _
    · exact of_error trivial
  | _ => exact of_error trivial

/-- A value that a field cannot hold. -/
theorem Converter.toStored_failsAs (c : Converter) (v : Value) :
    FailsAs Failure.IsPlain (c.toStored v) := by
  cases c with
  | integer =>
    cases v with
    | float x => exact orMismatch_failsAs _ _ _
    | text s => exact orMismatch_failsAs _ _ _
    | null => exact of_ok _
    | integer n => exact of_ok _
    | boolean b => exact of_ok _
    | _ => exact of_error trivial
  | number =>
    cases v with
    | text s => exact orMismatch_failsAs _ _ _
    | null => exact of_ok _
    | integer n => exact of_ok _
    | float x => exact of_ok _
    | _ => exact of_error trivial
  | text =>
    cases v with
    | timestamp t => exact of_error trivial
    | json j => exact of_error trivial
    | _ => exact of_ok _
  | boolean =>
    cases v with
    | text s => exact orMismatch_failsAs _ _ _
    | null => exact of_ok _
    | boolean b => exact of_ok _
    | integer n => exact of_ok _
    | _ => exact of_error trivial
  | date =>
    refine (toInstant?_failsAs v).bind fun t? => ?_
    cases t? <;> exact of_ok _
  | json => exact of_ok _
  | jsonText => cases v <;> exact of_ok _
  | plain => exact of_ok _

namespace Condition

/-- Values of a list that a field cannot hold. -/
theorem storedList_failsAs (c : Converter) :
    ∀ vs : List Value, FailsAs Failure.IsPlain (storedList c vs)
  | [] => of_ok _
  | v :: vs => (c.toStored_failsAs v).bind fun _ => (storedList_failsAs c vs).bind_ok

theorem ofCompare_failsAs (key column : String) (allowNull : Bool) (op : CompareOp)
    (w : Value) : FailsAs Failure.IsPlain (Predicate.ofCompare key column allowNull op w) := by
  unfold Predicate.ofCompare
  split
  · cases op with
    | eq => exact of_ok _
    | ne => exact of_ok _
    | _ => exact of_error trivial
  · split <;> exact of_ok _

end Condition

namespace Store

variable {e : Entity} {d : Dialect}

theorem pageText_failsAs (o : FindOptions) : FailsAs Failure.IsPlain (o.pageText d) := by
  rw [FindOptions.pageText]
  cases o.pageSize? with
  | none => exact of_ok _
  | some limit =>
    refine FailsAs.bind_ok ?_
    rw [FindOptions.offset]
    split
    · exact of_ok _
    · exact of_error trivial

theorem writtenValues_failsAs (data : Record) (skipNulls : Bool) :
    FailsAs Failure.IsPlain (writtenValues e data skipNulls) := by
  have hvalues : ∀ fs : List Field, FailsAs Failure.IsPlain (storedValues data skipNulls fs) := by
    intro fs
    induction fs with
    | nil => exact of_ok _
    | cons f fs ih =>
      rw [storedValues]
      cases data.get? f.key with
      | none => exact ih
      | some v => exact (f.converter.toStored_failsAs v).bind fun _ => ih.bind_ok
  exact hvalues _

theorem writtenRows_failsAs : ∀ rows : List Record, FailsAs Failure.IsPlain (writtenRows e rows)
  | [] => of_ok _
  | r :: rs => (writtenValues_failsAs r true).bind fun _ => (writtenRows_failsAs rs).bind_ok

theorem identityValues_failsAs (operation : String) (id : RowId) :
    FailsAs Failure.IsPlain (identityValues e operation id) := by
  have hcomponents : ∀ (values : Record) (keys : List String),
      FailsAs Failure.IsPlain (componentsOf e operation values keys) := by
    intro values keys
    induction keys with
    | nil => exact of_ok _
    | cons key keys ih =>
      rw [componentsOf]
      cases values.get? key with
      | none => exact of_error trivial
      | some v =>
        dsimp only
        cases v.isNull with
        | true => exact of_error trivial
        | false => exact ih.bind_ok
  cases id with
  | compound values => exact (hcomponents values _).bind_ok
  | single v =>
    rw [identityValues]
    split
    · exact of_ok _
    · split
      · exact of_error trivial
      · exact of_ok _
    · exact of_error trivial

end Store

/-! ## Filters -/

theorem piecesOf_failsAs (r : RawText) : FailsAs Failure.IsPlain (piecesOf r) := by
  have hparts : ∀ parts : List (List Char),
      FailsAs Failure.IsPlain (piecesOfParts r.values parts) := by
    intro parts
    induction parts using piecesOfParts.induct with
    | case1 => exact of_ok _
    | case2 part => exact of_ok _
    | case3 part token rest ih =>
      rw [piecesOfParts]
      refine FailsAs.bind ?_ fun v => ih.bind_ok
      rw [tokenValue]
      split
      · exact of_ok _
      · exact of_error trivial
  rw [piecesOf]
  split
  · exact of_error trivial
  · exact hparts _

section

variable {P : Failure → Prop} {e : Entity} {names : EntityNames}

namespace Condition

theorem lookUp_failsAs (hP : BuildFailures P e names) (key : String) :
    FailsAs P (lookUp e names key) :=
  (hP.field key).bind fun _ => (hP.column key).bind_ok

mutual

/-- What is found on the way from a filter to its condition. -/
theorem ofFilter_failsAs (hP : BuildFailures P e names) :
    ∀ f : Filter, FailsAs P (ofFilter e names f)
  | .compare key op v => by
    rw [ofFilter]
    refine (lookUp_failsAs hP key).bind fun found => ?_
    refine ((found.1.converter.toStored_failsAs v).imp hP.plain).bind fun w => ?_
    exact ((ofCompare_failsAs _ _ _ _ _).imp hP.plain).bind_ok
  | .among key negated vs => by
    rw [ofFilter]
    refine (lookUp_failsAs hP key).bind fun found => ?_
    dsimp only
    split
    · exact of_ok _
    · exact ((storedList_failsAs _ vs).imp hP.plain).bind_ok
  | .matching key mode pattern => by
    rw [ofFilter]
    exact (lookUp_failsAs hP key).bind_ok
  | .and fs => by
    rw [ofFilter]
    exact (ofFilters_failsAs hP fs).bind_ok
  | .or fs => by
    rw [ofFilter]
    exact (ofFilters_failsAs hP fs).bind_ok
  | .not f => by
    rw [ofFilter]
    exact (ofFilter_failsAs hP f).bind_ok
  | .raw parts => by
    rw [ofFilter]
    exact of_ok _

theorem ofFilters_failsAs (hP : BuildFailures P e names) :
    ∀ fs : List Filter, FailsAs P (ofFilters e names fs)
  | [] => by
    rw [ofFilters]
    exact of_ok _
  | f :: fs => by
    rw [ofFilters]
    exact (ofFilter_failsAs hP f).bind fun _ => (ofFilters_failsAs hP fs).bind_ok

end

end Condition

variable (hP : BuildFailures P e names)

include hP

/-- A raw filter that gives up, or names an unknown field. -/
theorem RawPart.write_failsAs (parts : List RawPart) :
    FailsAs P (RawPart.write names parts) := by
  have hsteps : ∀ (parts : List RawPart) (r : RawText),
      FailsAs P (parts.foldlM (fun r p => p.step names r) r) := by
    intro parts
    induction parts with
    | nil => exact fun r => of_ok r
    | cons p parts ih =>
      intro r
      rw [List.foldlM_cons]
      refine FailsAs.bind ?_ ih
      cases p with
      | column key => exact (hP.column key).bind_ok
      | fail detail => exact of_error (hP.plain _ trivial)
      | _ => exact of_ok _
  exact hsteps parts _

/-- A raw filter without a template. -/
theorem RawPart.template_failsAs (parts : List RawPart) :
    FailsAs P (RawPart.template names parts) :=
  (write_failsAs hP parts).bind fun r => (piecesOf_failsAs r).imp hP.plain

/-- A condition with a raw filter that has no template. -/
theorem Condition.await_failsAs (c : Condition (List RawPart)) : FailsAs P (c.await names) := by
  intro failure h
  obtain ⟨_, t, _, htasks, ht, -⟩ := await_eq_error.1 h
  obtain ⟨parts, -, rfl⟩ := List.mem_map.1 (htasks ▸ List.mem_append_cons_self)
  exact RawPart.template_failsAs hP parts failure (RawPart.result_build parts ▸ ht)

namespace Filter

/-- A filter without a text. -/
theorem compile_failsAs (f : Filter) : FailsAs P (f.compile e names) :=
  (Condition.ofFilter_failsAs hP f).bind fun c => (Condition.await_failsAs hP c).bind_ok

theorem whereClause_failsAs (f : Filter) : FailsAs P (f.whereClause e names) :=
  (compile_failsAs hP f).bind_ok

end Filter

/-! ## Statements -/

namespace Store

variable {d : Dialect}

theorem columnTexts_failsAs : ∀ fs : List Field, FailsAs P (columnTexts names fs)
  | [] => of_ok _
  | f :: fs => (hP.column f.key).bind fun _ => (columnTexts_failsAs fs).bind_ok

theorem selectList_failsAs : FailsAs P (selectList e names) :=
  (columnTexts_failsAs hP _).bind_ok

theorem countStatement_failsAs (f : Filter) : FailsAs P (countStatement e names f) :=
  (f.whereClause_failsAs hP).bind_ok

theorem selectStatement_failsAs (f : Filter) : FailsAs P (selectStatement e names f) :=
  (f.whereClause_failsAs hP).bind fun _ => (selectList_failsAs hP).bind_ok

theorem orderBy_failsAs (nullsSmallest : Bool) (order : RowOrder) :
    FailsAs P (order.orderBy names nullsSmallest) := by
  have htexts : ∀ order : RowOrder,
      FailsAs P (RowOrder.segmentTexts names nullsSmallest order) := by
    intro order
    induction order with
    | nil => exact of_ok _
    | cons s order ih => exact (hP.column s.field).bind fun _ => ih.bind_ok
  exact (htexts order).bind_ok

theorem findStatement_failsAs (o : FindOptions) :
    FailsAs P (findStatement e names d o) := by
  refine (selectList_failsAs hP).bind fun _ => ?_
  refine FailsAs.bind ?_ fun _ => (orderBy_failsAs hP _ _).bind fun _ =>
    ((pageText_failsAs o).imp hP.plain).bind_ok
  cases o.filter with
  | none => exact of_ok _
  | some f => exact f.whereClause_failsAs hP

theorem returningClause_failsAs : FailsAs P (returningClause e names d) := by
  rw [returningClause]
  split
  · exact (selectList_failsAs hP).bind_ok
  · exact of_ok _

theorem insertStatement_failsAs (data : Record) :
    FailsAs P (insertStatement e names d data) := by
  refine ((writtenValues_failsAs data true).imp hP.plain).bind fun written => ?_
  -- whatever is inserted, the rows may be asked back
  have hreturning : ∀ insert : Template, FailsAs P (do
      let returning ← returningClause e names d
      .ok (insert ++ returning)) := fun _ => (returningClause_failsAs hP).bind_ok
  cases written.isEmpty with
  | true => exact hreturning _
  | false => exact (columnTexts_failsAs hP _).bind fun _ => hreturning _

theorem updateStatement_failsAs (identity : Record) (written : List (Field × Value)) :
    FailsAs P (updateStatement e names d identity written) :=
  (columnTexts_failsAs hP _).bind fun _ =>
    ((identityFilter identity).whereClause_failsAs hP).bind fun _ =>
      (returningClause_failsAs hP).bind_ok

theorem deleteStatement_failsAs (identity : Record) :
    FailsAs P (deleteStatement e names identity) :=
  ((identityFilter identity).whereClause_failsAs hP).bind_ok

theorem bulkStatement_failsAs (fields : List Field) (rows : List (List (Field × Value))) :
    FailsAs P (bulkStatement names fields rows) :=
  (columnTexts_failsAs hP _).bind_ok

end Store

end

end EntitySql
