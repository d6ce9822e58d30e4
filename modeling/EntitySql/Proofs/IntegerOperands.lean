import EntitySql.Proofs.Bindings
import EntitySql.Proofs.FilterDocuments
import EntitySql.Proofs.Meaning
import EntitySql.Proofs.Structural
import EntitySql.Proofs.WordFloats

/-!
# Whole numbers in the documents of filters

The document of a filter may ask for a whole number that no signed word holds.
Such a number travels as a float, and the field that it is asked of makes a word
of it again, or fails. Between these two steps a number may have become another
one: from `2 ^ 63` to `2 ^ 63 + 1024` all numbers are asked for as the greatest
signed word. All others are asked for as they are or not at all.

- `Saturates`, `boundWord?`: these numbers, and the word that stands for a number.
- `Converter.toStored_ofJson_int`: what a field of whole numbers makes of one.
- `Filter.OperandForm`: the documents that ask one field for a number.
- `Filter.AsksFor.exists_compile_eq`: the test of a field is compiled once its
  values are stored.
- `Filter.binds_integer_operand`: the value that is sent for a number.
-/

namespace EntitySql

/-! ## Words for numbers -/

/-- The number fits no signed word, but the greatest one is taken for it. -/
abbrev Saturates (n : Int) : Prop := 9223372036854775808 ≤ n ∧ n ≤ 9223372036854776832

/-- The word that a field of whole numbers makes of a number in a document. -/
def boundWord? (n : Int) : Option Int64 :=
  if FitsSigned n then some (Int64.ofInt n)
  else if n ≤ 9223372036854776832 then some Int64.maxValue else none

/-- There is a word for all numbers that are not too large. -/
theorem isSome_boundWord? (n : Int) (fits : FitsWord n) :
    (boundWord? n).isSome ↔ n ≤ 9223372036854776832 := by
  unfold boundWord?
  split_ifs <;> simp <;> omega

/-- The word of a number is the number, if the greatest word is not taken for it. -/
theorem boundWord?_eq_some {n : Int} {m : Int64} (fits : FitsWord n) (h : boundWord? n = some m) :
    (¬ Saturates n → m.toInt = n) ∧ (Saturates n → m = Int64.maxValue) := by
  unfold boundWord? at h
  split_ifs at h with hsigned hrounded
  · cases h
    refine ⟨fun _ => Int64.toInt_ofInt_of_le hsigned.1 hsigned.2, fun hsaturates => ?_⟩
    omega
  · cases h
    refine ⟨fun hsaturates => ?_, fun _ => rfl⟩
    omega

namespace Converter

/-- A field of whole numbers takes the word of a number, or fails. -/
theorem toStored_ofJson_int {n : Int} (fits : FitsWord n) :
    integer.toStored (Value.ofJson (.number (.int n fits))) =
      orMismatch "integer" (.float (Float.ofInt n)) ((boundWord? n).map .integer) := by
  show toInteger (if FitsSigned n then _ else _) = _
  by_cases hsigned : FitsSigned n
  · rw [if_pos hsigned, boundWord?, if_pos hsigned]
    rfl
  · rw [if_neg hsigned, boundWord?, if_neg hsigned, toInteger,
      Value.int64OfFloat?_ofInt (by omega) fits.2]

end Converter

/-! ## Failures -/

/-- A value is not of the wanted kind. -/
def Failure.IsConversion (failure : Failure) : Prop := ∃ detail, failure = .conversion detail

/-- A field of whole numbers fails only if it is given no number. -/
theorem Converter.integer_failsAs (v : Value) :
    FailsAs Failure.IsConversion (integer.toStored v) := by
  have hmade : ∀ made, FailsAs Failure.IsConversion (orMismatch "integer" v made) := by
    intro made
    cases made with
    | none => exact .of_error ⟨_, rfl⟩
    | some w => exact .of_ok w
  cases v with
  | null => exact .of_ok _
  | integer n => exact .of_ok _
  | boolean b => exact .of_ok _
  | float x => exact hmade _
  | text s => exact hmade _
  | timestamp t => exact .of_error ⟨_, rfl⟩
  | json j => exact .of_error ⟨_, rfl⟩

theorem Condition.storedList_integer_failsAs : ∀ vs : List Value,
    FailsAs Failure.IsConversion (storedList .integer vs)
  | [] => .of_ok _
  | v :: vs => (Converter.integer_failsAs v).bind fun _ => (storedList_integer_failsAs vs).bind_ok

theorem Condition.exists_storedList_iff {c : Converter} : ∀ vs : List Value,
    (∃ stored, storedList c vs = .ok stored) ↔ ∀ v ∈ vs, ∃ w, c.toStored v = .ok w
  | [] => by simp [storedList]
  | v :: vs => by
    rw [List.forall_mem_cons, ← exists_storedList_iff vs, storedList]
    cases c.toStored v with
    | error failure => simp [bind, Except.bind]
    | ok w => cases storedList c vs <;> simp [bind, Except.bind]

/-! ## Tests of one field -/

/-- A comparison with a value that is not NULL makes sense. -/
theorem Predicate.exists_ofCompare (key column : String) (allowNull : Bool) (op : CompareOp)
    {w : Value} (hw : w.isNull = false) : ∃ p, ofCompare key column allowNull op w = .ok p := by
  unfold ofCompare
  rw [hw, if_neg Bool.false_ne_true]
  split <;> exact ⟨_, rfl⟩

namespace Filter

/-- The filter asks a field for values, one of them that is not NULL or a list of some. -/
inductive AsksFor (key : String) : List Value → Filter → Prop
  | compare (op : CompareOp) {v : Value} (h : v.isNull = false) :
    AsksFor key [v] (.compare key op v)
  | among (negated : Bool) {vs : List Value} (h : vs ≠ []) : AsksFor key vs (.among key negated vs)

variable {e : Entity} {names : EntityNames} {key column : String} {field : Field} {f : Filter}
  {vs : List Value}

namespace AsksFor

variable (h : f.AsksFor key vs) (hlook : Condition.lookUp e names key = .ok (field, column))

include h hlook

/-- The test of a field is compiled once its values are stored, and always has a text. -/
theorem exists_compile_eq : ∃ template : Bool × List Value → Template,
    f.compile e names = (do
      let stored ← Condition.storedList field.converter vs
      .ok (some (template stored))) := by
  cases h with
  | compare op hv =>
    rename_i v
    rw [compile, Condition.ofFilter, hlook, ok_bind]
    dsimp only
    rw [Condition.storedList]
    cases hw : field.converter.toStored v with
    | error failure => exact ⟨fun _ => [], rfl⟩
    | ok w =>
      -- the value that is stored is not NULL either, so that the comparison makes sense
      have hnull := (Converter.isNull_of_toStored hw).trans hv
      obtain ⟨p, hp⟩ := Predicate.exists_ofCompare key column field.allowNull op hnull
      refine ⟨fun _ => p.template, ?_⟩
      rw [ok_bind, hp]
      rfl
  | among negated hne =>
    have hempty : vs.isEmpty = false := List.isEmpty_eq_false_iff.2 hne
    refine ⟨fun stored => Predicate.template (
      if negated then .ofNoneOf column field.allowNull stored.1 stored.2
      else .ofOneOf column stored.1 stored.2), ?_⟩
    rw [compile, Condition.ofFilter, hlook, ok_bind]
    dsimp only
    rw [hempty]
    cases Condition.storedList field.converter vs with
    | error failure => rfl
    | ok stored => cases negated <;> rfl

/-- The test of a field is compiled exactly if all its values can be stored. -/
theorem exists_compile_iff :
    (∃ compiled, f.compile e names = .ok compiled) ↔
      ∀ v ∈ vs, ∃ w, field.converter.toStored v = .ok w := by
  obtain ⟨template, hcompile⟩ := h.exists_compile_eq hlook
  rw [hcompile, ← Condition.exists_storedList_iff]
  cases Condition.storedList field.converter vs <;> simp [bind, Except.bind]

theorem exists_values {compiled : Option Template} (hcompiled : f.compile e names = .ok compiled) :
    ∃ t, compiled = some t ∧ t.values = e.storedFor key vs := by
  have hsends : f.sends e names = e.storedFor key vs := by
    cases h <;> rw [sends]
  obtain ⟨template, hcompile⟩ := h.exists_compile_eq hlook
  obtain ⟨stored, -, hstored⟩ := bind_eq_ok.1 (hcompile.symm.trans hcompiled)
  cases hstored
  have hclause : f.whereClause e names = .ok (.text " where " :: template stored) := by
    rw [whereClause, hcompiled]
    rfl
  exact ⟨_, rfl, (Filter.values_whereClause hclause).trans hsends⟩

/-- The test of a field whose values can be stored is compiled and binds the stored values, but for
NULL, which is written as a word. -/
theorem exists_template (hstored : ∀ v ∈ vs, ∃ w, field.converter.toStored v = .ok w) :
    ∃ t, f.compile e names = .ok (some t) ∧
      t.values = (vs.map field.converter.stored).filter fun w => !w.isNull := by
  obtain ⟨compiled, hcompile⟩ := (h.exists_compile_iff hlook).2 hstored
  obtain ⟨t, rfl, hvalues⟩ := h.exists_values hlook hcompile
  exact ⟨t, hcompile, hvalues.trans (Entity.storedFor_of_lookUp hlook vs)⟩

/-- The test of a field of whole numbers fails only if it asks for a value that is no number. -/
theorem compile_failsAs (hconverter : field.converter = .integer) :
    FailsAs Failure.IsConversion (f.compile e names) := by
  obtain ⟨template, hcompile⟩ := h.exists_compile_eq hlook
  rw [hcompile, hconverter]
  exact (Condition.storedList_integer_failsAs vs).bind_ok

end AsksFor

/-! ## Documents of one field -/

/-- How a document asks a field for an operand: for it alone, or for it between others. -/
inductive OperandForm where
  /-- What the field equals. -/
  | plain
  | compared (op : CompareOp)
  /-- One of the values that the field has. -/
  | listed (before after : List Json)
  /-- One of the values that the field has, or does not have, by the name of the test. -/
  | among (negated : Bool) (before after : List Json)
  /-- One of the values that the field is unequal to. -/
  | unequal (before after : List Json)

namespace OperandForm

/-- The operands before. -/
def before : OperandForm → List Json
  | .listed before _ | .among _ before _ | .unequal before _ => before
  | .plain | .compared _ => []

/-- The operands after. -/
def after : OperandForm → List Json
  | .listed _ after | .among _ _ after | .unequal _ after => after
  | .plain | .compared _ => []

/-- All operands. -/
def operands (form : OperandForm) (j : Json) : List Json := form.before ++ j :: form.after

/-- The document that asks a field for an operand. -/
def document (form : OperandForm) (key : String) (j : Json) : Json :=
  match form with
  | .plain => member key j
  | .compared op => member key (member op.name j)
  | .listed .. => member key (.array (form.operands j))
  | .among negated .. =>
    member key (member (if negated then "$nin" else "$in") (.array (form.operands j)))
  | .unequal .. => member key (member "$ne" (.array (form.operands j)))

/-- A document that asks for a number is read as a test of the field. -/
theorem ofJson_document {key : String} (h : isOperatorKey key = false) (form : OperandForm)
    (n : JsonNumber) :
    ∃ f, ofJson (form.document key (.number n)) = .ok f ∧
      f.AsksFor key ((form.operands (.number n)).map Value.ofJson) := by
  have hnull : (Value.ofJson (.number n)).isNull = false := by
    show (Value.ofJsonNumber n).isNull = false
    cases n with
    | int n fits =>
      rw [Value.ofJsonNumber]
      split <;> rfl
    | float x finite => rfl
  have hlist : ∀ items : OperandForm, (items.operands (.number n)).map Value.ofJson ≠ [] := by
    intro items
    simp [operands]
  cases form with
  | plain => exact ⟨_, (ofJson_member h _).trans rfl, .compare .eq hnull⟩
  | compared op =>
    have hname : isOperatorKey op.name = true := by cases op <;> rfl
    refine ⟨.compare key op (Value.ofJson (.number n)), ofJson_operator h hname ?_,
      .compare op hnull⟩
    cases op <;> rfl
  | listed before after => exact ⟨_, (ofJson_member h _).trans rfl, .among false (hlist _)⟩
  | among negated before after =>
    cases negated with
    | false => exact ⟨_, ofJson_operator h rfl rfl, .among false (hlist (.among false _ _))⟩
    | true => exact ⟨_, ofJson_operator h rfl rfl, .among true (hlist (.among true _ _))⟩
  | unequal before after =>
    exact ⟨_, ofJson_operator h rfl rfl, .among true (hlist (.unequal _ _))⟩

end OperandForm

/-! ## What is sent for a number -/

/-- The stored values of a list around a value that is stored as a whole number. -/
theorem storedFor_operands {e : Entity} {names : EntityNames} {key column : String} {field : Field}
    (hlook : Condition.lookUp e names key = .ok (field, column)) {form : OperandForm} {j : Json}
    {m : Int64} (hm : field.converter.toStored (Value.ofJson j) = .ok (.integer m)) :
    e.storedFor key ((form.operands j).map Value.ofJson) =
      e.storedFor key (form.before.map Value.ofJson) ++
        .integer m :: e.storedFor key (form.after.map Value.ofJson) := by
  simp only [Entity.storedFor_of_lookUp hlook]
  simp [OperandForm.operands, Converter.stored_of_toStored hm, Value.isNull]

/-- A document that asks a field of whole numbers for a number of a word is read. What is read fails
to compile only if it asks for something that is no number of a signed word, and otherwise sends a
number for the one that was asked for, between the values of the other operands. This is the same
number unless it is one of those from `2 ^ 63` to `2 ^ 63 + 1024`, for which the greatest signed
word is sent; for greater ones nothing is sent. -/
theorem binds_integer_operand {e : Entity} {names : EntityNames} {key column : String}
    {field : Field} (hlook : Condition.lookUp e names key = .ok (field, column))
    (hconverter : field.converter = .integer) (hkey : isOperatorKey key = false)
    (form : OperandForm) {n : Int} (fits : FitsWord n) :
    ∃ f, ofJson (form.document key (.number (.int n fits))) = .ok f ∧
      FailsAs Failure.IsConversion (f.compile e names) ∧
      (∀ compiled, f.compile e names = .ok compiled → ∃ t m, compiled = some t ∧
        t.values = e.storedFor key (form.before.map Value.ofJson) ++
          .integer m :: e.storedFor key (form.after.map Value.ofJson) ∧
        (¬ Saturates n → m.toInt = n) ∧ (Saturates n → m = Int64.maxValue)) ∧
      ((∃ compiled, f.compile e names = .ok compiled) ↔ n ≤ 9223372036854776832 ∧
        ∀ j ∈ form.before ++ form.after,
          ∃ w, Converter.integer.toStored (Value.ofJson j) = .ok w) := by
  obtain ⟨f, hread, hasks⟩ := OperandForm.ofJson_document hkey form (.int n fits)
  have hstored := Converter.toStored_ofJson_int fits
  have hconverted :
      (∃ w, Converter.integer.toStored (Value.ofJson (.number (.int n fits))) = .ok w) ↔
        n ≤ 9223372036854776832 := by
    rw [hstored, ← isSome_boundWord? n fits]
    cases boundWord? n <;> simp [Converter.orMismatch]
  refine ⟨f, hread, hasks.compile_failsAs hlook hconverter, fun compiled hcompiled => ?_, ?_⟩
  · obtain ⟨t, rfl, hvalues⟩ := hasks.exists_values hlook hcompiled
    -- it was compiled, so there is a word for the number
    have hall := (hasks.exists_compile_iff hlook).1 ⟨_, hcompiled⟩
    rw [hconverter] at hall
    obtain ⟨w, hw⟩ := hall (Value.ofJson (.number (.int n fits)))
      (List.mem_map_of_mem (by simp [OperandForm.operands]))
    cases hbound : boundWord? n with
    | none =>
      rw [hstored, hbound] at hw
      cases hw
    | some m =>
      rw [hbound] at hstored
      have hm : field.converter.toStored (Value.ofJson (.number (.int n fits))) =
          .ok (.integer m) := by
        rw [hconverter, hstored]
        rfl
      exact ⟨t, m, rfl, hvalues.trans (storedFor_operands hlook hm), boundWord?_eq_some fits hbound⟩
  · rw [hasks.exists_compile_iff hlook, hconverter, ← hconverted]
    simp only [OperandForm.operands, List.forall_mem_map, List.mem_append, List.mem_cons]
    constructor
    · intro hall
      exact ⟨hall _ (.inr (.inl rfl)), fun j hj => hall j (hj.imp_right .inr)⟩
    · rintro ⟨hnumber, hothers⟩ j (hj | rfl | hj)
      · exact hothers j (.inl hj)
      · exact hnumber
      · exact hothers j (.inr hj)

/-- The greatest signed word is asked for as it is, among other operands. -/
theorem binds_integer_operand_greatest :
    ∃ f t, ofJson (member "id" (member "$in" (.array [.text "7",
        .number (.int 9223372036854775807 (by decide)), .null]))) = .ok f ∧
      f.compile person (.resolve person .bare) = .ok (some t) ∧
      t.values = [.integer 7, .integer Int64.maxValue] := by
  obtain ⟨f, hread, -, hvalues, hiff⟩ :=
    @binds_integer_operand person (.resolve person .bare) "id" "id" (.ofType "id" .integer) rfl rfl
      rfl (.among false [.text "7"] [.null]) 9223372036854775807 (by decide)
  have hothers : ∀ j ∈ [Json.text "7"] ++ [.null],
      ∃ w, Converter.integer.toStored (Value.ofJson j) = .ok w := by
    intro j hj
    rcases List.mem_pair.1 hj with rfl | rfl
    · exact ⟨.integer 7, rfl⟩
    · exact ⟨.null, rfl⟩
  obtain ⟨compiled, hcompiled⟩ := hiff.2 ⟨by decide, hothers⟩
  obtain ⟨t, m, rfl, hsent, hsame, -⟩ := hvalues compiled hcompiled
  have hm : m = Int64.maxValue := Int64.toInt_inj.1 (hsame (by decide))
  subst hm
  exact ⟨f, t, hread, hcompiled, hsent⟩

/-- The first number beyond the signed words is asked for as another number. -/
theorem binds_integer_operand_saturated :
    ∃ f t, ofJson (member "id" (.number (.int 9223372036854775808 (by decide)))) = .ok f ∧
      f.compile person (.resolve person .bare) = .ok (some t) ∧
      t.values = [.integer Int64.maxValue] ∧ Int64.maxValue.toInt ≠ 9223372036854775808 := by
  have hlook : Condition.lookUp person (.resolve person .bare) "id" =
      .ok (.ofType "id" .integer, "id") := rfl
  have hstored : (Field.ofType "id" .integer).converter.toStored
      (Value.ofJson (.number (.int 9223372036854775808 (by decide)))) =
        .ok (.integer Int64.maxValue) := Converter.toStored_ofJson_int _
  refine ⟨.compare "id" .eq (Value.ofJson (.number (.int 9223372036854775808 (by decide)))),
    [.text "id = ", .param (.integer Int64.maxValue)], (ofJson_member rfl _).trans rfl, ?_, rfl,
    by decide⟩
  rw [compile, Condition.ofFilter, hlook, ok_bind]
  dsimp only
  rw [hstored]
  rfl

end Filter

end EntitySql
