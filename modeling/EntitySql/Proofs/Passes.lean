import EntitySql.Proofs.Meaning
import EntitySql.Proofs.RawSteps

/-!
# Passes over a filter

A filter is compiled in three passes: it is looked through, its raw filters are
awaited together, and its text is written while its values are bound. Awaiting
raw filters may take work in the world outside, and binding values changes a
command; this module says when either of them happens.

Which failure is reported, if several raw filters fail, is a matter of how long
each of them takes. It is the one that is found first, and that of the first in
the tree only if none of them waits, or if they are too many for rounds.

- `Filter.CompilesOn`: the three passes, in a world and for a command, with raw
  filters that are awaited together.
- `Filter.compilesOn_ofSteps_iff`: with raw filters that are made of steps, the
  passes come to what is compiled for the command.
- `Filter.compile_fails_in_order`: a filter has a text unless a check or a raw
  filter fails; a failed check is found before any waiting, and any failure
  before the command is touched.
-/

namespace EntitySql

section

variable {W C : Type}

/-- Writes a template for a command, which binds each value and gives its token. -/
def Template.writeFor (bind : C → Value → C × String) : C → Template → C × String
  | c, [] => (c, "")
  | c, .text s :: rest => ((writeFor bind c rest).1, s ++ (writeFor bind c rest).2)
  | c, .param v :: rest =>
    ((writeFor bind (bind c v).1 rest).1, (bind c v).2 ++ (writeFor bind (bind c v).1 rest).2)

/-- The command after what was compiled is written for it, with the text; nothing is written for
every row. -/
def Template.writeIfAny (bind : C → Value → C × String) (c : C) :
    Option Template → C × Option String
  | none => (c, none)
  | some t => ((t.writeFor bind c).1, some (t.writeFor bind c).2)

/-- An outcome of the compilation of a filter in a world and for a command: its text, none if the
filter holds for every row, and the world and the command afterwards. -/
inductive Filter.CompilesOn (f : Filter) (build : Builder W) (bind : C → Value → C × String)
    (e : Entity) (names : EntityNames) (w : W) (c : C) :
    Except Failure (Option String) → W → C → Prop
  /-- The filter is not what the entity can be asked for. -/
  | refused {failure : Failure} (h : Condition.ofFilter e names f = .error failure) :
    CompilesOn f build bind e names w c (.error failure) w c
  /-- A raw filter has failed. -/
  | failed {condition : Condition (List RawPart)} {slots : List (Slot build.Work)} {w' : W}
    {failure : Failure} (hcondition : Condition.ofFilter e names f = .ok condition)
    (hawaits : build.Awaits (build.slots condition.raws, w) (slots, w'))
    (hends : Ends slots (.error failure)) :
    CompilesOn f build bind e names w c (.error failure) w' c
  /-- All raw filters have come to their templates, and the text is written. -/
  | written {condition : Condition (List RawPart)} {slots : List (Slot build.Work)} {w' : W}
    {texts : List Template} {c' : C} {text? : Option String}
    (hcondition : Condition.ofFilter e names f = .ok condition)
    (hawaits : build.Awaits (build.slots condition.raws, w) (slots, w'))
    (hends : Ends slots (.ok texts))
    (hwritten : Template.writeIfAny bind c (condition.fill texts).1.simplify.template? =
      (c', text?)) :
    CompilesOn f build bind e names w c (.ok text?) w' c'

/-! ### Any builder -/

namespace Filter

variable {f : Filter} {build : Builder W} {bind : C → Value → C × String} {e : Entity}
  {q : Quoting} {w w' : W} {c c' : C}

/-- A filter that fails a check fails with the first of them, before anything is done. -/
theorem compilesOn_of_fault {failure : Failure}
    (h : f.checks.findSome? (Check.failure? e) = some failure)
    {result : Except Failure (Option String)} :
    f.CompilesOn build bind e (EntityNames.resolve e q) w c result w' c' ↔
      result = .error failure ∧ w' = w ∧ c' = c := by
  rw [← fault_ofFilter (q := q), fault?_eq_some] at h
  constructor
  · intro hcompiles
    cases hcompiles with
    | refused hrefused =>
      cases h.symm.trans hrefused
      exact ⟨rfl, rfl, rfl⟩
    | failed hcondition _ _ => cases h.symm.trans hcondition
    | written hcondition _ _ _ => cases h.symm.trans hcondition
  · rintro ⟨rfl, rfl, rfl⟩
    exact .refused h

variable (h : f.checks.findSome? (Check.failure? e) = none)

include h

/-- A filter that passes all checks fails with the failure that is found among its raw filters, and
leaves the command as it is. -/
theorem compilesOn_error_iff {failure : Failure} :
    f.CompilesOn build bind e (EntityNames.resolve e q) w c (.error failure) w' c' ↔
      c' = c ∧ ∃ slots, build.Awaits (build.slots f.raws, w) (slots, w') ∧
        Slot.found? slots = some failure := by
  rw [← fault_ofFilter (q := q), fault?_eq_none] at h
  obtain ⟨condition, hcondition⟩ := h
  rw [← Condition.raws_of_ofFilter hcondition]
  constructor
  · intro hcompiles
    cases hcompiles with
    | refused hrefused => cases hcondition.symm.trans hrefused
    | failed hcondition' hawaits hends =>
      cases hcondition.symm.trans hcondition'
      cases hends with
      | failed hfound => exact ⟨rfl, _, hawaits, hfound⟩
  · rintro ⟨rfl, slots, hawaits, hfound⟩
    exact .failed hcondition hawaits (.failed hfound)

/-- A filter that passes all checks has a text exactly if all raw filters come to their
templates. -/
theorem exists_compilesOn_ok_iff :
    (∃ text? c', f.CompilesOn build bind e (EntityNames.resolve e q) w c (.ok text?) w' c') ↔
      ∃ ts : List Template,
        build.Awaits (build.slots f.raws, w) (ts.map fun t => .finished (.ok t), w') := by
  rw [← fault_ofFilter (q := q), fault?_eq_none] at h
  obtain ⟨condition, hcondition⟩ := h
  rw [← Condition.raws_of_ofFilter hcondition]
  constructor
  · rintro ⟨text?, c', hcompiles⟩
    cases hcompiles with
    | written hcondition' hawaits hends _ =>
      cases hcondition.symm.trans hcondition'
      cases hends with
      | all hall => exact ⟨_, hall ▸ hawaits⟩
  · rintro ⟨ts, hawaits⟩
    exact ⟨_, _, .written hcondition hawaits (.all rfl) rfl⟩

end Filter

/-! ### Raw filters that are made of steps -/

namespace Filter

variable {f : Filter} {bind : C → Value → C × String} {e : Entity} {names : EntityNames}
  {w w' : W} {c c' : C}

/-- What is compiled is written for a command; by a failure the command is left as it is. -/
def compileFor (f : Filter) (bind : C → Value → C × String) (e : Entity) (names : EntityNames)
    (c : C) : Except Failure (Option String) × C :=
  match f.compile e names with
  | .error failure => (.error failure, c)
  | .ok text? => (.ok (Template.writeIfAny bind c text?).2, (Template.writeIfAny bind c text?).1)

theorem compileFor_of_error {failure : Failure} (h : f.compile e names = .error failure) :
    f.compileFor bind e names c = (.error failure, c) := by
  rw [compileFor, h]

theorem compileFor_of_ok {text? : Option Template} (h : f.compile e names = .ok text?) :
    f.compileFor bind e names c =
      (.ok (Template.writeIfAny bind c text?).2, (Template.writeIfAny bind c text?).1) := by
  rw [compileFor, h]

section

variable {condition : Condition (List RawPart)}
  (hcondition : Condition.ofFilter e names f = .ok condition)

include hcondition

/-- A failure of raw filters that are awaited is that of the filter. -/
theorem compile_of_joinAll_error {failure : Failure}
    (h : Job.joinAll (condition.raws.map (RawPart.build names)) = .error failure) :
    f.compile e names = .error failure := by
  rw [compile, hcondition, ok_bind, Condition.await, h, error_bind, error_bind]

/-- Raw filters that come to their templates give the filter its text. -/
theorem compile_of_joinAll_ok {ts : List Template}
    (h : Job.joinAll (condition.raws.map (RawPart.build names)) = .ok ts) :
    f.compile e names = .ok (condition.fill ts).1.simplify.template? := by
  rw [compile, hcondition, ok_bind, Condition.await, h, ok_bind, ok_bind]

end

/-- With raw filters that are made of steps, the passes come to what is compiled for the command,
and leave the world as it is. -/
theorem compilesOn_ofSteps_iff {result : Except Failure (Option String)} :
    f.CompilesOn (.ofSteps names W) bind e names w c result w' c' ↔
      w' = w ∧ (result, c') = f.compileFor bind e names c := by
  constructor
  · intro hcompiles
    cases hcompiles with
    | refused hrefused =>
      refine ⟨rfl, (compileFor_of_error ?_).symm⟩
      rw [compile, hrefused, error_bind]
    | failed hcondition hawaits hends =>
      obtain ⟨rfl, hjoin⟩ := Builder.ends_ofSteps_iff.1 ⟨_, hawaits, hends⟩
      exact ⟨rfl, (compileFor_of_error (compile_of_joinAll_error hcondition hjoin)).symm⟩
    | written hcondition hawaits hends hwritten =>
      obtain ⟨rfl, hjoin⟩ := Builder.ends_ofSteps_iff.1 ⟨_, hawaits, hends⟩
      refine ⟨rfl, ?_⟩
      rw [compileFor_of_ok (compile_of_joinAll_ok hcondition hjoin), hwritten]
  · rintro ⟨rfl, hresult⟩
    cases hcondition : Condition.ofFilter e names f with
    | error failure =>
      have hcompile : f.compile e names = .error failure := by
        rw [compile, hcondition, error_bind]
      rw [compileFor_of_error hcompile] at hresult
      cases hresult
      exact .refused hcondition
    | ok condition =>
      obtain ⟨slots, hawaits, hends⟩ : ∃ slots, (Builder.ofSteps names W).Awaits
          ((Builder.ofSteps names W).slots condition.raws, w') (slots, w') ∧
            Ends slots (Job.joinAll (condition.raws.map (RawPart.build names))) :=
        Builder.ends_ofSteps_iff.2 ⟨rfl, rfl⟩
      cases hjoin : Job.joinAll (condition.raws.map (RawPart.build names)) with
      | error failure =>
        rw [hjoin] at hends
        rw [compileFor_of_error (compile_of_joinAll_error hcondition hjoin)] at hresult
        cases hresult
        exact .failed hcondition hawaits hends
      | ok ts =>
        rw [hjoin] at hends
        rw [compileFor_of_ok (compile_of_joinAll_ok hcondition hjoin)] at hresult
        cases hresult
        exact .written hcondition hawaits hends rfl

end Filter

end

/-! ### When a compilation fails -/

/-- Of raw filters that do not wait, or that are too many for rounds, the first that fails is
found. -/
theorem RawPart.isFirstBy_builds {names : EntityNames} {rs : List (List RawPart)} {count : Nat}
    (h : (∀ parts ∈ rs, .wait ∉ parts) ∨ Job.mostInRounds < count) (failure : Failure) :
    Job.IsFirstBy (Job.turnAmong count) (rs.map (build names)) failure ↔
      rs.findSome? (fun parts => fault? (template names parts)) = some failure := by
  have hturn : ∀ t ∈ rs.map (build names), Job.turnAmong count t = 0 := by
    intro t ht
    rcases h with hwaits | hmany
    · obtain ⟨parts, hparts, rfl⟩ := List.mem_map.1 ht
      rw [Job.turnAmong, build, Job.waits_andThen, waits_work (hwaits parts hparts), ite_self]
    · exact Job.turnAmong_of_lt hmany t
  have hsame : Job.IsFirstBy (Job.turnAmong count) (rs.map (build names)) failure ↔
      Job.IsFirstBy (fun _ => 0) (rs.map (build names)) failure :=
    ⟨.of_turns fun t ht => (hturn t ht).symm, .of_turns hturn⟩
  rw [hsame, Job.isFirstBy_same, List.findSome?_map]
  simp only [Function.comp_def, result_build]

/-- Raw filters that have come to their templates have written well-formed texts. -/
theorem Builder.wellFormed_of_awaits {W : Type} {build : Builder W} {rs : List (List RawPart)}
    {ts : List Template} {w w' : W}
    (h : build.Awaits (build.slots rs, w) (ts.map fun t => .finished (.ok t), w')) :
    List.Forall₂ (fun parts t => ∃ r, build.Writes parts r ∧ r.IsWellFormed ∧ piecesOf r = .ok t)
      rs ts := by
  refine (List.forall₂_map_right_iff.1 (writes_of_steps h.steps)).imp fun parts t hkeeps => ?_
  obtain ⟨r, hwrites, hpieces⟩ := hkeeps
  exact ⟨r, hwrites, fault_piecesOf.1 (fault?_eq_none.2 ⟨t, hpieces⟩), hpieces⟩

/-- When the compilation of a filter fails, with which failure, and what was done by then. -/
structure Filter.FailsInOrder (f : Filter) (e : Entity) (names : EntityNames) : Prop where
  /-- The filter has a text exactly if the entity has all that the filter asks of it, wherever in
  the tree, and each raw filter writes a well-formed text. -/
  compiles : (∃ t, f.compile e names = .ok t) ↔
    (∀ check ∈ f.checks, check.Passes e) ∧
      ∀ parts ∈ f.raws, ∃ r, RawPart.write names parts = .ok r ∧ r.IsWellFormed
  /-- Otherwise the failure is that of the first check that fails, or else of the raw filter that
  has the first turn to end: the one that waits least, the first of these in the tree. -/
  fails : ∀ failure, f.compile e names = .error failure ↔
    f.checks.findSome? (Check.failure? e) = some failure ∨
      (∀ check ∈ f.checks, check.Passes e) ∧
        Job.IsFirstBy (Job.turnAmong f.raws.length) (f.raws.map (RawPart.build names)) failure
  /-- If no raw filter waits, or if they are too many for rounds, it is the first in the tree that
  fails. -/
  fails_in_tree : (∀ parts ∈ f.raws, .wait ∉ parts) ∨ Job.mostInRounds < f.raws.length →
    ∀ failure, f.compile e names = .error failure ↔
      f.checks.findSome? (Check.failure? e) = some failure ∨
        (∀ check ∈ f.checks, check.Passes e) ∧
          f.raws.findSome? (fun parts => fault? (RawPart.template names parts)) = some failure
  /-- Whoever builds raw filters, a check that fails is found before any work on them is done, and
  before anything is bound. -/
  refused : ∀ {W C : Type} (build : Builder W) (bind : C → Value → C × String) (w w' : W)
    (c c' : C) (result : Except Failure (Option String)) (failure : Failure),
    f.checks.findSome? (Check.failure? e) = some failure →
      (f.CompilesOn build bind e names w c result w' c' ↔
        result = .error failure ∧ w' = w ∧ c' = c)
  /-- If all checks pass, the filter fails with the failure that is found while its raw filters are
  awaited together, and with that only; nothing is bound. -/
  failed : ∀ {W C : Type} (build : Builder W) (bind : C → Value → C × String) (w w' : W)
    (c c' : C) (failure : Failure), (∀ check ∈ f.checks, check.Passes e) →
      (f.CompilesOn build bind e names w c (.error failure) w' c' ↔
        c' = c ∧ ∃ slots, build.Awaits (build.slots f.raws, w) (slots, w') ∧
          Slot.found? slots = some failure)
  /-- If all checks pass, there is a text exactly if all raw filters come to well-formed texts. -/
  written : ∀ {W C : Type} (build : Builder W) (bind : C → Value → C × String) (w w' : W)
    (c : C), (∀ check ∈ f.checks, check.Passes e) →
      ((∃ text? c', f.CompilesOn build bind e names w c (.ok text?) w' c') ↔
        ∃ ts : List Template,
          build.Awaits (build.slots f.raws, w) (ts.map fun t => .finished (.ok t), w') ∧
          List.Forall₂ (fun parts t => ∃ r, build.Writes parts r ∧ r.IsWellFormed ∧
            piecesOf r = .ok t) f.raws ts)
  /-- With raw filters that are made of steps, all of this comes to what is compiled for the
  command, and the world is left as it is. -/
  stepped : ∀ {W C : Type} (bind : C → Value → C × String) (w w' : W) (c c' : C)
    (result : Except Failure (Option String)),
    f.CompilesOn (.ofSteps names W) bind e names w c result w' c' ↔
      w' = w ∧ (result, c') = f.compileFor bind e names c

/-- The compilation of a filter fails exactly if a check or a raw filter fails, checks first and in
the order of the tree. Of raw filters that fail, it reports the one that is found first while they
are awaited together. By a failed check, nothing was done to build raw filters, and by any failure,
no value was bound. -/
theorem Filter.compile_fails_in_order (f : Filter) (e : Entity) (q : Quoting) :
    f.FailsInOrder e (EntityNames.resolve e q) := by
  have hpass : f.checks.findSome? (Check.failure? e) = none ↔
      ∀ check ∈ f.checks, check.Passes e := by
    simp only [List.findSome?_eq_none_iff, Check.failure?_eq_none]
  constructor
  · simp only [exists_compile_iff, hpass, fault_template]
  · intro failure
    rw [compile_eq_error, hpass]
  · intro h failure
    rw [compile_eq_error, hpass, RawPart.isFirstBy_builds h]
  · intro W C build bind w w' c c' result failure hfault
    exact compilesOn_of_fault hfault
  · intro W C build bind w w' c c' failure hchecks
    exact compilesOn_error_iff (hpass.2 hchecks)
  · intro W C build bind w w' c hchecks
    rw [exists_compilesOn_ok_iff (hpass.2 hchecks)]
    exact exists_congr fun ts =>
      ⟨fun hawaits => ⟨hawaits, Builder.wellFormed_of_awaits hawaits⟩, And.left⟩
  · intro W C bind w w' c c' result
    exact compilesOn_ofSteps_iff

/-- Two raw filters that fail, the first of them after a wait. -/
def lateFailure : Filter := .and [.raw [.wait, .fail "late"], .raw [.fail "early"]]

/-- The failure that comes early is reported, though the one that comes late is the first in the
tree. -/
theorem Filter.compile_lateFailure :
    lateFailure.checks.findSome? (Check.failure? person) = none ∧
      lateFailure.raws.findSome? (fun parts =>
        fault? (RawPart.template (.resolve person .bare) parts)) = some (.conversion "late") ∧
      lateFailure.compile person (.resolve person .bare) = .error (.conversion "early") :=
  ⟨rfl, rfl, rfl⟩

end EntitySql
