import EntitySql.Failure
import Mathlib.Data.List.Forall2

/-!
# Outcomes in sequence

Nearly every function of the library is a sequence of steps each of which may
fail. These lemmas take such a sequence apart.

- `bind_eq_ok`: a sequence succeeds exactly if its steps do.
- `bind_eq_error`: a sequence fails with the failure of its first failing step.
- `toOption_eq_some`: what is left of an outcome if its failure is forgotten.
- `fault?`: the failure of an outcome, as far as there is one.
- `mapM_eq_ok_iff`, `exists_of_mapM_eq_error`: the same for a step that is taken
  for each element of a list.
-/

namespace EntitySql

variable {ε α β : Type}

/-- A sequence of two steps succeeds exactly if both steps do. -/
theorem bind_eq_ok {x : Except ε α} {f : α → Except ε β} {b : β} :
    (x >>= f) = .ok b ↔ ∃ a, x = .ok a ∧ f a = .ok b := by
  cases x with
  | error e => simp [bind, Except.bind]
  | ok a => simp [bind, Except.bind]

/-- A sequence of two steps fails with the failure of the first step that fails. -/
theorem bind_eq_error {x : Except ε α} {f : α → Except ε β} {e : ε} :
    (x >>= f) = .error e ↔ x = .error e ∨ ∃ a, x = .ok a ∧ f a = .error e := by
  cases x with
  | error e' => simp [bind, Except.bind]
  | ok a => simp [bind, Except.bind]

/-- A step that succeeds hands its result on. -/
@[simp] theorem ok_bind {a : α} {f : α → Except ε β} : (Except.ok a >>= f) = f a := rfl

/-- Nothing comes after a step that fails. -/
@[simp] theorem error_bind {e : ε} {f : α → Except ε β} :
    ((Except.error e : Except ε α) >>= f) = .error e := rfl

/-- Something is left of an outcome without its failure exactly if it is a success. -/
theorem toOption_eq_some {x : Except ε α} {a : α} : x.toOption = some a ↔ x = .ok a := by
  cases x with
  | error e => simp [Except.toOption]
  | ok b => simp [Except.toOption]

/-- The failure of a computation that fails. -/
def fault? : Except ε α → Option ε
  | .ok _ => none
  | .error e => some e

/-- A computation without a failure has a result. -/
theorem fault?_eq_none {x : Except ε α} : fault? x = none ↔ ∃ a, x = .ok a := by
  cases x <;> simp [fault?]

theorem fault?_eq_some {x : Except ε α} {e : ε} : fault? x = some e ↔ x = .error e := by
  cases x <;> simp [fault?]

/-- A sequence fails with the failure of its first step, or else with that of the rest. -/
theorem fault?_bind {x : Except ε α} {g : α → Except ε β} (rest : Option ε)
    (h : ∀ a, x = .ok a → fault? (g a) = rest) : fault? (x >>= g) = (fault? x).or rest := by
  cases x with
  | error e => rfl
  | ok a => exact h a rfl

/-- The last step of a sequence that does not fail adds no failure. -/
theorem fault?_bind_ok {x : Except ε α} {g : α → β} :
    fault? (x >>= fun a => Except.ok (g a)) = fault? x := by
  cases x <;> rfl

/-- Each member of a list belongs to a member of the other list. -/
theorem exists_of_forall₂ {R : α → β → Prop} {xs : List α} {ys : List β}
    (h : List.Forall₂ R xs ys) : ∀ x ∈ xs, ∃ y ∈ ys, R x y := by
  induction h with
  | nil => exact fun x hx => nomatch hx
  | cons hxy _ ih =>
    intro x hx
    rcases List.mem_cons.1 hx with rfl | hx
    · exact ⟨_, List.mem_cons_self, hxy⟩
    · obtain ⟨y, hy, hR⟩ := ih x hx
      exact ⟨y, List.mem_cons_of_mem _ hy, hR⟩

/-- A list is worked through exactly if each of its elements is. -/
theorem mapM_eq_ok_iff {f : α → Except ε β} : ∀ {xs : List α} {ys : List β},
    xs.mapM f = .ok ys ↔ List.Forall₂ (fun x y => f x = .ok y) xs ys
  | [], ys => by
    rw [List.mapM_nil, List.forall₂_nil_left_iff]
    exact ⟨fun h => by cases h; rfl, fun h => by rw [h]; rfl⟩
  | x :: xs, ys => by
    rw [List.mapM_cons, List.forall₂_cons_left_iff, bind_eq_ok]
    constructor
    · rintro ⟨y, hy, h⟩
      obtain ⟨rest, hrest, h⟩ := bind_eq_ok.1 h
      cases h
      exact ⟨y, rest, hy, mapM_eq_ok_iff.1 hrest, rfl⟩
    · rintro ⟨y, rest, hy, hrest, rfl⟩
      exact ⟨y, hy, by rw [mapM_eq_ok_iff.2 hrest]; rfl⟩

/-- A list is worked through up to the first of its elements that fails. -/
theorem exists_of_mapM_eq_error {f : α → Except ε β} {e : ε} : ∀ {xs : List α},
    xs.mapM f = .error e → ∃ before x after, xs = before ++ x :: after ∧ f x = .error e ∧
      ∀ y ∈ before, ∃ b, f y = .ok b
  | [], h => nomatch h
  | x :: xs, h => by
    rw [List.mapM_cons, bind_eq_error] at h
    rcases h with h | ⟨y, hy, h⟩
    · exact ⟨[], x, xs, rfl, h, fun y hy => nomatch hy⟩
    · rcases bind_eq_error.1 h with h | ⟨rest, -, h⟩
      · obtain ⟨before, z, after, rfl, hz, hbefore⟩ := exists_of_mapM_eq_error h
        refine ⟨x :: before, z, after, rfl, hz, ?_⟩
        rintro w (_ | ⟨_, hw⟩)
        · exact ⟨y, hy⟩
        · exact hbefore w hw
      · cases h

end EntitySql
