import EntitySql.Value.Basic

/-!
# Records

A record gives values to the keys of fields. Its keys are distinct and kept in
the order of their characters, so that two records with the same entries are
the same record.

- `Record`: entries in strictly ascending order of keys.
- `Record.insert`, `Record.ofPairs`: the last value given to a key is kept.
- `Record.get?`: the value of a key.
-/

namespace EntitySql

/-- Sets the value of a key among entries in ascending order. -/
def insertEntry (key : String) (value : Value) :
    List (String × Value) → List (String × Value)
  | [] => [(key, value)]
  | (k, v) :: rest =>
    if key < k then (key, value) :: (k, v) :: rest
    else if key = k then (key, value) :: rest
    else (k, v) :: insertEntry key value rest

theorem mem_insertEntry {key : String} {value : Value} {e : String × Value} :
    ∀ {es : List (String × Value)}, e ∈ insertEntry key value es → e = (key, value) ∨ e ∈ es
  | [], h => by simpa [insertEntry] using h
  | (k, v) :: rest, h => by
    simp only [insertEntry] at h
    split at h
    · simpa using h
    · split at h
      · rcases List.mem_cons.1 h with h | h
        · exact .inl h
        · exact .inr (List.mem_cons_of_mem _ h)
      · rcases List.mem_cons.1 h with h | h
        · exact .inr (h ▸ List.mem_cons_self)
        · rcases mem_insertEntry h with h | h
          · exact .inl h
          · exact .inr (List.mem_cons_of_mem _ h)

/-- Entries stay in ascending order. -/
theorem ascending_insertEntry (key : String) (value : Value) :
    ∀ {es : List (String × Value)}, es.Pairwise (fun a b => a.1 < b.1) →
      (insertEntry key value es).Pairwise fun a b => a.1 < b.1
  | [], _ => by simp [insertEntry]
  | (k, v) :: rest, h => by
    rw [List.pairwise_cons] at h
    simp only [insertEntry]
    split
    · next hlt =>
      refine List.pairwise_cons.2 ⟨fun e he => ?_, List.pairwise_cons.2 h⟩
      rcases List.mem_cons.1 he with rfl | he
      · exact hlt
      · exact String.lt_trans hlt (h.1 e he)
    · next hge =>
      split
      · next heq => exact List.pairwise_cons.2 ⟨fun e he => heq ▸ h.1 e he, h.2⟩
      · next hne =>
        refine List.pairwise_cons.2 ⟨fun e he => ?_, ascending_insertEntry key value h.2⟩
        rcases mem_insertEntry he with rfl | he
        · exact Std.lt_of_le_of_ne (String.not_lt.1 hge) (Ne.symm hne)
        · exact h.1 e he

/-- Values by key. -/
structure Record where
  /-- The keys with their values. -/
  entries : List (String × Value)
  /-- Keys are distinct and in ascending order. -/
  ascending : entries.Pairwise fun a b => a.1 < b.1

namespace Record

/-- The record with no keys. -/
def empty : Record := ⟨[], List.Pairwise.nil⟩

instance : Inhabited Record := ⟨empty⟩

/-- Sets the value of a key. -/
def insert (r : Record) (key : String) (value : Value) : Record :=
  ⟨insertEntry key value r.entries, ascending_insertEntry key value r.ascending⟩

/-- The record of the pairs; of several values for a key the last one is kept. -/
def ofPairs (pairs : List (String × Value)) : Record :=
  pairs.foldl (fun r p => r.insert p.1 p.2) empty

/-- The value of a key. -/
def get? (r : Record) (key : String) : Option Value :=
  (r.entries.find? fun e => e.1 == key).map Prod.snd

/-- The keys, in ascending order. -/
def keys (r : Record) : List String := r.entries.map Prod.fst

/-- Records are the same if they have the same keys with the same values. -/
def same (r s : Record) : Bool :=
  r.entries.length == s.entries.length &&
    (r.entries.zip s.entries).all fun (a, b) => a.1 == b.1 && a.2.same b.2

end Record

end EntitySql
