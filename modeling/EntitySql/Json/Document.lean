import EntitySql.Json.Printer

/-!
# Documents with distinct keys

A tree may have two members of one key in an object. The documents that fields
hold have none: a member that is set again replaces the one before it.

- `Json.induct`: what holds of a tree if it holds of what is inside.
- `Json.HasDistinctKeys`: there are no two members of one key.
- `Json.keyed`: the document of a tree.
- `Document`: documents, and `Document.ofJson`: the ones of trees.
-/

namespace EntitySql

namespace Json

section

variable {motive : Json → Prop} (null : motive .null) (bool : ∀ b, motive (.bool b))
  (number : ∀ n, motive (.number n)) (text : ∀ s, motive (.text s))
  (array : ∀ items, (∀ a ∈ items, motive a) → motive (.array items))
  (object : ∀ members, (∀ m ∈ members, motive m.2) → motive (.object members))

include null bool number text array object

/-- A property holds of every tree if it holds of scalars, and of arrays and objects whenever
it holds of what is inside. -/
theorem induct : ∀ j : Json, motive j
  | .null => null
  | .bool b => bool b
  | .number n => number n
  | .text s => text s
  | .array items => array items fun a _ => induct a
  | .object members => object members fun m _ => induct m.2
decreasing_by
  · have hitem : sizeOf a < sizeOf items := List.sizeOf_lt_of_mem ‹_›
    rw [Json.array.sizeOf_spec]
    omega
  · have hmember : sizeOf m < sizeOf members := List.sizeOf_lt_of_mem ‹_›
    have hvalue : sizeOf m = 1 + sizeOf m.1 + sizeOf m.2 := Prod.mk.sizeOf_spec m.1 m.2
    rw [Json.object.sizeOf_spec]
    omega

end

mutual

/-- All objects in a tree, however deep inside of it, have distinct keys. -/
def HasDistinctKeys : Json → Prop
  | .null | .bool _ | .number _ | .text _ => True
  | .array items => ItemsHaveDistinctKeys items
  | .object members => (members.map Prod.fst).Nodup ∧ MembersHaveDistinctKeys members

/-- All objects in the items of an array have distinct keys. -/
def ItemsHaveDistinctKeys : List Json → Prop
  | [] => True
  | a :: as => a.HasDistinctKeys ∧ ItemsHaveDistinctKeys as

/-- All objects in the members of an object have distinct keys. -/
def MembersHaveDistinctKeys : List (String × Json) → Prop
  | [] => True
  | (_, a) :: as => a.HasDistinctKeys ∧ MembersHaveDistinctKeys as

end

theorem itemsHaveDistinctKeys_iff {items : List Json} :
    ItemsHaveDistinctKeys items ↔ ∀ a ∈ items, a.HasDistinctKeys := by
  induction items with
  | nil => simp [ItemsHaveDistinctKeys]
  | cons a as ih => rw [ItemsHaveDistinctKeys, ih, List.forall_mem_cons]

theorem membersHaveDistinctKeys_iff {members : List (String × Json)} :
    MembersHaveDistinctKeys members ↔ ∀ m ∈ members, m.2.HasDistinctKeys := by
  induction members with
  | nil => simp [MembersHaveDistinctKeys]
  | cons m members ih => rw [MembersHaveDistinctKeys, ih, List.forall_mem_cons]

@[simp] theorem hasDistinctKeys_array {items : List Json} :
    (array items).HasDistinctKeys ↔ ∀ a ∈ items, a.HasDistinctKeys := by
  rw [HasDistinctKeys, itemsHaveDistinctKeys_iff]

@[simp] theorem hasDistinctKeys_object {members : List (String × Json)} :
    (object members).HasDistinctKeys ↔
      (members.map Prod.fst).Nodup ∧ ∀ m ∈ members, m.2.HasDistinctKeys := by
  rw [HasDistinctKeys, membersHaveDistinctKeys_iff]

/-! ## Members that are set -/

/-- A member that is set is there afterwards, and the others were there before. -/
theorem mem_of_mem_setMember {key : String} {value : Json} {m : String × Json}
    {members : List (String × Json)} (h : m ∈ setMember key value members) :
    m = (key, value) ∨ m ∈ members := by
  induction members with
  | nil => exact .inl (List.mem_singleton.1 h)
  | cons n members ih =>
    rw [setMember] at h
    split at h
    · next hkey =>
      subst hkey
      exact (List.mem_cons.1 h).imp_right (List.mem_cons_of_mem n)
    · rcases List.mem_cons.1 h with rfl | h
      · exact .inr List.mem_cons_self
      · exact (ih h).imp_right (List.mem_cons_of_mem n)

/-- Keys stay distinct when a member is set. -/
theorem nodup_setMember {key : String} (value : Json) {members : List (String × Json)}
    (h : (members.map Prod.fst).Nodup) : ((setMember key value members).map Prod.fst).Nodup := by
  induction members with
  | nil => exact List.nodup_cons.2 ⟨List.not_mem_nil, List.nodup_nil⟩
  | cons n members ih =>
    rw [setMember]
    split
    · exact h
    · next hkey =>
      rw [List.map_cons, List.nodup_cons] at h ⊢
      refine ⟨fun hmem => ?_, ih h.2⟩
      obtain ⟨m, hm, heq⟩ := List.mem_map.1 hmem
      rcases mem_of_mem_setMember hm with rfl | hm
      · exact hkey heq.symm
      · exact h.1 (List.mem_map.2 ⟨m, hm, heq⟩)

/-- Whatever the keys of its members, an object that is made of them has distinct keys. -/
theorem hasDistinctKeys_ofMembers {members : List (String × Json)}
    (h : ∀ m ∈ members, m.2.HasDistinctKeys) : (ofMembers members).HasDistinctKeys := by
  have hfold : ∀ {members before : List (String × Json)}, (∀ m ∈ members, m.2.HasDistinctKeys) →
      (object before).HasDistinctKeys →
        (object (members.foldl (fun ms m => setMember m.1 m.2 ms) before)).HasDistinctKeys := by
    intro members
    induction members with
    | nil => exact fun _ hbefore => hbefore
    | cons m members ih =>
      intro before hmembers hbefore
      obtain ⟨hnodup, hvalues⟩ := hasDistinctKeys_object.1 hbefore
      obtain ⟨hm, hmembers⟩ := List.forall_mem_cons.1 hmembers
      refine ih hmembers (hasDistinctKeys_object.2 ⟨nodup_setMember _ hnodup, fun n hn => ?_⟩)
      rcases mem_of_mem_setMember hn with rfl | hn
      · exact hm
      · exact hvalues n hn
  exact hfold h (hasDistinctKeys_object.2 ⟨List.nodup_nil, nofun⟩)

/-- A member of a new key becomes the last one. -/
theorem setMember_of_not_mem {key : String} (value : Json) {members : List (String × Json)}
    (h : key ∉ members.map Prod.fst) : setMember key value members = members ++ [(key, value)] := by
  induction members with
  | nil => rfl
  | cons n members ih =>
    rw [List.map_cons, List.mem_cons, not_or] at h
    rw [setMember, if_neg (Ne.symm h.1), ih h.2, List.cons_append]

/-- Members of distinct keys are set one after the other. -/
theorem foldl_setMember (before : List (String × Json)) {members : List (String × Json)}
    (h : ((before ++ members).map Prod.fst).Nodup) :
    members.foldl (fun ms m => setMember m.1 m.2 ms) before = before ++ members := by
  induction members generalizing before with
  | nil => rw [List.foldl_nil, List.append_nil]
  | cons m members ih =>
    have hnew : m.1 ∉ before.map Prod.fst := by
      rw [List.map_append, List.map_cons] at h
      exact fun hmem => (List.nodup_append.1 h).2.2 _ hmem _ List.mem_cons_self rfl
    have hassoc : before ++ m :: members = before ++ [m] ++ members := by simp
    rw [List.foldl_cons, setMember_of_not_mem m.2 hnew]
    rw [hassoc] at h ⊢
    exact ih _ h

/-- Members of distinct keys are the members of the object that is made of them. -/
theorem ofMembers_of_nodup {members : List (String × Json)}
    (h : (members.map Prod.fst).Nodup) : ofMembers members = .object members := by
  rw [ofMembers, foldl_setMember [] h, List.nil_append]

/-! ## The document of a tree -/

mutual

/-- The tree with all members set one after the other. -/
def keyed : Json → Json
  | .null => .null
  | .bool b => .bool b
  | .number n => .number n
  | .text s => .text s
  | .array items => .array (keyedItems items)
  | .object members => ofMembers (keyedMembers members)

/-- The items of an array, each with all members set one after the other. -/
def keyedItems : List Json → List Json
  | [] => []
  | a :: as => a.keyed :: keyedItems as

/-- The members of an object, each with all members inside of it set one after the other. -/
def keyedMembers : List (String × Json) → List (String × Json)
  | [] => []
  | (key, a) :: as => (key, a.keyed) :: keyedMembers as

end

theorem keyedItems_eq_map (items : List Json) : keyedItems items = items.map keyed := by
  induction items with
  | nil => rw [keyedItems, List.map_nil]
  | cons a as ih => rw [keyedItems, ih, List.map_cons]

theorem keyedMembers_eq_map (members : List (String × Json)) :
    keyedMembers members = members.map fun m => (m.1, m.2.keyed) := by
  induction members with
  | nil => rw [keyedMembers, List.map_nil]
  | cons m members ih => rw [keyedMembers, ih, List.map_cons]

theorem hasDistinctKeys_keyed (j : Json) : j.keyed.HasDistinctKeys := by
  induction j using induct with
  | array items ih =>
    rw [keyed, keyedItems_eq_map, hasDistinctKeys_array]
    exact List.forall_mem_map.2 ih
  | object members ih =>
    rw [keyed, keyedMembers_eq_map]
    exact hasDistinctKeys_ofMembers (List.forall_mem_map.2 ih)
  | _ => trivial

/-- A tree with distinct keys is a document as it is. -/
theorem keyed_of_hasDistinctKeys {j : Json} (h : j.HasDistinctKeys) : j.keyed = j := by
  induction j using induct with
  | array items ih =>
    have hitems : ∀ a ∈ items, a.keyed = a := fun a ha => ih a ha (hasDistinctKeys_array.1 h a ha)
    rw [keyed, keyedItems_eq_map, List.map_congr_left hitems, List.map_id']
  | object members ih =>
    obtain ⟨hnodup, hkeys⟩ := hasDistinctKeys_object.1 h
    have hmembers : ∀ m ∈ members, (m.1, m.2.keyed) = m :=
      fun m hm => congrArg (Prod.mk m.1) (ih m hm (hkeys m hm))
    rw [keyed, keyedMembers_eq_map, List.map_congr_left hmembers, List.map_id',
      ofMembers_of_nodup hnodup]
  | _ => rw [keyed]

end Json

/-- A document: a tree whose objects have distinct keys. -/
@[ext] structure Document where
  json : Json
  keys : json.HasDistinctKeys

namespace Document

/-- The document of a tree. Of the members of one key the last value is kept, in the first place. -/
def ofJson (j : Json) : Document := ⟨j.keyed, j.hasDistinctKeys_keyed⟩

instance : Coe Json Document := ⟨ofJson⟩

@[simp] theorem json_ofJson (j : Json) : (ofJson j).json = j.keyed := rfl

/-- A document is the document of its tree. -/
@[simp] theorem ofJson_json (d : Document) : ofJson d.json = d :=
  Document.ext (Json.keyed_of_hasDistinctKeys d.keys)

theorem ofJson_keyed (j : Json) : ofJson j.keyed = ofJson j := ofJson_json (ofJson j)

/-- The text of a document. -/
def compact (d : Document) : String := d.json.compact

end Document

end EntitySql
