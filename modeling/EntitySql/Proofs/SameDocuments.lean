import EntitySql.Json.Document
import EntitySql.Proofs.UnpackedFloats
import Mathlib.Data.List.Perm.Subperm

/-!
# Documents that are the same

Documents are the same if they differ in the order of members only. Members are
looked up by their keys from one side, so it makes no difference from which side
only where objects have distinct keys.

- `Json.sameItems_iff`, `Json.sameMembers_iff`: items by their places, members
  by their keys.
- `Document.same_refl`, `Document.same_symm`, `Document.same_trans`: documents are
  the same in the way of an equivalence.
-/

namespace EntitySql

/-! ## Numbers -/

namespace JsonNumber

theorem same_refl : ∀ n : JsonNumber, n.same n = true
  | .int m _ => beq_self_eq_true m
  | .float x hfinite => (beq_float_iff hfinite x).2 (.inl rfl)

theorem same_symm {m n : JsonNumber} (h : m.same n = true) : n.same m = true := by
  cases m with
  | int k fits =>
    cases n with
    | int l fits' => exact beq_iff_eq.2 (beq_iff_eq.1 h).symm
    | float y hy => cases h
  | float x hx =>
    cases n with
    | int l fits' => cases h
    | float y hy => exact (beq_float_iff hy x).2 (((beq_float_iff hx y).1 h).imp Eq.symm And.symm)

theorem same_trans {k m n : JsonNumber} (hkm : k.same m = true) (hmn : m.same n = true) :
    k.same n = true := by
  cases m with
  | int l fits =>
    cases k with
    | int l' fits' =>
      cases n with
      | int l'' fits'' => exact beq_iff_eq.2 ((beq_iff_eq.1 hkm).trans (beq_iff_eq.1 hmn))
      | float z hz => cases hmn
    | float x hx => cases hkm
  | float y hy =>
    cases k with
    | int l' fits' => cases hkm
    | float x hx =>
      cases n with
      | int l'' fits'' => cases hmn
      | float z hz =>
        rw [same, beq_float_iff hx] at hkm ⊢
        rw [same, beq_float_iff hy] at hmn
        rcases hkm with hxy | ⟨hxzero, hyzero⟩
        · rw [hxy]
          exact hmn
        · rcases hmn with hyz | ⟨-, hzzero⟩
          · exact .inr ⟨hxzero, hyz ▸ hyzero⟩
          · exact .inr ⟨hxzero, hzzero⟩

end JsonNumber

namespace Json

/-! ## What is inside of a document -/

theorem HasDistinctKeys.item {items : List Json} (h : (Json.array items).HasDistinctKeys)
    {a : Json} (ha : a ∈ items) : a.HasDistinctKeys := hasDistinctKeys_array.1 h a ha

theorem HasDistinctKeys.nodup {members : List (String × Json)}
    (h : (Json.object members).HasDistinctKeys) : (members.map Prod.fst).Nodup :=
  (hasDistinctKeys_object.1 h).1

theorem HasDistinctKeys.member {members : List (String × Json)}
    (h : (Json.object members).HasDistinctKeys) {m : String × Json} (hm : m ∈ members) :
    m.2.HasDistinctKeys := (hasDistinctKeys_object.1 h).2 m hm

/-! ## Items and members -/

/-- Arrays are compared place by place. -/
theorem sameItems_iff : ∀ {as bs : List Json}, sameItems as bs = true ↔
    as.length = bs.length ∧
      ∀ (i : Nat) (a b : Json), as[i]? = some a → bs[i]? = some b → a.same b = true
  | [], [] => by simp [sameItems]
  | [], b :: bs => by simp [sameItems]
  | a :: as, [] => by simp [sameItems]
  | a :: as, b :: bs => by
    rw [sameItems, Bool.and_eq_true, sameItems_iff, List.length_cons, List.length_cons,
      Nat.add_right_cancel_iff]
    constructor
    · rintro ⟨hfirst, hlength, hrest⟩
      refine ⟨hlength, fun i c d hc hd => ?_⟩
      cases i with
      | zero =>
        cases hc
        cases hd
        exact hfirst
      | succ i => exact hrest i c d hc hd
    · rintro ⟨hlength, hall⟩
      exact ⟨hall 0 a b rfl rfl, hlength, fun i c d hc hd => hall (i + 1) c d hc hd⟩

/-- Members are compared with the members of their keys. -/
theorem sameMembers_iff {bs : List (String × Json)} : ∀ {as : List (String × Json)},
    sameMembers as bs = true ↔ ∀ m ∈ as, ∃ b, member? m.1 bs = some b ∧ m.2.same b = true
  | [] => by simp [sameMembers]
  | (key, a) :: as => by
    rw [sameMembers, Bool.and_eq_true, sameMembers_iff, List.forall_mem_cons]
    refine and_congr_left fun _ => ?_
    cases member? key bs <;> simp

/-- Where keys are distinct, a member is the one of its key. -/
theorem member?_eq_some_iff {key : String} {b : Json} : ∀ {members : List (String × Json)},
    (members.map Prod.fst).Nodup → (member? key members = some b ↔ (key, b) ∈ members)
  | [], _ => by simp [member?]
  | (k, a) :: members, h => by
    rw [List.map_cons, List.nodup_cons] at h
    have hrest : member? key members = some b ↔ _ := member?_eq_some_iff h.2
    rw [member?] at hrest ⊢
    by_cases hk : k = key
    · subst hk
      have hnot : (k, b) ∉ members := fun hmem => h.1 (List.mem_map.2 ⟨_, hmem, rfl⟩)
      simp [hnot, eq_comm]
    · have hbeq : (k == key) = false := beq_false_of_ne hk
      rw [List.find?_cons, hbeq, hrest, List.mem_cons, Prod.mk.injEq]
      simp [Ne.symm hk]

/-- A key of either side is one of the other, if there are as many members and keys are distinct. -/
theorem keys_subset {as bs : List (String × Json)} (hlength : as.length = bs.length)
    (ha : (as.map Prod.fst).Nodup) (hsubset : as.map Prod.fst ⊆ bs.map Prod.fst) :
    bs.map Prod.fst ⊆ as.map Prod.fst := by
  have hperm : (as.map Prod.fst).Perm (bs.map Prod.fst) :=
    (List.subperm_of_subset ha hsubset).perm_of_length_le (by simp [hlength])
  exact hperm.symm.subset

/-! ## An equivalence -/

theorem same_array_iff {as bs : List Json} : (Json.array as).same (.array bs) = true ↔
    as.length = bs.length ∧
      ∀ (i : Nat) (a b : Json), as[i]? = some a → bs[i]? = some b → a.same b = true := by
  rw [same, sameItems_iff]

theorem same_object_iff {as bs : List (String × Json)} (hb : (bs.map Prod.fst).Nodup) :
    (Json.object as).same (.object bs) = true ↔ as.length = bs.length ∧
      ∀ m ∈ as, ∃ b, (m.1, b) ∈ bs ∧ m.2.same b = true := by
  simp only [same, Bool.and_eq_true, beq_iff_eq, sameMembers_iff, member?_eq_some_iff hb]

/-- Compared from one side, each member of the other side is met by the member of its key. -/
theorem exists_same_of_mem {as bs : List (String × Json)} (ha : (as.map Prod.fst).Nodup)
    (hb : (bs.map Prod.fst).Nodup) (h : (Json.object as).same (.object bs) = true)
    {m : String × Json} (hm : m ∈ bs) : ∃ a, (m.1, a) ∈ as ∧ a.same m.2 = true := by
  obtain ⟨hlength, hall⟩ := (same_object_iff hb).1 h
  have hsubset : as.map Prod.fst ⊆ bs.map Prod.fst := by
    intro key hkey
    obtain ⟨n, hn, rfl⟩ := List.mem_map.1 hkey
    obtain ⟨b, hb, -⟩ := hall n hn
    exact List.mem_map.2 ⟨_, hb, rfl⟩
  obtain ⟨⟨key, a⟩, hmem, rfl⟩ := List.mem_map.1
    (keys_subset hlength ha hsubset (List.mem_map.2 ⟨m, hm, rfl⟩))
  -- the member of the same key is compared with this one, since there is no other
  obtain ⟨b, hfound, hsame⟩ := hall _ hmem
  have hvalue : b = m.2 := Option.some.inj
    (((member?_eq_some_iff hb).2 hfound).symm.trans ((member?_eq_some_iff hb).2 hm))
  exact ⟨a, hmem, hvalue ▸ hsame⟩

/-- A tree is the same as itself if it is a document. -/
theorem same_refl (j : Json) : j.HasDistinctKeys → j.same j = true := by
  induction j using induct with
  | null => exact fun _ => by rw [same]
  | bool b => exact fun _ => by rw [same]; exact beq_self_eq_true b
  | number n => exact fun _ => by rw [same]; exact n.same_refl
  | text s => exact fun _ => by rw [same]; exact beq_self_eq_true s
  | array items ih =>
    intro hkeys
    refine same_array_iff.2 ⟨rfl, fun i a b ha hb => ?_⟩
    obtain rfl : a = b := Option.some.inj (ha.symm.trans hb)
    exact ih a (List.mem_of_getElem? ha) (hkeys.item (List.mem_of_getElem? ha))
  | object members ih =>
    intro hkeys
    exact (same_object_iff hkeys.nodup).2
      ⟨rfl, fun m hm => ⟨m.2, hm, ih m hm (hkeys.member hm)⟩⟩

theorem same_symm (j : Json) : ∀ k : Json, j.HasDistinctKeys → k.HasDistinctKeys →
    j.same k = true → k.same j = true := by
  induction j using induct with
  | null =>
    intro k _ _ h
    cases k with
    | null => exact h
    | _ => cases h
  | bool b =>
    intro k _ _ h
    cases k with
    | bool c => exact beq_iff_eq.2 (beq_iff_eq.1 h).symm
    | _ => cases h
  | number n =>
    intro k _ _ h
    cases k with
    | number m => exact JsonNumber.same_symm h
    | _ => cases h
  | text s =>
    intro k _ _ h
    cases k with
    | text t => exact beq_iff_eq.2 (beq_iff_eq.1 h).symm
    | _ => cases h
  | array items ih =>
    intro k hj hk h
    cases k with
    | array others =>
      obtain ⟨hlength, hall⟩ := same_array_iff.1 h
      refine same_array_iff.2 ⟨hlength.symm, fun i b a hb ha => ?_⟩
      have hitem := List.mem_of_getElem? ha
      exact ih a hitem b (hj.item hitem) (hk.item (List.mem_of_getElem? hb)) (hall i a b ha hb)
    | _ => cases h
  | object members ih =>
    intro k hj hk h
    cases k with
    | object others =>
      have hlength := ((same_object_iff hk.nodup).1 h).1
      refine (same_object_iff hj.nodup).2 ⟨hlength.symm, fun m hm => ?_⟩
      obtain ⟨a, ha, hsame⟩ := exists_same_of_mem hj.nodup hk.nodup h hm
      exact ⟨a, ha, ih _ ha m.2 (hj.member ha) (hk.member hm) hsame⟩
    | _ => cases h

theorem same_trans (j : Json) : ∀ k l : Json, k.HasDistinctKeys → l.HasDistinctKeys →
    j.same k = true → k.same l = true → j.same l = true := by
  induction j using induct with
  | null =>
    intro k l _ _ hjk hkl
    cases k with
    | null => exact hkl
    | _ => cases hjk
  | bool b =>
    intro k l _ _ hjk hkl
    cases k with
    | bool c => rwa [show b = c from beq_iff_eq.1 hjk]
    | _ => cases hjk
  | number n =>
    intro k l _ _ hjk hkl
    cases k with
    | number m =>
      cases l with
      | number m' => exact JsonNumber.same_trans hjk hkl
      | _ => cases hkl
    | _ => cases hjk
  | text s =>
    intro k l _ _ hjk hkl
    cases k with
    | text t => rwa [show s = t from beq_iff_eq.1 hjk]
    | _ => cases hjk
  | array items ih =>
    intro k l hk hl hjk hkl
    cases k with
    | array others =>
      cases l with
      | array others' =>
        obtain ⟨hlength, hall⟩ := same_array_iff.1 hjk
        obtain ⟨hlength', hall'⟩ := same_array_iff.1 hkl
        refine same_array_iff.2 ⟨hlength.trans hlength', fun i a c ha hc => ?_⟩
        have hlt : i < others.length := hlength ▸ (List.getElem?_eq_some_iff.1 ha).1
        have hb : others[i]? = some others[i] := List.getElem?_eq_getElem hlt
        exact ih a (List.mem_of_getElem? ha) others[i] c (hk.item (List.mem_of_getElem? hb))
          (hl.item (List.mem_of_getElem? hc)) (hall i a _ ha hb) (hall' i _ c hb hc)
      | _ => cases hkl
    | _ => cases hjk
  | object members ih =>
    intro k l hk hl hjk hkl
    cases k with
    | object others =>
      cases l with
      | object others' =>
        obtain ⟨hlength, hall⟩ := (same_object_iff hk.nodup).1 hjk
        obtain ⟨hlength', hall'⟩ := (same_object_iff hl.nodup).1 hkl
        refine (same_object_iff hl.nodup).2 ⟨hlength.trans hlength', fun m hm => ?_⟩
        obtain ⟨b, hb, hsame⟩ := hall m hm
        obtain ⟨c, hc, hsame'⟩ := hall' (m.1, b) hb
        exact ⟨c, hc, ih m hm b c (hk.member hb) (hl.member hc) hsame hsame'⟩
      | _ => cases hkl
    | _ => cases hjk

end Json

namespace Document

theorem same_refl (d : Document) : d.json.same d.json = true := Json.same_refl d.json d.keys

/-- From which of two sides documents are compared makes no difference. -/
theorem same_symm {d d' : Document} (h : d.json.same d'.json = true) :
    d'.json.same d.json = true := Json.same_symm d.json d'.json d.keys d'.keys h

/-- Documents that are the same as one document are the same. -/
theorem same_trans {d d' d'' : Document} (h : d.json.same d'.json = true)
    (h' : d'.json.same d''.json = true) : d.json.same d''.json = true :=
  Json.same_trans d.json d'.json d''.json d'.keys d''.keys h h'

end Document

end EntitySql
