import Switchboard.Json.Tagged

/-!
# Switchboard.Proofs.Json.Canonical

The canonical form of a value, and values that say the same thing with the fields of
their objects in another order.

* `induct` — induction over a value;
* `canonicalItems_eq`, `canonicalFields_eq` — canonical form goes item by item;
* `canonical_canonical` — what is in form stays as it is;
* `Distinct`, `distinct_canonical` — no object gives a key twice;
* `lookup_canonical` — what an object has under a key, by its canonical form.
-/

namespace Switchboard.Json

/-! ## Induction -/

/-- What holds of an array because it holds of the items, and of an object because it holds
of the values, holds of everything. -/
@[elab_as_elim]
theorem induct {P : Json → Prop} (null : P .null) (bool : ∀ b, P (.bool b))
    (int : ∀ n, P (.int n)) (float : ∀ x, P (.float x)) (str : ∀ s, P (.str s))
    (arr : ∀ items, (∀ j ∈ items, P j) → P (.arr items))
    (obj : ∀ fields, (∀ p ∈ fields, P p.2) → P (.obj fields)) (j : Json) : P j :=
  @Json.rec P (fun items => ∀ j ∈ items, P j) (fun fields => ∀ p ∈ fields, P p.2)
    (fun p => P p.2) null bool int float str arr obj
    (fun _ hj => nomatch hj)
    (fun _ _ hi hrest j hj => (List.mem_cons.1 hj).elim (fun he => he ▸ hi) (hrest j))
    (fun _ hp => nomatch hp)
    (fun _ _ hq hrest p hp => (List.mem_cons.1 hp).elim (fun he => he ▸ hq) (hrest p))
    (fun _ _ hi => hi) j

/-! ## Canonical form -/

theorem canonicalItems_eq (items : List Json) : canonicalItems items = items.map canonical := by
  induction items with
  | nil => rfl
  | cons j rest ih => rw [canonicalItems, ih, List.map_cons]

theorem canonicalFields_eq (fields : List (String × Json)) :
    canonicalFields fields = fields.map fun p => (p.1, p.2.canonical) := by
  induction fields with
  | nil => rfl
  | cons p rest ih => rw [canonicalFields, ih, List.map_cons]

theorem lookup_canonicalFields (fields : List (String × Json)) (key : String) :
    (canonicalFields fields).lookup key = (fields.lookup key).map canonical := by
  rw [canonicalFields_eq]
  exact Keyed.get?_map key canonical fields

theorem map_fst_canonicalFields (fields : List (String × Json)) :
    (canonicalFields fields).map (·.1) = fields.map (·.1) := by
  simp [canonicalFields_eq]

/-- Fields whose values are in form are in form once they are in order. -/
theorem canonicalFields_ofList {fields : List (String × Json)}
    (h : ∀ p ∈ fields, p.2.canonical = p.2) :
    canonicalFields (Keyed.ofList fields) = Keyed.ofList fields := by
  rw [canonicalFields_eq]
  refine (List.map_congr_left fun p hp => ?_).trans (List.map_id _)
  exact Prod.ext rfl (h p (Keyed.mem_of_mem_ofList hp))

theorem canonical_object {fields : List (String × Json)} (h : ∀ p ∈ fields, p.2.canonical = p.2) :
    (object fields).canonical = object fields := by
  rw [object, canonical, canonicalFields_ofList h, (Keyed.ordered_ofList _).ofList_eq]

theorem canonical_canonical (j : Json) : j.canonical.canonical = j.canonical := by
  induction j using induct with
  | arr items ih =>
      simp only [canonical, canonicalItems_eq, List.map_map]
      congr 1
      exact List.map_congr_left fun j hj => ih j hj
  | obj fields ih =>
      have hfields : ∀ p ∈ canonicalFields fields, p.2.canonical = p.2 := by
        intro p hp
        rw [canonicalFields_eq] at hp
        obtain ⟨q, hq, rfl⟩ := List.mem_map.1 hp
        exact ih q hq
      exact canonical_object hfields
  | _ => rfl

/-! ## Values that are not in form -/

/-- What is a string in form is that string. -/
theorem eq_str_of_canonical {j : Json} {s : String} (h : j.canonical = .str s) : j = .str s := by
  cases j with
  | arr | obj => cases h
  | _ => exact h

theorem eq_null_of_canonical {j : Json} (h : j.canonical = .null) : j = .null := by
  cases j with
  | arr | obj => cases h
  | _ => exact h

theorem exists_arr_of_canonical {j : Json} {items : List Json} (h : j.canonical = .arr items) :
    ∃ raw, j = .arr raw ∧ raw.map canonical = items := by
  cases j with
  | arr raw => cases h; exact ⟨raw, rfl, (canonicalItems_eq raw).symm⟩
  | _ => cases h

theorem exists_obj_of_canonical {j : Json} {fields : List (String × Json)}
    (h : j.canonical = .obj fields) :
    ∃ raw, j = .obj raw ∧ Keyed.ofList (canonicalFields raw) = fields := by
  cases j with
  | obj raw => cases h; exact ⟨raw, rfl, rfl⟩
  | _ => cases h

/-- No object gives a key twice. -/
inductive Distinct : Json → Prop where
  | null : Distinct .null
  | bool (b : Bool) : Distinct (.bool b)
  | int (n : Int) : Distinct (.int n)
  | float (x : Double) : Distinct (.float x)
  | str (s : String) : Distinct (.str s)
  | arr {items : List Json} (each : ∀ j ∈ items, Distinct j) : Distinct (.arr items)
  | obj {fields : List (String × Json)} (keys : (fields.map (·.1)).Nodup)
      (each : ∀ p ∈ fields, Distinct p.2) : Distinct (.obj fields)

/-- A value in form gives no key twice. -/
theorem distinct_canonical (j : Json) : j.canonical.Distinct := by
  induction j using induct with
  | null => exact .null
  | bool b => exact .bool b
  | int n => exact .int n
  | float x => exact .float x
  | str s => exact .str s
  | arr items ih =>
      simp only [canonical, canonicalItems_eq]
      refine .arr fun j hj => ?_
      obtain ⟨i, hi, rfl⟩ := List.mem_map.1 hj
      exact ih i hi
  | obj fields ih =>
      simp only [canonical]
      refine .obj ?_ fun p hp => ?_
      · exact (Keyed.ordered_ofList _).imp fun hlt => String.ne_of_lt hlt
      · have hp' := Keyed.mem_of_mem_ofList hp
        rw [canonicalFields_eq] at hp'
        obtain ⟨q, hq, rfl⟩ := List.mem_map.1 hp'
        exact ih q hq

/-- What an object has under a key does not depend on the order of its fields. -/
theorem lookup_canonical {raw fields : List (String × Json)} (hraw : (raw.map (·.1)).Nodup)
    (hfields : (fields.map (·.1)).Nodup) (h : (Json.obj raw).canonical = .object fields)
    (key : String) : (raw.lookup key).map canonical = fields.lookup key := by
  have heq : Keyed.ofList (canonicalFields raw) = Keyed.ofList fields := Json.obj.inj h
  have hkeys : ((canonicalFields raw).map (·.1)).Nodup := by rwa [map_fst_canonicalFields]
  rw [← lookup_canonicalFields, ← Keyed.get?_ofList_of_nodup hkeys, heq,
    Keyed.get?_ofList_of_nodup hfields]

end Switchboard.Json
