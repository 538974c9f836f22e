import Switchboard.Proofs.Json.Record

/-!
# Switchboard.Proofs.Json.Agree

Records that agree but for one field.  A field that passes its check makes no difference to
what is read of the others, where it stands in an object and where it comes first in an array.

* `Agrees` — readings that differ in what they find under one key, and in nothing else;
* `agrees_insert` — so it is with an object and the same one with a field more;
* `agrees_replace` — and with an object in which a field has another value;
* `read_arr_cons` — an array whose first item is one;
* `build_map_eq`, `build_seq_eq` — building a record, as one computation.
-/

namespace Switchboard.Json.Record

/-! ## Objects -/

/-- Readings of fields that agree but for what they find under one key. -/
inductive Agrees (key : String) (x y : Option Json) :
    Except DecodeError Slots → Except DecodeError Slots → Prop where
  | error (e : DecodeError) : Agrees key x y (.error e) (.error e)
  | ok {s t : Slots} (first : s.lookup key = x) (second : t.lookup key = y)
      (others : ∀ k, k ≠ key → s.lookup k = t.lookup k) : Agrees key x y (.ok s) (.ok t)

variable {key : String} {x y : Option Json} {fields : List Field}

/-- What was found before under a key does not matter, neither to fields that do not have it nor to
one that has it again, for that is refused in any case. -/
theorem agrees_found {found found' : Slots} (hfirst : found.lookup key = x)
    (hsecond : found'.lookup key = y)
    (hothers : ∀ k, k ≠ key → found.lookup k = found'.lookup k) {entries : Slots}
    (hkey : key ∈ entries.map (·.1) →
      (fields.find? (·.key == key)).isSome ∧ x.isSome ∧ y.isSome) :
    Agrees key x y (visitFields fields found entries) (visitFields fields found' entries) := by
  induction entries generalizing found found' with
  | nil => exact .ok hfirst hsecond hothers
  | cons p rest ih =>
      obtain ⟨k, j⟩ := p
      have hrest : key ∈ rest.map (·.1) →
          (fields.find? (·.key == key)).isSome ∧ x.isSome ∧ y.isSome :=
        fun hmem => hkey (List.mem_cons_of_mem k hmem)
      rw [visitFields, visitFields]
      by_cases hk : k = key
      · subst hk
        obtain ⟨hf, hx, hy⟩ := hkey List.mem_cons_self
        obtain ⟨f, hf⟩ := Option.isSome_iff_exists.1 hf
        simp only [hf, hfirst, hsecond, hx, hy, if_true]
        exact .error _
      · cases fields.find? (·.key == k) with
        | none => exact ih hfirst hsecond hothers hrest
        | some f =>
            dsimp only
            rw [hothers k hk]
            split
            · exact .error _
            · cases f.check j with
              | error e => exact .error e
              | ok _ =>
                  refine ih ?_ ?_ (fun l hl => ?_) hrest
                  · rw [List.lookup_cons, beq_false_of_ne (Ne.symm hk)]; exact hfirst
                  · rw [List.lookup_cons, beq_false_of_ne (Ne.symm hk)]; exact hsecond
                  · simp only [List.lookup_cons, hothers l hl]

/-- A field that passes its check makes no difference to the others. -/
theorem agrees_insert {f : Field} {j : Json} (hf : fields.find? (·.key == key) = some f)
    (hc : f.check j = .ok ()) {before after found : Slots} (hfound : found.lookup key = none)
    (hbefore : key ∉ before.map (·.1)) (hafter : key ∉ after.map (·.1)) :
    Agrees key (some j) none (visitFields fields found (before ++ (key, j) :: after))
      (visitFields fields found (before ++ after)) := by
  induction before generalizing found with
  | nil =>
      rw [List.nil_append, visitFields, hf]
      dsimp only
      rw [hfound, hc]
      refine agrees_found (by simp) hfound (fun k hk => ?_) fun hmem => absurd hmem hafter
      rw [List.lookup_cons, beq_false_of_ne hk]
  | cons p rest ih =>
      obtain ⟨k, i⟩ := p
      have hk : k ≠ key := fun heq => hbefore (heq ▸ List.mem_cons_self)
      have hrest : key ∉ rest.map (·.1) := fun hmem => hbefore (List.mem_cons_of_mem k hmem)
      rw [List.cons_append, List.cons_append, visitFields, visitFields]
      cases fields.find? (·.key == k) with
      | none => exact ih hfound hrest
      | some g =>
          dsimp only
          split
          · exact .error _
          · cases g.check i with
            | error e => exact .error e
            | ok _ =>
                refine ih ?_ hrest
                rw [List.lookup_cons, beq_false_of_ne hk.symm]; exact hfound

/-- A field may have another value, if both pass its check. -/
theorem agrees_replace {f : Field} (hf : fields.find? (·.key == key) = some f) {i j : Json}
    (hi : f.check i = .ok ()) (hj : f.check j = .ok ()) (before after found : Slots) :
    Agrees key (some i) (some j) (visitFields fields found (before ++ (key, i) :: after))
      (visitFields fields found (before ++ (key, j) :: after)) := by
  induction before generalizing found with
  | nil =>
      rw [List.nil_append, List.nil_append, visitFields, visitFields, hf]
      dsimp only
      rw [hi, hj]
      split
      · exact .error _
      · refine agrees_found (by simp) (by simp) (fun k hk => ?_) fun _ => by simp [hf]
        simp [List.lookup_cons, beq_false_of_ne hk]
  | cons p rest ih =>
      obtain ⟨k, v⟩ := p
      rw [List.cons_append, List.cons_append, visitFields, visitFields]
      cases fields.find? (·.key == k) with
      | none => exact ih found
      | some g =>
          dsimp only
          split
          · exact .error _
          · cases g.check v with
            | error e => exact .error e
            | ok _ => exact ih _

/-- What takes no notice of the key makes the same of both. -/
theorem Agrees.bind_congr {α : Type} {a b : Except DecodeError Slots}
    {f : Slots → Except DecodeError α} (h : Agrees key x y a b)
    (hf : ∀ s t : Slots, s.lookup key = x → t.lookup key = y →
      (∀ k, k ≠ key → s.lookup k = t.lookup k) → f s = f t) : a >>= f = b >>= f := by
  cases h with
  | error e => rfl
  | ok first second others => exact hf _ _ first second others

/-! ## Arrays -/

/-- An array whose first item passes the check of the first field. -/
theorem read_arr_cons {α : Type} {r : Record α} {f : Field} {fields : List Field}
    (hr : r.fields = f :: fields) {j : Json} (hc : f.check j = .ok ()) (rest : List Json)
    (name : String) (surplus : Nat → String) :
    r.read name surplus (.arr (j :: rest)) = (do
      let (found, left) ←
        visitItems (s!"{name} with " ++ count r.fields.length "element") 1 fields rest
      let x ← r.build ((f.key, j) :: found)
      if left.isEmpty then .ok x
      else .error (.invalidLength (rest.length + 1) (surplus r.fields.length))) := by
  simp only [read]
  generalize s!"{name} with " ++ count r.fields.length "element" = expected
  rw [hr, visitItems, hc]
  simp only [bind_assoc, pure_bind, List.length_cons]
  rfl

/-! ## Building -/

theorem build_map_eq {α β : Type} (f : α → β) (r : Record α) (slots : Slots) :
    (f <$> r).build slots = do let x ← r.build slots; return f x := rfl

theorem build_seq_eq {α β : Type} (r : Record (α → β)) (s : Record α) (slots : Slots) :
    (r <*> s).build slots = do let f ← r.build slots; let x ← s.build slots; return f x := rfl

end Switchboard.Json.Record
