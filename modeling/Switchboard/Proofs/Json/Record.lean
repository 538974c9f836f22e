import Switchboard.Proofs.Json.Legible
import Switchboard.Proofs.Outcome

/-!
# Switchboard.Proofs.Json.Record

What a reader of records reads.  The fields of an object are visited one after another, and
so are the items of an array, but what is built depends on the declared fields alone: on
what was found for each of them, and on nothing else that stands there.

* `build_map`, `build_seq` — a record is built field by field;
* `Proper` — what is built depends on declared fields, and these have passed their checks;
* `read_obj`, `decode_object` — an object is read if its fields build something;
* `exists_build_of_read` — whatever is read, from an object or an array, was built.
-/

namespace Switchboard.Json

variable {α β : Type}

/-- The items of an array, or the values of an object. -/
def parts : Json → List Json
  | .arr items => items
  | .obj fields => fields.map (·.2)
  | _ => []

theorem Within.parts {whole : Int → Prop} {float : Double → Prop} {n : Nat} {j : Json}
    (h : Within whole float (n + 1) j) : ∀ i ∈ j.parts, Within whole float n i := by
  cases h with
  | arr each => exact each
  | obj each =>
      intro i hi
      obtain ⟨p, hp, rfl⟩ := List.mem_map.1 hi
      exact each p hp
  | _ => exact fun _ hi => nomatch hi

/-! ## Plain values -/

/-- What is read as something is not null. -/
theorem nullable_some {d : Decoder α} {j : Json} {x : α} (h : nullable d j = .ok (some x)) :
    j ≠ .null ∧ d j = .ok x := by
  have hne : j ≠ .null := by rintro rfl; cases h
  have hmap : nullable d j = (d j).map some := by
    cases j with
    | null => exact absurd rfl hne
    | _ => rfl
  rw [hmap] at h
  cases hd : d j with
  | error e => rw [hd] at h; cases h
  | ok y => rw [hd] at h; cases h; exact ⟨hne, rfl⟩

theorem nullable_of_ne {d : Decoder α} {j : Json} {x : α} (hne : j ≠ .null) (h : d j = .ok x) :
    nullable d j = .ok (some x) := by
  cases j with
  | null => exact absurd rfl hne
  | _ => simp [nullable, h, Except.map]

theorem decodeItems_map {d : Decoder α} {write : β → Json} {f : β → α} {xs : List β}
    (h : ∀ x ∈ xs, d (write x) = .ok (f x)) : decodeItems d (xs.map write) = .ok (xs.map f) := by
  induction xs with
  | nil => rfl
  | cons x rest ih =>
      have hx := h x List.mem_cons_self
      have hrest := ih fun y hy => h y (List.mem_cons_of_mem x hy)
      rw [List.map_cons, decodeItems, hx, hrest]
      rfl

theorem mem_of_decodeItems {d : Decoder α} {items : List Json} {xs : List α}
    (h : decodeItems d items = .ok xs) : ∀ x ∈ xs, ∃ j ∈ items, d j = .ok x := by
  induction items generalizing xs with
  | nil => cases h; intro x hx; cases hx
  | cons j rest ih =>
      rw [decodeItems] at h
      obtain ⟨y, hy, h⟩ := bind_eq_ok.1 h
      obtain ⟨ys, hys, h⟩ := bind_eq_ok.1 h
      cases h
      intro x hx
      rcases List.mem_cons.1 hx with rfl | hx
      · exact ⟨j, List.mem_cons_self, hy⟩
      · obtain ⟨i, hi, hx⟩ := ih hys x hx
        exact ⟨i, List.mem_cons_of_mem j hi, hx⟩

/-- What is read is the item that was written, if every item is written as it was read. -/
theorem map_of_decodeItems {d : Decoder α} {write : α → Json}
    (h : ∀ {j x}, d j = .ok x → write x = j) {items : List Json} {xs : List α}
    (hx : decodeItems d items = .ok xs) : xs.map write = items := by
  induction items generalizing xs with
  | nil => cases hx; rfl
  | cons j rest ih =>
      rw [decodeItems] at hx
      obtain ⟨y, hy, hx⟩ := bind_eq_ok.1 hx
      obtain ⟨ys, hys, hx⟩ := bind_eq_ok.1 hx
      cases hx
      rw [List.map_cons, h hy, ih hys]

/-- Each item that is read was read from an item. -/
theorem exists_of_sequence {d : Decoder α} {j : Json} {xs : List α} (h : sequence d j = .ok xs) :
    ∀ x ∈ xs, ∃ i ∈ j.parts, d i = .ok x := by
  cases j with
  | arr items => exact mem_of_decodeItems h
  | _ => cases h

namespace Record

variable {r : Record α} {slots : Slots} {key : String} {d : Decoder α}

/-! ## Building -/

@[simp] theorem build_map {f : α → β} {y : β} :
    (f <$> r).build slots = .ok y ↔ ∃ x, r.build slots = .ok x ∧ f x = y := by
  show (do let x ← r.build slots; return f x) = Except.ok y ↔ _
  simp only [bind_eq_ok, Pure.pure, Except.pure, Except.ok.injEq]

@[simp] theorem build_seq {r : Record (α → β)} {s : Record α} {y : β} :
    (r <*> s).build slots = .ok y ↔
      ∃ f, r.build slots = .ok f ∧ ∃ x, s.build slots = .ok x ∧ f x = y := by
  show (do let f ← r.build slots; let x ← s.build slots; return f x) = Except.ok y ↔ _
  simp only [bind_eq_ok, Pure.pure, Except.pure, Except.ok.injEq]

theorem build_required {x : α} :
    (required key d).build slots = .ok x ↔ ∃ j, slots.lookup key = some j ∧ d j = .ok x := by
  simp only [required]
  cases slots.lookup key <;> simp

theorem build_optional {x : Option α} :
    (optional key d).build slots = .ok x ↔
      slots.lookup key = none ∧ x = none ∨ ∃ j, slots.lookup key = some j ∧ nullable d j = .ok x := by
  simp only [optional]
  cases slots.lookup key <;> simp [eq_comm]

theorem build_defaulted {value x : α} :
    (defaulted key value d).build slots = .ok x ↔
      slots.lookup key = none ∧ x = value ∨ ∃ j, slots.lookup key = some j ∧ d j = .ok x := by
  simp only [defaulted]
  cases slots.lookup key <;> simp [eq_comm]

/-! ## Declared fields -/

/-- What is built depends on the declared fields alone, and they have passed their checks. -/
structure Proper (r : Record α) : Prop where
  congr : ∀ {s s' : Slots}, (∀ f ∈ r.fields, s.lookup f.key = s'.lookup f.key) →
    r.build s = r.build s'
  check : ∀ {s : Slots} {x : α}, r.build s = .ok x → ∀ f ∈ r.fields, ∀ j,
    s.lookup f.key = some j → f.check j = .ok ()

theorem proper_required (key : String) (d : Decoder α) : Proper (required key d) where
  congr h := by
    have hkey := h _ List.mem_cons_self
    simp only [required] at hkey ⊢
    rw [hkey]
  check hb f hf j hj := by
    cases List.mem_singleton.1 hf
    obtain ⟨i, hi, hx⟩ := build_required.1 hb
    cases hi.symm.trans hj
    exact bind_eq_ok.2 ⟨_, hx, rfl⟩

theorem proper_optional (key : String) (d : Decoder α) : Proper (optional key d) where
  congr h := by
    have hkey := h _ List.mem_cons_self
    simp only [optional] at hkey ⊢
    rw [hkey]
  check hb f hf j hj := by
    cases List.mem_singleton.1 hf
    rcases build_optional.1 hb with ⟨hnone, -⟩ | ⟨i, hi, hx⟩
    · cases hnone.symm.trans hj
    · cases hi.symm.trans hj
      exact bind_eq_ok.2 ⟨_, hx, rfl⟩

theorem proper_defaulted (key : String) (value : α) (d : Decoder α) :
    Proper (defaulted key value d) where
  congr h := by
    have hkey := h _ List.mem_cons_self
    simp only [defaulted] at hkey ⊢
    rw [hkey]
  check hb f hf j hj := by
    cases List.mem_singleton.1 hf
    rcases build_defaulted.1 hb with ⟨hnone, -⟩ | ⟨i, hi, hx⟩
    · cases hnone.symm.trans hj
    · cases hi.symm.trans hj
      exact bind_eq_ok.2 ⟨_, hx, rfl⟩

theorem Proper.map {f : α → β} (h : Proper r) : Proper (f <$> r) where
  congr hs := by
    show (do let x ← r.build _; return f x : Except _ _) = do let x ← r.build _; return f x
    rw [h.congr hs]
  check hb g hg := by
    obtain ⟨x, hx, -⟩ := build_map.1 hb
    exact h.check hx g hg

theorem Proper.seq {r : Record (α → β)} {s : Record α} (hr : Proper r) (hs : Proper s) :
    Proper (r <*> s) where
  congr h := by
    have hfirst := hr.congr fun f hf => h f (List.mem_append_left _ hf)
    have hlast := hs.congr fun f hf => h f (List.mem_append_right _ hf)
    show (do let f ← r.build _; let x ← s.build _; return f x : Except _ _) =
      do let f ← r.build _; let x ← s.build _; return f x
    rw [hfirst, hlast]
  check hb g hg := by
    obtain ⟨f, hf, x, hx, -⟩ := build_seq.1 hb
    exact (List.mem_append.1 hg).elim (hr.check hf g) (hs.check hx g)

/-! ## Reading -/

/-- Fields that pass their checks, none of them twice, are all found. -/
theorem visitFields_ok {fields : List Field} {entries : List (String × Json)}
    (hn : (entries.map (·.1)).Nodup) (found : Slots)
    (hnew : ∀ p ∈ entries, found.lookup p.1 = none)
    (hc : ∀ p ∈ entries, ∀ f ∈ fields, f.key = p.1 → f.check p.2 = .ok ()) :
    ∃ slots, visitFields fields found entries = .ok slots ∧
      ∀ f ∈ fields, slots.lookup f.key = (entries.lookup f.key).or (found.lookup f.key) := by
  induction entries generalizing found with
  | nil => exact ⟨found, rfl, fun _ _ => rfl⟩
  | cons p rest ih =>
      obtain ⟨k, j⟩ := p
      obtain ⟨hk, hrest⟩ := List.nodup_cons.1 hn
      have hcrest : ∀ p ∈ rest, ∀ f ∈ fields, f.key = p.1 → f.check p.2 = .ok () :=
        fun p hp => hc p (List.mem_cons_of_mem _ hp)
      rw [visitFields]
      cases hfind : fields.find? (·.key == k) with
      | none =>
          obtain ⟨slots, hv, hl⟩ :=
            ih hrest found (fun p hp => hnew p (List.mem_cons_of_mem _ hp)) hcrest
          refine ⟨slots, hv, fun f hf => ?_⟩
          have hne : (f.key == k) = false := by simpa using List.find?_eq_none.1 hfind f hf
          rw [hl f hf, List.lookup_cons, hne]
      | some f =>
          have hf : f ∈ fields := List.mem_of_find?_eq_some hfind
          have hkey : f.key = k := by simpa using List.find?_some hfind
          have hnone : found.lookup k = none := hnew (k, j) List.mem_cons_self
          have hcheck : f.check j = .ok () := hc (k, j) List.mem_cons_self f hf hkey
          have hnew' : ∀ p ∈ rest, List.lookup p.1 ((k, j) :: found) = none := by
            intro p hp
            have hne : (p.1 == k) = false :=
              beq_false_of_ne fun he => hk (List.mem_map.2 ⟨p, hp, he⟩)
            rw [List.lookup_cons, hne]
            exact hnew p (List.mem_cons_of_mem _ hp)
          obtain ⟨slots, hv, hl⟩ := ih hrest _ hnew' hcrest
          refine ⟨slots, ?_, fun g hg => ?_⟩
          · show (if (found.lookup k).isSome then _ else _) = _
            rw [hnone]
            exact bind_eq_ok.2 ⟨(), hcheck, hv⟩
          · rw [hl g hg, List.lookup_cons, List.lookup_cons]
            by_cases hgk : g.key = k
            · simp [hgk, Keyed.lookup_eq_none_of_not_mem hk]
            · simp [beq_false_of_ne hgk]

/-- An object that has no key twice is read if its fields build something. -/
theorem read_obj (h : Proper r) {entries : List (String × Json)}
    (hn : (entries.map (·.1)).Nodup) {x : α} (hb : r.build entries = .ok x) (name : String)
    (surplus : Nat → String) : r.read name surplus (.obj entries) = .ok x := by
  have hc : ∀ p ∈ entries, ∀ f ∈ r.fields, f.key = p.1 → f.check p.2 = .ok () := by
    intro p hp f hf hkey
    exact h.check hb f hf p.2 (hkey ▸ Keyed.lookup_of_mem hn hp)
  obtain ⟨slots, hv, hl⟩ := visitFields_ok hn [] (fun _ _ => rfl) hc
  have hsame : r.build slots = r.build entries := h.congr fun f hf => by simp [hl f hf]
  exact bind_eq_ok.2 ⟨slots, hv, hsame.trans hb⟩

/-- A record is read from the fields that it was written with. -/
theorem decode_object (h : Proper r) {fields : List (String × Json)}
    (hn : (fields.map (·.1)).Nodup) {x : α}
    (hb : ∀ slots : Slots, (∀ key, slots.lookup key = fields.lookup key) → r.build slots = .ok x)
    (name : String) : r.decode name (.object fields) = .ok x := by
  have hkeys := (Keyed.ordered_ofList fields).imp fun hlt => String.ne_of_lt hlt
  exact read_obj h hkeys (hb _ (Keyed.get?_ofList_of_nodup hn)) _ _

theorem mem_of_visitFields {fields : List Field} {found slots entries : Slots}
    (h : visitFields fields found entries = .ok slots) :
    ∀ p ∈ slots, p ∈ found ∨ p ∈ entries := by
  induction entries generalizing found with
  | nil => cases h; exact fun _ hp => .inl hp
  | cons q rest ih =>
      intro p hp
      rw [visitFields] at h
      split at h
      · exact (ih h p hp).imp_right (List.mem_cons_of_mem q)
      · split at h
        · cases h
        · obtain ⟨_, -, h⟩ := bind_eq_ok.1 h
          rcases ih h p hp with hfound | hrest
          · rcases List.mem_cons.1 hfound with rfl | hfound
            · exact .inr List.mem_cons_self
            · exact .inl hfound
          · exact .inr (List.mem_cons_of_mem q hrest)

theorem mem_of_visitItems {expected : String} {index : Nat} {fields : List Field}
    {items left : List Json} {slots : Slots}
    (h : visitItems expected index fields items = .ok (slots, left)) :
    ∀ p ∈ slots, p.2 ∈ items := by
  induction fields generalizing index items slots with
  | nil =>
      unfold visitItems at h
      cases h
      exact fun _ hp => nomatch hp
  | cons f fields ih =>
      cases items with
      | nil =>
          rw [visitItems] at h
          split at h
          · exact ih h
          · cases h
      | cons j items =>
          rw [visitItems] at h
          obtain ⟨_, -, h⟩ := bind_eq_ok.1 h
          obtain ⟨⟨found, left'⟩, hrest, h⟩ := bind_eq_ok.1 h
          cases h
          intro p hp
          rcases List.mem_cons.1 hp with rfl | hp
          · exact List.mem_cons_self
          · exact List.mem_cons_of_mem j (ih hrest p hp)

/-- Whatever is read, from an object or from an array, was built out of what was found
there. -/
theorem exists_build_of_read {name : String} {surplus : Nat → String} {j : Json} {x : α}
    (h : r.read name surplus j = .ok x) :
    ∃ slots : Slots, r.build slots = .ok x ∧ ∀ p ∈ slots, p.2 ∈ j.parts := by
  unfold read at h
  split at h
  · obtain ⟨slots, hv, hb⟩ := bind_eq_ok.1 h
    refine ⟨slots, hb, fun p hp => ?_⟩
    exact List.mem_map_of_mem ((mem_of_visitFields hv p hp).resolve_left nofun)
  · obtain ⟨⟨slots, left⟩, hv, hrest⟩ := bind_eq_ok.1 h
    obtain ⟨y, hb, hy⟩ := bind_eq_ok.1 hrest
    split at hy
    · cases hy
      exact ⟨slots, hb, mem_of_visitItems hv⟩
    · cases hy
  · cases h

end Record
end Switchboard.Json
