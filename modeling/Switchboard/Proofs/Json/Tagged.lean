import Switchboard.Json.Tagged
import Switchboard.Proofs.Json.Legible
import Switchboard.Proofs.Json.Record

/-!
# Switchboard.Proofs.Json.Tagged

What a reader of tagged values reads.

* `splitTag_obj` — the tag is found wherever it stands in an object;
* `ofJson_obj` — an object is read by the reader for its tag;
* `within_of_splitTag` — without its tag a value nests no deeper;
* `exists_reader` — whatever is read was read by one of the readers.
-/

namespace Switchboard.Json

variable {τ α : Type} {tags : List (String × τ)} {fields : List (String × Json)}

/-! ## Tags -/

theorem takeTag_of_not_mem (h : tagKey ∉ fields.map (·.1)) (found : Option τ) :
    takeTag tags found fields = .ok (found, fields) := by
  induction fields with
  | nil => rfl
  | cons p rest ih =>
      obtain ⟨k, j⟩ := p
      obtain ⟨hk, hrest⟩ := List.ne_and_not_mem_of_not_mem_cons h
      rw [takeTag, if_neg (Ne.symm hk), ih hrest]
      rfl

theorem takeTag_of_lookup (hn : (fields.map (·.1)).Nodup) {j : Json} {t : τ}
    (hj : fields.lookup tagKey = some j) (ht : variant tags j = .ok t) :
    takeTag tags none fields = .ok (some t, Keyed.erase tagKey fields) := by
  induction fields with
  | nil => cases hj
  | cons p rest ih =>
      obtain ⟨k, i⟩ := p
      obtain ⟨hk, hrest⟩ := List.nodup_cons.1 hn
      rw [List.lookup_cons] at hj
      by_cases hkey : k = tagKey
      · subst hkey
        have hij : i = j := by simpa using hj
        subst hij
        have herase : Keyed.erase tagKey ((tagKey, i) :: rest) = rest :=
          (List.filter_cons_of_neg (by simp)).trans (Keyed.erase_of_not_mem hk)
        rw [takeTag, if_pos rfl, ht, herase]
        exact takeTag_of_not_mem hk (some t)
      · rw [beq_false_of_ne (Ne.symm hkey)] at hj
        have herase : Keyed.erase tagKey ((k, i) :: rest) = (k, i) :: Keyed.erase tagKey rest :=
          List.filter_cons_of_pos (by simp [hkey])
        rw [takeTag, if_neg hkey, ih hrest hj, herase]
        rfl

/-- The tag is found wherever it stands in an object. -/
theorem splitTag_obj (name : String) (hn : (fields.map (·.1)).Nodup) {tag : String} {t : τ}
    (htag : fields.lookup tagKey = some (.str tag)) (ht : tags.lookup tag = some t) :
    splitTag name tags (.obj fields) = .ok (t, .obj (Keyed.erase tagKey fields)) := by
  have hv : variant tags (.str tag) = .ok t := by rw [variant, ht]
  rw [splitTag, takeTag_of_lookup hn htag hv]
  rfl

theorem exists_tag_of_variant {j : Json} {t : τ} (h : variant tags j = .ok t) :
    ∃ tag, (tag, t) ∈ tags := by
  cases j with
  | str s =>
      rw [variant] at h
      cases hl : tags.lookup s with
      | none => rw [hl] at h; cases h
      | some u =>
          rw [hl] at h
          cases h
          exact ⟨s, Keyed.mem_of_get? hl⟩
  | _ => cases h

theorem exists_tag_of_takeTag {found : Option τ} {others : List (String × Json)} {t : τ}
    (h : takeTag tags found fields = .ok (some t, others)) :
    found = some t ∨ ∃ tag, (tag, t) ∈ tags := by
  induction fields generalizing found others with
  | nil => cases h; exact .inl rfl
  | cons p rest ih =>
      obtain ⟨k, j⟩ := p
      rw [takeTag] at h
      split at h
      · split at h
        · cases h
        · obtain ⟨u, hu, h⟩ := bind_eq_ok.1 h
          rcases ih h with hfound | hmem
          · cases hfound
            exact .inr (exists_tag_of_variant hu)
          · exact .inr hmem
      · obtain ⟨⟨found', others'⟩, hrest, h⟩ := bind_eq_ok.1 h
        cases h
        exact ih hrest

theorem exists_tag_of_splitTag {name : String} {j body : Json} {t : τ}
    (h : splitTag name tags j = .ok (t, body)) : ∃ tag, (tag, t) ∈ tags := by
  unfold splitTag at h
  split at h
  · next fields =>
    obtain ⟨⟨found, others⟩, hf, h⟩ := bind_eq_ok.1 h
    cases found with
    | none => cases h
    | some u => cases h; exact (exists_tag_of_takeTag hf).resolve_left nofun
  · cases h
  · obtain ⟨u, hu, h⟩ := bind_eq_ok.1 h
    cases h
    exact exists_tag_of_variant hu
  · cases h

theorem mem_of_takeTag {found taken : Option τ} {others : List (String × Json)}
    (h : takeTag tags found fields = .ok (taken, others)) : ∀ p ∈ others, p ∈ fields := by
  induction fields generalizing found others with
  | nil => cases h; exact fun _ hp => hp
  | cons q rest ih =>
      obtain ⟨k, j⟩ := q
      intro p hp
      rw [takeTag] at h
      split at h
      · split at h
        · cases h
        · obtain ⟨_, -, h⟩ := bind_eq_ok.1 h
          exact List.mem_cons_of_mem _ (ih h p hp)
      · obtain ⟨⟨found', others'⟩, hrest, h⟩ := bind_eq_ok.1 h
        cases h
        rcases List.mem_cons.1 hp with rfl | hp
        · exact List.mem_cons_self
        · exact List.mem_cons_of_mem _ (ih hrest p hp)

/-- Without its tag a value nests no deeper and has no other numbers. -/
theorem within_of_splitTag {whole : Int → Prop} {float : Double → Prop} {n : Nat} {name : String}
    {j body : Json} {t : τ} (h : splitTag name tags j = .ok (t, body))
    (hj : Within whole float n j) : Within whole float n body := by
  unfold splitTag at h
  split at h
  · obtain ⟨⟨found, others⟩, hf, h⟩ := bind_eq_ok.1 h
    cases hj with
    | obj each =>
    cases found with
    | none => cases h
    | some u => cases h; exact .obj fun p hp => each p (mem_of_takeTag hf p hp)
  · cases h
  · obtain ⟨u, -, h⟩ := bind_eq_ok.1 h
    cases h
    cases hj with
    | arr each => exact .arr fun i hi => each i (List.mem_cons_of_mem _ hi)
  · cases h

/-! ## Shapes -/

namespace Shapes

variable {s : Shapes α}

/-- An object is read by the reader for its tag. -/
theorem ofJson_obj (hn : (fields.map (·.1)).Nodup) {tag : String} {d : Decoder α}
    (htag : fields.lookup tagKey = some (.str tag)) (hd : s.table.lookup tag = some d) :
    s.ofJson (.obj fields) = d (.obj (Keyed.erase tagKey fields)) := by
  rw [ofJson, splitTag_obj s.name hn htag hd]
  rfl

/-- Whatever is read was read by one of the readers, from a value that nests no deeper. -/
theorem exists_reader {j : Json} {x : α} (h : s.ofJson j = .ok x) :
    ∃ p ∈ s.table, ∃ body, p.2 body = .ok x ∧ ∀ {n}, Limited n j → Limited n body := by
  obtain ⟨⟨d, body⟩, hs, hx⟩ := bind_eq_ok.1 h
  obtain ⟨tag, hmem⟩ := exists_tag_of_splitTag hs
  exact ⟨_, hmem, body, hx, fun hj => within_of_splitTag hs hj⟩

/-- A text is read as the value that it holds. -/
theorem ofText_of_scan {text : String} {j : Json} (h : scan text = .whole j []) {x : α}
    (hx : s.ofJson j = .ok x) : s.ofText text = .ok x := by
  rw [ofText, h]
  simp only [hx]
  rfl

/-- Whatever is read from a text was read from a value that the text holds. -/
theorem exists_ofJson {text : String} {x : α} (h : s.ofText text = .ok x) :
    ∃ j, scan text = .whole j [] ∧ s.ofJson j = .ok x := by
  unfold ofText at h
  split at h
  · next j rest hscan =>
    obtain ⟨y, hy, h⟩ := bind_eq_ok.1 h
    split at h
    · next hrest =>
      cases h
      rw [List.isEmpty_iff.1 hrest] at hscan
      refine ⟨j, hscan, ?_⟩
      cases hj : s.ofJson j with
      | error e => rw [hj] at hy; cases hy
      | ok z => rw [hj] at hy; cases hy; rfl
    · cases h
  · cases h

end Shapes
end Switchboard.Json
