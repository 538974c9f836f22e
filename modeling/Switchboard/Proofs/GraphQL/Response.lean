import Switchboard.GraphQL.Response
import Switchboard.Proofs.GraphQL.Document

/-!
# Switchboard.Proofs.GraphQL.Response

A response reads back as it was written, with all its errors, their places and their paths.

* `Location.Regular`, `FieldError.Regular`, `Response.Regular` — no optional value is null,
  and the numbers of a place fit 32 bits;
* `ofJson_toJson` — such things are read back;
* `regular_of_ofJson` — no others are read.
-/

namespace Switchboard.GraphQL

open Json Record

/-! ## Places and paths -/

namespace Location

variable {l : Location} {j : Json}

/-- The numbers of a place fit 32 bits. -/
structure Regular (l : Location) : Prop where
  line : l.line < UInt32.size
  column : l.column < UInt32.size

theorem natural_ofNat {name : String} {bound n : Nat} (h : n < bound) :
    natural name bound (.int n) = .ok n := by
  rw [natural, if_pos (by omega), Int.toNat_natCast]

theorem lt_of_natural {name : String} {bound n : Nat} (h : natural name bound j = .ok n) :
    n < bound := by
  unfold natural at h
  split at h
  · split at h
    · cases h; omega
    · cases h
  · cases h

theorem ofJson_toJson (hl : l.Regular) : ofJson l.toJson = .ok l := by
  refine decode_object ((proper_required _ _).map.seq (proper_required _ _)) (by simp)
    (fun slots hlookup => ?_) _
  exact build_seq.2 ⟨_, build_map.2 ⟨l.line,
    build_required.2 ⟨_, hlookup "line", natural_ofNat hl.line⟩, rfl⟩,
    l.column, build_required.2 ⟨_, hlookup "column", natural_ofNat hl.column⟩, rfl⟩

theorem regular_of_ofJson (h : ofJson j = .ok l) : l.Regular := by
  unfold ofJson Record.decode at h
  obtain ⟨slots, hb, -⟩ := exists_build_of_read h
  simp only [build_seq, build_map, build_required] at hb
  obtain ⟨_, ⟨line, ⟨_, -, hline⟩, rfl⟩, column, ⟨_, -, hcolumn⟩, rfl⟩ := hb
  exact ⟨lt_of_natural hline, lt_of_natural hcolumn⟩

theorem limited_toJson {n : Nat} (hl : l.Regular) : Limited (n + 1) l.toJson := by
  have hsize : UInt32.size ≤ maxWhole := by decide
  obtain ⟨hline, hcolumn⟩ := hl
  have hfits : ∀ k : Nat, k < UInt32.size → Fits64 k := fun k hk => ⟨by omega, by omega⟩
  refine .object fun p hp => ?_
  simp only [List.mem_cons, List.not_mem_nil, or_false] at hp
  rcases hp with rfl | rfl
  · exact .int (hfits _ hline)
  · exact .int (hfits _ hcolumn)

end Location

/-- A path is read back, with each of its steps as the kind of step it is. -/
theorem pathOfJson_toJson (path : List PathSegment) :
    pathOfJson (.arr (path.map (·.toJson))) = .ok path := by
  have hstep : ∀ s ∈ path, PathSegment.ofJson s.toJson = .ok (id s) := by
    rintro (name | n) -
    · rfl
    · rw [PathSegment.toJson, PathSegment.ofJson, if_pos (by omega), Int.toNat_natCast]
      rfl
  have h := decodeItems_map hstep
  rwa [List.map_id] at h

/-- A path is written as what it was read from. -/
theorem toJson_of_pathOfJson {j : Json} {path : List PathSegment} (h : pathOfJson j = .ok path) :
    .arr (path.map (·.toJson)) = j := by
  have hstep : ∀ {i s}, PathSegment.ofJson i = .ok s → s.toJson = i := by
    intro i s hs
    unfold PathSegment.ofJson at hs
    split at hs
    · cases hs; rfl
    · split at hs
      · next n hn =>
        cases hs
        exact congrArg Json.int (Int.toNat_of_nonneg hn)
      · cases hs
    · cases hs
  cases j with
  | arr items => exact congrArg Json.arr (map_of_decodeItems hstep h)
  | _ => cases h

/-! ## Errors -/

namespace FieldError

variable {e : FieldError} {j : Json}

/-- The extensions are not null, and the places fit. -/
structure Regular (e : FieldError) : Prop where
  locations : ∀ ls, e.locations = some ls → ∀ l ∈ ls, l.Regular
  extensions : e.extensions ≠ some .null

theorem ofJson_toJson (he : e.Regular) : ofJson e.toJson = .ok e := by
  obtain ⟨message, locations, path, extensions⟩ := e
  obtain ⟨hlocations, hextensions⟩ := he
  refine decode_object ((((proper_required _ _).map.seq (proper_defaulted _ _ _)).seq
    (proper_defaulted _ _ _)).seq (proper_defaulted _ _ _)) ?_ (fun slots hlookup => ?_) _
  · cases locations <;> cases path <;> cases extensions <;> simp [Document.field]
  obtain ⟨hl, hp, hx⟩ :
      slots.lookup "locations" = locations.map (fun ls => .arr (ls.map (·.toJson))) ∧
        slots.lookup "path" = path.map (fun p => .arr (p.map (·.toJson))) ∧
          slots.lookup "extensions" = extensions.map id := by
    rw [hlookup, hlookup, hlookup]
    cases locations <;> cases path <;> cases extensions <;> exact ⟨rfl, rfl, rfl⟩
  have hread : ∀ ls, locations = some ls →
      sequence Location.ofJson (.arr (ls.map (·.toJson))) = .ok ls := by
    intro ls hls
    have h := decodeItems_map (f := id) fun l hl => Location.ofJson_toJson (hlocations ls hls l hl)
    rwa [List.map_id] at h
  refine build_seq.2 ⟨_, build_seq.2 ⟨_, build_seq.2 ⟨_, build_map.2 ⟨message,
    build_required.2 ⟨_, hlookup "message", rfl⟩, rfl⟩,
    locations, ?_, rfl⟩, path, ?_, rfl⟩, extensions, ?_, rfl⟩
  · exact (build_defaulted_none _ _ _).trans
      (build_written hl fun ls hls => ⟨by simp, hread ls hls⟩)
  · exact (build_defaulted_none _ _ _).trans
      (build_written hp fun p _ => ⟨by simp, pathOfJson_toJson p⟩)
  · exact (build_defaulted_none _ _ _).trans
      (build_written hx fun x he => ⟨fun hnull => hextensions (hnull ▸ he), rfl⟩)

/-- Whatever is read as an error is regular, and is written no deeper. -/
theorem regular_of_ofJson (h : ofJson j = .ok e) :
    e.Regular ∧ ∀ {n}, Limited (n + 3) j → Limited (n + 3) e.toJson := by
  unfold ofJson Record.decode at h
  obtain ⟨slots, hb, hparts⟩ := exists_build_of_read h
  simp only [build_seq, build_map] at hb
  obtain ⟨_, ⟨_, ⟨_, ⟨message, -, rfl⟩, locations, hlocations, rfl⟩, path, hpath, rfl⟩,
    extensions, hextensions, rfl⟩ := hb
  rw [build_defaulted_none] at hlocations hpath hextensions
  obtain ⟨hne, hfound⟩ := ne_null_of_build keepsNull_id hextensions
  have hregular : ∀ ls, locations = some ls → ∀ l ∈ ls, l.Regular := by
    rintro ls rfl l hl
    obtain ⟨k, -, hk⟩ := exists_of_build_some hlocations
    obtain ⟨i, -, hi⟩ := exists_of_sequence hk l hl
    exact Location.regular_of_ofJson hi
  refine ⟨⟨hregular, hne⟩, fun hj => .object fun p hp => ?_⟩
  simp only [List.mem_append, List.mem_cons] at hp
  rcases hp with ((rfl | hp) | hp) | hp
  · exact .str message
  · obtain ⟨ls, hls, rfl⟩ := Document.mem_field hp
    refine .arr fun i hi => ?_
    obtain ⟨l, hl, rfl⟩ := List.mem_map.1 hi
    exact Location.limited_toJson (hregular ls hls l hl)
  · obtain ⟨path, rfl, rfl⟩ := Document.mem_field hp
    obtain ⟨k, hk, hread⟩ := exists_of_build_some hpath
    rw [toJson_of_pathOfJson hread]
    exact hj.parts _ (hparts _ hk)
  · obtain ⟨x, hx, rfl⟩ := Document.mem_field hp
    obtain ⟨i, hi, rfl⟩ := hfound x hx
    exact hj.parts _ (hparts _ hi)

end FieldError

/-! ## Responses -/

namespace Response

variable {r : Response Json} {j : Json}

/-- Neither the data nor the extensions are null, and the errors are regular. -/
structure Regular (r : Response Json) : Prop where
  data : r.data ≠ some .null
  errors : ∀ e ∈ r.errors, e.Regular
  extensions : r.extensions ≠ some .null

theorem ofJson_toJson (hr : r.Regular) : ofJson anything (r.toJson id) = .ok r := by
  obtain ⟨data, errors, extensions⟩ := r
  obtain ⟨hdata, herrors, hextensions⟩ := hr
  refine decode_object (((proper_defaulted _ _ _).map.seq (proper_defaulted _ _ _)).seq
    (proper_defaulted _ _ _)) ?_ (fun slots hlookup => ?_) _
  · cases errors <;> cases extensions <;> simp [Document.field, hasErrors]
  have hd : slots.lookup "data" = some (data.getD .null) := by
    rw [hlookup]; cases data <;> rfl
  have hx : slots.lookup "extensions" = extensions.map id := by
    rw [hlookup]; cases errors <;> cases extensions <;> rfl
  refine build_seq.2 ⟨_, build_seq.2 ⟨_, build_map.2 ⟨data, ?_, rfl⟩, errors, ?_, rfl⟩,
    extensions, ?_, rfl⟩
  · rw [build_defaulted_none]
    cases data with
    | none => exact build_null (f := id) hd
    | some x => exact build_present (f := id) keepsNull_id hdata (congrArg _ hd)
  · have hread := decodeItems_map (f := id) fun e he => FieldError.ofJson_toJson (herrors e he)
    rw [List.map_id] at hread
    cases errors with
    | nil => exact build_defaulted.2 (.inl ⟨(hlookup _).trans (by cases extensions <;> rfl), rfl⟩)
    | cons e rest => exact build_defaulted.2 (.inr ⟨_, hlookup "errors", hread⟩)
  · exact (build_defaulted_none _ _ _).trans
      (build_written hx fun x hx => ⟨fun hnull => hextensions (hnull ▸ hx), rfl⟩)

/-- Whatever is read as a response is regular, and is written no deeper. -/
theorem regular_of_ofJson (h : ofJson anything j = .ok r) :
    r.Regular ∧ ∀ {n}, Limited (n + 5) j → Limited (n + 5) (r.toJson id) := by
  unfold ofJson Record.decode at h
  obtain ⟨slots, hb, hparts⟩ := exists_build_of_read h
  simp only [build_seq, build_map] at hb
  obtain ⟨_, ⟨_, ⟨data, hdata, rfl⟩, errors, herrors, rfl⟩, extensions, hextensions, rfl⟩ := hb
  rw [build_defaulted_none] at hdata hextensions
  obtain ⟨hdne, hdfound⟩ := ne_null_of_build keepsNull_id hdata
  obtain ⟨hene, hefound⟩ := ne_null_of_build keepsNull_id hextensions
  have heach : ∀ e ∈ errors, e.Regular ∧
      ∀ {n}, Limited (n + 5) j → Limited (n + 3) e.toJson := by
    intro e he
    rcases build_defaulted.1 herrors with ⟨-, rfl⟩ | ⟨k, hk, hread⟩
    · cases he
    · obtain ⟨i, hi, hie⟩ := exists_of_sequence hread e he
      obtain ⟨hregular, hlimited⟩ := FieldError.regular_of_ofJson hie
      have hk := hparts _ (Keyed.mem_of_get? hk)
      exact ⟨hregular, fun hj => hlimited ((hj.parts _ hk).parts _ hi)⟩
  refine ⟨⟨hdne, fun e he => (heach e he).1, hene⟩, fun {n} hj => .object fun p hp => ?_⟩
  simp only [List.mem_append, List.mem_cons] at hp
  rcases hp with (rfl | hp) | hp
  · cases data with
    | none => exact .null
    | some x =>
        obtain ⟨i, hi, rfl⟩ := hdfound x rfl
        exact hj.parts _ (hparts _ hi)
  · split at hp
    · rw [List.mem_singleton.1 hp]
      refine .arr fun i hi => ?_
      obtain ⟨e, he, rfl⟩ := List.mem_map.1 hi
      exact (heach e he).2 hj
    · cases hp
  · obtain ⟨x, hx, rfl⟩ := Document.mem_field hp
    obtain ⟨i, hi, rfl⟩ := hefound x hx
    exact hj.parts _ (hparts _ hi)

end Response

end Switchboard.GraphQL
