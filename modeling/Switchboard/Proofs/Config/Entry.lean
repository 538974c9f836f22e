import Switchboard.Proofs.Config.Valid
import Switchboard.Proofs.Json.Agree

/-!
# Switchboard.Proofs.Config.Entry

One entry of a configuration, as it stands under its name.

* `ofJson_toJson` — an entry is read back from what it is written as;
* `ofJson_renamed` — the name that an entry gives itself does not count;
* `Fits`, `Fault` — the values that are entries, and what is reported of the others.
-/

namespace Switchboard

open Json Record

/-! ## Reading back -/

theorem EndpointType.ofJson_name (t : EndpointType) :
    EndpointType.ofJson (.str t.name) = .ok t := by
  cases t <;> rfl

theorem Authorization.ofJson_name (a : Authorization) :
    Authorization.ofJson (.str a.name) = .ok a := by
  cases a <;> rfl

namespace Api

variable {name : String} {slots slots' : Slots}

theorem nullable_optionalString (s : Option String) :
    nullable string (optionalString s) = .ok s := by
  cases s <;> rfl

theorem proper_record : Proper record :=
  (((((((proper_defaulted _ _ _).map).seq (proper_defaulted _ _ _)).seq
    (proper_required _ _)).seq (proper_defaulted _ _ _)).seq (proper_defaulted _ _ _)).seq
      (proper_defaulted _ _ _)).seq (proper_defaulted _ _ _)

/-- An entry is read back under its name. -/
theorem ofJson_toJson (api : Api) : ofJson api.name api.toJson = .ok api := by
  have hread : record.decode "ApiConfiguration" api.toJson = .ok { api with name := "" } := by
    refine decode_object proper_record (by simp) (fun slots hlookup => ?_) _
    simp only [record, build_seq, build_map, build_required, build_defaulted, hlookup]
    exact ⟨_, ⟨_, ⟨_, ⟨_, ⟨_, ⟨_, ⟨"", .inl ⟨rfl, rfl⟩, rfl⟩,
      api.endpointType, .inr ⟨_, rfl, api.endpointType.ofJson_name⟩, rfl⟩,
      api.endpoint, ⟨_, rfl, rfl⟩, rfl⟩,
      api.realtimeEndpoint, .inr ⟨_, rfl, nullable_optionalString _⟩, rfl⟩,
      api.region, .inr ⟨_, rfl, nullable_optionalString _⟩, rfl⟩,
      api.authorization, .inr ⟨_, rfl, api.authorization.ofJson_name⟩, rfl⟩,
      api.apiKey, .inr ⟨_, rfl, nullable_optionalString _⟩, rfl⟩
  exact bind_eq_ok.2 ⟨_, hread, rfl⟩

/-! ## The name of an entry -/

/-- Two values that are the same entry but for the name that it gives itself: another one,
or none. -/
inductive Renamed : Json → Json → Prop where
  | field {fields : Keyed Json} (ordered : fields.Ordered) (s t : String) :
      Renamed (.obj (Keyed.set "name" (.str s) fields)) (.obj (Keyed.set "name" (.str t) fields))
  | dropped {fields : Keyed Json} (ordered : fields.Ordered) (s : String) :
      Renamed (.obj (Keyed.set "name" (.str s) fields)) (.obj (Keyed.erase "name" fields))
  | item (s t : String) (rest : List Json) : Renamed (.arr (.str s :: rest)) (.arr (.str t :: rest))

/-- What is found where an entry may give itself a name. -/
def IsName (j : Option Json) : Prop := j = none ∨ ∃ s, j = some (.str s)

theorem exists_build_name (h : IsName (slots.lookup "name")) :
    ∃ s, (defaulted "name" "" string).build slots = .ok s := by
  rcases h with h | ⟨s, h⟩
  · exact ⟨"", build_defaulted.2 (.inl ⟨h, rfl⟩)⟩
  · exact ⟨s, build_defaulted.2 (.inr ⟨_, h, rfl⟩)⟩

theorem build_rename (h : IsName (slots.lookup "name")) (h' : IsName (slots'.lookup "name"))
    (hothers : ∀ k, k ≠ "name" → slots.lookup k = slots'.lookup k) (name : String) :
    (do let api ← record.build slots; return { api with name } : Except DecodeError Api) =
      do let api ← record.build slots'; return { api with name } := by
  obtain ⟨s, hs⟩ := exists_build_name h
  obtain ⟨t, ht⟩ := exists_build_name h'
  have hsame {α : Type} (key : String) (value : α) (d : Decoder α) (hkey : key ≠ "name") :
      (defaulted key value d).build slots = (defaulted key value d).build slots' := by
    simp only [defaulted, hothers key hkey]
  have hendpoint : (required "endpoint" string).build slots =
      (required "endpoint" string).build slots' := by
    simp only [required, hothers "endpoint" (by decide)]
  simp only [record, build_seq_eq, build_map_eq, bind_assoc, pure_bind, hs, ht, hendpoint]
  rw [hsame "endpointType" _ _ (by decide), hsame "realtimeEndpoint" _ _ (by decide),
    hsame "region" _ _ (by decide), hsame "authorizationType" _ _ (by decide),
    hsame "apiKey" _ _ (by decide)]
  rfl

/-- What is read does not depend on the name that an entry gives itself, in a field -/
theorem ofJson_set_name {fields : Keyed Json} (ordered : fields.Ordered) (s name : String) :
    ofJson name (.obj (Keyed.set "name" (.str s) fields)) =
      ofJson name (.obj (Keyed.erase "name" fields)) := by
  obtain ⟨before, after, herase, hset⟩ := ordered.exists_place "name"
  have hgone : "name" ∉ (before ++ after).map (·.1) := by
    rw [← herase]
    intro hmem
    obtain ⟨p, hp, heq⟩ := List.mem_map.1 hmem
    exact (Keyed.mem_erase.1 hp).2 heq
  rw [List.map_append, List.mem_append, not_or] at hgone
  have hagrees : Agrees "name" (some (.str s)) none
      (visitFields record.fields [] (before ++ ("name", .str s) :: after))
      (visitFields record.fields [] (before ++ after)) :=
    agrees_insert rfl rfl rfl hgone.1 hgone.2
  rw [hset, herase]
  show (visitFields record.fields [] _ >>= record.build) >>= _ =
    (visitFields record.fields [] _ >>= record.build) >>= _
  rw [bind_assoc, bind_assoc]
  exact hagrees.bind_congr fun _ _ hs ht hothers =>
    build_rename (.inr ⟨s, hs⟩) (.inl ht) hothers name

/-- or in the first item. -/
theorem ofJson_arr_name (s t : String) (rest : List Json) (name : String) :
    ofJson name (.arr (.str s :: rest)) = ofJson name (.arr (.str t :: rest)) := by
  simp only [ofJson, Record.decode]
  rw [read_arr_cons rfl rfl, read_arr_cons rfl rfl, bind_assoc, bind_assoc]
  refine congrArg (_ >>= ·) (funext fun (found, left) => ?_)
  have hothers : ∀ k, k ≠ "name" → List.lookup k (("name", Json.str s) :: found) =
      List.lookup k (("name", Json.str t) :: found) := by
    intro k hk
    rw [List.lookup_cons, List.lookup_cons, beq_false_of_ne hk]
  have hbuild := build_rename (.inr ⟨s, by simp⟩) (.inr ⟨t, by simp⟩) hothers name
  dsimp only
  rw [bind_assoc, bind_assoc]
  cases left with
  | nil => exact hbuild
  | cons j more =>
      have hfault := congrArg (· >>= fun _ => (Except.error (.invalidLength (rest.length + 1)
        "fewer elements in array") : Except DecodeError Api)) hbuild
      rw [bind_assoc, bind_assoc] at hfault
      exact hfault

theorem ofJson_renamed {j j' : Json} (h : Renamed j j') (name : String) :
    ofJson name j = ofJson name j' := by
  cases h with
  | field ordered s t => rw [ofJson_set_name ordered, ofJson_set_name ordered]
  | dropped ordered s => exact ofJson_set_name ordered s name
  | item s t rest => exact ofJson_arr_name s t rest name

/-! ## Entries under a name -/

/-- What is read under a name has that name, whatever it says itself. -/
theorem name_of_ofJson {j : Json} {api : Api} (h : ofJson name j = .ok api) : api.name = name := by
  obtain ⟨read, -, h⟩ := bind_eq_ok.1 h
  cases h
  rfl

/-- A value reads as an entry that can be used under a name. -/
def Fits (name : String) (j : Json) : Prop :=
  ∃ api, ofJson name j = .ok api ∧ api.validate = .ok ()

/-- What is reported of a value that does not read as an entry, or as one that cannot be used
under a name.  Either way the name is given. -/
inductive Fault (name : String) (j : Json) : ConfigError → Prop where
  | unread {e : DecodeError} (reads : ofJson name j = .error e) :
      Fault name j (.decode s!"API '{name}': {e.message}")
  | invalid {api : Api} {fault : EntryFault} (reads : ofJson name j = .ok api)
      (breaks : api.validate = .error (.invalid name fault)) : Fault name j (.invalid name fault)

theorem fits_or_fault (name : String) (j : Json) : Fits name j ∨ ∃ e, Fault name j e := by
  cases hread : ofJson name j with
  | error e => exact .inr ⟨_, .unread hread⟩
  | ok api =>
      cases hvalid : api.validate with
      | ok _ => exact .inl ⟨api, hread, hvalid⟩
      | error e =>
          obtain ⟨fault, rfl⟩ := validate_eq_error hvalid
          rw [name_of_ofJson hread] at hvalid
          exact .inr ⟨_, .invalid hread hvalid⟩

theorem Fault.not_fits {j : Json} {e : ConfigError} (h : Fault name j e) : ¬ Fits name j := by
  rintro ⟨api, hread, hvalid⟩
  cases h with
  | unread reads => cases hread.symm.trans reads
  | invalid reads breaks =>
      cases hread.symm.trans reads
      cases hvalid.symm.trans breaks

theorem not_fits_iff {j : Json} : ¬ Fits name j ↔ ∃ e, Fault name j e :=
  ⟨(fits_or_fault name j).resolve_left, fun ⟨_, h⟩ => h.not_fits⟩

end Api
end Switchboard
