import Switchboard.GraphQL.Message
import Switchboard.Proofs.GraphQL.Document
import Switchboard.Proofs.Json.Tagged

/-!
# Switchboard.Proofs.GraphQL.Message

A message of the protocol reads back as it was written, with its fields in any order.  Either
side has its own way to write a payload that is absent: a client leaves it out, and a server
writes null.  Both are read as absent by both.

* `ofJson_tagged` — a message is read by the reader for its tag, from the fields it has;
* `ClientMessage.Regular`, `ServerMessage.Regular` — no optional value is null, and what is
  kept is in form;
* `ofJson_of_canonical` — such messages are read back;
* `regular_of_ofJson` — no others are read.
-/

namespace Switchboard.GraphQL

open Json Record

/-! ## Tags -/

section Tagged

variable {α : Type} {s : Shapes α} {tag name : String} {r : Record α}
  {fields : List (String × Json)} {j : Json} {x : α}

/-- A message is read by the reader for its tag, which finds all other fields. -/
theorem ofJson_tagged (hr : Proper r) (htable : s.table.lookup tag = some (r.decodeGathered name))
    (hfields : (((tagKey, .str tag) :: fields).map (·.1)).Nodup) (hd : j.Distinct)
    (hj : j.canonical = tagged tag fields)
    (hb : ∀ slots, (∀ p ∈ slots, p.2.Distinct) →
      (∀ key, key ≠ tagKey → (slots.lookup key).map canonical = fields.lookup key) →
      r.build slots = .ok x) : s.ofJson j = .ok x := by
  obtain ⟨raw, rfl, -⟩ := exists_obj_of_canonical hj
  cases hd with
  | obj hkeys heach =>
  have hlookup := lookup_canonical hkeys hfields hj
  have htag : raw.lookup tagKey = some (.str tag) := by
    have h := hlookup tagKey
    rw [List.lookup_cons_self, Option.map_eq_some_iff] at h
    obtain ⟨i, hi, hstr⟩ := h
    rw [hi, eq_str_of_canonical hstr]
  have hrest : ((Keyed.erase tagKey raw).map (·.1)).Nodup :=
    hkeys.sublist (List.filter_sublist.map _)
  rw [Shapes.ofJson_obj hkeys htag htable]
  refine read_obj hr hrest (hb _ (fun p hp => heach p (List.mem_filter.1 hp).1) ?_) _ _
  intro key hkey
  have hget : (Keyed.erase tagKey raw).lookup key = raw.lookup key :=
    Keyed.get?_erase_of_ne hkey raw
  rw [hget, hlookup key, List.lookup_cons, beq_false_of_ne hkey]

theorem canonical_tagged (h : ∀ p ∈ fields, p.2.canonical = p.2) :
    (tagged tag fields).canonical = tagged tag fields :=
  canonical_object (List.forall_mem_cons.2 ⟨rfl, h⟩)

theorem limited_tagged {n : Nat} (h : ∀ p ∈ fields, Limited n p.2) :
    Limited (n + 1) (tagged tag fields) :=
  .object (List.forall_mem_cons.2 ⟨.str tag, h⟩)

end Tagged

/-! ## Parts of messages -/

section Parts

variable {slots : Slots} {v : Option Json}

theorem build_id {i : String} (h : (slots.lookup "id").map canonical = some (.str i)) :
    (required "id" string).build slots = .ok i :=
  build_required.2 ⟨_, lookup_text (s := some i) h, rfl⟩

/-- A payload that is left out when it is absent. -/
theorem build_payload (hv : Kept v) (h : (slots.lookup "payload").map canonical = v) :
    (defaulted "payload" none (nullable value)).build slots = .ok v := by
  rw [build_defaulted_none]
  exact build_present keepsNull_canonical hv.ne_null h

/-- A payload that is null when it is absent. -/
theorem build_payload_getD (hv : Kept v)
    (h : (slots.lookup "payload").map canonical = some (v.getD .null)) :
    (defaulted "payload" none (nullable value)).build slots = .ok v := by
  cases v with
  | some j => exact build_payload hv h
  | none =>
      obtain ⟨j, hj, hnull⟩ := Option.map_eq_some_iff.1 h
      rw [eq_null_of_canonical hnull] at hj
      rw [build_defaulted_none]
      exact build_null hj

end Parts

/-! ## From the client -/

namespace ClientMessage

variable {j : Json} {m : ClientMessage} {d : Document}

/-- No optional value is null, and what is kept is in form. -/
def Regular : ClientMessage → Prop
  | init p | ping p | pong p => Kept p
  | subscribe _ d => Kept d.variableValues ∧ Kept d.extensions
  | complete _ => True

theorem document_of_canonical (hv : Kept d.variableValues) (he : Kept d.extensions)
    (hd : j.Distinct) (hj : j.canonical = d.toJson) : document j = .ok d := by
  obtain ⟨raw, rfl, -⟩ := exists_obj_of_canonical hj
  cases hd with
  | obj hkeys heach =>
  have hlookup := lookup_canonical hkeys d.nodup_fields hj
  obtain ⟨hquery, hname, hvariables, hextensions⟩ := d.lookup_fields
  unfold document decodeGathered
  refine read_obj (Document.proper_record _) hkeys ?_ _ _
  exact Document.build_record keepsNull_canonical ⟨hv.ne_null, he.ne_null⟩
    (lookup_text (s := some d.query) ((hlookup _).trans hquery))
    (lookup_text ((hlookup _).trans hname))
    ((hlookup _).trans hvariables) ((hlookup _).trans hextensions)

theorem kept_of_document (h : document j = .ok d) :
    (Kept d.variableValues ∧ Kept d.extensions) ∧
      ∀ {n}, Limited (n + 1) j → Limited (n + 1) d.toJson := by
  unfold document decodeGathered at h
  obtain ⟨slots, hb, hparts⟩ := exists_build_of_read h
  obtain ⟨hd, hvariables, hextensions⟩ := Document.regular_of_build keepsNull_canonical hb
  refine ⟨⟨kept_of_canonical hd.variableValues hvariables,
    kept_of_canonical hd.extensions hextensions⟩, fun hj => ?_⟩
  have hslots : ∀ p ∈ slots, Limited _ p.2 := fun p hp => hj.parts _ (hparts p hp)
  exact Document.limited_toJson (limited_of_canonical hslots hvariables)
    (limited_of_canonical hslots hextensions)

/-- A message was built out of what nests less deep than it does. -/
theorem exists_build_of_shape {variant : String} {r : Record ClientMessage}
    (h : shape variant r j = .ok m) : ∃ slots : Slots, r.build slots = .ok m ∧
      ∀ {n}, Limited (n + 1) j → ∀ p ∈ slots, Limited n p.2 := by
  unfold shape decodeGathered at h
  obtain ⟨slots, hb, hparts⟩ := exists_build_of_read h
  exact ⟨slots, hb, fun hj p hp => hj.parts _ (hparts p hp)⟩

/-- A message with nothing but a payload. -/
theorem ofJson_payload {make : Option Json → ClientMessage} {tag variant : String}
    (htable : shapes.table.lookup tag = some (shape variant (make <$> payload))) {p : Option Json}
    (hp : Kept p) (hd : j.Distinct)
    (hj : j.canonical = tagged tag (Document.field "payload" id p)) :
    ofJson j = .ok (make p) := by
  refine ofJson_tagged (proper_defaulted _ _ _).map htable ?_ hd hj fun slots _ hlookup => ?_
  · cases p <;> simp [Document.field, tagKey]
  · refine build_map.2 ⟨p, build_payload hp ?_, rfl⟩
    rw [hlookup "payload" (by decide)]
    cases p <;> rfl

/-- A message reads back from any value that is in form what it is written as. -/
theorem ofJson_of_canonical (hm : m.Regular) (hd : j.Distinct) (hj : j.canonical = m.toJson) :
    ofJson j = .ok m := by
  cases m with
  | init p => exact ofJson_payload rfl hm hd hj
  | ping p => exact ofJson_payload rfl hm hd hj
  | pong p => exact ofJson_payload rfl hm hd hj
  | complete i =>
      refine ofJson_tagged (proper_required _ _).map rfl (by simp [tagKey]) hd hj ?_
      intro slots _ hlookup
      exact build_map.2 ⟨i, build_id (hlookup "id" (by decide)), rfl⟩
  | subscribe i d =>
      obtain ⟨hv, he⟩ := hm
      refine ofJson_tagged ((proper_required _ _).map.seq (proper_required _ _)) rfl
        (by simp [tagKey]) hd hj ?_
      intro slots hdistinct hlookup
      obtain ⟨k, hk, hkd⟩ := Option.map_eq_some_iff.1 (hlookup "payload" (by decide))
      have hdocument := document_of_canonical hv he (hdistinct _ (Keyed.mem_of_get? hk)) hkd
      exact build_seq.2 ⟨_, build_map.2 ⟨i, build_id (hlookup "id" (by decide)), rfl⟩, d,
        build_required.2 ⟨k, hk, hdocument⟩, rfl⟩

theorem canonical_payload {p : Option Json} (hp : Kept p) {tag : String} :
    (tagged tag (Document.field "payload" id p)).canonical =
      tagged tag (Document.field "payload" id p) := by
  refine canonical_tagged fun q hq => ?_
  obtain ⟨x, hx, rfl⟩ := Document.mem_field hq
  exact hp.eq x hx

theorem canonical_document (hv : Kept d.variableValues) (he : Kept d.extensions) :
    d.toJson.canonical = d.toJson := by
  refine canonical_object fun p hp => ?_
  simp only [Document.fields, List.mem_append, List.mem_cons] at hp
  rcases hp with ((rfl | hname) | hvariables) | hextensions
  · rfl
  · obtain ⟨name, -, rfl⟩ := Document.mem_field hname
    rfl
  · obtain ⟨x, hx, rfl⟩ := Document.mem_field hvariables
    exact hv.eq x hx
  · obtain ⟨x, hx, rfl⟩ := Document.mem_field hextensions
    exact he.eq x hx

/-- A regular message is written in form. -/
theorem canonical_toJson (hm : m.Regular) : m.toJson.canonical = m.toJson := by
  cases m with
  | init p => exact canonical_payload hm
  | ping p => exact canonical_payload hm
  | pong p => exact canonical_payload hm
  | complete i => exact canonical_tagged (List.forall_mem_singleton.2 rfl)
  | subscribe i d =>
      refine canonical_tagged (List.forall_mem_cons.2 ⟨rfl, List.forall_mem_singleton.2 ?_⟩)
      exact canonical_document hm.1 hm.2

/-- A payload that was read is kept, and is written no deeper than it was found. -/
theorem exists_payload {make : Option Json → ClientMessage} {slots : Slots}
    (hb : (make <$> payload).build slots = .ok m) : ∃ p, make p = m ∧ Kept p ∧
      ∀ {n}, (∀ q ∈ slots, Limited n q.2) → ∀ {tag},
        Limited (n + 1) (tagged tag (Document.field "payload" id p)) := by
  obtain ⟨p, hp, rfl⟩ := build_map.1 hb
  obtain ⟨hkept, hform⟩ := kept_of_build hp
  refine ⟨p, rfl, hkept, fun hslots => limited_tagged fun q hq => ?_⟩
  obtain ⟨x, hx, rfl⟩ := Document.mem_field hq
  exact limited_of_canonical hslots hform x hx

/-- Whatever is read as a message is regular, and is written no deeper. -/
theorem regular_of_ofJson (h : ofJson j = .ok m) :
    m.Regular ∧ ∀ {n}, Limited (n + 2) j → Limited (n + 2) m.toJson := by
  obtain ⟨p, hp, body, hbody, hlimited⟩ := Shapes.exists_reader h
  -- One case for each reader, in the order of the table.
  simp only [shapes, List.mem_cons, List.not_mem_nil, or_false] at hp
  rcases hp with rfl | rfl | rfl | rfl | rfl <;>
    obtain ⟨slots, hb, hslots⟩ := exists_build_of_shape hbody
  · obtain ⟨p, rfl, hkept, hpayload⟩ := exists_payload hb
    exact ⟨hkept, fun hj => hpayload (hslots (hlimited hj))⟩
  · obtain ⟨_, hid, d, hd, rfl⟩ := build_seq.1 hb
    obtain ⟨i, -, rfl⟩ := build_map.1 hid
    obtain ⟨k, hk, hread⟩ := build_required.1 hd
    obtain ⟨hkept, hdocument⟩ := kept_of_document hread
    refine ⟨hkept, fun hj => limited_tagged ?_⟩
    have hpayload := hdocument (hslots (hlimited hj) _ (Keyed.mem_of_get? hk))
    simpa using And.intro (Within.str i) hpayload
  · obtain ⟨i, -, rfl⟩ := build_map.1 hb
    exact ⟨trivial, fun _ => limited_tagged (by simpa using Within.str i)⟩
  · obtain ⟨p, rfl, hkept, hpayload⟩ := exists_payload hb
    exact ⟨hkept, fun hj => hpayload (hslots (hlimited hj))⟩
  · obtain ⟨p, rfl, hkept, hpayload⟩ := exists_payload hb
    exact ⟨hkept, fun hj => hpayload (hslots (hlimited hj))⟩

end ClientMessage

/-! ## From the server -/

namespace ServerMessage

variable {j : Json} {m : ServerMessage}

/-- No optional value is null, and what is kept is in form. -/
def Regular : ServerMessage → Prop
  | ack p | ping p | pong p => Kept p
  | next _ p => p.canonical = p
  | error _ es => ∀ e ∈ es, e.canonical = e
  | complete _ => True

/-- A message was built out of what nests less deep than it does. -/
theorem exists_build_of_shape {variant : String} {r : Record ServerMessage}
    (h : shape variant r j = .ok m) : ∃ slots : Slots, r.build slots = .ok m ∧
      ∀ {n}, Limited (n + 1) j → ∀ p ∈ slots, Limited n p.2 := by
  unfold shape decodeGathered at h
  obtain ⟨slots, hb, hparts⟩ := exists_build_of_read h
  exact ⟨slots, hb, fun hj p hp => hj.parts _ (hparts p hp)⟩

theorem sequence_value (raw : List Json) : sequence value (.arr raw) = .ok (raw.map canonical) := by
  have h : decodeItems value (raw.map id) = .ok (raw.map canonical) :=
    decodeItems_map fun _ _ => rfl
  rwa [List.map_id] at h

/-- A message with nothing but a payload. -/
theorem ofJson_payload {make : Option Json → ServerMessage} {tag variant : String}
    (htable : shapes.table.lookup tag = some (shape variant (make <$> payload))) {p : Option Json}
    (hp : Kept p) (hd : j.Distinct) (hj : j.canonical = tagged tag [("payload", p.getD .null)]) :
    ofJson j = .ok (make p) := by
  refine ofJson_tagged (proper_defaulted _ _ _).map htable (by simp [tagKey]) hd hj ?_
  intro slots _ hlookup
  exact build_map.2 ⟨p, build_payload_getD hp (hlookup "payload" (by decide)), rfl⟩

/-- A message reads back from any value that is in form what it is written as. -/
theorem ofJson_of_canonical (hm : m.Regular) (hd : j.Distinct) (hj : j.canonical = m.toJson) :
    ofJson j = .ok m := by
  cases m with
  | ack p => exact ofJson_payload rfl hm hd hj
  | ping p => exact ofJson_payload rfl hm hd hj
  | pong p => exact ofJson_payload rfl hm hd hj
  | complete i =>
      refine ofJson_tagged (proper_required _ _).map rfl (by simp [tagKey]) hd hj ?_
      intro slots _ hlookup
      exact build_map.2 ⟨i, build_id (hlookup "id" (by decide)), rfl⟩
  | next i p =>
      refine ofJson_tagged ((proper_required _ _).map.seq (proper_required _ _)) rfl
        (by simp [tagKey]) hd hj ?_
      intro slots _ hlookup
      obtain ⟨k, hk, hkp⟩ := Option.map_eq_some_iff.1 (hlookup "payload" (by decide))
      exact build_seq.2 ⟨_, build_map.2 ⟨i, build_id (hlookup "id" (by decide)), rfl⟩, p,
        build_required.2 ⟨k, hk, congrArg Except.ok hkp⟩, rfl⟩
  | error i es =>
      refine ofJson_tagged ((proper_required _ _).map.seq (proper_required _ _)) rfl
        (by simp [tagKey]) hd hj ?_
      intro slots _ hlookup
      obtain ⟨k, hk, hke⟩ := Option.map_eq_some_iff.1 (hlookup "payload" (by decide))
      obtain ⟨raw, rfl, rfl⟩ := exists_arr_of_canonical hke
      exact build_seq.2 ⟨_, build_map.2 ⟨i, build_id (hlookup "id" (by decide)), rfl⟩, _,
        build_required.2 ⟨_, hk, sequence_value raw⟩, rfl⟩

theorem canonical_payload {p : Option Json} (hp : Kept p) {tag : String} :
    (tagged tag [("payload", p.getD .null)]).canonical = tagged tag [("payload", p.getD .null)] := by
  refine canonical_tagged (List.forall_mem_singleton.2 ?_)
  cases p with
  | none => rfl
  | some x => exact hp.eq x rfl

/-- A regular message is written in form. -/
theorem canonical_toJson (hm : m.Regular) : m.toJson.canonical = m.toJson := by
  cases m with
  | ack p => exact canonical_payload hm
  | ping p => exact canonical_payload hm
  | pong p => exact canonical_payload hm
  | complete i => exact canonical_tagged (List.forall_mem_singleton.2 rfl)
  | next i p =>
      exact canonical_tagged (List.forall_mem_cons.2 ⟨rfl, List.forall_mem_singleton.2 hm⟩)
  | error i es =>
      refine canonical_tagged (List.forall_mem_cons.2 ⟨rfl, List.forall_mem_singleton.2 ?_⟩)
      show (Json.arr es).canonical = .arr es
      rw [canonical, canonicalItems_eq, List.map_congr_left hm, List.map_id']

/-- A payload that was read is kept, and is written no deeper than it was found. -/
theorem exists_payload {make : Option Json → ServerMessage} {slots : Slots}
    (hb : (make <$> payload).build slots = .ok m) : ∃ p, make p = m ∧ Kept p ∧
      ∀ {n}, (∀ q ∈ slots, Limited n q.2) → ∀ {tag},
        Limited (n + 1) (tagged tag [("payload", p.getD .null)]) := by
  obtain ⟨p, hp, rfl⟩ := build_map.1 hb
  obtain ⟨hkept, hform⟩ := kept_of_build hp
  refine ⟨p, rfl, hkept, fun hslots => limited_tagged (List.forall_mem_singleton.2 ?_)⟩
  cases p with
  | none => exact .null
  | some x => exact limited_of_canonical hslots hform x rfl

theorem exists_arr_of_sequence {es : List Json} (h : sequence value j = .ok es) :
    ∃ raw, j = .arr raw ∧ raw.map canonical = es := by
  cases j with
  | arr raw => exact ⟨raw, rfl, Except.ok.inj ((sequence_value raw).symm.trans h)⟩
  | _ => cases h

/-- Whatever is read as a message is regular, and is written no deeper. -/
theorem regular_of_ofJson (h : ofJson j = .ok m) :
    m.Regular ∧ ∀ {n}, Limited (n + 2) j → Limited (n + 2) m.toJson := by
  obtain ⟨p, hp, body, hbody, hlimited⟩ := Shapes.exists_reader h
  -- One case for each reader, in the order of the table.
  simp only [shapes, List.mem_cons, List.not_mem_nil, or_false] at hp
  rcases hp with rfl | rfl | rfl | rfl | rfl | rfl <;>
    obtain ⟨slots, hb, hslots⟩ := exists_build_of_shape hbody
  · obtain ⟨p, rfl, hkept, hpayload⟩ := exists_payload hb
    exact ⟨hkept, fun hj => hpayload (hslots (hlimited hj))⟩
  · obtain ⟨_, hid, p, hp, rfl⟩ := build_seq.1 hb
    obtain ⟨i, -, rfl⟩ := build_map.1 hid
    obtain ⟨k, hk, hread⟩ := build_required.1 hp
    cases hread
    refine ⟨canonical_canonical k, fun hj => limited_tagged ?_⟩
    have hpayload := (hslots (hlimited hj) _ (Keyed.mem_of_get? hk)).canonical
    simpa using And.intro (Within.str i) hpayload
  · obtain ⟨_, hid, es, hes, rfl⟩ := build_seq.1 hb
    obtain ⟨i, -, rfl⟩ := build_map.1 hid
    obtain ⟨k, hk, hread⟩ := build_required.1 hes
    obtain ⟨raw, rfl, rfl⟩ := exists_arr_of_sequence hread
    refine ⟨fun e he => ?_, fun hj => limited_tagged ?_⟩
    · obtain ⟨x, -, rfl⟩ := List.mem_map.1 he
      exact canonical_canonical x
    · have hpayload := (hslots (hlimited hj) _ (Keyed.mem_of_get? hk)).canonical
      rw [canonical, canonicalItems_eq] at hpayload
      simpa using And.intro (Within.str i) hpayload
  · obtain ⟨i, -, rfl⟩ := build_map.1 hb
    exact ⟨trivial, fun _ => limited_tagged (by simpa using Within.str i)⟩
  · obtain ⟨p, rfl, hkept, hpayload⟩ := exists_payload hb
    exact ⟨hkept, fun hj => hpayload (hslots (hlimited hj))⟩
  · obtain ⟨p, rfl, hkept, hpayload⟩ := exists_payload hb
    exact ⟨hkept, fun hj => hpayload (hslots (hlimited hj))⟩

end ServerMessage

end Switchboard.GraphQL
