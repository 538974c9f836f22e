import Switchboard.GraphQL.Request
import Switchboard.Proofs.GraphQL.Model
import Switchboard.Proofs.GraphQL.Response
import Switchboard.Proofs.Json.Agree

/-!
# Switchboard.Proofs.GraphQL.Answer

What is made of the answer to a request.

* `Response.asked?` — the value that an envelope has for a request of a shape;
* `Reads` — what is read of a value that may be absent or null;
* `decode_eq_ok`, `decode_eq_error` — an answer is read if it is an envelope and the value asked for
  is read, and anything else is a matter of the protocol;
* `Place`, `decode_put_congr` — of the data only the value asked for counts, wherever in a body the
  data stands;
* `Model.RequestsOne`, `Model.RequestsPage` — the requests of a model, and the text of their
  documents;
* `decodes_answer` — what a server sends for the one root field of a request is what is read.
-/

namespace Switchboard.GraphQL

open Json Record

variable {α : Type}

namespace Response

/-! ## Reading -/

/-- The value that an envelope has for a request of a shape. -/
def asked? (shape : Shape) (envelope : Response Json) : Option Json :=
  envelope.data.map (unwrap shape)

/-- What is read of a value: nothing if there is none or it is null. -/
inductive Reads (d : Decoder α) : Option Json → Option α → Prop where
  | absent : Reads d none none
  | null : Reads d (some .null) none
  | value {j : Json} {x : α} (ne_null : j ≠ .null) (read : d j = .ok x) : Reads d (some j) (some x)

variable {d : Decoder α} {shape : Shape} {body : Json}

theorem nullable_iff {j : Json} {y : Option α} : nullable d j = .ok y ↔ Reads d (some j) y := by
  constructor
  · intro h
    cases y with
    | none =>
        cases j with
        | null => exact .null
        | _ =>
            obtain ⟨x, -, hx⟩ := map_eq_ok.1 h
            cases hx
    | some x =>
        obtain ⟨hne, hread⟩ := nullable_some h
        exact .value hne hread
  · intro h
    cases h with
    | null => rfl
    | value hne hread => exact nullable_of_ne hne hread

theorem decodeData_iff {data : Option Json} {y : Option α} :
    decodeData d shape data = .ok y ↔ Reads d (data.map (unwrap shape)) y := by
  cases data with
  | none =>
      constructor
      · intro h
        cases h
        exact .absent
      · intro h
        cases h
        rfl
  | some data => exact nullable_iff

/-- An answer is read if its body is an envelope and the value asked for is read, and nothing else
of the envelope is changed. -/
theorem decode_eq_ok {r : Response α} :
    decode d shape body = .ok r ↔ ∃ envelope, ofJson anything body = .ok envelope ∧
      Reads d (asked? shape envelope) r.data ∧ r.errors = envelope.errors ∧
        r.extensions = envelope.extensions := by
  obtain ⟨data, errors, extensions⟩ := r
  simp only [decode, bind_eq_ok, mapError_eq_ok, decodeData_iff, Pure.pure, Except.pure,
    Except.ok.injEq, mk.injEq]
  constructor
  · rintro ⟨envelope, henvelope, _, hdata, rfl, rfl, rfl⟩
    exact ⟨envelope, henvelope, hdata, rfl, rfl⟩
  · rintro ⟨envelope, henvelope, hdata, rfl, rfl⟩
    exact ⟨envelope, henvelope, _, hdata, rfl, rfl, rfl⟩

/-- There is something to read if there is no value, or it is null or can be read. -/
theorem exists_reads {v : Option Json} :
    (∃ y, Reads d v y) ↔ v = none ∨ v = some .null ∨ ∃ j x, v = some j ∧ d j = .ok x := by
  constructor
  · rintro ⟨y, hy⟩
    cases hy with
    | absent => exact .inl rfl
    | null => exact .inr (.inl rfl)
    | value _ hread => exact .inr (.inr ⟨_, _, rfl, hread⟩)
  · rintro (rfl | rfl | ⟨j, x, rfl, hread⟩)
    · exact ⟨none, .absent⟩
    · exact ⟨none, .null⟩
    · cases j with
      | null => exact ⟨none, .null⟩
      | _ => exact ⟨some x, .value (by simp) hread⟩

theorem exists_decode : (∃ r, decode d shape body = .ok r) ↔
    ∃ envelope, ofJson anything body = .ok envelope ∧
      (asked? shape envelope = none ∨ asked? shape envelope = some .null ∨
        ∃ j x, asked? shape envelope = some j ∧ d j = .ok x) := by
  simp only [decode_eq_ok, ← exists_reads]
  constructor
  · rintro ⟨r, envelope, henvelope, hreads, -, -⟩
    exact ⟨envelope, henvelope, r.data, hreads⟩
  · rintro ⟨envelope, henvelope, y, hreads⟩
    exact ⟨⟨y, envelope.errors, envelope.extensions⟩, envelope, henvelope, hreads, rfl, rfl⟩

/-- Nothing was read where there is nothing to read, and only there. -/
theorem Reads.eq_none_iff {v : Option Json} {y : Option α} (h : Reads d v y) :
    y = none ↔ v = none ∨ v = some .null := by
  cases h with
  | absent | null => simp
  | value hne _ => simp [hne]

/-- Whatever is wrong with an answer is a matter of the protocol. -/
theorem isProtocol_of_decode {e : ApiError} (h : decode d shape body = .error e) :
    e.isProtocol = true := by
  simp only [decode, bind_eq_error, mapError_eq_error] at h
  rcases h with ⟨_, -, rfl⟩ | ⟨_, -, ⟨_, -, rfl⟩ | ⟨_, -, h⟩⟩
  · rfl
  · rfl
  · cases h

/-! ## The place of the data -/

/-- Where the data stands in a body: it is a field of an object, or the first item of an array. -/
inductive Place where
  | field (before after : List (String × Json))
  | first (rest : List Json)

/-- A body with something for its data. -/
def Place.put (data : Json) : Place → Json
  | field before after => .obj (before ++ ("data", data) :: after)
  | first rest => .arr (data :: rest)

/-- What stands for the data in an envelope. -/
def present : Json → Option Json
  | .null => none
  | j => some j

theorem nullable_anything (j : Json) : nullable anything j = .ok (present j) := by
  cases j <;> rfl

theorem decodeData_present (d : Decoder α) (shape : Shape) (j : Json) :
    decodeData d shape (present j) = nullable d (unwrap shape j) := by
  cases j with
  | null => cases shape <;> rfl
  | _ => rfl

/-- Envelopes that agree but for their data. -/
inductive Alike (i j : Json) :
    Except DecodeError (Response Json) → Except DecodeError (Response Json) → Prop where
  | error (e : DecodeError) : Alike i j (.error e) (.error e)
  | ok (envelope : Response Json) :
      Alike i j (.ok { envelope with data := present i }) (.ok { envelope with data := present j })

/-- The fields of an envelope. -/
def record : Record (Response Json) :=
  Response.mk <$> defaulted "data" none (nullable anything)
    <*> defaulted "errors" [] (sequence FieldError.ofJson)
    <*> defaulted "extensions" none (nullable anything)

theorem build_record {slots : Slots} {j : Json} (h : slots.lookup "data" = some j) :
    record.build slots = do
      let errors ← (defaulted "errors" [] (sequence FieldError.ofJson)).build slots
      let extensions ← (defaulted "extensions" none (nullable anything)).build slots
      return ⟨present j, errors, extensions⟩ := by
  have hdata : (defaulted "data" none (nullable anything)).build slots = .ok (present j) := by
    simp only [defaulted, h, nullable_anything]
  simp only [record, build_seq_eq, build_map_eq, hdata, bind_assoc, pure_bind]
  rfl

/-- Only the data of an envelope depends on what was found for the data. -/
theorem alike_build {i j : Json} {s t : Slots} (hs : s.lookup "data" = some i)
    (ht : t.lookup "data" = some j) (hothers : ∀ k, k ≠ "data" → s.lookup k = t.lookup k) :
    Alike i j (record.build s) (record.build t) := by
  have herrors : (defaulted "errors" [] (sequence FieldError.ofJson)).build s = _ :=
    (proper_defaulted ..).congr fun f hf => hothers _ (by cases List.mem_singleton.1 hf; decide)
  have hextensions : (defaulted "extensions" none (nullable anything)).build s = _ :=
    (proper_defaulted ..).congr fun f hf => hothers _ (by cases List.mem_singleton.1 hf; decide)
  rw [build_record hs, build_record ht, herrors, hextensions]
  cases (defaulted "errors" [] (sequence FieldError.ofJson)).build t with
  | error e => exact .error e
  | ok errors =>
      cases (defaulted "extensions" none (nullable anything)).build t with
      | error e => exact .error e
      | ok extensions => exact .ok ⟨none, errors, extensions⟩

/-- The data of a body may be anything, as far as the rest of the envelope is concerned. -/
theorem alike_put (i j : Json) (place : Place) :
    Alike i j (ofJson anything (place.put i)) (ofJson anything (place.put j)) := by
  have hcheck : ∀ v, (do let _ ← nullable anything v : Except DecodeError Unit) = .ok () :=
    fun v => by rw [nullable_anything]; rfl
  cases place with
  | field before after =>
      have hagrees : Agrees "data" (some i) (some j)
          (visitFields record.fields [] (before ++ ("data", i) :: after))
          (visitFields record.fields [] (before ++ ("data", j) :: after)) :=
        agrees_replace rfl (hcheck i) (hcheck j) before after []
      show Alike i j (visitFields record.fields [] _ >>= record.build)
        (visitFields record.fields [] _ >>= record.build)
      generalize visitFields record.fields [] (before ++ ("data", i) :: after) = a at hagrees ⊢
      generalize visitFields record.fields [] (before ++ ("data", j) :: after) = b at hagrees ⊢
      cases hagrees with
      | error e => exact .error e
      | ok hs ht hothers => exact alike_build hs ht hothers
  | first rest =>
      show Alike i j (record.decode "GraphQLResponse" (.arr (i :: rest)))
        (record.decode "GraphQLResponse" (.arr (j :: rest)))
      rw [Record.decode, read_arr_cons rfl (hcheck i), read_arr_cons rfl (hcheck j)]
      generalize visitItems _ 1 _ rest = visited
      cases visited with
      | error e => exact .error e
      | ok r =>
          obtain ⟨found, left⟩ := r
          have hbuilt : Alike i j (record.build (("data", i) :: found))
              (record.build (("data", j) :: found)) :=
            alike_build rfl rfl fun k hk => by
              rw [List.lookup_cons, List.lookup_cons, beq_false_of_ne hk]
          show Alike i j (record.build (("data", i) :: found) >>= _)
            (record.build (("data", j) :: found) >>= _)
          generalize record.build (("data", i) :: found) = a at hbuilt ⊢
          generalize record.build (("data", j) :: found) = b at hbuilt ⊢
          cases hbuilt with
          | error e => exact .error e
          | ok envelope =>
              cases left with
              | nil => exact .ok envelope
              | cons => exact .error _

/-- Of the data only the value asked for counts. -/
theorem decode_put_congr (d : Decoder α) {i j : Json} (h : unwrap shape i = unwrap shape j)
    (place : Place) : decode d shape (place.put i) = decode d shape (place.put j) := by
  have halike := alike_put i j place
  unfold decode
  generalize ofJson anything (place.put i) = a at halike ⊢
  generalize ofJson anything (place.put j) = b at halike ⊢
  cases halike with
  | error e => rfl
  | ok envelope =>
      have hdata : decodeData d shape (present i) = decodeData d shape (present j) := by
        rw [decodeData_present, decodeData_present, h]
      show (do let data ← (decodeData d shape (present i)).mapError ApiError.ofDecode; _) = _
      rw [hdata]
      rfl

/-! ## Answers to a root field -/

/-- The value asked for is the one under the root field, which is not opened any further unless a
list is asked for. -/
theorem unwrap_root (hshape : shape ≠ .array) (root : String) (j : Json) :
    unwrap shape (.obj [(root, j)]) = j := by
  simp [unwrap, unwrapRoot, unwrapPage, hshape]

/-- A page is asked for its items only. -/
theorem unwrap_page {page items : Json} (h : page.get? "items" = some items) (root : String) :
    unwrap .array (.obj [(root, page)]) = items := by
  simp [unwrap, unwrapRoot, unwrapPage, h]

/-- A list without a page around it is asked for as it is. -/
theorem unwrap_list (root : String) (xs : List Json) :
    unwrap .array (.obj [(root, .arr xs)]) = .arr xs := rfl

/-- A body is a response whose data is one root field, whatever else is in it. -/
structure Answers (body : Json) (envelope : Response Json) (root : String) (answer : Json) :
    Prop where
  read : ofJson anything body = .ok envelope
  data_eq : envelope.data = some (.obj [(root, answer)])

theorem Answers.decode_eq {envelope : Response Json} {root : String} {answer j : Json} {x : α}
    (h : Answers body envelope root answer) (hj : unwrap shape (.obj [(root, answer)]) = j)
    (hne : j ≠ .null) (hread : d j = .ok x) :
    decode d shape body = .ok { envelope with data := some x } := by
  refine decode_eq_ok.2 ⟨envelope, h.read, ?_, rfl, rfl⟩
  have hasked : asked? shape envelope = some j := by rw [asked?, h.data_eq, ← hj]; rfl
  rw [hasked]
  exact .value hne hread

end Response

/-! ## Models -/

namespace Model

/-- The requests of a model for one item, with the root fields that they ask for. -/
inductive RequestsOne (m : Model) : Request → String → Prop where
  | query {id : String} {r : Request} (made : m.query id = .ok r) :
      RequestsOne m r ("get" ++ m.name)
  | mutation {item : Item} {p : Option Predicate} {kind : Mutation} {r : Request}
      (made : m.mutation item p kind = .ok r) : RequestsOne m r (kind.field ++ m.name)
  | subscription {change : Change} {r : Request} (made : m.subscription change = .ok r) :
      RequestsOne m r ("on" ++ change.verb ++ m.name)

/-- The requests of a model for items, with the root field that they ask for. -/
inductive RequestsPage (m : Model) : Request → String → Prop where
  | list {p : Option Predicate} {r : Request} (made : m.list p = .ok r) :
      RequestsPage m r ("list" ++ m.plural)

variable {m : Model} {r : Request} {root : String}

theorem RequestsOne.asks (h : m.RequestsOne r root) :
    ∃ shape, shape ≠ .array ∧ r.Asks shape root m.selected := by
  cases h with
  | query made => exact ⟨.single, by decide, asks_query made⟩
  | mutation made => exact ⟨.single, by decide, asks_mutation made⟩
  | subscription made => exact ⟨.stream, by decide, asks_subscription made⟩

theorem RequestsPage.asks (h : m.RequestsPage r root) : r.Asks .array root m.selectedPage := by
  cases h with
  | list made => exact asks_list made

end Model

namespace Response

/-- An item that was written is read where one item is asked for. -/
theorem decode_one {d : Decoder α} {write : α → List (String × Json)}
    (hread : ∀ x, d (.obj (write x)) = .ok x) {m : Model} {r : Request} {root : String}
    (hr : m.RequestsOne r root) {body : Json} {envelope : Response Json} {x : α}
    (h : Answers body envelope root (.obj (write x))) :
    decode d r.shape body = .ok { envelope with data := some x } := by
  obtain ⟨shape, hshape, hasks⟩ := hr.asks
  rw [hasks.shape]
  exact h.decode_eq (unwrap_root hshape root _) (by simp) (hread x)

/-- Items that were written on a page are read where a list of them is asked for. -/
theorem decode_page {d : Decoder α} {write : α → List (String × Json)}
    (hread : ∀ x, d (.obj (write x)) = .ok x) {m : Model} {r : Request} {root : String}
    (hr : m.RequestsPage r root) {body page : Json} {envelope : Response Json} {xs : List α}
    (h : Answers body envelope root page)
    (hpage : page.get? "items" = some (.arr (xs.map fun x => .obj (write x)))) :
    decode (sequence d) r.shape body = .ok { envelope with data := some xs } := by
  rw [hr.asks.shape]
  have hitems := decodeItems_map (f := id) fun x (_ : x ∈ xs) => hread x
  rw [List.map_id] at hitems
  exact h.decode_eq (unwrap_page hpage root) (by simp) hitems

/-- What is made of an answer.  It is read if it is an envelope whose value asked for is absent,
null or can be read; the errors and extensions are those of the envelope, there is no data only
where the value is absent or null, and whatever is wrong is a matter of the protocol.  The name of
the one root field does not matter, and neither does what stands beside the items of a page.  So
what a server sends for the root field of a request that a model makes, one item or a page of
them, is read as what it was written from. -/
theorem decodes_answer (d : Decoder α) :
    (∀ shape body, (∃ r, decode d shape body = .ok r) ↔
      ∃ envelope, ofJson anything body = .ok envelope ∧
        (asked? shape envelope = none ∨ asked? shape envelope = some .null ∨
          ∃ j x, asked? shape envelope = some j ∧ d j = .ok x)) ∧
    (∀ shape body r, decode d shape body = .ok r ↔
      ∃ envelope, ofJson anything body = .ok envelope ∧ Reads d (asked? shape envelope) r.data ∧
        r.errors = envelope.errors ∧ r.extensions = envelope.extensions) ∧
    (∀ v y, Reads d v y → (y = none ↔ v = none ∨ v = some .null)) ∧
    (∀ shape body e, decode d shape body = .error e → e.isProtocol = true) ∧
    (∀ shape (place : Place) root root' j, decode d shape (place.put (.obj [(root, j)])) =
      decode d shape (place.put (.obj [(root', j)]))) ∧
    (∀ (place : Place) root (page : Json) xs, page.get? "items" = some (.arr xs) →
      decode d .array (place.put (.obj [(root, page)])) =
        decode d .array (place.put (.obj [(root, .arr xs)]))) ∧
    (∀ write : α → List (String × Json), (∀ x, d (.obj (write x)) = .ok x) →
      ∀ (m : Model) r root,
        (m.RequestsOne r root → (∃ shape, r.Asks shape root m.selected) ∧
          ∀ body envelope x, Answers body envelope root (.obj (write x)) →
            decode d r.shape body = .ok { envelope with data := some x }) ∧
        (m.RequestsPage r root → r.Asks .array root m.selectedPage ∧
          ∀ body envelope page xs, Answers body envelope root page →
            page.get? "items" = some (.arr (xs.map fun x => .obj (write x))) →
              decode (sequence d) r.shape body = .ok { envelope with data := some xs })) := by
  refine ⟨fun shape body => exists_decode, fun shape body r => decode_eq_ok,
    fun v y h => h.eq_none_iff, fun shape body e h => isProtocol_of_decode h,
    fun shape place root root' j => ?_, fun place root page xs h => ?_,
    fun write hread m r root => ⟨fun hr => ⟨?_, ?_⟩, fun hr => ⟨hr.asks, ?_⟩⟩⟩
  · have hroot : unwrap shape (.obj [(root, j)]) = unwrap shape (.obj [(root', j)]) := rfl
    exact decode_put_congr d hroot place
  · exact decode_put_congr d ((unwrap_page h root).trans (unwrap_list root xs).symm) place
  · obtain ⟨shape, -, hasks⟩ := hr.asks
    exact ⟨shape, hasks⟩
  · exact fun body envelope x h => decode_one hread hr h
  · exact fun body envelope page xs h hpage => decode_page hread hr h hpage

/-- Notes, which have a single field that is called as the items of a page are.  One comes with an
error of the server, and two on a page. -/
theorem decodes_answer_notes :
    let note : Model := { name := "Note", fields := ["items"] }
    let d : Decoder String := (id <$> required "items" string).decode "Note"
    let milk := Json.obj [("items", .str "milk")]
    let bread := Json.obj [("items", .str "bread")]
    let page := Json.obj [("items", .arr [milk, bread]), ("nextToken", .null)]
    (∃ r, note.query "n1" = .ok r ∧
      decode d r.shape (.obj [("data", .obj [("get" ++ note.name, milk)]),
        ("errors", .arr [.obj [("message", .str "stale")]])]) =
          .ok ⟨some "milk", [{ message := "stale" }], none⟩) ∧
    (∃ r, note.list none = .ok r ∧
      decode (sequence d) r.shape (.obj [("data", .obj [("list" ++ note.plural, page)])]) =
        .ok ⟨some ["milk", "bread"], [], none⟩) := by
  intro note d milk bread page
  obtain ⟨-, -, -, -, -, -, hmodels⟩ := decodes_answer d
  have hmodel := hmodels (fun s => [("items", .str s)]) (fun _ => rfl) note
  have hfields : note.fields ≠ [] := by simp [note]
  have hid : Text.isBlank "n1" = false := rfl
  obtain ⟨one, hone⟩ := Model.exists_query.2 ⟨hfields, hid⟩
  obtain ⟨many, hmany⟩ := Model.exists_list.2 ⟨hfields, Model.admits_none⟩
  refine ⟨⟨one, hone, ?_⟩, ⟨many, hmany, ?_⟩⟩
  · have hanswers : Answers (.obj [("data", .obj [("get" ++ note.name, milk)]),
        ("errors", .arr [.obj [("message", .str "stale")]])])
          ⟨some (.obj [("get" ++ note.name, milk)]), [{ message := "stale" }], none⟩
            ("get" ++ note.name) milk := ⟨rfl, rfl⟩
    exact ((hmodel one _).1 (.query hone)).2 _ _ "milk" hanswers
  · have hanswers : Answers (.obj [("data", .obj [("list" ++ note.plural, page)])])
        ⟨some (.obj [("list" ++ note.plural, page)]), [], none⟩ ("list" ++ note.plural) page :=
      ⟨rfl, rfl⟩
    exact ((hmodel many _).2 (.list hmany)).2 _ _ page ["milk", "bread"] hanswers rfl

end Response
end Switchboard.GraphQL
