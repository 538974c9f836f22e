import Switchboard.Proofs.Dispatch.Credential
import Switchboard.Proofs.Text.Utf8

/-!
# Switchboard.Proofs.Dispatch.Rejection

Answers whose status is no success.  Whatever a request asks for, it fails then with that status
and with the body as a text.  The two kinds of requests read the body by different rules: a
GraphQL request strictly, with no text where there is none, and a REST request with replacements.

* `ofHttp_of_rejected`, `exchange_of_rejected` — what each kind of request makes of such an answer;
* `rejected_alike_iff` — the same thing exactly if the body is that of a text;
* `rejected_apart` — and for one byte that spells nothing it is not.
-/

namespace Switchboard

/-! ## Either kind of request -/

/-- The text of a body that is read strictly, and nothing where it spells none. -/
theorem GraphQL.Response.ofHttp_of_rejected {α : Type} (d : Json.Decoder α) (shape : GraphQL.Shape)
    {answer : Http.Response} (h : answer.isSuccess = false) :
    GraphQL.Response.ofHttp d shape answer =
      .error (.http answer.status ((Text.decode answer.body).toOption.getD "")) := by
  rw [ofHttp, h]
  unfold Http.Response.text
  cases Text.decode answer.body <;> rfl

theorem Rest.Response.ofHttp_of_rejected {answer : Http.Response} (h : answer.isSuccess = false) :
    Rest.Response.ofHttp answer =
      .error (.http answer.status (Text.decodeLossy answer.body)) := by
  rw [ofHttp, h]
  rfl

namespace CallRequest

variable {entry entry' : ClientEntry} {now now' : Http.Moment} {r : GraphQL.Request}
  {q : Rest.Request} {sent sent' : Http.Request} {network : Network} {answer : Http.Response}
  {headers : Http.Headers}

theorem exchange_graphQL_of_rejected (hsent : (graphQL r).outgoing entry now = .ok sent)
    (hanswer : network sent = .ok answer) (h : answer.isSuccess = false)
    (decode : Json.Decoder Json) :
    (graphQL r).exchange network now entry.client entry.api.endpoint decode =
      .error (.http answer.status ((Text.decode answer.body).toOption.getD "")) := by
  rw [exchange_of_outgoing hsent, transmit, hanswer]
  exact congrArg (Except.map _) (GraphQL.Response.ofHttp_of_rejected decode r.shape h)

theorem exchange_rest_of_rejected (hsent : (rest q).outgoing entry now = .ok sent)
    (hanswer : network sent = .ok answer) (h : answer.isSuccess = false)
    (decode : Json.Decoder Json) :
    (rest q).exchange network now entry.client entry.api.endpoint decode =
      .error (.http answer.status (Text.decodeLossy answer.body)) := by
  rw [exchange_of_outgoing hsent, transmit, hanswer]
  exact congrArg (Except.map _) (Rest.Response.ofHttp_of_rejected h)

/-! ## Both -/

/-- A GraphQL request and a REST request that get the same status and the same body, and the
status is no success, both fail with that status.  They fail alike exactly if the body is that of a
text, and then with the text; otherwise the one tells nothing of it, and the other tells it with
replacements. -/
theorem rejected_alike_iff (hsent : (graphQL r).outgoing entry now = .ok sent)
    (hsent' : (rest q).outgoing entry' now' = .ok sent') (hanswer : network sent = .ok answer)
    (hanswer' : network sent' = .ok { answer with headers })
    (hrejected : answer.isSuccess = false) (decode decode' : Json.Decoder Json) :
    let failure := (graphQL r).exchange network now entry.client entry.api.endpoint decode
    let failure' := (rest q).exchange network now' entry'.client entry'.api.endpoint decode'
    (failure = failure' ↔ ∃ text, answer.body = Text.encode text) ∧
    (∀ text, answer.body = Text.encode text →
      failure = .error (.http answer.status text) ∧
      failure' = .error (.http answer.status text)) ∧
    ((¬ ∃ text, answer.body = Text.encode text) →
      failure = .error (.http answer.status "") ∧
      ∃ told, failure' = .error (.http answer.status told) ∧ '\uFFFD' ∈ told.toList) := by
  intro failure failure'
  have hfailure : failure = _ := exchange_graphQL_of_rejected hsent hanswer hrejected decode
  have hfailure' : failure' = .error (.http answer.status (Text.decodeLossy answer.body)) :=
    exchange_rest_of_rejected hsent' hanswer' hrejected decode'
  have hspelled : ∀ text, answer.body = Text.encode text →
      failure = .error (.http answer.status text) ∧
      failure' = .error (.http answer.status text) := by
    intro text hbody
    constructor
    · rw [hfailure, Text.decode_eq_ok.2 hbody]
      rfl
    · rw [hfailure', hbody, Text.decodeLossy_encode]
  have hbroken : (¬ ∃ text, answer.body = Text.encode text) →
      failure = .error (.http answer.status "") ∧
      ∃ told, failure' = .error (.http answer.status told) ∧ '\uFFFD' ∈ told.toList := by
    intro hnone
    refine ⟨?_, _, hfailure', Text.replacement_mem_decodeLossy hnone⟩
    rw [hfailure]
    cases hd : Text.decode answer.body with
    | error e => rfl
    | ok text => exact absurd ⟨text, Text.decode_eq_ok.1 hd⟩ hnone
  refine ⟨⟨fun heq => ?_, fun ⟨text, hbody⟩ => ?_⟩, hspelled, hbroken⟩
  · refine Classical.byContradiction fun hnone => ?_
    obtain ⟨h, told, h', hmem⟩ := hbroken hnone
    rw [h, h'] at heq
    cases heq
    cases hmem
  · obtain ⟨h, h'⟩ := hspelled text hbody
    rw [h, h']

/-- A bad gateway whose text is not all ASCII is told alike. -/
theorem rejected_alike_accented :
    let entry : ClientEntry := ⟨Api.create "blog" "http://localhost:4000/graphql", ⟨{}, []⟩⟩
    let lookup : GraphQL.Request := .ofQuery .single "query \x7b posts \x7d"
    let posts : Rest.Request := ⟨.get, { path := "/posts" }⟩
    let answer : Http.Response := ⟨502, [], Text.encode "passerelle défaillante"⟩
    let network : Network := fun _ => .ok answer
    ∃ sent sent', (graphQL lookup).outgoing entry 0 = .ok sent ∧
      (rest posts).outgoing entry 0 = .ok sent' ∧ network sent = .ok answer ∧
      network sent' = .ok { answer with headers := [] } ∧ answer.isSuccess = false ∧
      (graphQL lookup).exchange network 0 entry.client entry.api.endpoint Json.anything =
        .error (.http 502 "passerelle défaillante") ∧
      (rest posts).exchange network 0 entry.client entry.api.endpoint Json.anything =
        .error (.http 502 "passerelle défaillante") := by
  intro entry lookup posts answer network
  have hsome : ((graphQL lookup).outgoing entry 0).toOption.isSome = true := by decide +kernel
  have hsome' : ((rest posts).outgoing entry 0).toOption.isSome = true := by decide +kernel
  obtain ⟨sent, hsent⟩ := Option.isSome_iff_exists.1 hsome
  obtain ⟨sent', hsent'⟩ := Option.isSome_iff_exists.1 hsome'
  have hsent := eq_ok_of_toOption hsent
  have hsent' := eq_ok_of_toOption hsent'
  have hanswer : network sent = .ok answer := rfl
  have hanswer' : network sent' = .ok { answer with headers := [] } := rfl
  obtain ⟨-, halike, -⟩ :=
    rejected_alike_iff hsent hsent' hanswer hanswer' rfl Json.anything Json.anything
  exact ⟨sent, sent', hsent, hsent', hanswer, hanswer', rfl, halike _ rfl⟩

/-- Of one byte that spells nothing the one tells nothing, and the other that it was there. -/
theorem rejected_apart :
    let entry : ClientEntry := ⟨Api.create "blog" "http://localhost:4000/graphql", ⟨{}, []⟩⟩
    let lookup : GraphQL.Request := .ofQuery .single "query \x7b posts \x7d"
    let posts : Rest.Request := ⟨.get, { path := "/posts" }⟩
    let network : Network := fun _ => .ok ⟨500, [], [0xFF]⟩
    (graphQL lookup).exchange network 0 entry.client entry.api.endpoint Json.anything =
        .error (.http 500 "") ∧
      (rest posts).exchange network 0 entry.client entry.api.endpoint Json.anything =
        .error (.http 500 "\uFFFD") := by
  intro entry lookup posts network
  have hsome : ((graphQL lookup).outgoing entry 0).toOption.isSome = true := by decide +kernel
  have hsome' : ((rest posts).outgoing entry 0).toOption.isSome = true := by decide +kernel
  obtain ⟨sent, hsent⟩ := Option.isSome_iff_exists.1 hsome
  obtain ⟨sent', hsent'⟩ := Option.isSome_iff_exists.1 hsome'
  have hstrict : (Text.decode [0xFF]).toOption.getD "" = "" := by decide +kernel
  have hreplaced : Text.decodeLossy [0xFF] = "\uFFFD" := by decide +kernel
  have hanswer (sent : Http.Request) : network sent = .ok ⟨500, [], [0xFF]⟩ := rfl
  constructor
  · rw [exchange_graphQL_of_rejected (eq_ok_of_toOption hsent) (hanswer sent) rfl Json.anything,
      hstrict]
  · rw [exchange_rest_of_rejected (eq_ok_of_toOption hsent') (hanswer sent') rfl Json.anything,
      hreplaced]

end CallRequest
end Switchboard
