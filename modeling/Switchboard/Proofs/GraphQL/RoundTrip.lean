import Switchboard.Proofs.GraphQL.Message
import Switchboard.Proofs.GraphQL.Response
import Switchboard.Proofs.Json.Limits
import Switchboard.Proofs.Json.Scan

/-!
# Switchboard.Proofs.GraphQL.RoundTrip

What goes over the wire: documents, messages of either side, and responses.

* `RoundTrips` — what is written is read back, as a value and as a text;
* `written_reads_back` — each of the four does;
* `ping_not_read_back` — texts that are not read back.

As values they are always read back.  As texts they are if their floating-point numbers are:
a number is read from its digits in two roundings, so that its last bit may be lost.
-/

namespace Switchboard.GraphQL

open Json

/-- Things that are read back from what they are written as.  `Regular` says what a thing must
be for that, and what everything is that is read. -/
structure RoundTrips {α : Type} (Regular : α → Prop) (write : α → Json) (read : Decoder α)
    (readText : String → Option α) : Prop where
  /-- What is written is read back. -/
  back : ∀ x, Regular x → read (write x) = .ok x
  /-- Whatever is read is regular, from an object or an array, whatever else stands there. -/
  regular : ∀ j x, read j = .ok x → Regular x
  /-- Reading once more changes nothing. -/
  again : ∀ j x, read j = .ok x → read (write x) = .ok x
  /-- A text that has what is written, with the fields of its objects in any order, is read
  back, unless it nests too deep or a number in it does not last. -/
  back_text : ∀ x, Regular x → Limited maxDepth (write x) → ExactFloats (write x) →
    ∀ j : Json, j.Distinct → j.canonical = write x → readText j.render = some x
  /-- Whatever is read from a text is regular, and is written within the limits of a text. -/
  regular_text : ∀ text x, readText text = some x → Regular x ∧ Limited maxDepth (write x)
  /-- Reading a text once more changes nothing but numbers that do not last. -/
  again_text : ∀ text x, readText text = some x → ExactFloats (write x) →
    ∀ j : Json, j.Distinct → j.canonical = write x → readText j.render = some x

variable {α : Type} {Regular : α → Prop} {write : α → Json} {read : Decoder α}
  {readText : String → Option α}

/-- It is enough that what is regular is read back and that nothing else is read. -/
theorem RoundTrips.of_regular (hback : ∀ x, Regular x → read (write x) = .ok x)
    (hregular : ∀ j x, read j = .ok x → Regular x)
    (hback_text : ∀ x, Regular x → Limited maxDepth (write x) → ExactFloats (write x) →
      ∀ j : Json, j.Distinct → j.canonical = write x → readText j.render = some x)
    (hregular_text : ∀ text x, readText text = some x → Regular x ∧ Limited maxDepth (write x)) :
    RoundTrips Regular write read readText where
  back := hback
  regular := hregular
  again j x h := hback x (hregular j x h)
  back_text := hback_text
  regular_text := hregular_text
  again_text text x h hfloats :=
    hback_text x (hregular_text text x h).1 (hregular_text text x h).2 hfloats

/-- A text is read as the value that it was written from. -/
theorem scan_of_canonical {j form : Json} (hd : j.Distinct) (hj : j.canonical = form)
    (hlimited : Limited maxDepth form) (hfloats : ExactFloats form) :
    scan j.render = .whole j [] := by
  subst hj
  exact scan_render (within_of_canonical hd (legible hlimited hfloats))

/-! ## Values in a text -/

/-- The value in a text, read as something. -/
def inText (read : Decoder α) (text : String) : Option α := do
  let j ← ofText? text
  (read j).toOption

theorem limited_of_ofText? {text : String} {j : Json} (h : ofText? text = some j) :
    Limited maxDepth j := by
  unfold ofText? at h
  split at h
  · next i hscan =>
    cases h
    exact (limited_of_scan hscan).canonical
  · cases h

theorem RoundTrips.of_value (hback : ∀ {x}, Regular x → read (write x) = .ok x)
    (hregular : ∀ {j x}, read j = .ok x →
      Regular x ∧ (Limited maxDepth j → Limited maxDepth (write x))) :
    RoundTrips Regular write read (inText read) := by
  refine .of_regular (fun x => hback) (fun j x h => (hregular h).1) ?_ ?_
  · intro x hx hlimited hfloats j hd hj
    have htext : ofText? j.render = some (write x) := by
      simp only [ofText?, scan_of_canonical hd hj hlimited hfloats, hj]
    rw [inText, htext]
    exact congrArg Except.toOption (hback hx)
  · intro text x hx
    obtain ⟨j, hj, hread⟩ := Option.bind_eq_some_iff.1 hx
    obtain ⟨hx, hlimited⟩ := hregular (eq_ok_of_toOption hread)
    exact ⟨hx, hlimited (limited_of_ofText? hj)⟩

/-! ## Messages with a tag -/

theorem RoundTrips.of_shapes {s : Shapes α}
    (hback : ∀ {x j}, Regular x → j.Distinct → j.canonical = write x → s.ofJson j = .ok x)
    (hform : ∀ {x}, Regular x → (write x).canonical = write x)
    (hregular : ∀ {j x}, s.ofJson j = .ok x →
      Regular x ∧ (Limited maxDepth j → Limited maxDepth (write x))) :
    RoundTrips Regular write s.ofJson fun text => (s.ofText text).toOption := by
  refine .of_regular ?_ (fun j x h => (hregular h).1) ?_ ?_
  · intro x hx
    have hd := distinct_canonical (write x)
    rw [hform hx] at hd
    exact hback hx hd (hform hx)
  · intro x hx hlimited hfloats j hd hj
    have hscan := scan_of_canonical hd hj hlimited hfloats
    exact congrArg Except.toOption (Shapes.ofText_of_scan hscan (hback hx hd hj))
  · intro text x hx
    obtain ⟨j, hscan, hj⟩ := Shapes.exists_ofJson (eq_ok_of_toOption hx)
    obtain ⟨hx, hlimited⟩ := hregular hj
    exact ⟨hx, hlimited (limited_of_scan hscan)⟩

/-! ## On the wire -/

/-- Documents, messages and responses are read back from what they are written as. -/
theorem written_reads_back :
    RoundTrips Document.Regular Document.toJson Document.ofJson (inText Document.ofJson) ∧
      RoundTrips ClientMessage.Regular ClientMessage.toJson ClientMessage.ofJson
        (fun text => (ClientMessage.ofText text).toOption) ∧
      RoundTrips ServerMessage.Regular ServerMessage.toJson ServerMessage.ofJson
        (fun text => (ServerMessage.ofText text).toOption) ∧
      RoundTrips Response.Regular (Response.toJson id) (Response.ofJson anything)
        (inText (Response.ofJson anything)) := by
  -- A text nests 127 deep, which is more than the arrays and objects of any of them.
  refine ⟨.of_value Document.ofJson_toJson fun h => ?_,
    .of_shapes ClientMessage.ofJson_of_canonical ClientMessage.canonical_toJson fun h => ?_,
    .of_shapes ServerMessage.ofJson_of_canonical ServerMessage.canonical_toJson fun h => ?_,
    .of_value Response.ofJson_toJson fun h => ?_⟩
  · exact ⟨(Document.regular_of_ofJson h).1, (Document.regular_of_ofJson h).2 (n := 126)⟩
  · exact ⟨(ClientMessage.regular_of_ofJson h).1, (ClientMessage.regular_of_ofJson h).2 (n := 125)⟩
  · exact ⟨(ServerMessage.regular_of_ofJson h).1, (ServerMessage.regular_of_ofJson h).2 (n := 125)⟩
  · exact ⟨(Response.regular_of_ofJson h).1, (Response.regular_of_ofJson h).2 (n := 122)⟩

example : (ServerMessage.ofText "[\"ping\"]").toOption.map (·.toJson.render) =
    some "\x7b\"payload\":null,\"type\":\"ping\"\x7d" := by decide +kernel

/-! ## What does not last -/

theorem ne_of_render {m : ServerMessage} {text : String}
    (h : (ServerMessage.ofText text).toOption.map (·.toJson.render) ≠ some m.toJson.render) :
    ServerMessage.ofText text ≠ .ok m := by
  intro heq
  rw [heq] at h
  exact h rfl

/-- A value that nests so deep. -/
def nested : Nat → Json
  | 0 => .null
  | n + 1 => .arr [nested n]

theorem kept_nested (n : Nat) : Kept (some (nested (n + 1))) := by
  have hform : ∀ n, (nested n).canonical = nested n := by
    intro n
    induction n with
    | zero => rfl
    | succ n ih => simp only [nested, canonical, canonicalItems, ih]
  exact ⟨by simp [nested], congrArg some (hform _)⟩

theorem not_limited_nested (n : Nat) : ¬ Limited n (nested (n + 1)) := by
  induction n with
  | zero => intro h; cases h
  | succ n ih => intro h; cases h with | arr each => exact ih (each _ List.mem_cons_self)

/-- Nothing that nests deeper than a text may is read from a text. -/
theorem ofText_ne_nested (text : String) :
    ServerMessage.ofText text ≠ .ok (.ping (some (nested maxDepth))) := by
  intro h
  obtain ⟨j, hscan, hj⟩ := Shapes.exists_ofJson h
  have hlimited := (ServerMessage.regular_of_ofJson hj).2 (n := 125) (limited_of_scan hscan)
  cases hlimited with
  | obj each =>
  have hkeys : ([(tagKey, Json.str "ping"), ("payload", nested maxDepth)].map (·.1)).Nodup := by
    simp [tagKey]
  have hget := (Keyed.get?_ofList_of_nodup hkeys "payload").trans rfl
  exact not_limited_nested 126 (each _ (Keyed.mem_of_get? hget))

/-- A ping that was read from a text is not read back from its own, because the number in it
loses its last bit; and neither is one that nests deeper than a text may. -/
theorem ping_not_read_back :
    (∃ m, ServerMessage.ofText "\x7b\"payload\":0.98580922584067930,\"type\":\"ping\"\x7d" = .ok m ∧
      m.Regular ∧ ServerMessage.ofText m.toJson.render ≠ .ok m) ∧
    (ServerMessage.ping (some (nested maxDepth))).Regular ∧
      ServerMessage.ofText (ServerMessage.ping (some (nested maxDepth))).toJson.render ≠
        .ok (.ping (some (nested maxDepth))) := by
  refine ⟨?_, kept_nested 126, ofText_ne_nested _⟩
  have hread : (ServerMessage.ofText
      "\x7b\"payload\":0.98580922584067930,\"type\":\"ping\"\x7d").toOption.map (·.toJson.render) =
        some "\x7b\"payload\":0.9858092258406793,\"type\":\"ping\"\x7d" := by decide +kernel
  have hagain : (ServerMessage.ofText
      "\x7b\"payload\":0.9858092258406793,\"type\":\"ping\"\x7d").toOption.map (·.toJson.render) ≠
        some "\x7b\"payload\":0.9858092258406793,\"type\":\"ping\"\x7d" := by decide +kernel
  obtain ⟨m, hm, hrender⟩ := Option.map_eq_some_iff.1 hread
  obtain ⟨j, -, hj⟩ := Shapes.exists_ofJson (eq_ok_of_toOption hm)
  refine ⟨m, eq_ok_of_toOption hm, (ServerMessage.regular_of_ofJson hj).1, ne_of_render ?_⟩
  rwa [hrender]

end Switchboard.GraphQL
