import Switchboard.Proofs.Json.Legible
import Switchboard.Proofs.Json.Numeral
import Switchboard.Proofs.Outcome

/-!
# Switchboard.Proofs.Json.Limits

What is read from a text keeps to the limits of a text.

* `limited_of_mem_scanTokens` — whole numbers fit 64 bits, or they are not read as such;
* `Contained` — what the open arrays and objects hold leaves room for what is around it;
* `contained_step` — no word changes that;
* `limited_of_scan` — so whatever is read nests only so deep.
-/

namespace Switchboard.Json

variable {j : Json} {cs r : List Char}

/-! ## Words -/

theorem takeDigits_le {ds left : List Char} {m n : Nat} (hm : m ≤ maxWhole)
    (h : takeDigits m ds = (n, left)) : n ≤ maxWhole := by
  induction ds generalizing m with
  | nil => cases h; exact hm
  | cons d ds ih =>
      rw [takeDigits] at h
      split at h
      · cases h; exact hm
      · next hle => exact ih (Nat.not_lt.1 hle) h

theorem limited_of_value {x : Numeral} (h : x.value = some j) : Limited 0 j := by
  unfold Numeral.value at h
  simp only at h
  split at h
  · next n hn =>
    cases h
    split at hn
    · next k hk =>
      have hle := takeDigits_le (by decide) hk
      split at hn
      · cases hn
        exact .int ⟨by omega, by omega⟩
      · split at hn
        · cases hn
          exact .int ⟨by omega, by omega⟩
        · cases hn
    · cases hn
  · obtain ⟨y, -, rfl⟩ := Option.map_eq_some_iff.1 h
    exact .float trivial

theorem limited_of_scanToken (h : scanToken cs = (.leaf j, r)) : Limited 0 j := by
  unfold scanToken at h
  split at h
  case h_7 => cases h; exact .null
  case h_8 => cases h; exact .bool true
  case h_9 => cases h; exact .bool false
  case h_10 => split at h <;> cases h
  case h_11 | h_12 =>
    split at h
    · next hnumber =>
      cases h
      obtain ⟨_, _, _, _, _, -, -, -, hvalue⟩ := scanNumber_eq_some.1 hnumber
      exact limited_of_value hvalue
    · cases h
  all_goals cases h

theorem limited_of_mem_scanTokens {fuel : Nat} (h : .leaf j ∈ scanTokens fuel cs) :
    Limited 0 j := by
  induction fuel generalizing cs with
  | zero => cases h
  | succ fuel ih =>
      rw [scanTokens] at h
      split at h
      · cases h
      · next c cs' _ =>
        simp only at h
        cases hscan : scanToken (c :: cs') with
        | mk t rest =>
        rw [hscan] at h
        cases t with
        | bad => simp at h
        | leaf i =>
            rcases List.mem_cons.1 h with heq | hmem
            · cases heq; exact limited_of_scanToken hscan
            · exact ih hmem
        | _ => exact ih ((List.mem_cons.1 h).resolve_left nofun)

/-! ## Frames -/

variable {stack outer : List Frame} {t : Token}

/-- The values in an array or object that is still open. -/
def Frame.values : Frame → List Json
  | array items => items
  | object fields _ => fields.map (·.2)

/-- What the open arrays and objects hold leaves room for what is around it. -/
def Contained : List Frame → Prop
  | [] => True
  | f :: outer => outer.length < maxDepth ∧
      (∀ j ∈ f.values, Limited (maxDepth - (outer.length + 1)) j) ∧ Contained outer

/-- The same of what a word leads to, where it does not open too much. -/
def Step.Contained : Step → Prop
  | go _ stack => stack.length ≤ maxDepth → Json.Contained stack
  | done j => Limited maxDepth j
  | fault => True

theorem contained_settle (hj : Limited (maxDepth - outer.length) j) (h : Contained outer) :
    (settle j outer).Contained := by
  cases outer with
  | nil => exact hj
  | cons f outer =>
      obtain ⟨hroom, hvalues, houter⟩ := h
      cases f with
      | array items => exact fun _ => ⟨hroom, List.forall_mem_cons.2 ⟨hj, hvalues⟩, houter⟩
      | object fields key =>
          cases key with
          | none => trivial
          | some key => exact fun _ => ⟨hroom, List.forall_mem_cons.2 ⟨hj, hvalues⟩, houter⟩

theorem contained_close_array {items : List Json} (h : Contained (.array items :: outer)) :
    (settle (.arr items.reverse) outer).Contained := by
  obtain ⟨hroom, hvalues, houter⟩ := h
  have hdepth : maxDepth - outer.length = maxDepth - (outer.length + 1) + 1 := by omega
  refine contained_settle ?_ houter
  rw [hdepth]
  exact .arr fun j hj => hvalues j (List.mem_reverse.1 hj)

theorem contained_close_object {fields : List (String × Json)} {key : Option String}
    (h : Contained (.object fields key :: outer)) :
    (settle (.obj fields.reverse) outer).Contained := by
  obtain ⟨hroom, hvalues, houter⟩ := h
  have hdepth : maxDepth - outer.length = maxDepth - (outer.length + 1) + 1 := by omega
  refine contained_settle ?_ houter
  rw [hdepth]
  exact .obj fun p hp => hvalues p.2 (List.mem_map_of_mem (List.mem_reverse.1 hp))

theorem contained_stepValue (h : Contained stack) (ht : ∀ j, t = .leaf j → Limited 0 j) :
    (stepValue stack t).Contained := by
  cases t with
  | leaf j => exact contained_settle ((ht j rfl).mono (Nat.zero_le _)) h
  | text s => exact contained_settle (.str s) h
  | openArray => exact fun hlen => ⟨hlen, nofun, h⟩
  | openObject => exact fun hlen => ⟨hlen, nofun, h⟩
  | _ => trivial

theorem contained_stepKey (h : Contained stack) : (stepKey stack t).Contained := by
  unfold stepKey
  split
  · exact fun _ => h
  · trivial

/-- No word lets what is open hold more than there is room for. -/
theorem contained_step (e : Expect) (h : Contained stack) (ht : ∀ j, t = .leaf j → Limited 0 j) :
    (step stack e t).Contained := by
  unfold step
  split
  · exact contained_stepValue h ht
  · split
    · exact contained_close_array h
    · trivial
  · exact contained_stepValue h ht
  · split
    · exact contained_close_object h
    · trivial
  · exact contained_stepKey h
  · exact contained_stepKey h
  · exact fun _ => h
  · trivial
  · split
    · exact fun _ => h
    · exact fun _ => h
    · exact contained_close_array h
    · exact contained_close_object h
    · trivial

theorem limited_of_scanFrom {e : Expect} {ts rest : List Token} (h : Contained stack)
    (hts : ∀ j, .leaf j ∈ ts → Limited 0 j) (hscan : scanFrom e stack ts = .whole j rest) :
    Limited maxDepth j := by
  induction ts generalizing e stack with
  | nil => cases hscan
  | cons t ts ih =>
      have hstep := contained_step e h fun i hi => hts i (hi ▸ List.mem_cons_self)
      rw [scanFrom] at hscan
      split at hscan
      · next s hgo =>
        rw [hgo] at hstep
        split at hscan
        · next hlen => exact ih (hstep hlen) (fun i hi => hts i (List.mem_cons_of_mem t hi)) hscan
        · cases hscan
      · next hdone =>
        cases hscan
        rwa [hdone] at hstep
      · cases hscan

/-- Whatever is read from a text keeps to the limits of a text. -/
theorem limited_of_scan {text : String} {rest : List Token} (h : scan text = .whole j rest) :
    Limited maxDepth j :=
  have hempty : Contained [] := trivial
  limited_of_scanFrom hempty (fun _ hi => limited_of_mem_scanTokens hi) h

end Switchboard.Json
