import Switchboard.Json.Parser
import Switchboard.Proofs.Json.Canonical

/-!
# Switchboard.Proofs.Json.Legible

Values that can be read back from their text.  A text nests only so deep, a whole number is
kept as such only if it fits 64 bits, and a floating-point number may lose its last bit on
the way.

* `Within` — how deep a value nests, and what numbers stand in it;
* `Exact`, `Legible` — what reads back;
* `Within.canonical`, `within_of_canonical` — the order of fields makes no difference.
-/

namespace Switchboard.Json

variable {whole whole' : Int → Prop} {float float' : Double → Prop} {n m : Nat} {j : Json}

/-! ## Depth and numbers -/

/-- Arrays and objects nest `n` deep at most, and all numbers are of some kind. -/
inductive Within (whole : Int → Prop) (float : Double → Prop) : Nat → Json → Prop where
  | null {n : Nat} : Within whole float n .null
  | bool {n : Nat} (b : Bool) : Within whole float n (.bool b)
  | int {n : Nat} {i : Int} (h : whole i) : Within whole float n (.int i)
  | float {n : Nat} {x : Double} (h : float x) : Within whole float n (.float x)
  | str {n : Nat} (s : String) : Within whole float n (.str s)
  | arr {n : Nat} {items : List Json} (each : ∀ j ∈ items, Within whole float n j) :
      Within whole float (n + 1) (.arr items)
  | obj {n : Nat} {fields : List (String × Json)} (each : ∀ p ∈ fields, Within whole float n p.2) :
      Within whole float (n + 1) (.obj fields)

namespace Within

theorem mono (h : Within whole float n j) (hnm : n ≤ m) : Within whole float m j := by
  induction h generalizing m with
  | null => exact null
  | bool b => exact bool b
  | int h => exact int h
  | float h => exact .float h
  | str s => exact str s
  | arr each ih =>
      obtain ⟨k, rfl⟩ : ∃ k, m = k + 1 := ⟨m - 1, by omega⟩
      exact arr fun j hj => ih j hj (by omega)
  | obj each ih =>
      obtain ⟨k, rfl⟩ : ∃ k, m = k + 1 := ⟨m - 1, by omega⟩
      exact obj fun p hp => ih p hp (by omega)

/-- What is known of depth and whole numbers holds together with what is known of the rest. -/
theorem and (h : Within whole float n j) (h' : Within whole' float' m j) :
    Within whole float' n j := by
  induction h generalizing m with
  | null => exact null
  | bool b => exact bool b
  | int h => exact int h
  | float _ => cases h' with | float h => exact .float h
  | str s => exact str s
  | arr each ih => cases h' with | arr each' => exact arr fun j hj => ih j hj (each' j hj)
  | obj each ih => cases h' with | obj each' => exact obj fun p hp => ih p hp (each' p hp)

theorem object {fields : List (String × Json)} (h : ∀ p ∈ fields, Within whole float n p.2) :
    Within whole float (n + 1) (Json.object fields) :=
  .obj fun p hp => h p (Keyed.mem_of_mem_ofList hp)

/-- The order of fields makes no difference, nor does a key that is given twice. -/
theorem canonical (h : Within whole float n j) : Within whole float n j.canonical := by
  induction h with
  | null => exact null
  | bool b => exact bool b
  | int h => exact int h
  | float h => exact .float h
  | str s => exact str s
  | arr each ih =>
      simp only [Json.canonical, canonicalItems_eq]
      refine arr fun j hj => ?_
      obtain ⟨i, hi, rfl⟩ := List.mem_map.1 hj
      exact ih i hi
  | obj each ih =>
      simp only [Json.canonical, canonicalFields_eq]
      refine obj fun p hp => ?_
      obtain ⟨q, hq, rfl⟩ := List.mem_map.1 (Keyed.mem_of_mem_ofList hp)
      exact ih q hq

end Within

/-- Nothing is lost in form where no key is given twice. -/
theorem within_of_canonical (hd : j.Distinct) (h : Within whole float n j.canonical) :
    Within whole float n j := by
  induction hd generalizing n with
  | arr each ih =>
      simp only [canonical, canonicalItems_eq] at h
      cases h with
      | arr hitems => exact .arr fun j hj => ih j hj (hitems _ (List.mem_map_of_mem hj))
  | @obj fields keys each ih =>
      simp only [canonical] at h
      cases h with
      | obj hfields =>
      refine .obj fun p hp => ih p hp (hfields (p.1, p.2.canonical) ?_)
      have hkeys : ((canonicalFields fields).map (·.1)).Nodup := by rwa [map_fst_canonicalFields]
      have hmem : (p.1, p.2.canonical) ∈ canonicalFields fields := by
        rw [canonicalFields_eq]
        exact List.mem_map_of_mem (f := fun q => (q.1, q.2.canonical)) hp
      refine Keyed.mem_of_get? ((Keyed.get?_ofList_of_nodup hkeys _).trans ?_)
      exact Keyed.lookup_of_mem hkeys hmem
  | _ => exact h

/-! ## Legible values -/

/-- A whole number fits 64 bits, with or without a sign. -/
def Fits64 (i : Int) : Prop := -(UInt64.size / 2 : Nat) ≤ i ∧ i ≤ maxWhole

/-- The value keeps to the limits of a text: arrays and objects nest `n` deep at most, and
whole numbers fit 64 bits. -/
abbrev Limited (n : Nat) (j : Json) : Prop := Within Fits64 (fun _ => True) n j

/-- A floating-point number is what its own text is read as. -/
def Exact (x : Double) : Prop := scanToken x.render.toList = (.leaf (.float x), [])

/-- All floating-point numbers in a value are what their texts are read as. -/
def ExactFloats (j : Json) : Prop := ∃ n, Within (fun _ => True) Exact n j

/-- A value that can be read back from its text. -/
theorem legible (h : Limited n j) (hf : ExactFloats j) : Within Fits64 Exact n j := by
  obtain ⟨m, hf⟩ := hf
  exact h.and hf

end Switchboard.Json
