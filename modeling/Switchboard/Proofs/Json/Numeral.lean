import Switchboard.Json.Token

/-!
# Switchboard.Proofs.Json.Numeral

Numerals at the front of a text.

* `Ends` — what stands there does not go on with a numeral;
* `scanNumber_append` — a numeral is read the same whatever follows it;
* `scanNumber_toDigits` — the digits of a whole number are read as that number.
-/

namespace Switchboard.Json

variable {cs rest r : List Char}

/-! ## Where a numeral ends -/

/-- What stands here does not go on with a numeral. -/
def Ends (rest : List Char) : Prop :=
  ∀ c ∈ rest.head?, c.isDigit = false ∧ c ≠ '.' ∧ c ≠ 'e' ∧ c ≠ 'E'

theorem ends_nil : Ends [] := nofun

theorem scanDigits_append (hrest : Ends rest) :
    scanDigits (cs ++ rest) = ((scanDigits cs).1, (scanDigits cs).2 ++ rest) := by
  induction cs with
  | nil =>
      cases rest with
      | nil => rfl
      | cons c r =>
          have hc : c.isDigit = false := (hrest c rfl).1
          simp [scanDigits, hc]
  | cons c cs ih =>
      simp only [scanDigits, Prod.mk.injEq, List.cons_append, List.takeWhile_cons,
        List.dropWhile_cons] at ih ⊢
      cases c.isDigit <;> simp [ih.1, ih.2]

theorem scanWhole_append (hrest : Ends rest) {whole : List Char}
    (h : scanWhole cs = some (whole, r)) : scanWhole (cs ++ rest) = some (whole, r ++ rest) := by
  unfold scanWhole at h ⊢
  rw [scanDigits_append hrest]
  generalize scanDigits cs = d at h ⊢
  obtain ⟨ds, left⟩ := d
  split at h
  · cases h
  · cases h
  · next hnil hzero =>
    cases h
    split
    · next heq => cases heq; exact absurd rfl (hnil _)
    · next heq => cases heq; exact absurd rfl (hzero _ _ _)
    · rfl

theorem scanFraction_of_ne {c : Char} (hc : c ≠ '.') (cs : List Char) :
    scanFraction (c :: cs) = some (none, c :: cs) := by
  simp [scanFraction, hc]

theorem scanFraction_append (hrest : Ends rest) {fraction : Option (List Char)}
    (h : scanFraction cs = some (fraction, r)) :
    scanFraction (cs ++ rest) = some (fraction, r ++ rest) := by
  cases cs with
  | nil =>
      cases h
      cases rest with
      | nil => rfl
      | cons c rest => exact scanFraction_of_ne (hrest c rfl).2.1 rest
  | cons c cs =>
      by_cases hc : c = '.'
      · subst hc
        simp only [scanFraction, List.cons_append] at h ⊢
        rw [scanDigits_append hrest]
        generalize scanDigits cs = d at h ⊢
        obtain ⟨ds, left⟩ := d
        cases ds with
        | nil => cases h
        | cons d ds => cases h; rfl
      · rw [scanFraction_of_ne hc] at h
        cases h
        exact scanFraction_of_ne hc _

theorem scanPowerDigits_append (hrest : Ends rest) {negative : Bool} {power : Option Int}
    (h : scanPowerDigits negative cs = some (power, r)) :
    scanPowerDigits negative (cs ++ rest) = some (power, r ++ rest) := by
  unfold scanPowerDigits at h ⊢
  rw [scanDigits_append hrest]
  generalize scanDigits cs = d at h ⊢
  obtain ⟨ds, left⟩ := d
  cases ds with
  | nil => cases h
  | cons d ds => cases h; rfl

theorem scanPower_append (hrest : Ends rest) {power : Option Int}
    (h : scanPower cs = some (power, r)) : scanPower (cs ++ rest) = some (power, r ++ rest) := by
  cases cs with
  | nil =>
      cases h
      cases rest with
      | nil => rfl
      | cons c rest =>
          obtain ⟨-, -, he, hE⟩ := hrest c rfl
          simp [scanPower, he, hE]
  | cons c cs =>
      simp only [scanPower, List.cons_append] at h ⊢
      split
      · next hc =>
        rw [if_pos hc] at h
        cases cs with
        | nil => cases h
        | cons s cs =>
            simp only [List.cons_append]
            split at h
            · next heq => cases heq; exact scanPowerDigits_append hrest h
            · next heq => cases heq; exact scanPowerDigits_append hrest h
            · next hplus hminus =>
              split
              · next heq => cases heq; exact absurd rfl (hplus _)
              · next heq => cases heq; exact absurd rfl (hminus _)
              · exact scanPowerDigits_append hrest h
      · next hc =>
        rw [if_neg hc] at h
        cases h
        rfl

theorem scanNumber_eq_some {negative : Bool} {j : Json} :
    scanNumber negative cs = some (j, r) ↔ ∃ whole r₁ fraction r₂ power,
      scanWhole cs = some (whole, r₁) ∧ scanFraction r₁ = some (fraction, r₂) ∧
        scanPower r₂ = some (power, r) ∧
          Numeral.value ⟨negative, whole, fraction, power⟩ = some j := by
  simp only [scanNumber, bind, Option.bind_eq_some_iff, pure, Option.some.injEq, Prod.mk.injEq,
    Prod.exists]
  constructor
  · rintro ⟨whole, r₁, hw, fraction, r₂, hf, power, _, hp, _, hv, rfl, rfl⟩
    exact ⟨whole, r₁, fraction, r₂, power, hw, hf, hp, hv⟩
  · rintro ⟨whole, r₁, fraction, r₂, power, hw, hf, hp, hv⟩
    exact ⟨whole, r₁, hw, fraction, r₂, hf, power, r, hp, j, hv, rfl, rfl⟩

/-- A numeral is read the same whatever follows it. -/
theorem scanNumber_append (hrest : Ends rest) {negative : Bool} {j : Json}
    (h : scanNumber negative cs = some (j, r)) :
    scanNumber negative (cs ++ rest) = some (j, r ++ rest) := by
  obtain ⟨whole, r₁, fraction, r₂, power, hw, hf, hp, hv⟩ := scanNumber_eq_some.1 h
  exact scanNumber_eq_some.2 ⟨whole, _, fraction, _, power, scanWhole_append hrest hw,
    scanFraction_append hrest hf, scanPower_append hrest hp, hv⟩

/-! ## Whole numbers -/

theorem digitValue_digitChar : ∀ d < 10, digitValue (Nat.digitChar d) = d := by decide

theorem takeDigits_append {ds more : List Char} {m n : Nat} (h : takeDigits m ds = (n, [])) :
    takeDigits m (ds ++ more) = takeDigits n more := by
  induction ds generalizing m with
  | nil => cases h; rfl
  | cons d ds ih =>
      rw [takeDigits] at h
      rw [List.cons_append, takeDigits]
      split at h
      · cases h
      · next hle => rw [if_neg hle, ih h]

/-- The digits of a number that stays exact make up that number. -/
theorem takeDigits_toDigits {n : Nat} (h : n ≤ maxWhole) :
    takeDigits 0 (Nat.toDigits 10 n) = (n, []) := by
  induction n using Nat.strongRecOn with
  | ind n ih =>
      have hlast : ∀ m, m * 10 + n % 10 = n → takeDigits m [Nat.digitChar (n % 10)] = (n, []) := by
        intro m hm
        rw [takeDigits, digitValue_digitChar _ (Nat.mod_lt _ (by decide)), hm,
          if_neg (Nat.not_lt.2 h), takeDigits]
      rcases Nat.lt_or_ge n 10 with hlt | hge
      · rw [Nat.toDigits_of_lt_base hlt]
        have hmod : n % 10 = n := Nat.mod_eq_of_lt hlt
        have h0 := hlast 0 (by omega)
        rwa [hmod] at h0
      · rw [Nat.toDigits_of_base_le (by decide) hge,
          takeDigits_append (ih (n / 10) (by omega) (by omega))]
        exact hlast _ (by omega)

/-- A number but zero starts with no zero. -/
theorem exists_toDigits {n : Nat} (h : n ≠ 0) : ∃ d ds, Nat.toDigits 10 n = d :: ds ∧ d ≠ '0' := by
  induction n using Nat.strongRecOn with
  | ind n ih =>
      rcases Nat.lt_or_ge n 10 with hlt | hge
      · refine ⟨_, [], Nat.toDigits_of_lt_base hlt, fun hd => h ?_⟩
        have hv := digitValue_digitChar n hlt
        rw [hd] at hv
        exact hv.symm
      · obtain ⟨d, ds, hds, hd⟩ := ih (n / 10) (by omega) (by omega)
        exact ⟨d, _, by rw [Nat.toDigits_of_base_le (by decide) hge, hds, List.cons_append], hd⟩

theorem scanDigits_toDigits (n : Nat) :
    scanDigits (Nat.toDigits 10 n) = (Nat.toDigits 10 n, []) := by
  have hall : ∀ c ∈ Nat.toDigits 10 n, c.isDigit = true := fun c hc =>
    Nat.isDigit_of_mem_toDigits (by decide) (by decide) hc
  have htake : (Nat.toDigits 10 n ++ []).takeWhile Char.isDigit = _ :=
    List.takeWhile_append_of_pos hall
  have hdrop : (Nat.toDigits 10 n ++ []).dropWhile Char.isDigit = _ :=
    List.dropWhile_append_of_pos hall
  rw [List.append_nil] at htake hdrop
  rw [scanDigits, htake, hdrop]
  simp

theorem scanWhole_toDigits (n : Nat) :
    scanWhole (Nat.toDigits 10 n) = some (Nat.toDigits 10 n, []) := by
  rw [scanWhole, scanDigits_toDigits]
  by_cases hn : n = 0
  · subst hn; rfl
  · obtain ⟨d, ds, hds, hd⟩ := exists_toDigits hn
    rw [hds]
    split
    · next heq => cases heq
    · next heq => cases heq; exact absurd rfl hd
    · rfl

theorem scanNumber_toDigits {n : Nat} (h : n ≤ maxWhole) :
    scanNumber false (Nat.toDigits 10 n) = some (.int n, []) := by
  refine scanNumber_eq_some.2 ⟨_, _, none, _, none, scanWhole_toDigits n, rfl, rfl, ?_⟩
  simp only [Numeral.value, takeDigits_toDigits h]
  rfl

theorem scanNumber_neg_toDigits {n : Nat} (h₀ : n ≠ 0) (h : n ≤ UInt64.size / 2) :
    scanNumber true (Nat.toDigits 10 n) = some (.int (-n), []) := by
  have hmax : UInt64.size / 2 ≤ maxWhole := by decide
  refine scanNumber_eq_some.2 ⟨_, _, none, _, none, scanWhole_toDigits n, rfl, rfl, ?_⟩
  simp only [Numeral.value, takeDigits_toDigits (Nat.le_trans h hmax)]
  simp [h₀, h]

end Switchboard.Json
