import Switchboard.Json.Printer
import Switchboard.Proofs.Json.Legible
import Switchboard.Proofs.Json.Numeral

/-!
# Switchboard.Proofs.Json.Token

The words of the text of a value.

* `scanString_flatMap` — a string is read back from the way it is written;
* `scanToken_append` — a numeral or a name is read the same whatever follows it;
* `words` — the words that the text of a value is made of;
* `Spells` — some characters are read as some words;
* `spells_render`, `tokens_render` — the text of a value is read as its words.
-/

namespace Switchboard.Json

/-! ## Strings -/

theorem hex4?_hexDigit : ∀ n < 0x20,
    hex4? '0' '0' (Text.hexDigit (n / 16)) (Text.hexDigit (n % 16)) = some n := by decide

theorem scanString_unescape {e c : Char} {r s rest : List Char} (he : e ≠ 'u')
    (hc : unescape? e = some c) (h : scanString r = some (s, rest)) :
    scanString ('\\' :: e :: r) = some (c :: s, rest) := by
  simp [scanString, he, hc, h]

/-- A character is read back from the way it is written. -/
theorem scanString_escapeChar (c : Char) {r s rest : List Char}
    (h : scanString r = some (s, rest)) :
    scanString (escapeChar c ++ r) = some (c :: s, rest) := by
  have hself : Char.ofNat c.toNat = c := Char.ofNat_toNat c
  unfold escapeChar
  split
  · next hc => subst hc; exact scanString_unescape (by decide) rfl h
  split
  · next hc => subst hc; exact scanString_unescape (by decide) rfl h
  split
  · next hc => rw [← hself, hc]; exact scanString_unescape (by decide) rfl h
  split
  · next hc => subst hc; exact scanString_unescape (by decide) rfl h
  split
  · next hc => subst hc; exact scanString_unescape (by decide) rfl h
  split
  · next hc => rw [← hself, hc]; exact scanString_unescape (by decide) rfl h
  split
  · next hc => subst hc; exact scanString_unescape (by decide) rfl h
  split
  · next hc =>
    simp only [List.cons_append, List.nil_append, scanString, hex4?_hexDigit _ hc, bind,
      Option.bind_some, h, hself]
    rw [if_neg (by omega), if_neg (by omega)]
  · next hquote hslash _ _ _ _ _ hlow =>
    simp [scanString, hslash, hlow, h]

theorem scanString_flatMap (cs rest : List Char) :
    scanString (cs.flatMap escapeChar ++ '"' :: rest) = some (cs, rest) := by
  induction cs with
  | nil => simp [scanString]
  | cons c cs ih =>
      rw [List.flatMap_cons, List.append_assoc]
      exact scanString_escapeChar c ih

/-! ## Numerals and names -/

theorem isDigit_of_scanWhole {c : Char} {cs whole r : List Char}
    (h : scanWhole (c :: cs) = some (whole, r)) : c.isDigit = true := by
  cases hc : c.isDigit with
  | true => rfl
  | false =>
      have hdigits : scanDigits (c :: cs) = ([], c :: cs) := by simp [scanDigits, hc]
      rw [scanWhole, hdigits] at h
      cases h

theorem scanToken_of_isDigit {c : Char} (hc : c.isDigit = true) (cs : List Char) :
    scanToken (c :: cs) = match scanNumber false (c :: cs) with
      | some (j, r) => (.leaf j, r)
      | none => (.bad, []) := by
  unfold scanToken
  -- None of the other words starts with a digit.
  split <;> first | rfl | (next heq => cases heq; exact absurd hc (by decide))

/-- A numeral or a name is read the same whatever follows it. -/
theorem scanToken_append {cs rest r : List Char} (hrest : Ends rest) {j : Json}
    (h : scanToken cs = (.leaf j, r)) : scanToken (cs ++ rest) = (.leaf j, r ++ rest) := by
  unfold scanToken at h
  split at h
  case h_7 => cases h; rfl
  case h_8 => cases h; rfl
  case h_9 => cases h; rfl
  case h_10 => split at h <;> cases h
  case h_11 =>
    split at h
    · next hnumber =>
      cases h
      have happend := scanNumber_append hrest hnumber
      simp only [List.cons_append, scanToken, happend]
    · cases h
  case h_12 =>
    split at h
    · next hnumber =>
      cases h
      obtain ⟨_, _, _, _, _, hwhole, -⟩ := scanNumber_eq_some.1 hnumber
      cases cs with
      | nil => cases hwhole
      | cons c cs =>
          have happend := scanNumber_append hrest hnumber
          rw [List.cons_append] at happend ⊢
          rw [scanToken_of_isDigit (isDigit_of_scanWhole hwhole), happend]
    · cases h
  all_goals cases h

theorem scanToken_toString {i : Int} (h : Fits64 i) :
    scanToken (toString i).toList = (.leaf (.int i), []) := by
  obtain ⟨hlow, hhigh⟩ := h
  cases i with
  | ofNat n =>
      have hdigits : (toString (Int.ofNat n)).toList = Nat.toDigits 10 n := by
        show (toString n).toList = _
        rw [Nat.toString_eq_ofList_toDigits, String.toList_ofList]
      have hnumber := scanNumber_toDigits (n := n) (Int.ofNat_le.1 hhigh)
      rw [hdigits]
      cases hcs : Nat.toDigits 10 n with
      | nil => exact absurd hcs Nat.toDigits_ne_nil
      | cons d ds =>
          have hd : d.isDigit = true :=
            Nat.isDigit_of_mem_toDigits (by decide) (by decide) (hcs ▸ List.mem_cons_self)
          rw [hcs] at hnumber
          rw [scanToken_of_isDigit hd, hnumber]
          rfl
  | negSucc n =>
      have hdigits : (toString (Int.negSucc n)).toList = '-' :: Nat.toDigits 10 (n + 1) := by
        show ("-" ++ toString (n + 1)).toList = _
        rw [String.toList_append, Nat.toString_eq_ofList_toDigits, String.toList_ofList]
        simp
      have hnumber := scanNumber_neg_toDigits (n := n + 1) (by omega) (by omega)
      simp only [hdigits, scanToken, hnumber]
      rfl

/-! ## Words -/

theorem scanToken_of_isBlank {c : Char} (h : isBlank c = true) (cs : List Char) :
    scanToken (c :: cs) = (.bad, []) := by
  simp only [isBlank, Bool.or_eq_true, beq_iff_eq] at h
  rcases h with ((rfl | rfl) | rfl) | rfl <;> rfl

theorem scanTokens_cons {cs r : List Char} {t : Token} (h : scanToken cs = (t, r))
    (ht : t ≠ .bad) (fuel : Nat) : scanTokens (fuel + 1) cs = t :: scanTokens fuel r := by
  cases cs with
  | nil => cases h; exact absurd rfl ht
  | cons c cs =>
      have hblank : ¬ isBlank c = true := by
        intro hc
        rw [scanToken_of_isBlank hc] at h
        cases h
        exact ht rfl
      have hdrop : (c :: cs).dropWhile isBlank = c :: cs := List.dropWhile_cons_of_neg hblank
      simp only [scanTokens, hdrop, h]

mutual
/-- The words of the text of a value. -/
def words : Json → List Token
  | .str s => [.text s]
  | .arr items => .openArray :: ([.comma].intercalate (wordsOfItems items) ++ [.closeArray])
  | .obj fields => .openObject :: ([.comma].intercalate (wordsOfFields fields) ++ [.closeObject])
  | j => [.leaf j]

def wordsOfItems : List Json → List (List Token)
  | [] => []
  | j :: rest => words j :: wordsOfItems rest

def wordsOfFields : List (String × Json) → List (List Token)
  | [] => []
  | (k, j) :: rest => (.text k :: .colon :: words j) :: wordsOfFields rest
end

theorem wordsOfItems_eq (items : List Json) : wordsOfItems items = items.map words := by
  induction items with
  | nil => rfl
  | cons j rest ih => rw [wordsOfItems, ih, List.map_cons]

theorem wordsOfFields_eq (fields : List (String × Json)) :
    wordsOfFields fields = fields.map fun p => .text p.1 :: .colon :: words p.2 := by
  induction fields with
  | nil => rfl
  | cons p rest ih => rw [wordsOfFields, ih, List.map_cons]

theorem toList_renderItems (items : List Json) :
    (renderItems items).map String.toList = items.map (·.render.toList) := by
  induction items with
  | nil => rfl
  | cons j rest ih => rw [renderItems, List.map_cons, ih, List.map_cons]

theorem toList_renderFields (fields : List (String × Json)) :
    (renderFields fields).map String.toList =
      fields.map fun p => (renderString p.1).toList ++ ':' :: p.2.render.toList := by
  induction fields with
  | nil => rfl
  | cons p rest ih =>
      rw [renderFields, List.map_cons, ih, List.map_cons]
      simp

/-! ## Spelling -/

/-- Some characters spell some words: they are read as these, as long as no numeral goes on
behind them. -/
structure Spells (cs : List Char) (ts : List Token) : Prop where
  length_le : ts.length ≤ cs.length
  scan : ∀ {rest : List Char}, Ends rest → ∀ fuel,
    scanTokens (fuel + ts.length) (cs ++ rest) = ts ++ scanTokens fuel rest

theorem ends_cons {c : Char} (hc : c ∈ [',', ':', ']', '\x7d']) (r : List Char) :
    Ends (c :: r) := by
  intro d hd
  cases hd
  simp only [List.mem_cons, List.not_mem_nil, or_false] at hc
  rcases hc with rfl | rfl | rfl | rfl <;> decide

namespace Spells

variable {cs cs' : List Char} {ts ts' : List Token} {c : Char} {t : Token}

theorem nil : Spells [] [] := ⟨Nat.le_refl 0, fun _ _ => rfl⟩

/-- One word. -/
theorem word (ht : t ≠ .bad) (h : ∀ {rest}, Ends rest → scanToken (cs ++ rest) = (t, rest)) :
    Spells cs [t] where
  length_le := by
    cases cs with
    | nil => exact absurd (congrArg Prod.fst (h ends_nil)).symm ht
    | cons c cs => simp
  scan hrest fuel := scanTokens_cons (h hrest) ht fuel

theorem leaf {j : Json} (h : scanToken cs = (.leaf j, [])) : Spells cs [.leaf j] :=
  word nofun fun hrest => scanToken_append hrest h

/-- Punctuation that stands before something. -/
theorem cons (ht : t ≠ .bad) (hc : ∀ r, scanToken (c :: r) = (t, r)) (h : Spells cs ts) :
    Spells (c :: cs) (t :: ts) where
  length_le := Nat.succ_le_succ h.length_le
  scan hrest fuel := by
    rw [List.cons_append, List.cons_append, ← h.scan hrest fuel]
    exact scanTokens_cons (hc _) ht _

/-- Words that are followed by punctuation. -/
theorem append (h : Spells cs ts) (hc : c ∈ [',', ':', ']', '\x7d']) (h' : Spells (c :: cs') ts') :
    Spells (cs ++ c :: cs') (ts ++ ts') where
  length_le := by
    have h₁ := h.length_le
    have h₂ := h'.length_le
    simp only [List.length_append]
    omega
  scan {rest} hrest fuel := by
    have hfuel : fuel + (ts ++ ts').length = fuel + ts'.length + ts.length := by
      rw [List.length_append]; omega
    rw [List.append_assoc, List.append_assoc, ← h'.scan hrest fuel, hfuel]
    exact h.scan (ends_cons hc (cs' ++ rest)) _

/-- Things with commas between them. -/
theorem intercalate {α : Type} {write : α → List Char} {spell : α → List Token} {xs : List α}
    (h : ∀ x ∈ xs, Spells (write x) (spell x)) :
    Spells ([','].intercalate (xs.map write)) ([.comma].intercalate (xs.map spell)) := by
  induction xs with
  | nil => exact nil
  | cons x rest ih =>
      have hx := h x List.mem_cons_self
      cases rest with
      | nil => simpa using hx
      | cons y rest =>
          have hrest := ih fun z hz => h z (List.mem_cons_of_mem x hz)
          have hcomma := cons (c := ',') (t := .comma) nofun (fun _ => rfl) hrest
          simp only [List.map_cons, List.intercalate_cons_cons, List.append_assoc]
          exact hx.append (by decide) hcomma

end Spells

theorem scanToken_renderString (s : String) (rest : List Char) :
    scanToken ((renderString s).toList ++ rest) = (.text s, rest) := by
  have hscan := scanString_flatMap s.toList rest
  have hcs : (renderString s).toList ++ rest =
      '"' :: (s.toList.flatMap escapeChar ++ '"' :: rest) := by
    simp [renderString]
  rw [hcs]
  simp only [scanToken, hscan, String.ofList_toList]

/-- The text of a value spells its words. -/
theorem spells_render {n : Nat} {j : Json} (h : Within Fits64 Exact n j) :
    Spells j.render.toList (words j) := by
  induction h with
  | null => exact .leaf rfl
  | bool b => cases b <;> exact .leaf rfl
  | int h => exact .leaf (scanToken_toString h)
  | float h => exact .leaf h
  | str s => exact .word nofun fun _ => scanToken_renderString s _
  | @arr n items each ih =>
      have hitems : Spells _ ([.comma].intercalate (items.map words)) := .intercalate ih
      have hclose : Spells [']'] [.closeArray] := .cons nofun (fun _ => rfl) .nil
      have hopen := Spells.cons (c := '[') (t := .openArray) nofun (fun _ => rfl)
        (hitems.append (by decide) hclose)
      simpa [render, words, wordsOfItems_eq, String.toList_intercalate, toList_renderItems]
        using hopen
  | @obj n fields each ih =>
      have hfield : ∀ p ∈ fields, Spells ((renderString p.1).toList ++ ':' :: p.2.render.toList)
          ([.text p.1] ++ .colon :: words p.2) := by
        intro p hp
        have hkey : Spells (renderString p.1).toList [.text p.1] :=
          .word nofun fun _ => scanToken_renderString p.1 _
        exact hkey.append (by decide) (.cons nofun (fun _ => rfl) (ih p hp))
      have hfields := Spells.intercalate hfield
      have hclose : Spells ['\x7d'] [.closeObject] := .cons nofun (fun _ => rfl) .nil
      have hopen := Spells.cons (c := '\x7b') (t := .openObject) nofun (fun _ => rfl)
        (hfields.append (by decide) hclose)
      simpa [render, words, wordsOfFields_eq, String.toList_intercalate, toList_renderFields]
        using hopen

/-- The words that are read in the text of a value. -/
theorem tokens_render {n : Nat} {j : Json} (h : Within Fits64 Exact n j) :
    tokens j.render = words j := by
  have hspells := spells_render h
  have hscan := hspells.scan ends_nil (j.render.toList.length - (words j).length)
  rw [List.append_nil, Nat.sub_add_cancel hspells.length_le] at hscan
  have hnil : ∀ fuel, scanTokens fuel [] = [] := fun fuel => by cases fuel <;> rfl
  rw [tokens, hscan, hnil, List.append_nil]

end Switchboard.Json
