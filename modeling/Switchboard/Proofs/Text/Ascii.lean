import Switchboard.Proofs.Outcome
import Switchboard.Proofs.Text.Cut
import Switchboard.Text.Utf8

/-!
# Switchboard.Proofs.Text.Ascii

Bytes that end in an ASCII character.

* `mem_pieces` — it is a piece of its own, whatever the bytes before it are;
* `mem_of_decode` — so the text that the bytes spell has it.
-/

namespace Switchboard.Text

/-- The bytes that may come second in a character are none that is one by itself. -/
theorem following_le {a lo hi : UInt8} {n : Nat} (h : following a = some (n, lo, hi)) :
    0x80 ≤ lo := by
  unfold following at h
  repeat' split at h
  all_goals cases h
  all_goals decide

/-- A last byte that is a character of its own is read as one, whatever comes before it. -/
theorem mem_pieces {b : UInt8} (hb : b < 0x80) {bs : Bytes} (h : bs.getLast? = some b) :
    Piece.char (Char.ofNat b.toNat) ∈ pieces bs := by
  -- The bytes before it that are read in one go with others are none of that kind.
  have hne {d : UInt8} (hd : 0x80 ≤ d) : d ≠ b := by
    rintro rfl
    exact UInt8.not_le.2 hb hd
  have hfirst {a : UInt8} (ha : ¬ a < 0x80) : a ≠ b := hne (UInt8.not_lt.1 ha)
  have hsecond {a d lo hi : UInt8} {n : Nat} (hf : following a = some (n, lo, hi))
      (hd : ¬ ¬ (lo ≤ d ∧ d ≤ hi)) : d ≠ b :=
    hne (UInt8.le_trans (following_le hf) (Decidable.not_not.1 hd).1)
  have hlater {d : UInt8} (hd : ¬ ¬ isTail d = true) : d ≠ b := by
    have htail := Decidable.not_not.1 hd
    simp only [isTail, Bool.and_eq_true, decide_eq_true_eq] at htail
    exact hne htail.1
  fun_induction pieces bs with
  | case1 => cases h
  | case2 a r ha ih =>
      by_cases hab : a = b
      · exact hab ▸ List.mem_cons_self
      · exact List.mem_cons_of_mem _ (ih (getLast?_tail h hab))
  | case3 a r ha hf ih => exact List.mem_cons_of_mem _ (ih (getLast?_tail h (hfirst ha)))
  | case4 a ha n lo hi hf => cases getLast?_tail h (hfirst ha)
  | case5 a ha n lo hi hf d r hd ih =>
      exact List.mem_cons_of_mem _ (ih (getLast?_tail h (hfirst ha)))
  | case6 a ha lo hi d r hd hf ih =>
      have hr := getLast?_tail (getLast?_tail h (hfirst ha)) (hsecond hf hd)
      exact List.mem_cons_of_mem _ (ih hr)
  | case7 a ha n lo hi hf d hd hn =>
      cases getLast?_tail (getLast?_tail h (hfirst ha)) (hsecond hf hd)
  | case8 a ha n lo hi hf d hd hn e r he ih =>
      have hr := getLast?_tail (getLast?_tail h (hfirst ha)) (hsecond hf hd)
      exact List.mem_cons_of_mem _ (ih hr)
  | case9 a ha lo hi d hd e r he hf hn ih =>
      have hr := getLast?_tail (getLast?_tail h (hfirst ha)) (hsecond hf hd)
      exact List.mem_cons_of_mem _ (ih (getLast?_tail hr (hlater he)))
  | case10 a ha n lo hi hf d hd hn e he hn' =>
      have hr := getLast?_tail (getLast?_tail h (hfirst ha)) (hsecond hf hd)
      cases getLast?_tail hr (hlater he)
  | case11 a ha n lo hi hf d hd hn e he hn' f r hf' ih =>
      have hr := getLast?_tail (getLast?_tail h (hfirst ha)) (hsecond hf hd)
      exact List.mem_cons_of_mem _ (ih (getLast?_tail hr (hlater he)))
  | case12 a ha n lo hi hf d hd hn e he hn' f r hf' ih =>
      have hr := getLast?_tail (getLast?_tail h (hfirst ha)) (hsecond hf hd)
      exact List.mem_cons_of_mem _ (ih (getLast?_tail (getLast?_tail hr (hlater he)) (hlater hf')))

theorem mem_of_ofPieces {i : Nat} {ps : List Piece} {cs : List Char} {c : Char}
    (h : ofPieces i ps = .ok cs) (hc : .char c ∈ ps) : c ∈ cs := by
  induction ps generalizing i cs with
  | nil => cases hc
  | cons p ps ih =>
    cases p with
    | char d =>
        obtain ⟨rest, hrest, rfl⟩ := map_eq_ok.1 h
        rcases List.mem_cons.1 hc with heq | hc
        · cases heq
          exact List.mem_cons_self
        · exact List.mem_cons_of_mem d (ih hrest hc)
    | invalid width => cases h
    | cut width => cases h

/-- Bytes that end in an ASCII character spell a text that has it, or none. -/
theorem mem_of_decode {bs : Bytes} {c : Char} (hc : c.toNat < 0x80)
    (h : bs.getLast? = some (UInt8.ofNat c.toNat)) {s : String} (hs : decode bs = .ok s) :
    c ∈ s.toList := by
  obtain ⟨cs, hcs, rfl⟩ := map_eq_ok.1 hs
  have hb : (UInt8.ofNat c.toNat).toNat = c.toNat := by
    rw [UInt8.toNat_ofNat', Nat.mod_eq_of_lt (by omega)]
  have hlt : UInt8.ofNat c.toNat < 0x80 := UInt8.lt_iff_toNat_lt.2 (by rw [hb]; exact hc)
  have hmem := mem_pieces hlt h
  rw [hb, Char.ofNat_toNat] at hmem
  rw [String.toList_ofList]
  exact mem_of_ofPieces hcs hmem

end Switchboard.Text
