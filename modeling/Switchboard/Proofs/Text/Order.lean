import Switchboard.Keyed
import Switchboard.Text.Utf8

/-!
# Switchboard.Proofs.Text.Order

The order of texts is the order of their bytes.

* `utf8EncodeChar_append_lt` — the bytes of two characters differ before either ends;
* `encode_lt_iff`, `encode_le_iff` — so texts and their bytes are in the same order.
-/

namespace Switchboard.Text

/-- Bytes are in the order of the numbers that they stand for. -/
theorem ofNat_cons_lt {k l : Nat} (hk : k < 256) (hl : l < 256) {x y : Bytes} :
    UInt8.ofNat k :: x < UInt8.ofNat l :: y ↔ k < l ∨ k = l ∧ x < y := by
  rw [List.cons_lt_cons_iff, UInt8.lt_iff_toNat_lt, ← UInt8.toNat_inj, UInt8.toNat_ofNat',
    UInt8.toNat_ofNat', Nat.mod_eq_of_lt hk, Nat.mod_eq_of_lt hl]

/-- The bytes of a character come before those of a later one, whatever follows them. -/
theorem utf8EncodeChar_append_lt {c d : Char} (h : c < d) (x y : Bytes) :
    String.utf8EncodeChar c ++ x < String.utf8EncodeChar d ++ y := by
  have hlt : c.val.toNat < d.val.toNat := h
  have hd : d.val.toNat < 0x110000 := by
    have hvalid := d.valid
    unfold UInt32.isValidChar Nat.isValidChar at hvalid
    omega
  -- A character has up to four digits of six bits, and the first one that differs decides.
  have htwo (k : Nat) : k / 4096 = k / 64 / 64 := by omega
  have hthree (k : Nat) : k / 262144 = k / 64 / 64 / 64 := by omega
  unfold String.utf8EncodeChar
  simp only [htwo, hthree]
  generalize c.val.toNat = m at *
  generalize d.val.toNat = n at *
  repeat' split
  all_goals simp (disch := omega) only [List.cons_append, List.nil_append, ofNat_cons_lt]
  all_goals omega

theorem exists_utf8EncodeChar (c : Char) : ∃ b rest, String.utf8EncodeChar c = b :: rest := by
  unfold String.utf8EncodeChar
  dsimp only
  repeat' split
  all_goals exact ⟨_, _, rfl⟩

theorem flatMap_lt {xs ys : List Char} (h : xs < ys) :
    xs.flatMap String.utf8EncodeChar < ys.flatMap String.utf8EncodeChar := by
  induction h with
  | @nil d rest =>
      obtain ⟨b, bytes, hd⟩ := exists_utf8EncodeChar d
      rw [List.flatMap_nil, List.flatMap_cons, hd]
      exact List.nil_lt_cons b _
  | rel hlt => exact utf8EncodeChar_append_lt hlt _ _
  | cons _ ih => exact List.append_left_lt ih

/-- Texts are in the order of their bytes. -/
theorem encode_lt_iff {a b : String} : encode a < encode b ↔ a < b := by
  refine ⟨fun h => Classical.byContradiction fun hnot => ?_, flatMap_lt⟩
  by_cases heq : a = b
  · exact List.lt_irrefl _ (heq ▸ h)
  · have hback : encode b < encode a := flatMap_lt (Keyed.lt_of_not_lt_of_ne hnot heq)
    exact List.lt_asymm h hback

theorem encode_le_iff {a b : String} : encode a ≤ encode b ↔ a ≤ b :=
  not_congr encode_lt_iff

end Switchboard.Text
