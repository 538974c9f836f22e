import Mathlib.Data.List.DropRight

/-!
# Switchboard.Proofs.Text.Cut

Lists that are cut where a test fails, from the front or from the end.

* `takeWhile_append_of_stop`, `takeWhile_takeWhile_of_imp` — what is taken;
* `rdropWhile_append_of_forall`, `rdropWhile_append_cons` — what is dropped at the end;
* `exists_eq_rdropWhile_append` — what is left, and what was dropped.
-/

namespace Switchboard

variable {α : Type} {p q : α → Bool} {xs ys : List α}

theorem getLast?_tail {a b : α} (h : (a :: xs).getLast? = some b) (hne : a ≠ b) :
    xs.getLast? = some b := by
  cases xs with
  | nil => exact absurd (Option.some.inj h) hne
  | cons c rest => rwa [List.getLast?_cons_cons] at h

/-- What comes after a stop is not taken. -/
theorem takeWhile_append_of_stop (h : ys.takeWhile p = []) :
    (xs ++ ys).takeWhile p = xs.takeWhile p := by
  rw [List.takeWhile_append, h]
  split
  · next hall => rw [List.append_nil, (List.takeWhile_prefix p).eq_of_length hall]
  · rfl

/-- A test that lets more through can come first. -/
theorem takeWhile_takeWhile_of_imp (h : ∀ c, p c = true → q c = true) (xs : List α) :
    (xs.takeWhile q).takeWhile p = xs.takeWhile p ∧
      (xs.takeWhile q).dropWhile p = (xs.dropWhile p).takeWhile q := by
  induction xs with
  | nil => exact ⟨rfl, rfl⟩
  | cons c rest ih =>
    by_cases hp : p c = true
    · simp [hp, h c hp, ih]
    · by_cases hq : q c = true <;> simp [hp, hq]

theorem rdropWhile_append_of_forall (h : ∀ c ∈ ys, p c = true) :
    (xs ++ ys).rdropWhile p = xs.rdropWhile p := by
  have hnil : ys.reverse.dropWhile p = [] :=
    List.dropWhile_eq_nil_iff.2 fun c hc => h c (List.mem_reverse.1 hc)
  simp [List.rdropWhile, List.dropWhile_append, hnil]

theorem rdropWhile_append_cons {c : α} (h : p c = false) :
    (xs ++ c :: ys).rdropWhile p = xs ++ c :: ys.rdropWhile p := by
  by_cases hnil : ys.reverse.dropWhile p = []
  · simp [List.rdropWhile, List.dropWhile_append, h, hnil]
  · simp [List.rdropWhile, List.dropWhile_append, hnil]

theorem exists_eq_rdropWhile_append (p : α → Bool) (xs : List α) :
    ∃ ys, xs = xs.rdropWhile p ++ ys ∧ ∀ c ∈ ys, p c = true := by
  have hsplit : xs = xs.rdropWhile p ++ (xs.reverse.takeWhile p).reverse := by
    rw [List.rdropWhile, ← List.reverse_append, List.takeWhile_append_dropWhile,
      List.reverse_reverse]
  exact ⟨_, hsplit, fun c hc => List.mem_takeWhile_imp (List.mem_reverse.1 hc)⟩

end Switchboard
