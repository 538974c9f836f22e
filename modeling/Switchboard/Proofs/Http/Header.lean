import Switchboard.Http.Header

/-!
# Switchboard.Proofs.Http.Header

What headers hold.  The names under which values stand are in order and in lower case, so
that each name has one place, however a caller spells it.

* `name?_of_name?` — a name in lower case spells itself;
* `Sound` — names in order and in lower case; every operation keeps this;
* `filter_toPairs` — all values of a name, however it is spelled;
* `given` — the values that pairs give to a name;
* `values_appendPairs?` — pairs add the values that they give.
-/

namespace Switchboard.Http

/-! ## Names -/

theorem toLower_of_isToken {c : Char} (h : isToken c = true) :
    isToken c.toLower = true ∧ c.toLower.toLower = c.toLower := by
  have hall : ∀ n < 128, isToken (Char.ofNat n) = true →
      isToken (Char.ofNat n).toLower = true ∧
        (Char.ofNat n).toLower.toLower = (Char.ofNat n).toLower := by decide +kernel
  have hlt : c.toNat < 128 := by
    rw [isToken, Bool.or_eq_true, List.contains_iff_mem] at h
    rcases h with h | h
    · change (decide ('A'.val ≤ c.val ∧ c.val ≤ 'Z'.val) ||
          (decide ('a'.val ≤ c.val) && decide (c.val ≤ 'z'.val)) ||
          (decide ('0'.val ≤ c.val) && decide (c.val ≤ '9'.val))) = true at h
      simp only [Bool.or_eq_true, Bool.and_eq_true, decide_eq_true_eq, UInt32.le_iff_toNat_le] at h
      have hc : c.toNat = c.val.toNat := rfl
      have hZ : 'Z'.val.toNat = 90 := rfl
      have hz : 'z'.val.toNat = 122 := rfl
      have h9 : '9'.val.toNat = 57 := rfl
      omega
    · have hlist : ∀ d ∈ ['!', '#', '$', '%', '&', '\'', '*', '+', '-', '.', '^', '_', '\x60',
          '|', '~'], d.toNat < 128 := by simp
      exact hlist c h
  have hc := hall c.toNat hlt
  rw [Char.ofNat_toNat] at hc
  exact hc h

/-- A name in lower case spells itself. -/
theorem name?_of_name? {s n : String} (h : name? s = some n) : name? n = some n := by
  simp only [name?] at h ⊢
  split at h
  · cases h
  · next hok =>
    cases h
    have htoken : ∀ c ∈ s.toList, isToken c = true := by
      have hall : ¬ (!s.toList.all isToken) = true := fun hno => hok (.inr (.inr hno))
      simpa using hall
    have hfixed : (s.toList.map Char.toLower).map Char.toLower = s.toList.map Char.toLower := by
      rw [List.map_map]
      exact List.map_congr_left fun c hc => (toLower_of_isToken (htoken c hc)).2
    have hall : (s.toList.map Char.toLower).all isToken = true := by
      simpa using fun c hc => (toLower_of_isToken (htoken c hc)).1
    rw [String.toList_ofList, hfixed, hall, List.length_map, List.isEmpty_map]
    rw [List.all_eq_true.2 htoken] at hok
    exact if_neg hok

namespace Headers

/-! ## Order -/

/-- Names are in order, and each is in lower case. -/
structure Sound (hs : Headers) : Prop where
  ordered : hs.Ordered
  named : ∀ n ∈ hs.keys, name? n = some n

theorem sound_nil : Sound [] := ⟨List.Pairwise.nil, nofun⟩

theorem Sound.set {hs : Headers} (h : hs.Sound) {n : String} (hn : name? n = some n)
    (values : List String) : Sound (Keyed.set n values hs) where
  ordered := h.ordered.set n values
  named k hk := by
    rcases Keyed.mem_keys_set.1 hk with rfl | hk
    · exact hn
    · exact h.named k hk

theorem Sound.insert {hs : Headers} (h : hs.Sound) {n : String} (hn : name? n = some n)
    (value : String) : Sound (hs.insert n value) := h.set hn _

theorem Sound.append {hs : Headers} (h : hs.Sound) {n : String} (hn : name? n = some n)
    (value : String) : Sound (hs.append n value) := h.set hn _

theorem checked?_eq_some {p q : String × String} (h : checked? p = some q) :
    name? p.1 = some q.1 ∧ q.2 = p.2 ∧ isValue p.2 = true := by
  unfold checked? at h
  split at h
  · next n hn =>
    split at h
    · next hv => cases h; exact ⟨hn, rfl, hv⟩
    · cases h
  · cases h

theorem Sound.appendPairs? {pairs : List (String × String)} {hs hs' : Headers} (h : hs.Sound)
    (ha : appendPairs? pairs hs = some hs') : hs'.Sound := by
  induction pairs generalizing hs with
  | nil => cases ha; exact h
  | cons p rest ih =>
    unfold Headers.appendPairs? at ha
    split at ha
    · next n v hc => exact ih (h.append (name?_of_name? (checked?_eq_some hc).1) v) ha
    · cases ha

theorem Sound.foldl_append {hs : Headers} (h : hs.Sound) {n : String} (hn : name? n = some n)
    (values : List String) : (values.foldl (fun hs v => Headers.append n v hs) hs).Sound := by
  induction values generalizing hs with
  | nil => exact h
  | cons v rest ih => exact ih (h.append hn v)

theorem Sound.appendAll {hs more : Headers} (h : hs.Sound) (hm : more.Sound) :
    (hs.appendAll more).Sound := by
  obtain ⟨-, hnamed⟩ := hm
  unfold Headers.appendAll
  induction more generalizing hs with
  | nil => exact h
  | cons p rest ih =>
    have hn : name? p.1 = some p.1 := hnamed p.1 List.mem_cons_self
    exact ih (h.foldl_append hn p.2) fun k hk => hnamed k (List.mem_cons_of_mem p.1 hk)

/-! ## Values -/

/-- All values of a name, with the name. -/
theorem filter_toPairs {hs : Headers} (h : hs.Ordered) (name : String) :
    hs.toPairs.filter (fun p => p.1 = name) = (hs.values name).map fun v => (name, v) := by
  have hsplit : hs.toPairs.filter (fun p => p.1 = name) =
      (hs.filter fun p => p.1 = name).flatMap fun p => p.2.map fun v => (p.1, v) := by
    unfold toPairs
    clear h
    induction hs with
    | nil => rfl
    | cons p rest ih =>
      have hfirst : (p.2.map fun v => (p.1, v)).filter (fun q => q.1 = name) =
          if p.1 = name then p.2.map fun v => (p.1, v) else [] := by
        split
        · next hname => exact List.filter_eq_self.2 (by simpa using fun _ _ => hname)
        · next hname => exact List.filter_eq_nil_iff.2 (by simpa using fun _ _ => hname)
      rw [List.flatMap_cons, List.filter_append, ih, hfirst, List.filter_cons]
      by_cases hname : p.1 = name <;> simp [hname]
  rw [hsplit, h.filter_eq, values]
  cases Keyed.get? name hs <;> simp

theorem mem_toPairs {hs : Headers} (h : hs.Ordered) {name value : String} :
    (name, value) ∈ hs.toPairs ↔ value ∈ hs.values name := by
  have hfilter : (name, value) ∈ hs.toPairs.filter (fun p => p.1 = name) ↔
      (name, value) ∈ hs.toPairs := by simp
  rw [← hfilter, filter_toPairs h]
  simp

theorem Sound.name?_of_mem {hs : Headers} (h : hs.Sound) {p : String × String}
    (hp : p ∈ hs.toPairs) : name? p.1 = some p.1 := by
  obtain ⟨q, hq, hv⟩ := List.mem_flatMap.1 hp
  obtain ⟨v, -, rfl⟩ := List.mem_map.1 hv
  exact h.named q.1 (List.mem_map_of_mem hq)

/-- The same however the name is spelled. -/
theorem Sound.filter_toPairs {hs : Headers} (h : hs.Sound) (name : String) :
    hs.toPairs.filter (fun p => name? p.1 = some name) =
      (hs.values name).map fun v => (name, v) := by
  rw [← Headers.filter_toPairs h.ordered name]
  exact List.filter_congr fun p hp => by simp [h.name?_of_mem hp]

/-- The values that pairs give to a name. -/
def given (name : String) (pairs : List (String × String)) : List String :=
  pairs.filterMap fun p => if name? p.1 = some name then some p.2 else none

/-- Pairs add the values that they give. -/
theorem values_appendPairs? {pairs : List (String × String)} {hs hs' : Headers}
    (h : appendPairs? pairs hs = some hs') (name : String) :
    hs'.values name = hs.values name ++ given name pairs := by
  induction pairs generalizing hs with
  | nil => cases h; simp [given]
  | cons p rest ih =>
    unfold appendPairs? at h
    split at h
    · next n v hc =>
      obtain ⟨hn, rfl, -⟩ := checked?_eq_some hc
      rw [ih h]
      by_cases hname : n = name
      · subst hname
        simp [given, hn]
      · have hother : name? p.1 ≠ some name := by rw [hn]; simpa using hname
        rw [values_append_of_ne (Ne.symm hname)]
        simp [given, hother]
    · cases h

end Headers
end Switchboard.Http
