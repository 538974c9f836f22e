/-!
# Switchboard.Keyed

Values under distinct keys, kept in the order of the keys.  Keys are ordered by
code point, which is the order of their UTF-8 bytes.

* `set` — puts a value under a key, in place of one that is there;
* `erase` — removes a key with its value;
* `ofList` — sorts pairs; of two with one key the later one stays;
* `Ordered` — the keys of a list are distinct and in order.

Each operation has its laws: what it does to `get?` and to the entries, and that it keeps
the order.
-/

namespace Switchboard

/-- Values under keys.  Everything here keeps them `Ordered`. -/
abbrev Keyed (α : Type u) := List (String × α)

namespace Keyed

/-- Puts a value under a key, in place of one that is there. -/
def set (key : String) (value : α) : Keyed α → Keyed α
  | [] => [(key, value)]
  | (k, v) :: rest =>
    if key < k then (key, value) :: (k, v) :: rest
    else if key = k then (key, value) :: rest
    else (k, v) :: set key value rest

/-- Sorts pairs by key; of two with one key the later one stays. -/
def ofList (pairs : List (String × α)) : Keyed α :=
  pairs.foldl (fun acc p => set p.1 p.2 acc) []

/-- The value under a key. -/
def get? (key : String) (xs : Keyed α) : Option α := xs.lookup key

/-- Whether there is a value under a key. -/
def has (key : String) (xs : Keyed α) : Bool := (get? key xs).isSome

/-- Removes a key with its value. -/
def erase (key : String) (xs : Keyed α) : Keyed α := xs.filter fun p => p.1 ≠ key

/-- The keys, in order. -/
def keys (xs : Keyed α) : List String := xs.map (·.1)

/-- The keys are distinct and in order. -/
def Ordered (xs : Keyed α) : Prop := xs.keys.Pairwise (· < ·)

/-! ## Look-up -/

@[simp] theorem get?_set_self (key : String) (value : α) (xs : Keyed α) :
    get? key (set key value xs) = some value := by
  unfold get?
  induction xs with
  | nil => simp [set]
  | cons f rest ih =>
    obtain ⟨k, v⟩ := f
    unfold set
    split
    · simp
    · split
      · simp
      · next hne =>
        have : (key == k) = false := by simpa using hne
        simp [List.lookup_cons, this, ih]

theorem get?_set_of_ne {key other : String} (h : other ≠ key) (value : α) (xs : Keyed α) :
    get? other (set key value xs) = get? other xs := by
  unfold get?
  have hk : (other == key) = false := by simpa using h
  induction xs with
  | nil => simp [set, List.lookup_cons, hk]
  | cons f rest ih =>
    obtain ⟨k, v⟩ := f
    unfold set
    split
    · simp [List.lookup_cons, hk]
    · split
      · next heq => subst heq; simp [List.lookup_cons, hk]
      · cases hok : other == k <;> simp [List.lookup_cons, hok, ih]

/-- What is found among values that were all changed is the changed value. -/
theorem get?_map {β : Type u} (key : String) (f : α → β) (xs : Keyed α) :
    get? key (xs.map fun p => (p.1, f p.2)) = (get? key xs).map f := by
  unfold get?
  induction xs with
  | nil => rfl
  | cons p rest ih =>
    rw [List.map_cons, List.lookup_cons, List.lookup_cons, ih]
    cases key == p.1 <;> rfl

theorem get?_erase_of_ne {key other : String} (h : other ≠ key) (xs : Keyed α) :
    get? other (erase key xs) = get? other xs := by
  unfold get? erase
  induction xs with
  | nil => rfl
  | cons f rest ih =>
    obtain ⟨k, v⟩ := f
    by_cases hk : k = key
    · rw [List.filter_cons_of_neg (by simp [hk]), ih, List.lookup_cons,
        beq_false_of_ne (hk ▸ h)]
    · rw [List.filter_cons_of_pos (by simp [hk]), List.lookup_cons, List.lookup_cons, ih]

/-! ## Entries -/

theorem get?_eq_none_iff {key : String} {xs : Keyed α} :
    get? key xs = none ↔ ∀ p ∈ xs, p.1 ≠ key := by
  unfold get?
  rw [List.lookup_eq_none_iff]
  simp only [bne_iff_ne, ne_comm]

/-- What is found under a key is its entry. -/
theorem mem_of_get? {key : String} {value : α} {xs : Keyed α} (h : get? key xs = some value) :
    (key, value) ∈ xs := by
  obtain ⟨before, after, rfl, -⟩ := List.lookup_eq_some_iff.1 h
  exact List.mem_append_right before List.mem_cons_self

/-- There is a value under each key. -/
theorem has_iff_mem_keys {key : String} {xs : Keyed α} : has key xs = true ↔ key ∈ xs.keys := by
  unfold has
  cases hg : get? key xs with
  | none =>
    have hno := get?_eq_none_iff.1 hg
    refine ⟨nofun, fun hmem => ?_⟩
    obtain ⟨p, hp, hkey⟩ := List.mem_map.1 hmem
    exact absurd hkey (hno p hp)
  | some value => exact ⟨fun _ => List.mem_map_of_mem (mem_of_get? hg), fun _ => rfl⟩

/-- Setting a key adds no other entry. -/
theorem mem_of_mem_set {p : String × α} {key : String} {value : α} {xs : Keyed α}
    (h : p ∈ set key value xs) : p = (key, value) ∨ p ∈ xs := by
  induction xs with
  | nil => exact .inl (List.mem_singleton.1 h)
  | cons f rest ih =>
    obtain ⟨k, v⟩ := f
    unfold set at h
    split at h
    · exact List.mem_cons.1 h
    · split at h
      · exact (List.mem_cons.1 h).imp_right (List.mem_cons_of_mem _)
      · rcases List.mem_cons.1 h with rfl | h
        · exact .inr List.mem_cons_self
        · exact (ih h).imp_right (List.mem_cons_of_mem _)

theorem mem_erase {p : String × α} {key : String} {xs : Keyed α} :
    p ∈ erase key xs ↔ p ∈ xs ∧ p.1 ≠ key := by
  simp [erase]

theorem mem_set_of_ne {p : String × α} {key : String} (h : p.1 ≠ key) (value : α)
    {xs : Keyed α} : p ∈ set key value xs ↔ p ∈ xs := by
  have hnew : p ≠ (key, value) := fun hp => h (congrArg Prod.fst hp)
  induction xs with
  | nil => simp [set, hnew]
  | cons f rest ih =>
    obtain ⟨k, v⟩ := f
    unfold set
    split
    · simp [hnew]
    · split
      · next heq =>
        have hold : p ≠ (k, v) := fun hp => h (by rw [hp, heq])
        simp [hnew, hold]
      · simp [ih]

/-- Keys that are in order are distinct: the entries of a key are what is found under it. -/
theorem Ordered.filter_eq {xs : Keyed α} (h : xs.Ordered) (key : String) :
    xs.filter (fun p => p.1 = key) = (get? key xs).toList.map fun value => (key, value) := by
  cases hg : get? key xs with
  | none =>
    rw [List.filter_eq_nil_iff.2]
    · rfl
    · intro p hp
      simpa using get?_eq_none_iff.1 hg p hp
  | some value =>
    obtain ⟨before, after, rfl, hbefore⟩ := List.lookup_eq_some_iff.1 hg
    have hsplit : (before.map (·.1) ++ key :: after.map (·.1)).Pairwise (· < ·) := by
      simpa [Ordered, keys] using h
    have hfirst : before.filter (fun p => p.1 = key) = [] := by
      rw [List.filter_eq_nil_iff]
      intro p hp
      have hne : p.1 ≠ key := (bne_iff_ne.1 (hbefore p hp)).symm
      simp [hne]
    have hlast : after.filter (fun p => p.1 = key) = [] := by
      rw [List.filter_eq_nil_iff]
      intro p hp
      have hlt : key < p.1 :=
        (List.pairwise_cons.1 (List.pairwise_append.1 hsplit).2.1).1 p.1 (List.mem_map_of_mem hp)
      have hne : p.1 ≠ key := fun heq => String.lt_irrefl key (heq ▸ hlt)
      simp [hne]
    simp [List.filter_append, hfirst, hlast]

/-- What is found under a key is the only entry that it has. -/
theorem Ordered.mem_iff {xs : Keyed α} (h : xs.Ordered) {key : String} {value : α} :
    (key, value) ∈ xs ↔ get? key xs = some value := by
  refine ⟨fun hp => ?_, mem_of_get?⟩
  have hfilter : (key, value) ∈ xs.filter fun p => p.1 = key := by simpa using hp
  rw [h.filter_eq] at hfilter
  simpa using hfilter

/-- Where something is found under one key alone, it is the only entry. -/
theorem Ordered.eq_singleton {xs : Keyed α} (h : xs.Ordered) {key : String} {value : α}
    (hkey : get? key xs = some value) (hothers : ∀ k, k ≠ key → get? k xs = none) :
    xs = [(key, value)] := by
  have hall : ∀ p ∈ xs, p = (key, value) := by
    intro p hp
    have hp' : get? p.1 xs = some p.2 := h.mem_iff.1 hp
    by_cases hk : p.1 = key
    · rw [hk, hkey] at hp'
      cases hp'
      exact Prod.ext hk rfl
    · rw [hothers p.1 hk] at hp'
      cases hp'
  match xs, h, hkey, hall with
  | [], _, hkey, _ => cases hkey
  | [p], _, _, hall => rw [hall p List.mem_cons_self]
  | p :: q :: rest, h, _, hall =>
    have hlt : p.1 < q.1 := (List.pairwise_cons.1 h).1 q.1 List.mem_cons_self
    rw [hall p (by simp), hall q (by simp)] at hlt
    exact absurd hlt (String.lt_irrefl key)

/-- Taking something from the entries of a key takes it from what is found under it. -/
theorem Ordered.filterMap_eq {xs : Keyed α} (h : xs.Ordered) (key : String) (f : α → β) :
    (xs.filterMap fun p => if p.1 = key then some (f p.2) else none) =
      (get? key xs).toList.map f := by
  have hfilter : (xs.filterMap fun p => if p.1 = key then some (f p.2) else none) =
      (xs.filter fun p => p.1 = key).map fun p => f p.2 := by
    clear h
    induction xs with
    | nil => rfl
    | cons p rest ih => by_cases hp : p.1 = key <;> simp [hp, ih]
  rw [hfilter, h.filter_eq, List.map_map]
  rfl

/-! ## Order -/

/-- Keys that are neither equal nor in order one way are in order the other way. -/
theorem lt_of_not_lt_of_ne {a b : String} (h : ¬ a < b) (hne : a ≠ b) : b < a := by
  apply Classical.byContradiction
  intro h'
  exact hne (String.le_antisymm (String.not_lt.1 h') (String.not_lt.1 h))

/-- Setting a key adds no other. -/
theorem mem_keys_set {k key : String} {value : α} {xs : Keyed α} :
    k ∈ (set key value xs).keys ↔ k = key ∨ k ∈ xs.keys := by
  induction xs with
  | nil => simp [set, keys]
  | cons f rest ih =>
    obtain ⟨l, v⟩ := f
    unfold set
    split
    · simp [keys]
    · split
      · next heq => subst heq; simp [keys]
      · simp only [keys, List.map_cons, List.mem_cons] at ih ⊢
        rw [ih, or_left_comm]

/-- Setting a key keeps the order. -/
theorem Ordered.set {xs : Keyed α} (h : xs.Ordered) (key : String) (value : α) :
    (Keyed.set key value xs).Ordered := by
  induction xs with
  | nil => simp [Keyed.set, Ordered, keys]
  | cons f rest ih =>
    obtain ⟨k, v⟩ := f
    obtain ⟨hk, hrest⟩ := List.pairwise_cons.1 h
    unfold Keyed.set
    split
    · next hlt =>
      refine List.pairwise_cons.2 ⟨fun l hl => ?_, h⟩
      rcases List.mem_cons.1 hl with rfl | hl
      · exact hlt
      · exact String.lt_trans hlt (hk l hl)
    · split
      · next heq => subst heq; exact h
      · next hnot hne =>
        refine List.pairwise_cons.2 ⟨fun l hl => ?_, ih hrest⟩
        rcases mem_keys_set.1 hl with rfl | hl
        · exact lt_of_not_lt_of_ne hnot hne
        · exact hk l hl

/-- Removing a key keeps the order. -/
theorem Ordered.erase {xs : Keyed α} (h : xs.Ordered) (key : String) :
    (Keyed.erase key xs).Ordered :=
  h.sublist ((List.filter_sublist).map _)

/-- Sorting makes an order. -/
theorem ordered_ofList (pairs : List (String × α)) : (ofList pairs).Ordered := by
  suffices ∀ acc : Keyed α, acc.Ordered →
      (pairs.foldl (fun acc p => Keyed.set p.1 p.2 acc) acc).Ordered from
    this [] List.Pairwise.nil
  induction pairs with
  | nil => exact fun _ h => h
  | cons p rest ih => exact fun acc h => ih _ (h.set p.1 p.2)

/-! ## Sorting -/

theorem mem_of_mem_foldl_set {p : String × α} {pairs : List (String × α)} {acc : Keyed α}
    (h : p ∈ pairs.foldl (fun acc p => set p.1 p.2 acc) acc) : p ∈ acc ∨ p ∈ pairs := by
  induction pairs generalizing acc with
  | nil => exact .inl h
  | cons q rest ih =>
    rcases ih h with h | h
    · exact (mem_of_mem_set h).elim (fun hp => .inr (hp ▸ List.mem_cons_self)) .inl
    · exact .inr (List.mem_cons_of_mem q h)

/-- Sorting makes no entry up. -/
theorem mem_of_mem_ofList {p : String × α} {pairs : List (String × α)} (h : p ∈ ofList pairs) :
    p ∈ pairs :=
  (mem_of_mem_foldl_set h).resolve_left List.not_mem_nil

/-- A key that comes after all others goes to the end. -/
theorem set_of_forall_lt {key : String} (value : α) {xs : Keyed α} (h : ∀ k ∈ xs.keys, k < key) :
    set key value xs = xs ++ [(key, value)] := by
  induction xs with
  | nil => rfl
  | cons f rest ih =>
    obtain ⟨k, v⟩ := f
    have hk : k < key := h k List.mem_cons_self
    have hrest := ih fun l hl => h l (List.mem_cons_of_mem k hl)
    simp [set, String.lt_asymm hk, (String.ne_of_lt hk).symm, hrest]

/-- What is in order already stays as it is. -/
theorem Ordered.ofList_eq {xs : Keyed α} (h : xs.Ordered) : ofList xs = xs := by
  suffices ∀ acc : Keyed α, (acc ++ xs).Ordered →
      xs.foldl (fun acc p => Keyed.set p.1 p.2 acc) acc = acc ++ xs from this [] h
  clear h
  induction xs with
  | nil => simp
  | cons p rest ih =>
    intro acc h
    have hlt : ∀ k ∈ acc.keys, k < p.1 := by
      have hsplit : (acc.keys ++ p.1 :: keys rest).Pairwise (· < ·) := by
        simpa [Ordered, keys] using h
      exact fun k hk => (List.pairwise_append.1 hsplit).2.2 k hk p.1 List.mem_cons_self
    rw [List.foldl_cons, set_of_forall_lt p.2 hlt, ih _ (by simpa using h)]
    simp

theorem lookup_eq_none_of_not_mem {key : String} {pairs : List (String × α)}
    (h : key ∉ pairs.map (·.1)) : pairs.lookup key = none := by
  rw [List.lookup_eq_none_iff]
  intro p hp
  have hne : key ≠ p.1 := fun he => h (List.mem_map.2 ⟨p, hp, he.symm⟩)
  simpa using hne

theorem erase_of_not_mem {key : String} {pairs : List (String × α)}
    (h : key ∉ pairs.map (·.1)) : erase key pairs = pairs := by
  refine List.filter_eq_self.2 fun p hp => ?_
  have hne : p.1 ≠ key := fun he => h (List.mem_map.2 ⟨p, hp, he⟩)
  simpa using hne

/-- Where no key comes twice, each entry is found under its key. -/
theorem lookup_of_mem {pairs : List (String × α)} (h : (pairs.map (·.1)).Nodup)
    {p : String × α} (hp : p ∈ pairs) : pairs.lookup p.1 = some p.2 := by
  induction pairs with
  | nil => cases hp
  | cons q rest ih =>
    obtain ⟨hq, hrest⟩ := List.nodup_cons.1 h
    rw [List.lookup_cons]
    rcases List.mem_cons.1 hp with rfl | hp
    · simp
    · have hne : p.1 ≠ q.1 := fun he => hq (List.mem_map.2 ⟨p, hp, he⟩)
      rw [beq_false_of_ne hne, ih hrest hp]

/-- Of two entries with one key the later one is found. -/
theorem get?_ofList (pairs : List (String × α)) (key : String) :
    get? key (ofList pairs) = pairs.reverse.lookup key := by
  rw [ofList, ← List.foldr_reverse]
  induction pairs.reverse with
  | nil => rfl
  | cons p rest ih =>
    rw [List.foldr_cons, List.lookup_cons]
    by_cases hkey : key = p.1
    · subst hkey
      simp
    · rw [get?_set_of_ne hkey, ih, beq_false_of_ne hkey]

/-- Where no key comes twice, sorting does not change what is found. -/
theorem get?_ofList_of_nodup {pairs : List (String × α)} (h : (pairs.map (·.1)).Nodup)
    (key : String) : get? key (ofList pairs) = pairs.lookup key := by
  rw [get?_ofList]
  by_cases hkey : key ∈ pairs.map (·.1)
  · obtain ⟨p, hp, rfl⟩ := List.mem_map.1 hkey
    have hrev : (pairs.reverse.map (·.1)).Nodup :=
      ((List.reverse_perm pairs).map (·.1)).nodup_iff.2 h
    rw [lookup_of_mem h hp, lookup_of_mem hrev (List.mem_reverse.2 hp)]
  · have hrev : key ∉ pairs.reverse.map (·.1) := by rwa [List.map_reverse, List.mem_reverse]
    rw [lookup_eq_none_of_not_mem hkey, lookup_eq_none_of_not_mem hrev]

/-- What is found is the first of the entries of a key. -/
theorem lookup_eq_head? (pairs : List (String × α)) (key : String) :
    pairs.lookup key = (pairs.filter (fun p => p.1 = key)).head?.map (·.2) := by
  induction pairs with
  | nil => rfl
  | cons p rest ih =>
    rw [List.lookup_cons, List.filter_cons]
    by_cases hkey : key = p.1
    · simp [hkey]
    · simp [beq_false_of_ne hkey, Ne.symm hkey, ih]

/-- Values may be changed before they are set or after. -/
theorem map_set {β : Type u} (f : α → β) (key : String) (value : α) (xs : Keyed α) :
    (set key value xs).map (fun p => (p.1, f p.2)) =
      set key (f value) (xs.map fun p => (p.1, f p.2)) := by
  induction xs with
  | nil => rfl
  | cons q rest ih =>
    obtain ⟨k, v⟩ := q
    simp only [set, List.map_cons]
    split
    · rfl
    · split
      · rfl
      · rw [List.map_cons, ih]

/-! ## Places -/

/-- A key has one place in the order, whether something stands there or not. -/
theorem Ordered.exists_place {xs : Keyed α} (h : xs.Ordered) (key : String) :
    ∃ before after, Keyed.erase key xs = before ++ after ∧
      ∀ value, Keyed.set key value xs = before ++ (key, value) :: after := by
  induction xs with
  | nil => exact ⟨[], [], rfl, fun _ => rfl⟩
  | cons f rest ih =>
    obtain ⟨k, v⟩ := f
    obtain ⟨hk, hrest⟩ := List.pairwise_cons.1 h
    by_cases hlt : key < k
    · have hgone : key ∉ List.map (·.1) ((k, v) :: rest) := by
        intro hmem
        rcases List.mem_cons.1 hmem with heq | hmem
        · exact String.lt_irrefl key (heq ▸ hlt)
        · exact String.lt_irrefl key (String.lt_trans hlt (hk key hmem))
      exact ⟨[], (k, v) :: rest, erase_of_not_mem hgone, fun value => by simp [Keyed.set, hlt]⟩
    · by_cases heq : key = k
      · subst heq
        have hgone : Keyed.erase key rest = rest :=
          erase_of_not_mem fun hmem => String.lt_irrefl key (hk key hmem)
        refine ⟨[], rest, ?_, fun value => (if_neg hlt).trans (if_pos rfl)⟩
        exact (List.filter_cons_of_neg (by simp)).trans hgone
      · obtain ⟨before, after, herase, hset⟩ := ih hrest
        refine ⟨(k, v) :: before, after, ?_, fun value => by simp [Keyed.set, hlt, heq, hset]⟩
        exact (List.filter_cons_of_pos (by simpa using Ne.symm heq)).trans (congrArg _ herase)

/-! ## Entries in another order -/

/-- A key that is not there yet is added to the entries. -/
theorem set_perm {key : String} (value : α) {xs : Keyed α} (h : key ∉ xs.keys) :
    (set key value xs).Perm ((key, value) :: xs) := by
  induction xs with
  | nil => exact .refl _
  | cons f rest ih =>
    obtain ⟨k, v⟩ := f
    have hne : key ≠ k := fun heq => h (heq ▸ List.mem_cons_self)
    have hrest : key ∉ keys rest := fun hmem => h (List.mem_cons_of_mem k hmem)
    unfold set
    rw [if_neg hne]
    split
    · exact .refl _
    · exact ((ih hrest).cons (k, v)).trans (.swap _ _ _)

/-- Entries that are added to others, where no key comes twice. -/
theorem foldl_set_perm {pairs : List (String × α)} {acc : Keyed α}
    (h : (pairs.map (·.1)).Nodup) (hnew : ∀ p ∈ pairs, p.1 ∉ acc.keys) :
    (pairs.foldl (fun acc p => set p.1 p.2 acc) acc).Perm (pairs ++ acc) := by
  induction pairs generalizing acc with
  | nil => exact .refl _
  | cons p rest ih =>
    obtain ⟨hp, hrest⟩ := List.nodup_cons.1 h
    have hset := set_perm p.2 (hnew p List.mem_cons_self)
    have hnew' : ∀ q ∈ rest, q.1 ∉ (set p.1 p.2 acc).keys := by
      intro q hq hmem
      rcases mem_keys_set.1 hmem with heq | hmem
      · exact hp (List.mem_map.2 ⟨q, hq, heq⟩)
      · exact hnew q (List.mem_cons_of_mem p hq) hmem
    exact (ih hrest hnew').trans ((hset.append_left rest).trans List.perm_middle)

/-- Where no key comes twice, sorting keeps every entry. -/
theorem ofList_perm {pairs : List (String × α)} (h : (pairs.map (·.1)).Nodup) :
    (ofList pairs).Perm pairs := by
  have hperm := @foldl_set_perm _ pairs [] h fun _ _ => List.not_mem_nil
  rwa [List.append_nil] at hperm

/-- Entries that are in order are known by what they are. -/
theorem Ordered.eq_of_perm {xs ys : Keyed α} (hx : xs.Ordered) (hy : ys.Ordered)
    (h : xs.Perm ys) : xs = ys := by
  have hle {p q : String × α} (hpq : p.1 < q.1) (hqp : q.1 < p.1) : p = q :=
    absurd hqp (String.lt_asymm hpq)
  exact h.eq_of_pairwise (fun _ _ _ _ => hle) (List.pairwise_map.1 hx) (List.pairwise_map.1 hy)

/-- Entries that are in order are known by what is found among them. -/
theorem Ordered.ext {xs ys : Keyed α} (hx : xs.Ordered) (hy : ys.Ordered)
    (h : ∀ key, get? key xs = get? key ys) : xs = ys := by
  have hnodup {zs : Keyed α} (hz : zs.Ordered) : zs.Nodup :=
    (List.pairwise_map.1 hz).imp fun {p q} hlt (heq : p = q) =>
      String.ne_of_lt hlt (congrArg Prod.fst heq)
  refine hx.eq_of_perm hy ((List.perm_ext_iff_of_nodup (hnodup hx) (hnodup hy)).2 fun p => ?_)
  rw [hx.mem_iff, hy.mem_iff, h]

/-- An entry does not count where a later one has its key. -/
theorem ofList_of_later {key : String} (value : α) {before after : List (String × α)}
    (h : key ∈ after.map (·.1)) :
    ofList (before ++ (key, value) :: after) = ofList (before ++ after) := by
  refine (ordered_ofList _).ext (ordered_ofList _) fun k => ?_
  rw [get?_ofList, get?_ofList, List.reverse_append, List.reverse_append, List.reverse_cons,
    List.append_assoc, List.singleton_append, List.lookup_append, List.lookup_append,
    List.lookup_cons]
  by_cases hk : k = key
  · subst hk
    cases hlater : after.reverse.lookup k with
    | none =>
        obtain ⟨p, hp, rfl⟩ := List.mem_map.1 h
        have hne := List.lookup_eq_none_iff.1 hlater p (List.mem_reverse.2 hp)
        simp at hne
    | some later => rfl
  · rw [beq_false_of_ne hk]

/-- Where no key comes twice, entries may be sorted from any order. -/
theorem ofList_congr {pairs others : List (String × α)} (h : (pairs.map (·.1)).Nodup)
    (hperm : others.Perm pairs) : ofList others = ofList pairs := by
  have hothers : (others.map (·.1)).Nodup := (hperm.map (·.1)).nodup_iff.2 h
  exact (ordered_ofList _).eq_of_perm (ordered_ofList _)
    ((ofList_perm hothers).trans (hperm.trans (ofList_perm h).symm))

end Keyed
end Switchboard
