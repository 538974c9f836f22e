import Switchboard.Toml.Parser

/-!
# Switchboard.Proofs.Toml.Table

How many times a document gives a name at its top, and what stands under it then.

* `timesGiven` — by keys, by dotted keys, which all fill one table, and by headers;
* `Entered` — what a path does to the node that it starts from;
* `Left.fill`, `times_addTo` — what entries and sections do to a name;
* `times_of_assemble` — what stands under a name was given as many times as the name was;
* `kept_of_ofText?` — so of a text each name is kept, and one that is given twice is kept as
  an array of objects, unless the whole text amounts to a moment.
-/

namespace Switchboard.Toml

variable {name key k : String} {path : List String} {v : Value} {t t' : Entries}
  {entries : List Entry} {sections : List Section}

/-! ## Names -/

/-- An entry puts a value under a name. -/
def Entry.sets (name : String) (e : Entry) : Bool := e.path = [] ∧ e.key = name

/-- An entry has a dotted key that starts from a name. -/
def Entry.fills (name : String) (e : Entry) : Bool := e.path.head? = some name

/-- A header gives a name on its own. -/
def Section.opens (name : String) (s : Section) : Bool := s.header.path = [] ∧ s.header.key = name

/-- How many times a document gives a name at its top.  Dotted keys that start from it fill
one table; a longer header only implies the table that its path starts from. -/
def timesGiven (name : String) (entries : List Entry) (sections : List Section) : Nat :=
  entries.countP (·.sets name) + (if entries.any (·.fills name) then 1 else 0) +
    sections.countP (·.opens name)

/-- How many times the name of a node was given. -/
def Node.times : Node → Nat
  | .value _ => 1
  | .table .implied _ => 0
  | .table _ _ => 1
  | .tables _ earlier => earlier.length + 1

/-- How many times a name was given in a table. -/
def times (name : String) (t : Entries) : Nat := ((Keyed.get? name t).map Node.times).getD 0

theorem times_of_get? {n : Node} (h : Keyed.get? key t = some n) : times key t = n.times := by
  rw [times, h]
  rfl

theorem times_of_get?_eq_none (h : Keyed.get? key t = none) : times key t = 0 := by
  rw [times, h]
  rfl

@[simp] theorem times_set_self (name : String) (n : Node) (t : Entries) :
    times name (Keyed.set name n t) = n.times :=
  times_of_get? (Keyed.get?_set_self name n t)

theorem times_set_of_ne (h : name ≠ key) (n : Node) (t : Entries) :
    times name (Keyed.set key n t) = times name t := by
  rw [times, Keyed.get?_set_of_ne h, times]

/-! ## Paths -/

/-- What a path makes of the node that it starts from: it has another content, or is a new
table. -/
inductive Entered (new : Origin) : Option Node → Node → Prop where
  | new (inner : Entries) : Entered new none (.table new inner)
  | table (origin : Origin) (inner inner' : Entries) :
      Entered new (some (.table origin inner)) (.table origin inner')
  | row (last last' : Entries) (earlier : List Entries) :
      Entered new (some (.tables last earlier)) (.tables last' earlier)

theorem entered_of_assign (h : assign key v (k :: path) t = some t') :
    ∃ n, Entered .dotted (Keyed.get? k t) n ∧ t' = Keyed.set k n t := by
  rw [assign] at h
  split at h
  · next hget =>
    obtain ⟨inner, -, heq⟩ := Option.bind_eq_some_iff.1 h
    exact ⟨_, hget ▸ .new inner, (Option.some.inj heq).symm⟩
  · next origin inner hget =>
    split at h
    · cases h
    · obtain ⟨inner', -, heq⟩ := Option.bind_eq_some_iff.1 h
      exact ⟨_, hget ▸ .table origin inner inner', (Option.some.inj heq).symm⟩
  · next last earlier hget =>
    split at h
    · cases h
    · obtain ⟨last', -, heq⟩ := Option.bind_eq_some_iff.1 h
      exact ⟨_, hget ▸ .row last last' earlier, (Option.some.inj heq).symm⟩
  · cases h

theorem entered_of_atPath {change : Entries → Option Entries}
    (h : atPath change (k :: path) t = some t') :
    ∃ n, Entered .implied (Keyed.get? k t) n ∧ t' = Keyed.set k n t := by
  rw [atPath] at h
  split at h
  · next hget =>
    obtain ⟨inner, -, heq⟩ := Option.bind_eq_some_iff.1 h
    exact ⟨_, hget ▸ .new inner, (Option.some.inj heq).symm⟩
  · next origin inner hget =>
    obtain ⟨inner', -, heq⟩ := Option.bind_eq_some_iff.1 h
    exact ⟨_, hget ▸ .table origin inner inner', (Option.some.inj heq).symm⟩
  · next last earlier hget =>
    obtain ⟨last', -, heq⟩ := Option.bind_eq_some_iff.1 h
    exact ⟨_, hget ▸ .row last last' earlier, (Option.some.inj heq).symm⟩
  · cases h

/-- A path of a header gives no name. -/
theorem Entered.times_eq {n : Node} (h : Entered .implied (Keyed.get? k t) n) :
    n.times = times k t := by
  unfold times
  generalize Keyed.get? k t = before at h
  cases h with
  | new inner => rfl
  | table origin inner inner' => cases origin <;> rfl
  | row last last' earlier => rfl

/-! ## Entries -/

/-- What entries leave under a name of an empty table, by how many of them set it and by
whether dotted keys fill it. -/
inductive Left : Nat → Bool → Option Node → Prop where
  | nothing : Left 0 false none
  | value (v : Value) : Left 1 false (some (.value v))
  | table (inner : Entries) : Left 0 true (some (.table .dotted inner))

variable {count : Nat} {filled : Bool}

theorem Left.times_eq (h : Left count filled (Keyed.get? name t)) :
    times name t = count + if filled then 1 else 0 := by
  unfold times
  generalize Keyed.get? name t = n at h
  cases h <;> rfl

/-- One more entry. -/
theorem Left.assign {e : Entry} (h : Left count filled (Keyed.get? name t))
    (ha : assign e.key e.value e.path t = some t') :
    Left (count + if e.sets name then 1 else 0) (filled || e.fills name)
      (Keyed.get? name t') := by
  obtain ⟨path, key, v⟩ := e
  cases path with
  | nil =>
      rw [Toml.assign] at ha
      split at ha
      · cases ha
      · next hfree =>
        cases ha
        by_cases hkey : name = key
        · subst hkey
          have hnone : Keyed.get? name t = none := by simpa [Keyed.has] using hfree
          rw [hnone] at h
          cases h
          simpa [Entry.sets, Entry.fills] using Left.value v
        · rw [Keyed.get?_set_of_ne hkey]
          simpa [Entry.sets, Entry.fills, Ne.symm hkey] using h
  | cons k path =>
      obtain ⟨n, hentered, rfl⟩ := entered_of_assign ha
      by_cases hk : name = k
      · subst hk
        rw [Keyed.get?_set_self]
        generalize Keyed.get? name t = before at h hentered
        cases h with
        | nothing =>
            cases hentered with
            | new inner => simpa [Entry.sets, Entry.fills] using Left.table inner
        -- A dotted key cannot go through a value,
        | value v => cases hentered
        -- and goes on with a table that others have made.
        | table inner =>
            cases hentered with
            | table origin inner inner' => simpa [Entry.sets, Entry.fills] using Left.table inner'
      · rw [Keyed.get?_set_of_ne hk]
        simpa [Entry.sets, Entry.fills, Ne.symm hk] using h

theorem Left.fill (h : Left count filled (Keyed.get? name t)) (hf : fill entries t = some t') :
    Left (count + entries.countP (·.sets name)) (filled || entries.any (·.fills name))
      (Keyed.get? name t') := by
  induction entries generalizing t count filled with
  | nil =>
      cases hf
      simpa using h
  | cons e rest ih =>
      obtain ⟨next, ha, hrest⟩ := Option.bind_eq_some_iff.1 hf
      have hleft := ih (h.assign ha) hrest
      rwa [Nat.add_right_comm, Bool.or_assoc, Nat.add_assoc, ← List.countP_cons,
        ← List.any_cons] at hleft

/-! ## Sections -/

theorem exists_of_declare (h : declare key entries t = some t') :
    ∃ n, n.times = times key t + 1 ∧ t' = Keyed.set key n t := by
  rw [declare] at h
  split at h
  · next hget =>
    obtain ⟨body, -, heq⟩ := Option.bind_eq_some_iff.1 h
    exact ⟨_, by rw [times_of_get?_eq_none hget]; rfl, (Option.some.inj heq).symm⟩
  · next inner hget =>
    obtain ⟨body, -, heq⟩ := Option.bind_eq_some_iff.1 h
    exact ⟨_, by rw [times_of_get? hget]; rfl, (Option.some.inj heq).symm⟩
  · cases h

theorem exists_of_append (h : append key entries t = some t') :
    ∃ n, n.times = times key t + 1 ∧ t' = Keyed.set key n t := by
  rw [append] at h
  split at h
  · next hget =>
    obtain ⟨body, -, heq⟩ := Option.bind_eq_some_iff.1 h
    exact ⟨_, by rw [times_of_get?_eq_none hget]; rfl, (Option.some.inj heq).symm⟩
  · next last earlier hget =>
    obtain ⟨body, -, heq⟩ := Option.bind_eq_some_iff.1 h
    exact ⟨_, by rw [times_of_get? hget]; rfl, (Option.some.inj heq).symm⟩
  · cases h

/-- A section gives the name of its header once more, and no other. -/
theorem times_addTo {s : Section} (h : s.addTo t = some t') (name : String) :
    times name t' = times name t + if s.opens name then 1 else 0 := by
  obtain ⟨⟨path, key, repeated⟩, body⟩ := s
  cases path with
  | nil =>
      have hchange : ∃ n, n.times = times key t + 1 ∧ t' = Keyed.set key n t := by
        cases repeated with
        | false => exact exists_of_declare h
        | true => exact exists_of_append h
      obtain ⟨n, hn, rfl⟩ := hchange
      by_cases hkey : name = key
      · subst hkey
        simpa [Section.opens] using hn
      · simpa [Section.opens, Ne.symm hkey] using times_set_of_ne hkey n t
  | cons k path =>
      obtain ⟨n, hentered, rfl⟩ := entered_of_atPath h
      by_cases hk : name = k
      · subst hk
        simpa [Section.opens] using hentered.times_eq
      · simpa [Section.opens] using times_set_of_ne hk n t

theorem times_sections (h : sections.foldlM (fun t s => s.addTo t) t = some t') (name : String) :
    times name t' = times name t + sections.countP (·.opens name) := by
  induction sections generalizing t with
  | nil =>
      cases h
      rfl
  | cons s rest ih =>
      rw [List.foldlM_cons] at h
      obtain ⟨next, hs, hrest⟩ := Option.bind_eq_some_iff.1 h
      rw [ih hrest, times_addTo hs, List.countP_cons, Nat.add_assoc,
        Nat.add_comm (List.countP _ _)]

/-- What stands under a name was given as many times as the name was. -/
theorem times_of_assemble (h : assemble entries sections = some v) :
    ∃ t, v = .table (entriesToValues t) ∧
      ∀ name, times name t = timesGiven name entries sections := by
  obtain ⟨first, hfill, h⟩ := Option.bind_eq_some_iff.1 h
  obtain ⟨t, hsections, h⟩ := Option.bind_eq_some_iff.1 h
  refine ⟨t, (Option.some.inj h).symm, fun name => ?_⟩
  -- Entries come first, when nothing is implied yet: headers follow.
  have hleft : Left 0 false (Keyed.get? name []) := .nothing
  rw [times_sections hsections, (hleft.fill hfill).times_eq, timesGiven, Nat.zero_add,
    Bool.false_or]

/-! ## What is kept -/

theorem exists_of_times_pos (h : 0 < times name t) : ∃ n, (name, n) ∈ t := by
  cases hget : Keyed.get? name t with
  | none =>
      rw [times_of_get?_eq_none hget] at h
      omega
  | some n => exact ⟨n, Keyed.mem_of_get? hget⟩

/-- Only tables in a row have a name that was given twice. -/
theorem exists_of_two_le_times (h : 2 ≤ times name t) :
    ∃ last earlier, (name, .tables last earlier) ∈ t := by
  cases hget : Keyed.get? name t with
  | none =>
      rw [times_of_get?_eq_none hget] at h
      omega
  | some n =>
      rw [times_of_get? hget] at h
      cases n with
      | value v => simp [Node.times] at h
      | table origin inner => cases origin <;> simp [Node.times] at h
      | tables last earlier => exact ⟨last, earlier, Keyed.mem_of_get? hget⟩

theorem mem_entriesToValues {n : Node} (h : (key, n) ∈ t) :
    (key, n.toValue) ∈ entriesToValues t := by
  induction t with
  | nil => cases h
  | cons p rest ih =>
      rw [entriesToValues]
      rcases List.mem_cons.1 h with rfl | h
      · exact List.mem_cons_self
      · exact List.mem_cons_of_mem _ (ih h)

theorem exists_rowToValues (earlier : List Entries) (fields : List (String × Value))
    (acc : List Value) :
    ∃ first rest, rowToValues earlier (.table fields :: acc) = .table first :: rest := by
  induction earlier generalizing fields acc with
  | nil => exact ⟨fields, acc, by rw [rowToValues]⟩
  | cons t rest ih =>
      rw [rowToValues]
      exact ih _ _

namespace Value

theorem exists_of_entriesToJson? {fields : List (String × Value)} {kept : List (String × Json)}
    (h : entriesToJson? fields = some kept) {p : String × Value} (hp : p ∈ fields) :
    ∃ j, p.2.toJson? = some j ∧ (p.1, j) ∈ kept := by
  induction fields generalizing kept with
  | nil => cases hp
  | cons q rest ih =>
      rw [entriesToJson?] at h
      obtain ⟨j, hj, h⟩ := Option.bind_eq_some_iff.1 h
      obtain ⟨more, hmore, h⟩ := Option.bind_eq_some_iff.1 h
      cases h
      rcases List.mem_cons.1 hp with rfl | hp
      · exact ⟨j, hj, List.mem_cons_self⟩
      · obtain ⟨i, hi, hmem⟩ := ih hmore hp
        exact ⟨i, hi, List.mem_cons_of_mem _ hmem⟩

/-- A table is kept as an object of what is kept of its entries, unless it is a moment. -/
theorem toJson?_table {fields : List (String × Value)} {j : Json}
    (h : (table fields).toJson? = some j) :
    (∃ m : Moment, j = m.toJson) ∨ ∃ kept, j = .obj kept ∧ entriesToJson? fields = some kept := by
  cases fields with
  | nil =>
      rw [toJson?] at h
      cases h
      exact .inr ⟨[], rfl, by rw [entriesToJson?]⟩
  | cons p rest =>
      rw [toJson?] at h
      split at h
      · obtain ⟨m, -, rfl⟩ := Option.map_eq_some_iff.1 h
        exact .inl ⟨m, rfl⟩
      · obtain ⟨i, hi, h⟩ := Option.bind_eq_some_iff.1 h
        obtain ⟨more, hmore, h⟩ := Option.bind_eq_some_iff.1 h
        cases h
        refine .inr ⟨_, rfl, ?_⟩
        rw [entriesToJson?, hi, hmore]
        rfl

/-- An array that starts with a table is kept as one that starts with an object. -/
theorem exists_of_toJson?_array {fields : List (String × Value)} {rest : List Value} {j : Json}
    (h : (array (.table fields :: rest)).toJson? = some j) :
    ∃ kept items, j = .arr (.obj kept :: items) := by
  rw [toJson?, itemsToJson?] at h
  obtain ⟨items, hitems, rfl⟩ := Option.map_eq_some_iff.1 h
  obtain ⟨i, hi, hitems⟩ := Option.bind_eq_some_iff.1 hitems
  obtain ⟨more, -, hitems⟩ := Option.bind_eq_some_iff.1 hitems
  cases hitems
  rcases toJson?_table hi with ⟨m, rfl⟩ | ⟨kept, rfl, -⟩
  · exact ⟨_, more, rfl⟩
  · exact ⟨kept, more, rfl⟩

end Value

/-- Of a document what stands under each name is kept, unless nothing but a moment is. -/
theorem kept_of_assemble {j : Json} (h : assemble entries sections = some v)
    (hj : v.toJson? = some j) :
    (∃ m : Moment, j = m.toJson) ∨
      ∃ t kept, j = .obj kept ∧ (∀ name, times name t = timesGiven name entries sections) ∧
        ∀ name n, (name, n) ∈ t → ∃ i, n.toValue.toJson? = some i ∧ (name, i) ∈ kept := by
  obtain ⟨t, rfl, htimes⟩ := times_of_assemble h
  refine (Value.toJson?_table hj).imp_right fun ⟨kept, hobj, hkept⟩ =>
    ⟨t, kept, hobj, htimes, fun name n hmem => ?_⟩
  exact Value.exists_of_entriesToJson? hkept (mem_entriesToValues hmem)

/-- Tables in a row are kept as an array of objects. -/
theorem exists_of_toJson?_tables {last : Entries} {earlier : List Entries} {j : Json}
    (h : (Node.tables last earlier).toValue.toJson? = some j) :
    ∃ first items, j = .arr (.obj first :: items) := by
  obtain ⟨row, rest, hrow⟩ := exists_rowToValues earlier (entriesToValues last) []
  rw [Node.toValue, hrow] at h
  exact Value.exists_of_toJson?_array h

/-! ## Texts -/

/-- The lines of a text. -/
def linesOf? (s : String) : Option (List Statement) :=
  statements? ((dropMark s.toList).length + 1) (dropMark s.toList)

/-- How many times lines give a name at the top of their document. -/
def timesIn (name : String) (lines : List Statement) : Nat :=
  timesGiven name (Toml.sections lines).1 (Toml.sections lines).2

theorem ofText?_eq_some {s : String} {j : Json} :
    ofText? s = some j ↔ ∃ lines, linesOf? s = some lines ∧ ∃ v,
      assemble (Toml.sections lines).1 (Toml.sections lines).2 = some v ∧ v.toJson? = some j := by
  show ((linesOf? s).bind fun lines =>
    (assemble (Toml.sections lines).1 (Toml.sections lines).2).bind Value.toJson?) = some j ↔ _
  simp only [Option.bind_eq_some_iff]

/-- What a text gives at its top is kept: as an array of objects where it is given twice.  Of
a text that amounts to a moment nothing else is kept. -/
theorem kept_of_ofText? {s : String} {j : Json} {lines : List Statement} (h : ofText? s = some j)
    (hlines : linesOf? s = some lines) :
    (∃ m : Moment, j = m.toJson) ∨ ∃ kept, j = .obj kept ∧ ∀ name,
      (0 < timesIn name lines → ∃ i, (name, i) ∈ kept) ∧
      (2 ≤ timesIn name lines → ∃ first items, (name, .arr (.obj first :: items)) ∈ kept) := by
  obtain ⟨lines', hlines', v, hassemble, hj⟩ := ofText?_eq_some.1 h
  cases hlines.symm.trans hlines'
  refine (kept_of_assemble hassemble hj).imp_right fun ⟨t, kept, hobj, htimes, hkept⟩ =>
    ⟨kept, hobj, fun name => ⟨fun hpos => ?_, fun htwice => ?_⟩⟩
  · obtain ⟨n, hmem⟩ := exists_of_times_pos (Nat.lt_of_lt_of_eq hpos (htimes name).symm)
    obtain ⟨i, -, hi⟩ := hkept name n hmem
    exact ⟨i, hi⟩
  · obtain ⟨last, earlier, hmem⟩ := exists_of_two_le_times
      (Nat.le_trans htwice (Nat.le_of_eq (htimes name).symm))
    obtain ⟨i, hi, hi'⟩ := hkept name _ hmem
    obtain ⟨first, items, rfl⟩ := exists_of_toJson?_tables hi
    exact ⟨first, items, hi'⟩

end Switchboard.Toml
