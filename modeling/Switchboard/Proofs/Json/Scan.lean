import Switchboard.Proofs.Json.Token

/-!
# Switchboard.Proofs.Json.Scan

The machine that reads the words of a value.

* `Ready`, `settled` — where a value may come next, and what is read once it is whole;
* `scanFrom_items`, `scanFrom_fields` — items and fields are read up to the end of what is
  around them;
* `settles` — the words of a value are read as that value, wherever one may come;
* `scan_render` — so a value is read back from its text.
-/

namespace Switchboard.Json

variable {stack outer : List Frame} {e e' : Expect} {t : Token} {j : Json} {rest : List Token}

/-! ## One word -/

/-- A value may come next. -/
inductive Ready : List Frame → Prop where
  | empty : Ready []
  | item {items : List Json} {stack : List Frame} : Ready (.array items :: stack)
  | field {fields : List (String × Json)} {key : String} {stack : List Frame} :
      Ready (.object fields (some key) :: stack)

/-- What is read once a value is whole. -/
def settled (j : Json) (stack : List Frame) (rest : List Token) : Scan :=
  match settle j stack with
  | .go e s => scanFrom e s rest
  | .done j => .whole j rest
  | .fault => breakOff stack

theorem scanFrom_settle (h : step stack e t = settle j outer) (hr : Ready outer)
    (hs : outer.length ≤ maxDepth) : scanFrom e stack (t :: rest) = settled j outer rest := by
  simp only [scanFrom, h, settled]
  cases hr with
  | empty => rfl
  | item => exact if_pos hs
  | field => exact if_pos hs

theorem scanFrom_go {s : List Frame} (h : step stack e t = .go e' s) (hs : s.length ≤ maxDepth) :
    scanFrom e stack (t :: rest) = scanFrom e' s rest := by
  simp only [scanFrom, h, if_pos hs]

/-! ## Whole values -/

/-- The words of a value are read as that value, where `n` more frames may be opened. -/
def Settles (n : Nat) (j : Json) : Prop :=
  ∀ {stack : List Frame}, Ready stack → stack.length + n ≤ maxDepth → ∀ rest,
    scanFrom .value stack (words j ++ rest) = settled j stack rest

variable {n : Nat}

/-- A first item is read like any other value. -/
theorem scanFrom_item (he : e = .item ∨ e = .value) (stack : List Frame) (j : Json)
    (rest : List Token) :
    scanFrom e stack (words j ++ rest) = scanFrom .value stack (words j ++ rest) := by
  rcases he with rfl | rfl
  · cases j <;> rfl
  · rfl

/-- Items go to the array around them, one after another, up to its end. -/
theorem scanFrom_items (he : e = .item ∨ e = .value) {x : Json} {xs : List Json}
    (h : ∀ j ∈ x :: xs, Settles n j) (acc : List Json) (hr : Ready outer)
    (hs : outer.length + (n + 1) ≤ maxDepth) :
    scanFrom e (.array acc :: outer)
        ([.comma].intercalate ((x :: xs).map words) ++ .closeArray :: rest) =
      settled (.arr (acc.reverse ++ x :: xs)) outer rest := by
  have hlen : (Frame.array acc :: outer).length + n ≤ maxDepth := by
    rw [List.length_cons]; omega
  induction xs generalizing e x acc with
  | nil =>
      simp only [List.map_cons, List.map_nil, List.intercalate_singleton]
      rw [scanFrom_item he, h x List.mem_cons_self .item hlen]
      have hclose : scanFrom .next (.array (x :: acc) :: outer) (.closeArray :: rest) =
          settled (.arr (x :: acc).reverse) outer rest := scanFrom_settle rfl hr (by omega)
      rwa [List.reverse_cons] at hclose
  | cons y ys ih =>
      simp only [List.map_cons, List.intercalate_cons_cons, List.append_assoc]
      rw [scanFrom_item he, h x List.mem_cons_self .item hlen]
      have hcomma : scanFrom .next (.array (x :: acc) :: outer) (.comma ::
          ([.comma].intercalate ((y :: ys).map words) ++ .closeArray :: rest)) = _ :=
        scanFrom_go rfl (by rw [List.length_cons]; omega)
      have hrest := ih (.inr rfl) (fun j hj => h j (List.mem_cons_of_mem x hj)) (x :: acc) hlen
      rw [List.reverse_cons, List.append_assoc] at hrest
      exact hcomma.trans hrest

/-- A key is read together with the colon behind it. -/
theorem scanFrom_key (he : e = .field ∨ e = .key) {fields : List (String × Json)} {key : String}
    (hs : (Frame.object fields (some key) :: outer).length ≤ maxDepth) :
    scanFrom e (.object fields none :: outer) (.text key :: .colon :: rest) =
      scanFrom .value (.object fields (some key) :: outer) rest := by
  have hkey : scanFrom e (.object fields none :: outer) (.text key :: .colon :: rest) =
      scanFrom .colon (.object fields (some key) :: outer) (.colon :: rest) := by
    rcases he with rfl | rfl <;> exact scanFrom_go rfl hs
  exact hkey.trans (scanFrom_go rfl hs)

/-- Fields go to the object around them, one after another, up to its end. -/
theorem scanFrom_fields (he : e = .field ∨ e = .key) {p : String × Json} {ps : List (String × Json)}
    (h : ∀ q ∈ p :: ps, Settles n q.2) (acc : List (String × Json)) (hr : Ready outer)
    (hs : outer.length + (n + 1) ≤ maxDepth) :
    scanFrom e (.object acc none :: outer)
        ([.comma].intercalate ((p :: ps).map fun q => .text q.1 :: .colon :: words q.2) ++
          .closeObject :: rest) =
      settled (.obj (acc.reverse ++ p :: ps)) outer rest := by
  have hlen : (Frame.object acc (some p.1) :: outer).length + n ≤ maxDepth := by
    rw [List.length_cons]; omega
  induction ps generalizing e p acc with
  | nil =>
      simp only [List.map_cons, List.map_nil, List.intercalate_singleton, List.cons_append]
      rw [scanFrom_key he (by omega), h p List.mem_cons_self .field hlen]
      have hclose : scanFrom .next (.object (p :: acc) none :: outer) (.closeObject :: rest) =
          settled (.obj (p :: acc).reverse) outer rest := scanFrom_settle rfl hr (by omega)
      rwa [List.reverse_cons] at hclose
  | cons q qs ih =>
      simp only [List.map_cons, List.intercalate_cons_cons, List.append_assoc, List.cons_append]
      rw [scanFrom_key he (by omega), h p List.mem_cons_self .field hlen]
      have hcomma : scanFrom .next (.object (p :: acc) none :: outer) (.comma ::
          ([.comma].intercalate ((q :: qs).map fun q => .text q.1 :: .colon :: words q.2) ++
            .closeObject :: rest)) = _ :=
        scanFrom_go rfl (by rw [List.length_cons]; omega)
      have hrest := ih (.inr rfl) (fun j hj => h j (List.mem_cons_of_mem p hj)) (p :: acc) hlen
      rw [List.reverse_cons, List.append_assoc] at hrest
      exact hcomma.trans hrest

/-- The words of a value are read as that value. -/
theorem settles {whole : Int → Prop} {float : Double → Prop} (h : Within whole float n j) :
    Settles n j := by
  induction h with
  | @arr n items each ih =>
      intro stack hr hs rest
      have hopen : ∀ ts, scanFrom .value stack (.openArray :: ts) =
          scanFrom .item (.array [] :: stack) ts :=
        fun ts => scanFrom_go rfl (by rw [List.length_cons]; omega)
      simp only [words, wordsOfItems_eq, List.cons_append, List.append_assoc, List.nil_append]
      rw [hopen]
      cases items with
      | nil => exact scanFrom_settle rfl hr (by omega)
      | cons x xs => exact scanFrom_items (.inl rfl) ih [] hr hs
  | @obj n fields each ih =>
      intro stack hr hs rest
      have hopen : ∀ ts, scanFrom .value stack (.openObject :: ts) =
          scanFrom .field (.object [] none :: stack) ts :=
        fun ts => scanFrom_go rfl (by rw [List.length_cons]; omega)
      simp only [words, wordsOfFields_eq, List.cons_append, List.append_assoc, List.nil_append]
      rw [hopen]
      cases fields with
      | nil => exact scanFrom_settle rfl hr (by omega)
      | cons p ps => exact scanFrom_fields (.inl rfl) ih [] hr hs
  | _ => exact fun hr hs rest => scanFrom_settle rfl hr (by omega)

/-- A value is read back from its text. -/
theorem scan_render (h : Within Fits64 Exact maxDepth j) : scan j.render = .whole j [] := by
  have hsettled := settles h .empty (by simp) []
  rw [List.append_nil] at hsettled
  rw [scan, tokens_render h, hsettled]
  rfl

end Switchboard.Json
