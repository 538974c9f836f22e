import Switchboard.Proofs.Outcome
import Switchboard.Text.Utf8

/-!
# Switchboard.Proofs.Text.Utf8

The bytes of a text spell that text, and no other bytes do.

* `following_two`, `following_three`, `following_four` — what a first byte tells of those after it;
* `pieces_two`, `pieces_three`, `pieces_four` — characters of several bytes;
* `pieces_append` — the bytes of a character are read as that character, whatever follows them;
* `decodeLossy_encode` — so a text is read back from its bytes;
* `Opens`, `opens_of_pieces` — bytes that are read as a character, in the four forms they have;
* `Opens.eq_append` — these are the bytes of that character;
* `decode_eq_ok` — so bytes spell a text exactly if they are its bytes;
* `replacement_mem_decodeLossy` — and others are read with a replacement in the text.
-/

namespace Switchboard.Text

/-! ## Bytes -/

theorem toNat_ofNat {k : Nat} (h : k < 256) : (UInt8.ofNat k).toNat = k := by
  rw [UInt8.toNat_ofNat', Nat.mod_eq_of_lt h]

theorem not_lt_ofNat {n : Nat} (h : 0x80 ≤ n) (hn : n < 256) : ¬ UInt8.ofNat n < 0x80 := by
  rw [UInt8.lt_iff_toNat_lt, toNat_ofNat hn]
  exact Nat.not_lt.2 h

theorem ofNat_within {n : Nat} (k l : Nat) (hk : k ≤ n) (hn : n ≤ l) (hl : l < 256) :
    UInt8.ofNat k ≤ UInt8.ofNat n ∧ UInt8.ofNat n ≤ UInt8.ofNat l := by
  rw [UInt8.le_iff_toNat_le, UInt8.le_iff_toNat_le, toNat_ofNat (by omega), toNat_ofNat (by omega),
    toNat_ofNat hl]
  exact ⟨hk, hn⟩

theorem isTail_ofNat : ∀ k < 0xC0, 0x80 ≤ k → isTail (UInt8.ofNat k) = true := by decide +kernel

theorem following_two : ∀ k < 0xE0, 0xC2 ≤ k →
    following (UInt8.ofNat k) = some (1, 0x80, 0xBF) := by decide +kernel

theorem following_three : ∀ k < 0xF0, 0xE0 ≤ k →
    following (UInt8.ofNat k) =
      some (2, if k = 0xE0 then 0xA0 else 0x80, if k = 0xED then 0x9F else 0xBF) := by
  decide +kernel

theorem following_four : ∀ k < 0xF5, 0xF0 ≤ k →
    following (UInt8.ofNat k) =
      some (3, if k = 0xF0 then 0x90 else 0x80, if k = 0xF4 then 0x8F else 0xBF) := by
  decide +kernel

/-! ## Characters of several bytes -/

variable {v : Nat} {bs : Bytes}

theorem pieces_two (h : 0x80 ≤ v) (hv : v < 0x800) :
    pieces (UInt8.ofNat (v / 64 % 32 + 192) :: UInt8.ofNat (v % 64 + 128) :: bs) =
      .char (Char.ofNat v) :: pieces bs := by
  have hnot := not_lt_ofNat (n := v / 64 % 32 + 192) (by omega) (by omega)
  have hsecond : 0x80 ≤ UInt8.ofNat (v % 64 + 128) ∧ UInt8.ofNat (v % 64 + 128) ≤ 0xBF :=
    ofNat_within 0x80 0xBF (by omega) (by omega) (by omega)
  have hv : (UInt8.ofNat (v / 64 % 32 + 192)).toNat % 0x20 * 0x40 +
      (UInt8.ofNat (v % 64 + 128)).toNat % 0x40 = v := by
    rw [toNat_ofNat (by omega), toNat_ofNat (by omega)]
    omega
  rw [pieces, if_neg hnot, following_two _ (by omega) (by omega)]
  dsimp only
  rw [if_neg (not_not_intro hsecond), if_pos rfl]
  exact congrArg (fun n => Piece.char (Char.ofNat n) :: pieces bs) hv

/-- The second of three bytes is narrower bounded where two would do, and where the character
would fall into the gap. -/
theorem second_of_three (h : 0x800 ≤ v) (hv : v < 0x10000) (hgap : ¬ (0xD800 ≤ v ∧ v ≤ 0xDFFF)) :
    (if v / 4096 % 16 + 224 = 0xE0 then 0xA0 else 0x80) ≤ UInt8.ofNat (v / 64 % 64 + 128) ∧
      UInt8.ofNat (v / 64 % 64 + 128) ≤ if v / 4096 % 16 + 224 = 0xED then 0x9F else 0xBF := by
  split
  · rw [if_neg (by omega)]
    exact ofNat_within 0xA0 0xBF (by omega) (by omega) (by omega)
  · split
    · exact ofNat_within 0x80 0x9F (by omega) (by omega) (by omega)
    · exact ofNat_within 0x80 0xBF (by omega) (by omega) (by omega)

theorem pieces_three (h : 0x800 ≤ v) (hv : v < 0x10000) (hgap : ¬ (0xD800 ≤ v ∧ v ≤ 0xDFFF)) :
    pieces (UInt8.ofNat (v / 4096 % 16 + 224) :: UInt8.ofNat (v / 64 % 64 + 128) ::
      UInt8.ofNat (v % 64 + 128) :: bs) = .char (Char.ofNat v) :: pieces bs := by
  have hnot := not_lt_ofNat (n := v / 4096 % 16 + 224) (by omega) (by omega)
  have hsecond := second_of_three h hv hgap
  have hthird := isTail_ofNat (v % 64 + 128) (by omega) (by omega)
  have hv : ((UInt8.ofNat (v / 4096 % 16 + 224)).toNat % 0x10 * 0x40 +
      (UInt8.ofNat (v / 64 % 64 + 128)).toNat % 0x40) * 0x40 +
        (UInt8.ofNat (v % 64 + 128)).toNat % 0x40 = v := by
    rw [toNat_ofNat (by omega), toNat_ofNat (by omega), toNat_ofNat (by omega)]
    omega
  rw [pieces, if_neg hnot, following_three _ (by omega) (by omega)]
  dsimp only
  rw [if_neg (not_not_intro hsecond), if_neg (by decide), if_neg (not_not_intro hthird), if_pos rfl]
  exact congrArg (fun n => Piece.char (Char.ofNat n) :: pieces bs) hv

/-- The second of four bytes is narrower bounded where three would do, and where there are no more
characters. -/
theorem second_of_four (h : 0x10000 ≤ v) (hv : v < 0x110000) :
    (if v / 262144 % 8 + 240 = 0xF0 then 0x90 else 0x80) ≤ UInt8.ofNat (v / 4096 % 64 + 128) ∧
      UInt8.ofNat (v / 4096 % 64 + 128) ≤ if v / 262144 % 8 + 240 = 0xF4 then 0x8F else 0xBF := by
  split
  · rw [if_neg (by omega)]
    exact ofNat_within 0x90 0xBF (by omega) (by omega) (by omega)
  · split
    · exact ofNat_within 0x80 0x8F (by omega) (by omega) (by omega)
    · exact ofNat_within 0x80 0xBF (by omega) (by omega) (by omega)

theorem pieces_four (h : 0x10000 ≤ v) (hv : v < 0x110000) :
    pieces (UInt8.ofNat (v / 262144 % 8 + 240) :: UInt8.ofNat (v / 4096 % 64 + 128) ::
      UInt8.ofNat (v / 64 % 64 + 128) :: UInt8.ofNat (v % 64 + 128) :: bs) =
        .char (Char.ofNat v) :: pieces bs := by
  have hnot := not_lt_ofNat (n := v / 262144 % 8 + 240) (by omega) (by omega)
  have hsecond := second_of_four h hv
  have hthird := isTail_ofNat (v / 64 % 64 + 128) (by omega) (by omega)
  have hfourth := isTail_ofNat (v % 64 + 128) (by omega) (by omega)
  have hv : (((UInt8.ofNat (v / 262144 % 8 + 240)).toNat % 0x08 * 0x40 +
      (UInt8.ofNat (v / 4096 % 64 + 128)).toNat % 0x40) * 0x40 +
        (UInt8.ofNat (v / 64 % 64 + 128)).toNat % 0x40) * 0x40 +
          (UInt8.ofNat (v % 64 + 128)).toNat % 0x40 = v := by
    rw [toNat_ofNat (by omega), toNat_ofNat (by omega), toNat_ofNat (by omega),
      toNat_ofNat (by omega)]
    omega
  rw [pieces, if_neg hnot, following_four _ (by omega) (by omega)]
  dsimp only
  rw [if_neg (not_not_intro hsecond), if_neg (by decide), if_neg (not_not_intro hthird),
    if_neg (by decide), if_neg (not_not_intro hfourth)]
  exact congrArg (fun n => Piece.char (Char.ofNat n) :: pieces bs) hv

/-! ## Characters -/

/-- Characters are the numbers up to 0x10FFFF, with one gap. -/
theorem toNat_bounds (c : Char) :
    c.toNat < 0x110000 ∧ ¬ (0xD800 ≤ c.toNat ∧ c.toNat ≤ 0xDFFF) := by
  have hvalid := c.valid
  have hval : c.val.toNat = c.toNat := rfl
  unfold UInt32.isValidChar Nat.isValidChar at hvalid
  omega

/-- The bytes of a character are read as that character, whatever follows them. -/
theorem pieces_append (c : Char) (bs : Bytes) :
    pieces (String.utf8EncodeChar c ++ bs) = .char c :: pieces bs := by
  obtain ⟨hmax, hgap⟩ := toNat_bounds c
  have hback := Char.ofNat_toNat c
  have hval : c.val.toNat = c.toNat := rfl
  unfold String.utf8EncodeChar
  rw [hval]
  generalize c.toNat = v at *
  subst hback
  dsimp only
  split
  · next hone =>
    have hlt : UInt8.ofNat v < 0x80 := by
      rw [UInt8.lt_iff_toNat_lt, toNat_ofNat (by omega)]
      exact Nat.lt_succ_of_le hone
    rw [List.cons_append, List.nil_append, pieces, if_pos hlt, toNat_ofNat (by omega)]
  split
  · next hone htwo => exact pieces_two (by omega) (by omega)
  split
  · next hone htwo hthree => exact pieces_three (by omega) (by omega) hgap
  · next hone htwo hthree => exact pieces_four (by omega) hmax

/-! ## Texts -/

theorem pieces_encode (cs : List Char) :
    pieces (cs.flatMap String.utf8EncodeChar) = cs.map Piece.char := by
  induction cs with
  | nil => rfl
  | cons c rest ih => rw [List.flatMap_cons, pieces_append, ih, List.map_cons]

/-- A text is read back from its bytes. -/
theorem decodeLossy_encode (s : String) : decodeLossy (encode s) = s := by
  unfold decodeLossy encode
  rw [pieces_encode, List.map_map]
  exact (congrArg String.ofList (List.map_id _)).trans String.ofList_toList

/-! ## Bytes that are read as characters -/

/-- Some bytes open with those of the character of a number, and others follow. -/
inductive Opens : Bytes → Nat → Bytes → Prop where
  | one {a : UInt8} {r : Bytes} (first : a < 0x80) : Opens (a :: r) a.toNat r
  | two {a b lo hi : UInt8} {r : Bytes} (first : following a = some (1, lo, hi))
      (second : lo ≤ b ∧ b ≤ hi) :
      Opens (a :: b :: r) (a.toNat % 0x20 * 0x40 + b.toNat % 0x40) r
  | three {a b c lo hi : UInt8} {r : Bytes} (first : following a = some (2, lo, hi))
      (second : lo ≤ b ∧ b ≤ hi) (third : isTail c = true) :
      Opens (a :: b :: c :: r)
        ((a.toNat % 0x10 * 0x40 + b.toNat % 0x40) * 0x40 + c.toNat % 0x40) r
  | four {a b c d lo hi : UInt8} {n : Nat} {r : Bytes} (first : following a = some (n, lo, hi))
      (more : n ≠ 1 ∧ n ≠ 2) (second : lo ≤ b ∧ b ≤ hi) (third : isTail c = true)
      (fourth : isTail d = true) :
      Opens (a :: b :: c :: d :: r)
        (((a.toNat % 0x08 * 0x40 + b.toNat % 0x40) * 0x40 + c.toNat % 0x40) * 0x40 +
          d.toNat % 0x40) r

theorem opens_of_pieces {bs : Bytes} {c : Char} {ps : List Piece} (h : pieces bs = .char c :: ps) :
    ∃ v rest, Opens bs v rest ∧ c = Char.ofNat v ∧ pieces rest = ps := by
  revert h
  fun_cases pieces bs with
  | case2 a r ha =>
    rintro ⟨⟩
    exact ⟨_, _, .one ha, rfl, rfl⟩
  | case6 a _ lo hi b r hb hf =>
    rintro ⟨⟩
    exact ⟨_, _, .two hf (Decidable.not_not.1 hb), rfl, rfl⟩
  | case9 a _ lo hi b hb c r hc hf _ =>
    rintro ⟨⟩
    exact ⟨_, _, .three hf (Decidable.not_not.1 hb) (Decidable.not_not.1 hc), rfl, rfl⟩
  | case12 a _ n lo hi hf b hb hone c hc htwo d r hd =>
    rintro ⟨⟩
    exact ⟨_, _, .four hf ⟨hone, htwo⟩ (Decidable.not_not.1 hb) (Decidable.not_not.1 hc)
      (Decidable.not_not.1 hd), rfl, rfl⟩
  | _ => rintro ⟨⟩

theorem following_table : ∀ k < 256, ∀ f ∈ following (UInt8.ofNat k),
    (f.1 = 1 ∧ 0xC2 ≤ k ∧ k < 0xE0 ∨ f.1 = 2 ∧ 0xE0 ≤ k ∧ k < 0xF0 ∨
      f.1 = 3 ∧ 0xF0 ≤ k ∧ k < 0xF5) ∧
    0x80 ≤ f.2.1.toNat ∧ f.2.2.toNat ≤ 0xBF ∧
    (k = 0xE0 → 0xA0 ≤ f.2.1.toNat) ∧ (k = 0xED → f.2.2.toNat ≤ 0x9F) ∧
    (k = 0xF0 → 0x90 ≤ f.2.1.toNat) ∧ (k = 0xF4 → f.2.2.toNat ≤ 0x8F) := by
  decide +kernel

/-- What a first byte tells of itself and of the next one. -/
theorem bounds_of_following {a b lo hi : UInt8} {n : Nat} (h : following a = some (n, lo, hi))
    (hb : lo ≤ b ∧ b ≤ hi) :
    (n = 1 ∧ 0xC2 ≤ a.toNat ∧ a.toNat < 0xE0 ∨ n = 2 ∧ 0xE0 ≤ a.toNat ∧ a.toNat < 0xF0 ∨
      n = 3 ∧ 0xF0 ≤ a.toNat ∧ a.toNat < 0xF5) ∧
    0x80 ≤ b.toNat ∧ b.toNat ≤ 0xBF ∧
    (a.toNat = 0xE0 → 0xA0 ≤ b.toNat) ∧ (a.toNat = 0xED → b.toNat ≤ 0x9F) ∧
    (a.toNat = 0xF0 → 0x90 ≤ b.toNat) ∧ (a.toNat = 0xF4 → b.toNat ≤ 0x8F) := by
  obtain ⟨hfirst, hmin, hmax, hE0, hED, hF0, hF4⟩ := following_table a.toNat a.toNat_lt (n, lo, hi)
    (by rw [UInt8.ofNat_toNat]; exact h)
  have hlo : lo.toNat ≤ b.toNat := UInt8.le_iff_toNat_le.1 hb.1
  have hhi : b.toNat ≤ hi.toNat := UInt8.le_iff_toNat_le.1 hb.2
  exact ⟨hfirst, Nat.le_trans hmin hlo, Nat.le_trans hhi hmax,
    fun h => Nat.le_trans (hE0 h) hlo, fun h => Nat.le_trans hhi (hED h),
    fun h => Nat.le_trans (hF0 h) hlo, fun h => Nat.le_trans hhi (hF4 h)⟩

theorem bounds_of_isTail {b : UInt8} (h : isTail b = true) : 0x80 ≤ b.toNat ∧ b.toNat ≤ 0xBF := by
  simpa [isTail, UInt8.le_iff_toNat_le] using h

theorem val_ofNat {v : Nat} (h : v < 0x110000) (hgap : ¬ (0xD800 ≤ v ∧ v ≤ 0xDFFF)) :
    (Char.ofNat v).val.toNat = v := by
  have hvalid : v.isValidChar := by
    unfold Nat.isValidChar
    omega
  rw [Char.ofNat, dif_pos hvalid]
  rfl

/-- The bytes that some bytes open with are those of the character. -/
theorem Opens.eq_append {bs rest : Bytes} {v : Nat} (h : Opens bs v rest) :
    bs = String.utf8EncodeChar (Char.ofNat v) ++ rest := by
  cases h with
  | @one a _ ha =>
    have ha : a.toNat < 0x80 := UInt8.lt_iff_toNat_lt.1 ha
    have hv := val_ofNat (v := a.toNat) (by omega) (by omega)
    simp only [String.utf8EncodeChar, hv]
    rw [if_pos (by omega), UInt8.ofNat_toNat]
    rfl
  | @two a b _ _ _ hf hb =>
    have hbounds := bounds_of_following hf hb
    generalize hcode : a.toNat % 0x20 * 0x40 + b.toNat % 0x40 = v
    have h₁ : v / 64 % 32 + 192 = a.toNat := by omega
    have h₂ : v % 64 + 128 = b.toNat := by omega
    have hv := val_ofNat (v := v) (by omega) (by omega)
    simp only [String.utf8EncodeChar, hv]
    rw [if_neg (by omega), if_pos (by omega), h₁, h₂, UInt8.ofNat_toNat, UInt8.ofNat_toNat]
    rfl
  | @three a b c _ _ _ hf hb hc =>
    have hbounds := bounds_of_following hf hb
    have htail := bounds_of_isTail hc
    generalize hcode : (a.toNat % 0x10 * 0x40 + b.toNat % 0x40) * 0x40 + c.toNat % 0x40 = v
    have h₁ : v / 4096 % 16 + 224 = a.toNat := by omega
    have h₂ : v / 64 % 64 + 128 = b.toNat := by omega
    have h₃ : v % 64 + 128 = c.toNat := by omega
    have hv := val_ofNat (v := v) (by omega) (by omega)
    simp only [String.utf8EncodeChar, hv]
    rw [if_neg (by omega), if_neg (by omega), if_pos (by omega), h₁, h₂, h₃, UInt8.ofNat_toNat,
      UInt8.ofNat_toNat, UInt8.ofNat_toNat]
    rfl
  | @four a b c d _ _ n _ hf hn hb hc hd =>
    have hbounds := bounds_of_following hf hb
    have htail := bounds_of_isTail hc
    have hlast := bounds_of_isTail hd
    generalize hcode : ((a.toNat % 0x08 * 0x40 + b.toNat % 0x40) * 0x40 + c.toNat % 0x40) * 0x40 +
      d.toNat % 0x40 = v
    have h₁ : v / 262144 % 8 + 240 = a.toNat := by omega
    have h₂ : v / 4096 % 64 + 128 = b.toNat := by omega
    have h₃ : v / 64 % 64 + 128 = c.toNat := by omega
    have h₄ : v % 64 + 128 = d.toNat := by omega
    have hv := val_ofNat (v := v) (by omega) (by omega)
    simp only [String.utf8EncodeChar, hv]
    rw [if_neg (by omega), if_neg (by omega), if_neg (by omega), h₁, h₂, h₃, h₄, UInt8.ofNat_toNat,
      UInt8.ofNat_toNat, UInt8.ofNat_toNat, UInt8.ofNat_toNat]
    rfl

theorem pieces_eq_nil {bs : Bytes} (h : pieces bs = []) : bs = [] := by
  revert h
  fun_cases pieces bs with
  | case1 => exact fun _ => rfl
  | _ => rintro ⟨⟩

/-- Bytes that are read as characters throughout are the bytes of these. -/
theorem eq_flatMap_of_pieces {cs : List Char} {bs : Bytes} (h : pieces bs = cs.map Piece.char) :
    bs = cs.flatMap String.utf8EncodeChar := by
  induction cs generalizing bs with
  | nil => exact pieces_eq_nil h
  | cons c cs ih =>
    obtain ⟨v, rest, hopens, rfl, hrest⟩ := opens_of_pieces h
    rw [List.flatMap_cons, ← ih hrest]
    exact hopens.eq_append

/-! ## Reading strictly -/

theorem ofPieces_eq_ok {i : Nat} {ps : List Piece} {cs : List Char} :
    ofPieces i ps = .ok cs ↔ ps = cs.map Piece.char := by
  induction ps generalizing i cs with
  | nil => cases cs <;> simp [ofPieces]
  | cons p ps ih =>
    cases p with
    | char c =>
      rw [ofPieces, map_eq_ok]
      cases cs with
      | nil => simp
      | cons c' cs => simpa [ih] using and_comm
    | invalid n | cut n => cases cs <;> simp [ofPieces]

/-- Bytes spell a text exactly if they are its bytes. -/
theorem decode_eq_ok {bs : Bytes} {s : String} : decode bs = .ok s ↔ bs = encode s := by
  rw [decode, map_eq_ok]
  constructor
  · rintro ⟨cs, hcs, rfl⟩
    rw [encode, String.toList_ofList]
    exact eq_flatMap_of_pieces (ofPieces_eq_ok.1 hcs)
  · rintro rfl
    exact ⟨s.toList, ofPieces_eq_ok.2 (pieces_encode s.toList), String.ofList_toList⟩

/-- Pieces are characters throughout, or there is one that is none. -/
theorem exists_chars (ps : List Piece) :
    (∃ cs : List Char, ps = cs.map Piece.char) ∨ ∃ p ∈ ps, ∀ c, p ≠ .char c := by
  induction ps with
  | nil => exact .inl ⟨[], rfl⟩
  | cons p ps ih =>
    cases p with
    | char c =>
      refine ih.imp ?_ ?_
      · rintro ⟨cs, rfl⟩
        exact ⟨c :: cs, rfl⟩
      · rintro ⟨p, hp, hnone⟩
        exact ⟨p, List.mem_cons_of_mem _ hp, hnone⟩
    | invalid n | cut n => exact .inr ⟨_, List.mem_cons_self, nofun⟩

/-- Bytes that are not those of a text are read with a replacement in it. -/
theorem replacement_mem_decodeLossy {bs : Bytes} (h : ¬ ∃ s, bs = encode s) :
    Char.ofNat 0xFFFD ∈ (decodeLossy bs).toList := by
  rcases exists_chars (pieces bs) with ⟨cs, hcs⟩ | ⟨p, hp, hnone⟩
  · refine absurd ⟨String.ofList cs, ?_⟩ h
    rw [encode, String.toList_ofList]
    exact eq_flatMap_of_pieces hcs
  · rw [decodeLossy, String.toList_ofList]
    refine List.mem_map.2 ⟨p, hp, ?_⟩
    cases p with
    | char c => exact absurd rfl (hnone c)
    | invalid n | cut n => rfl

end Switchboard.Text
