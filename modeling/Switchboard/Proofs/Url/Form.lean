import Switchboard.Proofs.Text.Utf8
import Switchboard.Proofs.Url.Host

/-!
# Switchboard.Proofs.Url.Form

What is written into a query can be read out of it.

* `Percent.decode_escapes` — bytes that were escaped are read back;
* `mem_encodeText` — what is written holds no sign that separates names, values or pairs;
* `decodeText_encodeText`, `decodePair_encodePair` — a name, a value and a pair are read back;
* `decode_append` — pairs that are added to a query are read after those that are in it.
-/

namespace Switchboard.Percent

theorem digit?_upperDigit : ∀ n < 16, digit? (upperDigit n) = some n := by decide +kernel

theorem decode_escape (b : UInt8) (cs : List Char) : decode (escape b ++ cs) = b :: decode cs := by
  have hlt := b.toNat_lt
  unfold escape
  rw [List.cons_append, List.cons_append, List.cons_append, List.nil_append, decode,
    digit?_upperDigit _ (by omega), digit?_upperDigit _ (by omega)]
  have hb : b.toNat / 16 * 16 + b.toNat % 16 = b.toNat := by omega
  simp only [hb, UInt8.ofNat_toNat]

/-- Bytes that were escaped are read back. -/
theorem decode_escapes (bs : Bytes) (cs : List Char) :
    decode (bs.flatMap escape ++ cs) = bs ++ decode cs := by
  induction bs with
  | nil => rfl
  | cons b rest ih =>
    rw [List.flatMap_cons, List.append_assoc, decode_escape, ih, List.cons_append]

end Switchboard.Percent

namespace Switchboard.Form

/-! ## Characters -/

/-- What a character is written as. -/
def encodeChar (c : Char) : List Char :=
  if c = ' ' then ['+']
  else if isPlain c then [c]
  else (String.utf8EncodeChar c).flatMap Percent.escape

/-- A plus stands for a blank. -/
def unplus (c : Char) : Char := if c = '+' then ' ' else c

theorem encodeText_eq (s : String) : encodeText s = s.toList.flatMap encodeChar := rfl

theorem decodeText_eq (cs : List Char) :
    decodeText cs = Text.decodeLossy (Percent.decode (cs.map unplus)) := rfl

theorem isPlain_upperDigit : ∀ n < 16, isPlain (Percent.upperDigit n) = true := by decide +kernel

theorem mem_escape {b : UInt8} {c : Char} (h : c ∈ Percent.escape b) :
    isPlain c = true ∨ c = '%' := by
  have hlt := b.toNat_lt
  unfold Percent.escape at h
  simp only [List.mem_cons, List.not_mem_nil, or_false] at h
  rcases h with rfl | rfl | rfl
  · exact .inr rfl
  · exact .inl (isPlain_upperDigit _ (by omega))
  · exact .inl (isPlain_upperDigit _ (by omega))

theorem unplus_of_isPlain {c : Char} (h : isPlain c = true) : unplus c = c :=
  if_neg fun hc => absurd (hc ▸ h) (by decide)

theorem unplus_of_mem_escape {b : UInt8} {c : Char} (h : c ∈ Percent.escape b) : unplus c = c := by
  rcases mem_escape h with hplain | rfl
  · exact unplus_of_isPlain hplain
  · rfl

theorem mem_encodeChar {c d : Char} (h : d ∈ encodeChar c) :
    isPlain d = true ∨ d = '+' ∨ d = '%' := by
  unfold encodeChar at h
  split at h
  · exact .inr (.inl (List.mem_singleton.1 h))
  · split at h
    · next hplain => exact .inl (List.mem_singleton.1 h ▸ hplain)
    · obtain ⟨b, -, hb⟩ := List.mem_flatMap.1 h
      exact (mem_escape hb).imp_right .inr

/-- What is written for a character is read as the bytes of that character. -/
theorem decode_encodeChar (c : Char) (cs : List Char) :
    Percent.decode ((encodeChar c).map unplus ++ cs) =
      String.utf8EncodeChar c ++ Percent.decode cs := by
  unfold encodeChar
  split
  · next hblank =>
    subst hblank
    exact Percent.decode_cons (by decide) cs
  · split
    · next hplain =>
      have hpercent : c ≠ '%' := fun hc => absurd (hc ▸ hplain) (by decide)
      rw [List.map_singleton, unplus_of_isPlain hplain]
      exact Percent.decode_cons hpercent cs
    · have hkeep : ((String.utf8EncodeChar c).flatMap Percent.escape).map unplus =
          (String.utf8EncodeChar c).flatMap Percent.escape := by
        refine (List.map_congr_left fun d hd => ?_).trans (List.map_id _)
        obtain ⟨b, -, hb⟩ := List.mem_flatMap.1 hd
        exact unplus_of_mem_escape hb
      rw [hkeep, Percent.decode_escapes]

/-! ## Names and values -/

/-- A name or a value is written without the signs that separate names, values and pairs. -/
theorem mem_encodeText {s : String} {c : Char} (h : c ∈ encodeText s) : c ≠ '&' ∧ c ≠ '=' := by
  obtain ⟨d, -, hd⟩ := List.mem_flatMap.1 h
  rcases mem_encodeChar hd with hplain | rfl | rfl
  · constructor <;> (rintro rfl; exact absurd hplain (by decide))
  · decide
  · decide

theorem decode_encodeChars (cs : List Char) :
    Percent.decode ((cs.flatMap encodeChar).map unplus) = cs.flatMap String.utf8EncodeChar := by
  induction cs with
  | nil => rfl
  | cons c rest ih =>
    rw [List.flatMap_cons, List.map_append, decode_encodeChar, ih, List.flatMap_cons]

/-- A name or a value is read back. -/
theorem decodeText_encodeText (s : String) : decodeText (encodeText s) = s := by
  rw [decodeText_eq, encodeText_eq, decode_encodeChars]
  exact Text.decodeLossy_encode s

/-! ## Pairs -/

theorem splitPair_encodePair (p : String × String) :
    splitPair (encodePair p) = (encodeText p.1, encodeText p.2) := by
  have hname : ∀ c ∈ encodeText p.1, decide (c ≠ '=') = true := fun c hc =>
    decide_eq_true (mem_encodeText hc).2
  unfold splitPair encodePair
  rw [List.takeWhile_append_of_pos hname, List.dropWhile_append_of_pos hname,
    List.takeWhile_cons_of_neg (by decide), List.dropWhile_cons_of_neg (by decide),
    List.append_nil]
  rfl

/-- A pair is read back. -/
theorem decodePair_encodePair (p : String × String) : decodePair (encodePair p) = p := by
  unfold decodePair
  rw [splitPair_encodePair]
  dsimp only
  rw [decodeText_encodeText, decodeText_encodeText]

theorem isEmpty_encodePair (p : String × String) : (encodePair p).isEmpty = false := by
  unfold encodePair
  cases encodeText p.1 <;> rfl

theorem mem_encodePair {p : String × String} {c : Char} (h : c ∈ encodePair p) :
    (c == '&') = false := by
  refine beq_false_of_ne ?_
  rcases List.mem_append.1 h with hname | hvalue
  · exact (mem_encodeText hname).1
  · rcases List.mem_cons.1 hvalue with rfl | hvalue
    · decide
    · exact (mem_encodeText hvalue).1

/-! ## Queries -/

theorem decode_encodePair (p : String × String) : decode (encodePair p) = [p] := by
  have hone : (encodePair p).splitOn '&' = [encodePair p] :=
    List.splitOnP_eq_singleton fun c hc => mem_encodePair hc
  unfold decode
  rw [hone, List.filter_cons_of_pos (by rw [isEmpty_encodePair]; rfl)]
  exact congrArg (· :: []) (decodePair_encodePair p)

/-- What follows a separator is read after what comes before it. -/
theorem decode_append_cons (query more : List Char) :
    decode (query ++ '&' :: more) = decode query ++ decode more := by
  have hsplit : (query ++ '&' :: more).splitOn '&' = query.splitOn '&' ++ more.splitOn '&' :=
    List.splitOnP_append_cons query more rfl
  unfold decode
  rw [hsplit, List.filter_append, List.map_append]

theorem decode_appendPair (query : List Char) (p : String × String) :
    decode (appendPair query p) = decode query ++ [p] := by
  unfold appendPair
  split
  · next hempty =>
    rw [List.isEmpty_iff.1 hempty, decode_encodePair]
    rfl
  · rw [decode_append_cons, decode_encodePair]

/-- Pairs that are added to a query are read after those that are in it. -/
theorem decode_append (query : List Char) (pairs : List (String × String)) :
    decode (append query pairs) = decode query ++ pairs := by
  unfold append
  induction pairs generalizing query with
  | nil => exact (List.append_nil _).symm
  | cons p rest ih => rw [List.foldl_cons, ih, decode_appendPair, List.append_assoc]; rfl

end Switchboard.Form
