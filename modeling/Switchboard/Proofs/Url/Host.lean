import Switchboard.Proofs.Text.Ascii
import Switchboard.Url.Parser

/-!
# Switchboard.Proofs.Url.Host

What names the site of a URL: its user, its host and its port.

* `Percent.decode_append` — a character that no escape holds is decoded on its own;
* `host?_eq_none`, `site?_eq_none` — so nothing that ends in a blank names a host, or a site;
* `site?_takeWhile` — a site is named by what comes before the path.
-/

namespace Switchboard.Percent

theorem utf8EncodeChar_of_lt {c : Char} (h : c.toNat < 0x80) :
    String.utf8EncodeChar c = [UInt8.ofNat c.toNat] := by
  have hval : c.val.toNat ≤ 127 := Nat.le_of_lt_succ h
  unfold String.utf8EncodeChar
  simp only [hval, ↓reduceIte]
  rfl

theorem decode_cons {c : Char} (h : c ≠ '%') (cs : List Char) :
    decode (c :: cs) = String.utf8EncodeChar c ++ decode cs := by
  rw [decode]
  exact fun a b r hc => absurd hc h

/-- A character that no escape holds is decoded on its own. -/
theorem decode_append {c : Char} (h : digit? c = none) (cs : List Char) :
    decode (cs ++ [c]) = decode cs ++ String.utf8EncodeChar c := by
  fun_induction decode cs with
  | case1 => simp [decode]
  | case2 a b r x y hx hy ih => simp [decode, hx, hy, ih]
  | case3 a b r hno ih =>
      have hkeep : decode ('%' :: a :: b :: (r ++ [c])) =
          0x25 :: decode (a :: b :: (r ++ [c])) := by
        rw [decode]
        split
        · next x y hx hy => exact (hno x y hx hy).elim
        · rfl
      rw [List.cons_append, List.cons_append, List.cons_append, hkeep]
      exact congrArg _ ih
  | case4 d r hno ih =>
      by_cases hd : d = '%'
      · -- Too little follows for an escape, and the new character makes none of it.
        subst hd
        have hpercent : String.utf8EncodeChar '%' = [0x25] := by decide
        match r, hno with
        | [], _ => simp [decode]
        | [a], _ =>
            have hkeep : decode ['%', a, c] = 0x25 :: decode [a, c] := by
              rw [decode, h]
              cases digit? a <;> rfl
            have hrest : decode [a, c] = decode [a] ++ String.utf8EncodeChar c := ih
            simp [hkeep, hrest, hpercent]
        | a :: b :: r, hno => exact (hno a b r rfl rfl).elim
      · rw [List.cons_append, decode_cons hd, ih, List.append_assoc]

end Switchboard.Percent

namespace Switchboard.Url

variable {scheme : String} {c : Char} {cs : List Char}

/-! ## Blanks -/

/-- What is cut off at both ends of a URL. -/
def isBlank (c : Char) : Bool := c.toNat ≤ 0x20

theorem ne_of_isBlank (h : isBlank c = true) {d : Char} (hd : 0x20 < d.toNat) : d ≠ c := by
  have hle : c.toNat ≤ 0x20 := of_decide_eq_true h
  rintro rfl
  omega

theorem not_le_of_isBlank (h : isBlank c = true) {d : Char} (hd : 0x20 < d.toNat) : ¬ d ≤ c := by
  have hle : c.toNat ≤ 0x20 := of_decide_eq_true h
  intro hdc
  have hnat : d.toNat ≤ c.toNat := hdc
  omega

theorem digit?_of_isBlank (h : isBlank c = true) : Percent.digit? c = none := by
  have hdigit : ¬ '0' ≤ c := not_le_of_isBlank h (by decide)
  have hlower : ¬ 'a' ≤ c := not_le_of_isBlank h (by decide)
  have hupper : ¬ 'A' ≤ c := not_le_of_isBlank h (by decide)
  simp [Percent.digit?, hdigit, hlower, hupper]

theorem isForbidden_of_isBlank (h : isBlank c = true) : isForbidden c = true := by
  have hle : c.toNat ≤ 0x20 := of_decide_eq_true h
  by_cases hspace : c.toNat = 0x20
  · have hc : c = ' ' := Char.toNat_inj.1 hspace
    subst hc
    decide
  · have hlt : c.toNat < 0x20 := by omega
    simp [isForbidden, hlt]

/-! ## Hosts -/

/-- A name in ASCII has none of the characters that no name may hold, whatever the tables say of
it. -/
theorem inAscii?_eq_none {idna : Idna} {name : String} (h : isForbidden c = true)
    (hc : c ∈ name.toList) : inAscii? idna name = none :=
  if_pos (List.any_eq_true.2 ⟨c, hc, h⟩)

/-- No name ends in a blank: what is decoded has it, and it may not stand there. -/
theorem domain?_eq_none (idna : Idna) (h : isBlank c = true) (hlast : cs.getLast? = some c) :
    domain? idna cs = none := by
  obtain ⟨before, rfl⟩ := List.getLast?_eq_some_iff.1 hlast
  have hlt : c.toNat < 0x80 := by
    have hle : c.toNat ≤ 0x20 := of_decide_eq_true h
    omega
  have hbytes : (Percent.decode (before ++ [c])).getLast? = some (UInt8.ofNat c.toNat) := by
    rw [Percent.decode_append (digit?_of_isBlank h), Percent.utf8EncodeChar_of_lt hlt,
      List.getLast?_concat]
  cases hd : Text.decode (Percent.decode (before ++ [c])) with
  | error e => simp [domain?, hd, Except.toOption]
  | ok name =>
      have hmem := Text.mem_of_decode hlt hbytes hd
      simp [domain?, hd, Except.toOption, inAscii?_eq_none (isForbidden_of_isBlank h) hmem]

theorem bracketed?_eq_none (h : ']' ≠ c) (hlast : cs.getLast? = some c) :
    bracketed? cs = none := by
  obtain ⟨before, rfl⟩ := List.getLast?_eq_some_iff.1 hlast
  unfold bracketed?
  rw [List.reverse_append, List.reverse_singleton, List.singleton_append]
  split
  · next heq => exact absurd (List.cons.inj heq).1.symm h
  · rfl

/-- No host ends in a blank. -/
theorem host?_eq_none (idna : Idna) (h : isBlank c = true) (hlast : cs.getLast? = some c) :
    host? idna true cs = none := by
  unfold host?
  split
  · next r =>
      have hr : r.getLast? = some c :=
        getLast?_tail hlast (ne_of_isBlank h (show 0x20 < '['.toNat by decide))
      exact bracketed?_eq_none (ne_of_isBlank h (by decide)) hr
  · exact domain?_eq_none idna h hlast

/-! ## Ports -/

/-- What is no slash, of either kind. -/
def isSolid (c : Char) : Bool := !isSlash true c

/-- The port that follows a host. -/
def portAfter? (scheme : String) : List Char → Option (Option Nat)
  | ':' :: r => (cutPort? scheme r).map (·.1)
  | _ => some none

theorem isSolid_of_isDigit (h : c.isDigit = true) : isSolid c = true := by
  by_cases hc : isSlash true c = true
  · simp only [isSlash, Bool.true_and, Bool.or_eq_true, decide_eq_true_eq] at hc
    rcases hc with rfl | rfl <;> exact absurd h (by decide)
  · simp [isSolid, hc]

/-- No port ends in a blank. -/
theorem cutPort?_eq_none (h : isBlank c = true) (hlast : cs.getLast? = some c)
    (hsolid : ∀ d ∈ cs, isSolid d = true) : cutPort? scheme cs = none := by
  have hend : (cs.dropWhile Char.isDigit).head?.all (isSlash true) = false := by
    cases hrest : cs.dropWhile Char.isDigit with
    | nil =>
        have hdigit : c.isDigit = true :=
          List.dropWhile_eq_nil_iff.1 hrest c (List.mem_of_getLast? hlast)
        simp only [Char.isDigit, Bool.and_eq_true, decide_eq_true_eq] at hdigit
        exact absurd hdigit.1 (not_le_of_isBlank h (by decide))
    | cons d r =>
        have hmem : d ∈ cs := (List.dropWhile_suffix _).subset (hrest ▸ List.mem_cons_self)
        simpa [isSolid] using hsolid d hmem
  simp [cutPort?, hend]

theorem portAfter?_of_ne (h : c ≠ ':') (r : List Char) :
    portAfter? scheme (c :: r) = some none := by
  unfold portAfter?
  split
  · next heq => exact absurd (List.cons.inj heq).1 h
  · rfl

/-- A port ends before the path. -/
theorem cutPort?_takeWhile (scheme : String) (cs : List Char) :
    (cutPort? scheme (cs.takeWhile isSolid)).map (·.1) = (cutPort? scheme cs).map (·.1) := by
  obtain ⟨htake, hdrop⟩ :=
    takeWhile_takeWhile_of_imp (p := Char.isDigit) (q := isSolid) (fun _ => isSolid_of_isDigit) cs
  have hend : ((cs.dropWhile Char.isDigit).takeWhile isSolid).head?.all (isSlash true) =
      (cs.dropWhile Char.isDigit).head?.all (isSlash true) := by
    cases cs.dropWhile Char.isDigit with
    | nil => rfl
    | cons c r => by_cases hc : isSlash true c = true <;> simp [isSolid, hc]
  simp only [cutPort?, htake, hdrop, hend]
  split
  · cases port? scheme (cs.takeWhile Char.isDigit) <;> rfl
  · rfl

theorem portAfter?_takeWhile (scheme : String) (cs : List Char) :
    portAfter? scheme (cs.takeWhile isSolid) = portAfter? scheme cs := by
  cases cs with
  | nil => rfl
  | cons c r =>
    by_cases hc : c = ':'
    · subst hc
      exact cutPort?_takeWhile scheme r
    · by_cases hs : isSolid c = true
      · rw [List.takeWhile_cons_of_pos hs, portAfter?_of_ne hc, portAfter?_of_ne hc]
      · rw [List.takeWhile_cons_of_neg hs, portAfter?_of_ne hc]
        rfl

/-! ## Hosts with their ports -/

/-- A text is split into what names a host and what comes after it. -/
theorem splitHost_append (special inside : Bool) (cs : List Char) :
    (splitHost special inside cs).1 ++ (splitHost special inside cs).2 = cs := by
  induction cs generalizing inside with
  | nil => rfl
  | cons c r ih =>
    unfold splitHost
    split
    · rfl
    · simp [ih]

/-- What comes after a host starts with a slash or with a colon. -/
theorem splitHost_snd {special inside : Bool} {r : List Char}
    (h : (splitHost special inside cs).2 = c :: r) : isSlash special c = true ∨ c = ':' := by
  induction cs generalizing inside with
  | nil => cases h
  | cons d rest ih =>
    by_cases hstop : isSlash special d = true ∨ (d = ':' ∧ (!inside) = true)
    · rw [splitHost, if_pos hstop] at h
      cases h
      exact hstop.imp_right And.left
    · simp only [splitHost, if_neg hstop] at h
      exact ih h

/-- A host ends before the path. -/
theorem splitHost_takeWhile (inside : Bool) (cs : List Char) :
    splitHost true inside (cs.takeWhile isSolid) =
      ((splitHost true inside cs).1, (splitHost true inside cs).2.takeWhile isSolid) := by
  induction cs generalizing inside with
  | nil => rfl
  | cons c r ih =>
    by_cases hc : isSlash true c = true
    · simp [splitHost, hc, isSolid]
    · have htake : (c :: r).takeWhile isSolid = c :: r.takeWhile isSolid := by simp [isSolid, hc]
      by_cases hstop : isSlash true c = true ∨ (c = ':' ∧ (!inside) = true)
      · rw [htake, splitHost, splitHost, if_pos hstop, if_pos hstop, htake]
      · simp only [htake, splitHost, if_neg hstop, ih]

/-! ## Users -/

/-- A text is split at a character that it has. -/
theorem eq_of_splitLast? {d : Char} {before after : List Char}
    (h : splitLast? d cs = some (before, after)) : cs = before ++ d :: after := by
  induction cs generalizing before with
  | nil => cases h
  | cons e r ih =>
    unfold splitLast? at h
    split at h
    · next hr =>
        cases h
        exact congrArg (e :: ·) (ih hr)
    · split at h
      · next he =>
          cases h
          rw [he]
          rfl
      · cases h

/-- What is left of what stands before the path, without a user. -/
def placeOf (front : List Char) : List Char := ((splitLast? '@' front).map (·.2)).getD front

theorem placeOf_suffix (front : List Char) : placeOf front <:+ front := by
  unfold placeOf
  cases hs : splitLast? '@' front with
  | none => exact List.suffix_rfl
  | some p =>
      obtain ⟨user, place⟩ := p
      exact ⟨user ++ ['@'], by rw [eq_of_splitLast? hs]; simp⟩

/-- A user stands before the path. -/
theorem cutUser_eq (cs : List Char) :
    cutUser true cs = ((splitLast? '@' (cs.takeWhile isSolid)).map (·.1),
      placeOf (cs.takeWhile isSolid) ++ cs.dropWhile isSolid) := by
  have hsplit : splitBefore (isSlash true) cs = (cs.takeWhile isSolid, cs.dropWhile isSolid) := rfl
  unfold cutUser placeOf
  rw [hsplit]
  dsimp only
  cases hs : splitLast? '@' (cs.takeWhile isSolid) with
  | none => simp
  | some p => rfl

theorem cutUser_takeWhile (cs : List Char) :
    cutUser true (cs.takeWhile isSolid) =
      ((cutUser true cs).1, (cutUser true cs).2.takeWhile isSolid) := by
  have hfront : (cs.takeWhile isSolid).takeWhile isSolid = cs.takeWhile isSolid :=
    List.takeWhile_eq_self_iff.2 fun _ hc => List.mem_takeWhile_imp hc
  have hnone : (cs.takeWhile isSolid).dropWhile isSolid = [] :=
    List.dropWhile_eq_nil_iff.2 fun _ hc => List.mem_takeWhile_imp hc
  have hplace : ∀ c ∈ placeOf (cs.takeWhile isSolid), isSolid c = true :=
    fun _ hc => List.mem_takeWhile_imp ((placeOf_suffix _).subset hc)
  have hpath : (cs.dropWhile isSolid).takeWhile isSolid = [] := by
    cases hr : cs.dropWhile isSolid with
    | nil => rfl
    | cons d r =>
        have hd : isSolid d = false := by
          have hhead := List.head?_dropWhile_not isSolid cs
          rw [hr] at hhead
          exact hhead
        exact List.takeWhile_cons_of_neg (by simp [hd])
  rw [cutUser_eq, cutUser_eq, hfront, hnone, List.append_nil,
    List.takeWhile_append_of_pos hplace, hpath, List.append_nil]

/-- A user is no part of what ends in a blank. -/
theorem getLast?_cutUser (h : isBlank c = true) (hlast : cs.getLast? = some c)
    (hsolid : ∀ d ∈ cs, isSolid d = true) :
    (cutUser true cs).2.getLast? = some c ∧ ∀ d ∈ (cutUser true cs).2, isSolid d = true := by
  have hfront : cs.takeWhile isSolid = cs := List.takeWhile_eq_self_iff.2 hsolid
  have hnone : cs.dropWhile isSolid = [] := List.dropWhile_eq_nil_iff.2 hsolid
  rw [cutUser_eq, hfront, hnone, List.append_nil]
  refine ⟨?_, fun d hd => hsolid d ((placeOf_suffix cs).subset hd)⟩
  unfold placeOf
  cases hs : splitLast? '@' cs with
  | none => exact hlast
  | some p =>
      obtain ⟨user, place⟩ := p
      rw [eq_of_splitLast? hs, List.getLast?_append_of_ne_nil _ (List.cons_ne_nil '@' place)]
        at hlast
      exact getLast?_tail hlast (ne_of_isBlank h (show 0x20 < '@'.toNat by decide))

/-! ## Sites -/

/-- Who a text names and where, by the parts that it is split into. -/
theorem site?_fst (idna : Idna) (hs : isSpecial scheme = true) (cs : List Char) :
    (site? idna scheme cs).map (·.1) =
      if (splitHost true false (cutUser true cs).2).1 = [] then none
      else (host? idna true (splitHost true false (cutUser true cs).2).1).bind fun host =>
        (portAfter? scheme (splitHost true false (cutUser true cs).2).2).map fun port =>
          .of (cutUser true cs).1 host port := by
  simp only [site?, hs]
  generalize cutUser true cs = q
  obtain ⟨user, place⟩ := q
  dsimp only
  generalize splitHost true false place = p
  obtain ⟨_ | ⟨d, h⟩, rest⟩ := p
  · simp
  · rw [if_neg (List.cons_ne_nil d h)]
    dsimp only
    cases host? idna true (d :: h) with
    | none => rfl
    | some host =>
      cases rest with
      | nil => simp [portAfter?]
      | cons c r =>
          by_cases hc : c = ':'
          · subst hc
            cases hcut : cutPort? scheme r <;> simp [portAfter?, hcut]
          · simp [portAfter?_of_ne hc, hc]

/-- A site is named by what comes before the path. -/
theorem site?_takeWhile (idna : Idna) (hs : isSpecial scheme = true) (cs : List Char) :
    (site? idna scheme (cs.takeWhile isSolid)).map (·.1) = (site? idna scheme cs).map (·.1) := by
  rw [site?_fst idna hs, site?_fst idna hs, cutUser_takeWhile, splitHost_takeWhile]
  simp only [portAfter?_takeWhile]

/-- What ends in a blank, and in no path, names no site. -/
theorem site?_eq_none (idna : Idna) (hs : isSpecial scheme = true) (h : isBlank c = true)
    (hlast : cs.getLast? = some c) (hsolid : ∀ d ∈ cs, isSolid d = true) :
    site? idna scheme cs = none := by
  obtain ⟨hplace, hplain⟩ := getLast?_cutUser h hlast hsolid
  rw [← Option.map_eq_none_iff, site?_fst idna hs]
  generalize (cutUser true cs).2 = place at hplace hplain
  have hsplit := splitHost_append true false place
  generalize hrest : (splitHost true false place).2 = rest at hsplit
  generalize (splitHost true false place).1 = before at hsplit
  cases rest with
  | nil =>
      rw [List.append_nil] at hsplit
      simp [hsplit, host?_eq_none idna h hplace]
  | cons d r =>
      have hmem {e : Char} (he : e ∈ d :: r) : isSolid e = true :=
        hplain e (hsplit ▸ List.mem_append_right before he)
      have hcolon : d = ':' := by
        have hd := hmem List.mem_cons_self
        exact (splitHost_snd hrest).resolve_left (by simpa [isSolid] using hd)
      subst hcolon
      have hr : r.getLast? = some c := by
        rw [← hsplit, List.getLast?_append_of_ne_nil _ (List.cons_ne_nil ':' r)] at hplace
        exact getLast?_tail hplace (ne_of_isBlank h (show 0x20 < ':'.toNat by decide))
      have hport : cutPort? scheme r = none :=
        cutPort?_eq_none h hr fun e he => hmem (List.mem_cons_of_mem _ he)
      simp [portAfter?, hport]

end Switchboard.Url
