import Switchboard.Proofs.Config.Address
import Switchboard.Proofs.Url.Host

/-!
# Switchboard.Proofs.Url.Origin

What in the text of a URL decides which host it names.

* `tidy`, `clean_append` — what is left of a text before it is read;
* `namedSite?`, `namedSite?_of_ofText?` — the part that names a user, a host and a port;
* `namedSite?_tidy` — a path after it does not change them;
* `ofText?_origin` — so URLs that differ in what starts with a slash name one host.
-/

namespace Switchboard

/-- Any number of slashes. -/
def slashes (n : Nat) : String := String.ofList (List.replicate n '/')

theorem eq_of_mem_slashes {c : Char} {n : Nat} (h : c ∈ (slashes n).toList) : c = '/' := by
  rw [slashes, String.toList_ofList] at h
  exact List.eq_of_mem_replicate h

/-- The name of a scheme, without what separates it from the rest. -/
def Scheme.name : Scheme → String
  | .http => "http"
  | .https => "https"
  | .ws => "ws"
  | .wss => "wss"

namespace Url

variable {idna : Idna} {scheme : String}

/-! ## The text that is read -/

/-- Line ends and tabs have no meaning in a URL. -/
def isKept (c : Char) : Bool := c ≠ '\t' ∧ c ≠ '\n' ∧ c ≠ '\r'

/-- What is left of a text after the scheme. -/
def tidy (cs : List Char) : List Char := (cs.rdropWhile isBlank).filter isKept

theorem clean_append (s : Scheme) (cs : List Char) :
    clean (s.text.toList ++ cs) = s.text.toList ++ tidy cs := by
  have hfront : (s.text.toList ++ cs).dropWhile isBlank = s.text.toList ++ cs := by
    cases s <;> rfl
  have hend : (s.text.toList ++ cs).rdropWhile isBlank =
      s.text.toList ++ cs.rdropWhile isBlank := by
    obtain ⟨front, htext⟩ : ∃ front, s.text.toList = front ++ ['/'] :=
      ⟨s.name.toList ++ [':', '/'], by cases s <;> rfl⟩
    rw [htext, List.append_assoc, List.append_assoc]
    exact rdropWhile_append_cons (show isBlank '/' = false by decide)
  have hkept : s.text.toList.filter isKept = s.text.toList := by cases s <;> rfl
  calc clean (s.text.toList ++ cs)
      = (((s.text.toList ++ cs).dropWhile isBlank).rdropWhile isBlank).filter isKept := rfl
    _ = s.text.toList ++ tidy cs := by rw [hfront, hend, List.filter_append, hkept, tidy]

theorem isSpecial_name (s : Scheme) :
    isSpecial s.name = true ∧ s.name ≠ "file" := by
  cases s <;> decide

theorem scheme?_append (s : Scheme) (cs : List Char) :
    scheme? (s.text.toList ++ cs) = some (s.name, '/' :: '/' :: cs) := by
  cases s <;> rfl

theorem tidy_append_slash (xs ys : List Char) :
    tidy (xs ++ '/' :: ys) = xs.filter isKept ++ '/' :: tidy ys := by
  have hslash : isKept '/' = true := by decide
  rw [tidy, rdropWhile_append_cons (by decide), List.filter_append,
    List.filter_cons_of_pos hslash, tidy]

theorem exists_filter_eq_tidy_append (cs : List Char) :
    ∃ bs, cs.filter isKept = tidy cs ++ bs ∧ ∀ b ∈ bs, isBlank b = true := by
  obtain ⟨bs, hcs, hbs⟩ := exists_eq_rdropWhile_append isBlank cs
  refine ⟨bs.filter isKept, ?_, fun b hb => hbs b (List.mem_filter.1 hb).1⟩
  rw [tidy, ← List.filter_append, ← hcs]

/-! ## The part that names a host -/

/-- What may stand before the path. -/
def isAuthority (c : Char) : Bool := isSolid c && c ≠ '?' && c ≠ '#'

/-- What stands before the path, after any number of slashes. -/
def authorityPart (cs : List Char) :
    List Char := (cs.dropWhile (isSlash true)).takeWhile isAuthority

/-- The site of a URL, from what follows its scheme. -/
def namedSite? (idna : Idna) (scheme : String) (cs : List Char) : Option Site :=
  (site? idna scheme (authorityPart cs)).map (·.1)

theorem isSolid_of_isAuthority {c : Char} (h : isAuthority c = true) : isSolid c = true := by
  simp only [isAuthority, Bool.and_eq_true] at h
  exact h.1.1

theorem isAuthority_of_isBlank {c : Char} (h : isBlank c = true) : isAuthority c = true := by
  have hne {d : Char} (hd : 0x20 < d.toNat) : c ≠ d := (ne_of_isBlank h hd).symm
  have hslash : c ≠ '/' := hne (by decide)
  have hback : c ≠ '\\' := hne (by decide)
  have hquery : c ≠ '?' := hne (by decide)
  have hfragment : c ≠ '#' := hne (by decide)
  simp [isAuthority, isSolid, isSlash, hslash, hback, hquery, hfragment]

theorem authorityPart_append_slash {xs : List Char} (h : ∃ c ∈ xs, isSolid c = true)
    (ys : List Char) : authorityPart (xs ++ '/' :: ys) = authorityPart xs := by
  have hne : (xs.dropWhile (isSlash true)).isEmpty = false := by
    obtain ⟨c, hc, hsolid⟩ := h
    rw [List.isEmpty_eq_false_iff]
    intro hnil
    have hslash := List.dropWhile_eq_nil_iff.1 hnil c hc
    simp [isSolid, hslash] at hsolid
  have hstop : ('/' :: ys).takeWhile isAuthority = [] :=
    List.takeWhile_cons_of_neg (by decide)
  rw [authorityPart, List.dropWhile_append, hne, if_neg (by decide),
    takeWhile_append_of_stop hstop, authorityPart]

theorem authorityPart_append_blank {bs : List Char} (h : ∀ b ∈ bs, isBlank b = true)
    (xs : List Char) :
    authorityPart (xs ++ bs) = authorityPart xs ∨
      authorityPart (xs ++ bs) = authorityPart xs ++ bs := by
  have htake : bs.takeWhile isAuthority = bs :=
    List.takeWhile_eq_self_iff.2 fun b hb => isAuthority_of_isBlank (h b hb)
  have hdrop : bs.dropWhile (isSlash true) = bs := by
    cases bs with
    | nil => rfl
    | cons b bs =>
        have hb := isSolid_of_isAuthority (isAuthority_of_isBlank (h b List.mem_cons_self))
        exact List.dropWhile_cons_of_neg (by simpa [isSolid] using hb)
  unfold authorityPart
  rw [List.dropWhile_append]
  by_cases hnil : xs.dropWhile (isSlash true) = []
  · right
    simp [hnil, hdrop, htake]
  · have hne : (xs.dropWhile (isSlash true)).isEmpty = false := by simp [hnil]
    rw [hne, if_neg (by decide), List.takeWhile_append, htake]
    split
    · next hall =>
        right
        rw [(List.takeWhile_prefix isAuthority).eq_of_length hall]
    · exact .inl rfl

/-- A text that names a host has more than slashes. -/
theorem exists_isSolid {cs : List Char} {a : Site} (hs : isSpecial scheme = true)
    (h : namedSite? idna scheme cs = some a) : ∃ c ∈ cs, isSolid c = true := by
  by_contra hnone
  have hslash : ∀ c ∈ cs, isSlash true c = true := by
    intro c hc
    by_contra hsolid
    exact hnone ⟨c, hc, by simp [isSolid, hsolid]⟩
  have hempty : authorityPart cs = [] := by
    rw [authorityPart, List.dropWhile_eq_nil_iff.2 hslash, List.takeWhile_nil]
  rw [namedSite?, hempty, site?_fst idna hs] at h
  cases h

/-- Blanks after what names a host do not name another one. -/
theorem namedSite?_append_blank {bs xs : List Char} {a : Site}
    (hs : isSpecial scheme = true) (hbs : ∀ b ∈ bs, isBlank b = true)
    (h : namedSite? idna scheme (xs ++ bs) = some a) : namedSite? idna scheme xs = some a := by
  rcases authorityPart_append_blank hbs xs with heq | heq
  · rwa [namedSite?, heq] at h
  · rcases List.eq_nil_or_concat' bs with rfl | ⟨before, b, rfl⟩
    · rwa [List.append_nil] at h
    · have hlast : (authorityPart (xs ++ (before ++ [b]))).getLast? = some b := by
        rw [heq, ← List.append_assoc, List.getLast?_concat]
      have hsolid : ∀ d ∈ authorityPart (xs ++ (before ++ [b])), isSolid d = true :=
        fun d hd => isSolid_of_isAuthority (List.mem_takeWhile_imp hd)
      have hnone := site?_eq_none idna hs (hbs b (by simp)) hlast hsolid
      rw [namedSite?, hnone] at h
      cases h

/-- What starts with a slash, or is empty. -/
def IsTail (cs : List Char) : Prop := cs = [] ∨ ∃ path, cs = '/' :: path

theorem isTail_slashes (n : Nat) : IsTail (slashes n).toList := by
  unfold slashes
  rw [String.toList_ofList]
  cases n with
  | zero => exact .inl rfl
  | succ n => exact .inr ⟨List.replicate n '/', rfl⟩

/-- A path after what names a host does not name another one. -/
theorem namedSite?_tidy {xs tail : List Char} {a : Site}
    (hs : isSpecial scheme = true) (hx : ∃ c ∈ xs.filter isKept, isSolid c = true)
    (htail : IsTail tail) (h : namedSite? idna scheme (tidy (xs ++ tail)) = some a) :
    namedSite? idna scheme (tidy xs) = some a := by
  rcases htail with rfl | ⟨path, rfl⟩
  · rwa [List.append_nil] at h
  · rw [tidy_append_slash, namedSite?, authorityPart_append_slash hx] at h
    obtain ⟨bs, hbs, hblank⟩ := exists_filter_eq_tidy_append xs
    rw [hbs] at h
    exact namedSite?_append_blank hs hblank h

/-! ## URLs -/

theorem splitAfter_fst (c : Char) (cs : List Char) :
    (splitAfter c cs).1 = cs.takeWhile fun d => !decide (d = c) := by
  unfold splitAfter splitBefore
  split
  · next h => exact (congrArg Prod.fst h).symm
  · next h => exact (congrArg Prod.fst h).symm

/-- A path, a query and a fragment come after what names a host. -/
theorem takeWhile_isSolid_eq_authorityPart (cs : List Char) :
    (((cs.takeWhile fun d => !decide (d = '#')).takeWhile fun d => !decide (d = '?')).dropWhile
      (isSlash true)).takeWhile isSolid = authorityPart cs := by
  have hkeep {stop : Char} (hstop : isSlash true stop = false) (xs : List Char) :
      (xs.takeWhile fun d => !decide (d = stop)).dropWhile (isSlash true) =
        (xs.dropWhile (isSlash true)).takeWhile fun d => !decide (d = stop) := by
    refine (takeWhile_takeWhile_of_imp (fun c hc => ?_) xs).2
    have hne : c ≠ stop := by
      rintro rfl
      rw [hstop] at hc
      cases hc
    simp [hne]
  rw [hkeep (by decide), hkeep (by decide), List.takeWhile_takeWhile, List.takeWhile_takeWhile,
    authorityPart]
  congr 1
  funext c
  by_cases hsolid : isSolid c = true <;> by_cases hquery : c = '?' <;>
    by_cases hfragment : c = '#' <;> simp [isAuthority, hsolid, hquery, hfragment]

theorem namedSite?_of_hierarchy? {rest : List Char} {site : Option Site} {path : UrlPath}
    (hs : isSpecial scheme = true) (hfile : scheme ≠ "file")
    (h : hierarchy? idna scheme ((rest.takeWhile fun d => !decide (d = '#')).takeWhile
      fun d => !decide (d = '?')) = some (site, path)) :
    site.isSome ∧ namedSite? idna scheme rest = site := by
  simp only [hierarchy?, hfile, hs, afterSlashes?, Option.bind_eq_bind, if_false, if_true,
    Option.bind_eq_some_iff] at h
  obtain ⟨⟨place, tail⟩, hplace, heq⟩ := h
  cases heq
  refine ⟨rfl, ?_⟩
  rw [namedSite?, ← takeWhile_isSolid_eq_authorityPart, site?_takeWhile idna hs, hplace]
  rfl

/-- The site that a URL is for. -/
def siteOf (u : Url) : Site :=
  { user := u.user, password := u.password, host := u.host.getD "", port := u.port }

/-- A URL with one of the four schemes has that scheme, and is for the site that its text
names. -/
theorem namedSite?_of_ofText? {s : Scheme} {rest : String} {u : Url}
    (h : ofText? idna (s.text ++ rest) = some u) :
    u.scheme = s.name ∧ u.host.isSome ∧
      namedSite? idna s.name (tidy rest.toList) = some u.siteOf := by
  obtain ⟨hs, hfile⟩ := isSpecial_name s
  simp only [ofText?, String.toList_append, clean_append, scheme?_append, Option.bind_eq_bind,
    Option.bind_some, Option.bind_eq_some_iff] at h
  obtain ⟨⟨site, path⟩, hh, hu⟩ := h
  rw [splitAfter_fst, splitAfter_fst] at hh
  obtain ⟨hsome, hnamed⟩ := namedSite?_of_hierarchy? hs hfile hh
  obtain ⟨place, rfl⟩ := Option.isSome_iff_exists.1 hsome
  cases hu
  exact ⟨rfl, rfl, hnamed⟩

/-- Slashes name no host: where one is named, it is in the text before them. -/
theorem exists_isSolid_before {xs : List Char} {n : Nat} {a : Site}
    (hs : isSpecial scheme = true)
    (h : namedSite? idna scheme (tidy (xs ++ (slashes n).toList)) = some a) :
    ∃ c ∈ xs.filter isKept, isSolid c = true := by
  obtain ⟨c, hc, hsolid⟩ := exists_isSolid hs h
  obtain ⟨hdropped, hkept⟩ := List.mem_filter.1 hc
  have hmem := (List.rdropWhile_prefix isBlank _).subset hdropped
  refine ⟨c, List.mem_filter.2 ⟨?_, hkept⟩, hsolid⟩
  cases List.mem_append.1 hmem with
  | inl hxs => exact hxs
  | inr hslash =>
      have hc : c = '/' := eq_of_mem_slashes hslash
      subst hc
      cases hsolid

/-- A scheme with nothing but slashes after it is no URL. -/
theorem ofText?_slashes (idna : Idna) (s : Scheme) (n : Nat) :
    ofText? idna (s.text ++ slashes n) = none := by
  cases h : ofText? idna (s.text ++ slashes n) with
  | none => rfl
  | some u =>
      have hsite : namedSite? idna s.name (tidy ([] ++ (slashes n).toList)) = some u.siteOf :=
        (namedSite?_of_ofText? h).2.2
      obtain ⟨c, hc, -⟩ := exists_isSolid_before (isSpecial_name s).1 hsite
      cases hc

/-- A text that slashes end, and the same text with a path in their place, name one site: if they
are URLs they have the scheme, the user, the host and the port in common. -/
theorem ofText?_origin {s : Scheme} {base tail : String} {n : Nat} {u v : Url}
    (htail : IsTail tail.toList) (hu : ofText? idna (s.text ++ (base ++ slashes n)) = some u)
    (hv : ofText? idna (s.text ++ (base ++ tail)) = some v) :
    v.scheme = u.scheme ∧ v.host = u.host ∧ v.siteOf = u.siteOf := by
  have hs := (isSpecial_name s).1
  obtain ⟨hschemeu, hhostu, hsiteu⟩ := namedSite?_of_ofText? hu
  obtain ⟨hschemev, hhostv, hsitev⟩ := namedSite?_of_ofText? hv
  rw [String.toList_append] at hsiteu hsitev
  have hsolid := exists_isSolid_before hs hsiteu
  have hbase := namedSite?_tidy hs hsolid (isTail_slashes n) hsiteu
  rw [namedSite?_tidy hs hsolid htail hsitev] at hbase
  have hsite : v.siteOf = u.siteOf := Option.some.inj hbase
  refine ⟨hschemev.trans hschemeu.symm, ?_, hsite⟩
  obtain ⟨hostu, hostu_eq⟩ := Option.isSome_iff_exists.1 hhostu
  obtain ⟨hostv, hostv_eq⟩ := Option.isSome_iff_exists.1 hhostv
  have hhost : v.host.getD "" = u.host.getD "" := congrArg Site.host hsite
  rw [hostu_eq, hostv_eq] at hhost ⊢
  exact congrArg some hhost

end Url
end Switchboard
