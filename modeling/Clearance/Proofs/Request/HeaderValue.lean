import Clearance.Proofs.Request.Sources
import Clearance.Proofs.Text.Trimming
import Mathlib.Data.List.Forall2

/-!
# Tokens in header values

A header value carries a token behind the scheme or alone, in any padding of blanks
(`Request.Carries`), or it carries none: it is blank, it is the bare scheme, or it cannot be read
(`Request.IsTokenless`). Every value is of one of these forms (`Request.carries_or_isTokenless`), so
that the forms say exactly what is located (`Request.headerToken?_eq_some_iff`,
`Request.headerToken?_eq_none_iff`). A header without a token counts as missing
(`Request.token?_withoutHeader`).
-/

namespace Clearance

/-! ## Case of letters -/

/-- Only capital letters change in lower case, and upper case undoes the change. -/
theorem Text.toLower_eq_or (c : Char) : c.toLower = c ∨ c.toLower.toUpper = c := by
  unfold Char.toLower
  split
  · next hcapital =>
    -- a capital letter becomes a small one, so that upper case takes it back
    have hlow : 65 ≤ c.val.toNat := hcapital.1
    have hhigh : c.val.toNat ≤ 90 := hcapital.2
    have hsmall : (c.val + ('a'.val - 'A'.val)).toNat = c.val.toNat + 32 := by
      have hroom : c.val.toNat + 32 < 2 ^ 32 := by omega
      exact (UInt32.toNat_add _ _).trans (Nat.mod_eq_of_lt hroom)
    have hletter : 97 ≤ (c.val + ('a'.val - 'A'.val)).toNat ∧
        (c.val + ('a'.val - 'A'.val)).toNat ≤ 122 := by omega
    right
    unfold Char.toUpper
    refine (dif_pos hletter).trans (Char.ext ?_)
    exact (UInt32.add_assoc _ _ _).trans (UInt32.add_zero _)
  · exact Or.inl rfl

/-- Lower case makes a word of small letters out of the words with these letters, each small or
capital. -/
theorem Text.map_toLower_eq_iff {letters : List Char}
    (hletters : ∀ l ∈ letters, l.toLower = l ∧ l.toUpper.toLower = l) (word : List Char) :
    word.map Char.toLower = letters ↔
      List.Forall₂ (fun c l => c = l ∨ c = l.toUpper) word letters := by
  induction letters generalizing word with
  | nil => rw [List.map_eq_nil_iff, List.forall₂_nil_right_iff]
  | cons l letters ih =>
    have hl := hletters l List.mem_cons_self
    have hrest := ih fun m hm => hletters m (List.mem_cons_of_mem l hm)
    rw [List.map_eq_cons_iff, List.forall₂_cons_right_iff]
    constructor
    · rintro ⟨c, word, rfl, rfl, hword⟩
      exact ⟨c, word, (toLower_eq_or c).imp Eq.symm Eq.symm, (hrest word).1 hword, rfl⟩
    · rintro ⟨c, word, hc, hword, rfl⟩
      refine ⟨c, word, rfl, ?_, (hrest word).2 hword⟩
      rcases hc with rfl | rfl
      · exact hl.1
      · exact hl.2

namespace Request

/-- The word is the scheme, each letter small or capital. -/
def IsScheme (word : List Char) : Prop :=
  List.Forall₂ (fun c l => c = l ∨ c = l.toUpper) word bearer

theorem isBearer_iff (word : List Char) : isBearer word = true ↔ IsScheme word := by
  rw [isBearer, beq_iff_eq]
  exact Text.map_toLower_eq_iff (List.forall_iff_forall_mem.1 (by decide)) word

instance : DecidablePred IsScheme := fun word => decidable_of_iff _ (isBearer_iff word)

/-! ## Forms of a header value -/

/-- There are only characters that can be read in a header. -/
def IsAscii (s : List Char) : Prop := ∀ c ∈ s, c.toNat < 0x80

instance : DecidablePred IsAscii := fun s =>
  decidable_of_iff (s.Forall (·.toNat < 0x80)) List.forall_iff_forall_mem

/-- Nothing but blanks that can be read in a header, such as spaces and tabs. -/
structure IsPadding (s : List Char) : Prop where
  blank : Text.IsBlankRun s
  ascii : IsAscii s

/-- A text that can be a token in a header: it is not empty, has no blank at its ends and can be
read. -/
structure IsToken (s : List Char) : Prop where
  trimmed : Text.IsTrimmed s
  ascii : IsAscii s

instance : DecidablePred IsPadding := fun s =>
  decidable_of_iff (Text.IsBlankRun s ∧ IsAscii s)
    ⟨fun ⟨hblank, hascii⟩ => ⟨hblank, hascii⟩, fun ⟨hblank, hascii⟩ => ⟨hblank, hascii⟩⟩

instance : DecidablePred IsToken := fun s =>
  decidable_of_iff (Text.IsTrimmed s ∧ IsAscii s)
    ⟨fun ⟨htrimmed, hascii⟩ => ⟨htrimmed, hascii⟩, fun ⟨htrimmed, hascii⟩ => ⟨htrimmed, hascii⟩⟩

/-- The values that carry a token. -/
inductive Carries (token : List Char) : List Char → Prop where
  /-- Behind the scheme, which ends at a blank. -/
  | scheme {before scheme gap after : List Char} (hbefore : IsPadding before)
      (hscheme : IsScheme scheme) (hgap : IsPadding gap) (hne : gap ≠ [])
      (hafter : IsPadding after) :
      Carries token (before ++ (scheme ++ (gap ++ token)) ++ after)
  /-- Alone, when the first word of the token is not the scheme. -/
  | bare {before after : List Char} (hbefore : IsPadding before)
      (hword : ¬ IsScheme (Text.firstWord token)) (hafter : IsPadding after) :
      Carries token (before ++ token ++ after)

/-- The values that carry no token. -/
inductive IsTokenless : List Char → Prop where
  /-- Only blanks. -/
  | blank {value : List Char} (hvalue : Text.IsBlankRun value) : IsTokenless value
  /-- Only the scheme. -/
  | scheme {before scheme after : List Char} (hbefore : Text.IsBlankRun before)
      (hscheme : IsScheme scheme) (hafter : Text.IsBlankRun after) :
      IsTokenless (before ++ scheme ++ after)
  /-- There is a character that cannot be read. -/
  | unreadable {value : List Char} (hvalue : ¬ IsAscii value) : IsTokenless value

section
variable {s t token value word before scheme gap after : List Char}

theorem isAscii_append_iff : IsAscii (s ++ t) ↔ IsAscii s ∧ IsAscii t := List.forall_mem_append

/-- The letters of the scheme are no blanks and can be read. -/
theorem IsScheme.letter (h : IsScheme word) :
    ∀ c ∈ word, Text.isBlank c = false ∧ c.toNat < 0x80 := by
  have hletters : ∀ l ∈ bearer, (Text.isBlank l = false ∧ l.toNat < 0x80) ∧
      Text.isBlank l.toUpper = false ∧ l.toUpper.toNat < 0x80 :=
    List.forall_iff_forall_mem.1 (by decide)
  have hlower : word.map Char.toLower = bearer := beq_iff_eq.1 ((isBearer_iff word).2 h)
  intro c hc
  have hl := hletters c.toLower (hlower ▸ List.mem_map_of_mem hc)
  rcases Text.toLower_eq_or c with hsmall | hcapital
  · rw [hsmall] at hl
    exact hl.1
  · rw [hcapital] at hl
    exact hl.2

theorem IsScheme.ne_nil (h : IsScheme word) : word ≠ [] := by
  rintro rfl
  cases h

theorem IsScheme.notBlank (h : IsScheme word) : ∀ c ∈ word, Text.isBlank c = false :=
  fun c hc => (h.letter c hc).1

theorem IsScheme.isAscii (h : IsScheme word) : IsAscii word := fun c hc => (h.letter c hc).2

theorem IsScheme.isTrimmed (h : IsScheme word) : Text.IsTrimmed word where
  ne_nil := h.ne_nil
  first c hc := h.notBlank c (List.mem_of_head? hc)
  last c hc := h.notBlank c (List.mem_of_getLast? hc)

/-- What carries a token can be read. -/
theorem Carries.isAscii (h : Carries token value) (htoken : IsAscii token) : IsAscii value := by
  cases h with
  | scheme hbefore hscheme hgap _ hafter =>
    simp only [isAscii_append_iff]
    exact ⟨⟨hbefore.ascii, hscheme.isAscii, hgap.ascii, htoken⟩, hafter.ascii⟩
  | bare hbefore _ hafter =>
    simp only [isAscii_append_iff]
    exact ⟨⟨hbefore.ascii, htoken⟩, hafter.ascii⟩

/-! ## Reading a value -/

/-- What is not empty is trimmed. -/
theorem isTrimmed_of_nonempty? (h : nonempty? s = some t) : Text.IsTrimmed t := by
  obtain ⟨before, after, -, -, -, htrim⟩ := Text.exists_trim s
  unfold nonempty? at h
  split at h
  · cases h
  · next hne =>
    cases h
    exact htrim hne

theorem nonempty?_of_trim (htrim : Text.trim s = t) (ht : Text.IsTrimmed t) :
    nonempty? s = some t := by
  rw [nonempty?, htrim]
  cases t with
  | nil => exact absurd rfl ht.ne_nil
  | cons c t => rfl

theorem nonempty?_of_isBlankRun (hs : Text.IsBlankRun s) : nonempty? s = none := by
  rw [nonempty?, Text.trim_of_isBlankRun hs]

/-- A blank in front of the rest does not count. -/
theorem nonempty?_cons_of_isBlank {c : Char} (hc : Text.isBlank c = true) (s : List Char) :
    nonempty? (c :: s) = nonempty? s := by
  have hstart : Text.trimStart (c :: s) = Text.trimStart s := List.dropWhile_cons_of_pos hc
  rw [nonempty?, nonempty?, Text.trim, Text.trim, hstart]

/-- The token is looked for behind the first word, if this is the scheme, and else in the whole. -/
theorem bearerToken?_eq (value : List Char) :
    bearerToken? value =
      if isBearer (Text.firstWord (Text.trim value)) then
        nonempty? (Text.afterWord (Text.trim value))
      else nonempty? (Text.trim value) := by
  unfold bearerToken?
  dsimp only
  generalize Text.trim value = value
  have hcut := Text.firstWord_append_afterWord value
  have hblank := Text.first_afterWord (s := value)
  cases hrest : Text.afterWord value with
  | nil =>
    rw [hrest, List.append_nil] at hcut
    rw [Text.cutAtBlank_eq_none hrest, hcut, nonempty?_of_isBlankRun Text.isBlankRun_nil]
  | cons c rest =>
    rw [hrest] at hblank
    rw [Text.cutAtBlank_eq_some hrest, nonempty?_cons_of_isBlank (hblank c rfl)]

theorem bearerToken?_of_isScheme (htrim : Text.trim value = s) (h : IsScheme (Text.firstWord s)) :
    bearerToken? value = nonempty? (Text.afterWord s) := by
  rw [bearerToken?_eq, htrim, if_pos ((isBearer_iff _).2 h)]

theorem bearerToken?_of_not_isScheme (htrim : Text.trim value = s)
    (h : ¬ IsScheme (Text.firstWord s)) : bearerToken? value = nonempty? s := by
  rw [bearerToken?_eq, htrim, if_neg (mt (isBearer_iff _).1 h)]

/-- From the scheme to the end of a trimmed text there is a trimmed text. -/
theorem IsScheme.isTrimmed_append (hscheme : IsScheme scheme) (ht : Text.IsTrimmed t)
    (gap : List Char) : Text.IsTrimmed (scheme ++ (gap ++ t)) where
  ne_nil := List.append_ne_nil_of_left_ne_nil hscheme.ne_nil _
  first := by
    rw [List.head?_append_of_ne_nil _ hscheme.ne_nil]
    exact hscheme.isTrimmed.first
  last := by
    rw [← List.append_assoc, List.getLast?_append_of_ne_nil _ ht.ne_nil]
    exact ht.last

/-- What carries a token is read as this token. -/
theorem Carries.bearerToken?_eq (h : Carries t value) (ht : Text.IsTrimmed t) :
    bearerToken? value = some t := by
  cases h with
  | @scheme before scheme gap after hbefore hscheme hgap hne hafter =>
    have hblank : ∀ c ∈ (gap ++ t).head?, Text.isBlank c = true := by
      rw [List.head?_append_of_ne_nil _ hne]
      exact fun c hc => hgap.blank c (List.mem_of_head? hc)
    have htrim := Text.trim_append hbefore.blank (hscheme.isTrimmed_append ht gap) hafter.blank
    have hword := Text.firstWord_append hscheme.notBlank hblank
    rw [bearerToken?_of_isScheme htrim (by rwa [hword]),
      Text.afterWord_append hscheme.notBlank hblank]
    have hgapTrim := Text.trim_append hgap.blank ht Text.isBlankRun_nil
    rw [List.append_nil] at hgapTrim
    exact nonempty?_of_trim hgapTrim ht
  | bare hbefore hword hafter =>
    have htrim := Text.trim_append hbefore.blank ht hafter.blank
    rw [bearerToken?_of_not_isScheme htrim hword]
    exact nonempty?_of_trim (Text.trim_of_isTrimmed ht) ht

/-- What is blank or the bare scheme is read as no token. -/
theorem IsTokenless.bearerToken?_eq (h : IsTokenless value) (hvalue : IsAscii value) :
    bearerToken? value = none := by
  cases h with
  | blank hblank =>
    have hword : ¬ IsScheme (Text.firstWord []) := fun h => h.ne_nil rfl
    rw [bearerToken?_of_not_isScheme (Text.trim_of_isBlankRun hblank) hword]
    exact nonempty?_of_isBlankRun Text.isBlankRun_nil
  | @scheme before scheme after hbefore hscheme hafter =>
    have htrim := Text.trim_append hbefore hscheme.isTrimmed hafter
    have hnil : ∀ c ∈ ([] : List Char).head?, Text.isBlank c = true := fun _ hc => nomatch hc
    have hword := Text.firstWord_append hscheme.notBlank hnil
    have hrest := Text.afterWord_append hscheme.notBlank hnil
    rw [List.append_nil] at hword hrest
    rw [bearerToken?_of_isScheme htrim (by rwa [hword]), hrest]
    exact nonempty?_of_isBlankRun Text.isBlankRun_nil
  | unreadable hunreadable => exact absurd hvalue hunreadable

/-- A trimmed text carries a token in any padding, unless it is the bare scheme. -/
theorem IsToken.carries_or_isTokenless (hs : IsToken s) (hbefore : IsPadding before)
    (hafter : IsPadding after) :
    (∃ token, IsToken token ∧ Carries token (before ++ s ++ after)) ∨
      IsTokenless (before ++ s ++ after) := by
  by_cases hword : IsScheme (Text.firstWord s)
  · have hcut := Text.firstWord_append_afterWord s
    rcases hs.trimmed.afterWord_cases with hnil | ⟨gap, token, hgap, hne, htoken, hrest⟩
    · rw [hnil, List.append_nil] at hcut
      rw [hcut] at hword
      exact Or.inr (.scheme hbefore.blank hword hafter.blank)
    · rw [hrest] at hcut
      have hascii := hs.ascii
      rw [← hcut, isAscii_append_iff, isAscii_append_iff] at hascii
      obtain ⟨-, hgap', htoken'⟩ := hascii
      rw [← hcut]
      exact Or.inl ⟨token, ⟨htoken, htoken'⟩, .scheme hbefore hword ⟨hgap, hgap'⟩ hne hafter⟩
  · exact Or.inl ⟨s, hs, .bare hbefore hword hafter⟩

/-- Every value carries a token or none. -/
theorem carries_or_isTokenless (value : List Char) :
    (∃ token, IsToken token ∧ Carries token value) ∨ IsTokenless value := by
  by_cases hascii : IsAscii value
  · obtain ⟨before, after, hbefore, hafter, hvalue, htrimmed⟩ := Text.exists_trim value
    rw [hvalue, isAscii_append_iff, isAscii_append_iff] at hascii
    obtain ⟨⟨hbefore', hs⟩, hafter'⟩ := hascii
    rcases eq_or_ne (Text.trim value) [] with hnil | hne
    · rw [hnil, List.append_nil] at hvalue
      rw [hvalue]
      exact Or.inr (.blank (hbefore.append hafter))
    · rw [hvalue]
      exact IsToken.carries_or_isTokenless ⟨htrimmed hne, hs⟩ ⟨hbefore, hbefore'⟩ ⟨hafter, hafter'⟩
  · exact Or.inr (.unreadable hascii)

end

/-! ## The token in a header -/

section
variable {r : Request} {name token : String} {h : Header}

theorem readable?_of_isAscii (hvalue : IsAscii h.value.toList) :
    h.readable? = some h.value.toList := by
  unfold Header.readable?
  exact if_pos (List.all_eq_true.2 fun c hc => decide_eq_true (hvalue c hc))

theorem readable?_of_not_isAscii (hvalue : ¬ IsAscii h.value.toList) : h.readable? = none := by
  unfold Header.readable?
  refine if_neg fun hall => hvalue fun c hc => ?_
  exact of_decide_eq_true (List.all_eq_true.1 hall c hc)

theorem headerToken?_of_carries (hfirst : r.header? name = some h) (htoken : IsToken token.toList)
    (hcarries : Carries token.toList h.value.toList) : r.headerToken? name = some token := by
  rw [headerToken?, hfirst, Option.bind_some,
    readable?_of_isAscii (hcarries.isAscii htoken.ascii), Option.bind_some,
    hcarries.bearerToken?_eq htoken.trimmed, Option.map_some, String.ofList_toList]

theorem headerToken?_of_isTokenless (hfirst : r.header? name = some h)
    (hnone : IsTokenless h.value.toList) : r.headerToken? name = none := by
  rw [headerToken?, hfirst, Option.bind_some]
  by_cases hvalue : IsAscii h.value.toList
  · rw [readable?_of_isAscii hvalue, Option.bind_some, hnone.bearerToken?_eq hvalue]
    rfl
  · rw [readable?_of_not_isAscii hvalue]
    rfl

/-- The token in a header is the one that its value carries. -/
theorem headerToken?_eq_some_iff (hfirst : r.header? name = some h) :
    r.headerToken? name = some token ↔
      IsToken token.toList ∧ Carries token.toList h.value.toList := by
  refine ⟨fun hsome => ?_, fun ⟨htoken, hcarries⟩ => headerToken?_of_carries hfirst htoken hcarries⟩
  rcases carries_or_isTokenless h.value.toList with ⟨other, hother, hcarries⟩ | hnone
  · rw [← String.toList_ofList (l := other)] at hother hcarries
    have heq := hsome.symm.trans (headerToken?_of_carries hfirst hother hcarries)
    rw [Option.some.inj heq]
    exact ⟨hother, hcarries⟩
  · rw [headerToken?_of_isTokenless hfirst hnone] at hsome
    cases hsome

/-- There is no token in a header when its value carries none. -/
theorem headerToken?_eq_none_iff (hfirst : r.header? name = some h) :
    r.headerToken? name = none ↔ IsTokenless h.value.toList := by
  refine ⟨fun hnone => ?_, headerToken?_of_isTokenless hfirst⟩
  rcases carries_or_isTokenless h.value.toList with ⟨other, hother, hcarries⟩ | htokenless
  · rw [← String.toList_ofList (l := other)] at hother hcarries
    rw [headerToken?_of_carries hfirst hother hcarries] at hnone
    cases hnone
  · exact htokenless

/-! ## Headers without a token -/

/-- The request without the headers of a name. -/
def withoutHeader (r : Request) (name : String) : Request :=
  { r with headers := r.headers.filter fun x => !(Source.header name).holdsHeader x }

theorem header?_withoutHeader (r : Request) (name : String) :
    (r.withoutHeader name).header? name = none := by
  rw [header?_eq_find?, List.find?_eq_none]
  intro x hx
  obtain ⟨-, hother⟩ := List.mem_filter.1 hx
  rw [Bool.not_eq_true'] at hother
  exact Bool.eq_false_iff.1 hother

theorem agreeApart_withoutHeader (r : Request) (name : String) :
    AgreeApart [.header name] r (r.withoutHeader name) where
  headers := by
    rw [headersApart, headersApart, withoutHeader, List.filter_filter]
    refine List.filter_congr fun x _ => ?_
    rw [List.any_cons, List.any_nil, Bool.or_false, Bool.and_self]
  query := rfl

/-- Two names are names of the same header, or their headers are apart. -/
theorem canonicalName?_eq_or_apart (m n : String) :
    Header.canonicalName? m = Header.canonicalName? n ∨ (Source.header m).Apart (.header n) := by
  refine or_iff_not_imp_left.2 fun hne => ⟨fun x hm => ?_, fun _ hm => nomatch hm⟩
  refine Bool.eq_false_iff.2 fun hn => hne ?_
  exact (beq_iff_eq.1 hm).trans (beq_iff_eq.1 hn).symm

theorem headerToken?_congr {m n : String}
    (hname : Header.canonicalName? m = Header.canonicalName? n) (r : Request) :
    r.headerToken? m = r.headerToken? n := by
  rw [headerToken?, headerToken?, header?, header?, hname]

/-- No place gives another token after a header without a token is removed. -/
theorem tokenAt?_withoutHeader (hnone : r.headerToken? name = none) (source : Source) :
    r.tokenAt? source = (r.withoutHeader name).tokenAt? source := by
  have agree := agreeApart_withoutHeader r name
  cases source with
  | header other =>
    rcases canonicalName?_eq_or_apart other name with hname | hapart
    · rw [tokenAt?, tokenAt?, headerToken?_congr hname, headerToken?_congr hname, hnone,
        headerToken?, header?_withoutHeader]
      rfl
    · exact agree.tokenAt?_eq (List.forall_mem_singleton.2 hapart)
  | parameter other =>
    exact agree.tokenAt?_eq (List.forall_mem_singleton.2 (Source.parameter_apart_header other name))

/-- A header without a token counts as missing. -/
theorem token?_withoutHeader (hnone : r.headerToken? name = none) (names : List String) :
    r.token? names = (r.withoutHeader name).token? names := by
  rw [token?_eq_findSome?, token?_eq_findSome?, funext (tokenAt?_withoutHeader hnone)]

/-- Behind names that give no token, the token is that of the next name, if there is one. -/
theorem token?_append_cons {earlier : List String}
    (hearlier : ∀ other ∈ earlier, r.tokenUnder? other = none) (name : String)
    (later : List String) :
    r.token? (earlier ++ name :: later) = (r.tokenUnder? name).or (r.token? later) := by
  rw [token?, List.findSome?_append, List.findSome?_eq_none_iff.2 hearlier, Option.none_or,
    List.findSome?_cons, token?]
  cases r.tokenUnder? name <;> rfl

/-- What is located is not empty and has no blank at its ends. -/
theorem isTrimmed_of_token? {names : List String} (h : r.token? names = some token) :
    Text.IsTrimmed token.toList := by
  rw [token?_eq_findSome?] at h
  obtain ⟨source, -, hsource⟩ := List.exists_of_findSome?_eq_some h
  cases source with
  | header name =>
    rcases hfirst : r.header? name with _ | x
    · rw [tokenAt?, headerToken?, hfirst] at hsource
      cases hsource
    · exact ((headerToken?_eq_some_iff hfirst).1 hsource).1.trimmed
  | parameter name =>
    obtain ⟨value, -, hvalue⟩ := Option.bind_eq_some_iff.1 hsource
    obtain ⟨chars, hchars, rfl⟩ := Option.map_eq_some_iff.1 hvalue
    rw [String.toList_ofList]
    exact isTrimmed_of_nonempty? hchars

/-- **Header values are read back.** A value that carries a token is located as this token, behind
any names that give none. A header whose value carries no token counts as missing, whatever the
names, so that the query parameter of its name is used. Whatever is located in any request is not
empty and has no blank at its ends. -/
theorem header_values_read_back :
    (∀ (r : Request) (name : String) (h : Header), r.header? name = some h →
        (∀ (token : String) (earlier later : List String),
          IsToken token.toList → Carries token.toList h.value.toList →
          (∀ other ∈ earlier, r.tokenUnder? other = none) →
          r.token? (earlier ++ name :: later) = some token) ∧
        (IsTokenless h.value.toList →
          (∀ names, r.token? names = (r.withoutHeader name).token? names) ∧
            ∀ earlier later : List String, (∀ other ∈ earlier, r.tokenUnder? other = none) →
              r.token? (earlier ++ name :: later) = (r.queryToken? name).or (r.token? later))) ∧
      ∀ (r : Request) (names : List String) (token : String), r.token? names = some token →
        Text.IsTrimmed token.toList := by
  refine ⟨fun r name h hfirst => ⟨fun token earlier later htoken hcarries hearlier => ?_,
    fun hnone => ?_⟩, fun r names token => isTrimmed_of_token?⟩
  · rw [token?_append_cons hearlier, tokenUnder?,
      headerToken?_of_carries hfirst htoken hcarries]
    rfl
  · have hheader := (headerToken?_eq_none_iff hfirst).2 hnone
    refine ⟨token?_withoutHeader hheader, fun earlier later hearlier => ?_⟩
    rw [token?_append_cons hearlier, tokenUnder?, hheader, Option.none_or]

/-- A token that starts like the scheme is located whole behind the scheme, and a value that starts
with another word is located with this word. With nothing but the scheme in the header, the query
parameter of the name is used. -/
theorem header_and_query_located :
    let r : Request :=
      ⟨[⟨"authorization", "\t bEaReR \t Bearer x y "⟩, ⟨"token", " BEARER\t"⟩,
        ⟨"access_token", "Bearers x"⟩], [("token", " q ")]⟩
    r.header? "authorization" = some ⟨"authorization", "\t bEaReR \t Bearer x y "⟩ ∧
      r.token? ["absent", "authorization", "token"] = some "Bearer x y" ∧
      r.header? "token" = some ⟨"token", " BEARER\t"⟩ ∧
      r.token? ["absent", "token", "authorization"] = some "q" ∧
      r.header? "access_token" = some ⟨"access_token", "Bearers x"⟩ ∧
      r.token? ["access_token"] = some "Bearers x" ∧
      Text.IsTrimmed "q".toList := by
  intro r
  have hauthorization :
      r.header? "authorization" = some ⟨"authorization", "\t bEaReR \t Bearer x y "⟩ := by
    decide +kernel
  have htoken : r.header? "token" = some ⟨"token", " BEARER\t"⟩ := by decide +kernel
  have haccess : r.header? "access_token" = some ⟨"access_token", "Bearers x"⟩ := by decide +kernel
  have habsent : ∀ other ∈ ["absent"], r.tokenUnder? other = none := by decide +kernel
  have hscheme : Carries "Bearer x y".toList "\t bEaReR \t Bearer x y ".toList :=
    @Carries.scheme _ "\t ".toList "bEaReR".toList " \t ".toList " ".toList (by decide +kernel)
      (by decide +kernel) (by decide +kernel) (by decide +kernel) (by decide +kernel)
  have hbare : Carries "Bearers x".toList "Bearers x".toList :=
    @Carries.bare _ [] [] (by decide +kernel) (by decide +kernel) (by decide +kernel)
  have hnone : IsTokenless " BEARER\t".toList :=
    @IsTokenless.scheme " ".toList "BEARER".toList "\t".toList (by decide +kernel)
      (by decide +kernel) (by decide +kernel)
  obtain ⟨hlocated, htrimmed⟩ := header_values_read_back
  have hquery : r.token? ["absent", "token", "authorization"] = some "q" :=
    (((hlocated r "token" _ htoken).2 hnone).2 ["absent"] ["authorization"] habsent).trans
      (by decide +kernel)
  refine ⟨hauthorization, ?_, htoken, hquery, haccess, ?_, htrimmed r _ "q" hquery⟩
  · exact (hlocated r "authorization" _ hauthorization).1 "Bearer x y" ["absent"] ["token"]
      (by decide +kernel) hscheme habsent
  · exact (hlocated r "access_token" _ haccess).1 "Bearers x" [] [] (by decide +kernel) hbare
      (fun _ hother => absurd hother List.not_mem_nil)

end

end Request

end Clearance
