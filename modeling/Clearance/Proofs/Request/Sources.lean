import Clearance.Request.Locator
import Mathlib.Data.List.Basic
import Mathlib.Data.List.Find

/-!
# Where a token can stand

For each candidate name a token is looked for in the header and then in the query parameter of that
name (`Request.sources`), and the first of these places that holds one decides
(`Request.token?_eq_findSome?`). Names of headers are compared without regard to case and those of
query parameters as they are, so that two places are apart when their names differ in lower case
(`Source.apart_of_toLower_ne`). Requests that agree apart from some places (`Request.AgreeApart`)
give the same token at every place that is apart from these (`Request.AgreeApart.tokenAt?_eq`).
-/

namespace Clearance

/-! ## Lower case -/

theorem Text.toList_toLower (s : String) : s.toLower.toList = s.toList.map Char.toLower :=
  String.toList_map

theorem Text.toLower_append (s t : String) : (s ++ t).toLower = s.toLower ++ t.toLower := by
  apply String.toList_inj.1
  simp only [toList_toLower, String.toList_append, List.map_append]

/-- The canonical form of a header name is the name in lower case. -/
theorem Header.toLower_of_canonicalName? {name canonical : String}
    (h : canonicalName? name = some canonical) : name.toLower = canonical := by
  unfold canonicalName? at h
  dsimp only at h
  split at h
  · apply String.toList_inj.1
    rw [← Option.some.inj h, String.toList_ofList, Text.toList_toLower]
  · cases h

/-! ## Places -/

/-- A place in a request where a token is looked for. -/
inductive Source where
  /-- The header of a name. -/
  | header (name : String)
  /-- The query parameter of a name. -/
  | parameter (name : String)
  deriving DecidableEq

namespace Source

/-- The name that is looked up. -/
def name : Source → String
  | header name => name
  | parameter name => name

/-- The header stands at the place. -/
def holdsHeader : Source → Header → Bool
  | header name, x => Header.canonicalName? name == some x.name
  | parameter _, _ => false

/-- The query parameter stands at the place. -/
def holdsParameter : Source → String × String → Bool
  | header _, _ => false
  | parameter name, q => name == q.1

/-- No header and no query parameter stands at both places. -/
structure Apart (a b : Source) : Prop where
  header : ∀ x, a.holdsHeader x = true → b.holdsHeader x = false
  parameter : ∀ q, a.holdsParameter q = true → b.holdsParameter q = false

section
variable {a b : Source}

theorem toLower_name_of_holdsHeader {x : Header} (ha : a.holdsHeader x = true) :
    a.name.toLower = x.name := by
  cases a with
  | header name => exact Header.toLower_of_canonicalName? (beq_iff_eq.1 ha)
  | parameter name => cases ha

theorem name_of_holdsParameter {q : String × String} (ha : a.holdsParameter q = true) :
    a.name = q.1 := by
  cases a with
  | header name => cases ha
  | parameter name => exact beq_iff_eq.1 ha

/-- Places are apart when their names differ in more than the case of letters. -/
theorem apart_of_toLower_ne (hne : a.name.toLower ≠ b.name.toLower) : a.Apart b where
  header x ha := by
    refine Bool.eq_false_iff.2 fun hb => hne ?_
    rw [toLower_name_of_holdsHeader ha, toLower_name_of_holdsHeader hb]
  parameter q ha := by
    refine Bool.eq_false_iff.2 fun hb => hne ?_
    rw [name_of_holdsParameter ha, name_of_holdsParameter hb]

/-- A header is no query parameter, also when the names are the same. -/
theorem header_apart_parameter (m n : String) : (header m).Apart (parameter n) where
  header _ _ := rfl
  parameter _ ha := nomatch ha

theorem parameter_apart_header (m n : String) : (parameter m).Apart (header n) where
  header _ ha := nomatch ha
  parameter _ _ := rfl

end

end Source

namespace Request

/-! ## Places in their order -/

/-- The places of candidate names in the order in which they are looked at. -/
def sources (names : List String) : List Source :=
  names.flatMap fun name => [.header name, .parameter name]

/-- The token at a place. -/
def tokenAt? (r : Request) : Source → Option String
  | .header name => r.headerToken? name
  | .parameter name => r.queryToken? name

section
variable {r r' : Request} {names : List String} {token : String}

/-- The first place that holds a token decides. -/
theorem token?_eq_findSome? (r : Request) (names : List String) :
    r.token? names = (sources names).findSome? r.tokenAt? := by
  have hunder : ∀ name, [Source.header name, .parameter name].findSome? r.tokenAt? =
      r.tokenUnder? name := by
    intro name
    simp only [List.findSome?_cons, List.findSome?_nil, tokenAt?, tokenUnder?]
    cases r.headerToken? name <;> cases r.queryToken? name <;> rfl
  induction names with
  | nil => rfl
  | cons name names ih =>
    rw [sources, List.flatMap_cons, List.findSome?_append, hunder, ← sources, ← ih, token?, token?,
      List.findSome?_cons]
    cases r.tokenUnder? name <;> rfl

/-- The token of a request is the one at a place before which there is none. -/
theorem token?_of_cut {earlier later : List Source} {source : Source}
    (hcut : sources names = earlier ++ source :: later)
    (hnone : ∀ other ∈ earlier, r.tokenAt? other = none)
    (hsome : r.tokenAt? source = some token) : r.token? names = some token := by
  rw [token?_eq_findSome?, List.findSome?_eq_some_iff]
  exact ⟨earlier, source, later, hcut, hsome, hnone⟩

theorem name_of_mem_pair {name : String} {source : Source}
    (h : source ∈ [Source.header name, .parameter name]) : source.name = name := by
  rcases List.mem_pair.1 h with rfl | rfl
  · rfl
  · rfl

theorem name_mem_of_mem_sources {source : Source} (h : source ∈ sources names) :
    source.name ∈ names := by
  obtain ⟨name, hname, hsource⟩ := List.mem_flatMap.1 h
  rwa [name_of_mem_pair hsource]

/-- All places of names that differ in more than case are apart from one another. -/
theorem pairwise_apart_sources (hnames : names.Pairwise fun m n => m.toLower ≠ n.toLower) :
    (sources names).Pairwise Source.Apart := by
  refine List.pairwise_flatMap.2 ⟨fun name _ => ?_, hnames.imp fun {m n} hne a ha b hb => ?_⟩
  · exact List.pairwise_pair.2 (Source.header_apart_parameter name name)
  · apply Source.apart_of_toLower_ne
    rwa [name_of_mem_pair ha, name_of_mem_pair hb]

end

/-! ## Requests that agree apart from some places -/

/-- The headers that stand at none of the places. -/
def headersApart (r : Request) (changed : List Source) : List Header :=
  r.headers.filter fun x => !changed.any (·.holdsHeader x)

/-- The query parameters that stand at none of the places. -/
def queryApart (r : Request) (changed : List Source) : List (String × String) :=
  r.query.filter fun q => !changed.any (·.holdsParameter q)

/-- The requests agree but for headers and query parameters at the given places. There, any number of
them may be added, removed or changed. -/
structure AgreeApart (changed : List Source) (r r' : Request) : Prop where
  headers : r.headersApart changed = r'.headersApart changed
  query : r.queryApart changed = r'.queryApart changed

instance (changed : List Source) (r r' : Request) : Decidable (AgreeApart changed r r') :=
  decidable_of_iff
    (r.headersApart changed = r'.headersApart changed ∧
      r.queryApart changed = r'.queryApart changed)
    ⟨fun ⟨hh, hq⟩ => ⟨hh, hq⟩, fun ⟨hh, hq⟩ => ⟨hh, hq⟩⟩

/-- The first header of a name is the first one that stands at its place. -/
theorem header?_eq_find? (r : Request) (name : String) :
    r.header? name = r.headers.find? (Source.header name).holdsHeader := by
  unfold header?
  cases hname : Header.canonicalName? name with
  | none =>
    refine (List.find?_eq_none.2 fun x _ hx => ?_).symm
    rw [Source.holdsHeader, hname] at hx
    cases hx
  | some canonical =>
    refine List.find?_congr fun x _ => ?_
    rw [Source.holdsHeader, hname, Bool.eq_iff_iff, beq_iff_eq, beq_iff_eq, Option.some_inj,
      eq_comm]

/-- The last query parameter of a name is the last one that stands at its place. -/
theorem parameter?_eq_find? (r : Request) (name : String) :
    r.parameter? name =
      (r.query.reverse.find? (Source.parameter name).holdsParameter).map Prod.snd := by
  unfold parameter?
  induction r.query.reverse with
  | nil => rfl
  | cons q query ih =>
    rw [List.lookup_cons, List.find?_cons, ih, Source.holdsParameter]
    cases name == q.1 <;> rfl

/-- Lists that agree on the elements that are kept agree on the first one that is looked for, if all
that may be looked for are kept. -/
theorem find?_eq_of_filter_eq {α : Type _} {keep p : α → Bool} {l l' : List α}
    (hkeep : ∀ x, p x = true → keep x = true) (hsame : l.filter keep = l'.filter keep) :
    l.find? p = l'.find? p := by
  have hamong : ∀ m : List α, (m.filter keep).find? p = m.find? p := by
    intro m
    rw [List.find?_filter]
    refine List.find?_congr fun x _ => ?_
    rw [Bool.eq_iff_iff, decide_eq_true_iff]
    exact and_iff_right_of_imp (hkeep x)
  rw [← hamong l, hsame, hamong l']

section
variable {r r' : Request} {changed : List Source}

theorem AgreeApart.header?_eq (agree : AgreeApart changed r r') {name : String}
    (hapart : ∀ other ∈ changed, (Source.header name).Apart other) :
    r.header? name = r'.header? name := by
  rw [header?_eq_find?, header?_eq_find?]
  refine find?_eq_of_filter_eq (fun x hx => ?_) agree.headers
  rw [Bool.not_eq_true', List.any_eq_false]
  intro other hother
  exact Bool.eq_false_iff.1 ((hapart other hother).header x hx)

theorem AgreeApart.parameter?_eq (agree : AgreeApart changed r r') {name : String}
    (hapart : ∀ other ∈ changed, (Source.parameter name).Apart other) :
    r.parameter? name = r'.parameter? name := by
  have hquery : r.query.reverse.filter (fun q => !changed.any (·.holdsParameter q)) =
      r'.query.reverse.filter (fun q => !changed.any (·.holdsParameter q)) := by
    rw [List.filter_reverse, List.filter_reverse]
    exact congrArg List.reverse agree.query
  rw [parameter?_eq_find?, parameter?_eq_find?]
  refine congrArg (Option.map Prod.snd) (find?_eq_of_filter_eq (fun q hq => ?_) hquery)
  rw [Bool.not_eq_true', List.any_eq_false]
  intro other hother
  exact Bool.eq_false_iff.1 ((hapart other hother).parameter q hq)

/-- A place that is apart from the changed ones gives the same token. -/
theorem AgreeApart.tokenAt?_eq (agree : AgreeApart changed r r') {source : Source}
    (hapart : ∀ other ∈ changed, source.Apart other) : r.tokenAt? source = r'.tokenAt? source := by
  cases source with
  | header name => rw [tokenAt?, tokenAt?, headerToken?, headerToken?, agree.header?_eq hapart]
  | parameter name => rw [tokenAt?, tokenAt?, queryToken?, queryToken?, agree.parameter?_eq hapart]

/-- Names whose places are all apart from the changed ones give the same token. -/
theorem AgreeApart.token?_eq (agree : AgreeApart changed r r') {names : List String}
    (hapart : ∀ source ∈ sources names, ∀ other ∈ changed, source.Apart other) :
    r.token? names = r'.token? names := by
  rw [token?_eq_findSome?, token?_eq_findSome?, ← List.head?_filterMap, ← List.head?_filterMap,
    List.filterMap_congr fun source hsource => agree.tokenAt?_eq (hapart source hsource)]

/-- Behind the place that gives the token, changes do not count. -/
theorem AgreeApart.token?_of_cut {names : List String} {earlier later : List Source}
    {source : Source} {token : String} (hnames : names.Pairwise fun m n => m.toLower ≠ n.toLower)
    (hcut : sources names = earlier ++ source :: later)
    (hnone : ∀ other ∈ earlier, r.tokenAt? other = none)
    (hsome : r.tokenAt? source = some token) (agree : AgreeApart later r r') :
    r'.token? names = some token := by
  have hpair := pairwise_apart_sources hnames
  rw [hcut, List.pairwise_append, List.pairwise_cons] at hpair
  obtain ⟨-, ⟨hsource, -⟩, hearlier⟩ := hpair
  refine Request.token?_of_cut hcut (fun other hother => ?_) ?_
  · rw [← agree.tokenAt?_eq fun b hb => hearlier other hother b (List.mem_cons_of_mem _ hb)]
    exact hnone other hother
  · rw [← agree.tokenAt?_eq hsource, hsome]

end

end Request

end Clearance
