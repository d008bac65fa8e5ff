import Clearance.Memory.Records

/-!
# Records by their history

Records in memory are inserted and looked up in any order (`Records.Step`). A lookup changes nothing
but the count of lookups (`principals_run`, `lookups_run`), so that its answer is a function of the
insertions before it: the earliest record that is wanted, shown with the relations that were asked
for (`find_eq_some_iff`). `answers_by_insertion` says what follows for finds, repeated names and
later insertions.
-/

namespace Clearance

/-! ## Keys -/

/-- How a scalar is written as a lookup key. -/
inductive Json.IsKey : Json → String → Prop where
  | text (s : String) : IsKey (.text s) s
  | number (n : Number) : IsKey (.number n) n.text
  | true : IsKey (.bool true) "true"
  | false : IsKey (.bool false) "false"

theorem Json.scalarText_eq_some_iff {v : Json} {key : String} :
    v.scalarText = some key ↔ v.IsKey key := by
  constructor
  · intro h
    cases v with
    | text s => exact Option.some.inj h ▸ .text s
    | number n => exact Option.some.inj h ▸ .number n
    | bool b =>
      cases b with
      | true => exact Option.some.inj h ▸ .true
      | false => exact Option.some.inj h ▸ .false
    | null => cases h
    | array items => cases h
    | object members => cases h
  · rintro (s | n | _ | _) <;> rfl

namespace Records

/-! ## Steps -/

/-- What is done with the records. -/
inductive Step where
  /-- A record is inserted. -/
  | insert (p : Principal)
  /-- A record is looked up. -/
  | find (wanted : Lookup)
  deriving DecidableEq

/-- The records after a step. -/
def step (r : Records) : Step → Records
  | .insert p => r.insert p
  | .find wanted => (r.find wanted).2

/-- The records after a history of steps. -/
def run (r : Records) (history : List Step) : Records := history.foldl step r

/-- The record that a step inserts. -/
def Step.inserted? : Step → Option Principal
  | insert p => some p
  | find _ => none

/-- The step is a lookup. -/
def Step.isFind : Step → Bool
  | insert _ => false
  | find _ => true

/-- The records that were inserted, the earliest first. -/
def insertions (history : List Step) : List Principal := history.filterMap Step.inserted?

/-! ## What is found -/

/-- The record is of the wanted model, and its attribute of the wanted field has the wanted key. -/
structure IsWanted (wanted : Lookup) (p : Principal) : Prop where
  model : p.model = wanted.model
  key : ∃ value, p.attributes.lookup wanted.field = some value ∧ value.IsKey wanted.value

/-- A stored record is shown with all its attributes, and with those of its relations whose names
are asked for. -/
structure ShownAs (names : List String) (stored shown : Principal) : Prop where
  model : shown.model = stored.model
  attributes : shown.attributes = stored.attributes
  relations : ∀ e, e ∈ shown.relations.entries ↔ e ∈ stored.relations.entries ∧ e.1 ∈ names

section
variable {r : Records} {wanted : Lookup} {p u : Principal} {names : List String}

theorem fits_iff : fits wanted p = true ↔ IsWanted wanted p := by
  rw [fits, Bool.and_eq_true, beq_iff_eq, beq_iff_eq, Principal.attributeKey?,
    Option.bind_eq_some_iff]
  simp only [Json.scalarText_eq_some_iff]
  exact ⟨fun ⟨hmodel, hkey⟩ => ⟨hmodel, hkey⟩, fun h => ⟨h.model, h.key⟩⟩

theorem project_eq_iff : project names p = u ↔ ShownAs names p u := by
  constructor
  · rintro rfl
    exact ⟨rfl, rfl, fun e => Relations.mem_only⟩
  · intro h
    have hrelations : p.relations.only names = u.relations :=
      Relations.ext fun e => Relations.mem_only.trans (h.relations e).symm
    rw [project, hrelations, ← h.model, ← h.attributes]

/-- The record found is the earliest one that is wanted. -/
theorem find?_fits_eq_some_iff :
    r.principals.find? (fits wanted) = some p ↔
      ∃ earlier later, r.principals = earlier ++ p :: later ∧
        (∀ q ∈ earlier, ¬ IsWanted wanted q) ∧ IsWanted wanted p := by
  have hmiss : ∀ q, (!fits wanted q) = true ↔ ¬ IsWanted wanted q := by
    intro q
    rw [Bool.not_eq_true', ← Bool.not_eq_true, fits_iff]
  rw [List.find?_eq_some_iff_append, fits_iff]
  simp only [hmiss]
  constructor
  · rintro ⟨hp, earlier, later, hcut, hearlier⟩
    exact ⟨earlier, later, hcut, hearlier, hp⟩
  · rintro ⟨earlier, later, hcut, hearlier, hp⟩
    exact ⟨hp, earlier, later, hcut, hearlier⟩

/-- A lookup shows the earliest record that is wanted. -/
theorem find_eq_some_iff :
    (r.find wanted).1 = some u ↔
      ∃ earlier p later, r.principals = earlier ++ p :: later ∧
        (∀ q ∈ earlier, ¬ IsWanted wanted q) ∧ IsWanted wanted p ∧
          ShownAs wanted.relations p u := by
  rw [find, Option.map_eq_some_iff]
  simp only [find?_fits_eq_some_iff, project_eq_iff]
  constructor
  · rintro ⟨p, ⟨earlier, later, hcut, hearlier, hp⟩, hshown⟩
    exact ⟨earlier, p, later, hcut, hearlier, hp, hshown⟩
  · rintro ⟨earlier, p, later, hcut, hearlier, hp, hshown⟩
    exact ⟨p, ⟨earlier, later, hcut, hearlier, hp⟩, hshown⟩

theorem find_eq_none_iff :
    (r.find wanted).1 = none ↔ ∀ p ∈ r.principals, ¬ IsWanted wanted p := by
  rw [find, Option.map_eq_none_iff, List.find?_eq_none]
  simp only [fits_iff]

/-- Only the records count for what is found. -/
theorem find_congr {r' : Records} (same : r.principals = r'.principals) :
    (r.find wanted).1 = (r'.find wanted).1 := by
  rw [find, find, same]

/-- The order and the repetition of the relations that are asked for do not count. -/
theorem find_of_same_relations (same : ∀ name, name ∈ names ↔ name ∈ wanted.relations) :
    (r.find { wanted with relations := names }).1 = (r.find wanted).1 := by
  have hproject : project names = project wanted.relations := by
    funext p
    rw [project_eq_iff]
    exact ⟨rfl, rfl, fun e => Relations.mem_only.trans (and_congr_right fun _ => (same e.1).symm)⟩
  exact congrArg (Option.map · (r.principals.find? (fits wanted))) hproject

/-! ## What a history leaves -/

theorem principals_step (r : Records) (s : Step) :
    (r.step s).principals = r.principals ++ s.inserted?.toList := by
  cases s with
  | insert p => rfl
  | find wanted => exact (List.append_nil _).symm

theorem lookups_step (r : Records) (s : Step) :
    (r.step s).lookups = r.lookups + if s.isFind then 1 else 0 := by
  cases s with
  | insert p => rfl
  | find wanted => rfl

/-- After a history there are the records that were there and those inserted, in this order. -/
theorem principals_run (r : Records) (history : List Step) :
    (r.run history).principals = r.principals ++ insertions history := by
  induction history generalizing r with
  | nil => exact (List.append_nil _).symm
  | cons s history ih =>
    rw [run, List.foldl_cons, ← run, ih, principals_step, List.append_assoc, insertions, insertions,
      List.filterMap_cons]
    cases s.inserted? <;> rfl

/-- Every lookup of a history is counted. -/
theorem lookups_run (r : Records) (history : List Step) :
    (r.run history).lookups = r.lookups + history.countP Step.isFind := by
  induction history generalizing r with
  | nil => rfl
  | cons s history ih =>
    rw [run, List.foldl_cons, ← run, ih, lookups_step, List.countP_cons, Nat.add_assoc,
      Nat.add_comm (if s.isFind then 1 else 0)]

/-- What was found once is found again, whatever is inserted later. -/
theorem find_run_of_eq_some (h : (r.find wanted).1 = some u) (later : List Step) :
    ((r.run later).find wanted).1 = some u := by
  obtain ⟨earlier, p, rest, hcut, hearlier, hp, hshown⟩ := find_eq_some_iff.1 h
  refine find_eq_some_iff.2 ⟨earlier, p, rest ++ insertions later, ?_, hearlier, hp, hshown⟩
  rw [principals_run, hcut, List.append_assoc, List.cons_append]

end

/-- **Records answer by insertion.** After any history of insertions and lookups a lookup shows the
earliest inserted record of the wanted model with the wanted key, with all its attributes and with
those of its relations whose names are asked for, and nothing if there is no such record. Histories
with the same insertions give the same answer, whatever was looked up, and so do lists of relations
with the same names. An answer stays the same through all further steps. As many lookups are counted
as the history has. -/
theorem answers_by_insertion (history : List Step) (wanted : Lookup) :
    let r := empty.run history
    (∀ u, (r.find wanted).1 = some u ↔
        ∃ earlier p later, insertions history = earlier ++ p :: later ∧
          (∀ q ∈ earlier, ¬ IsWanted wanted q) ∧ IsWanted wanted p ∧
            ShownAs wanted.relations p u) ∧
      ((r.find wanted).1 = none ↔ ∀ p ∈ insertions history, ¬ IsWanted wanted p) ∧
      (∀ history', insertions history' = insertions history →
        ((empty.run history').find wanted).1 = (r.find wanted).1) ∧
      (∀ names, (∀ name, name ∈ names ↔ name ∈ wanted.relations) →
        (r.find { wanted with relations := names }).1 = (r.find wanted).1) ∧
      (∀ later u, (r.find wanted).1 = some u → ((r.run later).find wanted).1 = some u) ∧
      r.lookups = history.countP Step.isFind := by
  intro r
  have hprincipals : ∀ h, (empty.run h).principals = insertions h := fun h => principals_run empty h
  refine ⟨fun u => ?_, ?_, fun history' same => ?_, fun names => find_of_same_relations,
    fun later u h => find_run_of_eq_some h later, ?_⟩
  · rw [find_eq_some_iff, hprincipals]
  · rw [find_eq_none_iff, hprincipals]
  · apply find_congr
    rw [hprincipals, hprincipals, same]
  · rw [lookups_run]
    exact Nat.zero_add _

/-- The record whose `id` is the truth value is found under the key `true`, also after one whose
`id` is the text is inserted. The lookup in between and a relation asked for twice change nothing. -/
theorem truth_found_again :
    let u : Principal := ⟨"User", [("id", .bool true)], .ofPairs [("team", .null)]⟩
    let wanted : Lookup := ⟨"User", "id", "true", ["team"]⟩
    let history : List Step := [.insert u, .find ⟨"User", "id", "true", []⟩]
    let r := empty.run history
    (r.find wanted).1 = some u ∧
      ((empty.run [.insert u]).find wanted).1 = (r.find wanted).1 ∧
      (r.find { wanted with relations := ["team", "team"] }).1 = (r.find wanted).1 ∧
      ((r.run [.insert ⟨"User", [("id", .text "true")], .empty⟩]).find wanted).1 = some u := by
  intro u wanted history r
  have hfound : (r.find wanted).1 = some u := by decide +kernel
  obtain ⟨-, -, hfinds, hnames, hlater, -⟩ := answers_by_insertion history wanted
  refine ⟨hfound, hfinds _ rfl, hnames _ fun name => ?_, hlater _ _ hfound⟩
  simp [wanted]

end Records

end Clearance
