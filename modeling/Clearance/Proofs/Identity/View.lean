import Clearance.Json.Printer
import Clearance.Memory.World
import Clearance.Proofs.Session.Outcome
import Mathlib.Logic.Relation

/-!
# What a decision reads in a payload

A decision reads three sets of names and the role catalog, and nothing else of the payload
(`Payload.View`, `Condition.access_some`). So it is blind to every change that leaves the four
alone. `Payload.Change` lists such changes: in the arrays of names, in the other members of the user
claim, in the other claims and in the way the catalog is written. Each leaves the view as it is
(`Payload.Change.view_eq`), and so does any number of them, one after the other
(`decision_unchanged`).
-/

namespace Clearance

/-! ## Views -/

/-- What a decision reads in a payload. -/
structure Payload.View where
  /-- The departments. -/
  departments : NameSet
  /-- The roles. -/
  roles : NameSet
  /-- The scopes. -/
  scopes : NameSet
  /-- The role catalog in its order. -/
  hierarchy : Hierarchy
  deriving DecidableEq

/-- What a decision reads in the payload under the given names of claims. -/
def Payload.view (fields : ClaimFields) (p : Payload) : View where
  departments := ClaimSet.namesIn (p.claim? fields.userClaim) fields.departments
  roles := ClaimSet.namesIn (p.claim? fields.userClaim) fields.roles
  scopes := ClaimSet.namesIn (p.claim? fields.userClaim) fields.scopes
  hierarchy := .ofPayload p fields.hierarchyClaim

/-- The decision about a condition for what was read. -/
def Condition.accessOfView (c : Condition) (view : Payload.View) : Access :=
  .ofVerdict (c.evaluate ⟨none, view.departments, view.roles, view.scopes⟩ view.hierarchy)

/-- A decision about a payload depends on its view only. -/
theorem Condition.access_some (c : Condition) (config : AuthConfig) (p : Payload) :
    c.access config (some p) = c.accessOfView (p.view config.claims) := rfl

/-- The members of the user claim that hold the three sets. -/
def ClaimFields.setNames (fields : ClaimFields) : List String :=
  [fields.departments, fields.roles, fields.scopes]

/-! ## Changes to members -/

namespace Json

/-- A member under none of the kept names is added, removed or changed. -/
inductive EditsApart (kept : List String) :
    List (String × Json) → List (String × Json) → Prop where
  | add (before after : List (String × Json)) {name : String} (hname : name ∉ kept) (v : Json) :
      EditsApart kept (before ++ after) (before ++ (name, v) :: after)
  | remove (before after : List (String × Json)) {name : String} (hname : name ∉ kept) (v : Json) :
      EditsApart kept (before ++ (name, v) :: after) (before ++ after)
  | change (before after : List (String × Json)) {name : String} (hname : name ∉ kept)
      (v w : Json) :
      EditsApart kept (before ++ (name, v) :: after) (before ++ (name, w) :: after)

/-- The value of a member of the given name changes in the given way. -/
inductive ChangesAt (name : String) (change : Json → Json → Prop) :
    List (String × Json) → List (String × Json) → Prop where
  | member (before after : List (String × Json)) {v w : Json} (h : change v w) :
      ChangesAt name change (before ++ (name, v) :: after) (before ++ (name, w) :: after)

section
variable {name x : String} {ms ns : List (String × Json)}

/-- A member does not count for the look-up of another name. -/
theorem lookup_append_cons_of_ne (hne : x ≠ name) (before after : List (String × Json))
    (v : Json) : (before ++ (name, v) :: after).lookup x = (before ++ after).lookup x := by
  have hdiffer : (x == name) = false := beq_eq_false_iff_ne.2 hne
  rw [List.lookup_append, List.lookup_append, List.lookup_cons, hdiffer]

/-- A kept name is looked up as before. -/
theorem EditsApart.lookup_eq {kept : List String} (h : EditsApart kept ms ns) (hx : x ∈ kept) :
    ns.lookup x = ms.lookup x := by
  have hne : ∀ {name : String}, name ∉ kept → x ≠ name := fun hname e => hname (e ▸ hx)
  cases h with
  | add before after hname v => exact lookup_append_cons_of_ne (hne hname) before after v
  | remove before after hname v =>
    exact (lookup_append_cons_of_ne (hne hname) before after v).symm
  | change before after hname v w =>
    rw [lookup_append_cons_of_ne (hne hname), lookup_append_cons_of_ne (hne hname)]

section
variable {change : Json → Json → Prop}

/-- Another name is looked up as before. -/
theorem ChangesAt.lookup_of_ne (h : ChangesAt name change ms ns) (hne : x ≠ name) :
    ns.lookup x = ms.lookup x := by
  cases h with
  | member before after h => rw [lookup_append_cons_of_ne hne, lookup_append_cons_of_ne hne]

/-- What is read from the value as before the change is read from the member as before. -/
theorem ChangesAt.read_eq {α : Type} (read : Option Json → α) (h : ChangesAt name change ms ns)
    (hread : ∀ v w, change v w → read (some w) = read (some v)) (x : String) :
    read (ns.lookup x) = read (ms.lookup x) := by
  by_cases hx : x = name
  · subst hx
    cases h with
    | member before after h =>
      -- If the name comes earlier as well, the change is not even looked at.
      rw [List.lookup_append, List.lookup_append, List.lookup_cons_self, List.lookup_cons_self]
      cases before.lookup x with
      | none => exact hread _ _ h
      | some v => rfl
  · rw [h.lookup_of_ne hx]

end

end

/-! ## Changes to the claim sets -/

/-- The value is null or a container, which names nothing. -/
def IsNameless (v : Json) : Prop :=
  v = null ∨ (∃ items, v = array items) ∨ ∃ members, v = object members

/-- The value is written without quotes and names something: a number or a truth value. -/
def IsUnquoted (v : Json) : Prop := (∃ n, v = number n) ∨ ∃ b, v = bool b

/-- A change to an array of names. -/
inductive EditsNames : Json → Json → Prop where
  | permute {items items' : List Json} (h : items.Perm items') :
      EditsNames (array items) (array items')
  | repeated (before after : List Json) {v : Json} (hv : v ∈ before ++ after) :
      EditsNames (array (before ++ after)) (array (before ++ v :: after))
  | addNameless (before after : List Json) {v : Json} (hv : v.IsNameless) :
      EditsNames (array (before ++ after)) (array (before ++ v :: after))
  | quote (before after : List Json) {v : Json} (hv : v.IsUnquoted) :
      EditsNames (array (before ++ v :: after)) (array (before ++ text v.render :: after))

theorem IsNameless.scalarText_eq {v : Json} (hv : v.IsNameless) : v.scalarText = none := by
  rcases hv with rfl | ⟨items, rfl⟩ | ⟨members, rfl⟩ <;> rfl

/-- Numbers and truth values are named as they are written. -/
theorem IsUnquoted.scalarText_eq {v : Json} (hv : v.IsUnquoted) :
    v.scalarText = some v.render := by
  rcases hv with ⟨n, rfl⟩ | ⟨b, rfl⟩
  · simp [scalarText, Number.text, render, tokens, Token.chars]
  · cases b <;> rfl

/-- A change to the members of the user claim: in the array of one of the sets, or apart from the
sets. -/
inductive EditsUser (fields : ClaimFields) : Json → Json → Prop where
  | names {field : String} (hfield : field ∈ fields.setNames) {ms ns : List (String × Json)}
      (h : ChangesAt field EditsNames ms ns) : EditsUser fields (object ms) (object ns)
  | others {ms ns : List (String × Json)} (h : EditsApart fields.setNames ms ns) :
      EditsUser fields (object ms) (object ns)

/-- The names in an array. -/
def namesOf (v : Option Json) : NameSet :=
  .ofList (((v.bind items?).getD []).filterMap scalarText)

theorem namesOf_array (items : List Json) :
    namesOf (some (array items)) = .ofList (items.filterMap scalarText) := rfl

/-- Arrays with the same elements hold the same names, in whatever order and however often. -/
theorem namesOf_array_congr {items items' : List Json} (h : ∀ v, v ∈ items' ↔ v ∈ items) :
    namesOf (some (array items')) = namesOf (some (array items)) := by
  refine NameSet.ext fun name => ?_
  simp only [namesOf_array, NameSet.mem_ofList, List.mem_filterMap, h]

/-- Changes to an array of names leave the names as they are. -/
theorem EditsNames.namesOf_eq {v w : Json} (h : EditsNames v w) :
    namesOf (some w) = namesOf (some v) := by
  cases h with
  | permute h => exact namesOf_array_congr fun v => h.symm.mem_iff
  | repeated before after hv =>
    refine namesOf_array_congr fun u => ?_
    rw [List.mem_append] at hv ⊢
    grind
  | addNameless before after hv =>
    rw [namesOf_array, namesOf_array, List.filterMap_append, List.filterMap_append,
      List.filterMap_cons_none hv.scalarText_eq]
  | @quote before after v hv =>
    have hquoted : (text v.render).scalarText = some v.render := rfl
    rw [namesOf_array, namesOf_array, List.filterMap_append, List.filterMap_append,
      List.filterMap_cons_some hquoted, List.filterMap_cons_some hv.scalarText_eq]

/-- Changes to the user claim leave the three sets as they are. -/
theorem EditsUser.namesIn_eq {fields : ClaimFields} {v w : Json} (h : EditsUser fields v w)
    {field : String} (hfield : field ∈ fields.setNames) :
    ClaimSet.namesIn (some w) field = ClaimSet.namesIn (some v) field := by
  cases h with
  | names _ h => exact h.read_eq namesOf (fun _ _ => EditsNames.namesOf_eq) field
  | others h => exact congrArg namesOf (h.lookup_eq hfield)

/-! ## Changes to the catalog -/

/-- A change to the way a role catalog is written. -/
inductive EditsCatalog : Json → Json → Prop where
  | list (members : List (String × Json)) :
      EditsCatalog (object members) (array (members.map fun m => text m.1))
  | values {ms ns : List (String × Json)} (h : ns.map Prod.fst = ms.map Prod.fst) :
      EditsCatalog (object ms) (object ns)
  | insert (before after : List Json) {v : Json} (hv : ∀ s, v ≠ text s) :
      EditsCatalog (array (before ++ after)) (array (before ++ v :: after))

/-- The text that a value is, if it is one. -/
def text? : Json → Option String
  | text s => some s
  | _ => none

/-- The role names in a catalog: the names of an object, or the texts of an array. -/
def roleNames : Option Json → List String
  | some (object members) => members.map Prod.fst
  | some (array items) => items.filterMap text?
  | _ => []

/-- Changes to the way a catalog is written leave the role names and their order as they are. -/
theorem EditsCatalog.roleNames_eq {v w : Json} (h : EditsCatalog v w) :
    roleNames (some w) = roleNames (some v) := by
  cases h with
  | list members =>
    show (members.map fun m => text m.1).filterMap text? = members.map Prod.fst
    rw [List.filterMap_map]
    exact congrFun List.filterMap_eq_map members
  | values h => exact h
  | @insert before after v hv =>
    have hnone : text? v = none := by
      cases v with
      | text s => exact absurd rfl (hv s)
      | null | bool | number | array | object => rfl
    show (before ++ v :: after).filterMap text? = (before ++ after).filterMap text?
    rw [List.filterMap_append, List.filterMap_append, List.filterMap_cons_none hnone]

end Json

/-- The hierarchy of a payload has the role names of its catalog. -/
theorem Hierarchy.ofPayload_eq (p : Payload) (claim : String) :
    ofPayload p claim = ⟨Json.roleNames (p.claim? claim)⟩ := by
  unfold ofPayload Json.roleNames
  cases p.claim? claim with
  | none => rfl
  | some v => cases v <;> rfl

/-! ## Changes to a payload -/

namespace Payload

/-- A change to a payload that no decision sees, under the given names of claims: to the claim sets,
to the way the catalog is written, or to a claim apart from the two, be it the identity claim. -/
inductive Change (fields : ClaimFields) (p q : Payload) : Prop where
  | user (h : Json.ChangesAt fields.userClaim (Json.EditsUser fields) p.claims q.claims)
  | catalog (h : Json.ChangesAt fields.hierarchyClaim Json.EditsCatalog p.claims q.claims)
  | others (h : Json.EditsApart [fields.userClaim, fields.hierarchyClaim] p.claims q.claims)

section
variable {fields : ClaimFields} {p q : Payload}

/-- Payloads that agree in the three sets and the role names have one view. -/
theorem view_congr
    (hnames : ∀ field ∈ fields.setNames, ClaimSet.namesIn (q.claim? fields.userClaim) field =
      ClaimSet.namesIn (p.claim? fields.userClaim) field)
    (hroles : Json.roleNames (q.claim? fields.hierarchyClaim) =
      Json.roleNames (p.claim? fields.hierarchyClaim)) : q.view fields = p.view fields := by
  unfold view
  rw [Hierarchy.ofPayload_eq, Hierarchy.ofPayload_eq, hroles,
    hnames fields.departments (by simp [ClaimFields.setNames]),
    hnames fields.roles (by simp [ClaimFields.setNames]),
    hnames fields.scopes (by simp [ClaimFields.setNames])]

/-- A change leaves the view as it is, if the user claim is not the catalog. -/
theorem Change.view_eq (hne : fields.userClaim ≠ fields.hierarchyClaim) (h : Change fields p q) :
    q.view fields = p.view fields := by
  cases h with
  | user h =>
    refine view_congr (fun field hfield => ?_) (congrArg _ (h.lookup_of_ne hne.symm))
    exact h.read_eq (ClaimSet.namesIn · field) (fun _ _ hedit => hedit.namesIn_eq hfield)
      fields.userClaim
  | catalog h =>
    refine view_congr (fun field _ => ?_) ?_
    · exact congrArg (ClaimSet.namesIn · field) (h.lookup_of_ne hne)
    · exact h.read_eq Json.roleNames (fun _ _ => Json.EditsCatalog.roleNames_eq)
        fields.hierarchyClaim
  | others h =>
    refine view_congr (fun field _ => ?_) ?_
    · exact congrArg (ClaimSet.namesIn · field) (h.lookup_eq (by simp))
    · exact congrArg Json.roleNames (h.lookup_eq (by simp))

/-- Any number of changes leave the view as it is. -/
theorem view_eq_of_changes (hne : fields.userClaim ≠ fields.hierarchyClaim)
    (h : Relation.ReflTransGen (Change fields) p q) : q.view fields = p.view fields := by
  induction h with
  | refl => rfl
  | tail _ hlast ih => exact (hlast.view_eq hne).trans ih

end

end Payload

/-! ## Decisions -/

namespace Session

variable {W : Type} {peers : Collaborators W} {config : AuthConfig} {s t : Session W}

/-- A session that holds a payload checks a condition on what a decision reads in it. -/
theorem userHasCondition_of_payload {p : Payload} (hs : s.payload = some p)
    (condition : Condition) (guardPrefix : Option String) :
    (s.perform peers config (.userHasCondition condition guardPrefix)).1 =
      .access (condition.accessOfView (p.view config.claims)) := by
  have hguarded : (s.setGuard config guardPrefix).payload = some p := hs
  show Answer.access (condition.access config
    ((s.setGuard config guardPrefix).resolvePayload peers).1) = _
  rw [resolvePayload_of_some hguarded, Condition.access_some]

/-- **A decision depends on the claim sets and the order of the catalog only.** Where the user claim
is not the catalog, sessions that hold a payload before and after any number of changes decide alike
about every condition under every guard. -/
theorem decision_unchanged (hne : config.claims.userClaim ≠ config.claims.hierarchyClaim)
    {p q : Payload} (hchanges : Relation.ReflTransGen (Payload.Change config.claims) p q)
    (hs : s.payload = some p) (ht : t.payload = some q) (condition : Condition)
    (guardPrefix : Option String) :
    ∃ decision,
      (s.perform peers config (.userHasCondition condition guardPrefix)).1 = .access decision ∧
        (t.perform peers config (.userHasCondition condition guardPrefix)).1 =
          .access decision := by
  refine ⟨_, userHasCondition_of_payload hs condition guardPrefix, ?_⟩
  rw [userHasCondition_of_payload ht, Payload.view_eq_of_changes hne hchanges]

/-- A payload with the role `7` as a number, a catalog object and an identity is granted what one is
granted with the roles the other way round, `7` as a text, a null in a catalog array and no
identity. -/
theorem rewritten_payload_granted :
    (((ofConfig .standard (Memory.ofRequest default true)).setPayload
          ⟨[("authId", .text "u-1"),
            ("user", .object [("roles", .array [.text "lead", .number (.whole ⟨7, by decide,
              by decide⟩)])]),
            ("roles", .object [("member", .null), ("lead", .null)])]⟩).perform
        Memory.peers .standard (.userHasCondition (.parse "*:lead-&7:*") none)).1 =
      .access .granted ∧
    (((ofConfig .standard (Memory.ofRequest default true)).setPayload
          ⟨[("user", .object [("roles", .array [.text "7", .text "lead"])]),
            ("roles", .array [.text "member", .null, .text "lead"])]⟩).perform
        Memory.peers .standard (.userHasCondition (.parse "*:lead-&7:*") none)).1 =
      .access .granted := by
  have hboth : ∀ {a b : Answer}, (∃ decision, a = .access decision ∧ b = .access decision) →
      a = .access .granted → a = .access .granted ∧ b = .access .granted := by
    rintro a b ⟨decision, rfl, rfl⟩ hgranted
    exact ⟨hgranted, hgranted⟩
  refine hboth (decision_unchanged (by decide) ?_ rfl rfl (.parse "*:lead-&7:*") none) ?_
  · refine .head (.user (.member [_] [_] (.names (by decide)
      (.member [] [] (.quote [_] [] (.inl ⟨_, rfl⟩)))))) ?_
    refine .head (.user (.member [_] [_] (.names (by decide)
      (.member [] [] (.permute (.swap _ _ _)))))) ?_
    refine .head (.catalog (.member [_, _] [] (.list _))) ?_
    refine .head (.catalog (.member [_, _] [] (.insert [_] [_] (v := .null) nofun))) ?_
    exact .single (.others (.remove [] [_, _] (by decide) _))
  · exact (userHasCondition_of_payload rfl _ none).trans (congrArg _ (by decide +kernel))

end Session

end Clearance
