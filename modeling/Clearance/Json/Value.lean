import Clearance.Json.Number

/-!
# JSON values

An object keeps its members in order. `putMember` is how a member gets into one: a repeated name
keeps its first position and takes the last value. An object built that way names no member
twice (`nodup_putMember`).
-/

namespace Clearance

/-- A JSON value. -/
inductive Json where
  | null
  | bool (b : Bool)
  | number (n : Number)
  | text (s : String)
  | array (items : List Json)
  | object (members : List (String × Json))

namespace Json

instance : Inhabited Json := ⟨null⟩

/-! ## Equality -/

mutual

/-- The values are equal. -/
def same : Json → Json → Bool
  | null, null => true
  | bool a, bool b => a == b
  | number a, number b => a == b
  | text a, text b => a == b
  | array as, array bs => sameItems as bs
  | object as, object bs => sameMembers as bs
  | _, _ => false

/-- The items are equal, one by one. -/
def sameItems : List Json → List Json → Bool
  | [], [] => true
  | a :: as, b :: bs => same a b && sameItems as bs
  | _, _ => false

/-- The members are equal, one by one. -/
def sameMembers : List (String × Json) → List (String × Json) → Bool
  | [], [] => true
  | (m, a) :: as, (n, b) :: bs => m == n && same a b && sameMembers as bs
  | _, _ => false

end

mutual

theorem same_iff : ∀ {v w : Json}, same v w = true ↔ v = w
  | null, w => by cases w <;> simp [same]
  | bool a, w => by cases w <;> simp [same]
  | number a, w => by cases w <;> simp [same]
  | text a, w => by cases w <;> simp [same]
  | array as, w => by cases w <;> simp [same, sameItems_iff]
  | object as, w => by cases w <;> simp [same, sameMembers_iff]

theorem sameItems_iff : ∀ {as bs : List Json}, sameItems as bs = true ↔ as = bs
  | [], bs => by cases bs <;> simp [sameItems]
  | a :: as, bs => by cases bs <;> simp [sameItems, same_iff, sameItems_iff]

theorem sameMembers_iff : ∀ {as bs : List (String × Json)}, sameMembers as bs = true ↔ as = bs
  | [], bs => by cases bs <;> simp [sameMembers]
  | (m, a) :: as, bs => by
    cases bs <;> simp [sameMembers, same_iff, sameMembers_iff, Prod.ext_iff]

end

instance : DecidableEq Json := fun _ _ => decidable_of_iff _ same_iff

/-! ## Members -/

/-- Sets the member of a name, at its place if the name is there and at the end if not. -/
def putMember (name : String) (value : Json) : List (String × Json) → List (String × Json)
  | [] => [(name, value)]
  | m :: rest =>
    if m.1 = name then (name, value) :: rest else m :: putMember name value rest

/-- The member list of the given pairs, in which a later pair replaces the value of an earlier
one. -/
def ofPairs (pairs : List (String × Json)) : List (String × Json) :=
  pairs.foldl (fun members p => putMember p.1 p.2 members) []

/-- The member of an object with the given name; nothing else has members. -/
def member? : Json → String → Option Json
  | object members, name => members.lookup name
  | _, _ => none

/-- The items of an array; nothing else has items. -/
def items? : Json → Option (List Json)
  | array items => some items
  | _ => none

/-- The text of a scalar: texts verbatim, numbers and truth values as they are written. Null and
containers have none. -/
def scalarText : Json → Option String
  | text s => some s
  | number n => some n.text
  | bool true => some "true"
  | bool false => some "false"
  | _ => none

mutual

/-- How many containers are nested in one another. -/
def depth : Json → Nat
  | array items => itemsDepth items + 1
  | object members => membersDepth members + 1
  | _ => 0

/-- The greatest depth of an item. -/
def itemsDepth : List Json → Nat
  | [] => 0
  | v :: rest => max v.depth (itemsDepth rest)

/-- The greatest depth of a member. -/
def membersDepth : List (String × Json) → Nat
  | [] => 0
  | (_, v) :: rest => max v.depth (membersDepth rest)

end

mutual

/-- No object in the value names a member twice. -/
def Distinct : Json → Prop
  | array items => ItemsDistinct items
  | object members => (members.map Prod.fst).Nodup ∧ MembersDistinct members
  | _ => True

/-- Every item is distinct in its names. -/
def ItemsDistinct : List Json → Prop
  | [] => True
  | v :: rest => v.Distinct ∧ ItemsDistinct rest

/-- Every member is distinct in its names. -/
def MembersDistinct : List (String × Json) → Prop
  | [] => True
  | (_, v) :: rest => v.Distinct ∧ MembersDistinct rest

end

theorem mem_names_putMember {name : String} {value : Json} {members : List (String × Json)}
    {x : String} : x ∈ (putMember name value members).map Prod.fst ↔
      x = name ∨ x ∈ members.map Prod.fst := by
  induction members with
  | nil => simp [putMember]
  | cons m rest ih =>
    rw [putMember]
    split
    · next same => simp [same]
    · simp only [List.map_cons, List.mem_cons, ih]
      grind

/-- The value of a name after it is set. -/
@[simp]
theorem lookup_putMember_self {name : String} {value : Json} {members : List (String × Json)} :
    (putMember name value members).lookup name = some value := by
  induction members with
  | nil => simp [putMember]
  | cons m rest ih =>
    rw [putMember]
    split
    · simp
    · next other => rw [List.lookup_cons, beq_eq_false_iff_ne.2 (Ne.symm other), ih]

/-- Setting a name leaves the values of the others. -/
theorem lookup_putMember_of_ne {name x : String} {value : Json} {members : List (String × Json)}
    (other : x ≠ name) : (putMember name value members).lookup x = members.lookup x := by
  have differ : (x == name) = false := beq_eq_false_iff_ne.2 other
  induction members with
  | nil => rw [putMember, List.lookup_cons, differ]
  | cons m rest ih =>
    rw [putMember]
    split
    · next same => rw [List.lookup_cons, List.lookup_cons, differ, same, differ]
    · rw [List.lookup_cons, ih, List.lookup_cons]

/-- Setting a member repeats no name. -/
theorem nodup_putMember {name : String} {value : Json} {members : List (String × Json)}
    (h : (members.map Prod.fst).Nodup) : ((putMember name value members).map Prod.fst).Nodup := by
  induction members with
  | nil => simp [putMember]
  | cons m rest ih =>
    obtain ⟨fresh, h⟩ := List.nodup_cons.1 h
    rw [putMember]
    split
    · next same => exact List.nodup_cons.2 ⟨same ▸ fresh, h⟩
    · next other =>
      refine List.nodup_cons.2 ⟨fun hm => ?_, ih h⟩
      exact (mem_names_putMember.1 hm).elim other fresh

end Json

end Clearance
