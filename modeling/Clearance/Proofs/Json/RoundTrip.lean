import Clearance.Config
import Clearance.Identity.Payload
import Clearance.Identity.Principal
import Clearance.Policy.Access
import Clearance.Proofs.Json.Draft

/-!
# What is written is read back

Whether a value survives being written and read is a matter of its draft, since the compact text
gives this draft whatever the type is (`decode_of_read_draft`). So the types are gone through one by
one on drafts only: every field that is written is read into its place, and one that is left out
has its default. `decode_encode` puts them together.
-/

namespace Clearance

open Json Json.Draft

/-! ## Readers -/

namespace Json.Draft

/-- Written texts are read back. -/
theorem readTexts_draft (names : List String) :
    (Json.array (names.map .text)).draft.readTexts = .ok names := by
  show (itemDrafts (names.map Json.text)).mapM readText = .ok names
  induction names with
  | nil => rfl
  | cons name names ih =>
    rw [List.map_cons, itemDrafts, List.mapM_cons, ih]
    rfl

/-- Members that fit between the containers around them are read back. -/
theorem readMembers_draft {members : List (String × Json)} {outer : Nat}
    (hdistinct : (Json.object members).Distinct)
    (hdepth : (Json.object members).depth + outer ≤ maxNesting) :
    (Json.object members).draft.readMembers outer = .ok members := by
  have hvalue : (Json.object members).draft.value? (maxNesting - outer) = some (.object members) :=
    value?_draft _ _ hdistinct (by omega)
  rw [draft] at hvalue ⊢
  rw [readMembers, hvalue]

section
variable {α : Type} {shape : RecordShape α} {members : List (Option String × Draft)}
variable {given : List String} {a b : α}

/-- A member with the name of a field sets the field. -/
theorem readNamed_cons {fields : List (Field α)} {field : Field α} {name : String} {d : Draft}
    (hfield : fields.find? (·.name == name) = some field) (hnew : name ∉ given)
    (hset : field.set d a = .ok b) :
    readNamed fields ((some name, d) :: members) given a =
      readNamed fields members (name :: given) b := by
  rw [readNamed, hfield]
  simp only [if_neg hnew, hset]

/-- An object whose members are read is the record if no required one is missing. -/
theorem readRecord_object
    (hnamed : readNamed shape.fields members [] shape.initial = .ok (given, a))
    (hrequired : ∀ name ∈ shape.required, name ∈ given) :
    readRecord shape (.object members) = .ok a := by
  have hmissing : shape.required.find? (· ∉ given) = none := by
    rw [List.find?_eq_none]
    intro name hname
    simpa using hrequired name hname
  rw [readRecord, hnamed]
  simp only [bind, Except.bind, hmissing]
  rfl

end

end Json.Draft

/-! ## Relations -/

/-- An element whose key comes after all others is put at the end. -/
theorem insertByKey_of_last {α : Type _} {key : α → String} {a : α} {l : List α}
    (hlast : ∀ b ∈ l, key b < key a) : insertByKey key a l = l ++ [a] := by
  induction l with
  | nil => rfl
  | cons b l ih =>
    have hb : key b < key a := hlast b List.mem_cons_self
    rw [insertByKey, if_neg (String.lt_asymm hb), if_pos hb,
      ih fun x hx => hlast x (List.mem_cons_of_mem _ hx)]
    rfl

namespace Relations

/-- Relations whose names come after those already set are set in their order. -/
theorem entries_foldl_insert {l : List (String × Json)} {r : Relations}
    (h : Increasing Prod.fst (r.entries ++ l)) :
    (l.foldl (fun r p => r.insert p.1 p.2) r).entries = r.entries ++ l := by
  induction l generalizing r with
  | nil => exact (List.append_nil _).symm
  | cons p l ih =>
    have hlast : ∀ b ∈ r.entries, b.1 < p.1 := fun b hb =>
      (List.pairwise_append.1 h).2.2 b hb p List.mem_cons_self
    have hentries : (r.insert p.1 p.2).entries = r.entries ++ [p] := insertByKey_of_last hlast
    have hsplit : r.entries ++ p :: l = (r.insert p.1 p.2).entries ++ l := by
      rw [hentries, List.append_assoc]
      rfl
    rw [hsplit] at h ⊢
    exact ih h

/-- Relations are those of their entries. -/
theorem ofPairs_entries (r : Relations) : ofPairs r.entries = r := by
  have hentries : (ofPairs r.entries).entries = r.entries :=
    entries_foldl_insert (r := empty) r.increasing
  exact ext fun e => by rw [hentries]

end Relations

/-! ## Types -/

/-- A value that the text can carry: no object names a member twice, all numbers are integers, and
at most 127 containers are nested in one another. -/
structure Json.Plain (v : Json) : Prop where
  distinct : v.Distinct
  integral : v.Integral
  depth_le : v.depth ≤ 127

theorem Payload.read_draft {p : Payload} (h : (Codec.toJson p).Plain) :
    Codec.read (Codec.toJson p).draft = .ok p := by
  have hmembers : (Json.object p.claims).draft.readMembers 0 = .ok p.claims :=
    readMembers_draft h.distinct h.depth_le
  show ((Json.object p.claims).draft.readMembers 0).map Payload.mk = .ok p
  rw [hmembers]
  rfl

theorem Principal.read_draft {u : Principal} (h : (Codec.toJson u).Plain) :
    Codec.read (Codec.toJson u).draft = .ok u := by
  obtain ⟨⟨-, -, hattributes, hrelations, -⟩, -, hdepth⟩ := h
  have hmembers : membersDepth
      [ ("model", .text u.model), ("attributes", .object u.attributes),
        ("relations", .object u.relations.entries) ] ≤ 126 :=
    Nat.le_of_succ_le_succ hdepth
  simp only [membersDepth, Nat.max_le] at hmembers
  obtain ⟨-, hattributesDepth, hrelationsDepth, -⟩ := hmembers
  have hreadAttributes : (Json.object u.attributes).draft.readMembers 1 = .ok u.attributes :=
    readMembers_draft hattributes (Nat.succ_le_succ hattributesDepth)
  have hreadRelations : (Json.object u.relations.entries).draft.readMembers 1 =
      .ok u.relations.entries :=
    readMembers_draft hrelations (Nat.succ_le_succ hrelationsDepth)
  have hset : ((Json.object u.relations.entries).draft.readMembers 1).map
      (fun m => { u with relations := Relations.ofPairs m }) = .ok u := by
    rw [hreadRelations]
    exact congrArg (fun r => Except.ok { u with relations := r }) u.relations.ofPairs_entries
  have hnamed : readNamed shape.fields
      (memberDrafts
        [ ("model", .text u.model), ("attributes", .object u.attributes),
          ("relations", .object u.relations.entries) ]) [] shape.initial =
      .ok (["relations", "attributes", "model"], u) := by
    simp only [memberDrafts]
    rw [readNamed_cons (b := ofModel u.model) rfl (by decide) rfl,
      readNamed_cons (b := { ofModel u.model with attributes := u.attributes }) rfl (by decide)
        (congrArg (Except.map _) hreadAttributes),
      readNamed_cons (b := u) rfl (by decide) hset]
    rfl
  exact readRecord_object hnamed (by decide)

theorem Hierarchy.read_draft (h : Hierarchy) : Codec.read (Codec.toJson h).draft = .ok h := by
  show (Json.array (h.roles.map .text)).draft.readTexts.map Hierarchy.mk = .ok h
  rw [readTexts_draft]
  rfl

theorem ClaimFields.read_draft (f : ClaimFields) : Codec.read (Codec.toJson f).draft = .ok f :=
  rfl

theorem AuthConfig.read_draft (c : AuthConfig) : Codec.read (Codec.toJson c).draft = .ok c := by
  obtain ⟨identityClaim, storeKey, principalModel, claims, defaultGuard⟩ := c
  cases defaultGuard <;> rfl

theorem Violation.read_draft (v : Violation) : Codec.read (Codec.toJson v).draft = .ok v := by
  cases v <;> rfl

theorem Access.read_draft (a : Access) : Codec.read (Codec.toJson a).draft = .ok a := by
  rcases a with _ | _ | reason
  · rfl
  · rfl
  · cases reason <;> rfl

/-! ## Texts -/

theorem Json.itemsIntegral_texts (names : List String) : ItemsIntegral (names.map .text) := by
  induction names with
  | nil => trivial
  | cons name names ih => exact ⟨trivial, ih⟩

theorem ClaimFields.integral_toJson (f : ClaimFields) : (Codec.toJson f).Integral :=
  ⟨trivial, trivial, trivial, trivial, trivial, trivial⟩

theorem AuthConfig.integral_toJson (c : AuthConfig) : (Codec.toJson c).Integral := by
  obtain ⟨identityClaim, storeKey, principalModel, claims, defaultGuard⟩ := c
  cases defaultGuard with
  | none => exact ⟨trivial, trivial, trivial, claims.integral_toJson, trivial⟩
  | some g => exact ⟨trivial, trivial, trivial, claims.integral_toJson, trivial, trivial⟩

theorem Access.integral_toJson (a : Access) : (Codec.toJson a).Integral := by
  cases a with
  | granted => exact ⟨trivial, trivial⟩
  | unauthenticated => exact ⟨trivial, trivial⟩
  | denied reason => exact ⟨trivial, trivial, trivial⟩

namespace Codec

variable {α : Type} [Codec α] {a : α}

/-- A text is read back if the draft of its value is. -/
theorem decode_of_read_draft (hintegral : (toJson a).Integral)
    (hread : read (toJson a).draft = .ok a) : decode (encode a) = .ok a := by
  rw [decode, encode, ofText_render hintegral]
  simp only [hread, bind, Except.bind, if_true]
  rfl

/-- **Decoding undoes encoding.** A payload and a principal whose values the text can carry are
decoded from their compact text, with all members in their order. So are every hierarchy, every
choice of claim names, every access decision and every violation, whatever their texts are. A
configuration is decoded as well, and as a configuration text it is taken or refused as it is valid
or not. -/
theorem decode_encode :
    (∀ p : Payload, (toJson p).Plain → decode (encode p) = .ok p) ∧
      (∀ u : Principal, (toJson u).Plain → decode (encode u) = .ok u) ∧
      (∀ h : Hierarchy, decode (encode h) = .ok h) ∧
      (∀ f : ClaimFields, decode (encode f) = .ok f) ∧
      (∀ a : Access, decode (encode a) = .ok a) ∧
      (∀ v : Violation, decode (encode v) = .ok v) ∧
      ∀ c : AuthConfig, decode (encode c) = .ok c ∧
        AuthConfig.ofText (encode c) = c.validate.map fun _ => c := by
  have hconfig : ∀ c : AuthConfig, decode (encode c) = .ok c := fun c =>
    decode_of_read_draft c.integral_toJson c.read_draft
  refine ⟨fun p h => ?_, fun u h => ?_, fun h => ?_, fun f => ?_, fun a => ?_, fun v => ?_,
    fun c => ⟨hconfig c, ?_⟩⟩
  · exact decode_of_read_draft h.integral (Payload.read_draft h)
  · exact decode_of_read_draft h.integral (Principal.read_draft h)
  · exact decode_of_read_draft (itemsIntegral_texts h.roles) h.read_draft
  · exact decode_of_read_draft f.integral_toJson f.read_draft
  · exact decode_of_read_draft a.integral_toJson a.read_draft
  · exact decode_of_read_draft trivial v.read_draft
  · rw [AuthConfig.ofText, hconfig]

/-- A payload with nested containers, the least and the greatest integer, a control character, a
quote, a backslash and letters beyond ASCII is decoded, and a principal that has it among its
relations. -/
theorem nested_payload_decoded :
    let claims : List (String × Json) :=
      [ ("sub", .text "Zo\u00eb \"\\ \x01\n"),
        ("user", .object
          [ ("roles", .array [.text "\u03b1|\u03b2", .text "", .null]),
            ("departments", .array [.bool true, .array [], .object []]) ]),
        ("exp", .number (.whole ⟨18446744073709551615, by decide, by decide⟩)),
        ("iat", .number (.whole ⟨-9223372036854775808, by decide, by decide⟩)) ]
    let p : Payload := ⟨claims⟩
    let u : Principal :=
      ((Principal.ofModel "User").withAttribute "auth_id" (.text "u-1")).withRelation "token"
        (.object claims)
    (toJson p).Plain ∧ (toJson u).Plain ∧
      decode (encode p) = .ok p ∧ decode (encode u) = .ok u := by
  intro claims p u
  have hclaims : (Json.object claims).Distinct := by
    simp [claims, Distinct, MembersDistinct, ItemsDistinct]
  have hintegral : (Json.object claims).Integral :=
    ⟨trivial, ⟨⟨trivial, trivial, trivial, trivial⟩, ⟨trivial, trivial, trivial, trivial⟩, trivial⟩,
      trivial, trivial, trivial⟩
  have hp : (toJson p).Plain := ⟨hclaims, hintegral, by decide⟩
  have hu : (toJson u).Plain :=
    { distinct := ⟨by decide, trivial, ⟨by decide, trivial, trivial⟩, ⟨by decide, hclaims, trivial⟩,
        trivial⟩
      integral := ⟨trivial, ⟨trivial, trivial⟩, ⟨hintegral, trivial⟩, trivial⟩
      depth_le := by decide }
  exact ⟨hp, hu, decode_encode.1 p hp, decode_encode.2.1 u hu⟩

end Codec

end Clearance
