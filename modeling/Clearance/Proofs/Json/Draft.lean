import Clearance.Json.Draft
import Clearance.Proofs.Json.Scan

/-!
# Drafts of compact text

The tokens of a value grow the draft that `Json.draft` gives, whichever containers are open around
it (`foldl_step_tokens`), so the compact text of a value is a clean document with this draft
(`ofText_render`). If no object names a member twice and there is room for its containers, the draft
has the value that was written (`value?_draft`).
-/

namespace Clearance.Json

open Draft (Frame Stage)

mutual

/-- The draft of a value. -/
def draft : Json → Draft
  | null => .null
  | bool b => .bool b
  | number n => .number (some n)
  | text s => .text (some s)
  | array items => .array (itemDrafts items)
  | object members => .object (memberDrafts members)

/-- The drafts of items. -/
def itemDrafts : List Json → List Draft
  | [] => []
  | v :: rest => v.draft :: itemDrafts rest

/-- The drafts of members. -/
def memberDrafts : List (String × Json) → List (Option String × Draft)
  | [] => []
  | (name, v) :: rest => (some name, v.draft) :: memberDrafts rest

end

/-! ## Tokens grow the draft -/

mutual

/-- The tokens of a value put its draft where a value is awaited. -/
theorem foldl_step_tokens : ∀ (v : Json) (frames : List Frame), v.Integral →
    v.tokens.foldl Stage.step (.value frames) = .place frames v.draft
  | .null, _, _ => rfl
  | .bool _, _, _ => rfl
  | .number (.whole n), frames, _ => by
    show Stage.place frames (.number (Number.whole n).literal.value?) = _
    rw [Literal.value?_whole]
    rfl
  | .number (.double _), _, h => h.elim
  | .text _, _, _ => rfl
  | .array [], _, _ => rfl
  | .array (v :: items), frames, h => by
    rw [tokens, List.foldl_cons, List.foldl_append]
    show (itemTokens items).foldl Stage.step
      (v.tokens.foldl Stage.step (.value (.array [] :: frames))) = _
    rw [foldl_step_tokens v _ h.1]
    exact foldl_step_itemTokens items frames [v.draft] h.2
  | .object [], _, _ => rfl
  | .object ((name, v) :: members), frames, h => by
    rw [tokens, List.foldl_cons, List.foldl_cons, List.foldl_cons, List.foldl_append]
    show (memberTokens members).foldl Stage.step
      (v.tokens.foldl Stage.step (.value (.object [] (some name) :: frames))) = _
    rw [foldl_step_tokens v _ h.1]
    exact foldl_step_memberTokens members frames [(some name, v.draft)] h.2

/-- The tokens of further items end the array with them. -/
theorem foldl_step_itemTokens : ∀ (items : List Json) (frames : List Frame) (before : List Draft),
    ItemsIntegral items →
    (itemTokens items).foldl Stage.step (.item frames before) =
      .place frames (.array (before.reverse ++ itemDrafts items))
  | [], frames, before, _ => by
    rw [itemDrafts, List.append_nil]
    rfl
  | v :: items, frames, before, h => by
    rw [itemTokens, List.foldl_cons, List.foldl_append]
    show (itemTokens items).foldl Stage.step
      (v.tokens.foldl Stage.step (.value (.array before :: frames))) = _
    rw [foldl_step_tokens v _ h.1]
    refine (foldl_step_itemTokens items frames (v.draft :: before) h.2).trans ?_
    rw [List.reverse_cons, List.append_assoc]
    rfl

/-- The tokens of further members end the object with them. -/
theorem foldl_step_memberTokens : ∀ (members : List (String × Json)) (frames : List Frame)
    (before : List (Option String × Draft)), MembersIntegral members →
    (memberTokens members).foldl Stage.step (.member frames before) =
      .place frames (.object (before.reverse ++ memberDrafts members))
  | [], frames, before, _ => by
    rw [memberDrafts, List.append_nil]
    rfl
  | (name, v) :: members, frames, before, h => by
    rw [memberTokens, List.foldl_cons, List.foldl_cons, List.foldl_cons, List.foldl_append]
    show (memberTokens members).foldl Stage.step
      (v.tokens.foldl Stage.step (.value (.object before (some name) :: frames))) = _
    rw [foldl_step_tokens v _ h.1]
    refine (foldl_step_memberTokens members frames ((some name, v.draft) :: before) h.2).trans ?_
    rw [List.reverse_cons, List.append_assoc]
    rfl

end

/-- **The compact text of a value is a clean document.** -/
theorem ofText_render {v : Json} (h : v.Integral) : Draft.ofText v.render = ⟨v.draft, true⟩ := by
  rw [Draft.ofText, scan_render h, Draft.ofTokens, foldl_step_tokens v [] h]
  rfl

/-! ## The value of a draft -/

/-- A member of a new name is set at the end. -/
theorem putMember_of_notMem {name : String} {value : Json} {members : List (String × Json)}
    (hnew : name ∉ members.map Prod.fst) :
    putMember name value members = members ++ [(name, value)] := by
  induction members with
  | nil => rfl
  | cons m rest ih =>
    rw [List.map_cons, List.mem_cons, not_or] at hnew
    rw [putMember, if_neg (Ne.symm hnew.1), ih hnew.2, List.cons_append]

mutual

/-- **The draft of a value has that value.** -/
theorem value?_draft : ∀ (v : Json) (room : Nat), v.Distinct → v.depth ≤ room →
    v.draft.value? room = some v
  | .null, _, _, _ => rfl
  | .bool _, _, _, _ => rfl
  | .number _, _, _, _ => rfl
  | .text _, _, _, _ => rfl
  | .array items, 0, _, hdepth => absurd hdepth (Nat.not_succ_le_zero _)
  | .array items, room + 1, hdistinct, hdepth => by
    rw [draft, Draft.value?,
      itemValues?_itemDrafts items room hdistinct (Nat.le_of_succ_le_succ hdepth)]
    rfl
  | .object members, 0, _, hdepth => absurd hdepth (Nat.not_succ_le_zero _)
  | .object members, room + 1, hdistinct, hdepth => by
    rw [draft, Draft.value?, memberValues?_memberDrafts members room [] hdistinct.1 hdistinct.2
      (Nat.le_of_succ_le_succ hdepth)]
    rfl

/-- The drafts of items have these values. -/
theorem itemValues?_itemDrafts : ∀ (items : List Json) (room : Nat), ItemsDistinct items →
    itemsDepth items ≤ room → Draft.itemValues? room (itemDrafts items) = some items
  | [], _, _, _ => rfl
  | v :: items, room, hdistinct, hdepth => by
    rw [itemsDepth, Nat.max_le] at hdepth
    rw [itemDrafts, Draft.itemValues?, value?_draft v room hdistinct.1 hdepth.1,
      itemValues?_itemDrafts items room hdistinct.2 hdepth.2]

/-- The drafts of members of new names are put after the members before them. -/
theorem memberValues?_memberDrafts : ∀ (members : List (String × Json)) (room : Nat)
    (before : List (String × Json)), ((before ++ members).map Prod.fst).Nodup →
    MembersDistinct members → membersDepth members ≤ room →
    Draft.memberValues? room (memberDrafts members) before = some (before ++ members)
  | [], _, before, _, _, _ => by
    rw [memberDrafts, Draft.memberValues?, List.append_nil]
  | (name, v) :: members, room, before, hnodup, hdistinct, hdepth => by
    rw [membersDepth, Nat.max_le] at hdepth
    have hsplit : before ++ (name, v) :: members = (before ++ [(name, v)]) ++ members := by
      rw [List.append_assoc]
      rfl
    have hnew : name ∉ before.map Prod.fst := by
      intro hname
      rw [List.map_append, List.map_cons, List.nodup_append] at hnodup
      exact hnodup.2.2 name hname name List.mem_cons_self rfl
    rw [memberDrafts, Draft.memberValues?, value?_draft v room hdistinct.1 hdepth.1]
    show Draft.memberValues? room (memberDrafts members) (putMember name v before) = _
    rw [hsplit] at hnodup ⊢
    rw [putMember_of_notMem hnew,
      memberValues?_memberDrafts members room _ hnodup hdistinct.2 hdepth.2]

end

end Clearance.Json
