import Clearance.Json.Printer

/-!
# Drafts

A `Draft` is the tree that a text describes from its start to the first place where it stops
being JSON. There the innermost open container ends with a broken item or member, and the
containers around it end with it. So a reader that goes through a draft from left to right meets
the first fault of the text where the text has it, whether that fault is a wrong shape or broken
JSON.

A number too large for a double and a text in which a surrogate has no partner are still there,
without a value, because neither matters in a value that is passed over.
-/

namespace Clearance.Json

/-- The tree of a text as far as it is JSON. -/
inductive Draft where
  | null
  | bool (b : Bool)
  /-- A number; none if it is too large for a double. -/
  | number (n : Option Number)
  /-- A quoted text; none if a surrogate in it has no partner. -/
  | text (s : Option String)
  | array (items : List Draft)
  /-- The members; a name is none if a surrogate in it has no partner or if no name stands there. -/
  | object (members : List (Option String × Draft))
  /-- The text stops being JSON here. -/
  | broken

namespace Draft

instance : Inhabited Draft := ⟨broken⟩

/-! ## Growing a draft token by token -/

/-- A container that is still open, with its finished contents in reverse. -/
inductive Frame where
  /-- An array that awaits its next item. -/
  | array (items : List Draft)
  /-- An object that awaits the value of the given name. -/
  | object (members : List (Option String × Draft)) (name : Option String)

/-- How far a text has been read. -/
inductive Stage where
  /-- A value comes next; the frames are the open containers, innermost first. -/
  | value (frames : List Frame)
  /-- An item of an array has ended. -/
  | item (frames : List Frame) (items : List Draft)
  /-- The name of a member comes next. -/
  | key (frames : List Frame) (members : List (Option String × Draft))
  /-- The colon after a name comes next. -/
  | colon (frames : List Frame) (members : List (Option String × Draft)) (name : Option String)
  /-- A member of an object has ended. -/
  | member (frames : List Frame) (members : List (Option String × Draft))
  /-- The tree has ended; the flag says that nothing was wrong and nothing has followed. -/
  | ended (root : Draft) (clean : Bool)

/-- Puts a finished value into the innermost open container. -/
def Stage.place : List Frame → Draft → Stage
  | [], d => .ended d true
  | .array items :: frames, d => .item frames (d :: items)
  | .object members name :: frames, d => .member frames ((name, d) :: members)

/-- Ends all open containers with the given innermost value. -/
def Frame.close : List Frame → Draft → Draft
  | [], d => d
  | .array items :: frames, d => close frames (.array (d :: items).reverse)
  | .object members name :: frames, d => close frames (.object ((name, d) :: members).reverse)

/-- The tree when the text is no longer JSON. -/
def Stage.abandon : Stage → Draft
  | .value frames => Frame.close frames .broken
  | .item frames items => Frame.close frames (.array (.broken :: items).reverse)
  | .key frames members => Frame.close frames (.object ((none, .broken) :: members).reverse)
  | .colon frames members name => Frame.close frames (.object ((name, .broken) :: members).reverse)
  | .member frames members => Frame.close frames (.object ((none, .broken) :: members).reverse)
  | .ended root _ => root

/-- Takes in one token. -/
def Stage.step : Stage → Token → Stage
  | .value frames, .null => place frames .null
  | .value frames, .bool b => place frames (.bool b)
  | .value frames, .number l => place frames (.number l.value?)
  | .value frames, .text s => place frames (.text s)
  | .value frames, .openArray => .value (.array [] :: frames)
  | .value frames, .openObject => .key frames []
  | .value (.array [] :: frames), .closeArray => place frames (.array [])
  | .item frames items, .comma => .value (.array items :: frames)
  | .item frames items, .closeArray => place frames (.array items.reverse)
  | .key frames members, .text s => .colon frames members s
  | .key frames [], .closeObject => place frames (.object [])
  | .colon frames members name, .colon => .value (.object members name :: frames)
  | .member frames members, .comma => .key frames members
  | .member frames members, .closeObject => place frames (.object members.reverse)
  | stage, _ => .ended stage.abandon false

/-- What a whole text describes. -/
structure Document where
  /-- The value the text starts with. -/
  root : Draft
  /-- The value is intact and nothing follows it. -/
  clean : Bool

/-- The document of a list of tokens. -/
def ofTokens (tokens : List Token) : Document :=
  match tokens.foldl Stage.step (.value []) with
  | .ended root clean => ⟨root, clean⟩
  | stage => ⟨stage.abandon, false⟩

/-- The document of a text. -/
def ofText (s : String) : Document := ofTokens (Token.scan s.toList)

/-! ## Values of drafts -/

mutual

/-- The draft has no broken part. -/
def intact : Draft → Bool
  | array items => itemsIntact items
  | object members => membersIntact members
  | broken => false
  | _ => true

/-- No item has a broken part. -/
def itemsIntact : List Draft → Bool
  | [] => true
  | d :: rest => d.intact && itemsIntact rest

/-- No member has a broken part. -/
def membersIntact : List (Option String × Draft) → Bool
  | [] => true
  | (_, d) :: rest => d.intact && membersIntact rest

end

mutual

/-- The value of a draft with at most `room` containers nested in one another. There is none if a
part is broken, a number is too large, a surrogate has no partner or the room does not suffice. -/
def value? (room : Nat) : Draft → Option Json
  | null => some .null
  | bool b => some (.bool b)
  | number n => n.map .number
  | text s => s.map .text
  | array items =>
    match room with
    | 0 => none
    | room + 1 => (itemValues? room items).map .array
  | object members =>
    match room with
    | 0 => none
    | room + 1 => (memberValues? room members []).map .object
  | broken => none

/-- The values of the items. -/
def itemValues? (room : Nat) : List Draft → Option (List Json)
  | [] => some []
  | d :: rest =>
    match value? room d, itemValues? room rest with
    | some v, some vs => some (v :: vs)
    | _, _ => none

/-- The members with their values put to the members before them. -/
def memberValues? (room : Nat) :
    List (Option String × Draft) → List (String × Json) → Option (List (String × Json))
  | [], before => some before
  | (some name, d) :: rest, before =>
    match value? room d with
    | some v => memberValues? room rest (putMember name v before)
    | none => none
  | (none, _) :: _, _ => none

end

end Draft

/-- The value of a text, however deeply it is nested. -/
def ofText? (s : String) : Option Json :=
  let document := Draft.ofText s
  if document.clean then document.root.value? s.length else none

end Clearance.Json
