import OverrideCheck.Json.Document
import OverrideCheck.Json.Value

/-!
# What documents stand for

A document that holds no fault and no fraction stands for a value: the value is what is left when
the places are taken away. This ties the two ends of the library together, the values that are
written and the documents that are read.

* `Document.StandsFor` — a document and the value it stands for;
* `Value.depth` — how many containers are open at once in the text of a value;
* `Value.InRange` — every integer of a value is one that a reader keeps as an integer.
-/

namespace OverrideCheck.Json

mutual

/-- A document stands for a value, wherever its parts are placed. -/
inductive Document.StandsFor : Document → Value → Prop
  | null (start stop : Nat) : Document.StandsFor (.literal start stop (.ok .null)) .null
  | boolean (start stop : Nat) (value : Bool) :
    Document.StandsFor (.literal start stop (.ok (.boolean value))) (.boolean value)
  | integer (start stop : Nat) (value : Int) :
    Document.StandsFor (.literal start stop (.ok (.number (.integer value)))) (.integer value)
  | string (start stop : Nat) (text : String) :
    Document.StandsFor (.string start stop (.ok text)) (.string text)
  | array (start : Nat) {items : Items} {values : List Value} (h : Items.StandFor items values) :
    Document.StandsFor (.array start items) (.array values)
  | object (start : Nat) {members : Members} {values : List (String × Value)}
    (h : Members.StandFor members values) :
    Document.StandsFor (.object start members) (.object values)

/-- The items of a list stand for values, one by one. -/
inductive Items.StandFor : Items → List Value → Prop
  | closed (stop : Nat) : Items.StandFor (.closed stop) []
  | cons (settled : Nat) {item : Document} {rest : Items} {value : Value} {values : List Value}
    (hitem : Document.StandsFor item value) (hrest : Items.StandFor rest values) :
    Items.StandFor (.cons item settled rest) (value :: values)

/-- The members of an object stand for named values, one by one. -/
inductive Members.StandFor : Members → List (String × Value) → Prop
  | closed (stop : Nat) : Members.StandFor (.closed stop) []
  | cons (stop keySettled settled : Nat) (name : String) {item : Document} {rest : Members}
    {value : Value} {values : List (String × Value)} (hitem : Document.StandsFor item value)
    (hrest : Members.StandFor rest values) :
    Members.StandFor (.cons ⟨.ok name, stop, keySettled⟩ item settled rest)
      ((name, value) :: values)

end

/-! ### Depth -/

mutual

/-- How many containers of a value are open at once. -/
def Value.depth : Value → Nat
  | .array items => itemsDepth items + 1
  | .object members => membersDepth members + 1
  | _ => 0

/-- How many containers are open at once in a list of values. -/
def itemsDepth : List Value → Nat
  | [] => 0
  | item :: rest => max item.depth (itemsDepth rest)

/-- How many containers are open at once in a list of members. -/
def membersDepth : List (String × Value) → Nat
  | [] => 0
  | (_, value) :: rest => max value.depth (membersDepth rest)

end

/-! ### Range -/

mutual

/-- Every integer of a value fits one of the two 64-bit ranges. -/
def Value.InRange : Value → Prop
  | .integer value => Int64.minValue.toInt ≤ value ∧ value ≤ (UInt64.size - 1 : Nat)
  | .array items => ItemsInRange items
  | .object members => MembersInRange members
  | _ => True

/-- Every integer of a list of values fits. -/
def ItemsInRange : List Value → Prop
  | [] => True
  | item :: rest => item.InRange ∧ ItemsInRange rest

/-- Every integer of a list of members fits. -/
def MembersInRange : List (String × Value) → Prop
  | [] => True
  | (_, value) :: rest => value.InRange ∧ MembersInRange rest

end

end OverrideCheck.Json
