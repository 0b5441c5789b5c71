/-!
# JSON values

A number is either an integer or a double; an object lists its members in increasing order of
their keys, each key once. Looking up a member of anything that has none gives `null`, so a
lenient reader can walk a value without failing.
-/

namespace LanguageClient

/-- A JSON number: an integer, or the bits of a finite double. -/
inductive Number where
  | int (value : Int)
  | double (bits : UInt64)
deriving DecidableEq, Repr

namespace Number

/-- The number as an unsigned 64-bit integer; a double is none. -/
def nat64? : Number → Option Nat
  | .int i => if 0 ≤ i ∧ i < 0x10000000000000000 then some i.toNat else none
  | .double _ => none

/-- The number as a signed 64-bit integer; a double is none. -/
def int64? : Number → Option Int
  | .int i => if -0x8000000000000000 ≤ i ∧ i < 0x8000000000000000 then some i else none
  | .double _ => none

/-- The number as a signed 32-bit integer; a double is none. -/
def int32? : Number → Option Int
  | .int i => if -0x80000000 ≤ i ∧ i < 0x80000000 then some i else none
  | .double _ => none

end Number

/-- A JSON value. -/
inductive Json where
  | null
  | bool (value : Bool)
  | num (value : Number)
  | str (value : String)
  | arr (items : List Json)
  | obj (members : List (String × Json))
deriving Repr

instance : Inhabited Json := ⟨.null⟩

/-- The members of an object, keys increasing. -/
abbrev Members := List (String × Json)

namespace Members

/-- The value of a key. -/
def find? (key : String) : Members → Option Json
  | [] => none
  | (k, v) :: rest => if k = key then some v else find? key rest

/-- Sets a key, keeping the order; a value that the key had is replaced. -/
def insert (key : String) (value : Json) : Members → Members
  | [] => [(key, value)]
  | (k, v) :: rest =>
      if key = k then (key, value) :: rest
      else if key < k then (key, value) :: (k, v) :: rest
      else (k, v) :: insert key value rest

/-- Members from pairs in any order; of a repeated key the last value stays. -/
def ofList (pairs : List (String × Json)) : Members :=
  pairs.foldl (fun ms p => insert p.1 p.2 ms) []

/-- A member that is left out when absent. -/
def optional (key : String) : Option Json → Members
  | some j => [(key, j)]
  | none => []

end Members

namespace Json

/-- A natural number as a value. -/
def ofNat (n : Nat) : Json := .num (.int n)

/-- An integer as a value. -/
def ofInt (i : Int) : Json := .num (.int i)

/-- An object from pairs in any order; of a repeated key the last value stays. -/
def mkObj (pairs : List (String × Json)) : Json := .obj (Members.ofList pairs)

/-- An optional value, `null` when absent. -/
def ofOption {α : Type} (f : α → Json) : Option α → Json
  | some a => f a
  | none => .null

/-- The member `key` of an object, if it has one. -/
def member? (key : String) : Json → Option Json
  | .obj members => Members.find? key members
  | _ => none

/-- The member `key`, `null` when there is none. -/
def get (j : Json) (key : String) : Json :=
  (j.member? key).getD .null

/-- The text of a string. -/
def str? : Json → Option String
  | .str s => some s
  | _ => none

/-- The value of a boolean. -/
def bool? : Json → Option Bool
  | .bool b => some b
  | _ => none

/-- The number of a number. -/
def num? : Json → Option Number
  | .num n => some n
  | _ => none

/-- An unsigned 64-bit integer. -/
def nat64? (j : Json) : Option Nat := j.num?.bind Number.nat64?

/-- A signed 64-bit integer. -/
def int64? (j : Json) : Option Int := j.num?.bind Number.int64?

/-- A signed 32-bit integer. -/
def int32? (j : Json) : Option Int := j.num?.bind Number.int32?

/-- The items of an array. -/
def arr? : Json → Option (List Json)
  | .arr items => some items
  | _ => none

/-- The items of an array; anything else has none. -/
def items (j : Json) : List Json := j.arr?.getD []

/-- Is the value an object? -/
def isObj : Json → Bool
  | .obj _ => true
  | _ => false

/-- Is the value `null`? -/
def isNull : Json → Bool
  | .null => true
  | _ => false

/-- Is the value a string? -/
def isStr : Json → Bool
  | .str _ => true
  | _ => false

/-- Is the value a number? -/
def isNum : Json → Bool
  | .num _ => true
  | _ => false

end Json

end LanguageClient
