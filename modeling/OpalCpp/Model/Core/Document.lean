import OpalCpp.Model.Core.Bytes
import OpalCpp.Model.Core.Timestamp

/-! # Documents

The structured value between typed shapes and the wire codecs. A map is the list of its members in
the order of `std::map`, by their keys as unsigned bytes; a double is its bits.
-/

namespace OpalCpp

inductive Document where
  | null
  | bool (value : Bool)
  | int (value : Int64)
  | double (value : Binary64)
  | string (value : Bytes)
  | blob (value : Bytes)
  | timestamp (value : TimestampValue)
  | list (items : List Document)
  | map (members : List (Bytes × Document))

abbrev DocumentMap := List (Bytes × Document)

/-- `insert_or_assign`: in the place of the key, whether it is taken or not. -/
def DocumentMap.insertOrAssign (key : Bytes) (value : Document) : DocumentMap → DocumentMap
  | [] => [(key, value)]
  | (other, old) :: members =>
    if key < other then (key, value) :: (other, old) :: members
    else if other < key then (other, old) :: insertOrAssign key value members
    else (key, value) :: members

namespace Document

/-- `Find`: of a map. -/
def find (key : Bytes) : Document → Option Document
  | .map members => members.lookup key
  | _ => none

mutual

/-- `operator==`: of the alternatives and what they hold, doubles as numbers. -/
def equals : Document → Document → Bool
  | .null, .null => true
  | .bool a, .bool b => a = b
  | .int a, .int b => a = b
  | .double a, .double b => a.equals b
  | .string a, .string b => a = b
  | .blob a, .blob b => a = b
  | .timestamp a, .timestamp b => a = b
  | .list a, .list b => allEqual a b
  | .map a, .map b => membersEqual a b
  | _, _ => false

def allEqual : List Document → List Document → Bool
  | [], [] => true
  | a :: as, b :: bs => a.equals b && allEqual as bs
  | _, _ => false

def membersEqual : List (Bytes × Document) → List (Bytes × Document) → Bool
  | [], [] => true
  | (key, a) :: as, (other, b) :: bs => key = other && a.equals b && membersEqual as bs
  | _, _ => false

end

mutual

/-- What the types of the source guarantee: the keys of a map are in order and different, and every
size fits in a `std::size_t` with room to spare. -/
def WellFormed : Document → Prop
  | .string value => value.length < 2 ^ 63
  | .blob value => value.length < 2 ^ 63
  | .list items => items.length < 2 ^ 63 ∧ allWellFormed items
  | .map members =>
    members.length < 2 ^ 63 ∧ (members.map Prod.fst).Pairwise (· < ·) ∧ membersWellFormed members
  | _ => True

def allWellFormed : List Document → Prop
  | [] => True
  | item :: items => item.WellFormed ∧ allWellFormed items

def membersWellFormed : List (Bytes × Document) → Prop
  | [] => True
  | (key, value) :: members => key.length < 2 ^ 63 ∧ value.WellFormed ∧ membersWellFormed members

end

end Document

end OpalCpp
